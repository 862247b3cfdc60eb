/-! # Fields
The named parts of the records that scripts can read and write, with the names that scripts write
behind the dot. -/

namespace StageScript

/-- A field of an entity. -/
inductive EntityField
  | typeId
  | propertyValue
  | xPos
  | yPos
  /-- The whole pixels of the horizontal position. -/
  | wholeX
  /-- The whole pixels of the vertical position. -/
  | wholeY
  | state
  | rotation
  | scale
  | priority
  | drawOrder
  | direction
  | inkEffect
  | alpha
  | frame
  | animation
  | prevAnimation
  | animationSpeed
  | animationTimer
  /-- One of the eight values that a script may use as it likes. -/
  | value (k : Fin 8)
  deriving DecidableEq, Repr

/-- The field as it is written behind `Object.`. -/
def EntityField.name : EntityField → String
  | .typeId => "Type"
  | .propertyValue => "PropertyValue"
  | .xPos => "XPos"
  | .yPos => "YPos"
  | .wholeX => "iXPos"
  | .wholeY => "iYPos"
  | .state => "State"
  | .rotation => "Rotation"
  | .scale => "Scale"
  | .priority => "Priority"
  | .drawOrder => "DrawOrder"
  | .direction => "Direction"
  | .inkEffect => "InkEffect"
  | .alpha => "Alpha"
  | .frame => "Frame"
  | .animation => "Animation"
  | .prevAnimation => "PrevAnimation"
  | .animationSpeed => "AnimationSpeed"
  | .animationTimer => "AnimationTimer"
  | .value k => "Value" ++ toString k.val

/-- A field of the entity that the active player is bound to. -/
inductive PlayerEntityField
  | state
  | rotation
  | direction
  | frame
  | animation
  | prevAnimation
  | animationSpeed
  | animationTimer
  | typeId
  deriving DecidableEq, Repr

/-- The field of the entity itself. -/
def PlayerEntityField.entityField : PlayerEntityField → EntityField
  | .state => .state
  | .rotation => .rotation
  | .direction => .direction
  | .frame => .frame
  | .animation => .animation
  | .prevAnimation => .prevAnimation
  | .animationSpeed => .animationSpeed
  | .animationTimer => .animationTimer
  | .typeId => .typeId

/-- A field of the active player. -/
inductive PlayerField
  | controlMode
  | controlLock
  | collisionMode
  | collisionPlane
  | xPos
  | yPos
  /-- The whole pixels of the horizontal position. -/
  | wholeX
  /-- The whole pixels of the vertical position. -/
  | wholeY
  | screenXPos
  | screenYPos
  | speed
  | xVelocity
  | yVelocity
  | gravity
  | angle
  | skidding
  | pushing
  | trackScroll
  | up
  | down
  | left
  | right
  | jumpPress
  | jumpHold
  | followPlayer1
  | lookPos
  | water
  | topSpeed
  | acceleration
  | deceleration
  | airAcceleration
  | airDeceleration
  | gravityStrength
  | jumpStrength
  | jumpCap
  | rollingAcceleration
  | rollingDeceleration
  | timer
  | tileCollisions
  | objectInteraction
  | visible
  /-- One of the eight values that a script may use as it likes. -/
  | value (k : Fin 8)
  deriving DecidableEq, Repr

/-- The field as it is written behind `Player.`. -/
def PlayerField.name : PlayerField → String
  | .controlMode => "ControlMode"
  | .controlLock => "ControlLock"
  | .collisionMode => "CollisionMode"
  | .collisionPlane => "CollisionPlane"
  | .xPos => "XPos"
  | .yPos => "YPos"
  | .wholeX => "iXPos"
  | .wholeY => "iYPos"
  | .screenXPos => "ScreenXPos"
  | .screenYPos => "ScreenYPos"
  | .speed => "Speed"
  | .xVelocity => "XVelocity"
  | .yVelocity => "YVelocity"
  | .gravity => "Gravity"
  | .angle => "Angle"
  | .skidding => "Skidding"
  | .pushing => "Pushing"
  | .trackScroll => "TrackScroll"
  | .up => "Up"
  | .down => "Down"
  | .left => "Left"
  | .right => "Right"
  | .jumpPress => "JumpPress"
  | .jumpHold => "JumpHold"
  | .followPlayer1 => "FollowPlayer1"
  | .lookPos => "LookPos"
  | .water => "Water"
  | .topSpeed => "TopSpeed"
  | .acceleration => "Acceleration"
  | .deceleration => "Deceleration"
  | .airAcceleration => "AirAcceleration"
  | .airDeceleration => "AirDeceleration"
  | .gravityStrength => "GravityStrength"
  | .jumpStrength => "JumpStrength"
  | .jumpCap => "JumpCap"
  | .rollingAcceleration => "RollingAcceleration"
  | .rollingDeceleration => "RollingDeceleration"
  | .timer => "Timer"
  | .tileCollisions => "TileCollisions"
  | .objectInteraction => "ObjectInteraction"
  | .visible => "Visible"
  | .value k => "Value" ++ toString k.val

/-- A field of the stage. -/
inductive StageField
  | state
  | activeList
  | listPos
  | timeEnabled
  | milliSeconds
  | seconds
  | minutes
  | actNo
  | pauseEnabled
  | listSize
  | newXBoundary1
  | newXBoundary2
  | newYBoundary1
  | newYBoundary2
  | xBoundary1
  | xBoundary2
  | yBoundary1
  | yBoundary2
  | waterLevel
  | activeLayer
  | midPoint
  | playerListPos
  | debugMode
  deriving DecidableEq, Repr

/-- The field as it is written behind `Stage.`. -/
def StageField.name : StageField → String
  | .state => "State"
  | .activeList => "ActiveList"
  | .listPos => "ListPos"
  | .timeEnabled => "TimeEnabled"
  | .milliSeconds => "MilliSeconds"
  | .seconds => "Seconds"
  | .minutes => "Minutes"
  | .actNo => "ActNo"
  | .pauseEnabled => "PauseEnabled"
  | .listSize => "ListSize"
  | .newXBoundary1 => "NewXBoundary1"
  | .newXBoundary2 => "NewXBoundary2"
  | .newYBoundary1 => "NewYBoundary1"
  | .newYBoundary2 => "NewYBoundary2"
  | .xBoundary1 => "XBoundary1"
  | .xBoundary2 => "XBoundary2"
  | .yBoundary1 => "YBoundary1"
  | .yBoundary2 => "YBoundary2"
  | .waterLevel => "WaterLevel"
  | .activeLayer => "ActiveLayer"
  | .midPoint => "MidPoint"
  | .playerListPos => "PlayerListPos"
  | .debugMode => "DebugMode"

/-- A field of the screen that scripts can set. -/
inductive ScreenField
  | cameraEnabled
  | cameraTarget
  | cameraStyle
  | centerX
  | centerY
  | xOffset
  | yOffset
  | shakeX
  | shakeY
  | adjustCameraY
  deriving DecidableEq, Repr

/-- The field as it is written behind `Screen.`. -/
def ScreenField.name : ScreenField → String
  | .cameraEnabled => "CameraEnabled"
  | .cameraTarget => "CameraTarget"
  | .cameraStyle => "CameraStyle"
  | .centerX => "CenterX"
  | .centerY => "CenterY"
  | .xOffset => "XOffset"
  | .yOffset => "YOffset"
  | .shakeX => "ShakeX"
  | .shakeY => "ShakeY"
  | .adjustCameraY => "AdjustCameraY"

/-- A field of a touch. -/
inductive TouchField
  | down
  | xPos
  | yPos
  deriving DecidableEq, Repr

/-- The field as it is written behind `TouchScreen.`. -/
def TouchField.name : TouchField → String
  | .down => "Down"
  | .xPos => "XPos"
  | .yPos => "YPos"

/-- A button of the game pad. -/
inductive Button
  | up
  | down
  | left
  | right
  | buttonA
  | buttonB
  | buttonC
  | start
  deriving DecidableEq, Repr

/-- The button as it is written behind `KeyDown.` and `KeyPress.`. -/
def Button.name : Button → String
  | .up => "Up"
  | .down => "Down"
  | .left => "Left"
  | .right => "Right"
  | .buttonA => "ButtonA"
  | .buttonB => "ButtonB"
  | .buttonC => "ButtonC"
  | .start => "Start"

/-- A field of a tile layer. -/
inductive TileLayerField
  | xSize
  | ySize
  | typeId
  | angle
  | xPos
  | yPos
  | zPos
  | parallaxFactor
  | scrollSpeed
  | scrollPos
  | deformationOffset
  | deformationOffsetW
  deriving DecidableEq, Repr

/-- The field as it is written behind `TileLayer.`. -/
def TileLayerField.name : TileLayerField → String
  | .xSize => "XSize"
  | .ySize => "YSize"
  | .typeId => "Type"
  | .angle => "Angle"
  | .xPos => "XPos"
  | .yPos => "YPos"
  | .zPos => "ZPos"
  | .parallaxFactor => "ParallaxFactor"
  | .scrollSpeed => "ScrollSpeed"
  | .scrollPos => "ScrollPos"
  | .deformationOffset => "DeformationOffset"
  | .deformationOffsetW => "DeformationOffsetW"

/-- A field of a parallax line. -/
inductive ParallaxField
  | parallaxFactor
  | scrollSpeed
  | scrollPos
  deriving DecidableEq, Repr

/-- The field as it is written behind `HParallax.` and `VParallax.`. -/
def ParallaxField.name : ParallaxField → String
  | .parallaxFactor => "ParallaxFactor"
  | .scrollSpeed => "ScrollSpeed"
  | .scrollPos => "ScrollPos"

/-- A field of the three-dimensional scene. -/
inductive SpaceField
  | noVertices
  | noFaces
  | projectionX
  | projectionY
  deriving DecidableEq, Repr

/-- The field as it is written behind `3DScene.`. -/
def SpaceField.name : SpaceField → String
  | .noVertices => "NoVertices"
  | .noFaces => "NoFaces"
  | .projectionX => "ProjectionX"
  | .projectionY => "ProjectionY"

/-- A field of a vertex. -/
inductive VertexField
  | x
  | y
  | z
  | u
  | v
  deriving DecidableEq, Repr

/-- The field as it is written behind `VertexBuffer.`. -/
def VertexField.name : VertexField → String
  | .x => "x"
  | .y => "y"
  | .z => "z"
  | .u => "u"
  | .v => "v"

/-- A field of a face. -/
inductive FaceField
  | a
  | b
  | c
  | d
  | flag
  | color
  deriving DecidableEq, Repr

/-- The field as it is written behind `FaceBuffer.`. -/
def FaceField.name : FaceField → String
  | .a => "a"
  | .b => "b"
  | .c => "c"
  | .d => "d"
  | .flag => "Flag"
  | .color => "Color"

/-- A field of the engine. -/
inductive EngineField
  | state
  | language
  | onlineActive
  | frameSkipTimer
  | frameSkipSetting
  | platformID
  | trialMode
  | message
  | hapticsEnabled
  deriving DecidableEq, Repr

/-- The field as it is written behind `Engine.`. -/
def EngineField.name : EngineField → String
  | .state => "State"
  | .language => "Language"
  | .onlineActive => "OnlineActive"
  | .frameSkipTimer => "FrameSkipTimer"
  | .frameSkipSetting => "FrameSkipSetting"
  | .platformID => "PlatformID"
  | .trialMode => "TrialMode"
  | .message => "Message"
  | .hapticsEnabled => "HapticsEnabled"

/-- The edges of a box. -/
inductive Edge
  | left
  | top
  | right
  | bottom
  deriving DecidableEq, Repr

/-- The edge as it is written behind `Player.Collision`. -/
def Edge.name : Edge → String
  | .left => "Left"
  | .top => "Top"
  | .right => "Right"
  | .bottom => "Bottom"

/-- Whether a button is asked for while it is down or only when it goes down. -/
inductive Press
  | held
  | pressed
  deriving DecidableEq, Repr

/-- The direction along which parallax lines are stacked. -/
inductive Axis
  | horizontal
  | vertical
  deriving DecidableEq, Repr

/-- The registers that can stand in brackets as an index. -/
inductive IndexRegister
  | arrayPos0
  | arrayPos1
  | tempObjectPos
  deriving DecidableEq, Repr

namespace IndexRegister

/-- The registers in the order of their numbers in compiled code. -/
def all : List IndexRegister := [.arrayPos0, .arrayPos1, .tempObjectPos]

/-- The register's name in scripts. -/
def name : IndexRegister → String
  | .arrayPos0 => "ArrayPos0"
  | .arrayPos1 => "ArrayPos1"
  | .tempObjectPos => "TempObjectPos"

/-- The register's number. -/
def slot : IndexRegister → Fin 3
  | .arrayPos0 => 0
  | .arrayPos1 => 1
  | .tempObjectPos => 2

end IndexRegister

end StageScript
