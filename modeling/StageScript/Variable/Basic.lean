import StageScript.Text.Basic
import StageScript.Variable.Field
import StageScript.Word

/-! # Variables
Every name that an operand can refer to, save constants.
* `Variable.name` is a variable's spelling;
* `Variable.all` lists the variables in the order of their numbers in compiled code;
* `Variable.lookup?` finds a variable by its spelling. -/

namespace StageScript

/-- A variable. Most are indexed by an entity, a layer or another position; the others ignore their
index. -/
inductive Variable
  /-- One of the eight scratch registers. -/
  | temp (k : Fin 8)
  /-- The register that checks and queries leave their answer in. -/
  | checkResult
  /-- A register that can serve as an index. -/
  | arrayPos (register : IndexRegister)
  /-- The configured globals, by position. -/
  | global
  /-- The number of an entity. -/
  | objectNumber
  | object (field : EntityField)
  /-- Whether an entity is outside the active area of the screen. -/
  | objectOutOfBounds
  /-- The sprite sheet of an entity's type. -/
  | objectSheet
  | playerEntity (field : PlayerEntityField)
  | player (field : PlayerField)
  /-- The number of the entity that the active player is bound to. -/
  | playerNumber
  /-- An edge of the hitbox of the active player's animation frame. -/
  | playerHitbox (edge : Edge)
  /-- The three edge sensors of the active player. -/
  | playerFlailing
  | stage (field : StageField)
  /-- The deformation buffers of the stage. -/
  | deformation (buffer : Fin 4)
  /-- The number of the active player. -/
  | activePlayer
  | screen (field : ScreenField)
  /-- The length of a draw list. -/
  | drawListSize
  | screenWidth
  | screenHeight
  | touch (field : TouchField)
  /-- How many touches are down. -/
  | touchCount
  | musicVolume
  | currentTrack
  | key (press : Press) (button : Button)
  /-- The selected row of a menu. -/
  | menuSelection (menu : Fin 2)
  | tileLayer (field : TileLayerField)
  | parallax (axis : Axis) (field : ParallaxField)
  | space (field : SpaceField)
  | vertex (field : VertexField)
  | face (field : FaceField)
  | engine (field : EngineField)
  | effectsVolume
  | trackVolume
  /-- The words of the save file. -/
  | saveRam
  deriving DecidableEq, Repr

namespace Variable

/-- A variable's spelling in scripts. -/
def name : Variable → String
  | .temp k => "TempValue" ++ toString k.val
  | .checkResult => "CheckResult"
  | .arrayPos register => register.name
  | .global => "Global"
  | .objectNumber => "Object.EntityNo"
  | .object field => "Object." ++ field.name
  | .objectOutOfBounds => "Object.OutOfBounds"
  | .objectSheet => "Object.SpriteSheet"
  | .playerEntity field => "Player." ++ field.entityField.name
  | .player field => "Player." ++ field.name
  | .playerNumber => "Player.EntityNo"
  | .playerHitbox edge => "Player.Collision" ++ edge.name
  | .playerFlailing => "Player.Flailing"
  | .stage field => "Stage." ++ field.name
  | .deformation buffer => "Stage.DeformationData" ++ toString buffer.val
  | .activePlayer => "Stage.ActivePlayer"
  | .screen field => "Screen." ++ field.name
  | .drawListSize => "Screen.DrawListSize"
  | .screenWidth => "Screen.XSize"
  | .screenHeight => "Screen.YSize"
  | .touch field => "TouchScreen." ++ field.name
  | .touchCount => "TouchScreen.Touches"
  | .musicVolume => "Music.Volume"
  | .currentTrack => "Music.CurrentTrack"
  | .key .held button => "KeyDown." ++ button.name
  | .key .pressed button => "KeyPress." ++ button.name
  | .menuSelection menu => "Menu" ++ toString (menu.val + 1) ++ ".Selection"
  | .tileLayer field => "TileLayer." ++ field.name
  | .parallax .horizontal field => "HParallax." ++ field.name
  | .parallax .vertical field => "VParallax." ++ field.name
  | .space field => "3DScene." ++ field.name
  | .vertex field => "VertexBuffer." ++ field.name
  | .face field => "FaceBuffer." ++ field.name
  | .engine field => "Engine." ++ field.name
  | .effectsVolume => "Engine.SFXVolume"
  | .trackVolume => "Engine.BGMVolume"
  | .saveRam => "SaveRAM"

/-! ## The order of variables -/

/-- The registers and the globals. -/
def registers : List Variable :=
  (List.finRange 8).map .temp ++ ([.checkResult, .arrayPos .arrayPos0, .arrayPos .arrayPos1,
    .arrayPos .tempObjectPos, .global] : List Variable)

/-- The variables of entities. -/
def ofObject : List Variable :=
  ([.objectNumber, .object .typeId, .object .propertyValue, .object .xPos, .object .yPos,
    .object .wholeX, .object .wholeY, .object .state, .object .rotation, .object .scale,
    .object .priority, .object .drawOrder, .object .direction, .object .inkEffect, .object .alpha,
    .object .frame, .object .animation, .object .prevAnimation, .object .animationSpeed,
    .object .animationTimer] : List Variable)
  ++ (List.finRange 8).map (.object <| .value ·) ++ ([.objectOutOfBounds, .objectSheet] : List Variable)

/-- The variables of the active player. -/
def ofPlayer : List Variable :=
  ([.playerEntity .state, .player .controlMode, .player .controlLock, .player .collisionMode,
    .player .collisionPlane, .player .xPos, .player .yPos, .player .wholeX, .player .wholeY,
    .player .screenXPos, .player .screenYPos, .player .speed, .player .xVelocity,
    .player .yVelocity, .player .gravity, .player .angle, .player .skidding, .player .pushing,
    .player .trackScroll, .player .up, .player .down, .player .left, .player .right,
    .player .jumpPress, .player .jumpHold, .player .followPlayer1, .player .lookPos,
    .player .water, .player .topSpeed, .player .acceleration, .player .deceleration,
    .player .airAcceleration, .player .airDeceleration, .player .gravityStrength,
    .player .jumpStrength, .player .jumpCap, .player .rollingAcceleration,
    .player .rollingDeceleration, .playerNumber, .playerHitbox .left, .playerHitbox .top,
    .playerHitbox .right, .playerHitbox .bottom, .playerFlailing, .player .timer,
    .player .tileCollisions, .player .objectInteraction, .player .visible,
    .playerEntity .rotation, .playerEntity .direction, .playerEntity .frame,
    .playerEntity .animation, .playerEntity .prevAnimation, .playerEntity .animationSpeed,
    .playerEntity .animationTimer, .playerEntity .typeId] : List Variable)
  ++ (List.finRange 8).map (.player <| .value ·)

/-- The variables of the stage. -/
def ofStage : List Variable :=
  ([.stage .state, .stage .activeList, .stage .listPos, .stage .timeEnabled, .stage .milliSeconds,
    .stage .seconds, .stage .minutes, .stage .actNo, .stage .pauseEnabled, .stage .listSize,
    .stage .newXBoundary1, .stage .newXBoundary2, .stage .newYBoundary1, .stage .newYBoundary2,
    .stage .xBoundary1, .stage .xBoundary2, .stage .yBoundary1, .stage .yBoundary2] : List Variable)
  ++ (List.finRange 4).map .deformation
  ++ ([.stage .waterLevel, .stage .activeLayer, .stage .midPoint, .stage .playerListPos,
    .activePlayer, .stage .debugMode] : List Variable)

/-- The variables of the screen, of fingers on it, and of the music. -/
def ofScreen : List Variable :=
  [.screen .cameraEnabled, .screen .cameraTarget, .screen .cameraStyle, .drawListSize,
    .screen .centerX, .screen .centerY, .screenWidth, .screenHeight, .screen .xOffset,
    .screen .yOffset, .screen .shakeX, .screen .shakeY, .screen .adjustCameraY, .touch .down,
    .touch .xPos, .touch .yPos, .touchCount, .musicVolume, .currentTrack]

/-- The variables of buttons and menus. -/
def ofInput : List Variable :=
  ([.key .held .up, .key .held .down, .key .held .left, .key .held .right, .key .held .buttonA,
    .key .held .buttonB, .key .held .buttonC, .key .held .start, .key .pressed .up,
    .key .pressed .down, .key .pressed .left, .key .pressed .right, .key .pressed .buttonA,
    .key .pressed .buttonB, .key .pressed .buttonC, .key .pressed .start] : List Variable)
  ++ (List.finRange 2).map .menuSelection

/-- The variables of tile layers and parallax lines. -/
def ofLayers : List Variable :=
  [.tileLayer .xSize, .tileLayer .ySize, .tileLayer .typeId, .tileLayer .angle,
    .tileLayer .xPos, .tileLayer .yPos, .tileLayer .zPos, .tileLayer .parallaxFactor,
    .tileLayer .scrollSpeed, .tileLayer .scrollPos, .tileLayer .deformationOffset,
    .tileLayer .deformationOffsetW, .parallax .horizontal .parallaxFactor,
    .parallax .horizontal .scrollSpeed, .parallax .horizontal .scrollPos,
    .parallax .vertical .parallaxFactor, .parallax .vertical .scrollSpeed,
    .parallax .vertical .scrollPos]

/-- The variables of the three-dimensional scene. -/
def ofSpace : List Variable :=
  [.space .noVertices, .space .noFaces, .space .projectionX, .space .projectionY, .vertex .x,
    .vertex .y, .vertex .z, .vertex .u, .vertex .v, .face .a, .face .b, .face .c, .face .d,
    .face .flag, .face .color]

/-- The variables of the engine, and the save file. -/
def ofEngine : List Variable :=
  [.engine .state, .engine .language, .engine .onlineActive, .engine .frameSkipTimer,
    .engine .frameSkipSetting, .effectsVolume, .trackVolume, .engine .platformID,
    .engine .trialMode, .engine .message, .engine .hapticsEnabled, .saveRam]

/-- Every variable, in the order of the numbers that compiled code holds. -/
def all : Array Variable :=
  (registers ++ ofObject ++ ofPlayer ++ ofStage ++ ofScreen ++ ofInput ++ ofLayers ++ ofSpace
    ++ ofEngine).toArray

/-! ## Look-up -/

/-- The word that stands for a variable in compiled code. -/
def word (v : Variable) : Word := Word.ofNat (all.idxOf v)

/-- The variable that a word of compiled code stands for. -/
def ofWord? (w : Word) : Option Variable := w.index?.bind (all[·]?)

/-- The variables with their spellings. -/
def named : List (Text × Variable) := all.toList.map fun v => (v.name.toList, v)

/-- The variable of a spelling, without regard to ASCII case. -/
def lookup? (spelling : Text) : Option Variable :=
  (named.find? fun entry => Text.sameName entry.1 spelling).map (·.2)

/-- Whether writes to a variable are dropped. -/
def isReadOnly : Variable → Bool
  | .objectNumber => true
  | .objectOutOfBounds => true
  | .playerHitbox _ => true
  | .screenWidth => true
  | .screenHeight => true
  | .touch _ => true
  | .touchCount => true
  | _ => false

/-- There are 217 variables. -/
theorem size_all : all.size = 217 := by decide +kernel

end Variable

end StageScript
