import StageScript.Scene.Animation
import StageScript.Scene.Layer
import StageScript.Scene.Menu
import StageScript.Scene.Player
import StageScript.Scene.Space
import StageScript.Scene.Stage

/-! # Scenes
A scene is everything that scripts can read and write between frames.
* `Scene.activePlayer` and `Scene.playerEntity` are the player that scripts mean and its entity;
* `Scene.inBounds` says whether an entity is in the active area around the screen. -/

namespace StageScript

/-- The most sprite frames of a scene. -/
def spriteFrameCapacity : Nat := 0x1000

/-- The number of words of a save file. -/
def saveRamSize : Nat := 0x2000

/-- The number of draw lists. -/
def drawListCount : Nat := 7

/-- A rectangle cut out of a sprite sheet. -/
structure SpriteFrame where
  /-- Where the rectangle's corner lies from the drawn point. -/
  pivotX : Word := 0
  pivotY : Word := 0
  width : Word := 0
  height : Word := 0
  /-- Where the rectangle lies on the sheet. -/
  spriteX : Word := 0
  spriteY : Word := 0
  deriving DecidableEq, Repr

/-- The state of the game that scripts work on. -/
structure Scene where
  entities : Vector Entity entityCount := Vector.replicate entityCount {}
  players : Vector Player playerCount := Vector.replicate playerCount {}
  stage : Stage := {}
  /-- The deformation buffers of the stage. -/
  deformation : Vector Deformation 4 := Vector.replicate 4 (Vector.replicate deformationLength 0)
  screen : Screen := {}
  input : Input := {}
  touches : Vector TouchPoint 4 := Vector.replicate 4 {}
  music : Music := {}
  menus : Vector TextMenu 2 := Vector.replicate 2 {}
  tileLayers : Vector TileLayer tileLayerCount := Vector.replicate tileLayerCount {}
  horizontalParallax : Vector Parallax parallaxCount := Vector.replicate parallaxCount {}
  verticalParallax : Vector Parallax parallaxCount := Vector.replicate parallaxCount {}
  space : Scene3D := {}
  engine : EngineFlags := {}
  /-- The configured globals. -/
  globals : Array Word := #[]
  saveRam : Vector Word saveRamSize := Vector.replicate saveRamSize 0
  /-- The numbers of the entities to draw, layer by layer. -/
  drawLists : Vector (Array Nat) drawListCount := Vector.replicate drawListCount #[]
  /-- The sprite frames of all types, type by type. -/
  spriteFrames : Array SpriteFrame := #[]
  /-- The animation files that have been loaded. -/
  animations : Array AnimationFile := #[]
  deriving DecidableEq

namespace Scene

/-- The player that scripts mean. -/
def activePlayer (s : Scene) : Player := s.players.get s.stage.activePlayer

/-- Changes the player that scripts mean. -/
def modifyActivePlayer (s : Scene) (change : Player → Player) : Scene :=
  let active := s.stage.activePlayer
  { s with players := Indexed.put s.players active (change (s.players.get active)) }

/-- The entity that the active player is bound to. -/
def playerEntity (s : Scene) : Entity := s.entities.get s.activePlayer.entity

/-- Changes an entity. -/
def modifyEntity (s : Scene) (slot : Fin entityCount) (change : Entity → Entity) : Scene :=
  { s with entities := Indexed.put s.entities slot (change (s.entities.get slot)) }

@[simp] theorem entities_modifyEntity (s : Scene) (slot other : Fin entityCount)
    (change : Entity → Entity) :
    (s.modifyEntity slot change).entities.get other =
      if slot = other then change (s.entities.get slot) else s.entities.get other := by
  simp [modifyEntity]

/-- The slot of an entity number, if there is one. -/
def entitySlot? (number : Nat) : Option (Fin entityCount) := Indexed.place? entityCount number

/-- How far the active area reaches beyond the left and the right edge of the screen. -/
def horizontalMargin : Word := 0x80

/-- How far the active area reaches beyond the upper and the lower edge of the screen. -/
def verticalMargin : Word := 0x100

/-- Whether an entity is horizontally in the active area. -/
def inHorizontalBounds (s : Scene) (e : Entity) : Bool :=
  s.screen.xOffset - horizontalMargin < e.xPos.whole
    && e.xPos.whole < s.screen.xOffset + (s.screen.xSize + horizontalMargin)

/-- Whether an entity is vertically in the active area. -/
def inVerticalBounds (s : Scene) (e : Entity) : Bool :=
  s.screen.yOffset - verticalMargin < e.yPos.whole
    && e.yPos.whole < s.screen.yOffset + (s.screen.ySize + verticalMargin)

/-- Whether an entity is in the active area. -/
def inBounds (s : Scene) (e : Entity) : Bool := s.inHorizontalBounds e && s.inVerticalBounds e

end Scene

end StageScript
