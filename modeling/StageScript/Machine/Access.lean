import StageScript.Machine.Basic
import StageScript.Variable.Basic

/-! # Access to variables
What reading and writing a variable does to the machine.
* `Variable.read?` and `Variable.write?` have no result where the index, or the value written, is out
  of range;
* `Variable.read` and `Variable.write` turn that into zero and nothing, or in strict mode into a
  fault. Writes to read-only variables are dropped. -/

namespace StageScript

/-- A list of a given length: cut off, or filled up with zeros. -/
def resize (xs : Array Nat) (length : Nat) : Array Nat :=
  xs.extract 0 length ++ Array.replicate (length - xs.size) 0

@[simp] theorem size_resize (xs : Array Nat) (length : Nat) : (resize xs length).size = length := by
  simp [resize]; omega

namespace Machine

open Indexed

/-- The slot of an entity that a word names. -/
def slot? (index : Word) : Option (Fin entityCount) := position? entityCount index

/-- The hitbox of the active player's animation frame. -/
def playerHitbox? (m : Machine) : Option Hitbox := do
  let e := m.scene.playerEntity
  let file ← m.scene.animations[← (m.typeData e.typeId).animation]?
  file.hitbox? e.animation.toNat e.frame.toNat

/-- The parallax lines along an axis. -/
def parallaxLines (s : Scene) : Axis → Vector Parallax parallaxCount
  | .horizontal => s.horizontalParallax
  | .vertical => s.verticalParallax

/-- Changes the parallax lines along an axis. -/
def setParallaxLines (s : Scene) (axis : Axis) (lines : Vector Parallax parallaxCount) : Scene :=
  match axis with
  | .horizontal => { s with horizontalParallax := lines }
  | .vertical => { s with verticalParallax := lines }

end Machine

namespace Variable

open Indexed Machine

/-! ## Reading -/

/-- The value of a variable at an index, if the index is in range. -/
def read? (m : Machine) (index : Word) : Variable → Option Word
  | .temp k => some (m.registers.tempValues.get k)
  | .checkResult => some m.registers.checkResult
  | .arrayPos r => some (m.registers.index r)
  | .global => index.index?.bind (m.scene.globals[·]?)
  | .objectNumber => (slot? index).map fun _ => index
  | .object field => (slot? index).map fun i => field.accessor.get (m.scene.entities.get i)
  | .objectOutOfBounds =>
    (slot? index).map fun i => Word.ofBool !(m.scene.inBounds (m.scene.entities.get i))
  | .objectSheet => (slot? index).map fun i => (m.typeData (m.scene.entities.get i).typeId).spriteSheet
  | .playerEntity field => some (field.entityField.accessor.get m.scene.playerEntity)
  | .player field => some (field.accessor.get m.scene.activePlayer)
  | .playerNumber => some (Word.ofNat m.scene.activePlayer.entity.val)
  | .playerHitbox edge => some (m.playerHitbox?.elim 0 (·.edge edge))
  | .playerFlailing => (at? m.scene.activePlayer.flailing index).map Word.ofByte
  | .stage field => some (field.accessor.get m.scene.stage)
  | .deformation buffer => at? (m.scene.deformation.get buffer) index
  | .activePlayer => some (Word.ofNat m.scene.stage.activePlayer.val)
  | .screen field => some (field.accessor.get m.scene.screen)
  | .drawListSize => (at? m.scene.drawLists index).map fun list => Word.ofNat list.size
  | .screenWidth => some m.scene.screen.xSize
  | .screenHeight => some m.scene.screen.ySize
  | .touch field => (at? m.scene.touches index).map field.get
  | .touchCount => some (Word.ofNat (m.scene.touches.toList.countP (·.down)))
  | .musicVolume => some m.scene.music.volume
  | .currentTrack => some m.scene.music.currentTrack
  | .key press button => some (Word.ofBool ((m.scene.input.get press).get button))
  | .menuSelection menu => some (m.scene.menus.get menu).selection1
  | .tileLayer field => (at? m.scene.tileLayers index).map field.accessor.get
  | .parallax axis field => (at? (parallaxLines m.scene axis) index).map field.accessor.get
  | .space field => some (field.accessor.get m.scene.space)
  | .vertex field => (at? m.scene.space.vertices index).map field.accessor.get
  | .face field => (at? m.scene.space.faces index).map field.accessor.get
  | .engine field => some (field.accessor.get m.scene.engine)
  | .effectsVolume => some m.scene.engine.sfxVolume
  | .trackVolume => some m.scene.engine.bgmVolume
  | .saveRam => at? m.scene.saveRam index

/-! ## Writing -/

/-- Changes the scene if there is a change to make. -/
def change? (m : Machine) (scene? : Option Scene) : Option Machine :=
  scene?.map fun scene => { m with scene }

/-- The scene behind a write to a variable that is kept in the scene alone. -/
def writeScene? (s : Scene) (index value : Word) : Variable → Option Scene
  | .global => do
    let i ← index.index?
    if i < s.globals.size then some { s with globals := s.globals.setIfInBounds i value } else none
  | .object field =>
    (slot? index).map fun i => s.modifyEntity i fun e => field.accessor.set e value
  | .playerEntity field =>
    some (s.modifyEntity s.activePlayer.entity fun e => field.entityField.accessor.set e value)
  | .player field => some (s.modifyActivePlayer fun p => field.accessor.set p value)
  | .playerNumber =>
    (slot? value).map fun entity => s.modifyActivePlayer fun p => { p with entity }
  | .playerFlailing =>
    (update? s.activePlayer.flailing index fun _ => value.lowByte).map fun flailing =>
      s.modifyActivePlayer fun p => { p with flailing }
  | .stage field => some { s with stage := field.accessor.set s.stage value }
  | .deformation buffer =>
    (update? (s.deformation.get buffer) index fun _ => value).map fun data =>
      { s with deformation := put s.deformation buffer data }
  | .activePlayer =>
    (position? playerCount value).map fun activePlayer =>
      { s with stage := { s.stage with activePlayer } }
  | .screen field => some { s with screen := field.accessor.set s.screen value }
  | .drawListSize => do
    let length ← value.index?
    if length ≤ entityCount then
      (update? s.drawLists index (resize · length)).map fun drawLists => { s with drawLists }
    else none
  | .currentTrack => some { s with music := { s.music with currentTrack := value } }
  | .key press button =>
    let buttons := (s.input.get press).set button (value ≠ 0)
    some { s with input := s.input.set press buttons }
  | .menuSelection menu =>
    let changed := { s.menus.get menu with selection1 := value }
    some { s with menus := put s.menus menu changed }
  | .tileLayer field =>
    (update? s.tileLayers index (field.accessor.set · value)).map fun tileLayers =>
      { s with tileLayers }
  | .parallax axis field =>
    (update? (parallaxLines s axis) index (field.accessor.set · value)).map (setParallaxLines s axis)
  | .space field => some { s with space := field.accessor.set s.space value }
  | .vertex field =>
    (update? s.space.vertices index (field.accessor.set · value)).map fun vertices =>
      { s with space := { s.space with vertices } }
  | .face field =>
    (update? s.space.faces index (field.accessor.set · value)).map fun faces =>
      { s with space := { s.space with faces } }
  | .engine field => some { s with engine := field.accessor.set s.engine value }
  | .saveRam => (update? s.saveRam index fun _ => value).map fun saveRam => { s with saveRam }
  | _ => some s

/-- A volume between silence and full. -/
def clampVolume (w : Word) : Word := if w < 0 then 0 else if 100 < w then 100 else w

/-- The machine behind a write to a variable, if the index and the value are in range. -/
def write? (m : Machine) (index value : Word) : Variable → Option Machine
  | .temp k =>
    some (m.modifyRegisters fun r => { r with tempValues := put r.tempValues k value })
  | .checkResult => some (m.answer value)
  | .arrayPos register =>
    some (m.modifyRegisters (·.setIndex register value))
  | .objectSheet =>
    (slot? index).map fun i =>
      m.modifyType (m.scene.entities.get i).typeId fun t => { t with spriteSheet := value }
  | .musicVolume =>
    let volume := clampVolume value
    some ((m.modifyScene fun s => { s with music := { s.music with volume } }).call
      (.audio (.musicVolume volume)))
  | .effectsVolume =>
    some ((m.modifyScene fun s => { s with engine := { s.engine with sfxVolume := value } }).call
      (.audio (.sfxVolume value)))
  | .trackVolume =>
    some ((m.modifyScene fun s => { s with engine := { s.engine with bgmVolume := value } }).call
      (.audio (.bgmVolume value)))
  | v => change? m (v.writeScene? m.scene index value)

/-! ## Steps -/

/-- Reads a variable. -/
def read (v : Variable) (index : Word) : Exec Word := do
  match v.read? (← get) index with
  | some value => return value
  | none =>
    outOfRange v.name index
    return 0

/-- Writes a variable. -/
def write (v : Variable) (index value : Word) : Exec Unit := do
  match v.write? (← get) index value with
  | some m => set m
  | none => outOfRange v.name index

end Variable

end StageScript
