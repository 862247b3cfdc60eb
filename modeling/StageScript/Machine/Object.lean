import StageScript.Machine.Access
import StageScript.Opcode.Basic

/-! # Object instructions
Entities, players and what they touch.
* `ObjectOp.tempSlot` is the slot of the next temporary object: such objects take the slots at the end
  of the list in turn;
* `ObjectOp.touching` is the finger that touches a rectangle. -/

namespace StageScript

namespace ObjectOp

open Indexed

/-! ## Entities -/

/-- Places a fresh object in a slot. -/
def resetSlot (o : Operands) : Exec Unit :=
  match Machine.slot? o[0] with
  | some slot => modify fun m => m.modifyScene fun s =>
      s.modifyEntity slot fun e => e.reset o[1].lowByte o[2].lowByte o[3] o[4]
  | none => outOfRange "ResetObjectEntity" o[0]

/-- Whether a slot is one of those for temporary objects. -/
def isTemp (slot : Fin entityCount) : Bool := tempEntityStart ≤ slot.val

/-- The first slot for temporary objects. -/
def firstTemp : Fin entityCount := ⟨tempEntityStart, by decide⟩

/-- The slot behind a slot for temporary objects, in a circle. -/
def nextTemp (slot : Fin entityCount) : Fin entityCount :=
  if h : slot.val + 1 < entityCount then ⟨slot.val + 1, h⟩ else firstTemp

/-- The slot of the next temporary object: the last one if it is empty, or else the one behind it. -/
def tempSlot (m : Machine) : Fin entityCount :=
  let last := ((Machine.slot? (m.registers.index .tempObjectPos)).filter isTemp).getD firstTemp
  if (m.scene.entities.get last).typeId = 0 then last else nextTemp last

/-- Places a temporary object, unless there is no such type. -/
def createTemporary (m : Machine) : Machine :=
  let o := m.registers.operands
  if (0 : Word) < o[0] ∧ o[0] < Word.ofNat typeCapacity then
    let slot := tempSlot m
    let m := m.modifyRegisters (·.setIndex .tempObjectPos (Word.ofNat slot.val))
    m.modifyScene fun s => s.modifyEntity slot fun e => e.reset o[0].lowByte o[1].lowByte o[2] o[3]
  else m

/-! ## Players -/

/-- Binds a player to an entity. -/
def bind (o : Operands) : Exec Unit :=
  match position? playerCount o[0], Machine.slot? o[1] with
  | some k, some entity => modify fun m => m.modifyScene fun s =>
      { s with players := put s.players k { s.players.get k with entity } }
  | none, _ => outOfRange "BindPlayerToObject" o[0]
  | some _, none => outOfRange "BindPlayerToObject" o[1]

/-! ## Collisions -/

/-- Asks the host a question and leaves its answer. -/
def ask (m : Machine) (answer : Word) (c : HostCall) : Machine := (m.call c).answer answer

/-- Asks whether the active player touches a box around the running object. -/
def askPlayer (m : Machine) (run : Activation) : Machine :=
  let o := m.registers.operands
  let query : ObjectCollision :=
    { kind := o[0]
      object := run.object
      player := m.scene.stage.activePlayer.val
      left := o[1]
      top := o[2]
      right := o[3]
      bottom := o[4] }
  ask m (m.host.playerCollision m.history m.scene query) (.playerCollision query)

/-- The question whether a side of the running object touches the tiles. -/
def tileQuery (o : Operands) (run : Activation) : TileCollision :=
  ⟨run.object, o[0], o[1], o[2], o[3]⟩

/-- Whether a finger is down strictly inside the rectangle of the first four operands. -/
def touches (o : Operands) (t : TouchPoint) : Bool :=
  t.down && o[0] < t.x && t.x < o[2] && o[1] < t.y && t.y < o[3]

/-- The last finger that touches a rectangle, or `-1`. -/
def touching (s : Scene) (o : Operands) : Word :=
  ((List.finRange 4).filter fun k => touches o (s.touches.get k)).getLast?.elim (-1) fun k =>
    Word.ofNat k.val

/-! ## Instructions -/

/-- Carries out an object instruction. -/
def perform (run : Activation) (op : ObjectOp) : Exec Unit := do
  let o ← operands
  match op with
  | .reset => resetSlot o
  | .createTemp => modify createTemporary
  | .bindPlayer => bind o
  | .playerCollision => modify (askPlayer · run)
  | .playerTiles => modify fun m => m.call (.playerTiles m.scene.stage.activePlayer.val)
  | .playerControl => modify fun m => m.call (.playerControl m.scene.stage.activePlayer.val)
  | .tileCollision =>
    let query := tileQuery o run
    modify fun m => ask m (m.host.objectTiles m.history m.scene query) (.objectTiles query)
  | .tileGrip =>
    let query := tileQuery o run
    modify fun m => ask m (m.host.objectGrip m.history m.scene query) (.objectGrip query)
  | .checkTouch => modify fun m => m.answer (touching m.scene o)

end ObjectOp

end StageScript
