import StageScript.Host
import StageScript.Math.Random
import StageScript.Program.Basic
import StageScript.Program.Fault

/-! # The machine
The state that instructions work on.
* `Registers` is the register file, which outlives the scripts that use it;
* `Machine` adds the scene, the data of object types, the stacks, the host and the settings;
* `Exec` is a step that may fail; what it changed before a failure stays changed. -/

namespace StageScript

/-- The most open blocks. -/
def branchDepthLimit : Nat := 0x400

/-- The most open calls. -/
def callDepthLimit : Nat := 0x400

/-- The operand registers of the instruction that runs. -/
structure Operands where
  words : Vector Word 10 := Vector.replicate 10 0
  deriving DecidableEq, Repr

namespace Operands

/-- The operand at a place. Beyond the last one all are zero. -/
def get (o : Operands) (place : Nat) : Word := o.words[place]?.getD 0

instance : GetElem Operands Nat Word fun _ _ => True := ⟨fun o place _ => o.get place⟩

/-- Changes the operand at a place. -/
def set (o : Operands) (place : Nat) (w : Word) : Operands := ⟨o.words.setIfInBounds place w⟩

/-- Only the operand at the place changes. -/
theorem get_set (o : Operands) (place other : Nat) (w : Word) (h : place < 10) :
    (o.set place w).get other = if place = other then w else o.get other := by
  simp only [get, set, Vector.getElem?_setIfInBounds]
  split <;> simp_all

end Operands

/-- The index registers at the beginning: the last one is at the first temporary entity. -/
def startArrayPos : Vector Word 3 := #v[0, 0, Word.ofNat tempEntityStart]

/-- The register file. -/
structure Registers where
  operands : Operands := {}
  /-- The scratch registers of scripts. -/
  tempValues : Vector Word 8 := Vector.replicate 8 0
  /-- The answer of the last check or query. -/
  checkResult : Word := 0
  /-- The registers that can serve as an index, by their number. -/
  arrayPos : Vector Word 3 := startArrayPos
  deriving DecidableEq, Repr

/-- The value of a register that can serve as an index. -/
def Registers.index (r : Registers) (register : IndexRegister) : Word :=
  r.arrayPos.get register.slot

/-- Changes a register that can serve as an index. -/
def Registers.setIndex (r : Registers) (register : IndexRegister) (w : Word) : Registers :=
  { r with arrayPos := Indexed.put r.arrayPos register.slot w }

/-- What the scripts of an object type have loaded for it. -/
structure TypeData where
  spriteSheet : Word := 0
  /-- Where the type's sprite frames begin in the scene's list. -/
  frameListOffset : Nat := 0
  frameCount : Nat := 0
  /-- The number of the type's animation file. -/
  animation : Option Nat := none
  deriving DecidableEq, Repr

/-- A place in a program: the next word, and where the running body and its jump slots begin. -/
structure Position where
  pointer : Nat
  codeBase : Nat
  jumpBase : Nat
  deriving DecidableEq, Repr

/-- The beginning of a body. -/
def Position.ofEntry (entry : EntryPoint) : Position := ⟨entry.code, entry.code, entry.jump⟩

/-- What a run is for: an object and one of its sub-scripts. -/
structure Activation where
  /-- The slot of the running object. -/
  object : Nat
  sub : SubScript
  deriving DecidableEq, Repr

/-- The state of a machine. -/
structure Machine where
  scene : Scene := {}
  /-- What the object types have loaded. -/
  types : Vector TypeData typeCapacity := Vector.replicate typeCapacity {}
  registers : Registers := {}
  /-- The jump slots of the open blocks, innermost first. -/
  branches : List Word := []
  /-- Where the open calls go on, innermost first. -/
  calls : List Position := []
  /-- The last text that was an operand. -/
  scriptText : String := ""
  random : Random
  host : Host := {}
  /-- The calls of the host so far. -/
  history : History := #[]
  /-- Whether accesses out of range and divisions by zero are faults. -/
  strict : Bool := false
  /-- How many instructions a run may execute. -/
  stepLimit : Option UInt64 := none
  /-- How many instructions the last run has begun. -/
  steps : Nat := 0

/-- A step of the machine. -/
abbrev Exec := ExceptT Fault (StateM Machine)

namespace Machine

/-- The most instructions of a run. Where there is no limit, it is what a step counter holds. -/
def budget (m : Machine) : Nat := m.stepLimit.elim (0xFFFFFFFFFFFFFFFF) UInt64.toNat

/-- Records a call of the host. -/
def call (m : Machine) (c : HostCall) : Machine := { m with history := m.history.push c }

/-- Changes the scene. -/
def modifyScene (m : Machine) (change : Scene → Scene) : Machine :=
  { m with scene := change m.scene }

/-- Changes the registers. -/
def modifyRegisters (m : Machine) (change : Registers → Registers) : Machine :=
  { m with registers := change m.registers }

/-- The data of a type. -/
def typeData (m : Machine) (type : UInt8) : TypeData := m.types.get ⟨type.toNat, type.toNat_lt⟩

/-- Changes the data of a type. -/
def modifyType (m : Machine) (type : UInt8) (change : TypeData → TypeData) : Machine :=
  { m with types := m.types.set type.toNat (change (m.typeData type)) type.toNat_lt }

/-- Only the data of the type changes. -/
theorem typeData_modifyType (m : Machine) (type other : UInt8) (change : TypeData → TypeData) :
    (m.modifyType type change).typeData other =
      if type = other then change (m.typeData type) else m.typeData other := by
  by_cases eq : type = other
  · rw [if_pos eq, ← eq]
    exact (Indexed.get_put m.types _ _ _).trans (if_pos rfl)
  · rw [if_neg eq]
    refine (Indexed.get_put m.types _ _ _).trans (if_neg fun h => eq ?_)
    exact UInt8.toNat_inj.1 (Fin.mk.inj h)

/-- The entity in a slot; outside the list, one that is as good as empty. -/
def entity (m : Machine) (number : Nat) : Entity := m.scene.entities.toArray.getD number {}

/-- The type of the object in a slot. -/
def objectType (m : Machine) (number : Nat) : UInt8 := (m.entity number).typeId

/-- Leaves the answer of a check or query. -/
def answer (m : Machine) (w : Word) : Machine := m.modifyRegisters ({ · with checkResult := w })

/-- Changes an operand register. -/
def setOperand (m : Machine) (place : Nat) (w : Word) : Machine :=
  m.modifyRegisters fun r => { r with operands := r.operands.set place w }

end Machine

/-- Stops in strict mode because an access is out of range, and otherwise goes on. -/
def outOfRange (subject : String) (index : Word) : Exec Unit := do
  if (← get).strict then throw (.indexOutOfRange subject index)

/-- The operand registers. -/
def operands : Exec Operands := return (← get).registers.operands

/-- The scene as it stands. -/
def currentScene : Exec Scene := return (← get).scene

end StageScript
