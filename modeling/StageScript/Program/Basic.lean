import StageScript.Text.Basic
import StageScript.Word

/-! # Programs
A program is what scripts compile to: one code stream, one jump table, the entry points of the
sub-scripts of each object type and of the functions, and the names of types and functions.
* `Program.pushCode`, `Program.pushJump`, `Program.declareFunction` and `Program.registerType` are the
  edits that add to a program; they refuse what no longer fits;
* `Program.functionIndex?` and `Program.typeIndex?` look names up. -/

namespace StageScript

/-- The most code words of a program. -/
def codeCapacity : Nat := 0x40000

/-- The most jump table words of a program. -/
def jumpCapacity : Nat := 0x4000

/-- The most functions of a program. -/
def functionCapacity : Nat := 0x200

/-- The number of object types, registered or not. -/
def typeCapacity : Nat := 0x100

/-! ## Entry points -/

/-- Where a body begins in the code and where its slots begin in the jump table. -/
structure EntryPoint where
  /-- The offset of the body's first instruction. -/
  code : Nat
  /-- The offset of the body's first jump slot. -/
  jump : Nat
  deriving DecidableEq, Repr

/-- The sub-scripts of an object type. -/
inductive SubScript
  | main
  | playerInteraction
  | draw
  | startup
  deriving DecidableEq, Repr

namespace SubScript

/-- The sub-scripts in their order in files. -/
def all : List SubScript := [.main, .playerInteraction, .draw, .startup]

/-- The line that opens a sub-script. -/
def marker : SubScript → String
  | .main => "subObjectMain"
  | .playerInteraction => "subObjectPlayerInteraction"
  | .draw => "subObjectDraw"
  | .startup => "subObjectStartup"

/-- The sub-script that a line opens. -/
def ofMarker? (text : Text) : Option SubScript :=
  all.find? fun sub => Text.sameName text sub.marker.toList

end SubScript

/-- The entry points of an object type, as far as the type has the sub-scripts. -/
structure Entries where
  main : Option EntryPoint := none
  playerInteraction : Option EntryPoint := none
  draw : Option EntryPoint := none
  startup : Option EntryPoint := none
  deriving DecidableEq, Repr

namespace Entries

/-- The entry point of a sub-script. -/
def get (entries : Entries) : SubScript → Option EntryPoint
  | .main => entries.main
  | .playerInteraction => entries.playerInteraction
  | .draw => entries.draw
  | .startup => entries.startup

/-- Changes the entry point of a sub-script. -/
def set (entries : Entries) (sub : SubScript) (entry : Option EntryPoint) : Entries :=
  match sub with
  | .main => { entries with main := entry }
  | .playerInteraction => { entries with playerInteraction := entry }
  | .draw => { entries with draw := entry }
  | .startup => { entries with startup := entry }

@[simp] theorem get_set (entries : Entries) (sub sub' : SubScript) (entry : Option EntryPoint) :
    (entries.set sub entry).get sub' = if sub = sub' then entry else entries.get sub' := by
  cases sub <;> cases sub' <;> rfl

end Entries

/-- A function of a program. -/
structure Function where
  /-- The function's name. -/
  name : Text
  /-- Where its body begins, once it has one. -/
  entry : Option EntryPoint := none
  deriving DecidableEq, Repr

/-! ## Programs -/

/-- What no longer fits into a program. -/
inductive Exhausted
  | code
  | jumpTable
  | functions
  | objectTypes
  deriving DecidableEq, Repr

/-- The wording of an exhausted table. -/
def Exhausted.message : Exhausted → String
  | .code => "script code store exhausted"
  | .jumpTable => "jump table exhausted"
  | .functions => "function table exhausted"
  | .objectTypes => "object type table exhausted"

/-- A compiled program. -/
structure Program where
  /-- The instructions of all bodies. -/
  code : Array Word := #[]
  /-- The targets of all bodies, relative to where each body begins. -/
  jumpTable : Array Word := #[]
  /-- The entry points of each object type. -/
  entries : Vector Entries typeCapacity := Vector.replicate typeCapacity {}
  /-- The functions in the order in which they became known. -/
  functions : Array Function := #[]
  /-- The names of the registered types; type zero stands for an empty slot. -/
  typeNames : Array Text := #["BlankObject".toList]
  deriving DecidableEq

namespace Program

/-- The number of a function, without regard to ASCII case. -/
def functionIndex? (p : Program) (name : Text) : Option Nat :=
  p.functions.findIdx? fun f => Text.sameName f.name name

/-- The number of the first type of a name, without regard to ASCII case and spaces. -/
def typeIndex? (p : Program) (label : Text) : Option Nat :=
  p.typeNames.findIdx? fun name => Text.sameName name (Text.withoutSpaces label)

/-- The entry point of a type's sub-script. -/
def entryPoint? (p : Program) (type : Nat) (sub : SubScript) : Option EntryPoint :=
  p.entries[type]?.bind (·.get sub)

/-- Changes the entry point of a type's sub-script. -/
def setEntry (p : Program) (type : Nat) (sub : SubScript) (entry : Option EntryPoint) : Program :=
  if h : type < typeCapacity then
    { p with entries := p.entries.set type (p.entries[type].set sub entry) h }
  else p

/-- Changes the entry point of a function. -/
def setFunctionEntry (p : Program) (index : Nat) (entry : Option EntryPoint) : Program :=
  { p with functions := p.functions.modify index ({ · with entry }) }

/-! ## Additions -/

/-- A change of a program, which may be refused because something no longer fits. A refused change
leaves the program as it is. -/
abbrev Edit := ExceptT Exhausted (StateM Program)

/-- Adds a word to the code and gives its offset. -/
def pushCode (w : Word) : Edit Nat := fun p =>
  if p.code.size < codeCapacity then (.ok p.code.size, { p with code := p.code.push w })
  else (.error .code, p)

/-- Adds a word to the jump table and gives its slot. -/
def pushJump (w : Word) : Edit Nat := fun p =>
  if p.jumpTable.size < jumpCapacity then
    (.ok p.jumpTable.size, { p with jumpTable := p.jumpTable.push w })
  else (.error .jumpTable, p)

/-- Gives the number of a function, which is added if it is new. Numbers given out never change. -/
def declareFunction (name : Text) : Edit Nat := fun p =>
  match p.functionIndex? name with
  | some index => (.ok index, p)
  | none =>
    if p.functions.size < functionCapacity then
      (.ok p.functions.size, { p with functions := p.functions.push ⟨name, none⟩ })
    else (.error .functions, p)

/-- Adds a type name without its spaces and gives its number. -/
def registerType (name : Text) : Edit Nat := fun p =>
  if p.typeNames.size < typeCapacity then
    (.ok p.typeNames.size, { p with typeNames := p.typeNames.push (Text.withoutSpaces name) })
  else (.error .objectTypes, p)

/-- A known function keeps its number. -/
theorem declareFunction_of_functionIndex? {p : Program} {name : Text} {index : Nat}
    (h : p.functionIndex? name = some index) : declareFunction name p = (.ok index, p) := by
  simp [declareFunction, h]

end Program

end StageScript
