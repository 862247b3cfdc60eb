import StageScript.Program.Basic
import StageScript.Program.Instruction

/-! # Listings
Compiled code as text.
* `Argument.render` writes an operand the way a script would;
* `Listing.body` reads a body up to the instruction that closes it;
* `Listing.program` lists every sub-script and function of a program. -/

namespace StageScript

/-! ## Operands and instructions -/

/-- An index as a script writes it. -/
def IndexSource.render : IndexSource → Text
  | .literal value => Numeral.ofWord value
  | .register r => r.name.toList

/-- An address as the brackets behind a name. -/
def Address.render : Address → Text
  | .self => []
  | .at index => '[' :: index.render ++ [']']
  | .ahead index => '[' :: '+' :: index.render ++ [']']
  | .behind index => '[' :: '-' :: index.render ++ [']']

/-- An operand as a script writes it. -/
def Argument.render : Argument → Text
  | .integer value => Numeral.ofWord value
  | .text content => '"' :: content ++ ['"']
  | .element v address => v.name.toList ++ address.render

namespace Instruction

/-- The operands of an instruction as a script writes them. -/
def operands (i : Instruction) : List String := i.arguments.map fun a => String.ofList a.render

/-- An instruction's line: the offset in six columns, the name and the operands. -/
def render (i : Instruction) : String :=
  let offset := Numeral.ofNat i.offset
  let place := String.ofList (List.replicate (6 - offset.length) ' ' ++ offset)
  let call := if i.arguments.isEmpty then i.opcode.name
    else i.opcode.name ++ " " ++ ", ".intercalate i.operands
  place ++ ": " ++ call

/-- Whether an instruction closes a body. -/
def closesBody (i : Instruction) : Bool :=
  i.opcode = .control .stop || i.opcode = .control .endFunction

end Instruction

/-! ## Bodies and programs -/

namespace Listing

/-- Reads instructions from an offset on, up to and with the one that closes the body. `done` holds
those in front of the offset, latest first. -/
def collect (code : Array Word) (offset : Nat) (done : List Instruction) :
    Except Fault (List Instruction) :=
  match _h : Instruction.decode code offset with
  | .error fault => .error fault
  | .ok (i, next) =>
    if i.closesBody then .ok (i :: done).reverse else collect code next (i :: done)
termination_by code.size - offset
decreasing_by
  have := Instruction.lt_of_decode _h
  omega

/-- The instructions of the body at an offset. -/
def body (code : Array Word) (offset : Nat) : Except Fault (List Instruction) :=
  collect code offset []

/-- A headline and the lines of a body, with an empty line behind them. -/
def section? (code : Array Word) (title : String) (entry : EntryPoint) : Except Fault String := do
  let instructions ← body code entry.code
  let lines := instructions.map fun i => i.render ++ "\n"
  return title ++ " (jump base " ++ Numeral.showNat entry.jump ++ "):\n" ++ String.join lines ++ "\n"

/-- The name of a type; one that is not registered goes by its number. -/
def typeName (p : Program) (type : Nat) : String :=
  match p.typeNames[type]? with
  | some name => String.ofList name
  | none => "Type" ++ Numeral.showNat type

/-- The headlines and entry points of the sub-scripts, by type and then by sub-script. -/
def subScripts (p : Program) : List (String × EntryPoint) :=
  (List.range typeCapacity).flatMap fun type => SubScript.all.filterMap fun sub =>
    (p.entryPoint? type sub).map fun entry => (typeName p type ++ "." ++ sub.marker, entry)

/-- The headlines and entry points of the functions that have a body. -/
def functions (p : Program) : List (String × EntryPoint) :=
  p.functions.toList.filterMap fun f =>
    f.entry.map fun entry => ("function " ++ String.ofList f.name, entry)

/-- The listing of a whole program. -/
def program (p : Program) : Except Fault String := do
  let sections ← (subScripts p ++ functions p).mapM fun (title, entry) => section? p.code title entry
  return String.join sections

end Listing

end StageScript
