import StageScript.Compiler.Basic
import StageScript.Program.Instruction
import StageScript.Source.Operand

/-! # Names in operands
What an operand's name means is decided in a fixed order: aliases of the file, configured globals,
functions, type names, integers, texts and variables.
* `Compiler.substitute` carries out the first four, which replace one text by another;
* `Operand.emission` gives the words of what is left, or the reason why it has none. -/

namespace StageScript

/-- What an operand adds to the code: words, and the reason why nothing can follow them if there is
one. -/
structure Emission where
  words : List Word
  refusal : Option CompileReason := none
  deriving DecidableEq, Repr

namespace Alias

/-- Puts the value of an alias in the place of an operand of its name. The operand keeps its own
index unless the value brings brackets. -/
def applyTo (a : Alias) (o : Operand) : Operand :=
  if Text.sameName o.base a.name then
    let value := Operand.split a.value
    { base := value.base, index := if '[' ∈ a.value then value.index else o.index }
  else o

end Alias

namespace Operand

/-- An integer in the place of an operand's name. -/
def withNumber (o : Operand) (n : Nat) : Operand := { o with base := Numeral.ofNat n }

/-- The addressing mode that an index begins with, and the rest of the index. -/
def addressMode (index : Text) : AddressMode × Text :=
  match index with
  | '+' :: rest => (.ahead, rest)
  | '-' :: rest => (.behind, rest)
  | _ => (.at, index)

/-- The index behind an addressing mode: an integer or a register. -/
def indexSource? (text : Text) : Option IndexSource :=
  match Numeral.parse? text with
  | some value => some (.literal value)
  | none => (IndexRegister.lookup? text).map .register

/-- The words of an index in brackets. -/
def addressEmission : Option Text → Emission
  | none => { words := [AddressMode.self.word] }
  | some index =>
    let (mode, rest) := addressMode index
    match indexSource? rest with
    | some source => { words := mode.word :: source.encode }
    | none => { words := [mode.word], refusal := some (.unknownArrayIndex rest) }

/-- The words of a variable operand. -/
def variableEmission (o : Operand) : Emission :=
  let address := addressEmission o.index
  match address.refusal, Variable.lookup? o.base with
  | some reason, _ => { words := Argument.variableTag :: address.words, refusal := some reason }
  | none, some v => { words := Argument.variableTag :: address.words ++ [v.word] }
  | none, none =>
    { words := Argument.variableTag :: address.words, refusal := some (.operandNotFound o.base) }

/-- The content of a quoted text, whose closing quote may be missing. -/
def quoted? : Text → Option Text
  | '"' :: rest => some (if rest.getLast? = some '"' then rest.dropLast else rest)
  | _ => none

/-- The words of an operand whose names have been substituted. -/
def emission (o : Operand) : Emission :=
  match Numeral.parse? o.base with
  | some value => { words := (Argument.integer value).encode }
  | none =>
    match quoted? o.base with
    | some content => { words := (Argument.text content).encode }
    | none => variableEmission o

end Operand

namespace Compiler

/-- Replaces the name of a global by its slot. -/
def substituteGlobal (globals : List Text) (o : Operand) : Operand :=
  match globals.findIdx? fun name => Text.sameName name o.base with
  | some slot => { base := "Global".toList, index := some (Numeral.ofNat slot) }
  | none => o

/-- Replaces the name of a function by its number. -/
def substituteFunction (p : Program) (o : Operand) : Operand :=
  match p.functionIndex? o.base with
  | some index => o.withNumber index
  | none => o

/-- Replaces `TypeName[label]` by the number of the type, or by zero if there is no such type. -/
def substituteType (p : Program) (o : Operand) : Operand :=
  if Text.sameName o.base "TypeName".toList then
    o.withNumber ((p.typeIndex? (o.index.getD [])).getD 0)
  else o

/-- Replaces the names that stand for other texts. -/
def substitute (c : Compiler) (o : Operand) : Operand :=
  let o := c.aliases.foldl (fun o a => a.applyTo o) o
  substituteType c.program (substituteFunction c.program (substituteGlobal c.globals o))

/-- Adds an operand to the code. -/
def emitOperand (o : Operand) : Emit Unit := do
  let emission := ((← get).substitute o).emission
  emit emission.words
  match emission.refusal with
  | some reason => throw reason
  | none => return

end Compiler

end StageScript
