import StageScript.Proofs.Compiler.Priming
import StageScript.Proofs.Machine.Statement
import StageScript.Proofs.Source.OperandForm

/-! # Passages
A body of a script as it is written: lines with instructions one after the other, and blocks, which are
lines between the one that opens the block and the one that closes it.
* `Instructs`, `Tests`, `Selects`, `Closes` — the forms of lines;
* `Passage` — the parts of bodies, and **`Passage.Spells`** the lines that they are written in;
* **`Passage.resolve`** — the statement that a passage stands for where its names mean something. -/

namespace StageScript

/-! ## Forms of lines -/

/-- The words that lines of a form of their own begin with. -/
def Directive.openers : List Text :=
  ["if", "while", "switch", "case", "default", "#platform:", "#endplatform"].map String.toList

/-- A line that begins with none of these words. -/
def Directive.Plain (text : Text) : Prop := ∀ word ∈ openers, word.isPrefixOf text = false

instance (text : Text) : Decidable (Directive.Plain text) :=
  inferInstanceAs (Decidable (∀ word ∈ Directive.openers, word.isPrefixOf text = false))

/-- **A line with an instruction**: a call without infix operators, or an infix operator between or
behind its operands. -/
inductive Instructs (text : Text) : Opcode → List Operand → Prop
  | call {op : Opcode} {name : Text} {operands : List Operand}
    (noOperator : Operator.find? Operator.assignments text = none)
    (read : Call.split text = ⟨name, operands⟩) (known : Opcode.lookup? name = some op) :
    Instructs text op operands
  | binary {found : Operator.Match Opcode} {a b : Operand} (plain : Directive.Plain text)
    (operator : Operator.find? Operator.assignments text = some found)
    (two : found.meaning.arity = 2) (reads : Call.Reads found.before a)
    (reads' : Call.Reads found.after b) : Instructs text found.meaning [a, b]
  | unary {found : Operator.Match Opcode} {a : Operand} (plain : Directive.Plain text)
    (operator : Operator.find? Operator.assignments text = some found)
    (one : found.meaning.arity = 1) (reads : Call.Reads found.before a) (written : a ≠ {}) :
    Instructs text found.meaning [a]

/-- **How operands of conditions are written**: without comparisons in them. Their parentheses do not
count. -/
structure Rewrite.Writes (text : Text) (o : Operand) : Prop where
  noComparison : ∀ c ∈ ['=', '<', '>', '!'], c ∉ text
  reads : Call.Reads (plain text) o

/-- **A line that tests a condition**, whose operands are written in a way that fits. -/
inductive Tests (Fit : Text → Operand → Prop) (keyword : ConditionKeyword) (comparison : Comparison)
    (a b : Operand) : Text → Prop
  | intro {token : String} {left right : Text}
    (operator : (token, comparison) ∈ Operator.comparisons) (fit : Fit left a) (fit' : Fit right b) :
    Tests Fit keyword comparison a b (keyword.text.toList ++ (left ++ (token.toList ++ right)))

/-- **A line that opens a switch.** Parentheses and equals signs of its operand do not count. -/
inductive Selects (a : Operand) : Text → Prop
  | intro {operand : Text} (reads : Call.Reads (Rewrite.plain operand) a) :
    Selects a ("switch".toList ++ operand)

/-- A line that is a keyword. -/
def Closes (keyword : String) (text : Text) : Prop := Text.sameName text keyword.toList = true

instance (keyword : String) (text : Text) : Decidable (Closes keyword text) :=
  inferInstanceAs (Decidable (_ = true))

/-! ## Passages -/

/-- A part of a body as it is written. -/
inductive Passage
  | skip
  | seq (first rest : Passage)
  /-- An instruction on data. -/
  | act (op : Opcode) (operands : List Operand)
  /-- A call of a function. -/
  | call (function : Operand)
  /-- An `if`, which may have an `else`. -/
  | branch (comparison : Comparison) (a b : Operand) (yes : Passage) (divided : Bool) (no : Passage)
  | loop (comparison : Comparison) (a b : Operand) (body : Passage)
  | switch (a : Operand) (body : Passage)
  | case (label : Text)
  | fallback
  | leave
  deriving DecidableEq, Repr

/-- The value of a label, if it has one. -/
def labelValue? (aliases : List Alias) (label : Text) : Option Word :=
  (labelValue aliases label).toOption

/-- What names stand for in a body. -/
structure Names where
  /-- What an operand means. -/
  meaning : Operand → Option Argument
  /-- The value of a label. -/
  value : Text → Option Word

namespace Passage

/-- How many labels for all other values there are. -/
def fallbacks : Passage → Nat
  | seq first rest => first.fallbacks + rest.fallbacks
  | fallback => 1
  | skip => 0
  | act _ _ => 0
  | call _ => 0
  | branch .. => 0
  | loop .. => 0
  | switch .. => 0
  | case _ => 0
  | leave => 0

/-- The labels for values that are in no switch inside. -/
def labels : Passage → List Text
  | seq first rest => first.labels ++ rest.labels
  | branch _ _ _ yes _ no => yes.labels ++ no.labels
  | loop _ _ _ body => body.labels
  | case label => [label]
  | skip => []
  | act _ _ => []
  | call _ => []
  | switch .. => []
  | fallback => []
  | leave => []

/-- **The lines that a passage is written in.** The operands of conditions have to fit. -/
inductive Spells (Fit : Text → Operand → Prop) : Passage → List Line → Prop
  | nothing : Spells Fit skip []
  | blank {line : Line} (empty : line.text = []) : Spells Fit skip [line]
  | seq {first rest : Passage} {lines more : List Line} (front : Spells Fit first lines)
    (back : Spells Fit rest more) : Spells Fit (seq first rest) (lines ++ more)
  | act {line : Line} {op : Opcode} {operands : List Operand}
    (instructs : Instructs line.text op operands) (data : op.isControl = false) :
    Spells Fit (act op operands) [line]
  | call {line : Line} {function : Operand}
    (instructs : Instructs line.text (.control .callFunction) [function]) :
    Spells Fit (call function) [line]
  | branch {first last : Line} {comparison : Comparison} {a b : Operand} {yes : Passage}
    {lines : List Line} (tests : Tests Fit .ifLine comparison a b first.text)
    (inside : Spells Fit yes lines) (closes : Closes "endif" last.text) :
    Spells Fit (branch comparison a b yes false skip) (first :: (lines ++ [last]))
  | divided {first middle last : Line} {comparison : Comparison} {a b : Operand}
    {yes no : Passage} {lines more : List Line} (tests : Tests Fit .ifLine comparison a b first.text)
    (inside : Spells Fit yes lines) (divides : Closes "else" middle.text)
    (other : Spells Fit no more) (closes : Closes "endif" last.text) :
    Spells Fit (branch comparison a b yes true no) (first :: (lines ++ middle :: (more ++ [last])))
  | loop {first last : Line} {comparison : Comparison} {a b : Operand} {body : Passage}
    {lines : List Line} (tests : Tests Fit .whileLine comparison a b first.text)
    (inside : Spells Fit body lines) (closes : Closes "loop" last.text) :
    Spells Fit (loop comparison a b body) (first :: (lines ++ [last]))
  | switch {first last : Line} {a : Operand} {body : Passage} {lines : List Line}
    (selects : Selects a first.text) (once : body.fallbacks ≤ 1) (inside : Spells Fit body lines)
    (closes : Closes "endswitch" last.text) :
    Spells Fit (switch a body) (first :: (lines ++ [last]))
  | case {line : Line} {label : Text} (read : Directive.caseLabel? line.text = some label)
    (noOperator : Operator.find? Operator.assignments line.text = none) :
    Spells Fit (case label) [line]
  | fallback {line : Line} (read : Directive.isDefault line.text = true)
    (noOperator : Operator.find? Operator.assignments line.text = none) :
    Spells Fit fallback [line]
  | leave {line : Line} (read : Closes "break" line.text) : Spells Fit leave [line]

/-! ## Statements of passages -/

/-- The values between the least and the greatest label of a switch. -/
def range (names : Names) (body : Passage) : Option LabelRange :=
  (body.labels.mapM names.value).map fun values => (values.foldl LabelRange.add LabelRange.start).settle

/-- **The statement that a passage stands for.** Each block takes the next numbers in turn, as many as it
has slots, and the first of them is the number of the block. The number behind the last one is given
with the statement. -/
def resolve (names : Names) : Passage → (slot : Nat) → Option (Statement × Nat)
  | skip, slot => some (.skip, slot)
  | seq first rest, slot => do
    let (first, slot) ← first.resolve names slot
    let (rest, slot) ← rest.resolve names slot
    return (.seq first rest, slot)
  | act op operands, slot => do return (.act op (← operands.mapM names.meaning), slot)
  | call function, slot => do return (.call (← names.meaning function), slot)
  | branch comparison a b yes divided no, slot => do
    let a ← names.meaning a
    let b ← names.meaning b
    let (yes, next) ← yes.resolve names (slot + 2)
    let (no, next) ← no.resolve names next
    return (.branch slot comparison a b yes divided no, next)
  | loop comparison a b body, slot => do
    let a ← names.meaning a
    let b ← names.meaning b
    let (body, next) ← body.resolve names (slot + 2)
    return (.loop slot comparison a b body, next)
  | switch a body, slot => do
    let a ← names.meaning a
    let range ← body.range names
    let (body, next) ← body.resolve names (slot + (4 + range.size))
    return (.switch slot a body, next)
  | case label, slot => do return (.case (← names.value label), slot)
  | fallback, slot => some (.fallback, slot)
  | leave, slot => some (.leave, slot)

end Passage

end StageScript
