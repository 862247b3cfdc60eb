import StageScript.Source.Operator
import StageScript.Text.Numeral

/-! # Call form
Lines with infix operators are brought into the form of a call.
* `Rewrite.condition?` turns `ifA==B` into `IfEqual(slot,A,B)` and `whileA<B` into
  `WLower(slot,A,B)`;
* `Rewrite.switch?` turns `switchA` into `switch(slot,A)`;
* `Rewrite.assignment?` turns `A+=B` into `Add(A,B)` and `A++` into `Inc(A)`.
The slot is where the block's targets stand in the jump table of its body. -/

namespace StageScript

/-- The keywords of lines that test a condition. -/
inductive ConditionKeyword
  | ifLine
  | whileLine
  deriving DecidableEq, Repr

/-- The keyword as it is written. -/
def ConditionKeyword.text : ConditionKeyword → String
  | .ifLine => "if"
  | .whileLine => "while"

/-- The opcode that tests a comparison for a keyword. -/
def ConditionKeyword.opcode : ConditionKeyword → Comparison → Opcode
  | .ifLine, comparison => .ifTest comparison
  | .whileLine, comparison => .whileTest comparison

/-- A line that tests a condition, in call form. -/
structure Condition where
  /-- Which block the line opens. -/
  keyword : ConditionKeyword
  /-- The call form. -/
  text : Text
  deriving DecidableEq, Repr

namespace Rewrite

/-- An expression without the characters that the call form needs for itself. -/
def plain (text : Text) : Text := text.filter fun c => c ≠ '=' && c ≠ '(' && c ≠ ')'

/-- The beginning of a call form whose first operand is a jump slot. -/
def slotCall (name : String) (slot : Word) : Text :=
  name.toList ++ '(' :: Numeral.ofWord slot ++ [',']

/-- The keyword that a line begins with and the text behind it. -/
def conditionKeyword? (text : Text) : Option ConditionKeyword :=
  if ConditionKeyword.ifLine.text.toList.isPrefixOf text then some .ifLine
  else if ConditionKeyword.whileLine.text.toList.isPrefixOf text then some .whileLine
  else none

/-- Brings a line that tests a condition into call form. The first character of the comparison
becomes the comma between the two values; its other character is dropped with all equals signs and
parentheses. A line without a comparison is left alone. -/
def condition? (text : Text) (slot : Word) : Option Condition := do
  let keyword ← conditionKeyword? text
  let found ← Operator.find? Operator.comparisons text
  let left := found.before.drop keyword.text.toList.length
  let right := found.token.tail ++ found.after
  some {
    keyword
    text := slotCall (keyword.opcode found.meaning).name slot ++ plain left ++ ',' :: plain right
      ++ [')'] }

/-- Brings a line that opens a switch into call form. -/
def switch? (text : Text) (slot : Word) : Option Text :=
  (Text.stripPrefix? "switch".toList text).map fun rest =>
    slotCall "switch" slot ++ plain rest ++ [')']

/-- Brings an infix assignment into call form. An operator on its left side alone drops the text
behind it. -/
def assignment? (text : Text) : Option Text :=
  (Operator.find? Operator.assignments text).map fun found =>
    let operands :=
      if found.meaning.arity > 1 then found.before ++ ',' :: found.after else found.before
    found.meaning.name.toList ++ '(' :: operands ++ [')']

end Rewrite

end StageScript
