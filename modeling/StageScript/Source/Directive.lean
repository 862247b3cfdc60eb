import StageScript.Text.Basic

/-! # Directives and labels
The line forms that compile to no instruction of their own.
* `Directive.alias?`, `Directive.platform?` and `Directive.function?` read the lines that begin with
  `#alias`, `#platform:` and `function`;
* `Directive.caseLabel?` and `Directive.isDefault` read the labels of a switch.
All keywords here are lower-case. -/

namespace StageScript

/-- A name that stands for a text. -/
structure Alias where
  /-- The name, compared without regard to ASCII case. -/
  name : Text
  /-- The text it stands for. -/
  value : Text
  deriving DecidableEq, Repr

/-- What a function line does. -/
inductive FunctionLine
  /-- `#functionName` makes the name known. -/
  | declare (name : Text)
  /-- `functionName` opens the function's body. -/
  | define (name : Text)
  deriving DecidableEq, Repr

namespace Directive

/-- Reads `#aliasName:value`. The name ends at the first colon; neither part may be empty, and the
value stays on its line. -/
def alias? (text : Text) : Option Alias := do
  let rest ← Text.stripPrefix? "#alias".toList text
  let name := rest.takeWhile (· ≠ ':')
  match rest.dropWhile (· ≠ ':') with
  | _ :: value => if name = [] || value = [] || '\n' ∈ value then none else some ⟨name, value⟩
  | [] => none

/-- Reads the tags of a `#platform:` line, leaving out empty ones. -/
def platform? (text : Text) : Option (List Text) := do
  let rest ← Text.stripPrefix? "#platform:".toList text
  if '\n' ∈ rest then none else some ((rest.splitOn ',').filter (· ≠ []))

/-- Reads the name behind `function`, which has to stay on its line and may not be empty. -/
def functionName? (text : Text) : Option Text :=
  (Text.stripPrefix? "function".toList text).filter fun name => name ≠ [] && '\n' ∉ name

/-- Reads a line that declares or defines a function. -/
def function? : Text → Option FunctionLine
  | '#' :: rest => (functionName? rest).map .declare
  | text => (functionName? text).map .define

/-- Whether a line ends a platform block. -/
def endsPlatform (text : Text) : Bool := "#endplatform".toList.isPrefixOf text

/-- Whether a line opens a switch. -/
def startsSwitch (text : Text) : Bool := "switch".toList.isPrefixOf text

/-- Whether a line is the closing keyword of a switch. -/
def endsSwitch (text : Text) : Bool := Text.sameName text "endswitch".toList

/-- The label of a `case` line, which a colon may end. -/
def caseLabel? (text : Text) : Option Text :=
  (Text.stripPrefix? "case".toList text).map (·.takeWhile (· ≠ ':'))

/-- Whether a line is a `default` label. -/
def isDefault (text : Text) : Bool := "default".toList.isPrefixOf text

end Directive

end StageScript
