import StageScript.Compiler.Line

/-! # Compiling files
* `Compiler.compileFile` adds the bodies of one file to a program, as sub-scripts of an object type
  and as functions. It stops at the first line that does not compile; what was added up to there
  stays. -/

namespace StageScript

/-- The first thing wrong in a file, with the number of its line. -/
structure Problem where
  line : Nat
  reason : CompileReason
  deriving DecidableEq, Repr

/-- A step of compilation whose failures name a line. -/
abbrev Work := ExceptT Problem (StateM Compiler)

namespace Compiler

/-- Carries out a step on a line. -/
def onLine {α : Type} (line : Nat) (step : Emit α) : Work α :=
  fun c => let (answer, c) := step c; (answer.mapError (⟨line, ·⟩), c)

/-- Reserves the slots of the switch whose header is given, looking ahead at the lines behind it.
`opening` is the number of the line that opens the switch. -/
def prime (header opening : Nat) (rest : List Line) : Work Unit := do
  let priming := Priming.scan (← get).aliases rest 0 opening LabelRange.start
  onLine opening (setLabelRange header priming.range)
  match priming.ending with
  | .closed line => onLine line (reserveCases header priming.range)
  | .refused line reason => throw ⟨line, reason⟩
  | .unclosed line => throw ⟨line, .unexpectedEnd⟩

/-- Compiles a line that is not empty. `rest` are the lines behind it. -/
def compileLine (type : Nat) (line : Line) (rest : List Line) : Work Unit := do
  match (← get).mode with
  | .outside => onLine line.number (outsideLine type line.text)
  | .skipping =>
    if Directive.endsPlatform line.text then modify fun c => { c with mode := .inside }
  | .inside =>
    match ← onLine line.number (insideLine line.text) with
    | some header => prime header line.number rest
    | none => return

/-- Compiles lines to the end of the file, where no body may be open. `last` is the number of the
line before. -/
def compileLines (type : Nat) : (last : Nat) → List Line → Work Unit
  | last, [] => do if (← get).mode ≠ .outside then throw ⟨last, .unexpectedEnd⟩
  | _, line :: rest => do
    if line.text ≠ [] then compileLine type line rest
    compileLines type line.number rest

/-- A compiler at the beginning of a file, whatever state the file before left it in. -/
def startFile (c : Compiler) : Compiler :=
  { c with aliases := defaultAliases, mode := .outside, body := { c.body with blocks := [] } }

/-- Compiles a file whose sub-scripts belong to an object type. -/
def compileFile (path : String) (source : Text) (type : Nat) :
    ExceptT CompileError (StateM Compiler) Unit := fun c =>
  let c := c.startFile
  if type < typeCapacity then
    let (answer, c) := compileLines type 0 (Line.ofSource source) c
    (answer.mapError fun p => ⟨path, p.line, p.reason⟩, c)
  else (.error ⟨path, 0, .exhausted .objectTypes⟩, c)

end Compiler

end StageScript
