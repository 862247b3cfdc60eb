import StageScript.Program.Basic
import StageScript.Text.Numeral

/-! # Compile errors
Why a script does not compile, and where. `CompileError.message` is the wording. -/

namespace StageScript

/-- The reasons for which a line does not compile. -/
inductive CompileReason
  /-- The called name is no opcode. -/
  | opcodeNotFound (name : Text)
  /-- The operand names nothing. -/
  | operandNotFound (name : Text)
  /-- The label of a case is no integer. -/
  | malformedInteger (label : Text)
  /-- The label of a case lies outside the range that was found for its switch. -/
  | caseOutOfRange (value min max : Word)
  /-- The index in brackets is neither an integer nor a register. -/
  | unknownArrayIndex (index : Text)
  /-- The call has too few or too many operands. -/
  | arityMismatch (name : String) (expected found : Nat)
  /-- The keyword closes or divides a block that is not open. -/
  | unmatchedKeyword (keyword : String)
  /-- The body ends inside a block. -/
  | unclosedBlock (keyword : String)
  /-- The file ends inside a body. -/
  | unexpectedEnd
  /-- A jump slot of the body has no target. -/
  | unresolvedSlot (slot : Nat)
  /-- The program is full. -/
  | exhausted (table : Exhausted)
  deriving DecidableEq, Repr

open Numeral in
/-- The wording of a reason. -/
def CompileReason.message : CompileReason → String
  | .opcodeNotFound name => "OPCODE NOT FOUND: " ++ String.ofList name
  | .operandNotFound name => "OPERAND NOT FOUND: " ++ String.ofList name
  | .malformedInteger label => "malformed integer: " ++ String.ofList label
  | .caseOutOfRange value min max =>
    "case " ++ showWord value ++ " falls outside the switch range " ++ showWord min ++ "..="
      ++ showWord max
  | .unknownArrayIndex index => "unknown array index: " ++ String.ofList index
  | .arityMismatch name expected found =>
    "'" ++ name ++ "' expects " ++ showNat expected ++ " operand(s), found " ++ showNat found
  | .unmatchedKeyword keyword => "'" ++ keyword ++ "' has no matching opening block"
  | .unclosedBlock keyword => "'" ++ keyword ++ "' block is never closed"
  | .unexpectedEnd => "unexpected end of file"
  | .unresolvedSlot slot => "jump table slot " ++ showNat slot ++ " left unresolved"
  | .exhausted table => table.message

/-- A reason with the place where it arose. -/
structure CompileError where
  /-- The file. -/
  path : String
  /-- The line in the file, or zero before the first. -/
  line : Nat
  /-- What is wrong there. -/
  reason : CompileReason
  deriving DecidableEq, Repr

/-- The wording of a compile error. -/
def CompileError.message (e : CompileError) : String :=
  "CompileError: " ++ e.reason.message ++ "\n  --> " ++ e.path ++ ":" ++ Numeral.showNat e.line

end StageScript
