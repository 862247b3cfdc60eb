import StageScript.Text.Numeral

/-! # Faults
Why compiled code cannot be read or run any further. `Fault.message` is the wording. -/

namespace StageScript

/-- The reasons for which reading or running compiled code stops. -/
inductive Fault
  /-- The word where an instruction should begin is no opcode. -/
  | invalidOpcode (offset : Nat) (id : Word)
  /-- The word where an operand should begin is no tag, or a text has a negative length. -/
  | invalidOperandTag (offset : Nat) (tag : Word)
  /-- The word for an addressing mode, or for the source of an index, is none. -/
  | invalidAddressingMode (offset : Nat) (mode : Word)
  /-- The index comes from a register that does not exist. -/
  | invalidIndexRegister (offset : Nat) (register : Word)
  /-- The operand is a variable that does not exist. -/
  | unknownVariable (offset : Nat) (id : Word)
  /-- The code ends before the instruction does. -/
  | codeOutOfRange (offset : Nat)
  /-- A jump goes through a slot outside the jump table. -/
  | jumpSlotOutOfRange (slot : Int)
  /-- A jump goes through a slot without a target. -/
  | unresolvedJump (slot : Nat)
  /-- A block is closed that was not opened. -/
  | branchStackUnderflow
  /-- Too many blocks are open. -/
  | branchStackOverflow
  /-- A function returns that was not called. -/
  | callStackUnderflow
  /-- Too many calls are open. -/
  | callStackOverflow
  /-- A call goes to a function without a body. -/
  | undefinedFunction (index : Word)
  /-- In strict mode, an access goes outside its range. -/
  | indexOutOfRange (subject : String) (index : Word)
  /-- In strict mode, a division is by zero. -/
  | divisionByZero
  /-- The run has taken as many steps as it may. -/
  | stepLimitExceeded (limit : Nat)
  deriving DecidableEq, Repr

namespace Fault

open Numeral in
/-- The wording of a fault. -/
def message : Fault → String
  | .invalidOpcode offset id =>
    "invalid opcode " ++ showWord id ++ " at offset " ++ showNat offset
  | .invalidOperandTag offset tag =>
    "invalid operand tag " ++ showWord tag ++ " at offset " ++ showNat offset
  | .invalidAddressingMode offset mode =>
    "invalid addressing mode " ++ showWord mode ++ " at offset " ++ showNat offset
  | .invalidIndexRegister offset register =>
    "invalid index register " ++ showWord register ++ " at offset " ++ showNat offset
  | .unknownVariable offset id =>
    "unknown variable id " ++ showWord id ++ " at offset " ++ showNat offset
  | .codeOutOfRange offset => "code pointer " ++ showNat offset ++ " out of range"
  | .jumpSlotOutOfRange slot => "jump table slot " ++ showInt slot ++ " out of range"
  | .unresolvedJump slot => "jump table slot " ++ showNat slot ++ " is unresolved"
  | .branchStackUnderflow => "branch stack underflow"
  | .branchStackOverflow => "branch stack overflow"
  | .callStackUnderflow => "call stack underflow"
  | .callStackOverflow => "call stack overflow"
  | .undefinedFunction index => "function " ++ showWord index ++ " is not defined"
  | .indexOutOfRange subject index =>
    "index " ++ showWord index ++ " out of range for " ++ subject
  | .divisionByZero => "division by zero"
  | .stepLimitExceeded limit =>
    "step limit of " ++ showNat limit ++ " instructions exceeded"

end Fault

end StageScript
