import StageScript.Machine.Basic
import StageScript.Math.Matrix
import StageScript.Opcode.Basic

/-! # Arithmetic instructions
Instructions whose result depends on their operands alone, and random numbers.
* `Binary.perform`, `Unary.perform` and `Check.perform` apply the operators of words;
* `Formula.apply` gives the new operands of a formula. -/

namespace StageScript

namespace Binary

/-- Applies an operator to the first two operands and leaves the result in the first. In strict mode
dividing by zero is a fault. -/
def perform (op : Binary) : Exec Unit := do
  let m ← get
  let o := m.registers.operands
  if op.divides && o[1] == 0 && m.strict then throw .divisionByZero
  modify (·.setOperand 0 (op.apply o[0] o[1]))

end Binary

namespace Unary

/-- Applies an operator to the first operand. -/
def perform (op : Unary) : Exec Unit :=
  modify fun m => m.setOperand 0 (op.apply m.registers.operands[0])

end Unary

namespace Check

/-- Compares the first two operands. -/
def perform (op : Check) : Exec Unit :=
  modify fun m =>
    let o := m.registers.operands
    m.answer (Word.ofBool (op.comparison.holds o[0] o[1]))

end Check

namespace Formula

open Trig in
/-- The first operand behind a formula. -/
def first (o : Operands) : Formula → Word
  | .sin => sin512 o[1]
  | .cos => cos512 o[1]
  | .sin256 => Trig.sin256 o[1]
  | .cos256 => Trig.cos256 o[1]
  | .sinChange => o[3] + (sin512 o[1] >>> o[2]) - o[4]
  | .cosChange => o[3] + (cos512 o[1] >>> o[2]) - o[4]
  | .aTan2 => angle o[1] o[2]
  | .interpolate => Fixed.interpolate o[1] o[2] o[3]
  | .interpolateXY => Fixed.interpolate o[2] o[4] o[6]
  | .getBit => o[1] >>> o[2] &&& 1
  | .setBit => if o[2] = 0 then o[0] &&& ~~~((1 : Word) <<< o[1]) else o[0] ||| (1 : Word) <<< o[1]

/-- The operands behind a formula. Only the one that treats two coordinates changes the second. -/
def apply (f : Formula) (o : Operands) : Operands :=
  let changed := o.set 0 (f.first o)
  match f with
  | .interpolateXY => changed.set 1 (Fixed.interpolate o[3] o[5] o[6])
  | _ => changed

/-- Applies a formula. -/
def perform (f : Formula) : Exec Unit :=
  modify (·.modifyRegisters fun r => { r with operands := f.apply r.operands })

end Formula

/-- Draws a random number below the second operand, or zero if that is not positive. -/
def performRandom : Exec Unit :=
  modify fun m =>
    match m.registers.operands[1].index? with
    | none => m.setOperand 0 0
    | some 0 => m.setOperand 0 0
    | some bound =>
      let (n, random) := m.random.below bound
      ({ m with random }).setOperand 0 (Word.ofNat n)

end StageScript
