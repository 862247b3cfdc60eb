import StageScript.Word

/-! # Word arithmetic of instructions
The operators that instructions apply to words.
* `Comparison.holds` is a signed comparison;
* `Binary.apply` and `Unary.apply` wrap, and dividing by zero gives zero. -/

namespace StageScript

/-- The comparisons of `if` and `while`. -/
inductive Comparison
  | equal
  | greater
  | greaterOrEqual
  | lower
  | lowerOrEqual
  | notEqual
  deriving DecidableEq, Repr

/-- Whether a comparison holds of two words. -/
def Comparison.holds : Comparison → Word → Word → Bool
  | .equal, a, b => a == b
  | .greater, a, b => b < a
  | .greaterOrEqual, a, b => b ≤ a
  | .lower, a, b => a < b
  | .lowerOrEqual, a, b => a ≤ b
  | .notEqual, a, b => a != b

/-- The comparisons that have an instruction of their own, which only keeps the result. -/
inductive Check
  | equal
  | greater
  | lower
  | notEqual
  deriving DecidableEq, Repr

/-- The comparison that a check makes. -/
def Check.comparison : Check → Comparison
  | .equal => .equal
  | .greater => .greater
  | .lower => .lower
  | .notEqual => .notEqual

/-- The operators that combine a destination with a source. -/
inductive Binary
  /-- The source itself. -/
  | assign
  | add
  | sub
  | mul
  | div
  | shiftRight
  | shiftLeft
  | and
  | or
  | xor
  | mod
  deriving DecidableEq, Repr

/-- The new value of a destination. Shifts take their amount modulo 32, the right shift keeps the
sign, and division truncates. -/
def Binary.apply : Binary → Word → Word → Word
  | .assign, _, b => b
  | .add, a, b => a + b
  | .sub, a, b => a - b
  | .mul, a, b => a * b
  | .div, a, b => if b = 0 then 0 else a / b
  | .shiftRight, a, b => a >>> b
  | .shiftLeft, a, b => a <<< b
  | .and, a, b => a &&& b
  | .or, a, b => a ||| b
  | .xor, a, b => a ^^^ b
  | .mod, a, b => if b = 0 then 0 else a % b

/-- Whether an operator divides. -/
def Binary.divides : Binary → Bool
  | .div => true
  | .mod => true
  | _ => false

/-- The operators on a destination alone. -/
inductive Unary
  | inc
  | dec
  | flipSign
  | not
  deriving DecidableEq, Repr

/-- The new value of a destination. -/
def Unary.apply : Unary → Word → Word
  | .inc, a => a + 1
  | .dec, a => a - 1
  | .flipSign, a => -a
  | .not, a => ~~~a

/-- Dividing by zero gives zero. -/
theorem Binary.apply_zero_of_divides {op : Binary} (h : op.divides = true) (a : Word) :
    op.apply a 0 = 0 := by
  cases op <;> simp_all [divides, apply]

end StageScript
