import Mathlib.Data.Nat.Digits.Lemmas
import StageScript.Machine.Drawing
import StageScript.Proofs.Stepwise

/-! # Numbers as they are drawn
A number is drawn from right to left, one sprite frame for each of its digits.
* **`Drawing.countedOff?`** — the digits as a loop counts them off: it carries a power of ten in 64 bits and
  divides by it at every place that it draws;
* **`Drawing.countedOff?_eq`** — no division is by zero, and the loop draws what the instruction draws;
* **`Drawing.perform_numbers`** — which is the decimal numeral of the number. -/

namespace StageScript

namespace Drawing

/-! ## Counting off -/

/-- The greatest or the least number of 64 bits in the place of one that is beyond them. -/
def saturated (n : Int) : Int := max (-0x8000000000000000) (min n 0x7FFFFFFFFFFFFFFF)

/-- A quotient, rounded towards zero. There is none of a division by zero. -/
def quotient? (a b : Int) : Option Int := if b = 0 then none else some (a.tdiv b)

/-- What a division leaves, with the sign of the number that is divided. -/
def remainder? (a b : Int) : Option Int := if b = 0 then none else some (a.tmod b)

/-- The digit of a number in front of a power of ten. -/
def digitBefore? (value power : Int) : Option Int := do
  let remainder ← remainder? value power
  let unit ← quotient? power 10
  quotient? remainder unit

/-- What powers of ten are compared with. Zero reaches as far as one does. -/
def shown (value : Int) : Int := if value = 0 then 10 else saturated (value * 10)

/-- What the loop draws at `x`, for the digit in front of a power of ten. -/
def drawnAt? (m : Machine) (object : Nat) (o : Operands) (x : Word) (power : Int) :
    Option (List DrawCommand) :=
  if o[6] ≠ 0 || decide (power ≤ shown o[3].toInt) then do
    let digit ← digitBefore? o[3].toInt power
    some (sprite? m object (o[0] + Int32.ofInt digit) x o[2]).toList
  else some []

/-- **The digits as a loop counts them off**, so many of them, the first at `x` and in front of a power
of ten. -/
def countedOff? (m : Machine) (object : Nat) (o : Operands) :
    (left : Nat) → (x : Word) → (power : Int) → Option (List DrawCommand)
  | 0, _, _ => some []
  | left + 1, x, power => do
    let here ← drawnAt? m object o x power
    let others ← countedOff? m object o left (x - o[5]) (saturated (power * 10))
    return here ++ others

/-- How many places there are for digits. -/
def places (o : Operands) : Nat := (min o[4].toInt 18).toNat

/-- What the instruction draws at a place. -/
def digitAt (m : Machine) (object : Nat) (o : Operands) (place : Nat) : List DrawCommand :=
  if o[6] ≠ 0 || reaches o[3].toInt place then
    (sprite? m object (o[0] + Int32.ofInt (digit o[3].toInt place)) (o[1] - Word.ofNat place * o[5])
      o[2]).toList
  else []

theorem digits_eq (m : Machine) (object : Nat) (o : Operands) :
    digits m object o = (List.range (places o)).flatMap (digitAt m object o) := by
  have count : min (o[4].index?.getD 0) digitLimit = places o := by
    unfold Word.index? places digitLimit
    split
    · simp only [Option.getD_none]
      omega
    · simp only [Option.getD_some]
      omega
  rw [← count]
  rfl

/-! ### Powers of ten -/

theorem saturated_pow {place : Nat} (inside : place < 18) :
    saturated (10 ^ (place + 1)) = 10 ^ (place + 1) := by
  -- the last power that is reached is the greatest one below the bound
  have large : (10 : Int) ^ (place + 1) ≤ 10 ^ 18 := pow_le_pow_right₀ (by decide) inside
  have positive : (0 : Int) < 10 ^ (place + 1) := by positivity
  unfold saturated
  omega

theorem saturated_word (w : Word) : saturated (w.toInt * 10) = w.toInt * 10 := by
  -- ten times a word is far from the bounds of 64 bits
  have := w.le_toInt
  have := w.toInt_lt
  unfold saturated
  omega

/-- **The divisors are no zeros**: they are a power of ten and the one below it. -/
theorem digitBefore?_pow (value : Int) (place : Nat) :
    digitBefore? value (10 ^ (place + 1)) = some (digit value place) := by
  have positive : (0 : Int) < 10 ^ place := by positivity
  have power : (10 : Int) ^ (place + 1) = 10 ^ place * 10 := pow_succ 10 place
  have unit : ((10 : Int) ^ (place + 1)).tdiv 10 = 10 ^ place := by
    rw [power]
    exact Int.mul_tdiv_cancel _ (by decide)
  unfold digitBefore? remainder? quotient?
  rw [if_neg (by omega), if_neg (by decide), unit]
  show (if (10 : Int) ^ place = 0 then none else _) = _
  rw [if_neg (by omega), digit]
  norm_num

/-- The loop tells the places that a number reaches as the instruction does. -/
theorem decide_le_shown (w : Word) (place : Nat) :
    decide ((10 : Int) ^ (place + 1) ≤ shown w.toInt) = reaches w.toInt place := by
  unfold shown reaches
  rw [saturated_word]
  show _ = decide ((((10 ^ (place + 1) : Nat) : Nat) : Int) ≤ _)
  rw [Nat.cast_pow]
  rfl

/-! ### The loop -/

variable {m : Machine} {object : Nat} {o : Operands}

theorem drawnAt?_pow (place : Nat) :
    drawnAt? m object o (o[1] - Word.ofNat place * o[5]) (10 ^ (place + 1)) =
      some (digitAt m object o place) := by
  unfold drawnAt? digitAt
  rw [decide_le_shown, digitBefore?_pow]
  split <;> rfl

theorem sub_place (x s : Word) (place : Nat) :
    x - Word.ofNat place * s - s = x - Word.ofNat (place + 1) * s := by
  have next : Word.ofNat (place + 1) = Word.ofNat place + 1 := Int32.ofNat_add place 1
  rw [next]
  grind

/-- The loop from a place on. -/
theorem countedOff?_from (left place : Nat) (inside : place + left ≤ 18) :
    countedOff? m object o left (o[1] - Word.ofNat place * o[5]) (saturated (10 ^ (place + 1))) =
      some ((List.range' place left).flatMap (digitAt m object o)) := by
  -- on the places that are left; the bound keeps each power that is drawn from being cut off
  induction left generalizing place with
  | zero => rfl
  | succ left ih =>
    have power : saturated (10 ^ (place + 1)) = 10 ^ (place + 1) := saturated_pow (by omega)
    have others := ih (place + 1) (by omega)
    rw [← sub_place, pow_succ] at others
    rw [countedOff?, power, drawnAt?_pow]
    show (countedOff? m object o left _ _ >>= _) = _
    rw [others]
    rfl

/-- **The loop divides by no zero**, whatever the operands are, and draws what the instruction draws. -/
theorem countedOff?_eq (m : Machine) (object : Nat) (o : Operands) :
    countedOff? m object o (places o) o[1] 10 = some (digits m object o) := by
  have few : 0 + places o ≤ 18 := by
    unfold places
    omega
  have whole := @countedOff?_from m object o (places o) 0 few
  have start : o[1] - Word.ofNat 0 * o[5] = o[1] := by
    show o[1] - (0 : Word) * o[5] = o[1]
    grind
  rw [start] at whole
  rw [digits_eq, List.range_eq_range']
  exact whole

/-! ## Numerals -/

/-- The decimal digit of a number at a place, counted from the right. -/
def decimalDigit (n place : Nat) : Nat := (Nat.digits 10 n).getD place 0

/-- How many decimal digits a number has. Zero has one. -/
def decimalLength (n : Nat) : Nat := max 1 (Nat.digits 10 n).length

theorem digit_natCast (n place : Nat) : digit n place = decimalDigit n place := by
  unfold digit decimalDigit
  rw [Nat.getD_digits n place (by decide), ← Int.ofNat_tmod, ← Int.ofNat_tdiv]
  show ((n % 10 ^ (place + 1) / 10 ^ place : Nat) : Int) = _
  rw [pow_succ, Nat.mod_mul_right_div_self]

theorem reaches_natCast (n place : Nat) : reaches n place = decide (place < decimalLength n) := by
  unfold reaches decimalLength
  rw [decide_eq_decide]
  show (((10 ^ (place + 1) : Nat)) : Int) ≤ _ ↔ _
  rw [lt_max_iff, Nat.lt_digits_length_iff (by decide), pow_succ]
  split
  · next none =>
    -- zero has the digit at the first place only
    obtain rfl : n = 0 := Int.ofNat_eq_zero.1 none
    have power : 0 < 10 ^ place := by positivity
    cases place with
    | zero => decide
    | succ place =>
      rw [pow_succ] at power ⊢
      omega
  · next some =>
    -- any other number has one at the first place as well
    have first : place < 1 → 10 ^ place ≤ n := by
      intro least
      obtain rfl : place = 0 := by omega
      rw [pow_zero]
      omega
    generalize 10 ^ place = power at first ⊢
    omega

/-- The decimal numeral of a number, from right to left as it is drawn. -/
def numeral (m : Machine) (object : Nat) (o : Operands) : List DrawCommand :=
  let value := o[3].toInt.toNat
  (List.range (places o)).flatMap fun place =>
    if o[6] ≠ 0 ∨ place < decimalLength value then
      (sprite? m object (o[0] + Word.ofNat (decimalDigit value place)) (o[1] - Word.ofNat place * o[5])
        o[2]).toList
    else []

theorem digits_eq_numeral (m : Machine) (object : Nat) {o : Operands} (natural : 0 ≤ o[3].toInt) :
    digits m object o = numeral m object o := by
  rw [digits_eq, numeral]
  refine congrArg (List.flatMap · _) (funext fun place => ?_)
  have value : o[3].toInt = (o[3].toInt.toNat : Nat) := (Int.toNat_of_nonneg natural).symm
  unfold digitAt
  rw [value, reaches_natCast, digit_natCast]
  simp only [Bool.or_eq_true, decide_eq_true_eq]
  rfl

/-! ## The instruction -/

/-- A machine that has had the host draw. -/
def drawn (m : Machine) (commands : List DrawCommand) : Machine :=
  { m with history := m.history ++ (commands.map HostCall.draw).toArray }

theorem foldl_call_eq_drawn (m : Machine) (commands : List DrawCommand) :
    commands.foldl (fun m c => m.call (.draw c)) m = drawn m commands := by
  induction commands generalizing m with
  | nil => simp [drawn]
  | cons c rest ih =>
    rw [List.foldl_cons, ih]
    simp [drawn, Machine.call]

/-- **Numbers are drawn in decimal.** Whatever the operands are, no division is by zero, the host is asked
for sprites only, and there are none where no digits are wanted. A number that is not negative is drawn as
its decimal numeral: from right to left, in as many places as are wanted but no more than eighteen, with
leading zeros only where all digits are wanted. -/
theorem perform_numbers (run : Activation) (m : Machine) :
    ∃ commands,
      countedOff? m run.object m.registers.operands (places m.registers.operands)
        m.registers.operands[1] 10 = some commands ∧
      perform run .numbers m = (.ok (), drawn m commands) ∧
      (m.registers.operands[4] ≤ (0 : Word) → commands = []) ∧
      ((0 : Word) ≤ m.registers.operands[3] → commands = numeral m run.object m.registers.operands) := by
  refine ⟨digits m run.object m.registers.operands, countedOff?_eq .., ?_, fun none => ?_,
    fun natural => ?_⟩
  · exact congrArg (Prod.mk _) (foldl_call_eq_drawn m _)
  · rw [Int32.le_iff_toInt_le] at none
    have count : places m.registers.operands = 0 := by
      have zero : (0 : Int32).toInt = 0 := rfl
      unfold places
      omega
    rw [digits_eq, count]
    rfl
  · exact digits_eq_numeral m run.object (Int32.le_iff_toInt_le.1 natural)

/-- A machine that draws the number 105 in five places, of sprite frames that are as wide as their digit. -/
def scoring : Machine where
  scene := { spriteFrames := (Array.range 10).map fun digit => { width := Word.ofNat digit } }
  registers := { operands := ⟨#v[0, 100, 20, 105, 5, 8, 0, 0, 0, 0]⟩ }
  random := Random.ofSeed 1

/-- Three digits are drawn, the last one first. -/
theorem perform_numbers_scoring :
    (0 : Word) ≤ scoring.registers.operands[3] ∧
      (perform ⟨0, .draw⟩ .numbers scoring).2.history =
        #[.draw (.sprite none ⟨100, 20, 5, 0, 0, 0, 0⟩), .draw (.sprite none ⟨92, 20, 0, 0, 0, 0, 0⟩),
          .draw (.sprite none ⟨84, 20, 1, 0, 0, 0, 0⟩)] := by
  have natural : (0 : Word) ≤ scoring.registers.operands[3] := by decide
  obtain ⟨commands, -, performed, -, decimal⟩ := perform_numbers ⟨0, .draw⟩ scoring
  refine ⟨natural, ?_⟩
  rw [performed, decimal natural]
  decide +kernel

end Drawing

end StageScript
