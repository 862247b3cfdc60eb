import StageScript.Word
import StageScript.Text.Basic

/-! # Numerals
* `Numeral.parse?` reads an integer: an optional sign, then decimal digits or `0x` and hexadecimal
  digits, reduced modulo `2^32`;
* `Numeral.natural?` reads decimal digits of any number;
* `Numeral.ofNat` and `Numeral.ofInt` write decimal digits. -/

namespace StageScript

namespace Numeral

/-! ## Reading -/

/-- The value of an ASCII digit below `radix`. -/
def digit? (radix : Nat) (c : Char) : Option Nat :=
  let value :=
    if '0' ≤ c && c ≤ '9' then some (c.toNat - '0'.toNat)
    else if 'a' ≤ c && c ≤ 'z' then some (c.toNat - 'a'.toNat + 10)
    else if 'A' ≤ c && c ≤ 'Z' then some (c.toNat - 'A'.toNat + 10)
    else none
  value.filter (· < radix)

/-- Reads digits on top of the value of the digits before them. -/
def digits? (radix : Nat) : Word → Text → Option Word
  | value, [] => some value
  | value, c :: rest =>
    match digit? radix c with
    | some d => digits? radix (value * Word.ofNat radix + Word.ofNat d) rest
    | none => none

/-- Splits off a sign; the flag says whether it was a minus. -/
def sign : Text → Bool × Text
  | '-' :: rest => (true, rest)
  | '+' :: rest => (false, rest)
  | text => (false, text)

/-- Splits off the mark of a hexadecimal numeral and gives the radix. -/
def radix : Text → Nat × Text
  | '0' :: 'x' :: rest => (16, rest)
  | '0' :: 'X' :: rest => (16, rest)
  | text => (10, text)

/-- Reads an integer literal. Values beyond a word wrap. -/
def parse? (text : Text) : Option Word :=
  let (negative, body) := sign text
  let (base, digits) := radix body
  if digits.isEmpty then none
  else (digits? base 0 digits).map fun value => if negative then -value else value

@[simp] theorem parse?_nil : parse? [] = none := rfl

/-- Reads decimal digits on top of the value of the digits before them. -/
def naturalDigits? : Nat → Text → Option Nat
  | value, [] => some value
  | value, c :: rest => (digit? 10 c).bind fun d => naturalDigits? (value * 10 + d) rest

/-- Reads a number of one or more decimal digits. -/
def natural? (text : Text) : Option Nat :=
  if text.isEmpty then none else naturalDigits? 0 text

/-! ## Writing -/

/-- The decimal digit of a number below ten. -/
def digitChar (d : Nat) : Char := Char.ofNat ('0'.toNat + d)

/-- A number in decimal digits. -/
def ofNat (n : Nat) : Text :=
  if n < 10 then [digitChar n] else ofNat (n / 10) ++ [digitChar (n % 10)]
termination_by n
decreasing_by omega

/-- An integer in decimal digits, with a minus in front of a negative one. -/
def ofInt (i : Int) : Text :=
  if i < 0 then '-' :: ofNat i.natAbs else ofNat i.natAbs

/-- A word in decimal digits. -/
def ofWord (w : Word) : Text := ofInt w.toInt

/-- A number in decimal digits, as a string. -/
def showNat (n : Nat) : String := String.ofList (ofNat n)

/-- An integer in decimal digits, as a string. -/
def showInt (i : Int) : String := String.ofList (ofInt i)

/-- A word in decimal digits, as a string. -/
def showWord (w : Word) : String := String.ofList (ofWord w)

theorem ofNat_ne_nil (n : Nat) : ofNat n ≠ [] := by
  rw [ofNat]; split <;> simp

end Numeral

end StageScript
