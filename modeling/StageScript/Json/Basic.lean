import StageScript.Text.Numeral

/-! # JSON values
* `Json` is a value; numbers keep the way they are written, and a string that spells half of a
  surrogate pair has no text;
* `Json.integer?` and the other readers give a value its type. -/

namespace StageScript

/-- A JSON value. -/
inductive Json
  | null
  | bool (value : Bool)
  /-- A number, by its spelling. -/
  | number (spelling : Text)
  /-- A string; one whose escapes spell no character has no text. -/
  | string (text : Option String)
  | array (items : List Json)
  /-- An object with its entries in order. -/
  | object (entries : List (Option String × Json))
  deriving Inhabited

namespace Json

/-- A string value. -/
def ofString (s : String) : Json := .string (some s)

/-- An integer value. -/
def ofInt (i : Int) : Json := .number (Numeral.ofInt i)

/-- An integer value that is not negative. -/
def ofNat (n : Nat) : Json := .number (Numeral.ofNat n)

/-- A word as a value. -/
def ofWord (w : Word) : Json := .number (Numeral.ofWord w)

/-- An object of named values. -/
def ofFields (fields : List (String × Json)) : Json :=
  .object (fields.map fun (name, value) => (some name, value))

/-- The text of a string value. -/
def string? : Json → Option String
  | .string text => text
  | _ => none

/-- The truth value of a value. -/
def bool? : Json → Option Bool
  | .bool value => some value
  | _ => none

/-- The items of an array value. -/
def array? : Json → Option (List Json)
  | .array items => some items
  | _ => none

/-- The integer of a number that is written as one: without fraction and exponent, and not as a
negative zero. -/
def integer? : Json → Option Int
  | .number ('-' :: digits) =>
    (Numeral.natural? digits).bind fun n => if n = 0 then none else some (-(n : Int))
  | .number digits => (Numeral.natural? digits).map Int.ofNat
  | _ => none

/-- The integer of a value, if it is a 32-bit signed one. -/
def word? (value : Json) : Option Word :=
  value.integer?.bind fun i => if -0x80000000 ≤ i ∧ i ≤ 0x7FFFFFFF then some (Int32.ofInt i) else none

/-- The integer of a value, if it is a 64-bit unsigned one. -/
def natural? (value : Json) : Option Nat :=
  value.integer?.bind fun i => if 0 ≤ i ∧ i < 0x10000000000000000 then some i.toNat else none

end Json

end StageScript
