/-! # Machine words
Every value a script sees is a 32-bit signed word.
* `Word.index?` reads a word as a position, which a negative word is not;
* `Word.lowByte` and `Word.ofByte` are the two directions of a byte-sized field;
* `Word.whole` and `Word.ofWhole` are the pixel part of a 16.16 fixed-point coordinate. -/

namespace StageScript

/-- A script value: a 32-bit signed word whose arithmetic wraps. -/
abbrev Word := Int32

namespace Word

/-- A word as a position in a list; a negative word names none. -/
def index? (w : Word) : Option Nat :=
  if w.toInt < 0 then none else some w.toInt.toNat

/-- The low eight bits of a word. -/
def lowByte (w : Word) : UInt8 := w.toUInt32.toUInt8

/-- The low sixteen bits of a word. -/
def lowHalf (w : Word) : UInt16 := w.toUInt32.toUInt16

/-- A byte as the word of the same value. -/
def ofByte (b : UInt8) : Word := b.toUInt32.toInt32

/-- A half word as the word of the same value. -/
def ofHalf (h : UInt16) : Word := h.toUInt32.toInt32

/-- A position as a word, reduced modulo `2^32`. -/
def ofNat (n : Nat) : Word := Int32.ofNat n

/-- A truth value as a word: `1` or `0`. -/
def ofBool (b : Bool) : Word := if b then 1 else 0

/-- The pixel part of a 16.16 fixed-point coordinate. -/
def whole (w : Word) : Word := w >>> 16

/-- The fixed-point coordinate of a whole pixel. -/
def ofWhole (w : Word) : Word := w <<< 16

/-- A byte comes back from the word it was widened to. -/
@[simp] theorem lowByte_ofByte (b : UInt8) : lowByte (ofByte b) = b := by
  simp [lowByte, ofByte]

/-- A word is a position exactly when it is not negative. -/
theorem index?_eq_none_iff {w : Word} : w.index? = none ↔ w.toInt < 0 := by
  simp [index?]

/-- A word that names a position is the position's word. -/
theorem ofNat_of_index? {w : Word} {i : Nat} (h : w.index? = some i) : ofNat i = w := by
  unfold index? at h
  split at h
  · cases h
  · obtain rfl := Option.some.inj h
    apply Int32.toInt.inj
    have := w.toInt_lt
    have := w.le_toInt
    rw [ofNat, Int32.toInt_ofNat_of_lt (by omega)]
    omega

end Word

end StageScript
