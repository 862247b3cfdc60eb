import StageScript.Text.Utf8

/-! # UTF-8 read back
A text comes back from its bytes, whatever stands behind them.
* **`Utf8.take_utf8EncodeChar`** — reading takes exactly the bytes of the first character;
* **`Utf8.decodeLossy_encode`** — hence a text survives writing and reading. -/

namespace StageScript

namespace Utf8

@[simp] theorem follow_zero (low high : UInt8) (bits : Nat) (rest : List UInt8) :
    follow 0 low high bits rest = (some bits, rest) := by rw [follow]

/-- A byte that fits is taken on top of the bits before it. -/
theorem follow_ofNat {n x bits : Nat} {low high : UInt8} {rest : List UInt8}
    (above : low.toNat ≤ x % 0x40 + 0x80) (below : x % 0x40 + 0x80 ≤ high.toNat) :
    follow (n + 1) low high bits (UInt8.ofNat (x % 0x40 + 0x80) :: rest) =
      follow n 0x80 0xBF (bits * 0x40 + x % 0x40) rest := by
  have value : (UInt8.ofNat (x % 0x40 + 0x80)).toNat = x % 0x40 + 0x80 := by
    rw [UInt8.toNat_ofNat']
    omega
  have fits : (low ≤ UInt8.ofNat (x % 0x40 + 0x80) && UInt8.ofNat (x % 0x40 + 0x80) ≤ high) = true := by
    simp only [UInt8.le_iff_toNat_le, value, Bool.and_eq_true, decide_eq_true_eq]
    exact ⟨above, below⟩
  rw [follow, if_pos fits, value]
  congr 1
  omega

/-- The bytes that may follow any first byte but the four with narrower bounds. -/
theorem follow_ofNat_any {n x bits : Nat} {rest : List UInt8} :
    follow (n + 1) 0x80 0xBF bits (UInt8.ofNat (x % 0x40 + 0x80) :: rest) =
      follow n 0x80 0xBF (bits * 0x40 + x % 0x40) rest := by
  apply follow_ofNat
  · show 0x80 ≤ _
    omega
  · show _ ≤ 0xBF
    omega

/-! ## First bytes -/

theorem lead?_one {n : Nat} (most : n < 0x80) :
    lead? (UInt8.ofNat n) = some { bits := n, following := 0 } := by
  have value : (UInt8.ofNat n).toNat = n := by rw [UInt8.toNat_ofNat']; omega
  simp only [lead?, UInt8.lt_iff_toNat_lt, ← UInt8.toNat_inj, value, UInt8.reduceToNat]
  rw [if_pos most]

theorem lead?_two {n : Nat} (least : 2 ≤ n) (most : n < 0x20) :
    lead? (UInt8.ofNat (n + 0xC0)) = some { bits := n, following := 1 } := by
  have value : (UInt8.ofNat (n + 0xC0)).toNat = n + 0xC0 := by rw [UInt8.toNat_ofNat']; omega
  simp only [lead?, UInt8.lt_iff_toNat_lt, ← UInt8.toNat_inj, value, UInt8.reduceToNat]
  rw [if_neg (by omega), if_neg (by omega), if_pos (by omega)]
  congr 2
  omega

/-- What the first byte of three announces. -/
theorem lead?_three {n : Nat} (most : n < 0x10) :
    lead? (UInt8.ofNat (n + 0xE0)) =
      some { bits := n, following := 2
             low := if n = 0 then 0xA0 else 0x80
             high := if n = 0xD then 0x9F else 0xBF } := by
  have value : (UInt8.ofNat (n + 0xE0)).toNat = n + 0xE0 := by rw [UInt8.toNat_ofNat']; omega
  simp only [lead?, UInt8.lt_iff_toNat_lt, ← UInt8.toNat_inj, value, UInt8.reduceToNat]
  rw [if_neg (by omega), if_neg (by omega), if_neg (by omega)]
  by_cases first : n = 0
  · subst first
    rfl
  · by_cases surrogate : n = 0xD
    · subst surrogate
      rfl
    · rw [if_neg (by omega), if_neg (by omega), if_pos (by omega), if_neg first, if_neg surrogate]
      congr 2
      omega

/-- What the first byte of four announces. -/
theorem lead?_four {n : Nat} (most : n < 5) :
    lead? (UInt8.ofNat (n + 0xF0)) =
      some { bits := n, following := 3
             low := if n = 0 then 0x90 else 0x80
             high := if n = 4 then 0x8F else 0xBF } := by
  have small : n = 0 ∨ n = 1 ∨ n = 2 ∨ n = 3 ∨ n = 4 := by omega
  rcases small with rfl | rfl | rfl | rfl | rfl <;> rfl

/-! ## Characters -/

/-- **Reading takes the bytes of one character.** -/
theorem take_utf8EncodeChar (c : Char) (rest : List UInt8) :
    ∃ b bytes, String.utf8EncodeChar c = b :: bytes ∧ take b (bytes ++ rest) = (c, rest) := by
  have valid : c.val.toNat < 0xD800 ∨ 0xDFFF < c.val.toNat ∧ c.val.toNat < 0x110000 := c.valid
  have back : Char.ofNat c.val.toNat = c := Char.ofNat_toNat c
  generalize value : c.val.toNat = v at valid back
  unfold String.utf8EncodeChar
  dsimp only
  rw [value]
  -- One case for each number of bytes; what has to be shown is that the groups of six bits give the
  -- scalar back, and that the second byte is none of an overlong form or a surrogate.
  by_cases one : v ≤ 0x7F
  · refine ⟨_, [], if_pos one, ?_⟩
    rw [take, lead?_one (by omega)]
    exact congrArg (·, rest) back
  · rw [if_neg one]
    by_cases two : v ≤ 0x7FF
    · refine ⟨_, _, if_pos two, ?_⟩
      rw [take, lead?_two (by omega) (by omega)]
      simp only [List.cons_append, List.nil_append, follow_ofNat_any, follow_zero]
      rw [show v / 64 % 32 * 64 + v % 64 = v by omega, back]
    · rw [if_neg two]
      by_cases three : v ≤ 0xFFFF
      · refine ⟨_, _, if_pos three, ?_⟩
        rw [take, lead?_three (by omega)]
        dsimp only
        rw [List.cons_append, follow_ofNat]
        · simp only [List.cons_append, List.nil_append, follow_ofNat_any, follow_zero]
          rw [show (v / 4096 % 16 * 64 + v / 64 % 64) * 64 + v % 64 = v by omega, back]
        · split
          · show 0xA0 ≤ _
            omega
          · show 0x80 ≤ _
            omega
        · split
          · show _ ≤ 0x9F
            omega
          · show _ ≤ 0xBF
            omega
      · refine ⟨_, _, if_neg three, ?_⟩
        rw [take, lead?_four (by omega)]
        dsimp only
        rw [List.cons_append, follow_ofNat]
        · simp only [List.cons_append, List.nil_append, follow_ofNat_any, follow_zero]
          rw [show ((v / 262144 % 8 * 64 + v / 4096 % 64) * 64 + v / 64 % 64) * 64 + v % 64 = v by
            omega, back]
        · split
          · show 0x90 ≤ _
            omega
          · show 0x80 ≤ _
            omega
        · split
          · show _ ≤ 0x8F
            omega
          · show _ ≤ 0xBF
            omega

/-- **A text survives writing and reading.** -/
theorem decodeLossy_encode (text : Text) : decodeLossy (encode text) = text := by
  induction text with
  | nil => exact decodeLossy_nil
  | cons c text ih =>
    obtain ⟨b, bytes, shape, taken⟩ := take_utf8EncodeChar c (encode text)
    rw [encode, List.flatMap_cons, shape, List.cons_append, decodeLossy]
    rw [encode] at taken ih
    rw [taken, ih]

end Utf8

end StageScript
