import StageScript.Proofs.Machine.Lens

/-! # Directions of vectors
The direction of a vector is looked up in a table for the first quarter of the circle, which has 256 rows and
columns. Longer vectors are made shorter first, and the other quarters mirror the first one.
* `Trig.scaleDown_eq` — the loop that makes vectors shorter: it divides by sixteen six times at most;
* `Trig.angleIn?` — the direction by a table, if the place that is looked up is in it;
* **`Trig.angleIn?_quadrants`** — it always is, and how the quarters mirror each other. -/

namespace StageScript

namespace Trig

/-! ## Making vectors shorter -/

/-- **The loop ends**: some divisions by sixteen, no more than are enough for either coordinate, make both of
them at most 255. -/
theorem scaleDown_eq {rounds x y : Nat} (hx : x >>> (4 * rounds) ≤ 0xFF) (hy : y >>> (4 * rounds) ≤ 0xFF) :
    ∃ k ≤ rounds, scaleDown x y = (x >>> (4 * k), y >>> (4 * k)) ∧
      x >>> (4 * k) ≤ 0xFF ∧ y >>> (4 * k) ≤ 0xFF := by
  have shift (n k : Nat) : (n / 16) >>> (4 * k) = n >>> (4 * (k + 1)) := by
    have sixteen : n / 16 = n >>> 4 := (Nat.shiftRight_eq_div_pow n 4).symm
    rw [sixteen, ← Nat.shiftRight_add, Nat.mul_succ, Nat.add_comm]
  induction rounds generalizing x y with
  | zero => exact ⟨0, Nat.le_refl 0, scaleDown_of_le (Nat.max_le.2 ⟨hx, hy⟩), hx, hy⟩
  | succ rounds ih =>
    by_cases done : max x y ≤ 0xFF
    · have ⟨left, right⟩ := Nat.max_le.1 done
      exact ⟨0, Nat.zero_le _, scaleDown_of_le done, left, right⟩
    · -- one division is behind us, and the rounds that are left are enough for the quotients
      rw [← shift] at hx hy
      obtain ⟨k, few, ends, left, right⟩ := ih hx hy
      simp only [shift] at ends left right
      refine ⟨k + 1, Nat.succ_le_succ few, ?_, left, right⟩
      rw [scaleDown, if_neg done, ends]

/-- **Vectors of words are short behind six rounds**, and then both coordinates are in the table. -/
theorem scaleDown_word (x y : Word) :
    ∃ k ≤ 6, ∃ i ≤ 0xFF, ∃ j ≤ 0xFF, scaleDown x.toInt.natAbs y.toInt.natAbs = (i, j) ∧
      i = x.toInt.natAbs >>> (4 * k) ∧ j = y.toInt.natAbs >>> (4 * k) := by
  have bound (w : Word) : w.toInt.natAbs >>> (4 * 6) ≤ 0xFF := by
    have low := w.le_toInt
    have high := w.toInt_lt
    rw [Nat.shiftRight_eq_div_pow]
    omega
  obtain ⟨k, few, ends, left, right⟩ := scaleDown_eq (bound x) (bound y)
  exact ⟨k, few, _, left, _, right, ends, rfl, rfl⟩

/-- A vector of sixteen times the length is shortened to the same. -/
theorem scaleDown_sixteen {x y : Nat} (long : 16 ≤ max x y) :
    scaleDown (16 * x) (16 * y) = scaleDown x y := by
  have divided (n : Nat) : 16 * n / 16 = n := Nat.mul_div_cancel_left n (by decide)
  rw [scaleDown, if_neg (by omega), divided, divided]

/-! ## Quarters -/

/-- The angle of a vector out of that of the first quarter. Zero counts as negative. -/
def turned (x y : Word) (a : UInt8) : UInt8 :=
  if x ≤ 0 then if y ≤ 0 then a + 0x80 else 0x80 - a
  else if y ≤ 0 then 0 - a else a

/-- The angles of the first quarter, one row of 256 behind the other. -/
abbrev Table : Type := Vector UInt8 0x10000

/-- The angle in a row and a column. -/
def Table.entry (table : Table) (i j : Nat) : UInt8 := table[i * 0x100 + j]?.getD 0

/-- **The direction of a vector by a table.** There is none if the place that is looked up is not in it. -/
def angleIn? (table : Table) (x y : Word) : Option Word :=
  let (i, j) := scaleDown x.toInt.natAbs y.toInt.natAbs
  table[i * 0x100 + j]?.map fun a => Word.ofByte (turned x y a)

/-- The place that is looked up goes by the lengths of the coordinates alone, and it is in the table. -/
theorem exists_angleIn? (table : Table) (x y : Word) :
    ∃ i ≤ 0xFF, ∃ j ≤ 0xFF, ∀ x' y' : Word, x'.toInt.natAbs = x.toInt.natAbs →
      y'.toInt.natAbs = y.toInt.natAbs →
        angleIn? table x' y' = some (Word.ofByte (turned x' y' (table.entry i j))) ∧
          angleWith table.entry x' y' = Word.ofByte (turned x' y' (table.entry i j)) := by
  obtain ⟨-, -, i, left, j, right, short, -⟩ := scaleDown_word x y
  refine ⟨i, left, j, right, fun x' y' hx hy => ?_⟩
  have inside : i * 0x100 + j < 0x10000 := by omega
  unfold angleIn? angleWith Table.entry
  rw [hx, hy, short]
  dsimp only
  rw [Vector.getElem?_eq_getElem inside]
  exact ⟨rfl, rfl⟩

/-! ### Signs -/

theorem toInt_neg_of_pos {w : Word} (positive : 0 < w) : (-w).toInt = -w.toInt := by
  rw [Int32.lt_iff_toInt_lt, Int32.toInt_zero] at positive
  have := w.toInt_lt
  rw [Int32.toInt_neg, Int.bmod_eq_of_le (by omega) (by omega)]

theorem neg_nonpos {w : Word} (positive : 0 < w) : -w ≤ 0 := by
  rw [Int32.le_iff_toInt_le, toInt_neg_of_pos positive, Int32.toInt_zero]
  rw [Int32.lt_iff_toInt_lt, Int32.toInt_zero] at positive
  omega

theorem not_nonpos {w : Word} (positive : 0 < w) : ¬ w ≤ 0 := by
  rw [Int32.lt_iff_toInt_lt] at positive
  rw [Int32.le_iff_toInt_le]
  omega

/-- An angle and the angle of a mirrored vector, counted around the circle. -/
theorem toInt_ofByte_sub (a b : UInt8) :
    (Word.ofByte (b - a)).toInt = ((Word.ofByte b).toInt - (Word.ofByte a).toInt) % 0x100 := by
  have := a.toNat_lt
  have := b.toNat_lt
  rw [Word.toInt_ofByte, Word.toInt_ofByte, Word.toInt_ofByte, UInt8.toNat_sub]
  omega

theorem toInt_ofByte_add (a b : UInt8) :
    (Word.ofByte (a + b)).toInt = ((Word.ofByte b).toInt + (Word.ofByte a).toInt) % 0x100 := by
  rw [Word.toInt_ofByte, Word.toInt_ofByte, Word.toInt_ofByte, UInt8.toNat_add]
  omega

/-- A product with sixteen that is still a word. -/
theorem toInt_sixteen_mul {w : Word} (low : -0x80000000 ≤ 16 * w.toInt) (high : 16 * w.toInt < 0x80000000) :
    (16 * w).toInt = 16 * w.toInt := by
  have sixteen : (16 : Word).toInt = 16 := rfl
  rw [Int32.toInt_mul, sixteen, Int.bmod_eq_of_le (by omega) (by omega)]

theorem turned_sixteen {x y : Word} (hx : (16 * x).toInt = 16 * x.toInt)
    (hy : (16 * y).toInt = 16 * y.toInt) (a : UInt8) : turned (16 * x) (16 * y) a = turned x y a := by
  have sign (w : Word) (h : (16 * w).toInt = 16 * w.toInt) : 16 * w ≤ 0 ↔ w ≤ 0 := by
    rw [Int32.le_iff_toInt_le, Int32.le_iff_toInt_le, h, Int32.toInt_zero]
    omega
  unfold turned
  simp only [sign x hx, sign y hy]

/-! ## Directions -/

/-- **The quarters of the circle.** For every table and every vector the place that is looked up is in the
table, so that there is a direction; it is the one that the angles of the table give, and one of the 256 of
the circle. The directions of the vectors that mirror one of the first quarter are its own, mirrored. Sixteen
times a vector has its direction, if the vector is not so short that both are looked up as they are. -/
theorem angleIn?_quadrants (table : Table) :
    (∀ x y, ∃ a, angleIn? table x y = some a ∧ angleWith table.entry x y = a ∧ 0 ≤ a.toInt ∧
      a.toInt ≤ 255) ∧
    (∀ x y a, 0 < x → 0 < y → angleIn? table x y = some a →
      (angleIn? table x (-y)).map Int32.toInt = some (-a.toInt % 0x100) ∧
      (angleIn? table (-x) y).map Int32.toInt = some ((0x80 - a.toInt) % 0x100) ∧
      (angleIn? table (-x) (-y)).map Int32.toInt = some ((0x80 + a.toInt) % 0x100)) ∧
    ∀ x y : Word, 16 ≤ max x.toInt.natAbs y.toInt.natAbs →
      -0x80000000 ≤ 16 * x.toInt → 16 * x.toInt < 0x80000000 →
      -0x80000000 ≤ 16 * y.toInt → 16 * y.toInt < 0x80000000 →
        angleIn? table (16 * x) (16 * y) = angleIn? table x y := by
  refine ⟨fun x y => ?_, fun x y a hx hy found => ?_, fun x y long lowX highX lowY highY => ?_⟩
  · obtain ⟨i, -, j, -, looks⟩ := exists_angleIn? table x y
    obtain ⟨found, same⟩ := looks x y rfl rfl
    refine ⟨_, found, same, ?_⟩
    rw [Word.toInt_ofByte]
    have := (turned x y (table.entry i j)).toNat_lt
    omega
  · -- all four vectors are looked up at the same place, and differ in their signs alone
    obtain ⟨i, -, j, -, looks⟩ := exists_angleIn? table x y
    have absX : (-x).toInt.natAbs = x.toInt.natAbs := by rw [toInt_neg_of_pos hx, Int.natAbs_neg]
    have absY : (-y).toInt.natAbs = y.toInt.natAbs := by rw [toInt_neg_of_pos hy, Int.natAbs_neg]
    have first : turned x y (table.entry i j) = table.entry i j := by
      rw [turned, if_neg (not_nonpos hx), if_neg (not_nonpos hy)]
    rw [(looks x y rfl rfl).1, first] at found
    obtain rfl := Option.some.inj found
    have zero : (Word.ofByte 0).toInt = 0 := rfl
    have half : (Word.ofByte 0x80).toInt = 0x80 := rfl
    refine ⟨?_, ?_, ?_⟩
    · rw [(looks x (-y) rfl absY).1, turned, if_neg (not_nonpos hx), if_pos (neg_nonpos hy),
        Option.map_some, toInt_ofByte_sub, zero, Int.zero_sub]
    · rw [(looks (-x) y absX rfl).1, turned, if_pos (neg_nonpos hx), if_neg (not_nonpos hy),
        Option.map_some, toInt_ofByte_sub, half]
    · rw [(looks (-x) (-y) absX absY).1, turned, if_pos (neg_nonpos hx), if_pos (neg_nonpos hy),
        Option.map_some, toInt_ofByte_add, half]
  · have hx := toInt_sixteen_mul lowX highX
    have hy := toInt_sixteen_mul lowY highY
    have same : scaleDown (16 * x).toInt.natAbs (16 * y).toInt.natAbs =
        scaleDown x.toInt.natAbs y.toInt.natAbs := by
      rw [hx, hy, Int.natAbs_mul, Int.natAbs_mul]
      exact scaleDown_sixteen long
    unfold angleIn?
    rw [same]
    simp only [turned_sixteen hx hy]

/-- The table that the arctangent of the first quarter is in. -/
def quarterTable : Table := Vector.ofFn fun place => quarterAngle (place.val / 0x100) (place.val % 0x100)

/-- **The direction of a vector is looked up in the table of the arctangent.** -/
theorem angleIn?_quarterTable (x y : Word) : angleIn? quarterTable x y = some (angle x y) := by
  obtain ⟨-, -, i, left, j, right, short, -⟩ := scaleDown_word x y
  have inside : i * 0x100 + j < 0x10000 := by omega
  have row : (i * 0x100 + j) / 0x100 = i := by omega
  have column : (i * 0x100 + j) % 0x100 = j := by omega
  unfold angleIn? angle angleWith quarterTable
  rw [short]
  dsimp only
  rw [Vector.getElem?_eq_getElem inside, Vector.getElem_ofFn]
  simp only [row, column]
  rfl

theorem angle_hundred : angle 100 50 = 18 := by
  have short : scaleDown (100 : Word).toInt.natAbs (50 : Word).toInt.natAbs = (100, 50) :=
    scaleDown_of_le (by decide)
  unfold angle angleWith
  rw [short]
  decide

/-- The directions of a vector in the four quarters, and of one whose sixteenfold is at the end of the
words. -/
theorem angleIn?_quadrants_hundred :
    angleIn? quarterTable 100 50 = some 18 ∧
      (angleIn? quarterTable 100 (-50)).map Int32.toInt = some 238 ∧
      (angleIn? quarterTable (-100) 50).map Int32.toInt = some 110 ∧
      (angleIn? quarterTable (-100) (-50)).map Int32.toInt = some 146 ∧
      angleIn? quarterTable (16 * -0x8000000) (16 * 3) = angleIn? quarterTable (-0x8000000) 3 := by
  have found : angleIn? quarterTable 100 50 = some 18 := by rw [angleIn?_quarterTable, angle_hundred]
  obtain ⟨-, mirrored, shortened⟩ := angleIn?_quadrants quarterTable
  obtain ⟨below, left, opposite⟩ := mirrored 100 50 18 (by decide) (by decide) found
  exact ⟨found, below, left, opposite,
    shortened (-0x8000000) 3 (by decide) (by decide) (by decide) (by decide) (by decide)⟩

end Trig

end StageScript
