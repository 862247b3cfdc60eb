import StageScript.Math.Matrix

/-! # Matrices that move vertices
A product of fixed-point words is rounded, and wraps around where it is large. A product with one does
neither as long as the other word is small, so that matrices of small words compose exactly where they meet
the identity or a translation.
* `Fixed.IsSmall` — the words that a product with one gives back;
* **`Matrix.mul_identity`** and **`Matrix.identity_mul`** — the identity changes no matrix of such words;
* **`Matrix.transform_mul_translation`** — a translation behind a matrix moves what the matrix gives;
* **`Matrix.mul_composes`** — these laws together, with the sum of two translations. -/

namespace StageScript

/-! ## Products with one -/

namespace Fixed

/-- A word that is still a word when it is multiplied by one: it has eight bits to spare. -/
def IsSmall (w : Word) : Prop := -0x800000 ≤ w.toInt ∧ w.toInt < 0x800000

instance (w : Word) : Decidable (IsSmall w) := inferInstanceAs (Decidable (_ ∧ _))

/-- The last eight bits of a product are cut off, below zero as well. -/
theorem toInt_mul (a b : Word) : (mul a b).toInt = (a * b).toInt / 0x100 := by
  have shifted : (mul a b).toInt = ((a * b).toBitVec.sshiftRight 8).toInt := rfl
  rw [shifted, BitVec.toInt_sshiftRight, Int.shiftRight_eq_div_pow]
  rfl

protected theorem mul_comm (a b : Word) : mul a b = mul b a := by
  unfold mul
  rw [Int32.mul_comm]

@[simp] protected theorem mul_zero (w : Word) : mul w 0 = 0 := by
  unfold mul
  rw [Int32.mul_zero]
  rfl

@[simp] protected theorem zero_mul (w : Word) : mul 0 w = 0 := by rw [Fixed.mul_comm, Fixed.mul_zero]

/-- **A product with one gives back a small word.** -/
protected theorem mul_one {w : Word} (small : IsSmall w) : mul w 0x100 = w := by
  have ⟨low, high⟩ := small
  have one : (0x100 : Word).toInt = 0x100 := rfl
  -- the product is no larger than a word, so nothing is lost in front of the shift
  have product : (w * 0x100).toInt = w.toInt * 0x100 := by
    rw [Int32.toInt_mul, one, Int.bmod_eq_of_le (by omega) (by omega)]
  apply Int32.toInt.inj
  rw [toInt_mul, product, Int.mul_ediv_cancel _ (by decide)]

protected theorem one_mul {w : Word} (small : IsSmall w) : mul 0x100 w = w := by
  rw [Fixed.mul_comm, Fixed.mul_one small]

theorem isSmall_zero : IsSmall 0 := by decide

theorem isSmall_one : IsSmall 0x100 := by decide

end Fixed

namespace Matrix

/-! ## Cells -/

/-- Matrices with the same cells are the same. -/
theorem ext_cell {a b : Matrix} (same : ∀ row column, a.cell row column = b.cell row column) : a = b := by
  obtain ⟨rows⟩ := a
  obtain ⟨rows'⟩ := b
  refine congrArg mk (Vector.ext fun i hi => Vector.ext fun j hj => ?_)
  exact same ⟨i, hi⟩ ⟨j, hj⟩

/-- A matrix of small words. -/
def IsSmall (m : Matrix) : Prop := ∀ row column, Fixed.IsSmall (m.cell row column)

instance (m : Matrix) : Decidable m.IsSmall :=
  inferInstanceAs (Decidable (∀ row column, Fixed.IsSmall (m.cell row column)))

/-- A matrix that only turns, stretches and moves: its last column is that of the identity. -/
def IsAffine (m : Matrix) : Prop := ∀ row, m.cell row (Fin.last 3) = identity.cell row (Fin.last 3)

instance (m : Matrix) : Decidable m.IsAffine :=
  inferInstanceAs (Decidable (∀ row, m.cell row (Fin.last 3) = identity.cell row (Fin.last 3)))

theorem cell_mul (a b : Matrix) (row column : Fin 4) :
    (a.mul b).cell row column =
      Fixed.mul (a.cell row 3) (b.cell 3 column) + Fixed.mul (a.cell row 2) (b.cell 2 column)
        + Fixed.mul (a.cell row 1) (b.cell 1 column) + Fixed.mul (a.cell row 0) (b.cell 0 column) :=
  cell_ofCells _ row column

theorem cell_identity (row column : Fin 4) :
    identity.cell row column = if row = column then 0x100 else 0 :=
  cell_ofCells _ row column

/-- The rows and columns there are. -/
theorem axis_cases (i : Fin 4) : i = 0 ∨ i = 1 ∨ i = 2 ∨ i = 3 := by omega

/-! ## The identity -/

/-- A row against a column of the identity gives the word in that column. -/
theorem sum_identity {a : Fin 4 → Word} (column : Fin 4) (small : Fixed.IsSmall (a column)) :
    Fixed.mul (a 3) (identity.cell 3 column) + Fixed.mul (a 2) (identity.cell 2 column)
      + Fixed.mul (a 1) (identity.cell 1 column) + Fixed.mul (a 0) (identity.cell 0 column) = a column := by
  have kept := Fixed.mul_one small
  simp only [cell_identity]
  rcases axis_cases column with rfl | rfl | rfl | rfl <;> simpa using kept

/-- **The identity behind a matrix** of small words changes nothing. -/
theorem mul_identity {m : Matrix} (small : m.IsSmall) : m.mul identity = m := by
  refine ext_cell fun row column => ?_
  rw [cell_mul]
  exact sum_identity column (small row column)

/-- **The identity in front of a matrix** of small words changes nothing. -/
theorem identity_mul {m : Matrix} (small : m.IsSmall) : identity.mul m = m := by
  refine ext_cell fun row column => ?_
  have symmetric (i j : Fin 4) : identity.cell i j = identity.cell j i := by
    rw [cell_identity, cell_identity]
    simp only [eq_comm]
  rw [cell_mul, Fixed.mul_comm, Fixed.mul_comm (identity.cell row 2), Fixed.mul_comm (identity.cell row 1),
    Fixed.mul_comm (identity.cell row 0), symmetric row 3, symmetric row 2, symmetric row 1, symmetric row 0]
  exact sum_identity (a := fun i => m.cell i column) row (small row column)

/-! ## Translations -/

/-- How far a translation moves along an axis. The last column moves nothing. -/
def shift (x y z : Word) : Fin 4 → Word
  | 0 => x
  | 1 => y
  | 2 => z
  | 3 => 0

/-- A translation is the identity but for its last row. -/
theorem cell_translation_of_ne (x y z : Word) {row : Fin 4} (other : row ≠ 3) (column : Fin 4) :
    (translation x y z).cell row column = identity.cell row column := by
  rcases axis_cases row with rfl | rfl | rfl | rfl
  · rcases axis_cases column with rfl | rfl | rfl | rfl <;> rfl
  · rcases axis_cases column with rfl | rfl | rfl | rfl <;> rfl
  · rcases axis_cases column with rfl | rfl | rfl | rfl <;> rfl
  · exact absurd rfl other

theorem cell_translation_last (x y z : Word) (column : Fin 4) :
    (translation x y z).cell 3 column = shift x y z column + identity.cell 3 column := by
  rcases axis_cases column with rfl | rfl | rfl | rfl
  · exact (Int32.add_zero x).symm
  · exact (Int32.add_zero y).symm
  · exact (Int32.add_zero z).symm
  · rfl

theorem shift_add (x y z x' y' z' : Word) (column : Fin 4) :
    shift (x + x') (y + y') (z + z') column = shift x y z column + shift x' y' z' column := by
  rcases axis_cases column with rfl | rfl | rfl | rfl
  · rfl
  · rfl
  · rfl
  · exact (Int32.zero_add 0).symm

/-- A vertex moved along the three axes. -/
def moved (v t : Word × Word × Word) : Word × Word × Word := (v.1 + t.1, v.2.1 + t.2.1, v.2.2 + t.2.2)

section

variable {m : Matrix} {x y z : Word} (hx : Fixed.IsSmall x) (hy : Fixed.IsSmall y) (hz : Fixed.IsSmall z)

include hx hy hz

theorem isSmall_shift (column : Fin 4) : Fixed.IsSmall (shift x y z column) := by
  rcases axis_cases column with rfl | rfl | rfl | rfl
  · exact hx
  · exact hy
  · exact hz
  · exact Fixed.isSmall_zero

/-- One times the last row of a translation. -/
theorem one_mul_last (column : Fin 4) :
    Fixed.mul 0x100 (shift x y z column + identity.cell 3 column) =
      shift x y z column + Fixed.mul 0x100 (identity.cell 3 column) := by
  have moved := Fixed.one_mul (isSmall_shift hx hy hz column)
  by_cases last : column = 3
  · subst last
    have none : shift x y z 3 = 0 := rfl
    rw [none, Int32.zero_add, Int32.zero_add]
  · rw [cell_identity, if_neg (Ne.symm last), Int32.add_zero, moved, Fixed.mul_zero, Int32.add_zero]

theorem isSmall_translation : (translation x y z).IsSmall := by
  intro row column
  by_cases last : row = 3
  · subst last
    rw [cell_translation_last, cell_identity]
    split
    · next corner =>
      subst corner
      exact Fixed.isSmall_one
    · rw [Int32.add_zero]
      exact isSmall_shift hx hy hz column
  · rw [cell_translation_of_ne x y z last, cell_identity]
    split
    · exact Fixed.isSmall_one
    · exact Fixed.isSmall_zero

variable (affine : m.IsAffine) (small : m.IsSmall)

include affine small

/-- **A translation behind a matrix** adds to its last row, and to nothing else. -/
theorem cell_mul_translation (row column : Fin 4) :
    (m.mul (translation x y z)).cell row column =
      if row = 3 then m.cell row column + shift x y z column else m.cell row column := by
  have same := sum_identity (a := m.cell row) column (small row column)
  have last : m.cell row 3 = identity.cell row 3 := affine row
  rw [cell_mul, cell_translation_last, cell_translation_of_ne x y z (by decide),
    cell_translation_of_ne x y z (by decide), cell_translation_of_ne x y z (by decide)]
  -- the row that moves meets the last column of the matrix alone
  rw [last, cell_identity] at same ⊢
  split
  · next moving =>
    subst moving
    rw [if_pos rfl] at same
    rw [one_mul_last hx hy hz, ← same]
    ac_rfl
  · next other =>
    rw [if_neg other, Fixed.zero_mul] at same
    rw [Fixed.zero_mul, same]

/-- A vertex is moved along an axis as the translation says. -/
theorem axis_mul_translation (u v w : Word) (column : Fin 4) :
    (m.mul (translation x y z)).axis u v w column = m.axis u v w column + shift x y z column := by
  have cell := fun row => cell_mul_translation hx hy hz affine small row column
  unfold axis
  rw [cell 0, cell 1, cell 2, cell 3, if_neg (by decide), if_neg (by decide), if_neg (by decide),
    if_pos rfl, Int32.add_assoc _ (m.cell 3 column)]

/-- **A translation behind a matrix moves what the matrix gives.** -/
theorem transform_mul_translation (u v w : Word) :
    (m.mul (translation x y z)).transform u v w = moved (m.transform u v w) (x, y, z) := by
  have axis := axis_mul_translation hx hy hz affine small u v w
  unfold transform
  rw [axis 0, axis 1, axis 2]
  rfl

end

theorem isAffine_translation (x y z : Word) : (translation x y z).IsAffine := by
  intro row
  by_cases last : row = 3
  · subst last
    rfl
  · exact cell_translation_of_ne x y z last 3

/-- **A translation behind another one** is the translation along both. -/
theorem translation_mul_translation {x y z x' y' z' : Word} (hx : Fixed.IsSmall x) (hy : Fixed.IsSmall y)
    (hz : Fixed.IsSmall z) (hx' : Fixed.IsSmall x') (hy' : Fixed.IsSmall y') (hz' : Fixed.IsSmall z') :
    (translation x y z).mul (translation x' y' z') = translation (x + x') (y + y') (z + z') := by
  refine ext_cell fun row column => ?_
  rw [cell_mul_translation hx' hy' hz' (isAffine_translation x y z) (isSmall_translation hx hy hz)]
  split
  · next last =>
    subst last
    rw [cell_translation_last, cell_translation_last, shift_add]
    ac_rfl
  · next other => rw [cell_translation_of_ne x y z other, cell_translation_of_ne _ _ _ other]

/-- **Matrices compose.** The identity on either side leaves a matrix of small words as it is. A translation
by small words behind such a matrix, if it is affine, moves whatever vertex the matrix gives, however the
sums wrap; and behind another translation it is the translation along both. -/
theorem mul_composes {m : Matrix} {x y z : Word} (small : m.IsSmall) (hx : Fixed.IsSmall x)
    (hy : Fixed.IsSmall y) (hz : Fixed.IsSmall z) :
    m.mul identity = m ∧ identity.mul m = m ∧
      (m.IsAffine → ∀ u v w,
        (m.mul (translation x y z)).transform u v w = moved (m.transform u v w) (x, y, z)) ∧
      ∀ x' y' z', Fixed.IsSmall x' → Fixed.IsSmall y' → Fixed.IsSmall z' →
        (translation x' y' z').mul (translation x y z) = translation (x' + x) (y' + y) (z' + z) :=
  ⟨mul_identity small, identity_mul small,
    fun affine => transform_mul_translation hx hy hz affine small,
    fun _ _ _ hx' hy' hz' => translation_mul_translation hx' hy' hz' hx hy hz⟩

/-- A stretching and turning matrix, with a small move, at the ends of the range of small words. -/
def stretching : Matrix :=
  ⟨#v[#v[-0x800000, 0x7FFFFF, 0x80, 0], #v[0x100, -0x100, 0, 0], #v[0, 3, -7, 0],
    #v[0x7FFFFF, -0x800000, 1, 0x100]]⟩

/-- A move to the end of the range, of a vertex whose product with the matrix wraps around. -/
theorem mul_composes_stretching :
    stretching.IsSmall ∧ stretching.IsAffine ∧ Fixed.IsSmall 0x7FFFFF ∧ Fixed.IsSmall (-0x800000) ∧
      Fixed.IsSmall 5 ∧ stretching.mul identity = stretching ∧ identity.mul stretching = stretching ∧
      (stretching.mul (translation 0x7FFFFF (-0x800000) 5)).transform 0x10000 3 (-1) =
        moved (stretching.transform 0x10000 3 (-1)) (0x7FFFFF, -0x800000, 5) ∧
      (translation 0x7FFFFF 5 5).mul (translation 0x7FFFFF (-0x800000) 5) =
        translation 0xFFFFFE (-0x7FFFFB) 10 := by
  have small : stretching.IsSmall := by decide
  have affine : stretching.IsAffine := by decide
  have greatest : Fixed.IsSmall 0x7FFFFF := by decide
  have least : Fixed.IsSmall (-0x800000) := by decide
  have five : Fixed.IsSmall 5 := by decide
  obtain ⟨behind, front, moves, sums⟩ := mul_composes small greatest least five
  exact ⟨small, affine, greatest, least, five, behind, front, moves affine 0x10000 3 (-1),
    sums 0x7FFFFF 5 5 greatest five five⟩

end Matrix

end StageScript
