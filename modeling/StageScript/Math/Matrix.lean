import StageScript.Indexed
import StageScript.Math.Trig

/-! # Fixed-point matrices
Four by four matrices of words in which `0x100` is one. A vertex is a row vector, so that the last
row of a matrix is its translation.
* `Matrix.mul` multiplies, and `Matrix.transform` applies a matrix to a vertex;
* `Matrix.translation`, `Matrix.scaling` and the rotations build matrices;
* `Fixed.interpolate` blends two words. -/

namespace StageScript

namespace Fixed

/-- The product of two fixed-point words. -/
def mul (a b : Word) : Word := (a * b) >>> 8

/-- Blends `b` toward `a` by `t` out of `0x100`; each part is rounded on its own. -/
def interpolate (a b t : Word) : Word := ((b * (0x100 - t)) >>> 8) + ((t * a) >>> 8)

end Fixed

/-- A matrix of four rows. -/
structure Matrix where
  rows : Vector (Vector Word 4) 4
  deriving DecidableEq, Repr

namespace Matrix

open Fixed (mul)

/-- The cell of a row and a column. -/
def cell (m : Matrix) (row column : Fin 4) : Word := (m.rows.get row).get column

/-- The matrix of given cells. -/
def ofCells (cells : Fin 4 → Fin 4 → Word) : Matrix :=
  ⟨Vector.ofFn fun row => Vector.ofFn fun column => cells row column⟩

@[simp] theorem cell_ofCells (cells : Fin 4 → Fin 4 → Word) (row column : Fin 4) :
    (ofCells cells).cell row column = cells row column := by
  simp [cell, ofCells]

/-- The matrix of nothing but zeros. -/
def zero : Matrix := ofCells fun _ _ => 0

/-- The matrix that changes nothing. -/
def identity : Matrix := ofCells fun row column => if row = column then 0x100 else 0

/-- The product of two matrices: a vertex goes through the left one first. -/
protected def mul (a b : Matrix) : Matrix :=
  ofCells fun row column =>
    mul (a.cell row 3) (b.cell 3 column) + mul (a.cell row 2) (b.cell 2 column)
      + mul (a.cell row 1) (b.cell 1 column) + mul (a.cell row 0) (b.cell 0 column)

/-- The matrix that moves a vertex. -/
def translation (x y z : Word) : Matrix :=
  ⟨#v[#v[0x100, 0, 0, 0], #v[0, 0x100, 0, 0], #v[0, 0, 0x100, 0], #v[x, y, z, 0x100]]⟩

/-- The matrix that stretches along the axes. -/
def scaling (x y z : Word) : Matrix :=
  ⟨#v[#v[x, 0, 0, 0], #v[0, y, 0, 0], #v[0, 0, z, 0], #v[0, 0, 0, 0x100]]⟩

/-- The sine of a rotation, with one as `0x100`. -/
def sine (angle : Word) : Word := Trig.sin512 angle >>> 1

/-- The cosine of a rotation, with one as `0x100`. -/
def cosine (angle : Word) : Word := Trig.cos512 angle >>> 1

/-- The rotation around the first axis. -/
def rotationX (angle : Word) : Matrix :=
  let s := sine angle
  let c := cosine angle
  ⟨#v[#v[0x100, 0, 0, 0], #v[0, c, s, 0], #v[0, -s, c, 0], #v[0, 0, 0, 0x100]]⟩

/-- The rotation around the second axis. -/
def rotationY (angle : Word) : Matrix :=
  let s := sine angle
  let c := cosine angle
  ⟨#v[#v[c, 0, s, 0], #v[0, 0x100, 0, 0], #v[-s, 0, c, 0], #v[0, 0, 0, 0x100]]⟩

/-- The rotation around the third axis. -/
def rotationZ (angle : Word) : Matrix :=
  let s := sine angle
  let c := cosine angle
  ⟨#v[#v[c, s, 0, 0], #v[-s, c, 0, 0], #v[0, 0, 0x100, 0], #v[0, 0, 0, 0x100]]⟩

/-- The rotation around all three axes. -/
def rotationXYZ (x y z : Word) : Matrix :=
  let sx := sine x
  let cx := cosine x
  let sy := sine y
  let cy := cosine y
  let sz := sine z
  let cz := cosine z
  ⟨#v[
    #v[mul cz cy + mul sz (mul sy sx), mul sz cy - mul cz (mul sy sx), mul sy cx, 0],
    #v[mul sz (-cx), mul cz cx, sx, 0],
    #v[mul sz (mul cy sx) - mul cz sy, mul sz (-sy) - mul cz (mul cy sx), mul cy cx, 0],
    #v[0, 0, 0, 0x100]]⟩

/-- One coordinate of a transformed vertex. -/
def axis (m : Matrix) (x y z : Word) (column : Fin 4) : Word :=
  mul x (m.cell 0 column) + mul y (m.cell 1 column) + mul z (m.cell 2 column) + m.cell 3 column

/-- A vertex behind a matrix. -/
def transform (m : Matrix) (x y z : Word) : Word × Word × Word :=
  (m.axis x y z 0, m.axis x y z 1, m.axis x y z 2)

end Matrix

end StageScript
