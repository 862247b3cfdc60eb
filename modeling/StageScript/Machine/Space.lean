import StageScript.Machine.Access
import StageScript.Opcode.Basic

/-! # Matrix instructions
`Space.matrix?` is the matrix that an instruction puts in the place of another one, and
`Space.transform` moves vertices by a matrix. -/

namespace StageScript

namespace Space

open Indexed

/-- The matrix that an instruction makes out of its operands. -/
def matrix? (o : Operands) : Space → Option Matrix
  | .setIdentity => some .identity
  | .translate => some (.translation o[1] o[2] o[3])
  | .scale => some (.scaling o[1] o[2] o[3])
  | .rotateX => some (.rotationX o[1])
  | .rotateY => some (.rotationY o[1])
  | .rotateZ => some (.rotationZ o[1])
  | .rotateXYZ => some (.rotationXYZ o[1] o[2] o[3])
  | .multiply => none
  | .transformVertices => none

/-- Changes the matrix of a number; the subject is named where there is no such matrix. -/
def changeMatrix (subject : String) (number : Word) (f : Matrix → Matrix) : Exec Unit := do
  let s ← currentScene
  match update? s.space.matrices number f with
  | some matrices => modify ({ · with scene := { s with space := { s.space with matrices } } })
  | none => outOfRange subject number

/-- Multiplies a matrix by another one. -/
def multiplyBy (o : Operands) : Exec Unit := do
  let matrices := (← currentScene).space.matrices
  match at? matrices o[0], at? matrices o[1] with
  | some _, some other => changeMatrix "MatrixMultiply" o[0] (·.mul other)
  | none, _ => outOfRange "MatrixMultiply" o[0]
  | some _, none => outOfRange "MatrixMultiply" o[1]

/-- A vertex moved by a matrix. -/
def moved (matrix : Matrix) (v : Vertex) : Vertex :=
  let (x, y, z) := matrix.transform v.x v.y v.z
  { v with x, y, z }

/-- The transformed vertices, of which those from `start` up to `finish` are made anew. -/
def transform (space : Scene3D) (matrix : Matrix) (start finish : Nat) : Scene3D :=
  { space with
    transformed := Vector.ofFn fun i =>
      if start ≤ i.val ∧ i.val < finish then moved matrix (space.vertices.get i)
      else space.transformed.get i }

/-- Moves a range of vertices by a matrix. -/
def transformRange (o : Operands) : Exec Unit := do
  match at? (← currentScene).space.matrices o[0] with
  | some matrix =>
    modify fun m => m.modifyScene fun s =>
      { s with space := transform s.space matrix (o[1].index?.getD 0) (o[2].index?.getD 0) }
  | none => outOfRange "TransformVertices" o[0]

/-- Carries out a matrix instruction. -/
def perform (op : Space) : Exec Unit := do
  let o ← operands
  match op.matrix? o with
  | some matrix => changeMatrix "Matrix" o[0] fun _ => matrix
  | none => if op = .multiply then multiplyBy o else transformRange o

end Space

end StageScript
