import StageScript.Math.Matrix
import StageScript.Scene.Accessor
import StageScript.Variable.Field

/-! # The three-dimensional scene
Vertices, faces and matrices, with the accessors through which scripts see them. -/

namespace StageScript

/-- The number of vertices. -/
def vertexCapacity : Nat := 4096

/-- The number of faces. -/
def faceCapacity : Nat := 1024

/-- A corner of faces. -/
structure Vertex where
  x : Word := 0
  y : Word := 0
  z : Word := 0
  u : Word := 0
  v : Word := 0
  deriving DecidableEq, Repr

/-- How scripts see a field of a vertex. -/
def VertexField.accessor : VertexField → Accessor Vertex
  | .x => .word (·.x) fun s w => { s with x := w }
  | .y => .word (·.y) fun s w => { s with y := w }
  | .z => .word (·.z) fun s w => { s with z := w }
  | .u => .word (·.u) fun s w => { s with u := w }
  | .v => .word (·.v) fun s w => { s with v := w }

theorem VertexField.lawful_accessor (field : VertexField) : field.accessor.Lawful := by
  cases field <;> exact fun _ _ => rfl

/-- A face between four vertices. -/
structure Face where
  a : Word := 0
  b : Word := 0
  c : Word := 0
  d : Word := 0
  flag : UInt8 := 0
  color : Word := 0
  deriving DecidableEq, Repr

/-- How scripts see a field of a face. -/
def FaceField.accessor : FaceField → Accessor Face
  | .a => .word (·.a) fun s w => { s with a := w }
  | .b => .word (·.b) fun s w => { s with b := w }
  | .c => .word (·.c) fun s w => { s with c := w }
  | .d => .word (·.d) fun s w => { s with d := w }
  | .flag => .byte (·.flag) fun s b => { s with flag := b }
  | .color => .word (·.color) fun s w => { s with color := w }

theorem FaceField.lawful_accessor (field : FaceField) : field.accessor.Lawful := by
  cases field <;> exact fun _ _ => rfl

/-- The three-dimensional scene. -/
structure Scene3D where
  vertexCount : Word := 0
  faceCount : Word := 0
  projectionX : Word := 136
  projectionY : Word := 160
  vertices : Vector Vertex vertexCapacity := Vector.replicate vertexCapacity {}
  /-- The vertices behind a matrix. -/
  transformed : Vector Vertex vertexCapacity := Vector.replicate vertexCapacity {}
  faces : Vector Face faceCapacity := Vector.replicate faceCapacity {}
  /-- The world, the view and a spare matrix. -/
  matrices : Vector Matrix 3 := Vector.replicate 3 Matrix.identity
  deriving DecidableEq

/-- How scripts see a field of the three-dimensional scene. -/
def SpaceField.accessor : SpaceField → Accessor Scene3D
  | .noVertices => .word (·.vertexCount) fun s w => { s with vertexCount := w }
  | .noFaces => .word (·.faceCount) fun s w => { s with faceCount := w }
  | .projectionX => .word (·.projectionX) fun s w => { s with projectionX := w }
  | .projectionY => .word (·.projectionY) fun s w => { s with projectionY := w }

theorem SpaceField.lawful_accessor (field : SpaceField) : field.accessor.Lawful := by
  cases field <;> exact fun _ _ => rfl

end StageScript
