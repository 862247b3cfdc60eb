import StageScript.Scene.Accessor
import StageScript.Variable.Field

/-! # Layers
* `TileLayer` is a map of tiles, `TileLayer.index?` the place of a tile in it;
* `Parallax` is a line that scrolls at a speed of its own;
* `Deformation` is a buffer that shifts the lines of a layer. -/

namespace StageScript

/-- The number of tile layers. -/
def tileLayerCount : Nat := 9

/-- The number of tiles along each side of a layer. -/
def tileLayerSize : Nat := 0x100

/-- A map of tiles. -/
structure TileLayer where
  xSize : Word := 0
  ySize : Word := 0
  layoutType : UInt8 := 0
  angle : Word := 0
  xPos : Word := 0
  yPos : Word := 0
  zPos : Word := 0
  parallaxFactor : Word := 0
  scrollSpeed : Word := 0
  scrollPos : Word := 0
  deformationOffset : Word := 0
  deformationOffsetW : Word := 0
  /-- The tiles, row by row. -/
  tiles : Vector UInt16 0x10000 := Vector.replicate 0x10000 0
  deriving DecidableEq

/-- The place of a tile, which has to lie inside the layer. -/
def TileLayer.index? (x y : Word) : Option Nat := do
  let x ← x.index?
  let y ← y.index?
  if x < tileLayerSize ∧ y < tileLayerSize then some (x + y * tileLayerSize) else none

/-- How scripts see a field of a tile layer. -/
def TileLayerField.accessor : TileLayerField → Accessor TileLayer
  | .xSize => .word (·.xSize) fun l w => { l with xSize := w }
  | .ySize => .word (·.ySize) fun l w => { l with ySize := w }
  | .typeId => .byte (·.layoutType) fun l b => { l with layoutType := b }
  | .angle => .word (·.angle) fun l w => { l with angle := w }
  | .xPos => .word (·.xPos) fun l w => { l with xPos := w }
  | .yPos => .word (·.yPos) fun l w => { l with yPos := w }
  | .zPos => .word (·.zPos) fun l w => { l with zPos := w }
  | .parallaxFactor => .word (·.parallaxFactor) fun l w => { l with parallaxFactor := w }
  | .scrollSpeed => .word (·.scrollSpeed) fun l w => { l with scrollSpeed := w }
  | .scrollPos => .word (·.scrollPos) fun l w => { l with scrollPos := w }
  | .deformationOffset => .word (·.deformationOffset) fun l w => { l with deformationOffset := w }
  | .deformationOffsetW =>
    .word (·.deformationOffsetW) fun l w => { l with deformationOffsetW := w }

theorem TileLayerField.lawful_accessor (field : TileLayerField) : field.accessor.Lawful := by
  cases field <;> exact fun _ _ => rfl

/-- The number of parallax lines in each direction. -/
def parallaxCount : Nat := 0x100

/-- A line that scrolls at a speed of its own. -/
structure Parallax where
  parallaxFactor : Word := 0
  scrollSpeed : Word := 0
  scrollPos : Word := 0
  deriving DecidableEq, Repr

/-- How scripts see a field of a parallax line. -/
def ParallaxField.accessor : ParallaxField → Accessor Parallax
  | .parallaxFactor => .word (·.parallaxFactor) fun p w => { p with parallaxFactor := w }
  | .scrollSpeed => .word (·.scrollSpeed) fun p w => { p with scrollSpeed := w }
  | .scrollPos => .word (·.scrollPos) fun p w => { p with scrollPos := w }

theorem ParallaxField.lawful_accessor (field : ParallaxField) : field.accessor.Lawful := by
  cases field <;> exact fun _ _ => rfl

/-- The length of one wave in a deformation buffer. -/
def deformationPeriod : Nat := 0x100

/-- The length of a deformation buffer. -/
def deformationLength : Nat := 0x240

/-- A buffer that shifts the lines of a layer. -/
abbrev Deformation := Vector Word deformationLength

end StageScript
