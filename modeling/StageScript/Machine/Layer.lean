import StageScript.Machine.Access
import StageScript.Math.Trig
import StageScript.Opcode.Basic

/-! # Layer instructions
Tiles, and the waves that shift the lines of a layer.
* `LayerOp.wave` is a wave's value at a line;
* `LayerOp.deform` puts a wave into a deformation buffer. -/

namespace StageScript

namespace LayerOp

open Indexed

/-! ## Deformation -/

/-- The value of a wave of the given length and width at a line. -/
def wave (length width : Word) (line : Nat) : Word :=
  (width * Trig.sin512 ((Word.ofNat line <<< 9) / length &&& 0x1FF)) >>> 9

/-- A wave over so many lines from `start` on, as far as the buffer goes. -/
def waveFrom (data : Deformation) (length width : Word) (start count : Nat) : Deformation :=
  Vector.ofFn fun i =>
    if start ≤ i.val ∧ i.val < start + count then wave length width (i.val - start) else data.get i

/-- The first lines of a buffer, and behind them the same lines as they lie now, moved by one
period. -/
def extend (data : Deformation) : Deformation :=
  Vector.ofFn fun i =>
    if deformationPeriod ≤ i.val then data[i.val - deformationPeriod] else data.get i

/-- A buffer with a new wave in it: one of the given size somewhere, or one over the first period. -/
def deform (data : Deformation) (o : Operands) : Deformation :=
  extend
    (if o[3] = 1 then waveFrom data o[1] o[2] (o[4].index?.getD 0) (o[5].index?.getD 0)
    else waveFrom data o[1] o[2] 0 deformationPeriod)

/-- Puts a wave into a deformation buffer; a wave without a length changes nothing. -/
def setWave (o : Operands) : Exec Unit := do
  if o[1] = 0 then return
  let s ← currentScene
  match update? s.deformation o[0] (deform · o) with
  | some deformation => modify ({ · with scene := { s with deformation } })
  | none => outOfRange "SetLayerDeformation" o[0]

/-! ## Tiles -/

/-- A tile of a layer. -/
def tile? (s : Scene) (layer x y : Word) : Option UInt16 := do
  (← at? s.tileLayers layer).tiles[← TileLayer.index? x y]?

/-- Changes a tile of a layer. -/
def setTile? (s : Scene) (layer x y : Word) (tile : UInt16) : Option Scene := do
  let place ← TileLayer.index? x y
  let tileLayers ← update? s.tileLayers layer fun l =>
    { l with tiles := l.tiles.setIfInBounds place tile }
  return { s with tileLayers }

/-- Carries out a layer instruction. -/
def perform (op : LayerOp) : Exec Unit := do
  let o ← operands
  match op with
  | .setDeformation => setWave o
  | .getTile =>
    match tile? (← currentScene) o[1] o[2] o[3] with
    | some tile => modify (·.setOperand 0 (Word.ofHalf tile))
    | none => outOfRange "GetTileLayerEntry" o[1]
  | .setTile =>
    match setTile? (← currentScene) o[1] o[2] o[3] o[0].lowHalf with
    | some scene => modify ({ · with scene })
    | none => outOfRange "SetTileLayerEntry" o[1]
  | .getTileInfo => modify fun m =>
    let info := m.host.tileInfo m.history o[1] o[2] o[3]
    (m.call (.tileInfo o[1] o[2] o[3])).setOperand 0 info
  | .copyTile => modify (·.call (.platform (.copyTile o[0] o[1])))
  | .setTileInfo => modify (·.call (.platform (.setTileInfo o[0] o[1] o[2] o[3])))

end LayerOp

end StageScript
