import StageScript.Machine.Access
import StageScript.Opcode.Basic

/-! # Draw list instructions
`DrawListOp.add?`, `DrawListOp.get?` and `DrawListOp.set?` have no result where a list, a place in it
or an entity number is out of range, or the list is full. -/

namespace StageScript

namespace DrawListOp

open Indexed

/-- Changes a draw list as far as the change is possible. -/
def change? (s : Scene) (layer : Word) (f : Array Nat → Option (Array Nat)) : Option Scene := do
  let list ← (← at? s.drawLists layer) |> f
  let drawLists ← update? s.drawLists layer fun _ => list
  return { s with drawLists }

/-- Adds an entity at the end of a draw list. -/
def add? (s : Scene) (layer entity : Word) : Option Scene := do
  let e ← entity.index?
  change? s layer fun list => if list.size < entityCount then some (list.push e) else none

/-- The entity at a place of a draw list. -/
def get? (s : Scene) (layer place : Word) : Option Nat := do
  (← at? s.drawLists layer)[← place.index?]?

/-- Puts an entity at a place of a draw list, which grows as far as it has to. -/
def set? (s : Scene) (entity layer place : Word) : Option Scene := do
  let i ← place.index?
  let e ← entity.index?
  change? s layer fun list =>
    if i < entityCount then some ((resize list (max list.size (i + 1))).setIfInBounds i e) else none

/-- Leaves a changed scene, or names the subject and the index that are out of range. -/
def leave (subject : String) (index : Word) (scene? : Option Scene) : Exec Unit :=
  match scene? with
  | some scene => modify ({ · with scene })
  | none => outOfRange subject index

/-- Carries out a draw list instruction. -/
def perform (op : DrawListOp) : Exec Unit := do
  let o ← operands
  let s ← currentScene
  match op with
  | .clear => leave "ClearDrawList" o[0] (change? s o[0] fun _ => some #[])
  | .add => leave "AddDrawListEntityRef" o[1] (add? s o[0] o[1])
  | .get =>
    match get? s o[1] o[2] with
    | some e => modify (·.setOperand 0 (Word.ofNat e))
    | none => outOfRange "GetDrawListEntityRef" o[2]
  | .set => leave "SetDrawListEntityRef" o[2] (set? s o[0] o[1] o[2])

end DrawListOp

end StageScript
