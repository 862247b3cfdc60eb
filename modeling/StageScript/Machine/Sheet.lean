import StageScript.Machine.Basic
import StageScript.Opcode.Basic

/-! # Sheet instructions
Sprite sheets, and the sprite frames that a type cuts out of them while it starts up. A type's frames
stand one behind the other in the scene's list. -/

namespace StageScript

namespace Sheet

/-- The rectangle that six operands describe, `start` being the first of them. -/
def frameOf (o : Operands) (start : Nat) : SpriteFrame where
  pivotX := o[start]
  pivotY := o[start + 1]
  width := o[start + 2]
  height := o[start + 3]
  spriteX := o[start + 4]
  spriteY := o[start + 5]

/-- Asks the host for a sprite sheet and makes it that of the running object's type. -/
def loadSheet (m : Machine) (run : Activation) : Machine :=
  let spriteSheet := m.host.sheet m.history m.scriptText
  let m := m.call (.loadSheet m.scriptText)
  m.modifyType (m.objectType run.object) fun t => { t with spriteSheet }

/-- Adds a sprite frame to the type that starts up. At any other time, and where the list is full,
nothing is added. -/
def appendFrame (m : Machine) (run : Activation) : Machine :=
  if run.sub = .startup ∧ m.scene.spriteFrames.size < spriteFrameCapacity then
    let f := frameOf m.registers.operands 0
    let m := m.modifyScene fun s => { s with spriteFrames := s.spriteFrames.push f }
    m.modifyType (m.objectType run.object) fun t => { t with frameCount := t.frameCount + 1 }
  else m

/-- Changes a sprite frame, whose number is counted from the first one of the running object's
type. -/
def changeFrame (run : Activation) : Exec Unit := do
  let m ← get
  let o := m.registers.operands
  let first := (m.typeData (m.objectType run.object)).frameListOffset
  match o[0].index?.filter fun k => first + k < m.scene.spriteFrames.size with
  | some k =>
    set (m.modifyScene fun s =>
      { s with spriteFrames := s.spriteFrames.setIfInBounds (first + k) (frameOf o 1) })
  | none => outOfRange "EditFrame" o[0]

/-- Carries out a sheet instruction. -/
def perform (run : Activation) : Sheet → Exec Unit
  | .load => modify (loadSheet · run)
  | .remove => modify fun m => m.call (.platform (.removeSheet m.scriptText))
  | .addFrame => modify (appendFrame · run)
  | .editFrame => changeFrame run

end Sheet

end StageScript
