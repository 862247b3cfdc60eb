import StageScript.Indexed
import StageScript.Scene.Accessor
import StageScript.Variable.Field

/-! # Entities
An entity is one slot of the object list: an object in play, or an empty slot of type zero.
* `Entity.reset` places a fresh object in a slot;
* `EntityField.accessor` is how scripts see an entity. -/

namespace StageScript

/-- The number of entity slots. -/
def entityCount : Nat := 0x4A0

/-- The first entity slot. -/
def firstSlot : Fin entityCount := ⟨0, by decide⟩

/-- The first of the slots at the end that are kept for temporary objects. -/
def tempEntityStart : Nat := 0x420

/-- An object in play. -/
structure Entity where
  /-- The horizontal position in 16.16 fixed point. -/
  xPos : Word := 0
  /-- The vertical position in 16.16 fixed point. -/
  yPos : Word := 0
  /-- What the object's script keeps for itself. -/
  values : Vector Word 8 := Vector.replicate 8 0
  scale : Word := 512
  rotation : Word := 0
  animationTimer : Word := 0
  animationSpeed : Word := 0
  typeId : UInt8 := 0
  propertyValue : UInt8 := 0
  state : UInt8 := 0
  /-- When the object's main sub-script runs. -/
  priority : UInt8 := 0
  /-- The draw list that the object goes to. -/
  drawOrder : UInt8 := 3
  direction : UInt8 := 0
  inkEffect : UInt8 := 0
  alpha : UInt8 := 0
  animation : UInt8 := 0
  prevAnimation : UInt8 := 0
  frame : UInt8 := 0
  deriving DecidableEq, Repr

namespace Entity

/-- A fresh object of a type. The animation, its timing and the alpha value are those that the slot
had. -/
def reset (e : Entity) (typeId propertyValue : UInt8) (xPos yPos : Word) : Entity :=
  { e with
    typeId, propertyValue, xPos, yPos
    direction := 0
    frame := 0
    priority := 0
    rotation := 0
    state := 0
    drawOrder := 3
    scale := 512
    inkEffect := 0
    values := Vector.replicate 8 0 }

end Entity

/-- How scripts see a field of an entity. -/
def EntityField.accessor : EntityField → Accessor Entity
  | .typeId => .byte (·.typeId) fun e b => { e with typeId := b }
  | .propertyValue => .byte (·.propertyValue) fun e b => { e with propertyValue := b }
  | .xPos => .word (·.xPos) fun e w => { e with xPos := w }
  | .yPos => .word (·.yPos) fun e w => { e with yPos := w }
  | .wholeX => .whole (·.xPos) fun e w => { e with xPos := w }
  | .wholeY => .whole (·.yPos) fun e w => { e with yPos := w }
  | .state => .byte (·.state) fun e b => { e with state := b }
  | .rotation => .word (·.rotation) fun e w => { e with rotation := w }
  | .scale => .word (·.scale) fun e w => { e with scale := w }
  | .priority => .byte (·.priority) fun e b => { e with priority := b }
  | .drawOrder => .byte (·.drawOrder) fun e b => { e with drawOrder := b }
  | .direction => .byte (·.direction) fun e b => { e with direction := b }
  | .inkEffect => .byte (·.inkEffect) fun e b => { e with inkEffect := b }
  | .alpha => .byte (·.alpha) fun e b => { e with alpha := b }
  | .frame => .byte (·.frame) fun e b => { e with frame := b }
  | .animation => .byte (·.animation) fun e b => { e with animation := b }
  | .prevAnimation => .byte (·.prevAnimation) fun e b => { e with prevAnimation := b }
  | .animationSpeed => .word (·.animationSpeed) fun e w => { e with animationSpeed := w }
  | .animationTimer => .word (·.animationTimer) fun e w => { e with animationTimer := w }
  | .value k => .word (·.values.get k) fun e w => { e with values := Indexed.put e.values k w }

/-- Every field of an entity keeps what is written to it, as far as its kind goes. -/
theorem EntityField.lawful_accessor (field : EntityField) : field.accessor.Lawful := by
  intro e w
  cases field with
  | value k => simp [accessor, Accessor.word, FieldKind.normalise]
  | _ => rfl

end StageScript
