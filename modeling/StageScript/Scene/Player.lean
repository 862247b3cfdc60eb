import StageScript.Scene.Entity

/-! # Players
A player is the part of a character that is not in its entity: its physics and its controls.
`PlayerField.accessor` is how scripts see it. -/

namespace StageScript

/-- The number of players. -/
def playerCount : Nat := 2

/-- The first player. -/
def firstPlayer : Fin playerCount := ⟨0, by decide⟩

/-- The physics constants of a player. -/
structure PlayerStats where
  topSpeed : Word := 0
  acceleration : Word := 0
  deceleration : Word := 0
  airAcceleration : Word := 0
  airDeceleration : Word := 0
  gravityStrength : Word := 0
  jumpStrength : Word := 0
  jumpCap : Word := 0
  rollingAcceleration : Word := 0
  rollingDeceleration : Word := 0
  deriving DecidableEq, Repr

/-- A player. -/
structure Player where
  /-- The slot of the entity that the player is bound to. -/
  entity : Fin entityCount := firstSlot
  xPos : Word := 0
  yPos : Word := 0
  screenXPos : Word := 0
  screenYPos : Word := 0
  speed : Word := 0
  xVelocity : Word := 0
  yVelocity : Word := 0
  gravity : Word := 0
  angle : Word := 0
  timer : Word := 0
  lookPos : Word := 0
  values : Vector Word 8 := Vector.replicate 8 0
  controlMode : Word := 0
  controlLock : Word := 0
  collisionMode : UInt8 := 0
  collisionPlane : UInt8 := 0
  skidding : Word := 0
  pushing : Word := 0
  trackScroll : Word := 0
  up : UInt8 := 0
  down : UInt8 := 0
  left : UInt8 := 0
  right : UInt8 := 0
  jumpPress : UInt8 := 0
  jumpHold : UInt8 := 0
  followPlayer1 : UInt8 := 0
  water : UInt8 := 0
  /-- The edge sensors. -/
  flailing : Vector UInt8 3 := Vector.replicate 3 0
  tileCollisions : UInt8 := 1
  objectInteraction : UInt8 := 1
  visible : UInt8 := 1
  stats : PlayerStats := {}
  deriving DecidableEq, Repr

/-- A field of the physics constants as a field of the player. -/
def Accessor.stat (get : PlayerStats → Word) (set : PlayerStats → Word → PlayerStats) :
    Accessor Player :=
  .word (fun p => get p.stats) fun p w => { p with stats := set p.stats w }

/-- How scripts see a field of a player. -/
def PlayerField.accessor : PlayerField → Accessor Player
  | .controlMode => .word (·.controlMode) fun p w => { p with controlMode := w }
  | .controlLock => .word (·.controlLock) fun p w => { p with controlLock := w }
  | .collisionMode => .byte (·.collisionMode) fun p b => { p with collisionMode := b }
  | .collisionPlane => .byte (·.collisionPlane) fun p b => { p with collisionPlane := b }
  | .xPos => .word (·.xPos) fun p w => { p with xPos := w }
  | .yPos => .word (·.yPos) fun p w => { p with yPos := w }
  | .wholeX => .whole (·.xPos) fun p w => { p with xPos := w }
  | .wholeY => .whole (·.yPos) fun p w => { p with yPos := w }
  | .screenXPos => .word (·.screenXPos) fun p w => { p with screenXPos := w }
  | .screenYPos => .word (·.screenYPos) fun p w => { p with screenYPos := w }
  | .speed => .word (·.speed) fun p w => { p with speed := w }
  | .xVelocity => .word (·.xVelocity) fun p w => { p with xVelocity := w }
  | .yVelocity => .word (·.yVelocity) fun p w => { p with yVelocity := w }
  | .gravity => .word (·.gravity) fun p w => { p with gravity := w }
  | .angle => .word (·.angle) fun p w => { p with angle := w }
  | .skidding => .word (·.skidding) fun p w => { p with skidding := w }
  | .pushing => .word (·.pushing) fun p w => { p with pushing := w }
  | .trackScroll => .word (·.trackScroll) fun p w => { p with trackScroll := w }
  | .up => .byte (·.up) fun p b => { p with up := b }
  | .down => .byte (·.down) fun p b => { p with down := b }
  | .left => .byte (·.left) fun p b => { p with left := b }
  | .right => .byte (·.right) fun p b => { p with right := b }
  | .jumpPress => .byte (·.jumpPress) fun p b => { p with jumpPress := b }
  | .jumpHold => .byte (·.jumpHold) fun p b => { p with jumpHold := b }
  | .followPlayer1 => .byte (·.followPlayer1) fun p b => { p with followPlayer1 := b }
  | .lookPos => .word (·.lookPos) fun p w => { p with lookPos := w }
  | .water => .byte (·.water) fun p b => { p with water := b }
  | .topSpeed => .stat (·.topSpeed) fun s w => { s with topSpeed := w }
  | .acceleration => .stat (·.acceleration) fun s w => { s with acceleration := w }
  | .deceleration => .stat (·.deceleration) fun s w => { s with deceleration := w }
  | .airAcceleration => .stat (·.airAcceleration) fun s w => { s with airAcceleration := w }
  | .airDeceleration => .stat (·.airDeceleration) fun s w => { s with airDeceleration := w }
  | .gravityStrength => .stat (·.gravityStrength) fun s w => { s with gravityStrength := w }
  | .jumpStrength => .stat (·.jumpStrength) fun s w => { s with jumpStrength := w }
  | .jumpCap => .stat (·.jumpCap) fun s w => { s with jumpCap := w }
  | .rollingAcceleration =>
    .stat (·.rollingAcceleration) fun s w => { s with rollingAcceleration := w }
  | .rollingDeceleration =>
    .stat (·.rollingDeceleration) fun s w => { s with rollingDeceleration := w }
  | .timer => .word (·.timer) fun p w => { p with timer := w }
  | .tileCollisions => .byte (·.tileCollisions) fun p b => { p with tileCollisions := b }
  | .objectInteraction => .byte (·.objectInteraction) fun p b => { p with objectInteraction := b }
  | .visible => .byte (·.visible) fun p b => { p with visible := b }
  | .value k => .word (·.values.get k) fun p w => { p with values := Indexed.put p.values k w }

/-- Every field of a player keeps what is written to it, as far as its kind goes. -/
theorem PlayerField.lawful_accessor (field : PlayerField) : field.accessor.Lawful := by
  intro p w
  cases field with
  | value k => simp [accessor, Accessor.word, FieldKind.normalise]
  | _ => rfl

end StageScript
