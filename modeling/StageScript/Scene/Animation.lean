import StageScript.Json.Record
import StageScript.Scene.Entity
import StageScript.Text.Basic

/-! # Animations
* `AnimationFile` holds the animations of a character, with `AnimationFile.index?`,
  `AnimationFile.frame?` and `AnimationFile.hitbox?` to look into it;
* `Entity.animate` advances an entity by one tick;
* `AnimationFile.ofJson?` and `AnimationFile.toJson` are its form in files. -/

namespace StageScript

/-- A box around a character, relative to its position. -/
structure Hitbox where
  left : Word := 0
  top : Word := 0
  right : Word := 0
  bottom : Word := 0
  deriving DecidableEq, Repr

/-- An edge of a box. -/
def Hitbox.edge (h : Hitbox) : Edge → Word
  | .left => h.left
  | .top => h.top
  | .right => h.right
  | .bottom => h.bottom

/-- One picture of an animation. -/
structure AnimationFrame where
  spriteX : Word := 0
  spriteY : Word := 0
  width : Word := 0
  height : Word := 0
  pivotX : Word := 0
  pivotY : Word := 0
  sheet : Word := 0
  /-- The number of the frame's hitbox in the file. -/
  hitbox : Nat := 0
  deriving DecidableEq, Repr

/-- A sequence of frames. -/
structure Animation where
  name : String := ""
  /-- How far the timer advances with each tick. -/
  speed : Word := 0
  /-- The frame that follows the last one. -/
  loopPoint : Nat := 0
  frames : Array AnimationFrame := #[]
  deriving DecidableEq, Repr

/-- The animations of a character. -/
structure AnimationFile where
  path : String := ""
  animations : Array Animation := #[]
  hitboxes : Array Hitbox := #[]
  deriving DecidableEq, Repr

namespace AnimationFile

/-- The number of the first animation of a name, without regard to ASCII case. -/
def index? (file : AnimationFile) (name : Text) : Option Nat :=
  file.animations.findIdx? fun a => Text.sameName a.name.toList name

/-- A frame of an animation. -/
def frame? (file : AnimationFile) (animation frame : Nat) : Option AnimationFrame :=
  file.animations[animation]?.bind fun a => a.frames[frame]?

/-- The hitbox of a frame. -/
def hitbox? (file : AnimationFile) (animation frame : Nat) : Option Hitbox :=
  (file.frame? animation frame).bind fun f => file.hitboxes[f.hitbox]?

end AnimationFile

/-! ## Playing -/

/-- How far the timer runs before the frame advances. -/
def frameTicks : Word := 0xF0

namespace Entity

/-- Advances the timer. A positive speed of the entity's own, capped at a frame's length, goes before
that of the animation. -/
def advanceTimer (e : Entity) (a : Animation) : Entity :=
  if e.animationSpeed ≤ 0 then { e with animationTimer := e.animationTimer + a.speed }
  else
    let speed := if e.animationSpeed ≤ frameTicks then e.animationSpeed else frameTicks
    { e with animationSpeed := speed, animationTimer := e.animationTimer + speed }

/-- Starts an animation from its first frame if another one was played before. -/
def restart (e : Entity) : Entity :=
  if e.animation = e.prevAnimation then e
  else { e with prevAnimation := e.animation, frame := 0, animationTimer := 0, animationSpeed := 0 }

/-- Goes to the next frame once the timer has run its time. -/
def advanceFrame (e : Entity) : Entity :=
  if e.animationTimer < frameTicks then e
  else { e with animationTimer := e.animationTimer - frameTicks, frame := e.frame + 1 }

/-- Goes to the loop point behind the last frame. -/
def loopFrame (e : Entity) (a : Animation) : Entity :=
  if e.frame.toNat < a.frames.size then e else { e with frame := UInt8.ofNat a.loopPoint }

/-- Advances an entity through its current animation by one tick. An animation that the file does
not have leaves the entity as it is. -/
def animate (e : Entity) (file : AnimationFile) : Entity :=
  match file.animations[e.animation.toNat]? with
  | some a => (e.advanceTimer a).restart.advanceFrame.loopFrame a
  | none => e

end Entity

/-! ## Files -/

/-- Reads a hitbox, which has to have all its edges. -/
def Hitbox.ofJson? (value : Json) : Option Hitbox := do
  let fields ← value.record? ["left", "top", "right", "bottom"]
  return {
    left := ← Json.required? Json.word? fields 0
    top := ← Json.required? Json.word? fields 1
    right := ← Json.required? Json.word? fields 2
    bottom := ← Json.required? Json.word? fields 3 }

/-- A hitbox as a record. -/
def Hitbox.toJson (h : Hitbox) : Json :=
  .ofFields [("left", .ofWord h.left), ("top", .ofWord h.top), ("right", .ofWord h.right),
    ("bottom", .ofWord h.bottom)]

/-- Reads a frame, whose missing fields are zero. -/
def AnimationFrame.ofJson? (value : Json) : Option AnimationFrame := do
  let fields ← value.record?
    ["sprite_x", "sprite_y", "width", "height", "pivot_x", "pivot_y", "sheet", "hitbox"]
  let word := Json.optional? Json.word? 0 fields
  return {
    spriteX := ← word 0
    spriteY := ← word 1
    width := ← word 2
    height := ← word 3
    pivotX := ← word 4
    pivotY := ← word 5
    sheet := ← word 6
    hitbox := ← Json.optional? Json.natural? 0 fields 7 }

/-- A frame as a record. -/
def AnimationFrame.toJson (f : AnimationFrame) : Json :=
  .ofFields [("sprite_x", .ofWord f.spriteX), ("sprite_y", .ofWord f.spriteY),
    ("width", .ofWord f.width), ("height", .ofWord f.height), ("pivot_x", .ofWord f.pivotX),
    ("pivot_y", .ofWord f.pivotY), ("sheet", .ofWord f.sheet), ("hitbox", .ofNat f.hitbox)]

/-- Reads an animation, whose missing fields are empty or zero. -/
def Animation.ofJson? (value : Json) : Option Animation := do
  let fields ← value.record? ["name", "speed", "loop_point", "frames"]
  return {
    name := ← Json.optional? Json.string? "" fields 0
    speed := ← Json.optional? Json.word? 0 fields 1
    loopPoint := ← Json.optional? Json.natural? 0 fields 2
    frames := (← Json.optional? (Json.listOf? AnimationFrame.ofJson?) [] fields 3).toArray }

/-- An animation as a record. -/
def Animation.toJson (a : Animation) : Json :=
  .ofFields [("name", .ofString a.name), ("speed", .ofWord a.speed),
    ("loop_point", .ofNat a.loopPoint),
    ("frames", .array (a.frames.toList.map AnimationFrame.toJson))]

/-- Reads an animation file, whose missing fields are empty. -/
def AnimationFile.ofJson? (value : Json) : Option AnimationFile := do
  let fields ← value.record? ["path", "animations", "hitboxes"]
  return {
    path := ← Json.optional? Json.string? "" fields 0
    animations := (← Json.optional? (Json.listOf? Animation.ofJson?) [] fields 1).toArray
    hitboxes := (← Json.optional? (Json.listOf? Hitbox.ofJson?) [] fields 2).toArray }

/-- An animation file as a record. -/
def AnimationFile.toJson (file : AnimationFile) : Json :=
  .ofFields [("path", .ofString file.path),
    ("animations", .array (file.animations.toList.map Animation.toJson)),
    ("hitboxes", .array (file.hitboxes.toList.map Hitbox.toJson))]

end StageScript
