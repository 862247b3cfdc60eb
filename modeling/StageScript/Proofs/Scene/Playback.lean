import Mathlib.Logic.Function.Iterate
import StageScript.Scene.Animation

/-! # Playing an animation
What an entity shows after any number of ticks of an animation that it is in the middle of.
* `Animation.next` — the frame behind a frame, and `Animation.follow` — the frame that is shown behind
  it, whose number is a byte;
* `Entity.Plays` — an entity is in the middle of an animation, `Entity.playSpeed` — how fast, and
  `Entity.elapsed` — how long since it entered its frame, some ticks later;
* `Entity.Plays.animate` — one tick, from which **`Entity.animate_iterate`** follows for any number of
  ticks: the timer and the frame in closed form;
* **`Entity.not_all_loop`** — the last of 256 frames does not lead to the loop point. -/

namespace StageScript

namespace Animation

variable {a : Animation} {frame : Nat}

/-! ## Frames -/

/-- The frame behind a frame: the one after it, or the loop point behind the last one. -/
def next (a : Animation) (frame : Nat) : Nat :=
  if frame + 1 < a.frames.size then frame + 1 else a.loopPoint

/-- The frame that is shown behind a frame. The number of the one after it is cut to a byte before
it is compared with the number of frames. -/
def follow (a : Animation) (frame : Nat) : Nat :=
  if (frame + 1) % 256 < a.frames.size then (frame + 1) % 256 else a.loopPoint

theorem follow_lt (loops : a.loopPoint < a.frames.size) (frame : Nat) :
    a.follow frame < a.frames.size := by
  rw [follow]
  split
  · assumption
  · exact loops

/-- Every frame is followed by the one behind it, unless the number behind the last frame is cut to
that of the first one and the animation loops elsewhere. -/
theorem follow_eq_next_iff (few : a.frames.size ≤ 256) :
    (∀ frame < a.frames.size, a.follow frame = a.next frame) ↔
      a.frames.size < 256 ∨ a.loopPoint = 0 := by
  constructor
  · intro agree
    by_cases all : a.frames.size = 256
    · have last := agree 255 (by omega)
      rw [follow, next, all] at last
      exact .inr last.symm
    · exact .inl (by omega)
  · intro fits frame inside
    rw [follow, next]
    by_cases more : frame + 1 < a.frames.size
    · rw [Nat.mod_eq_of_lt (by omega)]
    · obtain last : frame + 1 = a.frames.size := by omega
      rw [last, if_neg (Nat.lt_irrefl _)]
      rcases fits with less | first
      · rw [Nat.mod_eq_of_lt less, if_neg (Nat.lt_irrefl _)]
      · split
        · omega
        · rfl

theorem follow_iterate_lt (loops : a.loopPoint < a.frames.size) (inside : frame < a.frames.size)
    (n : Nat) : a.follow^[n] frame < a.frames.size := by
  induction n with
  | zero => exact inside
  | succ n _ =>
    rw [Function.iterate_succ_apply']
    exact follow_lt loops _

theorem follow_iterate_eq_next (loops : a.loopPoint < a.frames.size) (few : a.frames.size ≤ 256)
    (fits : a.frames.size < 256 ∨ a.loopPoint = 0) (inside : frame < a.frames.size) (n : Nat) :
    a.follow^[n] frame = a.next^[n] frame := by
  induction n with
  | zero => rfl
  | succ n ih =>
    rw [Function.iterate_succ_apply', Function.iterate_succ_apply', ← ih]
    exact (follow_eq_next_iff few).2 fits _ (follow_iterate_lt loops inside n)

end Animation

namespace Entity

variable {e : Entity} {file : AnimationFile} {a : Animation}

/-! ## Speed -/

/-- A speed of the entity's own, which is no longer than a frame once it was used. -/
def cappedSpeed (e : Entity) : Word :=
  if frameTicks < e.animationSpeed then frameTicks else e.animationSpeed

/-- How far the timer goes in a tick: by the entity's own speed if that is positive. -/
def playSpeed (e : Entity) (a : Animation) : Word :=
  if 0 < e.animationSpeed then e.cappedSpeed else a.speed

/-- A speed that does not count is left. -/
theorem cappedSpeed_of_not_pos (unset : ¬ 0 < e.animationSpeed) : e.cappedSpeed = e.animationSpeed :=
  if_neg fun long => unset (Int32.lt_trans (by decide) long)

theorem cappedSpeed_pos (positive : 0 < e.animationSpeed) : 0 < e.cappedSpeed := by
  rw [cappedSpeed]
  split
  · decide
  · exact positive

theorem cappedSpeed_le : e.cappedSpeed ≤ frameTicks := by
  rw [cappedSpeed]
  split
  · exact Int32.le_refl _
  · exact Int32.not_lt.1 ‹_›

theorem advanceTimer_eq (e : Entity) (a : Animation) :
    e.advanceTimer a = { e with
      animationSpeed := e.cappedSpeed
      animationTimer := e.animationTimer + e.playSpeed a } := by
  by_cases positive : 0 < e.animationSpeed
  · have : ¬ e.animationSpeed ≤ 0 := Int32.not_le.2 positive
    rw [advanceTimer, if_neg this, playSpeed, if_pos positive, cappedSpeed]
    by_cases beyond : frameTicks < e.animationSpeed
    · rw [if_neg (Int32.not_le.2 beyond), if_pos beyond]
    · rw [if_pos (Int32.not_lt.1 beyond), if_neg beyond]
  · rw [advanceTimer, if_pos (Int32.not_lt.1 positive), playSpeed, if_neg positive,
      cappedSpeed_of_not_pos positive]

@[simp] theorem animationTimer_advanceTimer :
    (e.advanceTimer a).animationTimer = e.animationTimer + e.playSpeed a := by
  rw [advanceTimer_eq]

@[simp] theorem animationSpeed_advanceTimer : (e.advanceTimer a).animationSpeed = e.cappedSpeed := by
  rw [advanceTimer_eq]

@[simp] theorem frame_advanceTimer : (e.advanceTimer a).frame = e.frame := by
  rw [advanceTimer_eq]

@[simp] theorem animation_advanceTimer : (e.advanceTimer a).animation = e.animation := by
  rw [advanceTimer_eq]

@[simp] theorem prevAnimation_advanceTimer : (e.advanceTimer a).prevAnimation = e.prevAnimation := by
  rw [advanceTimer_eq]

/-- A speed that was capped before is the one that is played at. -/
theorem playSpeed_of_capped {e' : Entity} (capped : e'.animationSpeed = e.cappedSpeed) :
    e'.playSpeed a = e.playSpeed a := by
  by_cases positive : 0 < e.animationSpeed
  · have : ¬ frameTicks < e.cappedSpeed := Int32.not_lt.2 cappedSpeed_le
    rw [playSpeed, playSpeed, capped, if_pos (cappedSpeed_pos positive), if_pos positive, cappedSpeed,
      capped, if_neg this]
  · rw [cappedSpeed_of_not_pos positive] at capped
    rw [playSpeed, playSpeed, capped, if_neg positive, if_neg positive]

/-! ## One tick -/

/-- An entity is in the middle of an animation of a file: it entered the animation in a tick before,
and it shows one of its frames. -/
structure Plays (e : Entity) (file : AnimationFile) (a : Animation) : Prop where
  known : file.animations[e.animation.toNat]? = some a
  entered : e.animation = e.prevAnimation
  inside : e.frame.toNat < a.frames.size
  started : 0 ≤ e.animationTimer
  waits : e.animationTimer < frameTicks

/-- How far the timer would be some ticks later if it went on without an end. -/
def elapsed (e : Entity) (a : Animation) (ticks : Nat) : Nat :=
  e.animationTimer.toInt.toNat + ticks * (e.playSpeed a).toInt.toNat

theorem Plays.frame?_isSome (plays : e.Plays file a) :
    (file.frame? e.animation.toNat e.frame.toNat).isSome = true := by
  rw [AnimationFile.frame?, plays.known, Option.bind_some, Option.isSome_iff_exists]
  exact ⟨_, Array.getElem?_eq_getElem plays.inside⟩

/-- Before the timer has run its time the frame stays. -/
theorem loopFrame_advanceFrame_of_lt (waits : e.animationTimer < frameTicks)
    (inside : e.frame.toNat < a.frames.size) : e.advanceFrame.loopFrame a = e := by
  rw [advanceFrame, if_pos waits, loopFrame, if_pos inside]

theorem loopFrame_advanceFrame_of_le (beyond : frameTicks ≤ e.animationTimer) :
    e.advanceFrame.loopFrame a = { e with
      animationTimer := e.animationTimer - frameTicks
      frame := UInt8.ofNat (a.follow e.frame.toNat) } := by
  have counted : (e.frame + 1).toNat = (e.frame.toNat + 1) % 256 := UInt8.toNat_add ..
  rw [advanceFrame, if_neg (Int32.not_lt.2 beyond), loopFrame, Animation.follow, ← counted]
  split
  · rw [UInt8.ofNat_toNat]
  · rfl

theorem Plays.animate_eq (plays : e.Plays file a) :
    e.animate file = (e.advanceTimer a).advanceFrame.loopFrame a := by
  rw [animate, plays.known]
  show (e.advanceTimer a).restart.advanceFrame.loopFrame a = _
  rw [advanceTimer_eq, restart, if_pos plays.entered]

section Tick

variable (plays : e.Plays file a) (loops : a.loopPoint < a.frames.size) (few : a.frames.size ≤ 256)
  (forward : 0 ≤ e.playSpeed a) (slow : e.playSpeed a ≤ frameTicks)

include plays forward slow in
/-- The sum of the timer and the speed is no longer than two frames. -/
theorem Plays.toInt_timer_add :
    (e.animationTimer + e.playSpeed a).toInt = e.elapsed a 1 ∧ e.elapsed a 1 < 2 * 0xF0 := by
  obtain ⟨-, -, -, started, waits⟩ := plays
  have ticks : frameTicks.toInt = 0xF0 := by decide
  rw [Int32.le_iff_toInt_le, Int32.toInt_zero] at started forward
  rw [Int32.lt_iff_toInt_lt, ticks] at waits
  rw [Int32.le_iff_toInt_le, ticks] at slow
  rw [elapsed, Nat.one_mul, Int32.toInt_add, Int.bmod_eq_of_le (by omega) (by omega)]
  omega

include plays loops few forward slow in
/-- **One tick**: the timer starts again with each frame that it has run through, and the entity goes
on by that frame. -/
theorem Plays.animate :
    (e.animate file).Plays file a ∧ (e.animate file).playSpeed a = e.playSpeed a ∧
      (e.animate file).animationTimer.toInt = (e.elapsed a 1 % 0xF0 : Nat) ∧
      (e.animate file).frame.toNat = a.follow^[e.elapsed a 1 / 0xF0] e.frame.toNat := by
  obtain ⟨sum, short⟩ := plays.toInt_timer_add forward slow
  have ticks : frameTicks.toInt = 0xF0 := by decide
  have known : file.animations[(e.advanceTimer a).animation.toNat]? = some a := by
    rw [animation_advanceTimer]
    exact plays.known
  have entered : (e.advanceTimer a).animation = (e.advanceTimer a).prevAnimation := by
    rw [animation_advanceTimer, prevAnimation_advanceTimer]
    exact plays.entered
  have inside : (e.advanceTimer a).frame.toNat < a.frames.size := by
    rw [frame_advanceTimer]
    exact plays.inside
  rw [plays.animate_eq]
  -- The timer runs through a frame or does not; it never runs through two, as the speed is capped.
  by_cases early : e.elapsed a 1 < 0xF0
  · have waits : (e.advanceTimer a).animationTimer < frameTicks := by
      rw [animationTimer_advanceTimer, Int32.lt_iff_toInt_lt]
      omega
    rw [loopFrame_advanceFrame_of_lt waits inside, Nat.mod_eq_of_lt early, Nat.div_eq_of_lt early,
      animationTimer_advanceTimer, frame_advanceTimer]
    refine ⟨⟨known, entered, inside, ?_, waits⟩, playSpeed_of_capped animationSpeed_advanceTimer, sum,
      rfl⟩
    rw [animationTimer_advanceTimer, Int32.le_iff_toInt_le, sum]
    exact Int.natCast_nonneg _
  · have beyond : frameTicks ≤ (e.advanceTimer a).animationTimer := by
      rw [animationTimer_advanceTimer, Int32.le_iff_toInt_le]
      omega
    have rest : (e.animationTimer + e.playSpeed a - frameTicks).toInt =
        (e.elapsed a 1 % 0xF0 : Nat) := by
      rw [Int32.toInt_sub, sum, ticks, Int.bmod_eq_of_le (by omega) (by omega)]
      omega
    have once : e.elapsed a 1 / 0xF0 = 1 := by omega
    have shown : a.follow e.frame.toNat < a.frames.size := Animation.follow_lt loops _
    have byte : (UInt8.ofNat (a.follow e.frame.toNat)).toNat = a.follow e.frame.toNat :=
      UInt8.toNat_ofNat_of_lt' (Nat.lt_of_lt_of_le shown few)
    rw [loopFrame_advanceFrame_of_le beyond, once, animationTimer_advanceTimer, frame_advanceTimer]
    refine ⟨⟨known, entered, ?_, ?_, ?_⟩, playSpeed_of_capped animationSpeed_advanceTimer, rest, byte⟩
    · exact Nat.lt_of_le_of_lt (Nat.le_of_eq byte) shown
    · rw [Int32.le_iff_toInt_le, rest]
      exact Int.natCast_nonneg _
    · rw [Int32.lt_iff_toInt_lt, rest, ticks]
      omega

/-! ## Any number of ticks -/

include plays loops few forward slow in
/-- The run of `Plays.animate`: what is left of the timer and the frames that it has gone on by add up
over the ticks. -/
theorem Plays.iterate (n : Nat) :
    ((·.animate file)^[n] e).Plays file a ∧ ((·.animate file)^[n] e).playSpeed a = e.playSpeed a ∧
      ((·.animate file)^[n] e).animationTimer.toInt = (e.elapsed a n % 0xF0 : Nat) ∧
      ((·.animate file)^[n] e).frame.toNat = a.follow^[e.elapsed a n / 0xF0] e.frame.toNat := by
  -- The entity behind some ticks plays the animation itself, so one tick more is `Plays.animate` of
  -- it.
  induction n with
  | zero =>
    obtain ⟨-, -, -, started, waits⟩ := id plays
    have ticks : frameTicks.toInt = 0xF0 := by decide
    rw [Int32.le_iff_toInt_le, Int32.toInt_zero] at started
    rw [Int32.lt_iff_toInt_lt, ticks] at waits
    have now : e.elapsed a 0 = e.animationTimer.toInt.toNat := by
      rw [elapsed, Nat.zero_mul, Nat.add_zero]
    have none : e.elapsed a 0 / 0xF0 = 0 := by omega
    refine ⟨plays, rfl, ?_, by rw [none]; rfl⟩
    show e.animationTimer.toInt = _
    omega
  | succ n ih =>
    obtain ⟨still, speed, timer, frame⟩ := ih
    rw [Function.iterate_succ_apply']
    generalize (·.animate file)^[n] e = e' at still speed timer frame ⊢
    obtain ⟨on, speed', timer', frame'⟩ := still.animate loops few (speed ▸ forward) (speed ▸ slow)
    have ahead : e'.elapsed a 1 = e.elapsed a n % 0xF0 + (e.playSpeed a).toInt.toNat := by
      rw [elapsed, timer, speed, Int.toNat_natCast, Nat.one_mul]
    have total : e.elapsed a (n + 1) = e.elapsed a n + (e.playSpeed a).toInt.toNat := by
      rw [elapsed, elapsed, Nat.succ_mul, Nat.add_assoc]
    refine ⟨on, speed'.trans speed, ?_, ?_⟩
    · rw [timer', ahead, total, Nat.mod_add_mod]
    · rw [frame', frame, ← Function.iterate_add_apply, ahead, total]
      congr 2
      omega

include plays loops few forward slow in
/-- **The playback of an animation**: after any number of ticks the timer is what is left of the time
that went by, and the entity has gone on by the frames that passed in it, always to one that the
animation has. These are the frames behind each other unless the animation has all the 256 frames that
a byte can tell and does not loop to its first one. -/
theorem animate_iterate (n : Nat) :
    ((·.animate file)^[n] e).animationTimer.toInt = (e.elapsed a n % 0xF0 : Nat) ∧
      ((·.animate file)^[n] e).frame.toNat = a.follow^[e.elapsed a n / 0xF0] e.frame.toNat ∧
      (file.frame? ((·.animate file)^[n] e).animation.toNat
        ((·.animate file)^[n] e).frame.toNat).isSome = true ∧
      (a.frames.size < 256 ∨ a.loopPoint = 0 →
        ((·.animate file)^[n] e).frame.toNat = a.next^[e.elapsed a n / 0xF0] e.frame.toNat) := by
  obtain ⟨still, -, timer, frame⟩ := plays.iterate loops few forward slow n
  refine ⟨timer, frame, still.frame?_isSome, fun fits => ?_⟩
  rw [frame, Animation.follow_iterate_eq_next loops few fits plays.inside]

end Tick

/-- An animation of three frames, the last two of which are repeated. -/
def walking : Animation := { speed := 64, loopPoint := 1, frames := #[{}, {}, {}] }

theorem animate_iterate_walking :
    ((·.animate { animations := #[walking] })^[4]
        ({ frame := 2, animationTimer := 239 } : Entity)).animationTimer = 15 ∧
      ((·.animate { animations := #[walking] })^[4]
        ({ frame := 2, animationTimer := 239 } : Entity)).frame = 2 := by
  obtain ⟨timer, -, -, frame⟩ := @animate_iterate { frame := 2, animationTimer := 239 }
    { animations := #[walking] } walking ⟨rfl, rfl, by decide, by decide, by decide⟩ (by decide)
    (by decide) (by decide) (by decide) 4
  refine ⟨Int32.toInt.inj (timer.trans (by decide)), UInt8.toNat.inj ?_⟩
  rw [frame (.inl (by decide))]
  decide

/-- An animation of as many frames as a byte can tell, which does not go back to the first one. -/
def fullAnimation : Animation :=
  { speed := 0xF0, loopPoint := 1, frames := Array.replicate 256 {} }

/-- **The last of 256 frames** is followed by the first one, wherever the animation loops. -/
theorem not_all_loop :
    ¬ ∀ (e : Entity) (file : AnimationFile) (a : Animation), e.Plays file a →
      a.loopPoint < a.frames.size → a.frames.size ≤ 256 → 0 ≤ e.playSpeed a →
      e.playSpeed a ≤ frameTicks → ∀ n : Nat,
        ((·.animate file)^[n] e).frame.toNat = a.next^[e.elapsed a n / 0xF0] e.frame.toNat := by
  intro all
  have size : fullAnimation.frames.size = 256 := Array.size_replicate
  have plays : ({ frame := 255 } : Entity).Plays { animations := #[fullAnimation] } fullAnimation :=
    ⟨rfl, rfl, by rw [size]; decide, by decide, by decide⟩
  have loops : fullAnimation.loopPoint < fullAnimation.frames.size := by rw [size]; decide
  have few : fullAnimation.frames.size ≤ 256 := Nat.le_of_eq size
  have claimed := all _ _ _ plays loops few (by decide) (by decide) 1
  obtain ⟨-, -, -, shown⟩ := plays.iterate loops few (by decide) (by decide) 1
  have once : ({ frame := 255 } : Entity).elapsed fullAnimation 1 / 0xF0 = 1 := by decide
  have last : ({ frame := 255 } : Entity).frame.toNat = 255 := rfl
  rw [shown, once, last, Function.iterate_one, Function.iterate_one, Animation.follow,
    Animation.next, size] at claimed
  exact absurd claimed (by decide)

end Entity

end StageScript
