import StageScript.Word

/-! # Angles
Trigonometry on circles of 512 and of 256 steps, in whole numbers.
* `Trig.sin512` and `Trig.cos512` have amplitude 512, `Trig.sin256` and `Trig.cos256` half of that;
* `Trig.angle` is the direction of a vector on the circle of 256 steps.
Negative angles are reflected: `-a` counts as a full circle plus `a`. -/

namespace StageScript

namespace Trig

/-! ## Sine and cosine -/

/-- The first quarter of the wave: `512 * sin (i * pi / 256)`, rounded toward zero. -/
def quarterWave : Array Word := #[
  0, 6, 12, 18, 25, 31, 37, 43, 50, 56, 62, 68, 75, 81, 87, 93, 99, 106, 112, 118, 124, 130, 136,
  142, 148, 154, 160, 166, 172, 178, 184, 190, 195, 201, 207, 213, 218, 224, 230, 235, 241, 246,
  252, 257, 263, 268, 273, 279, 284, 289, 294, 299, 304, 310, 314, 319, 324, 329, 334, 339, 343,
  348, 353, 357, 362, 366, 370, 375, 379, 383, 387, 391, 395, 399, 403, 407, 411, 414, 418, 422,
  425, 429, 432, 435, 439, 442, 445, 448, 451, 454, 457, 460, 462, 465, 468, 470, 473, 475, 477,
  479, 482, 484, 486, 488, 489, 491, 493, 495, 496, 498, 499, 500, 502, 503, 504, 505, 506, 507,
  508, 508, 509, 510, 510, 511, 511, 511, 511, 511, 512]

/-- The wave at a step of the circle of 512 steps. The second quarter runs through the first
backwards, and the second half is the first one below zero. -/
def wave (step : Nat) : Word :=
  let step := step % 512
  if step ≤ 128 then quarterWave.getD step 0
  else if step ≤ 256 then quarterWave.getD (256 - step) 0
  else if step ≤ 384 then -quarterWave.getD (step - 256) 0
  else -quarterWave.getD (512 - step) 0

/-- The step of an angle on a circle whose number of steps is a power of two. -/
def wrap (steps : Word) (angle : Word) : Nat :=
  ((if angle < 0 then steps - angle else angle) &&& (steps - 1)).toInt.toNat

/-- The sine on the circle of 512 steps, with amplitude 512. -/
def sin512 (angle : Word) : Word := wave (wrap 0x200 angle)

/-- The cosine on the circle of 512 steps, with amplitude 512. -/
def cos512 (angle : Word) : Word := wave (wrap 0x200 angle + 128)

/-- The sine on the circle of 256 steps, with amplitude 256. -/
def sin256 (angle : Word) : Word := wave (wrap 0x100 angle * 2) >>> 1

/-- The cosine on the circle of 256 steps, with amplitude 256. -/
def cos256 (angle : Word) : Word := wave (wrap 0x100 angle * 2 + 128) >>> 1

/-! ## Directions -/

/-- The slopes at which the angle of a vector with coordinates up to 255 reaches each step of the
first quarter, as fractions `y / x`; the last is the vertical. -/
def slopes : List (Nat × Nat) := [
  (3, 122), (3, 61), (9, 122), (20, 203), (28, 227), (27, 182), (21, 121), (37, 186), (53, 236),
  (64, 255), (31, 112), (27, 89), (37, 112), (73, 204), (76, 197), (99, 239), (43, 97), (35, 74),
  (74, 147), (116, 217), (115, 203), (3, 5), (19, 30), (147, 220), (131, 186), (89, 120),
  (32, 41), (119, 145), (157, 182), (213, 235), (159, 167), (1, 1), (146, 139), (32, 29),
  (131, 113), (184, 151), (255, 199), (209, 155), (71, 50), (223, 149), (229, 145), (252, 151),
  (173, 98), (58, 31), (149, 75), (203, 96), (185, 82), (169, 70), (70, 27), (109, 39), (221, 73),
  (211, 64), (159, 44), (4, 1), (49, 11), (181, 36), (219, 38), (209, 31), (73, 9), (132, 13),
  (217, 16), (224, 11), (163, 4), (1, 0)]

/-- The angle of a vector in the first quarter whose coordinates are at most 255. -/
def quarterAngle (x y : Nat) : UInt8 :=
  if y = 0 then 0
  else UInt8.ofNat (slopes.countP fun (rise, run) => rise * x ≤ y * run)

/-- Divides both coordinates by sixteen until they are at most 255. -/
def scaleDown (x y : Nat) : Nat × Nat :=
  if max x y ≤ 0xFF then (x, y) else scaleDown (x / 16) (y / 16)
termination_by max x y
decreasing_by omega

/-- The angle of a vector on the circle of 256 steps, where `quarter` is the angle in the first
quarter for coordinates up to 255. Zero counts as negative for either coordinate. -/
def angleWith (quarter : Nat → Nat → UInt8) (x y : Word) : Word :=
  let (ax, ay) := scaleDown x.toInt.natAbs y.toInt.natAbs
  let a := quarter ax ay
  Word.ofByte <|
    if x ≤ 0 then if y ≤ 0 then a + 0x80 else 0x80 - a
    else if y ≤ 0 then 0 - a else a

/-- The angle of a vector on the circle of 256 steps. -/
def angle (x y : Word) : Word := angleWith quarterAngle x y

theorem scaleDown_of_le {x y : Nat} (h : max x y ≤ 0xFF) : scaleDown x y = (x, y) := by
  rw [scaleDown, if_pos h]

end Trig

end StageScript
