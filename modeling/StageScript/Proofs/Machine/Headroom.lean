import StageScript.Proofs.Machine.Coordinates

/-! # Moderate coordinates
Where the words that scripts write are no further from zero than about a million, coordinates stay far from
the ends of the words, however they are put together.
* **`Scene.Moderate`** and **`Drawing.Moderate`** — such scenes, and operands of an instruction;
* **`Scene.fits_exactBounds`** and **`Drawing.fits_exactly`** — what is computed there fits. -/

namespace StageScript

open Exact

/-! ## Moderate numbers -/

/-- A number that is no further from zero than a bound. -/
def Near (bound n : Int) : Prop := -bound ≤ n ∧ n ≤ bound

instance (bound n : Int) : Decidable (Near bound n) := inferInstanceAs (Decidable (_ ∧ _))

namespace Near

variable {a b m n : Int}

theorem mono (h : Near a n) (le : a ≤ b) : Near b n :=
  ⟨Int.le_trans (Int.neg_le_neg le) h.1, Int.le_trans h.2 le⟩

theorem add (hm : Near a m) (hn : Near b n) : Near (a + b) (m + n) := by
  unfold Near at *
  omega

theorem sub (hm : Near a m) (hn : Near b n) : Near (a + b) (m - n) := by
  unfold Near at *
  omega

theorem neg (h : Near a n) : Near a (-n) := by
  unfold Near at *
  omega

theorem half (h : Near a n) : Near a (n.tdiv 2) := by
  have size : (n.tdiv 2).natAbs = n.natAbs / 2 := Int.natAbs_tdiv n 2
  unfold Near at *
  omega

/-- A number that is nearer to zero than the ends of the words. -/
theorem holds (h : Near a n) (room : a < 0x80000000) : Word.Holds n := by
  unfold Near at h
  unfold Word.Holds
  omega

end Near

/-- A word that is no further from zero than about a million. -/
def Word.IsModerate (w : Word) : Prop := Near 0x100000 w.toInt

instance (w : Word) : Decidable w.IsModerate := inferInstanceAs (Decidable (Near _ _))

theorem Word.near_pixel (w : Word) : Near 0x8000 w.pixel := by
  have := w.le_toInt
  have := w.toInt_lt
  unfold Near pixel
  omega

/-- The offsets and the size of a screen are moderate. -/
structure Screen.Moderate (s : Screen) : Prop where
  xOffset : s.xOffset.IsModerate
  yOffset : s.yOffset.IsModerate
  xSize : s.xSize.IsModerate
  ySize : s.ySize.IsModerate

/-- The screen, and the pivots and widths of all frames, are moderate. -/
structure Scene.Moderate (s : Scene) : Prop where
  screen : s.screen.Moderate
  frames : ∀ f ∈ s.spriteFrames, f.pivotX.IsModerate ∧ f.pivotY.IsModerate ∧ f.width.IsModerate
  animations : ∀ file ∈ s.animations, ∀ a ∈ file.animations, ∀ f ∈ a.frames,
    f.pivotX.IsModerate ∧ f.pivotY.IsModerate

/-- The points on the screen, the frame numbers and the gaps that an instruction takes are moderate, and a
title has no more than five hundred characters. Points of the stage and numbers to be drawn may be any. -/
def Drawing.Moderate (m : Machine) (op : Drawing) : Prop :=
  let o := m.registers.operands
  match op with
  | .spriteScreenXY => o[1].IsModerate ∧ o[2].IsModerate
  | .spriteScreenFX => o[2].IsModerate ∧ o[3].IsModerate
  | .numbers => o[0].IsModerate ∧ o[1].IsModerate ∧ o[2].IsModerate ∧ o[5].IsModerate
  | .actName => o[0].IsModerate ∧ o[1].IsModerate ∧ o[2].IsModerate ∧ o[5].IsModerate ∧ o[6].IsModerate ∧
    (titleText m.scene.stage.titleCard.toList o[4]).length ≤ 500
  | _ => True

/-! ## Computations with moderate numbers -/

theorem fits_between {position offset size margin : Int} (atOffset : Near 0x100000 offset)
    (atSize : Near 0x100000 size) (atMargin : Near 0x100 margin) :
    (between position offset size margin).Fits := by
  unfold between
  rw [fits_bind, fits_result, value_result]
  refine ⟨(atOffset.sub atMargin).holds (by decide), ?_⟩
  split
  · have border := atSize.add atMargin
    rw [fits_bind, fits_bind, fits_result, fits_result, value_result]
    exact ⟨border.holds (by decide), (atOffset.add border).holds (by decide), fits_pure _⟩
  · exact fits_pure _

/-- **On a moderate screen** it can be told of every entity whether it is in the active area. -/
theorem Scene.fits_exactBounds {s : Scene} (h : s.screen.Moderate) (e : Entity) (vertical : Bool) :
    (s.exactBounds e vertical).Fits := by
  unfold exactBounds
  rw [fits_bind, fits_bind]
  refine ⟨fits_between h.xOffset h.xSize ?_, fits_between h.yOffset h.ySize ?_, fits_pure _⟩
  · exact ⟨by decide, by decide⟩
  · exact ⟨by decide, by decide⟩

/-- The place on the screen of any point of the stage leaves room for a moderate pivot. All points that sprites
are placed at are bounded so. -/
theorem Screen.fits_exactPlace {s : Screen} (h : s.Moderate) (x y : Word) :
    (s.exactPlace x y).Fits ∧ Near 0x7FE00000 (s.exactPlace x y).value.1 ∧
      Near 0x7FE00000 (s.exactPlace x y).value.2 := by
  have atX := x.near_pixel.sub h.xOffset
  have atY := y.near_pixel.sub h.yOffset
  refine ⟨?_, atX.mono (by decide), atY.mono (by decide)⟩
  simp only [exactPlace, fits_bind, fits_result, fits_pure, value_result, and_true]
  exact ⟨atX.holds (by decide), atY.holds (by decide)⟩

namespace Drawing

variable {m : Machine} {object : Nat}

theorem fits_moved {x y : Int} {pivotX pivotY : Word} (atX : Near 0x7FE00000 x) (atY : Near 0x7FE00000 y)
    (hx : pivotX.IsModerate) (hy : pivotY.IsModerate) : (exactMoved x y pivotX pivotY).Fits := by
  simp only [exactMoved, fits_bind, fits_result, fits_pure, and_true]
  exact ⟨(atX.add hx).holds (by decide), (atY.add hy).holds (by decide)⟩

theorem moderate_of_frameAt? (h : m.scene.Moderate) {number : Int} {f : SpriteFrame}
    (found : frameAt? m object number = some f) :
    f.pivotX.IsModerate ∧ f.pivotY.IsModerate ∧ f.width.IsModerate := by
  unfold frameAt? at found
  split at found
  · cases found
  · exact h.frames f (Array.mem_of_getElem? found)

theorem moderate_of_animationFrame? (h : m.scene.Moderate) {e : Entity} {f : AnimationFrame}
    (found : animationFrame? m e = some f) : f.pivotX.IsModerate ∧ f.pivotY.IsModerate := by
  obtain ⟨k, -, found⟩ := Option.bind_eq_some_iff.1 found
  obtain ⟨file, hasFile, found⟩ := Option.bind_eq_some_iff.1 found
  obtain ⟨a, hasAnimation, hasFrame⟩ := Option.bind_eq_some_iff.1 found
  exact h.animations file (Array.mem_of_getElem? hasFile) a (Array.mem_of_getElem? hasAnimation) f
    (Array.mem_of_getElem? hasFrame)

theorem fits_sprite (h : m.scene.Moderate) {number x y : Int} (atX : Near 0x7FE00000 x)
    (atY : Near 0x7FE00000 y) : (exactSprite m object number x y).Fits := by
  unfold exactSprite
  split
  · next f found =>
    obtain ⟨hx, hy, -⟩ := moderate_of_frameAt? h found
    exact fits_moved atX atY hx hy
  · exact fits_pure _

theorem fits_animation (h : m.scene.Moderate) {e : Entity} {x y : Int} (atX : Near 0x7FE00000 x)
    (atY : Near 0x7FE00000 y) : (exactAnimation m e x y).Fits := by
  unfold exactAnimation
  split
  · next f found =>
    obtain ⟨hx, hy⟩ := moderate_of_animationFrame? h found
    exact fits_moved atX atY hx hy
  · exact fits_pure _

theorem fits_spriteEffect (h : m.scene.Moderate) {number x y : Int} {kind : Word} (atX : Near 0x7FE00000 x)
    (atY : Near 0x7FE00000 y) : (exactSpriteEffect m object number kind x y).Fits := by
  unfold exactSpriteEffect
  split
  · exact fits_pure _
  · next f found =>
    obtain ⟨hx, hy, -⟩ := moderate_of_frameAt? h found
    simp only [fits_bind, fits_result]
    refine ⟨hx.neg.holds (by decide), hy.neg.holds (by decide), ?_⟩
    split
    · exact fits_pure _
    · exact fits_moved atX atY hx hy
    · exact fits_moved atX atY hx hy
    · exact fits_pure _

/-! ### Numbers and titles -/

theorem near_digit (value : Int) (place : Nat) : Near 9 (digit value place) := by
  have power : 0 < 10 ^ place := Nat.pow_pos (by decide)
  have size : (digit value place).natAbs = value.natAbs % 10 ^ (place + 1) / 10 ^ place := by
    unfold digit
    rw [Int.natAbs_tdiv, Int.natAbs_tmod]
    rfl
  have small : value.natAbs % 10 ^ (place + 1) / 10 ^ place < 10 := by
    rw [Nat.div_lt_iff_lt_mul power, Nat.mul_comm, ← Nat.pow_succ]
    exact Nat.mod_lt _ (Nat.pow_pos (by decide))
  unfold Near
  omega

theorem fits_digits (h : m.scene.Moderate) {o : Operands} (first : o[0].IsModerate) (line : o[2].IsModerate)
    (gap : o[5].IsModerate) {left place : Nat} {x : Int} (few : left ≤ 18)
    (atX : Near (0x7FE00000 - left * 0x100000) x) : (exactDigits m object o left place x).Fits := by
  -- each digit moves the next one by a moderate gap, and takes as much from the bound
  induction left generalizing place x with
  | zero => exact fits_pure _
  | succ left ih =>
    have small := near_digit o[3].toInt place
    have next : Near (0x7FE00000 - left * 0x100000) (x - o[5].toInt) := (atX.sub gap).mono (by omega)
    rw [exactDigits]
    simp only [fits_bind, fits_result, fits_pure, and_true, value_result]
    refine ⟨?_, next.holds (by omega), ih (by omega) next⟩
    unfold exactDigit
    split
    · rw [fits_bind, fits_result]
      exact ⟨(first.add small).holds (by decide), fits_sprite h (atX.mono (by omega)) (line.mono (by decide))⟩
    · exact fits_pure _

theorem near_ofNat {n k : Nat} (few : n ≤ k) (room : k < 0x80000000) : Near k (Word.ofNat n).toInt := by
  rw [Word.ofNat, Int32.toInt_ofNat_of_lt (by omega)]
  unfold Near
  omega

theorem near_glyph {c : Char} {g : Word} (known : glyph? c = some g) : Near 35 g.toInt := by
  unfold glyph? at known
  dsimp only at known
  split at known
  · next letter =>
    obtain rfl := Option.some.inj known
    have last : c.toUpper ≤ 'Z' := of_decide_eq_true (Bool.and_eq_true_iff.1 letter).2
    have bound : c.toUpper.toNat ≤ 90 := last
    exact near_ofNat (by show _ - 65 ≤ 35; omega) (by decide)
  · split at known
    · next digit =>
      obtain rfl := Option.some.inj known
      have last : c ≤ '9' := of_decide_eq_true (Bool.and_eq_true_iff.1 digit).2
      have bound : c.toNat ≤ 57 := last
      exact near_ofNat (by show _ - 48 + 26 ≤ 35; omega) (by decide)
    · cases known

/-- The first frame, the line and the gaps of a lettering are moderate. -/
structure Lettering.Moderate (l : Lettering) : Prop where
  first : l.first.IsModerate
  y : l.y.IsModerate
  spaceWidth : l.spaceWidth.IsModerate
  spacing : l.spacing.IsModerate

variable {l : Lettering}

theorem near_exactAdvance (object : Nat) (h : m.scene.Moderate) (hl : l.Moderate) (c : Char) :
    (exactAdvance m object l c).Fits ∧ Near 0x200000 (exactAdvance m object l c).value := by
  have sum {a b : Word} (ha : a.IsModerate) (hb : b.IsModerate) :
      (result (a.toInt + b.toInt)).Fits ∧ Near 0x200000 (result (a.toInt + b.toInt)).value :=
    ⟨(fits_result _).2 ((ha.add hb).holds (by decide)), ha.add hb⟩
  unfold exactAdvance
  cases known : glyph? c with
  | none => exact sum hl.spaceWidth hl.spacing
  | some g =>
    have number : Word.Holds (l.first.toInt + g.toInt) := (hl.first.add (near_glyph known)).holds (by decide)
    dsimp only
    rw [fits_bind, fits_result, value_bind, value_result, and_assoc]
    refine ⟨number, ?_⟩
    cases found : frameAt? m object (l.first.toInt + g.toInt) with
    | none => exact sum hl.spaceWidth hl.spacing
    | some f => exact sum (moderate_of_frameAt? h found).2.2 hl.spacing

theorem near_exactNext (object : Nat) (h : m.scene.Moderate) (hl : l.Moderate) {b x : Int}
    (atX : Near b x) (room : b + 0x200000 ≤ 0x7FE00000) (c : Char) :
    (exactNext m object l x c).Fits ∧ Near (b + 0x200000) (exactNext m object l x c).value := by
  obtain ⟨fits, near⟩ := near_exactAdvance object h hl c
  unfold exactNext
  rw [fits_bind, fits_result, value_bind, value_result]
  exact ⟨⟨fits, (atX.add near).holds (by omega)⟩, atX.add near⟩

/-- The end of a text is as far away as its characters move it. -/
theorem near_exactEnd (object : Nat) (h : m.scene.Moderate) (hl : l.Moderate) {b x : Int} (text : Text)
    (atX : Near b x) (room : b + text.length * 0x200000 ≤ 0x7FE00000) :
    (exactEnd m object l x text).Fits ∧
      Near (b + text.length * 0x200000) (exactEnd m object l x text).value := by
  induction text generalizing b x with
  | nil =>
    refine ⟨fits_pure _, ?_⟩
    rw [exactEnd, value_pure, List.length_nil, Int.ofNat_zero, Int.zero_mul, Int.add_zero]
    exact atX
  | cons c rest ih =>
    rw [List.length_cons, Nat.cast_succ] at room ⊢
    obtain ⟨fits, near⟩ := near_exactNext object h hl atX (by omega) c
    obtain ⟨others, last⟩ := ih near (by omega)
    rw [exactEnd, fits_bind, value_bind]
    exact ⟨⟨fits, others⟩, last.mono (by omega)⟩

theorem fits_letters (h : m.scene.Moderate) (hl : l.Moderate) {b x : Int} {text : Text} (atX : Near b x)
    (room : b + text.length * 0x200000 ≤ 0x7FE00000) : (exactLetters m object l x text).Fits := by
  induction text generalizing b x with
  | nil => exact fits_pure _
  | cons c rest ih =>
    rw [List.length_cons, Nat.cast_succ] at room
    obtain ⟨fits, near⟩ := near_exactNext object h hl atX (by omega) c
    rw [exactLetters]
    simp only [fits_bind, fits_pure, and_true]
    refine ⟨?_, fits, ih near (by omega)⟩
    unfold exactLetter
    cases known : glyph? c with
    | none => exact fits_pure _
    | some g =>
      dsimp only
      rw [fits_bind, fits_result]
      exact ⟨(hl.first.add (near_glyph known)).holds (by decide),
        fits_sprite h (atX.mono (by omega)) (hl.y.mono (by decide))⟩

theorem fits_title (h : m.scene.Moderate) (ho : actName.Moderate m) :
    (exactTitle m object m.registers.operands).Fits := by
  obtain ⟨first, atX, line, space, gap, short⟩ := ho
  have hl : Lettering.Moderate ⟨m.registers.operands[0], m.registers.operands[2], m.registers.operands[5],
      m.registers.operands[6]⟩ := ⟨first, line, space, gap⟩
  have origin : Near 0 0 := ⟨by decide, by decide⟩
  obtain ⟨fits, near⟩ := near_exactEnd object h hl
    (titleText m.scene.stage.titleCard.toList m.registers.operands[4]) origin (by omega)
  unfold exactTitle
  rw [fits_bind, fits_bind]
  refine ⟨fits, ?_⟩
  generalize (exactEnd m object _ 0 _).value = width at near ⊢
  -- a title that ends at its point begins as far in front of it as it is wide
  have wide : Near 0x3E800000 width := near.mono (by omega)
  have start : (exactStart m.registers.operands width).Fits ∧
      Near 0x3E900000 (exactStart m.registers.operands width).value := by
    unfold exactStart
    split
    · exact ⟨(fits_result _).2 ((atX.sub wide).holds (by decide)), (atX.sub wide).mono (by decide)⟩
    · split
      · exact ⟨(fits_result _).2 ((atX.sub wide.half).holds (by decide)), (atX.sub wide.half).mono (by decide)⟩
      · exact ⟨fits_pure _, atX.mono (by decide)⟩
  exact ⟨start.1, fits_letters h hl start.2 (by omega)⟩

/-- **Moderate coordinates have no overflow**, whatever the instruction is. -/
theorem fits_exactly (h : m.scene.Moderate) {op : Drawing} (ho : op.Moderate m) :
    (op.exactly m object).Fits := by
  have place := Screen.fits_exactPlace h.screen
  have word {w : Word} (moderate : w.IsModerate) : Near 0x7FE00000 w.toInt := moderate.mono (by decide)
  cases op with
  | sprite | spriteXY =>
    obtain ⟨fits, atX, atY⟩ := place _ _
    exact (fits_bind _ _).2 ⟨fits, fits_sprite h atX atY⟩
  | spriteScreenXY => exact fits_sprite h (word ho.1) (word ho.2)
  | spriteFX =>
    obtain ⟨fits, atX, atY⟩ := place _ _
    exact (fits_bind _ _).2 ⟨fits, fits_spriteEffect h atX atY⟩
  | spriteScreenFX => exact fits_spriteEffect h (word ho.1) (word ho.2)
  | numbers =>
    obtain ⟨first, atX, line, gap⟩ := ho
    have few : min (m.registers.operands[4].index?.getD 0) digitLimit ≤ 18 := Nat.min_le_right ..
    exact fits_digits h first line gap few (atX.mono (by omega))
  | actName => exact fits_title h ho
  | objectAnimation =>
    obtain ⟨fits, atX, atY⟩ := place _ _
    exact (fits_bind _ _).2 ⟨fits, fits_animation h atX atY⟩
  | playerAnimation =>
    unfold exactly
    dsimp only
    split
    · exact fits_pure _
    · obtain ⟨fits, atX, atY⟩ := place _ _
      exact (fits_bind _ _).2 ⟨fits, fits_animation h atX atY⟩
  | tintRect | rect | lifeIcon | text | scene3D | clearScreen | screenFade => exact fits_pure _

end Drawing

end StageScript
