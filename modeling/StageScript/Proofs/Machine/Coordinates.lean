import StageScript.Machine.Exact
import StageScript.Proofs.Machine.Digits
import StageScript.Proofs.Machine.Lens

/-! # Coordinates as whole numbers
As long as no result on the way is beyond the words, coordinates that are computed in words are the whole
numbers that they stand for.
* **`Scene.value_exactBounds`** — so it is with the edges of the active area;
* **`Drawing.Draws`** — commands draw sprites where whole numbers place them, if these fit;
* **`Drawing.draws_exactly`** — the commands of every drawing instruction do so. -/

namespace StageScript

open Exact

/-! ## Words -/

namespace Word

variable {a b : Word}

theorem toInt_add_of_holds (h : Holds (a.toInt + b.toInt)) : (a + b).toInt = a.toInt + b.toInt := by
  rw [Int32.toInt_add]
  exact Int.bmod_eq_of_le h.1 h.2

theorem toInt_sub_of_holds (h : Holds (a.toInt - b.toInt)) : (a - b).toInt = a.toInt - b.toInt := by
  rw [Int32.toInt_sub]
  exact Int.bmod_eq_of_le h.1 h.2

theorem toInt_neg_of_holds (h : Holds (-a.toInt)) : (-a).toInt = -a.toInt := by
  rw [Int32.toInt_neg]
  exact Int.bmod_eq_of_le h.1 h.2

theorem toInt_add_ofInt_of_holds {n : Int} (h : Holds (a.toInt + n)) :
    (a + Int32.ofInt n).toInt = a.toInt + n := by
  rw [← Int32.ofInt_toInt a, ← Int32.ofInt_add, Int32.ofInt_toInt, Int32.toInt_ofInt]
  exact Int.bmod_eq_of_le h.1 h.2

theorem toInt_whole_eq_pixel (w : Word) : w.whole.toInt = w.pixel := toInt_whole w

end Word

/-! ## Computations -/

namespace Exact

variable {α β : Type}

@[simp] theorem value_pure (a : α) : (pure a : Exact α).value = a := rfl

@[simp] theorem value_bind (x : Exact α) (f : α → Exact β) : (x >>= f).value = (f x.value).value := rfl

@[simp] theorem value_result (n : Int) : (result n).value = n := rfl

@[simp] theorem fits_pure (a : α) : (pure a : Exact α).Fits := List.forall_mem_nil _

@[simp] theorem fits_bind (x : Exact α) (f : α → Exact β) :
    (x >>= f).Fits ↔ x.Fits ∧ (f x.value).Fits := List.forall_mem_append

@[simp] theorem fits_result (n : Int) : (result n).Fits ↔ Word.Holds n := List.forall_mem_singleton

end Exact

/-! ## The active area -/

namespace Scene

/-- A position between the ends of a screen, as it is tested in words. -/
theorem value_between {position offset size margin : Word}
    (fits : (between position.toInt offset.toInt size.toInt margin.toInt).Fits) :
    (between position.toInt offset.toInt size.toInt margin.toInt).value =
      (decide (offset - margin < position) && decide (position < offset + (size + margin))) := by
  unfold between at fits ⊢
  rw [fits_bind, fits_result, value_result] at fits
  rw [value_bind, value_result]
  obtain ⟨near, far⟩ := fits
  have low : offset - margin < position ↔ offset.toInt - margin.toInt < position.toInt := by
    rw [Int32.lt_iff_toInt_lt, Word.toInt_sub_of_holds near]
  -- where the near end is not passed, the far one need not be a word
  by_cases passed : offset.toInt - margin.toInt < position.toInt
  · rw [if_pos passed, fits_bind, fits_bind, fits_result, fits_result, value_result] at far
    obtain ⟨border, far, -⟩ := far
    rw [← Word.toInt_add_of_holds border] at far
    have high : position < offset + (size + margin) ↔
        position.toInt < offset.toInt + (size.toInt + margin.toInt) := by
      rw [Int32.lt_iff_toInt_lt, Word.toInt_add_of_holds far, Word.toInt_add_of_holds border]
    rw [if_pos passed, decide_eq_true (low.2 passed), Bool.true_and]
    exact decide_eq_decide.2 high.symm
  · rw [if_neg passed, decide_eq_false (passed ∘ low.1)]
    rfl

/-- **Whether an entity is in the active area** is what it is in whole numbers. -/
theorem value_exactBounds {s : Scene} {e : Entity} {vertical : Bool} (fits : (s.exactBounds e vertical).Fits) :
    (s.exactBounds e vertical).value = if vertical then s.inBounds e else s.inHorizontalBounds e := by
  unfold exactBounds at fits ⊢
  rw [fits_bind, fits_bind] at fits
  obtain ⟨x, y, -⟩ := fits
  rw [← Word.toInt_whole_eq_pixel] at x y
  rw [value_bind, value_bind, ← Word.toInt_whole_eq_pixel, ← Word.toInt_whole_eq_pixel, value_between x,
    value_between y]
  cases vertical
  · exact Bool.and_true _
  · rfl

end Scene

/-! ## Sprites -/

namespace Drawing

/-- Commands draw sprites where a computation places them, if it fits. -/
def Draws (commands : List DrawCommand) (x : Exact (List Placed)) : Prop :=
  x.Fits → commands.filterMap DrawCommand.placed? = x.value

namespace Draws

variable {commands : List DrawCommand}

theorem nothing : Draws [] (pure []) := fun _ => rfl

/-- A computation behind one whose value is known if it fits. -/
theorem bind {α : Type} {x : Exact α} {f : α → Exact (List Placed)}
    (h : x.Fits → Draws commands (f x.value)) : Draws commands (x >>= f) := by
  intro fits
  obtain ⟨first, rest⟩ := (fits_bind x f).1 fits
  exact h first rest

/-- A computation behind one operation. -/
theorem result {n : Int} {f : Int → Exact (List Placed)} (h : Word.Holds n → Draws commands (f n)) :
    Draws commands (Exact.result n >>= f) :=
  bind fun holds => h ((fits_result n).1 holds)

/-- Sprites that are placed one behind the other, from a point that is computed in between. -/
theorem append {α : Type} {others : List DrawCommand} {x : Exact (List Placed)} {between : Exact α}
    {y : α → Exact (List Placed)} (hx : Draws commands x)
    (hy : between.Fits → Draws others (y between.value)) :
    Draws (commands ++ others) (do
      let here ← x
      let next ← between
      let others ← y next
      return here ++ others) := by
  intro fits
  simp only [fits_bind, fits_pure, and_true] at fits
  obtain ⟨first, middle, last⟩ := fits
  rw [List.filterMap_append, hx first, hy middle last]
  rfl

end Draws

variable {m : Machine} {object : Nat}

theorem frame?_eq (m : Machine) (object : Nat) (number : Word) :
    frame? m object number = frameAt? m object number.toInt := by
  unfold frame? frameAt? Word.index?
  split <;> rfl

/-- A sprite that is drawn with its pivot at a point. -/
theorem draws_moved {x y pivotX pivotY : Word} {effect : Option SpriteEffect} {d : SpriteDraw}
    (flat : effect.bind SpriteEffect.pivot? = none) (atX : d.x = x + pivotX) (atY : d.y = y + pivotY) :
    Draws [.sprite effect d] (exactMoved x.toInt y.toInt pivotX pivotY) := by
  refine .result fun holdsX => .result fun holdsY _ => ?_
  show [(⟨d.x.toInt, d.y.toInt, effect.bind SpriteEffect.pivot?⟩ : Placed)] = _
  rw [atX, atY, flat, Word.toInt_add_of_holds holdsX, Word.toInt_add_of_holds holdsY]
  rfl

theorem draws_sprite (number x y : Word) :
    Draws (sprite? m object number x y).toList (exactSprite m object number.toInt x.toInt y.toInt) := by
  unfold sprite? exactSprite
  rw [frame?_eq]
  cases frameAt? m object number.toInt with
  | none => exact .nothing
  | some f => exact draws_moved rfl rfl rfl

theorem draws_animation (e : Entity) (x y : Word) :
    Draws (animation? m e x y).toList (exactAnimation m e x.toInt y.toInt) := by
  unfold animation? exactAnimation
  cases animationFrame? m e with
  | none => exact .nothing
  | some f =>
    refine draws_moved ?_ rfl rfl
    split <;> rfl

/-- An effect that knows a pivot knows the negated pivot of the frame. -/
theorem eq_of_pivot? {kind : Word} {e : Entity} {f : SpriteFrame} {effect : SpriteEffect}
    (chosen : effect? kind e f = some effect) {pivot : Int × Int} (known : effect.pivot? = some pivot) :
    pivot = ((-f.pivotX).toInt, (-f.pivotY).toInt) := by
  unfold effect? at chosen
  split at chosen
  case h_6 => cases chosen
  all_goals
    obtain rfl := Option.some.inj chosen
    cases known
  all_goals rfl

theorem draws_spriteEffect (number kind x y : Word) :
    Draws (spriteEffect? m object number kind x y).toList
      (exactSpriteEffect m object number.toInt kind x.toInt y.toInt) := by
  unfold spriteEffect? exactSpriteEffect
  rw [frame?_eq]
  cases frameAt? m object number.toInt with
  | none => exact .nothing
  | some f =>
    -- the pivot is negated in front of the choice of an effect
    refine .result fun holdsX => .result fun holdsY => ?_
    rw [← Word.toInt_neg_of_holds holdsX, ← Word.toInt_neg_of_holds holdsY]
    show Draws (effect? kind (m.entity object) f >>= _).toList _
    cases chosen : effect? kind (m.entity object) f with
    | none => exact .nothing
    | some effect =>
      have turned {pivot : Int × Int} (known : effect.pivot? = some pivot) :
          Draws [.sprite (some effect) (spriteOf m object f x y)]
            (pure [{ x := x.toInt, y := y.toInt, pivot := some ((-f.pivotX).toInt, (-f.pivotY).toInt) }]) := by
        intro _
        rw [← eq_of_pivot? chosen known, ← known]
        rfl
      cases effect with
      | scale => exact turned rfl
      | rotate => exact turned rfl
      | rotoZoom => exact turned rfl
      | ink => exact draws_moved rfl rfl rfl
      | flip => exact draws_moved rfl rfl rfl

/-! ### Places on the screen -/

theorem Screen.place_eq {s : Screen} {x y : Word} (fits : (s.exactPlace x y).Fits) :
    (s.exactPlace x y).value = ((s.place x y).1.toInt, (s.place x y).2.toInt) := by
  unfold Screen.exactPlace Screen.place at *
  simp only [fits_bind, fits_result, value_result, value_bind, value_pure, ← Word.toInt_whole_eq_pixel] at *
  rw [Word.toInt_sub_of_holds fits.1, Word.toInt_sub_of_holds fits.2.1]

/-! ### Numbers and titles -/

theorem draws_digit (o : Operands) (place : Nat) :
    Draws (digitAt m object o place)
      (exactDigit m object o place (o[1] - Word.ofNat place * o[5]).toInt) := by
  unfold digitAt exactDigit
  split
  · refine .result fun holds => ?_
    rw [← Word.toInt_add_ofInt_of_holds holds]
    exact draws_sprite _ _ _
  · exact .nothing

/-- The digits from a place on. -/
theorem draws_digits {o : Operands} (left place : Nat) :
    Draws ((List.range' place left).flatMap (digitAt m object o))
      (exactDigits m object o left place (o[1] - Word.ofNat place * o[5]).toInt) := by
  induction left generalizing place with
  | zero => exact .nothing
  | succ left ih =>
    rw [List.range'_succ, List.flatMap_cons, exactDigits]
    refine .append (draws_digit o place) fun holds => ?_
    rw [value_result, ← Word.toInt_sub_of_holds ((fits_result _).1 holds), sub_place]
    exact ih (place + 1)

theorem draws_numbers (o : Operands) :
    Draws (digits m object o) (exactDigits m object o (min (o[4].index?.getD 0) digitLimit) 0 o[1].toInt) := by
  have start : o[1] - Word.ofNat 0 * o[5] = o[1] := by
    show o[1] - (0 : Word) * o[5] = o[1]
    grind
  have whole := @draws_digits m object o (min (o[4].index?.getD 0) digitLimit) 0
  rw [start, ← List.range_eq_range'] at whole
  exact whole

/-- Where the character behind another one begins. -/
theorem value_exactNext {l : Lettering} {x : Word} {c : Char} (fits : (exactNext m object l x.toInt c).Fits) :
    (exactNext m object l x.toInt c).value = (x + advance m object l c).toInt := by
  unfold exactNext at fits ⊢
  rw [fits_bind, fits_result] at fits
  obtain ⟨first, last⟩ := fits
  have moved : (exactAdvance m object l c).value = (advance m object l c).toInt := by
    unfold exactAdvance at first ⊢
    unfold advance
    cases known : glyph? c with
    | none =>
      rw [known] at first
      exact (Word.toInt_add_of_holds ((fits_result _).1 first)).symm
    | some g =>
      rw [known] at first
      dsimp only at first ⊢
      rw [fits_bind, fits_result, value_result] at first
      obtain ⟨number, first⟩ := first
      rw [value_bind, value_result, Option.bind_some, frame?_eq, Word.toInt_add_of_holds number]
      cases found : frameAt? m object (l.first.toInt + g.toInt) with
      | none =>
        rw [found] at first
        exact (Word.toInt_add_of_holds ((fits_result _).1 first)).symm
      | some f =>
        rw [found] at first
        exact (Word.toInt_add_of_holds ((fits_result _).1 first)).symm
  rw [moved] at last
  rw [value_bind, value_result, moved, Word.toInt_add_of_holds last]

theorem value_exactEnd {l : Lettering} {x : Word} {text : Text}
    (fits : (exactEnd m object l x.toInt text).Fits) :
    (exactEnd m object l x.toInt text).value = (text.foldl (fun w c => w + advance m object l c) x).toInt := by
  induction text generalizing x with
  | nil => rfl
  | cons c rest ih =>
    rw [exactEnd, fits_bind] at fits
    obtain ⟨first, rest⟩ := fits
    rw [value_exactNext first] at rest
    rw [exactEnd, value_bind, value_exactNext first, ih rest]
    rfl

theorem draws_letter (l : Lettering) (x : Word) (c : Char) :
    Draws ((glyph? c).bind fun g => sprite? m object (l.first + g) x l.y).toList
      (exactLetter m object l x.toInt c) := by
  unfold exactLetter
  cases glyph? c with
  | none => exact .nothing
  | some g =>
    refine .result fun holds => ?_
    rw [← Word.toInt_add_of_holds holds]
    exact draws_sprite _ _ _

theorem draws_letters (l : Lettering) (x : Word) (text : Text) :
    Draws (letters m object l x text) (exactLetters m object l x.toInt text) := by
  induction text generalizing x with
  | nil => exact .nothing
  | cons c rest ih =>
    refine .append (draws_letter l x c) fun fits => ?_
    rw [value_exactNext fits]
    exact ih _

/-- Where a title of some width begins. -/
theorem value_exactStart {o : Operands} {width : Word} (fits : (exactStart o width.toInt).Fits) :
    (exactStart o width.toInt).value =
      (if o[3] = 1 then o[1] - width else if o[3] = 2 then o[1] - width / 2 else o[1]).toInt := by
  unfold exactStart at fits ⊢
  split
  case isTrue right =>
    rw [if_pos right] at fits
    exact (Word.toInt_sub_of_holds ((fits_result _).1 fits)).symm
  case isFalse left =>
    rw [if_neg left] at fits
    split
    case isTrue middle =>
      have half : (width / 2).toInt = width.toInt.tdiv 2 := Int32.toInt_div_of_ne_right _ _ (by decide)
      rw [if_pos middle, ← half] at fits
      rw [← half]
      exact (Word.toInt_sub_of_holds ((fits_result _).1 fits)).symm
    case isFalse => rfl

theorem draws_title (o : Operands) : Draws (title m object o) (exactTitle m object o) := by
  unfold title exactTitle
  refine .bind fun width => ?_
  rw [← Int32.toInt_zero] at width ⊢
  rw [value_exactEnd width]
  refine .bind fun start => ?_
  rw [value_exactStart start]
  exact draws_letters _ _ _

/-! ### Instructions -/

/-- **A drawing instruction draws its sprites where they are in whole numbers**, if no result on the way is
beyond the words. -/
theorem draws_exactly (m : Machine) (object : Nat) (op : Drawing) :
    Draws (op.commands m object) (op.exactly m object) := by
  cases op with
  | sprite | spriteXY =>
    refine .bind fun fits => ?_
    rw [Screen.place_eq fits]
    exact draws_sprite _ _ _
  | spriteScreenXY => exact draws_sprite _ _ _
  | spriteFX =>
    refine .bind fun fits => ?_
    rw [Screen.place_eq fits]
    exact draws_spriteEffect _ _ _ _
  | spriteScreenFX => exact draws_spriteEffect _ _ _ _
  | numbers => exact draws_numbers _
  | actName => exact draws_title _
  | objectAnimation =>
    refine .bind fun fits => ?_
    rw [Screen.place_eq fits]
    exact draws_animation _ _ _
  | playerAnimation =>
    unfold commands exactly
    dsimp only
    split
    · exact .nothing
    · refine .bind fun fits => ?_
      rw [Screen.place_eq fits]
      exact draws_animation _ _ _
  | tintRect | rect | lifeIcon | text | scene3D | clearScreen | screenFade => exact fun _ => rfl

end Drawing

end StageScript
