import Mathlib.Data.List.Induction
import StageScript.Proofs.Source.Numeral

/-! # The grammar of integers
Which texts are integers and which numbers they stand for, without regard to how they are read.
* `Numeral.Digit`, `Numeral.Positional` — digits, and the number that they make from left to right;
* `Numeral.Denotes` — a sign may stand in front of decimal digits, or of `0x` and hexadecimal digits;
* **`Numeral.denotes_iff`** — these are the literals, with their numbers;
* **`Numeral.parse?_eq_some_iff`** — an integer is read exactly where one is written, as its number
  modulo `2^32`, and the digits of every word are read back. -/

namespace StageScript

namespace Numeral

/-! ## Grammar -/

/-- The digits, each at the place of its value. -/
def digitMarks : Text := "0123456789abcdef".toList

/-- Whether a character is the digit of a value. Letters may have either case. -/
def Digit (radix : Nat) (c : Char) (value : Nat) : Prop :=
  value < radix ∧ digitMarks[value]? = some c.toLower

/-- **The number that digits make**, of which there is one at least. -/
inductive Positional (radix : Nat) : Text → Nat → Prop
  | digit {c : Char} {d : Nat} (last : Digit radix c d) : Positional radix [c] d
  /-- A further digit moves those in front of it by one place. -/
  | behind {front : Text} {n : Nat} {c : Char} {d : Nat} (others : Positional radix front n)
      (last : Digit radix c d) : Positional radix (front ++ [c]) (n * radix + d)

/-- A number without a sign. -/
inductive Magnitude : Text → Nat → Prop
  | decimal {digits : Text} {n : Nat} (made : Positional 10 digits n) : Magnitude digits n
  | hexadecimal {digits : Text} {n : Nat} {mark : Char} (isMark : mark = 'x' ∨ mark = 'X')
      (made : Positional 16 digits n) : Magnitude ('0' :: mark :: digits) n

/-- **What a text stands for as an integer.** -/
inductive Denotes : Text → Int → Prop
  | unsigned {text : Text} {n : Nat} (magnitude : Magnitude text n) : Denotes text n
  | plus {text : Text} {n : Nat} (magnitude : Magnitude text n) : Denotes ('+' :: text) n
  | minus {text : Text} {n : Nat} (magnitude : Magnitude text n) : Denotes ('-' :: text) (-n)

/-! ## Digits -/

variable {base n d : Nat} {c : Char} {digits text : Text}

/-- Where the sixteen digits stand among the characters. -/
theorem map_digitMarks : ∀ d < 16,
    digitMarks[d]?.map Char.toNat = some (if d < 10 then 48 + d else 87 + d) := by
  decide

/-- A digit stands among the numerals, or among the small letters if it is put in lower case. -/
theorem digit_iff (small : base ≤ 16) :
    Digit base c d ↔ d < base ∧ c.toLower.toNat = if d < 10 then 48 + d else 87 + d := by
  rw [Digit]
  refine and_congr_right fun below => ?_
  obtain ⟨mark, here, place⟩ := Option.map_eq_some_iff.1 (map_digitMarks d (by omega))
  rw [here, Option.some.injEq, ← Char.toNat_inj, place]
  exact eq_comm

/-- **A character is read as a digit** exactly if it is one. -/
theorem digit?_eq_some_iff (small : base ≤ 16) : digit? base c = some d ↔ Digit base c d := by
  have lower : ¬ (65 ≤ c.toLower.toNat ∧ c.toLower.toNat ≤ 90) := by
    rcases Text.toLower_eq c with ⟨own, noCapital⟩ | ⟨moved, least, most⟩
    · rw [own]
      exact noCapital
    · omega
  rw [digit_iff small, ← digit?_toLower, digit?_eq, Option.filter_eq_some_iff]
  generalize c.toLower.toNat = place at lower
  split
  · simp only [Option.some.injEq, decide_eq_true_eq]
    split <;> omega
  · split
    · simp only [Option.some.injEq, decide_eq_true_eq]
      split <;> omega
    · -- a character in lower case is no capital
      simp only [reduceCtorEq, false_and, false_iff]
      split <;> omega

/-- Digits of a number are read one by one. -/
theorem digits?_isSome {value : Word} (read : (digits? base value digits).isSome) :
    ∀ c ∈ digits, (digit? base c).isSome := by
  induction digits generalizing value with
  | nil => exact List.forall_mem_nil _
  | cons c digits ih =>
    rw [digits?] at read
    cases known : digit? base c with
    | none =>
      rw [known] at read
      cases read
    | some d =>
      rw [known] at read
      exact List.forall_mem_cons.2 ⟨by rw [known]; rfl, ih read⟩

theorem place_concat (front : Text) (c : Char) :
    Literal.place base 0 (front ++ [c]) =
      Literal.place base 0 front * base + (digit? base c).getD 0 := by
  simp [Literal.place]

/-- **Digits make a number** exactly if each of them is one and there are any. -/
theorem positional_iff (small : base ≤ 16) :
    Positional base digits n ↔
      digits ≠ [] ∧ (∀ c ∈ digits, (digit? base c).isSome) ∧ Literal.place base 0 digits = n := by
  constructor
  · intro made
    induction made with
    | digit last =>
      have known := (digit?_eq_some_iff small).2 last
      simp [Literal.place, known]
    | behind _ last ih =>
      obtain ⟨_, valid, value⟩ := ih
      have known := (digit?_eq_some_iff small).2 last
      refine ⟨List.append_ne_nil_of_right_ne_nil _ (List.cons_ne_nil _ _), ?_, ?_⟩
      · intro c member
        rcases List.mem_append.1 member with inFront | isLast
        · exact valid c inFront
        · rw [List.mem_singleton.1 isLast, known]
          rfl
      · rw [place_concat, value, known, Option.getD_some]
  · rintro ⟨written, valid, rfl⟩
    -- the last digit counts once, so digits are taken off at the end
    induction digits using List.reverseRecOn with
    | nil => exact absurd rfl written
    | append_singleton front c ih =>
      obtain ⟨d, known⟩ := Option.isSome_iff_exists.1 (valid c (by simp))
      have last := (digit?_eq_some_iff small).1 known
      rw [place_concat, known, Option.getD_some]
      by_cases first : front = []
      · subst first
        simpa [Literal.place] using Positional.digit last
      · exact .behind (ih first fun c member => valid c (List.mem_append_left _ member)) last

/-! ## Literals -/

/-- **The texts that stand for integers are those of the literals.** -/
theorem denotes_iff {value : Int} :
    Denotes text value ↔ ∃ l : Literal, l.text = text ∧ l.value = value := by
  constructor
  -- The sign does not touch the digits, so the magnitude is read once for all three.
  · have unsigned (minus? : Option Bool) {text : Text} {n : Nat} (magnitude : Magnitude text n) :
        ∃ l : Literal, l.minus? = minus? ∧ l.system.mark ++ l.digits = text ∧
          Literal.place l.system.radix 0 l.digits = n := by
      cases magnitude with
      | decimal made =>
        obtain ⟨written, valid, value⟩ := (positional_iff (by decide)).1 made
        exact ⟨⟨minus?, .decimal, _, written, valid⟩, rfl, rfl, value⟩
      | hexadecimal isMark made =>
        obtain ⟨written, valid, value⟩ := (positional_iff (by decide)).1 made
        rcases isMark with rfl | rfl
        · exact ⟨⟨minus?, .hexadecimal false, _, written, valid⟩, rfl, rfl, value⟩
        · exact ⟨⟨minus?, .hexadecimal true, _, written, valid⟩, rfl, rfl, value⟩
    intro denotes
    cases denotes with
    | unsigned magnitude =>
      obtain ⟨l, sign, body, value⟩ := unsigned none magnitude
      exact ⟨l, by simp [Literal.text, Literal.sign, sign, body], by simp [Literal.value, sign, value]⟩
    | plus magnitude =>
      obtain ⟨l, sign, body, value⟩ := unsigned (some false) magnitude
      exact ⟨l, by simp [Literal.text, Literal.sign, sign, body], by simp [Literal.value, sign, value]⟩
    | minus magnitude =>
      obtain ⟨l, sign, body, value⟩ := unsigned (some true) magnitude
      exact ⟨l, by simp [Literal.text, Literal.sign, sign, body], by simp [Literal.value, sign, value]⟩
  · rintro ⟨⟨minus?, system, digits, written, valid⟩, rfl, rfl⟩
    have magnitude : Magnitude (system.mark ++ digits) (Literal.place system.radix 0 digits) := by
      cases system with
      | decimal => exact .decimal ((positional_iff (by decide)).2 ⟨written, valid, rfl⟩)
      | hexadecimal capital =>
        refine .hexadecimal ?_ ((positional_iff (by decide)).2 ⟨written, valid, rfl⟩)
        cases capital
        · exact .inl rfl
        · exact .inr rfl
    rcases minus? with _ | _ | _
    · exact .unsigned magnitude
    · exact .plus magnitude
    · exact .minus magnitude

/-- Digits behind a mark are those of a literal, whatever its sign. -/
theorem exists_body (minus? : Option Bool) (read : (digits? (radix text).1 0 (radix text).2).isSome)
    (written : (radix text).2 ≠ []) :
    ∃ l : Literal, l.minus? = minus? ∧ l.system.mark ++ l.digits = text := by
  have valid := digits?_isSome read
  generalize shape : radix text = parts at valid written
  unfold radix at shape
  split at shape
  · subst shape
    exact ⟨⟨minus?, .hexadecimal false, _, written, valid⟩, rfl, rfl⟩
  · subst shape
    exact ⟨⟨minus?, .hexadecimal true, _, written, valid⟩, rfl, rfl⟩
  · subst shape
    exact ⟨⟨minus?, .decimal, _, written, valid⟩, rfl, rfl⟩

/-- A sign is the one that is split off, and the rest is what stands behind it. -/
theorem exists_sign (text : Text) :
    ∃ minus? : Option Bool, ∀ l : Literal, l.minus? = minus? →
      l.system.mark ++ l.digits = (sign text).2 → l.text = text := by
  unfold sign
  split
  · exact ⟨some true, fun l minus rest => by simp [Literal.text, Literal.sign, minus, rest]⟩
  · exact ⟨some false, fun l plus rest => by simp [Literal.text, Literal.sign, plus, rest]⟩
  · exact ⟨none, fun l none_ rest => by simp [Literal.text, Literal.sign, none_, rest]⟩

/-- **A text that is read as an integer is written as a literal.** -/
theorem exists_literal {w : Word} (read : parse? text = some w) : ∃ l : Literal, l.text = text := by
  rw [parse?] at read
  dsimp only at read
  split at read
  · cases read
  · next some_ =>
    have written : (radix (sign text).2).2 ≠ [] := fun empty => some_ (by rw [empty]; rfl)
    have known : (digits? (radix (sign text).2).1 0 (radix (sign text).2).2).isSome := by
      rw [← Option.isSome_map, read]
      rfl
    obtain ⟨minus?, signed⟩ := exists_sign text
    obtain ⟨l, sign, body⟩ := exists_body minus? known written
    exact ⟨l, signed l sign body⟩

/-! ## Numbers that are written -/

/-- The digits of a number make it. -/
theorem positional_ofNat (n : Nat) : Positional 10 (ofNat n) n := by
  induction n using Nat.strongRecOn with
  | ind n ih =>
    have digit {d : Nat} (below : d < 10) : Digit 10 (digitChar d) d :=
      (digit?_eq_some_iff (by decide)).1 (digit?_digitChar below)
    rw [ofNat]
    split
    · next small => exact .digit (digit small)
    · have whole := Nat.div_add_mod' n 10
      have made := Positional.behind (ih (n / 10) (by omega)) (digit (d := n % 10) (by omega))
      rwa [whole] at made

/-- An integer in decimal digits stands for itself. -/
theorem denotes_ofInt (i : Int) : Denotes (ofInt i) i := by
  have made : Magnitude (ofNat i.natAbs) i.natAbs := .decimal (positional_ofNat _)
  rw [ofInt]
  split
  · have same : -(i.natAbs : Int) = i := by omega
    have denotes := Denotes.minus made
    rwa [same] at denotes
  · have same : (i.natAbs : Int) = i := by omega
    have denotes := Denotes.unsigned made
    rwa [same] at denotes

/-- What stands for a number is read as its word. -/
theorem Denotes.parse?_eq {value : Int} (denotes : Denotes text value) :
    parse? text = some (Int32.ofInt value) := by
  obtain ⟨l, rfl, rfl⟩ := denotes_iff.1 denotes
  exact l.parse?_text

/-- **Integers are read exactly where the grammar has them**, as their numbers modulo `2^32`, and every
word is read back from its decimal digits. -/
theorem parse?_eq_some_iff :
    (∀ (text : Text) (w : Word), parse? text = some w ↔
      ∃ value : Int, Denotes text value ∧ w.toInt = value.bmod 0x100000000) ∧
    ∀ w : Word, parse? (ofWord w) = some w := by
  constructor
  · intro text w
    constructor
    · intro read
      obtain ⟨l, rfl⟩ := exists_literal read
      obtain rfl := Option.some.inj (l.parse?_text.symm.trans read)
      exact ⟨l.value, denotes_iff.2 ⟨l, rfl, rfl⟩, Int32.toInt_ofInt ..⟩
    · rintro ⟨value, denotes, reduced⟩
      rw [denotes.parse?_eq, Option.some.injEq, ← Int32.toInt_inj, reduced]
      exact Int32.toInt_ofInt ..
  · intro w
    rw [ofWord, (denotes_ofInt w.toInt).parse?_eq, Int32.ofInt_toInt]

example : parse? "-0x80000000".toList = some Int32.minValue := by decide

end Numeral

end StageScript
