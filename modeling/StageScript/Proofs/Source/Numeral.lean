import StageScript.Text.Numeral

/-! # Numerals read back
The decimal digits of a number are read as that number, and a name that is the same as they are up to
the case of letters is equal to them.
* **`Numeral.parse?_ofNat`**, **`Numeral.natural?_ofNat`** — the digits of a number are read back;
* **`Numeral.eq_of_sameName_ofNat`** — digits have no case;
* **`Numeral.parse?_congr`** — nor has the value of an integer;
* **`Literal.parse?_text`** — an integer literal has the value of its digits, reduced to a word. -/

namespace StageScript

/-! ## Letters and case -/

namespace Text

/-- A character is its own lower case, or its lower case stands in its place among the small letters. -/
theorem toLower_eq (c : Char) :
    c.toLower = c ∧ ¬ (65 ≤ c.toNat ∧ c.toNat ≤ 90) ∨
      c.toLower.toNat = c.toNat + 32 ∧ 65 ≤ c.toNat ∧ c.toNat ≤ 90 := by
  unfold Char.toLower
  split
  · next upper =>
    have least : 65 ≤ c.val.toNat := upper.1
    have most : c.val.toNat ≤ 90 := upper.2
    have apart : ('a'.val - 'A'.val).toNat = 32 := rfl
    refine .inr ⟨?_, least, most⟩
    show (c.val + ('a'.val - 'A'.val)).toNat = c.val.toNat + 32
    rw [UInt32.toNat_add, apart]
    omega
  · next other => exact .inl ⟨rfl, other⟩

/-- A character that is no letter has no other case. -/
theorem eq_of_toLower_eq {c e : Char} (other : e.isAlpha = false) (same : c.toLower = e.toLower) :
    c = e := by
  have noLetter : ¬ (65 ≤ e.toNat ∧ e.toNat ≤ 90) ∧ ¬ (97 ≤ e.toNat ∧ e.toNat ≤ 122) := by
    obtain ⟨noUpper, noLower⟩ := Bool.or_eq_false_iff.1 other
    refine ⟨of_decide_eq_false noUpper, fun ⟨least, most⟩ => ?_⟩
    rcases Bool.and_eq_false_iff.1 noLower with below | above
    · exact of_decide_eq_false below least
    · exact of_decide_eq_false above most
  rcases toLower_eq e with ⟨own, -⟩ | ⟨-, upper⟩
  · rcases toLower_eq c with ⟨own', -⟩ | ⟨lower, least, most⟩
    · rw [own, own'] at same
      exact same
    · rw [same, own] at lower
      omega
  · exact absurd upper noLetter.1

theorem sameName_comm (a b : Text) : sameName a b = sameName b a := by
  rw [Bool.eq_iff_iff, sameName_iff, sameName_iff]
  exact eq_comm

/-- Two spellings of a name are the same to any other name. -/
theorem sameName_congr {a b : Text} (same : sameName a b = true) (name : Text) :
    sameName name a = sameName name b := by
  rw [Bool.eq_iff_iff, sameName_iff, sameName_iff, sameName_iff.1 same]

/-- What a check finds true of each of some characters is true of them. -/
theorem forall_mem_of_all {P : Char → Prop} [DecidablePred P] {text : Text}
    (checked : text.all (decide <| P ·) = true) : ∀ c ∈ text, P c :=
  fun c member => of_decide_eq_true (List.all_eq_true.1 checked c member)

/-- A name has the same characters as another spelling of it, letters apart. -/
theorem mem_of_sameName {a b : Text} (same : sameName a b = true) {c : Char}
    (other : c.isAlpha = false) (member : c ∈ b) : c ∈ a := by
  have lower := List.mem_map_of_mem (f := Char.toLower) member
  rw [← sameName_iff.1 same] at lower
  obtain ⟨c', member', eq⟩ := List.mem_map.1 lower
  obtain rfl := eq_of_toLower_eq other eq
  exact member'

end Text

namespace Numeral

/-! ## Digits -/

/-- A decimal digit below ten. -/
def IsDigit (c : Char) : Prop := ∃ d, d < 10 ∧ c = digitChar d

theorem isDigit_digitChar {d : Nat} (h : d < 10) : IsDigit (digitChar d) := ⟨d, h, rfl⟩

/-- What holds of the ten digits holds of every digit. -/
theorem IsDigit.of_forall {c : Char} (h : IsDigit c) {P : Char → Prop}
    (all : ∀ d, d < 10 → P (digitChar d)) : P c := by
  obtain ⟨d, small, rfl⟩ := h
  exact all d small

/-- A number is written in digits. -/
theorem isDigit_of_mem_ofNat {n : Nat} {c : Char} (h : c ∈ ofNat n) : IsDigit c := by
  induction n using Nat.strongRecOn with
  | ind n ih =>
    rw [ofNat] at h
    by_cases small : n < 10
    · rw [if_pos small, List.mem_singleton] at h
      exact ⟨n, small, h⟩
    · rw [if_neg small, List.mem_append, List.mem_singleton] at h
      rcases h with front | rfl
      · exact ih (n / 10) (by omega) front
      · exact isDigit_digitChar (by omega)

theorem digit?_digitChar {d : Nat} (h : d < 10) : digit? 10 (digitChar d) = some d := by
  revert d
  decide

/-- A character that reads like a digit in lower case is that digit. -/
theorem IsDigit.eq_of_toLower_eq {c e : Char} (h : IsDigit e) (same : c.toLower = e.toLower) :
    c = e :=
  Text.eq_of_toLower_eq (h.of_forall (P := fun e => e.isAlpha = false) (by decide)) same

/-- **Digits have no case.** -/
theorem eq_of_sameName_ofNat {name : Text} {n : Nat} (h : Text.sameName name (ofNat n) = true) :
    name = ofNat n := by
  have digits : ∀ c ∈ ofNat n, IsDigit c := fun c => isDigit_of_mem_ofNat
  rw [Text.sameName_iff] at h
  generalize ofNat n = text at h digits
  induction text generalizing name with
  | nil => simpa using h
  | cons e text ih =>
    cases name with
    | nil => cases h
    | cons c name =>
      obtain ⟨first, rest⟩ := List.cons.inj h
      rw [(digits e List.mem_cons_self).eq_of_toLower_eq first,
        ih rest fun c member => digits c (List.mem_cons_of_mem _ member)]

/-! ## Numbers -/

theorem digits?_append (radix : Nat) (value : Word) (front back : Text) :
    digits? radix value (front ++ back) =
      (digits? radix value front).bind fun value => digits? radix value back := by
  induction front generalizing value with
  | nil => rfl
  | cons c front ih =>
    rw [List.cons_append, digits?, digits?]
    cases digit? radix c with
    | none => rfl
    | some d => exact ih _

theorem digits?_ofNat (n : Nat) : digits? 10 0 (ofNat n) = some (Word.ofNat n) := by
  induction n using Nat.strongRecOn with
  | ind n ih =>
    rw [ofNat]
    by_cases small : n < 10
    · rw [if_pos small, digits?, digit?_digitChar small]
      dsimp only
      rw [digits?, Int32.zero_mul, Int32.zero_add]
    · rw [if_neg small, digits?_append, ih (n / 10) (by omega), Option.bind_some, digits?,
        digit?_digitChar (by omega)]
      dsimp only
      rw [digits?, Word.ofNat, Word.ofNat, Word.ofNat, ← Int32.ofNat_mul, ← Int32.ofNat_add,
        Nat.div_add_mod']
      rfl

theorem naturalDigits?_append (value : Nat) (front back : Text) :
    naturalDigits? value (front ++ back) =
      (naturalDigits? value front).bind fun value => naturalDigits? value back := by
  induction front generalizing value with
  | nil => rfl
  | cons c front ih =>
    rw [List.cons_append, naturalDigits?, naturalDigits?]
    cases digit? 10 c with
    | none => rfl
    | some d => exact ih _

theorem naturalDigits?_ofNat (n : Nat) : naturalDigits? 0 (ofNat n) = some n := by
  induction n using Nat.strongRecOn with
  | ind n ih =>
    rw [ofNat]
    by_cases small : n < 10
    · rw [if_pos small, naturalDigits?, digit?_digitChar small, Option.bind_some, naturalDigits?,
        Nat.zero_mul, Nat.zero_add]
    · rw [if_neg small, naturalDigits?_append, ih (n / 10) (by omega), Option.bind_some,
        naturalDigits?, digit?_digitChar (by omega), Option.bind_some, naturalDigits?,
        Nat.div_add_mod']

/-- **The digits of a number are read back** as a number. -/
theorem natural?_ofNat (n : Nat) : natural? (ofNat n) = some n := by
  rw [natural?, List.isEmpty_eq_false_iff.2 (ofNat_ne_nil n), if_neg nofun, naturalDigits?_ofNat]

/-- **The digits of a number are read back** as a word. -/
theorem parse?_ofNat (n : Nat) : parse? (ofNat n) = some (Word.ofNat n) := by
  have digits : ∀ c ∈ ofNat n, IsDigit c := fun c => isDigit_of_mem_ofNat
  have noSign : sign (ofNat n) = (false, ofNat n) := by
    generalize ofNat n = text at digits
    unfold sign
    split
    · exact absurd rfl ((digits _ List.mem_cons_self).of_forall (P := (· ≠ '-')) (by decide))
    · exact absurd rfl ((digits _ List.mem_cons_self).of_forall (P := (· ≠ '+')) (by decide))
    · rfl
  have decimal : radix (ofNat n) = (10, ofNat n) := by
    generalize ofNat n = text at digits
    unfold radix
    split
    · exact absurd rfl ((digits 'x' (by simp)).of_forall (P := (· ≠ 'x')) (by decide))
    · exact absurd rfl ((digits 'X' (by simp)).of_forall (P := (· ≠ 'X')) (by decide))
    · rfl
  rw [parse?, noSign]
  dsimp only
  rw [decimal]
  dsimp only
  rw [List.isEmpty_eq_false_iff.2 (ofNat_ne_nil n), if_neg nofun, digits?_ofNat]
  rfl

/-- A word is written as a number, with a minus in front of it if it is negative. -/
theorem exists_ofWord (w : Word) : ∃ n, ofWord w = ofNat n ∨ ofWord w = '-' :: ofNat n := by
  rw [ofWord, ofInt]
  split
  · exact ⟨_, .inr rfl⟩
  · exact ⟨_, .inl rfl⟩

/-- What holds of the minus and of the ten digits holds of the characters of every word. -/
theorem of_mem_ofWord {P : Char → Prop} (minus : P '-') (digits : ∀ d, d < 10 → P (digitChar d))
    {w : Word} {c : Char} (member : c ∈ ofWord w) : P c := by
  obtain ⟨n, unsigned | negative⟩ := exists_ofWord w
  · rw [unsigned] at member
    exact (isDigit_of_mem_ofNat member).of_forall digits
  · rw [negative] at member
    rcases List.mem_cons.1 member with rfl | digit
    · exact minus
    · exact (isDigit_of_mem_ofNat digit).of_forall digits

/-- A word that is not negative is written like its number. -/
theorem ofWord_ofNat {n : Nat} (h : n < 0x80000000) : ofWord (Word.ofNat n) = ofNat n := by
  have value : (Word.ofNat n).toInt = n := Int32.toInt_ofNat_of_lt h
  rw [ofWord, value, ofInt, if_neg (by omega), Int.natAbs_natCast]

/-! ## Case -/

/-- Which digit a character is, by its place. -/
theorem digit?_eq (radix : Nat) (c : Char) :
    digit? radix c = (if 48 ≤ c.toNat ∧ c.toNat ≤ 57 then some (c.toNat - 48)
      else if 97 ≤ c.toNat ∧ c.toNat ≤ 122 then some (c.toNat - 97 + 10)
      else if 65 ≤ c.toNat ∧ c.toNat ≤ 90 then some (c.toNat - 65 + 10)
      else none).filter (· < radix) := by
  have le_iff (a b : Char) : a ≤ b ↔ a.toNat ≤ b.toNat := UInt32.le_iff_toNat_le
  unfold digit?
  simp only [Bool.and_eq_true, decide_eq_true_eq, le_iff]
  rfl

/-- Digits that are letters have both cases. -/
theorem digit?_toLower (radix : Nat) (c : Char) : digit? radix c.toLower = digit? radix c := by
  rcases Text.toLower_eq c with ⟨own, -⟩ | ⟨lower, least, most⟩
  · rw [own]
  · have place : c.toNat + 32 - 97 + 10 = c.toNat - 65 + 10 := by omega
    rw [digit?_eq, digit?_eq, lower, if_neg (by omega), if_pos (by omega), if_neg (by omega),
      if_neg (by omega), if_pos ⟨least, most⟩, place]

theorem digits?_congr {radix : Nat} {value : Word} {a b : Text} (same : Text.sameName a b = true) :
    digits? radix value a = digits? radix value b := by
  rw [Text.sameName_iff] at same
  induction a generalizing b value with
  | nil =>
    obtain rfl : b = [] := by simpa using same.symm
    rfl
  | cons c a ih =>
    cases b with
    | nil => cases same
    | cons e b =>
      obtain ⟨first, rest⟩ := List.cons.inj same
      have digit : digit? radix c = digit? radix e := by
        rw [← digit?_toLower radix c, first, digit?_toLower]
      rw [digits?, digits?, digit]
      cases digit? radix e with
      | none => rfl
      | some d => exact ih rest

/-- A sign and the mark of a hexadecimal numeral are found in every spelling. -/
theorem sign_congr {a b : Text} (same : Text.sameName a b = true) :
    (sign a).1 = (sign b).1 ∧ Text.sameName (sign a).2 (sign b).2 = true := by
  cases a with
  | nil =>
    cases b with
    | nil => exact ⟨rfl, rfl⟩
    | cons => cases same
  | cons c a =>
    cases b with
    | nil => cases same
    | cons e b =>
      have lower := Text.sameName_iff.1 same
      obtain ⟨first, rest⟩ := List.cons.inj lower
      have others := Text.sameName_iff.2 rest
      -- a sign is no letter, so it stands in both spellings or in neither
      have both (x : Char) (other : x.isAlpha = false) : c = x ↔ e = x :=
        ⟨fun here => by subst here; exact (Text.eq_of_toLower_eq other first.symm),
          fun here => by subst here; exact Text.eq_of_toLower_eq other first⟩
      by_cases minus : c = '-'
      · obtain rfl := minus
        obtain rfl := (both '-' (by decide)).1 rfl
        exact ⟨rfl, others⟩
      · by_cases plus : c = '+'
        · obtain rfl := plus
          obtain rfl := (both '+' (by decide)).1 rfl
          exact ⟨rfl, others⟩
        · have noSign {x : Char} {text : Text} (noMinus : x ≠ '-') (noPlus : x ≠ '+') :
              sign (x :: text) = (false, x :: text) := by
            unfold sign
            split
            · next eq => exact absurd (List.cons.inj eq).1 noMinus
            · next eq => exact absurd (List.cons.inj eq).1 noPlus
            · rfl
          rw [noSign minus plus, noSign (mt (both '-' (by decide)).2 minus)
            (mt (both '+' (by decide)).2 plus)]
          exact ⟨rfl, same⟩

/-- The mark of a hexadecimal numeral is a letter in either case. -/
theorem toLower_eq_x_iff (c : Char) : c.toLower = 'x' ↔ c = 'x' ∨ c = 'X' := by
  constructor
  · intro same
    rcases Text.toLower_eq c with ⟨own, -⟩ | ⟨lower, -⟩
    · exact .inl (own.symm.trans same)
    · rw [same] at lower
      have place : c.toNat = 'X'.toNat := by
        change 120 = c.toNat + 32 at lower
        change c.toNat = 88
        omega
      exact .inr (Char.toNat_inj.1 place)
  · rintro (rfl | rfl) <;> rfl

theorem radix_cons (c e : Char) (rest : Text) :
    radix (c :: e :: rest) =
      if c = '0' ∧ e.toLower = 'x' then (16, rest) else (10, c :: e :: rest) := by
  by_cases marked : c = '0' ∧ e.toLower = 'x'
  · rw [if_pos marked]
    obtain ⟨rfl, mark⟩ := marked
    rcases (toLower_eq_x_iff e).1 mark with rfl | rfl <;> rfl
  · rw [if_neg marked]
    unfold radix
    split
    · next eq =>
      cases eq
      exact absurd ⟨rfl, rfl⟩ marked
    · next eq =>
      cases eq
      exact absurd ⟨rfl, rfl⟩ marked
    · rfl

theorem radix_singleton (c : Char) : radix [c] = (10, [c]) := by
  unfold radix
  split
  · next eq => cases eq
  · next eq => cases eq
  · rfl

theorem radix_congr {a b : Text} (same : Text.sameName a b = true) :
    (radix a).1 = (radix b).1 ∧ Text.sameName (radix a).2 (radix b).2 = true := by
  have lower := Text.sameName_iff.1 same
  match a, b with
  | [], [] => exact ⟨rfl, rfl⟩
  | [], _ :: _ => cases lower
  | _ :: _, [] => cases lower
  | [_], _ :: _ :: _ => cases (List.cons.inj lower).2
  | _ :: _ :: _, [_] => cases (List.cons.inj lower).2
  | [c], [c'] =>
    rw [radix_singleton, radix_singleton]
    exact ⟨rfl, same⟩
  | c :: e :: rest, c' :: e' :: rest' =>
    obtain ⟨first, others⟩ := List.cons.inj lower
    obtain ⟨second, others⟩ := List.cons.inj others
    have zero : c = '0' ↔ c' = '0' :=
      ⟨fun here => by subst here; exact (Text.eq_of_toLower_eq (by decide) first.symm),
        fun here => by subst here; exact Text.eq_of_toLower_eq (by decide) first⟩
    rw [radix_cons, radix_cons, second]
    by_cases marked : c' = '0' ∧ e'.toLower = 'x'
    · rw [if_pos marked, if_pos ⟨zero.2 marked.1, marked.2⟩]
      exact ⟨rfl, Text.sameName_iff.2 others⟩
    · rw [if_neg marked, if_neg fun here => marked ⟨zero.1 here.1, here.2⟩]
      exact ⟨rfl, same⟩

/-- **Integers have no case**: what a text stands for does not hang on its spelling. -/
theorem parse?_congr {a b : Text} (same : Text.sameName a b = true) : parse? a = parse? b := by
  obtain ⟨sign, body⟩ := sign_congr same
  obtain ⟨base, digits⟩ := radix_congr body
  have empty : (radix (Numeral.sign a).2).2.isEmpty = (radix (Numeral.sign b).2).2.isEmpty := by
    have length := congrArg List.length (Text.sameName_iff.1 digits)
    rw [List.length_map, List.length_map] at length
    rw [Bool.eq_iff_iff, List.isEmpty_iff_length_eq_zero, List.isEmpty_iff_length_eq_zero, length]
  rw [parse?, parse?]
  dsimp only
  rw [sign, base, empty, digits?_congr digits]

end Numeral

/-! ## Literals -/

/-- How the digits of a literal are to be read. -/
inductive Notation
  | decimal
  /-- Behind `0x`, or `0X`. -/
  | hexadecimal (capital : Bool)
  deriving DecidableEq, Repr

namespace Notation

def radix : Notation → Nat
  | decimal => 10
  | hexadecimal _ => 16

/-- What stands in front of the digits. -/
def mark : Notation → Text
  | decimal => []
  | hexadecimal capital => ['0', if capital then 'X' else 'x']

end Notation

/-- An integer literal. -/
structure Literal where
  /-- The sign in front; `true` is a minus. -/
  minus? : Option Bool := none
  system : Notation := .decimal
  digits : Text
  nonempty : digits ≠ []
  valid : ∀ c ∈ digits, (Numeral.digit? system.radix c).isSome

namespace Literal

/-- The sign as it is written. -/
def sign (l : Literal) : Text :=
  match l.minus? with
  | none => []
  | some minus => [if minus then '-' else '+']

/-- The literal as it is written. -/
def text (l : Literal) : Text := l.sign ++ (l.system.mark ++ l.digits)

/-- The number that digits stand for behind others. -/
def place (radix : Nat) (value : Nat) (digits : Text) : Nat :=
  digits.foldl (fun value c => value * radix + (Numeral.digit? radix c).getD 0) value

/-- **The number that a literal stands for.** -/
def value (l : Literal) : Int :=
  let magnitude : Int := place l.system.radix 0 l.digits
  if l.minus? = some true then -magnitude else magnitude

/-- The number as far as it fits into a word. -/
def word (l : Literal) : Word := Int32.ofInt l.value

theorem digits?_eq {radix value : Nat} {digits : Text}
    (valid : ∀ c ∈ digits, (Numeral.digit? radix c).isSome) :
    Numeral.digits? radix (Word.ofNat value) digits = some (Word.ofNat (place radix value digits)) := by
  induction digits generalizing value with
  | nil => rfl
  | cons c digits ih =>
    obtain ⟨first, others⟩ := List.forall_mem_cons.1 valid
    obtain ⟨d, known⟩ := Option.isSome_iff_exists.1 first
    have step : Word.ofNat value * Word.ofNat radix + Word.ofNat d =
        Word.ofNat (value * radix + d) := by
      rw [Word.ofNat, Word.ofNat, Word.ofNat, Word.ofNat, Int32.ofNat_add, Int32.ofNat_mul]
    rw [Numeral.digits?, known]
    dsimp only
    rw [step, ih others, place, place, List.foldl_cons, known, Option.getD_some]

/-- The mark tells how to read the digits. -/
theorem radix_eq (l : Literal) :
    Numeral.radix (l.system.mark ++ l.digits) = (l.system.radix, l.digits) := by
  cases system : l.system with
  | hexadecimal capital => cases capital <;> rfl
  | decimal =>
    have valid := l.valid
    rw [system] at valid
    rw [Notation.mark, List.nil_append]
    match digits : l.digits with
    | [] => rfl
    | [c] => exact Numeral.radix_singleton c
    | c :: e :: rest =>
      rw [Numeral.radix_cons, if_neg]
      · rfl
      · rintro ⟨-, mark⟩
        have digit := valid e (by rw [digits]; exact List.mem_cons_of_mem _ List.mem_cons_self)
        rw [← Numeral.digit?_toLower, mark] at digit
        cases digit

/-- A literal without its sign begins with a digit. -/
theorem body_head?_ne {l : Literal} {c : Char} (head : (l.system.mark ++ l.digits).head? = some c) :
    c ≠ '-' ∧ c ≠ '+' := by
  cases system : l.system with
  | hexadecimal capital =>
    rw [system] at head
    obtain rfl := Option.some.inj head
    decide
  | decimal =>
    rw [system] at head
    have digit := l.valid c (List.mem_of_head? head)
    rw [system] at digit
    constructor
    · rintro rfl
      cases digit
    · rintro rfl
      cases digit

theorem sign_body (l : Literal) :
    Numeral.sign (l.system.mark ++ l.digits) = (false, l.system.mark ++ l.digits) := by
  have noSign := @body_head?_ne l
  unfold Numeral.sign
  split
  · next eq =>
    rw [eq] at noSign
    exact absurd rfl (noSign rfl).1
  · next eq =>
    rw [eq] at noSign
    exact absurd rfl (noSign rfl).2
  · rfl

/-- **A literal is read as the number that it stands for**, reduced to a word. -/
theorem parse?_text (l : Literal) : Numeral.parse? l.text = some l.word := by
  have split : Numeral.sign l.text = (decide (l.minus? = some true), l.system.mark ++ l.digits) := by
    rw [text, sign]
    match l.minus? with
    | none => exact l.sign_body
    | some true => rfl
    | some false => rfl
  rw [Numeral.parse?, split]
  dsimp only
  rw [l.radix_eq]
  dsimp only
  have number := @digits?_eq l.system.radix 0 l.digits l.valid
  rw [List.isEmpty_eq_false_iff.2 l.nonempty, if_neg Bool.false_ne_true]
  change (Numeral.digits? l.system.radix (Word.ofNat 0) l.digits).map _ = _
  rw [number, Option.map_some, word, value]
  congr 1
  by_cases minus : l.minus? = some true
  · rw [if_pos (decide_eq_true minus), if_pos minus, Int32.ofInt_neg, Int32.ofInt_eq_ofNat]
    rfl
  · rw [if_neg (by simpa using minus), if_neg minus, Int32.ofInt_eq_ofNat]
    rfl

end Literal

end StageScript
