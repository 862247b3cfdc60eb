import Mathlib.Data.List.Chain
import Mathlib.Data.List.Infix
import StageScript.Proofs.Compiler.Transparency

/-! # Infix operators in call form
The tokens of a table overlap: the last one that stands anywhere in a line is taken, and signs stand beside
operators that are made of signs.
* `Operator.IsSide` — the texts that may stand beside an operator;
* `Text.Passes` — a token begins nowhere in a text, with regard to what is behind it;
* **`Operator.find?_assignments`** — beside such texts, the assignment that is found is the one written;
* **`Rewrite.split_infix`** — an infix operator becomes a call of its opcode with its sides as operands;
* **`Rewrite.not_all_infix`** — empty brackets alone are no operand of an increment. -/

namespace StageScript

/-! ## Sides of an operator -/

namespace Operator

/-- A plus or a minus. -/
def isSign (c : Char) : Bool := c == '+' || c == '-'

/-- Whether each sign of a text is a single one directly behind an opening bracket or, if `here` says so, at
the start of the text. -/
def signsPlaced (here : Bool) : Text → Bool
  | [] => true
  | c :: text => (here || !isSign c) && signsPlaced (c == '[') text

/-- The brackets of an index. -/
def brackets : Text := ['[', ']']

/-- The marks of comparisons and of calls, and the quote. -/
def marks : Text := ['=', '<', '>', '!', '(', ')', ',', '"']

/-- The marks of the other assignments, apart from the signs. -/
def bareMarks : Text := ['*', '/', '&', '|', '^', '%']

/-- **The texts beside a comparison.** They have at most one index in brackets, and only the right one may
begin with a sign. -/
structure IsSide (right : Bool) (text : Text) : Prop where
  written : text ≠ []
  unmarked : ∀ c ∈ marks, c ∉ text
  /-- Its brackets are those of one index, if it has any. -/
  bracketed : text.filter brackets.contains = [] ∨ text.filter brackets.contains = brackets
  signed : signsPlaced right text = true

/-- **The texts beside an assignment** have no other operator in them. -/
structure IsBareSide (right : Bool) (text : Text) : Prop extends IsSide right text where
  bare : ∀ c ∈ bareMarks, c ∉ text

/-- Whether none of some characters stands in a text. -/
theorem all_not_contains_iff {text characters : Text} :
    characters.all (!text.contains ·) = true ↔ ∀ c ∈ characters, c ∉ text := by
  simp

instance (right : Bool) (text : Text) : Decidable (IsSide right text) :=
  decidable_of_iff
    (text ≠ [] ∧ marks.all (!text.contains ·) = true ∧
      (text.filter brackets.contains = [] ∨ text.filter brackets.contains = brackets) ∧
        signsPlaced right text = true)
    ⟨fun ⟨written, unmarked, bracketed, signed⟩ =>
        ⟨written, all_not_contains_iff.1 unmarked, bracketed, signed⟩,
      fun ⟨written, unmarked, bracketed, signed⟩ =>
        ⟨written, all_not_contains_iff.2 unmarked, bracketed, signed⟩⟩

instance (right : Bool) (text : Text) : Decidable (IsBareSide right text) :=
  decidable_of_iff (IsSide right text ∧ bareMarks.all (!text.contains ·) = true)
    ⟨fun ⟨side, bare⟩ => ⟨side, all_not_contains_iff.1 bare⟩,
      fun ⟨side, bare⟩ => ⟨side, all_not_contains_iff.2 bare⟩⟩

variable {right here : Bool} {text front : Text} {c : Char}

namespace IsSide

/-- No character of a side is a mark. -/
theorem ne_of_mem (side : IsSide right text) (member : c ∈ text) {mark : Char} (known : mark ∈ marks) :
    c ≠ mark := by
  rintro rfl
  exact side.unmarked c known member

/-- A side is a name or a number, or it is taken apart at its brackets. -/
theorem plain_or_bracketed (side : IsSide right text) :
    (∀ c ∈ text, Call.IsPlain c) ∨
      ∃ front index back, text = front ++ '[' :: (index ++ ']' :: back) ∧
        (∀ c ∈ front, Call.IsPlain c) ∧ (∀ c ∈ index, Call.IsPlain c) ∧
          ∀ c ∈ back, Call.IsPlain c := by
  have plain (c : Char) (member : c ∈ text) (noBracket : ¬ brackets.contains c = true) :
      Call.IsPlain c := by
    rw [List.contains_iff_mem, brackets, List.mem_cons, List.mem_singleton, not_or] at noBracket
    exact ⟨side.ne_of_mem member (by decide), side.ne_of_mem member (by decide),
      side.ne_of_mem member (by decide), noBracket⟩
  rcases side.bracketed with none_ | two
  · left
    intro c member
    exact plain c member (List.filter_eq_nil_iff.1 none_ c member)
  · right
    obtain ⟨front, more, rfl, noBracket, -, one⟩ := List.filter_eq_cons_iff.1 two
    obtain ⟨index, back, rfl, noBracket', -, none_⟩ := List.filter_eq_cons_iff.1 one
    refine ⟨front, index, back, rfl, ?_, ?_, ?_⟩
    · intro c member
      exact plain c (by simp [member]) (noBracket c member)
    · intro c member
      exact plain c (by simp [member]) (noBracket' c member)
    · intro c member
      exact plain c (by simp [member]) (List.filter_eq_nil_iff.1 none_ c member)

/-- **A side is read in a call** as it is where it stands alone. -/
theorem reads (side : IsSide right text) : Call.Reads text (Operand.split text) := by
  rcases side.plain_or_bracketed with plain | ⟨front, index, back, rfl, inFront, inIndex, inBack⟩
  · have reads := Call.reads_plain plain
    rw [reads.split_eq (Text.isLevel_plain plain)]
    exact reads
  · have reads := Call.reads_brackets inFront inIndex inBack
    rw [reads.split_eq (Text.isLevel_index inFront inIndex inBack)]
    exact reads

/-- Only of empty brackets alone nothing is left. -/
theorem split_eq_empty_iff (side : IsSide right text) : Operand.split text = {} ↔ text = brackets := by
  constructor
  · intro empty
    rcases side.plain_or_bracketed with plain | ⟨front, index, back, rfl, inFront, inIndex, inBack⟩
    · rw [(Call.reads_plain plain).split_eq (Text.isLevel_plain plain)] at empty
      exact absurd (congrArg Operand.base empty) side.written
    · have reads := Call.reads_brackets inFront inIndex inBack
      rw [reads.split_eq (Text.isLevel_index inFront inIndex inBack)] at empty
      obtain ⟨rfl, rfl⟩ := List.append_eq_nil_iff.1 (congrArg Operand.base empty)
      have noIndex := congrArg Operand.index empty
      rw [Option.filter_eq_none_iff] at noIndex
      have none_ := noIndex index rfl
      simp only [Bool.not_eq_true', Bool.not_eq_false, List.isEmpty_iff] at none_
      rw [none_]
      rfl
  · rintro rfl
    rfl

end IsSide

/-! ## Signs -/

/-- Behind a sign stands no other. -/
def Single (text : Text) : Prop := text.IsChain fun c d => isSign c = true → isSign d = false

theorem Single.of_signsPlaced (placed : signsPlaced here text = true) : Single text := by
  induction text generalizing here with
  | nil => exact .nil
  | cons c text ih =>
    obtain ⟨-, behind⟩ := Bool.and_eq_true_iff.1 placed
    have single := ih behind
    cases text with
    | nil => exact .singleton c
    | cons d text =>
      refine .cons_cons (fun sign => ?_) single
      -- the sign is no bracket, so none may follow it
      have noBracket : (c == '[') = false := by
        rw [beq_eq_false_iff_ne]
        rintro rfl
        cases sign
      rw [signsPlaced, noBracket] at behind
      simpa using (Bool.and_eq_true_iff.1 behind).1

theorem signsPlaced_of_not_isSign (none_ : ∀ c ∈ text, isSign c = false) :
    signsPlaced here text = true := by
  induction text generalizing here with
  | nil => rfl
  | cons c text ih =>
    rw [signsPlaced, none_ c List.mem_cons_self, Bool.not_false, Bool.or_true, Bool.true_and]
    exact ih fun d member => none_ d (List.mem_cons_of_mem _ member)

/-- The sign of a word stands in front of its digits. -/
theorem signsPlaced_ofWord (w : Word) : signsPlaced true (Numeral.ofWord w) = true := by
  have digits (n : Nat) : ∀ c ∈ Numeral.ofNat n, isSign c = false := by
    intro c member
    exact (Numeral.isDigit_of_mem_ofNat member).of_forall (P := (isSign · = false)) (by decide)
  obtain ⟨n, unsigned | negative⟩ := Numeral.exists_ofWord w
  · rw [unsigned]
    exact signsPlaced_of_not_isSign (digits n)
  · rw [negative, signsPlaced, Bool.true_or, Bool.true_and]
    exact signsPlaced_of_not_isSign (digits n)

/-- What stands on both sides of another character may have signs there. -/
theorem Single.append_cons {more : Text} (single : Single text) (single' : Single more)
    (mark : isSign c = false) : Single (text ++ c :: more) := by
  refine List.isChain_append.2 ⟨single, ?_, ?_⟩
  · refine List.isChain_cons.2 ⟨fun d _ sign => ?_, single'⟩
    rw [mark] at sign
    cases sign
  · intro last _ first head _
    obtain rfl := Option.some.inj head
    exact mark

/-- Two signs stand nowhere side by side. -/
theorem Single.not_pair (single : Single text) {before after : Text} {d : Char} (sign : isSign c = true)
    (sign' : isSign d = true) : text ≠ before ++ c :: d :: after := by
  intro shape
  have noSign := List.isChain_iff_forall_rel_of_append_cons_cons.1 single shape sign
  rw [noSign] at sign'
  cases sign'

/-- A sign at the end stands behind an opening bracket or has nothing in front of it. -/
theorem placed_at_end (placed : signsPlaced here (front ++ [c]) = true) (sign : isSign c = true) :
    front = [] ∧ here = true ∨ ∃ front', front = front' ++ ['['] := by
  induction front generalizing here with
  | nil =>
    rw [List.nil_append, signsPlaced, sign, Bool.and_eq_true_iff] at placed
    exact .inl ⟨rfl, by simpa using placed.1⟩
  | cons b front ih =>
    right
    rw [List.cons_append, signsPlaced, Bool.and_eq_true_iff] at placed
    rcases ih placed.2 with ⟨rfl, bracket⟩ | ⟨front', rfl⟩
    · exact ⟨[], by rw [List.nil_append, beq_iff_eq.1 bracket]⟩
    · exact ⟨b :: front', rfl⟩

/-- **A side on the left does not end in a sign**: the bracket in front of it would be left open. -/
theorem IsSide.not_isSign_last (side : IsSide false text) (shape : text = front ++ [c]) :
    isSign c = false := by
  refine Bool.eq_false_iff.2 fun sign => ?_
  subst shape
  rcases placed_at_end side.signed sign with ⟨-, here⟩ | ⟨front', rfl⟩
  · cases here
  · have noBracket : brackets.contains c = false := by
      rw [Bool.eq_false_iff, ne_eq, List.contains_iff_mem, brackets, List.mem_cons, List.mem_singleton]
      rintro (rfl | rfl) <;> cases sign
    have open_ : brackets.contains '[' = true := rfl
    have bracketed := side.bracketed
    rw [List.filter_append, List.filter_append, List.filter_singleton, List.filter_singleton, open_,
      noBracket, cond_true, cond_false, List.append_nil] at bracketed
    rcases bracketed with none_ | two
    · simp at none_
    · have last := congrArg List.getLast? two
      rw [List.getLast?_concat] at last
      cases last

end Operator

/-! ## Searching -/

namespace Text

variable {token other text rest : Text}

/-- **A token begins nowhere in a text**, with regard to what is behind it. -/
def Passes (token text rest : Text) : Prop :=
  ∀ behind, behind <:+ text → behind ≠ [] → ¬ token <+: behind ++ rest

/-- A search passes over a text in which the token begins nowhere. -/
theorem cutAt?.go_of_passes (passes : Passes token text rest) (noQuote : '"' ∉ text) (passed : Text) :
    go token (text ++ rest) false passed = go token rest false (text.reverse ++ passed) := by
  induction text generalizing passed with
  | nil => rfl
  | cons c text ih =>
    obtain ⟨quote, noQuote⟩ := not_or.1 (mt List.mem_cons.2 noQuote)
    have absent : token.isPrefixOf (c :: (text ++ rest)) = false := by
      rw [Bool.eq_false_iff, ne_eq, List.isPrefixOf_iff_prefix]
      exact passes (c :: text) List.suffix_rfl (List.cons_ne_nil _ _)
    have later : Passes token text rest := by
      intro behind suffix
      exact passes behind (suffix.trans (List.suffix_cons c text))
    rw [List.cons_append, go, if_neg (Ne.symm quote), absent, Bool.and_false, if_neg Bool.false_ne_true,
      ih later noQuote, List.reverse_cons, List.append_assoc, List.singleton_append]

/-- A token begins nowhere in another one if none of them goes on as the other does. -/
theorem Passes.of_apart
    (apart : ∀ behind ∈ token.tails, behind ≠ [] → ¬ behind <+: other ∧ ¬ other <+: behind)
    (rest : Text) : Passes other token rest := by
  intro behind suffix some_ occurs
  obtain ⟨longer, shorter⟩ := apart behind ((List.mem_tails _ _).2 suffix) some_
  rcases List.prefix_or_prefix_of_prefix occurs (List.prefix_append behind rest) with inside | beyond
  · exact shorter inside
  · exact longer beyond

end Text

namespace Operator

variable {right : Bool} {text rest left : Text}

/-- An assignment begins with a mark that stands in no side, or it is a sign with one more character. -/
theorem exists_of_mem_assignments {entry : String × Opcode} (member : entry ∈ assignments) :
    '"' ∉ entry.1.toList ∧ ∃ first tail, entry.1.toList = first :: tail ∧
      (first ∈ marks ∨ first ∈ bareMarks ∨
        isSign first = true ∧ tail ∈ [['='], ['+'], ['-']]) := by
  simp only [assignments, List.mem_cons, List.not_mem_nil, or_false] at member
  rcases member with rfl | rfl | rfl | rfl | rfl | rfl | rfl | rfl | rfl | rfl | rfl | rfl | rfl <;>
    exact ⟨by decide, _, _, rfl, by decide⟩

/-- **No assignment begins in a side** that does not end in a sign or has nothing behind it. -/
theorem IsBareSide.passes (side : IsBareSide right text) {entry : String × Opcode}
    (member : entry ∈ assignments)
    (ending : rest = [] ∨ ∀ front c, text = front ++ [c] → isSign c = false) :
    Text.Passes entry.1.toList text rest := by
  intro behind suffix some_ occurs
  obtain ⟨front, rfl⟩ := suffix
  obtain ⟨-, first, tail, shape, begins⟩ := exists_of_mem_assignments member
  rw [shape] at occurs
  cases behind with
  | nil => exact some_ rfl
  | cons c more =>
    obtain ⟨rfl, follows⟩ := List.cons_prefix_cons.1 occurs
    rcases begins with mark | mark | ⟨sign, short⟩
    · exact side.unmarked first mark (by simp)
    · exact side.bare first mark (by simp)
    -- what goes on behind the sign is one more character
    obtain ⟨second, rfl, other⟩ : ∃ second, tail = [second] ∧ (second = '=' ∨ isSign second = true) := by
      simp only [List.mem_cons, List.not_mem_nil, or_false] at short
      rcases short with rfl | rfl | rfl <;> exact ⟨_, rfl, by decide⟩
    cases more with
    | nil =>
      rcases ending with rfl | ending
      · exact absurd (List.prefix_nil.1 follows) (List.cons_ne_nil _ _)
      · rw [ending front first rfl] at sign
        cases sign
    | cons d more =>
      obtain ⟨rfl, -⟩ := List.cons_prefix_cons.1 follows
      -- behind a sign of a side stands neither an equals sign nor another sign
      rcases other with rfl | sign'
      · exact side.unmarked '=' (by decide) (by simp)
      · exact (Single.of_signsPlaced side.signed).not_pair sign sign' rfl

/-- A token is searched up to the operator. -/
theorem IsBareSide.cutAt?_append (side : IsBareSide false left) {entry : String × Opcode}
    (member : entry ∈ assignments) (rest : Text) :
    Text.cutAt? entry.1.toList (left ++ rest) =
      Text.cutAt?.go entry.1.toList rest false left.reverse := by
  have passes := @IsBareSide.passes false left rest side entry member
    (.inr fun front c => side.toIsSide.not_isSign_last)
  rw [Text.cutAt?, Text.cutAt?.go_of_passes passes (side.unmarked '"' (by decide)), List.append_nil]

/-- The operator that was written occurs behind its left side. -/
theorem IsBareSide.occurrence?_append (side : IsBareSide false left) {entry : String × Opcode}
    (member : entry ∈ assignments) (rest : Text) :
    occurrence? (left ++ (entry.1.toList ++ rest)) entry =
      some ⟨entry.2, left, entry.1.toList, rest⟩ := by
  obtain ⟨noQuote, first, tail, shape, -⟩ := exists_of_mem_assignments member
  have here : entry.1.toList.isPrefixOf (entry.1.toList ++ rest) = true := by
    rw [List.isPrefixOf_iff_prefix]
    exact List.prefix_append _ _
  have quote : first ≠ '"' := by
    rintro rfl
    rw [shape] at noQuote
    exact noQuote List.mem_cons_self
  rw [occurrence?, side.cutAt?_append member]
  rw [shape] at here ⊢
  rw [List.cons_append, Text.cutAt?.go, if_neg quote, ← List.cons_append, here, Bool.not_false,
    Bool.and_self, if_pos rfl, List.reverse_reverse]
  dsimp only
  rw [Option.map_some, List.drop_left]

/-- In a side with which a line ends, no operator occurs. -/
theorem IsBareSide.go_eq_none (side : IsBareSide right text) {entry : String × Opcode}
    (member : entry ∈ assignments) (passed : Text) :
    Text.cutAt?.go entry.1.toList text false passed = none := by
  have passes := @IsBareSide.passes right text [] side entry member (.inl rfl)
  have ended := Text.cutAt?.go_of_passes passes (side.unmarked '"' (by decide)) passed
  rw [List.append_nil] at ended
  exact ended

/-- No assignment begins in one that stands in front of it in the table. -/
theorem pairwise_assignments : assignments.Pairwise fun earlier later =>
    ∀ behind ∈ earlier.1.toList.tails, behind ≠ [] →
      ¬ behind <+: later.1.toList ∧ ¬ later.1.toList <+: behind := by
  decide

/-- The last entry of a table that occurs is the one that is found. -/
theorem find?_of_last {α : Type} {front back : List (String × α)} {entry : String × α} {found : Match α}
    (occurs : occurrence? text entry = some found)
    (last : ∀ later ∈ back, occurrence? text later = none) :
    find? (front ++ entry :: back) text = some found := by
  rw [find?, List.foldl_append, List.foldl_cons, occurs, Option.some_or]
  induction back with
  | nil => rfl
  | cons later back ih =>
    rw [List.foldl_cons, last later List.mem_cons_self, Option.none_or]
    exact ih fun later member => last later (List.mem_cons_of_mem _ member)

/-- **An assignment beside bare sides** is the one that is found. -/
theorem find?_assignments {entry : String × Opcode} (member : entry ∈ assignments) {back : Text}
    (side : IsBareSide false left) (side' : back = [] ∨ IsBareSide true back) :
    find? assignments (left ++ (entry.1.toList ++ back)) =
      some ⟨entry.2, left, entry.1.toList, back⟩ := by
  obtain ⟨noQuote, -⟩ := exists_of_mem_assignments member
  obtain ⟨earlier, later, table⟩ := List.append_of_mem member
  rw [table]
  apply find?_of_last (side.occurrence?_append member back)
  intro other member'
  have known : other ∈ assignments := by
    rw [table]
    exact List.mem_append_right _ (List.mem_cons_of_mem _ member')
  have apart := pairwise_assignments
  rw [table] at apart
  obtain ⟨-, apart, -⟩ := List.pairwise_append.1 apart
  have passes := Text.Passes.of_apart ((List.pairwise_cons.1 apart).1 other member') back
  have none_ (passed : Text) : Text.cutAt?.go other.1.toList back false passed = none := by
    rcases side' with rfl | side'
    · rfl
    · exact side'.go_eq_none known passed
  rw [occurrence?, side.cutAt?_append known, Text.cutAt?.go_of_passes passes noQuote, none_]
  rfl

end Operator

/-! ## Call forms -/

namespace Rewrite

open Operator

variable {first : Bool} {text left right : Text}

/-- A side has none of the characters that a test loses. -/
theorem plain_of_isSide (side : IsSide first text) : plain text = text := by
  rw [plain, List.filter_eq_self]
  intro c member
  have noEquals : c ≠ '=' := side.ne_of_mem member (by decide)
  have noOpening : c ≠ '(' := side.ne_of_mem member (by decide)
  have noClosing : c ≠ ')' := side.ne_of_mem member (by decide)
  simp [noEquals, noOpening, noClosing]

/-- **A test in call form has no assignment in it**: the signs of its operands stand apart. -/
theorem assignment?_slotCall {name : String} (word : IsWord name) (slot : Word)
    (side : IsSide false left) (side' : IsSide true right) :
    assignment? (slotCall name slot ++ left ++ ',' :: right ++ [')']) = none := by
  have shape : slotCall name slot ++ left ++ ',' :: right ++ [')'] =
      name.toList ++ '(' :: (Numeral.ofWord slot ++ ',' :: (left ++ ',' :: (right ++ ')' :: []))) := by
    rw [List.append_assoc, List.append_assoc, slotCall_append, List.cons_append]
  have letters : ∀ c ∈ name.toList, isSign c = false := by
    intro c member
    refine Bool.eq_false_iff.2 fun sign => ?_
    rw [isSign, Bool.or_eq_true, beq_iff_eq, beq_iff_eq] at sign
    rcases sign with rfl | rfl
    · exact word.not_mem rfl member
    · exact word.not_mem rfl member
  -- Two signs side by side would be an operator, but between the parts there is always a bracket or
  -- a comma.
  have single : Single
      (name.toList ++ '(' :: (Numeral.ofWord slot ++ ',' :: (left ++ ',' :: (right ++ ')' :: [])))) := by
    refine .append_cons (@Single.of_signsPlaced true _ (signsPlaced_of_not_isSign letters)) ?_ rfl
    refine .append_cons (.of_signsPlaced (signsPlaced_ofWord slot)) ?_ rfl
    refine .append_cons (.of_signsPlaced side.signed) ?_ rfl
    exact .append_cons (.of_signsPlaced side'.signed) .nil rfl
  have noEquals : '=' ∉
      name.toList ++ '(' :: (Numeral.ofWord slot ++ ',' :: (left ++ ',' :: (right ++ ')' :: []))) := by
    have numeral : '=' ∉ Numeral.ofWord slot := by
      intro member
      exact Numeral.of_mem_ofWord (P := (· ≠ '=')) (by decide) (by decide) member rfl
    simp only [List.mem_append, List.mem_cons, List.not_mem_nil, or_false, not_or]
    exact ⟨word.not_mem rfl, by decide, numeral, by decide, side.unmarked '=' (by decide), by decide,
      side'.unmarked '=' (by decide), by decide⟩
  rw [shape, assignment?, Option.map_eq_none_iff, find?_eq_none_iff]
  intro entry member
  refine Option.eq_none_iff_forall_ne_some.2 fun found occurs => ?_
  obtain ⟨-, cut⟩ := eq_of_occurrence? occurs
  rcases entry_of_not_mem noEquals member occurs with rfl | rfl
  · exact single.not_pair rfl rfl cut
  · exact single.not_pair rfl rfl cut

/-- The assignments that have a side on the left only. -/
def leftOnly : List String := ["++", "--"]

/-- What the operators of assignments become. -/
theorem called_of_mem_assignments {entry : String × Opcode} (member : entry ∈ assignments) :
    '(' ∉ entry.2.name.toList ∧ (1 < entry.2.arity ↔ entry.1 ∉ leftOnly) := by
  revert entry
  decide

/-- **A comparison becomes a call** with the slot and both sides as operands, which is no assignment. -/
theorem exists_split_condition {entry : String × Comparison} (member : entry ∈ comparisons)
    (keyword : ConditionKeyword) (slot : Word) (side : IsSide false left) (side' : IsSide true right) :
    ∃ condition,
      condition? (keyword.text.toList ++ (left ++ (entry.1.toList ++ right))) slot = some condition ∧
        condition.keyword = keyword ∧
        Call.split condition.text = ⟨(keyword.opcode entry.2).name.toList,
          [⟨Numeral.ofWord slot, none⟩, Operand.split left, Operand.split right]⟩ ∧
        assignment? condition.text = none := by
  have absent (first : Bool) (text : Text) (side : IsSide first text) :
      ∀ c ∈ ['=', '<', '>', '!'], c ∉ text := by
    intro c mark
    exact side.unmarked c (List.mem_append_left ['(', ')', ',', '"'] mark)
  have rewritten := condition?_eq member keyword (absent _ _ side) side.reads.balanced
    (absent _ _ side') slot
  rw [plain_of_isSide side, plain_of_isSide side'] at rewritten
  have word := isWord_name keyword entry.2
  refine ⟨_, rewritten, rfl, ?_, assignment?_slotCall word slot side side'⟩
  dsimp only
  rw [List.append_assoc, List.append_assoc, Call.split_slotCall_word (word.not_mem rfl),
    List.cons_append, side.reads.comma, side'.reads.closing]
  rfl

/-- **An assignment becomes a call** with both sides as operands. -/
theorem exists_split_assignment {entry : String × Opcode} (member : entry ∈ assignments)
    (two : entry.1 ∉ leftOnly) (side : IsBareSide false left) (side' : IsBareSide true right) :
    ∃ called, assignment? (left ++ (entry.1.toList ++ right)) = some called ∧
      Call.split called = ⟨entry.2.name.toList, [Operand.split left, Operand.split right]⟩ := by
  obtain ⟨word, arity⟩ := called_of_mem_assignments member
  refine ⟨_, by rw [assignment?, find?_assignments member side (.inr side')]; rfl, ?_⟩
  dsimp only
  rw [if_pos (arity.2 two), List.append_assoc, List.cons_append, List.append_assoc, List.cons_append,
    Call.split_eq word, side.reads.comma, side'.reads.closing]
  rfl

/-- **An increment or a decrement becomes a call** with what is in front of it as its operand, if this is
not empty brackets alone. -/
theorem exists_split_counting {entry : String × Opcode} (member : entry ∈ assignments)
    (one : entry.1 ∈ leftOnly) (side : IsBareSide false left) :
    ∃ called, assignment? (left ++ entry.1.toList) = some called ∧
      Call.split called =
        ⟨entry.2.name.toList, if left = brackets then [] else [Operand.split left]⟩ := by
  obtain ⟨word, arity⟩ := called_of_mem_assignments member
  have found := find?_assignments member side (.inl rfl)
  rw [List.append_nil] at found
  refine ⟨_, by rw [assignment?, found]; rfl, ?_⟩
  dsimp only
  rw [if_neg fun two => arity.1 two one, List.append_assoc, List.cons_append, Call.split_eq word,
    side.reads.closing, Call.closeOperands]
  simp only [List.isEmpty_nil, Bool.true_and, beq_iff_eq, side.split_eq_empty_iff]
  rfl

/-- **An infix operator becomes a call of its opcode with its sides as operands**, each read as it is where
it stands alone. A comparison has the slot in front of them, and what it becomes is no assignment. Of an
increment or a decrement, empty brackets alone are no operand. -/
theorem split_infix :
    (∀ (keyword : ConditionKeyword) (slot : Word), ∀ entry ∈ comparisons, ∀ left right,
      IsSide false left → IsSide true right →
        ∃ condition,
          condition? (keyword.text.toList ++ (left ++ (entry.1.toList ++ right))) slot =
              some condition ∧
            condition.keyword = keyword ∧
            Call.split condition.text = ⟨(keyword.opcode entry.2).name.toList,
              [⟨Numeral.ofWord slot, none⟩, Operand.split left, Operand.split right]⟩ ∧
            assignment? condition.text = none) ∧
      (∀ entry ∈ assignments, entry.1 ∉ leftOnly → ∀ left right,
        IsBareSide false left → IsBareSide true right →
          ∃ called, assignment? (left ++ (entry.1.toList ++ right)) = some called ∧
            Call.split called = ⟨entry.2.name.toList, [Operand.split left, Operand.split right]⟩) ∧
      ∀ entry ∈ assignments, entry.1 ∈ leftOnly → ∀ left, IsBareSide false left →
        ∃ called, assignment? (left ++ entry.1.toList) = some called ∧
          Call.split called =
            ⟨entry.2.name.toList, if left = brackets then [] else [Operand.split left]⟩ := by
  refine ⟨?_, ?_, ?_⟩
  · intro keyword slot entry member left right side side'
    exact exists_split_condition member keyword slot side side'
  · intro entry member two left right side side'
    exact exists_split_assignment member two side side'
  · intro entry member one left side
    exact exists_split_counting member one side

theorem split_infix_signed :
    (∃ condition, condition? "whileObject[-1].Value0>=-5".toList (-3) = some condition ∧
      condition.keyword = .whileLine ∧
      Call.split condition.text = ⟨"WGreaterOrEqual".toList,
        [⟨"-3".toList, none⟩, ⟨"Object.Value0".toList, some "-1".toList⟩, ⟨"-5".toList, none⟩]⟩ ∧
      assignment? condition.text = none) ∧
    (∃ called, assignment? "Object[-1].Value0-=-5".toList = some called ∧
      Call.split called = ⟨"Sub".toList,
        [⟨"Object.Value0".toList, some "-1".toList⟩, ⟨"-5".toList, none⟩]⟩) ∧
    ∃ called, assignment? "Object[-1].Value0--".toList = some called ∧
      Call.split called = ⟨"Dec".toList, [⟨"Object.Value0".toList, some "-1".toList⟩]⟩ := by
  have left : IsBareSide false "Object[-1].Value0".toList := by decide
  have right : IsBareSide true "-5".toList := by decide
  have numeral : Numeral.ofWord (-3) = "-3".toList := by decide +kernel
  obtain ⟨tested, assigned, counted⟩ := split_infix
  refine ⟨?_, ?_, ?_⟩
  · have here := tested .whileLine (-3) (">=", .greaterOrEqual) (by decide) _ _ left.toIsSide
      right.toIsSide
    rw [numeral] at here
    exact here
  · exact assigned ("-=", .binary .sub) (by decide) (by decide) _ _ left right
  · exact counted ("--", .unary .dec) (by decide) (by decide) _ left

/-- **Not every text with at most one index in brackets becomes the operand of an increment**: one that is
nothing but empty brackets is left out, as in a call without operands. -/
theorem not_all_infix :
    ¬ ∀ entry ∈ assignments, entry.1 ∈ leftOnly → ∀ left, IsBareSide false left →
      ∃ called, assignment? (left ++ entry.1.toList) = some called ∧
        Call.split called = ⟨entry.2.name.toList, [Operand.split left]⟩ := by
  intro all
  obtain ⟨called, assigned, split⟩ :=
    all ("++", .unary .inc) (by decide) (by decide) "[]".toList (by decide)
  have written : assignment? ("[]".toList ++ "++".toList) = some "Inc([])".toList := by decide
  obtain rfl := Option.some.inj (written.symm.trans assigned)
  exact absurd split (by decide)

end Rewrite

end StageScript
