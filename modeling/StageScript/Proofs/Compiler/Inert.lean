import StageScript.Proofs.Compiler.Transparency
import StageScript.Proofs.Source.Rendering
import StageScript.Proofs.Source.Stripping

/-! # Texts that are read as they stand
Before a line is read as a call it is stripped and searched for an assignment. Some texts have nothing in
them that either would take apart, and neither has a call that is put together of them.
* `Text.IsInert` — the texts of which nothing is taken, outside quotes or within;
* **`Text.IsInert.of_count`**, **`Text.IsInert.quote`** — words with a few signs, and quoted texts;
* **`Call.isInert_render`** — the calls of such a name with such operands;
* **`Text.IsInert.strip_eq`** — stripping leaves them as they are. -/

namespace StageScript

/-! ## Separators -/

namespace Line

/-- Separators are taken out in front of a place and behind it. -/
theorem withoutSeparators_append (quoted : Bool) (text more : Text) :
    withoutSeparators quoted (text ++ more) =
      withoutSeparators quoted text ++ withoutSeparators (text.leavesQuoted quoted) more := by
  induction text generalizing quoted with
  | nil => rfl
  | cons c text ih =>
    rw [List.cons_append, withoutSeparators, withoutSeparators, Text.leavesQuoted_cons]
    split
    · rw [ih, List.cons_append]
    · split
      · exact ih quoted
      · rw [ih, List.cons_append]

/-- A text without quotes and separators keeps all its characters. -/
theorem withoutSeparators_eq_self {text : Text}
    (plain : ∀ c ∈ text, c ≠ '"' ∧ isSeparator c = false) : withoutSeparators false text = text := by
  induction text with
  | nil => rfl
  | cons c text ih =>
    obtain ⟨⟨noQuote, noSeparator⟩, plain⟩ := List.forall_mem_cons.1 plain
    rw [withoutSeparators, if_neg noQuote, noSeparator, Bool.and_false, if_neg Bool.false_ne_true, ih plain]

/-- Nothing is taken out between quotes. -/
theorem withoutSeparators_quote_eq_self {content : Text} (noQuote : '"' ∉ content) :
    withoutSeparators false (OperandForm.quote content) = OperandForm.quote content := by
  have inside : withoutSeparators true (content ++ ['"']) = content ++ ['"'] := by
    induction content with
    | nil => rfl
    | cons c content ih =>
      obtain ⟨other, noQuote⟩ := not_or.1 (mt List.mem_cons.2 noQuote)
      rw [List.cons_append, withoutSeparators_quoted (Ne.symm other), ih noQuote]
  rw [OperandForm.quote, withoutSeparators_quote, Bool.not_false, inside]

end Line

/-! ## Inert texts -/

namespace Text

/-- What a line is cut at outside quotes: the mark of a comment, and the tokens of assignments. -/
def cuts : List Text := "//".toList :: Operator.assignments.map (·.1.toList)

/-- **A text of which nothing is taken**: it stays on its line, has no separators and no cuts outside
quotes, and closes the quotes that it opens. -/
structure IsInert (text : Text) : Prop where
  balanced : text.leavesQuoted false = false
  inline : text.IsInline
  unseparated : Line.withoutSeparators false text = text
  uncut : ∀ token ∈ cuts, cutAt? token text = none

variable {text front back : Text}

/-- A token that is found stands in the text. -/
theorem infix_of_cutAt? {token before after : Text} (cut : cutAt? token text = some (before, after)) :
    token <:+: text := by
  obtain ⟨rest, rfl⟩ := prefix_of_cutAt? cut
  exact ⟨before, rest, by rw [List.append_assoc, append_of_cutAt? cut]⟩

/-- What no name and no number has in it. -/
def strangers : Text := ['\r', '\n', '"', ' ', '\t', ';', '=', '/']

/-- The signs that an index begins with, if brackets say what it means. -/
def signs : List Text := [[], ['-'], ['+'], ['+', '-']]

/-- The marks that a call and the brackets of its operands are put together with. -/
def marks : List Char := ['(', ',', ')', '[', ']']

/-- Each cut has a slash, an equals sign or the same sign twice. -/
theorem of_mem_cuts : ∀ token ∈ cuts, '/' ∈ token ∨ '=' ∈ token ∨
    1 < token.count '+' ∨ 1 < token.count '-' := by
  decide

namespace IsInert

/-- **Text without the characters of cuts**, but for a plus and a minus. -/
theorem of_count (plain : ∀ c ∈ text, c ∉ strangers)
    (plus : text.count '+' ≤ 1) (minus : text.count '-' ≤ 1) : text.IsInert where
  balanced := leavesQuoted_of_not_mem false fun member => plain _ member (by decide)
  inline := .of_forall fun c member => by
    have absent := plain c member
    rw [strangers, List.mem_cons, List.mem_cons, not_or, not_or] at absent
    exact ⟨absent.1, absent.2.1⟩
  unseparated := by
    refine Line.withoutSeparators_eq_self fun c member => ?_
    have absent := plain c member
    simp only [strangers, List.mem_cons, List.not_mem_nil, or_false, not_or] at absent
    obtain ⟨-, -, noQuote, noSpace, noTab, noSemicolon, -⟩ := absent
    exact ⟨noQuote, by simp [Line.isSeparator, noSpace, noTab, noSemicolon]⟩
  uncut token cut := by
    rw [Option.eq_none_iff_forall_ne_some]
    rintro ⟨before, after⟩ found
    have inside := infix_of_cutAt? found
    obtain slash | equals | twice | twice := of_mem_cuts token cut
    · exact plain _ (inside.subset slash) (by decide)
    · exact plain _ (inside.subset equals) (by decide)
    · exact absurd (inside.sublist.count_le '+') (by omega)
    · exact absurd (inside.sublist.count_le '-') (by omega)

/-- **A name behind a few signs.** -/
theorem of_signs {signs name : Text} (few : signs ∈ Text.signs) (named : name.IsName) :
    Text.IsInert (signs ++ name) := by
  have own : ∀ signs ∈ Text.signs, signs.all (· ∉ strangers) = true ∧ signs.count '+' ≤ 1 ∧
      signs.count '-' ≤ 1 := by decide
  obtain ⟨plain, plus, minus⟩ := own signs few
  have other : ∀ c ∈ strangers, (c.isAlphanum || c == '.') = false :=
    Text.forall_mem_of_all (by decide)
  refine .of_count (List.forall_mem_append.2 ⟨?_, fun c member inside => ?_⟩) ?_ ?_
  · exact fun c member => of_decide_eq_true (List.all_eq_true.1 plain c member)
  · exact named.not_mem (other c inside) member
  · rw [List.count_append, List.count_eq_zero.2 (named.not_mem rfl)]
    exact plus
  · rw [List.count_append, List.count_eq_zero.2 (named.not_mem rfl)]
    exact minus

/-- Names are inert. -/
theorem of_name (named : text.IsName) : text.IsInert := @of_signs [] text (by decide) named

/-- Between quotes everything but a quote may stand. -/
theorem quote {content : Text} (noQuote : '"' ∉ content) (inline : content.IsInline) :
    (OperandForm.quote content).IsInert where
  balanced := (Call.reads_quote noQuote).balanced
  inline := by simpa [OperandForm.quote, IsInline] using inline
  unseparated := Line.withoutSeparators_quote_eq_self noQuote
  uncut token _ := cutAt?_quote noQuote token

theorem nil : IsInert [] := .of_count (List.forall_mem_nil _) (by decide) (by decide)

/-- A mark of a call is no part of a cut, so nothing is cut at it. -/
theorem not_mem_of_cut : ∀ mark ∈ marks, ∀ token ∈ cuts, mark ∉ token :=
  Text.forall_mem_of_all (by decide)

/-- Nothing is taken of a mark of a call. -/
theorem of_mark {mark : Char} (known : mark ∈ marks) : IsInert [mark] := by
  simp only [marks, List.mem_cons, List.not_mem_nil, or_false] at known
  rcases known with rfl | rfl | rfl | rfl | rfl <;> exact ⟨rfl, by decide, rfl, by decide⟩

/-- **Inert texts are put together** where what is behind begins with a mark of a call, or what is in front
ends in one. -/
theorem append (h : front.IsInert) (h' : back.IsInert)
    (apart : (∀ c, front.getLast? = some c → ∀ token ∈ cuts, c ∉ token) ∨
      ∀ c, back.head? = some c → ∀ token ∈ cuts, c ∉ token) : Text.IsInert (front ++ back) where
  balanced := by rw [leavesQuoted_append, h.balanced, h'.balanced]
  inline := h.inline.append h'.inline
  unseparated := by rw [Line.withoutSeparators_append, h.balanced, h.unseparated, h'.unseparated]
  uncut token cut := by
    rw [cutAt?_append_eq_none_iff h.balanced]
    · exact ⟨h.uncut token cut, h'.uncut token cut⟩
    · exact apart.imp (fun apart c last => apart c last token cut) fun apart c head => apart c head token cut

/-- **A mark of a call between inert texts** leaves them as they are. -/
theorem mark (h : front.IsInert) (h' : back.IsInert) {mark : Char} (known : mark ∈ marks) :
    (front ++ mark :: back).IsInert := by
  have absent (c : Char) (same : some mark = some c) : ∀ token ∈ cuts, c ∉ token :=
    Option.some.inj same ▸ not_mem_of_cut mark known
  have behind : Text.IsInert ([mark] ++ back) := (of_mark known).append h' (.inl absent)
  exact h.append behind (.inr absent)

/-- **Stripping leaves an inert text** as it is. -/
theorem strip_eq (h : text.IsInert) : Line.strip text = text := by
  have kept : text.filter (· ≠ '\r') = text := by
    rw [List.filter_eq_self]
    rintro c member
    exact decide_eq_true fun same => h.inline.1 (same ▸ member)
  rw [Line.strip_eq, kept, h.unseparated, Line.beforeComment, h.uncut _ List.mem_cons_self]
  rfl

/-- There is no assignment in it. -/
theorem noAssignment (h : text.IsInert) : Operator.find? Operator.assignments text = none := by
  rw [Operator.find?_eq_none_iff_cutAt?]
  intro entry member
  exact h.uncut _ (List.mem_cons_of_mem _ (List.mem_map_of_mem member))

end IsInert

end Text

/-! ## Calls -/

namespace Call

/-- **A call put together of inert texts** is inert. -/
theorem isInert_render {name : Text} {texts : List Text} (inertName : name.IsInert)
    (inert : ∀ text ∈ texts, text.IsInert) : (render name texts).IsInert := by
  have operands : Text.IsInert ([','].intercalate texts) := by
    induction texts with
    | nil => exact .nil
    | cons text texts ih =>
      obtain ⟨first, others⟩ := List.forall_mem_cons.1 inert
      cases texts with
      | nil => rwa [List.intercalate_singleton]
      | cons second texts =>
        rw [List.intercalate_cons_cons, List.append_assoc, List.singleton_append]
        exact first.mark (ih others) (by decide)
  exact inertName.mark (operands.mark .nil (by decide)) (by decide)

end Call

end StageScript
