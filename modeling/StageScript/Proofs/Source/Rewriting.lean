import StageScript.Proofs.Source.Numeral
import StageScript.Source.Call
import StageScript.Source.Directive
import StageScript.Source.Rewrite

/-! # Lines in call form
What becomes of the lines that open a block.
* **`Call.split_slotCall`** — the first operand of the call form is the numeral of the jump slot;
* **`Call.two_le_of_assignment?`** — where the call form still has an increment in it, it becomes a
  call with too many operands, so that it does not compile. -/

namespace StageScript

/-! ## Beginnings -/

theorem Text.isSome_stripPrefix? (beginning text : Text) :
    (stripPrefix? beginning text).isSome = beginning.isPrefixOf text := by
  unfold stripPrefix?
  induction beginning generalizing text with
  | nil => rfl
  | cons b beginning ih =>
    cases text with
    | nil => rfl
    | cons c text =>
      show (if b == c then beginning.isPrefixOf? text else none).isSome =
        (b == c && beginning.isPrefixOf text)
      by_cases same : (b == c) = true
      · rw [if_pos same, ih, same, Bool.true_and]
      · rw [if_neg same, Bool.eq_false_iff.2 same, Bool.false_and, Option.isSome_none]

/-- A text that begins with a keyword begins with its first letter. -/
theorem Text.head?_of_isPrefixOf {keyword text : Text} {first : Char}
    (letter : keyword.head? = some first) (front : keyword.isPrefixOf text = true) :
    text.head? = some first := by
  obtain ⟨rest, rfl⟩ := List.isPrefixOf_iff_prefix.1 front
  rw [List.head?_append, letter]
  rfl

theorem Text.isPrefixOf_of_head? {keyword text : Text} {first : Char}
    (letter : keyword.head? = some first) (other : text.head? ≠ some first) :
    keyword.isPrefixOf text = false :=
  Bool.eq_false_iff.2 fun front => other (head?_of_isPrefixOf letter front)

/-- A line that begins with another letter than `case` is none. -/
theorem Directive.caseLabel?_of_head? {text : Text} (h : text.head? ≠ some 'c') :
    caseLabel? text = none := by
  have cut := Text.isSome_stripPrefix? "case".toList text
  rw [Text.isPrefixOf_of_head? rfl h, Option.isSome_eq_false_iff, Option.isNone_iff_eq_none] at cut
  rw [caseLabel?, cut]
  rfl

/-! ## Tokens -/

/-- A token that was found stands at the beginning of what is behind the cut. -/
theorem Text.cutAt?.prefix_of_go {token text passed before after : Text} {quoted : Bool}
    (h : go token text quoted passed = some (before, after)) : token <+: after := by
  induction text generalizing quoted passed with
  | nil => cases h
  | cons c rest ih =>
    rw [go] at h
    split at h
    · exact ih h
    · split at h
      · next found =>
        obtain ⟨rfl, rfl⟩ := Prod.mk.inj (Option.some.inj h)
        simp only [Bool.and_eq_true] at found
        exact List.isPrefixOf_iff_prefix.1 found.2
      · exact ih h

theorem Text.prefix_of_cutAt? {token text before after : Text}
    (h : cutAt? token text = some (before, after)) : token <+: after :=
  cutAt?.prefix_of_go h

namespace Operator

variable {α : Type}

/-- What a table finds is an occurrence of one of its tokens. -/
theorem exists_of_find? {table : List (String × α)} {text : Text} {found : Match α}
    (h : find? table text = some found) :
    ∃ entry ∈ table, occurrence? text entry = some found := by
  suffices general : ∀ start : Option (Match α),
      table.foldl (fun found entry => (occurrence? text entry).or found) start = some found →
        start = some found ∨ ∃ entry ∈ table, occurrence? text entry = some found by
    rcases general none h with h | h
    · cases h
    · exact h
  clear h
  induction table with
  | nil => exact fun start h => .inl h
  | cons entry table ih =>
    intro start h
    rcases ih _ h with here | ⟨other, member, there⟩
    · rcases Option.or_eq_some_iff.1 here with first | ⟨-, old⟩
      · exact .inr ⟨entry, List.mem_cons_self, first⟩
      · exact .inl old
    · exact .inr ⟨other, List.mem_cons_of_mem _ member, there⟩

/-- An occurrence of a token takes a text apart into what is in front of it, the token and what is
behind it. -/
theorem eq_of_occurrence? {text : Text} {entry : String × α} {found : Match α}
    (h : occurrence? text entry = some found) :
    found.meaning = entry.2 ∧ text = found.before ++ (entry.1.toList ++ found.after) := by
  obtain ⟨⟨before, rest⟩, cut, rfl⟩ := Option.map_eq_some_iff.1 h
  refine ⟨rfl, ?_⟩
  obtain ⟨after, rfl⟩ := Text.prefix_of_cutAt? cut
  dsimp only
  rw [List.drop_left, Text.append_of_cutAt? cut]

end Operator

/-! ## Calls -/

/-- The beginning of a call form is a name and a numeral that a comma ends. -/
theorem Rewrite.slotCall_append (name : String) (slot : Word) (rest : Text) :
    slotCall name slot ++ rest = name.toList ++ '(' :: (Numeral.ofWord slot ++ ',' :: rest) := by
  rw [slotCall]
  simp only [List.append_assoc, List.cons_append, List.nil_append]

namespace Call

/-- A call splits at its first opening parenthesis. -/
theorem split_eq {name rest : Text} (h : '(' ∉ name) :
    split (name ++ '(' :: rest) = ⟨name, readOperands rest false {} []⟩ := by
  have shape : (name ++ '(' :: rest).takeWhile (· ≠ '(') = name ∧
      (name ++ '(' :: rest).dropWhile (· ≠ '(') = '(' :: rest := by
    induction name with
    | nil => exact ⟨rfl, rfl⟩
    | cons c name ih =>
      simp only [List.mem_cons, not_or] at h
      obtain ⟨front, back⟩ := ih h.2
      have other : decide (c ≠ '(') = true := decide_eq_true (Ne.symm h.1)
      rw [List.cons_append, List.takeWhile_cons, List.dropWhile_cons, if_pos other, if_pos other,
        front, back]
      exact ⟨rfl, rfl⟩
  simp only [split, shape.1, shape.2]

/-- Characters that neither end an operand nor begin or end a part of it. -/
def IsPlain (c : Char) : Prop := c ≠ '"' ∧ c ≠ ',' ∧ c ≠ ')' ∧ c ≠ '[' ∧ c ≠ ']'

instance (c : Char) : Decidable (IsPlain c) :=
  inferInstanceAs (Decidable (c ≠ '"' ∧ c ≠ ',' ∧ c ≠ ')' ∧ c ≠ '[' ∧ c ≠ ']'))

/-- Plain characters belong to the part of an operand that is being read. -/
theorem readOperands_foldl {text rest : Text} {draft : Operand.Draft} {done : List Operand}
    (h : ∀ c ∈ text, IsPlain c) :
    readOperands (text ++ rest) false draft done =
      readOperands rest false (text.foldl Operand.Draft.push draft) done := by
  induction text generalizing draft with
  | nil => rfl
  | cons c text ih =>
    obtain ⟨quote, comma, closing, opened, closed⟩ := h c List.mem_cons_self
    rw [List.cons_append, readOperands, if_neg quote, if_neg comma, if_neg closing, if_neg opened,
      if_neg closed, ih fun c member => h c (List.mem_cons_of_mem _ member), List.foldl_cons]

/-- Outside brackets that part is the name. -/
theorem foldl_push_outside (text base : Text) (index : Option Text) :
    text.foldl Operand.Draft.push { base, index } = { base := text.reverse ++ base, index } := by
  induction text generalizing base with
  | nil => rfl
  | cons c text ih =>
    have push : Operand.Draft.push { base, index } c = { base := c :: base, index } := rfl
    rw [List.foldl_cons, push, ih, List.reverse_cons, List.append_assoc, List.singleton_append]

/-- Inside brackets it is the index. -/
theorem foldl_push_inside (text base index : Text) :
    text.foldl Operand.Draft.push { base, index := some index, inIndex := true } =
      { base, index := some (text.reverse ++ index), inIndex := true } := by
  induction text generalizing index with
  | nil => rfl
  | cons c text ih =>
    have push : Operand.Draft.push { base, index := some index, inIndex := true } c =
        { base, index := some (c :: index), inIndex := true } := rfl
    rw [List.foldl_cons, push, ih, List.reverse_cons, List.append_assoc, List.singleton_append]

/-- Plain characters outside brackets are those of the name. -/
theorem readOperands_plain {text rest base : Text} {index : Option Text} {done : List Operand}
    (h : ∀ c ∈ text, IsPlain c) :
    readOperands (text ++ rest) false { base, index } done =
      readOperands rest false { base := text.reverse ++ base, index } done := by
  rw [readOperands_foldl h, foldl_push_outside]

/-- A comma ends an operand. -/
theorem readOperands_comma {rest : Text} {draft : Operand.Draft} {done : List Operand} :
    readOperands (',' :: rest) false draft done = readOperands rest false {} (draft.finish :: done) := by
  rw [readOperands, if_neg (by decide), if_pos rfl]

/-- The operands that are complete come first, and what follows them does not depend on them. -/
theorem readOperands_done (text : Text) (quoted : Bool) (draft : Operand.Draft) :
    ∃ o more, ∀ done, done ≠ [] → readOperands text quoted draft done = done.reverse ++ o :: more := by
  have closed (done : List Operand) (last : Operand) (some : done ≠ []) :
      closeOperands done last = done.reverse ++ [last] := by
    rw [closeOperands, if_neg, List.reverse_cons]
    simp [some]
  induction text generalizing quoted draft with
  | nil => exact ⟨draft.finish, [], fun done some => closed done draft.finish some⟩
  | cons c text ih =>
    cases quoted with
    | true => exact ih _ _
    | false =>
      simp only [readOperands]
      by_cases quote : c = '"'
      · simp only [if_pos quote]
        exact ih _ _
      · simp only [if_neg quote]
        by_cases comma : c = ','
        · simp only [if_pos comma]
          obtain ⟨o, more, eq⟩ := ih false {}
          refine ⟨draft.finish, o :: more, fun done some => ?_⟩
          rw [eq _ (List.cons_ne_nil draft.finish done), List.reverse_cons, List.append_assoc,
            List.singleton_append]
        · simp only [if_neg comma]
          by_cases closing : c = ')'
          · simp only [if_pos closing]
            exact ⟨draft.finish, [], fun done some => closed done draft.finish some⟩
          · simp only [if_neg closing]
            split
            · exact ih _ _
            · split <;> exact ih _ _

/-- Digits belong to the name of an operand. -/
theorem isPlain_of_isDigit {c : Char} (h : Numeral.IsDigit c) : IsPlain c :=
  h.of_forall (P := IsPlain) (by decide)

/-- A word in decimal digits belongs to the name of an operand, with its sign. -/
theorem isPlain_ofWord (w : Word) : ∀ c ∈ Numeral.ofWord w, IsPlain c := by
  intro c member
  exact Numeral.of_mem_ofWord (P := IsPlain) (by decide) (by decide) member

/-- **The first operand of the call form of a block** is the numeral of its jump slot. -/
theorem split_slotCall_word {name : String} (h : '(' ∉ name.toList) (slot : Word) (rest : Text) :
    split (Rewrite.slotCall name slot ++ rest) =
      ⟨name.toList, readOperands rest false {} [⟨Numeral.ofWord slot, none⟩]⟩ := by
  rw [Rewrite.slotCall_append, split_eq h]
  congr 1
  rw [show ({} : Operand.Draft) = { base := [] } from rfl, readOperands_plain (isPlain_ofWord slot),
    readOperands_comma]
  congr 2
  simp [Operand.Draft.finish]

/-- The numeral of a slot of a file has no sign. -/
theorem split_slotCall {name : String} {slot : Nat} (h : '(' ∉ name.toList) (small : slot < 0x80000000)
    (rest : Text) :
    split (Rewrite.slotCall name (Word.ofNat slot) ++ rest) =
      ⟨name.toList, readOperands rest false {} [⟨Numeral.ofNat slot, none⟩]⟩ := by
  rw [split_slotCall_word h, Numeral.ofWord_ofNat small]

end Call

/-! ## Lines that open a block -/

namespace Rewrite

/-- The names of opcodes whose calls are made by rewriting a line. -/
def IsWord (name : String) : Prop := name.toList.all Char.isAlpha = true

instance (name : String) : Decidable (IsWord name) :=
  inferInstanceAs (Decidable (name.toList.all Char.isAlpha = true))

theorem IsWord.not_mem {name : String} (h : IsWord name) {c : Char} (other : c.isAlpha = false) :
    c ∉ name.toList := by
  intro member
  rw [List.all_eq_true.1 h c member] at other
  cases other

theorem isWord_name (keyword : ConditionKeyword) (comparison : Comparison) :
    IsWord (keyword.opcode comparison).name := by
  cases keyword <;> cases comparison <;> decide

/-- An expression in call form has no equals sign. -/
theorem not_mem_plain (text : Text) : '=' ∉ plain text := by
  simp [plain]

/-- A line that tests a condition calls a test with its slot. -/
theorem exists_of_condition? {text : Text} {slot : Word} {condition : Condition}
    (h : condition? text slot = some condition) :
    ∃ comparison rest, condition.text =
      slotCall (condition.keyword.opcode comparison).name slot ++ rest ∧ '=' ∉ rest := by
  obtain ⟨keyword, -, h⟩ := Option.bind_eq_some_iff.1 h
  obtain ⟨found, -, h⟩ := Option.bind_eq_some_iff.1 h
  obtain rfl := Option.some.inj h
  refine ⟨found.meaning, plain (found.before.drop keyword.text.toList.length) ++
    (',' :: plain (found.token.tail ++ found.after) ++ [')']), ?_, ?_⟩
  · simp only [List.append_assoc]
  · simp [not_mem_plain]

/-- A line that opens a switch calls it with its slot. -/
theorem exists_of_switch? {text opened : Text} {slot : Word} (h : switch? text slot = some opened) :
    ∃ rest, opened = slotCall "switch" slot ++ rest ∧ '=' ∉ rest := by
  obtain ⟨rest, -, rfl⟩ := Option.map_eq_some_iff.1 h
  exact ⟨_, List.append_assoc .., by simp [not_mem_plain]⟩

/-- Whether a line is rewritten does not hang on the slot. -/
theorem isSome_condition? (text : Text) (slot : Word) :
    (condition? text slot).isSome =
      ((conditionKeyword? text).isSome && (Operator.find? Operator.comparisons text).isSome) := by
  rw [condition?]
  cases conditionKeyword? text with
  | none => simp only [Option.bind_eq_bind, Option.bind_none, Option.isSome_none, Bool.false_and]
  | some keyword =>
    cases Operator.find? Operator.comparisons text with
    | none =>
      simp only [Option.bind_eq_bind, Option.bind_some, Option.bind_none, Option.isSome_none,
        Bool.and_false]
    | some found => simp only [Option.bind_eq_bind, Option.bind_some, Option.isSome_some, Bool.and_self]

theorem isSome_switch? (text : Text) (slot : Word) :
    (switch? text slot).isSome = Directive.startsSwitch text := by
  rw [switch?, Option.isSome_map, Text.isSome_stripPrefix?, Directive.startsSwitch]

variable {name : String} {slot : Nat} {rest : Text}

/-- In a text without equals signs only increments and decrements are infix operators. -/
theorem entry_of_not_mem {text : Text} (h : '=' ∉ text) {entry : String × Opcode}
    {found : Operator.Match Opcode} (member : entry ∈ Operator.assignments)
    (occurs : Operator.occurrence? text entry = some found) :
    entry = ("++", .unary .inc) ∨ entry = ("--", .unary .dec) := by
  obtain ⟨-, shape⟩ := Operator.eq_of_occurrence? occurs
  have absent : '=' ∉ entry.1.toList := by
    intro inside
    apply h
    rw [shape]
    exact List.mem_append_right _ (List.mem_append_left _ inside)
  simp only [Operator.assignments, List.mem_cons, List.not_mem_nil, or_false] at member
  rcases member with rfl | rfl | rfl | rfl | rfl | rfl | rfl | rfl | rfl | rfl | rfl | rfl | rfl
  case inr.inr.inr.inl => exact .inl rfl
  case inr.inr.inr.inr.inl => exact .inr rfl
  all_goals exact absurd (by decide) absent

/-- A sign does not stand in the beginning of a call form, so what is in front of it has the slot. -/
theorem exists_of_sign {sign : Char} {before after : Text} (word : IsWord name)
    (small : slot < 0x80000000) (mark : sign.isAlpha = false ∧ sign ≠ '(' ∧ sign ≠ ',' ∧
      ∀ d, d < 10 → Numeral.digitChar d ≠ sign)
    (h : slotCall name (Word.ofNat slot) ++ rest = before ++ sign :: after) :
    ∃ middle, before = slotCall name (Word.ofNat slot) ++ middle := by
  rcases List.append_eq_append_iff.1 h with ⟨middle, rfl, -⟩ | ⟨middle, front, back⟩
  · exact ⟨middle, rfl⟩
  · cases middle with
    | nil => exact ⟨[], by rw [List.append_nil, front, List.append_nil]⟩
    | cons c middle =>
      obtain ⟨rfl, -⟩ := List.cons.inj back
      have member : sign ∈ slotCall name (Word.ofNat slot) := by
        rw [front]
        simp
      exfalso
      rw [slotCall, Numeral.ofWord_ofNat small] at member
      simp only [List.mem_append, List.mem_cons, List.not_mem_nil, or_false] at member
      rcases member with (inName | rfl | digit) | rfl
      · exact word.not_mem mark.1 inName
      · exact mark.2.1 rfl
      · obtain ⟨d, below, same⟩ := Numeral.isDigit_of_mem_ofNat digit
        exact mark.2.2.2 d below same.symm
      · exact mark.2.2.1 rfl

/-- The beginning of a call form is a complete operand itself, and another one follows it. -/
theorem two_le_readOperands (word : IsWord name) (small : slot < 0x80000000) (rest : Text) :
    2 ≤ (Call.readOperands (slotCall name (Word.ofNat slot) ++ rest) false {} []).length := by
  have shape : slotCall name (Word.ofNat slot) ++ rest =
      (name.toList ++ '(' :: Numeral.ofNat slot) ++ ',' :: rest := by
    rw [slotCall_append, Numeral.ofWord_ofNat small, List.append_assoc, List.cons_append]
  have plain : ∀ c ∈ name.toList ++ '(' :: Numeral.ofNat slot, Call.IsPlain c := by
    intro c member
    rcases List.mem_append.1 member with inName | member
    · have letter := List.all_eq_true.1 word c inName
      refine ⟨?_, ?_, ?_, ?_, ?_⟩ <;> (rintro rfl; cases letter)
    · rcases List.mem_cons.1 member with rfl | digit
      · decide
      · exact Call.isPlain_of_isDigit (Numeral.isDigit_of_mem_ofNat digit)
  obtain ⟨o, more, eq⟩ := Call.readOperands_done rest false {}
  rw [shape, show ({} : Operand.Draft) = { base := [] } from rfl, Call.readOperands_plain plain,
    Call.readOperands_comma, eq _ (List.cons_ne_nil _ _)]
  simp

/-- The call form of a block as the operand of another call. -/
theorem two_le_split {other : String} (word : IsWord name) (small : slot < 0x80000000)
    (otherWord : IsWord other) (middle : Text) :
    (Call.split (other.toList ++ '(' :: (slotCall name (Word.ofNat slot) ++ middle) ++ [')'])).name =
        other.toList ∧
      2 ≤ (Call.split (other.toList ++ '(' :: (slotCall name (Word.ofNat slot) ++ middle) ++
        [')'])).operands.length := by
  rw [List.append_assoc, List.cons_append, List.append_assoc,
    Call.split_eq (otherWord.not_mem (by decide))]
  exact ⟨rfl, two_le_readOperands word small _⟩

/-- **An increment in the call form of a block** makes it a call with too many operands: the slot
becomes the first of two operands at least, and an increment takes one. -/
theorem two_le_of_assignment? {text : Text} (word : IsWord name) (small : slot < 0x80000000)
    (absent : '=' ∉ rest)
    (h : assignment? (slotCall name (Word.ofNat slot) ++ rest) = some text) :
    ∃ op, Opcode.lookup? (Call.split text).name = some op ∧ op.arity = 1 ∧
      2 ≤ (Call.split text).operands.length := by
  obtain ⟨found, find, rfl⟩ := Option.map_eq_some_iff.1 h
  obtain ⟨entry, member, occurs⟩ := Operator.exists_of_find? find
  have noEquals : '=' ∉ slotCall name (Word.ofNat slot) ++ rest := by
    rw [slotCall, Numeral.ofWord_ofNat small]
    simp only [List.mem_append, List.mem_cons, List.not_mem_nil, or_false, not_or]
    refine ⟨⟨⟨word.not_mem (by decide), by decide, fun digit => ?_⟩, by decide⟩, absent⟩
    exact absurd rfl ((Numeral.isDigit_of_mem_ofNat digit).of_forall (P := (· ≠ '=')) (by decide))
  obtain ⟨meaning, shape⟩ := Operator.eq_of_occurrence? occurs
  -- the sign stands behind the slot, so its operand is cut in two by the comma there
  rcases entry_of_not_mem noEquals member occurs with rfl | rfl
  · obtain ⟨middle, before⟩ := @exists_of_sign name slot rest '+' _ _ word small (by decide) shape
    obtain ⟨called, many⟩ := @two_le_split name slot "Inc" word small (by decide) middle
    dsimp only at meaning ⊢
    rw [meaning, if_neg (by decide), before]
    refine ⟨.unary .inc, (congrArg Opcode.lookup? called).trans ?_, rfl, many⟩
    decide +kernel
  · obtain ⟨middle, before⟩ := @exists_of_sign name slot rest '-' _ _ word small (by decide) shape
    obtain ⟨called, many⟩ := @two_le_split name slot "Dec" word small (by decide) middle
    dsimp only at meaning ⊢
    rw [meaning, if_neg (by decide), before]
    refine ⟨.unary .dec, (congrArg Opcode.lookup? called).trans ?_, rfl, many⟩
    decide +kernel

end Rewrite

end StageScript
