import StageScript.Proofs.Compiler.Passage
import StageScript.Proofs.Compiler.Step

/-! # How lines are read
What the readers of lines make of the forms that the lines of a passage have. -/

namespace StageScript

open Compiler

/-! ## Quotes -/

/-- Whether a quoted text is open behind a text, which begins in one if `quoted` says so. -/
def Text.leavesQuoted (quoted : Bool) (text : Text) : Bool :=
  text.foldl (fun quoted c => if c = '"' then !quoted else quoted) quoted

namespace Text

@[simp] theorem leavesQuoted_nil (quoted : Bool) : leavesQuoted quoted [] = quoted := rfl

@[simp] theorem leavesQuoted_cons (quoted : Bool) (c : Char) (text : Text) :
    leavesQuoted quoted (c :: text) = leavesQuoted (if c = '"' then !quoted else quoted) text := rfl

theorem leavesQuoted_append (quoted : Bool) (text more : Text) :
    leavesQuoted quoted (text ++ more) = leavesQuoted (leavesQuoted quoted text) more :=
  List.foldl_append

/-- Without quotes it stays as it is. -/
theorem leavesQuoted_of_not_mem {text : Text} (quoted : Bool) (h : '"' ∉ text) :
    leavesQuoted quoted text = quoted := by
  induction text with
  | nil => rfl
  | cons c text ih =>
    obtain ⟨other, h⟩ := not_or.1 (mt List.mem_cons.2 h)
    rw [leavesQuoted_cons, if_neg (Ne.symm other), ih h]

/-- A search passes over a text in which the token does not begin. -/
theorem cutAt?.go_append {first : Char} {token text : Text} (absent : first ∉ text) (rest : Text) (quoted : Bool) (passed : Text) :
    go (first :: token) (text ++ rest) quoted passed =
      go (first :: token) rest (leavesQuoted quoted text) (text.reverse ++ passed) := by
  induction text generalizing quoted passed with
  | nil => rfl
  | cons c text ih =>
    obtain ⟨other, absent⟩ := not_or.1 (mt List.mem_cons.2 absent)
    rw [List.cons_append, go, leavesQuoted_cons, List.reverse_cons, List.append_assoc]
    by_cases mark : c = '"'
    · rw [if_pos mark, if_pos mark]
      exact ih absent _ _
    · rw [if_neg mark, if_neg mark, List.isPrefixOf_cons_cons, beq_false_of_ne other, Bool.false_and,
        Bool.and_false, if_neg Bool.false_ne_true]
      exact ih absent _ _

theorem cutAt?.go_of_not_mem {first : Char} {token text : Text} (absent : first ∉ text)
    (quoted : Bool) (passed : Text) : go (first :: token) text quoted passed = none := by
  rw [← List.append_nil text, go_append absent, go]

end Text

namespace Call

/-- Where a text is read up to its end, the quotes in it decide whether what is behind it is quoted;
otherwise it does not matter what is behind it. -/
theorem readOperands_append (text : Text) (quoted : Bool) (draft : Operand.Draft)
    (done : List Operand) :
    (∃ draft' more, ∀ rest, readOperands (text ++ rest) quoted draft done =
      readOperands rest (text.leavesQuoted quoted) draft' (more ++ done)) ∨
        ∃ operands, ∀ rest, readOperands (text ++ rest) quoted draft done = operands := by
  induction text generalizing quoted draft done with
  | nil => exact .inl ⟨draft, [], fun _ => rfl⟩
  | cons c text ih =>
    cases quoted with
    | true =>
      simp only [List.cons_append, readOperands, Text.leavesQuoted_cons]
      by_cases mark : c = '"'
      · simpa [mark] using ih false (draft.pushBase c) done
      · simpa [mark] using ih true (draft.pushBase c) done
    | false =>
      simp only [List.cons_append, readOperands, Text.leavesQuoted_cons]
      by_cases mark : c = '"'
      · simpa [mark] using ih true (draft.pushBase c) done
      by_cases comma : c = ','
      · rcases ih false {} (draft.finish :: done) with ⟨draft', more, goesOn⟩ | stops
        · left
          exact ⟨draft', more ++ [draft.finish], by simpa [comma] using goesOn⟩
        · right
          simpa [comma] using stops
      by_cases closing : c = ')'
      · exact .inr ⟨closeOperands done draft.finish, fun rest => by simp [closing]⟩
      by_cases opens : c = '['
      · simpa [opens] using ih false draft.openIndex done
      by_cases closes : c = ']'
      · simpa [closes] using ih false draft.closeIndex done
      · simpa [mark, comma, closing, opens, closes] using ih false (draft.push c) done

/-- **A text that is read as an operand** is read up to its end. -/
theorem Reads.not_stops {text : Text} {o : Operand} (h : Reads text o) {operands : List Operand} :
    ¬ ∀ rest, readOperands (text ++ rest) false {} [] = operands := by
  intro stops
  have one := (stops [',']).symm.trans (h.comma [] [])
  have two := (stops [',', ',']).symm.trans (h.comma [','] [])
  have same := congrArg List.length (one.symm.trans two)
  simp [readOperands, closeOperands] at same

/-- **A text that is read as an operand** leaves no quoted text open. -/
theorem Reads.balanced {text : Text} {o : Operand} (h : Reads text o) :
    text.leavesQuoted false = false := by
  rcases readOperands_append text false {} [] with ⟨draft, done, goesOn⟩ | ⟨operands, stops⟩
  · cases open_ : text.leavesQuoted false with
    | false => rfl
    | true =>
      -- the comma would belong to the operand that is not complete
      have same := (goesOn [',']).symm.trans (h.comma [] [])
      rw [open_] at same
      have last := congrArg List.getLast? same
      simp [readOperands, closeOperands, Operand.Draft.pushBase, Operand.Draft.finish] at last
  · exact absurd stops h.not_stops

end Call

/-! ## Conditions -/

namespace Rewrite

theorem leavesQuoted_plain (quoted : Bool) (text : Text) :
    (plain text).leavesQuoted quoted = text.leavesQuoted quoted := by
  induction text generalizing quoted with
  | nil => rfl
  | cons c text ih =>
    by_cases kept : (c ≠ '=' && c ≠ '(' && c ≠ ')') = true
    · rw [plain, List.filter_cons, if_pos kept, Text.leavesQuoted_cons, Text.leavesQuoted_cons]
      exact ih _
    · have other : c ≠ '"' := by
        rintro rfl
        exact kept rfl
      rw [plain, List.filter_cons, if_neg kept, Text.leavesQuoted_cons, if_neg other]
      exact ih _

theorem plain_append (text more : Text) : plain (text ++ more) = plain text ++ plain more :=
  List.filter_append ..

end Rewrite

namespace Operator

/-- A comparison is one of four characters, behind which an equals sign may stand. It has to behind
another one. -/
theorem exists_of_mem_comparisons {entry : String × Comparison} (member : entry ∈ comparisons) :
    ∃ first tail, entry.1.toList = first :: tail ∧ first ∈ ['=', '<', '>', '!'] ∧
      (tail = [] ∧ first ≠ '=' ∨ tail = ['=']) := by
  simp only [comparisons, List.mem_cons, List.not_mem_nil, or_false] at member
  rcases member with rfl | rfl | rfl | rfl | rfl | rfl <;> exact ⟨_, _, rfl, by decide, by decide⟩

/-- Where a comparison stands, the tokens are found that it begins with. -/
theorem go_comparison {entry other : String × Comparison} (member : entry ∈ comparisons)
    (member' : other ∈ comparisons) {right : Text} (absent : ∀ c ∈ ['=', '<', '>', '!'], c ∉ right)
    (passed : Text) :
    Text.cutAt?.go other.1.toList (entry.1.toList ++ right) false passed =
      if other.1.toList.isPrefixOf entry.1.toList then some (passed.reverse, entry.1.toList ++ right)
      else none := by
  have noEquals : ¬ ['='] <+: right := by
    rintro ⟨rest, rfl⟩
    exact absent _ List.mem_cons_self List.mem_cons_self
  have noQuote {c : Char} (mark : c ∈ ['=', '<', '>', '!']) : c ≠ '"' := by
    rintro rfl
    revert mark
    decide
  obtain ⟨first, tail, shape, mark, short⟩ := exists_of_mem_comparisons member
  obtain ⟨first', tail', shape', mark', short'⟩ := exists_of_mem_comparisons member'
  rw [shape, shape', List.cons_append, Text.cutAt?.go, if_neg (noQuote mark),
    List.isPrefixOf_cons_cons, List.isPrefixOf_cons_cons]
  have behind := @Text.cutAt?.go_of_not_mem first' tail' right (absent _ mark')
  by_cases same : first' = first
  · subst same
    rcases short with ⟨rfl, -⟩ | rfl <;> rcases short' with ⟨rfl, -⟩ | rfl <;>
      simp [noEquals, behind]
  · rcases short with ⟨rfl, -⟩ | rfl
    · simp [same, behind]
    · -- only another equals sign could make a comparison of the one that is left
      rcases short' with ⟨rfl, other'⟩ | rfl
      · simp [same, Text.cutAt?.go, other', behind]
      · simp [same, Text.cutAt?.go, noEquals, behind]

/-- **A comparison between operands without comparisons** is the one that is found. -/
theorem find?_comparisons {entry : String × Comparison} (member : entry ∈ comparisons)
    {left right : Text} (absent : ∀ c ∈ ['=', '<', '>', '!'], c ∉ left)
    (balanced : left.leavesQuoted false = false) (absent' : ∀ c ∈ ['=', '<', '>', '!'], c ∉ right) :
    find? comparisons (left ++ (entry.1.toList ++ right)) =
      some ⟨entry.2, left, entry.1.toList, right⟩ := by
  have occurs (other : String × Comparison) (member' : other ∈ comparisons) :
      occurrence? (left ++ (entry.1.toList ++ right)) other =
        if other.1.toList.isPrefixOf entry.1.toList then
          some ⟨other.2, left, other.1.toList, (entry.1.toList ++ right).drop other.1.toList.length⟩
        else none := by
    obtain ⟨first, tail, shape, mark, -⟩ := exists_of_mem_comparisons member'
    have cut : Text.cutAt? other.1.toList (left ++ (entry.1.toList ++ right)) =
        Text.cutAt?.go other.1.toList (entry.1.toList ++ right) false left.reverse := by
      rw [Text.cutAt?, shape, Text.cutAt?.go_append (absent first mark), balanced, List.append_nil]
    rw [occurrence?, cut, go_comparison member member' absent']
    split
    · rw [List.reverse_reverse]
      rfl
    · rfl
  simp only [find?, comparisons, List.foldl_cons, List.foldl_nil]
  rw [occurs ("==", .equal) (by decide), occurs (">", .greater) (by decide),
    occurs (">=", .greaterOrEqual) (by decide), occurs ("<", .lower) (by decide),
    occurs ("<=", .lowerOrEqual) (by decide), occurs ("!=", .notEqual) (by decide)]
  simp only [comparisons, List.mem_cons, List.not_mem_nil, or_false] at member
  rcases member with rfl | rfl | rfl | rfl | rfl | rfl <;> rfl

end Operator

/-- **A test in call form**: the slot, and what stands on both sides of the comparison. -/
theorem Rewrite.condition?_eq {entry : String × Comparison} (member : entry ∈ Operator.comparisons)
    (keyword : ConditionKeyword) {left right : Text} (absent : ∀ c ∈ ['=', '<', '>', '!'], c ∉ left)
    (balanced : left.leavesQuoted false = false) (absent' : ∀ c ∈ ['=', '<', '>', '!'], c ∉ right)
    (slot : Word) :
    condition? (keyword.text.toList ++ (left ++ (entry.1.toList ++ right))) slot =
      some {
        keyword
        text := slotCall (keyword.opcode entry.2).name slot ++ plain left ++ ',' :: plain right
          ++ [')'] } := by
  have key : conditionKeyword? (keyword.text.toList ++ (left ++ (entry.1.toList ++ right))) =
      some keyword := by
    cases keyword <;> rfl
  have letters : ∀ c ∈ ['=', '<', '>', '!', '"'], c ∉ keyword.text.toList := by
    cases keyword <;> exact Text.forall_mem_of_all (by decide)
  have found := @Operator.find?_comparisons entry member (keyword.text.toList ++ left) right
    (fun c mark inside => by
      rcases List.mem_append.1 inside with inside | inside
      · exact letters c (List.mem_append_left ['"'] mark) inside
      · exact absent c mark inside)
    (by rw [Text.leavesQuoted_append, Text.leavesQuoted_of_not_mem _ (letters _ (by decide)),
      balanced]) absent'
  rw [List.append_assoc] at found
  -- the equals sign of a longer comparison is dropped as those in the operands are
  have tail : plain (entry.1.toList.tail ++ right) = plain right := by
    obtain ⟨first, tail, shape, -, short⟩ := Operator.exists_of_mem_comparisons member
    rw [shape, List.tail_cons, plain_append]
    rcases short with ⟨rfl, -⟩ | rfl <;> rfl
  rw [condition?, key, found]
  simp only [Option.bind_eq_bind, Option.bind_some, List.drop_left, tail]

/-- The operands of the call form of a block: its slot, and what is compared or looked at. -/
theorem Call.split_slotCall_append {name : String} {slot : Nat} (word : Rewrite.IsWord name)
    (small : slot < 0x80000000) {text : Text} {operands : List Operand}
    (reads : ∀ o, readOperands text false {} [o] = o :: operands) :
    split (Rewrite.slotCall name (Word.ofNat slot) ++ text) =
      ⟨name.toList, ⟨Numeral.ofNat slot, none⟩ :: operands⟩ := by
  rw [split_slotCall (word.not_mem rfl) small, reads]

namespace Tests

variable {keyword : ConditionKeyword} {comparison : Comparison} {a b : Operand} {text : Text}

/-- **A test is brought into call form** with its slot and its operands. -/
theorem exists_condition (h : Tests Rewrite.Writes keyword comparison a b text) {slot : Nat}
    (small : slot < 0x80000000) :
    ∃ condition, Rewrite.condition? text (Word.ofNat slot) = some condition ∧
      condition.keyword = keyword ∧ Call.split condition.text =
        ⟨(keyword.opcode comparison).name.toList, [⟨Numeral.ofNat slot, none⟩, a, b]⟩ := by
  obtain ⟨operator, fit, fit'⟩ := h
  have balanced := fit.reads.balanced
  rw [Rewrite.leavesQuoted_plain] at balanced
  refine ⟨_, Rewrite.condition?_eq operator keyword fit.noComparison balanced fit'.noComparison _, rfl,
    ?_⟩
  dsimp only
  rw [List.append_assoc, List.append_assoc]
  exact Call.split_slotCall_append (Rewrite.isWord_name ..) small fun o => by
    rw [List.cons_append, fit.reads.comma, fit'.reads.closing]
    rfl

end Tests

/-- **A switch is brought into call form** with its slot and its operand. -/
theorem Selects.exists_switch {a : Operand} {text : Text} (h : Selects a text) {slot : Nat}
    (small : slot < 0x80000000) :
    ∃ opened, Rewrite.switch? text (Word.ofNat slot) = some opened ∧
      Call.split opened = ⟨"switch".toList, [⟨Numeral.ofNat slot, none⟩, a]⟩ := by
  obtain ⟨reads⟩ := h
  rename_i operand
  refine ⟨Rewrite.slotCall "switch" (Word.ofNat slot) ++ Rewrite.plain operand ++ [')'], rfl, ?_⟩
  rw [List.append_assoc]
  exact Call.split_slotCall_append (by decide) small fun o => by
    rw [reads.closing]
    rfl

/-! ## Keywords -/

/-- The small letters. -/
def Text.letters : Text := "abcdefghijklmnopqrstuvwxyz".toList

namespace Closes

variable {keyword : String} {text : Text}

theorem letters (h : Closes keyword text) (word : ∀ c ∈ keyword.toList, c.toLower ∈ Text.letters) :
    ∀ c ∈ text, c.toLower ∈ Text.letters := by
  intro c member
  have lower := List.mem_map_of_mem (f := Char.toLower) member
  rw [Text.sameName_iff.1 h] at lower
  obtain ⟨c', member', same⟩ := List.mem_map.1 lower
  exact same ▸ word c' member'

/-- A line is no keyword that is spelled differently. -/
theorem not_closes {other : String} (h : Closes keyword text)
    (distinct : keyword.toList.map Char.toLower ≠ other.toList.map Char.toLower) :
    Text.sameName text other.toList = false := by
  rw [Bool.eq_false_iff]
  intro same
  exact distinct ((Text.sameName_iff.1 h).symm.trans (Text.sameName_iff.1 same))

theorem head?_ne {first c : Char} (h : Closes keyword text) (head : keyword.toList.head? = some first)
    (other : c.toLower ≠ first.toLower) : text.head? ≠ some c := by
  intro same
  have heads := congrArg List.head? (Text.sameName_iff.1 h)
  rw [List.head?_map, List.head?_map, same, head] at heads
  exact other (Option.some.inj heads)

end Closes

/-- In a text of letters there is no operator. -/
theorem Operator.find?_of_letters {text : Text} (h : ∀ c ∈ text, c.toLower ∈ Text.letters) :
    find? assignments text = none := by
  rw [find?_eq_none_iff]
  intro entry member
  rw [Option.eq_none_iff_forall_ne_some]
  intro found occurs
  obtain ⟨-, shape⟩ := eq_of_occurrence? occurs
  have table : ∀ entry ∈ assignments,
      entry.1.toList.any (decide <| ·.toLower ∉ Text.letters) = true := by decide
  obtain ⟨c, inside, other⟩ := List.any_eq_true.1 (table entry member)
  refine of_decide_eq_true other (h c ?_)
  rw [shape]
  exact List.mem_append_right _ (List.mem_append_left _ inside)

theorem Call.split_of_letters {text : Text} (h : ∀ c ∈ text, c.toLower ∈ Text.letters) :
    split text = ⟨text, []⟩ :=
  split_of_not_mem fun member => absurd (h '(' member) (by decide)

/-! ## Plain lines -/

namespace Directive

/-- The characters that those words begin with. -/
def openings : Text := ['i', 'w', 's', 'c', 'd', '#']

/-- A line that begins with another character than those words is plain. -/
theorem plain_of_head? {text : Text} (h : ∀ c ∈ openings, text.head? ≠ some c) : Plain text := by
  have heads : (openers.all fun word => word.head?.any openings.contains) = true := by decide
  intro word member
  have begins := List.all_eq_true.1 heads word member
  cases head : word.head? with
  | none =>
    rw [head] at begins
    cases begins
  | some c =>
    rw [head] at begins
    exact Text.isPrefixOf_of_head? head (h c (List.contains_iff_mem.1 begins))

namespace Plain

variable {text : Text} (h : Plain text)

include h

theorem noConditionKeyword : Rewrite.conditionKeyword? text = none := by
  rw [Rewrite.conditionKeyword?, show ConditionKeyword.ifLine.text.toList.isPrefixOf text = false
    from h _ (by decide), show ConditionKeyword.whileLine.text.toList.isPrefixOf text = false
    from h _ (by decide)]
  rfl

theorem noTest (slot : Word) : Rewrite.condition? text slot = none := by
  rw [Rewrite.condition?, h.noConditionKeyword]
  rfl

theorem noStart : startsSwitch text = false := h _ (by decide)

theorem noSwitch (slot : Word) : Rewrite.switch? text slot = none := by
  rw [← Option.not_isSome_iff_eq_none, Rewrite.isSome_switch?, h.noStart]
  exact Bool.false_ne_true

theorem noCase : caseLabel? text = none := by
  rw [← Option.not_isSome_iff_eq_none, caseLabel?, Option.isSome_map, Text.isSome_stripPrefix?,
    h _ (by decide)]
  exact Bool.false_ne_true

theorem noDefault : isDefault text = false := h _ (by decide)

theorem noEnd : endsPlatform text = false := h _ (by decide)

theorem noPlatform : platform? text = none := by
  have front : Text.stripPrefix? "#platform:".toList text = none := by
    rw [← Option.not_isSome_iff_eq_none, Text.isSome_stripPrefix?, h _ (by decide)]
    exact Bool.false_ne_true
  rw [platform?, front]
  rfl

end Plain

end Directive

/-- A keyword that begins with another letter than those words is a plain line. -/
theorem Closes.plain {keyword : String} {text : Text} (h : Closes keyword text)
    {first : Char} (head : keyword.toList.head? = some first)
    (other : (Directive.openings.all fun c => c.toLower ≠ first.toLower) = true) :
    Directive.Plain text :=
  Directive.plain_of_head? fun c member => h.head?_ne head (Text.forall_mem_of_all other c member)

/-! ## Instructions -/

/-- An instruction that a line of a passage may call by its name. -/
def Opcode.IsPlain (op : Opcode) : Prop := op.isControl = false ∨ op = .control .callFunction

instance (op : Opcode) : Decidable op.IsPlain :=
  inferInstanceAs (Decidable (op.isControl = false ∨ op = .control .callFunction))

/-- The opcode of a name has this name. -/
theorem Opcode.sameName_of_lookup? {name : Text} {op : Opcode} (h : lookup? name = some op) :
    op ∈ all ∧ Text.sameName op.name.toList name = true := by
  obtain ⟨entry, found, rfl⟩ := Option.map_eq_some_iff.1 h
  obtain ⟨op, member, rfl⟩ := List.mem_map.1 (List.mem_of_find?_eq_some found)
  exact ⟨Array.mem_toList_iff.1 (List.mem_filter.1 member).1, by simpa using List.find?_some found⟩

/-- An opcode that is found is found by its own name. -/
theorem Opcode.lookup?_name {name : Text} {op : Opcode} (h : lookup? name = some op) :
    lookup? op.name.toList = some op :=
  (lookup?_congr (sameName_of_lookup? h).2).trans h

/-- What the names of opcodes have in common. -/
theorem Opcode.name_facts : ∀ op ∈ all, Text.IsName op.name.toList ∧ (op.IsPlain →
    ∀ word ∈ Directive.openers, word.isPrefixOf (op.name.toList.map Char.toLower) = false) := by
  decide +kernel

/-- No name of such an instruction begins like a line of another form. -/
theorem Opcode.plain_name (op : Opcode) (member : op ∈ all) (called : op.IsPlain) (word : Text)
    (opener : word ∈ Directive.openers) : word.isPrefixOf (op.name.toList.map Char.toLower) = false :=
  (name_facts op member).2 called word opener

theorem Text.prefix_takeWhile {text word : Text} {p : Char → Bool} (all : ∀ c ∈ word, p c = true)
    (front : word <+: text) : word <+: text.takeWhile p := by
  obtain ⟨rest, rfl⟩ := front
  rw [List.takeWhile_append_of_pos all]
  exact List.prefix_append ..

namespace Instructs

variable {text : Text} {op : Opcode} {operands : List Operand}

/-- **A line with an instruction** has no other form. -/
theorem plain (h : Instructs text op operands) (called : op.IsPlain) : Directive.Plain text := by
  cases h with
  | binary plain => exact plain
  | unary plain => exact plain
  | call noOperator read known =>
    obtain ⟨member, same⟩ := Opcode.sameName_of_lookup? known
    intro word opener
    rw [Bool.eq_false_iff, Ne, List.isPrefixOf_iff_prefix]
    intro front
    have letters : ∀ word ∈ Directive.openers, word.map Char.toLower = word ∧ '(' ∉ word := by decide
    obtain ⟨lower, noParenthesis⟩ := letters word opener
    have inName : word <+: (Call.split text).name :=
      Text.prefix_takeWhile (fun c inside => decide_eq_true fun same => noParenthesis (same ▸ inside))
        front
    rw [read] at inName
    have begins := inName.map Char.toLower
    rw [lower, ← Text.sameName_iff.1 same, ← List.isPrefixOf_iff_prefix,
      Opcode.plain_name op member called word opener] at begins
    cases begins

/-- A line with an instruction is no keyword of another opcode. -/
theorem not_closes {keyword : String} (h : Instructs text op operands)
    (word : ∀ c ∈ keyword.toList, c.toLower ∈ Text.letters)
    (other : Opcode.lookup? keyword.toList ≠ some op) :
    Text.sameName text keyword.toList = false := by
  rw [Bool.eq_false_iff]
  intro same
  have letters := (show Closes keyword text from same).letters word
  have noOperator := Operator.find?_of_letters letters
  cases h with
  | binary _ operator => cases operator.symm.trans noOperator
  | unary _ operator => cases operator.symm.trans noOperator
  | call _ read known =>
    rw [Call.split_of_letters letters] at read
    obtain ⟨rfl, -⟩ := Call.mk.inj read
    exact other ((Opcode.lookup?_congr same).symm.trans known)

/-- The opcodes of infix operators are known by their names. -/
theorem lookup?_of_find? {found : Operator.Match Opcode}
    (operator : Operator.find? Operator.assignments text = some found) :
    '(' ∉ found.meaning.name.toList ∧
      Opcode.lookup? found.meaning.name.toList = some found.meaning := by
  obtain ⟨entry, member, occurs⟩ := Operator.exists_of_find? operator
  obtain ⟨meaning, -⟩ := Operator.eq_of_occurrence? occurs
  rw [meaning]
  revert entry
  have table : ∀ entry ∈ Operator.assignments, '(' ∉ entry.2.name.toList ∧
      Opcode.lookup? entry.2.name.toList = some entry.2 := by decide +kernel
  exact fun entry member _ _ => table entry member

/-- The call that an infix operator becomes is read as one of its opcode. -/
theorem split_of_find? {found : Operator.Match Opcode} {text : Text} {operands : List Operand}
    (written : Text) (operator : Operator.find? Operator.assignments text = some found)
    (assigned : Rewrite.assignment? text = some (found.meaning.name.toList ++ '(' :: written))
    (reads : Call.readOperands written false {} [] = operands) :
    ∃ name, Call.split ((Rewrite.assignment? text).getD text) = ⟨name, operands⟩ ∧
      Opcode.lookup? name = some found.meaning ∧
        Directive.caseLabel? ((Rewrite.assignment? text).getD text) = none ∧
          Directive.isDefault ((Rewrite.assignment? text).getD text) = false := by
  obtain ⟨word, known⟩ := lookup?_of_find? operator
  obtain ⟨noCase, noDefault⟩ := head?_of_assignment? assigned
  rw [assigned, Option.getD_some]
  exact ⟨_, by rw [Call.split_eq word, reads], known, Directive.caseLabel?_of_head? noCase,
    Text.isPrefixOf_of_head? rfl noDefault⟩

/-- **What is compiled of a line with an instruction** is a call of it with its operands. -/
theorem split_eq (h : Instructs text op operands) (called : op.IsPlain) :
    ∃ name, Call.split ((Rewrite.assignment? text).getD text) = ⟨name, operands⟩ ∧
      Opcode.lookup? name = some op ∧
        Directive.caseLabel? ((Rewrite.assignment? text).getD text) = none ∧
          Directive.isDefault ((Rewrite.assignment? text).getD text) = false := by
  have plain := h.plain called
  cases h with
  | call noOperator read known =>
    rw [Rewrite.assignment?, noOperator, Option.map_none, Option.getD_none]
    exact ⟨_, read, known, plain.noCase, plain.noDefault⟩
  | @binary found a b _ operator two reads reads' =>
    refine split_of_find? (found.before ++ ',' :: (found.after ++ [')'])) operator ?_ ?_
    · rw [Rewrite.assignment?, operator, Option.map_some, if_pos (by rw [two]; decide)]
      simp
    · rw [reads.comma, reads'.closing]
      rfl
  | @unary found a _ operator one reads written =>
    refine split_of_find? (found.before ++ [')']) operator ?_ ?_
    · rw [Rewrite.assignment?, operator, Option.map_some, if_neg (by rw [one]; decide)]
      simp
    · rw [reads.closing, Call.closeOperands, if_neg (by simp [written])]
      rfl

end Instructs

/-! ## Looking ahead -/

/-- A line that no search for labels looks at. -/
structure Priming.Passes (text : Text) : Prop where
  noStart : Directive.startsSwitch text = false
  noEnd : Directive.endsSwitch text = false
  noCase : Directive.caseLabel? text = none

namespace Priming

variable {aliases : List Alias} {line : Line} {rest : List Line} {depth last : Nat}
  {range : LabelRange}

theorem Passes.scan_eq (h : Passes line.text) :
    scan aliases (line :: rest) depth last range = scan aliases rest depth line.number range := by
  simp only [scan, h.noStart, h.noEnd, h.noCase, Bool.false_eq_true, if_false]
  split <;> rfl

/-- In a switch inside no label counts. -/
theorem scan_of_inside (noStart : Directive.startsSwitch line.text = false)
    (noEnd : Directive.endsSwitch line.text = false) :
    scan aliases (line :: rest) (depth + 1) last range =
      scan aliases rest (depth + 1) line.number range := by
  simp only [scan, noStart, noEnd, Bool.false_eq_true, if_false, Nat.succ_ne_zero]

theorem passes_of_empty {text : Text} (empty : text = []) : Passes text := by
  subst empty
  exact ⟨rfl, rfl, rfl⟩

end Priming

theorem Tests.head? {Fit : Text → Operand → Prop} {keyword : ConditionKeyword} {comparison : Comparison}
    {a b : Operand} {text : Text} (h : Tests Fit keyword comparison a b text) :
    text.head? = some 'i' ∨ text.head? = some 'w' := by
  obtain ⟨-, -, -⟩ := h
  cases keyword
  · exact .inl rfl
  · exact .inr rfl

theorem Tests.ne_nil {Fit : Text → Operand → Prop} {keyword : ConditionKeyword} {comparison : Comparison}
    {a b : Operand} {text : Text} (h : Tests Fit keyword comparison a b text) : text ≠ [] := by
  rintro rfl
  rcases h.head? with head | head <;> cases head

theorem Tests.passes {Fit : Text → Operand → Prop} {keyword : ConditionKeyword} {comparison : Comparison}
    {a b : Operand} {text : Text} (h : Tests Fit keyword comparison a b text) :
    Priming.Passes text := by
  rcases h.head? with head | head
  · obtain ⟨noStart, noEnd⟩ := Directive.noSwitch_of_head? head (by decide)
    exact ⟨noStart, noEnd, Directive.caseLabel?_of_head? (by rw [head]; decide)⟩
  · obtain ⟨noStart, noEnd⟩ := Directive.noSwitch_of_head? head (by decide)
    exact ⟨noStart, noEnd, Directive.caseLabel?_of_head? (by rw [head]; decide)⟩

theorem Instructs.passes {text : Text} {op : Opcode} {operands : List Operand}
    (h : Instructs text op operands) (called : op.IsPlain) : Priming.Passes text := by
  have plain := h.plain called
  have letters : ∀ c ∈ "endswitch".toList, c.toLower ∈ Text.letters :=
    Text.forall_mem_of_all (by decide)
  refine ⟨plain.noStart, h.not_closes letters ?_, plain.noCase⟩
  rw [show Opcode.lookup? "endswitch".toList = some (.control .endSwitch) by decide +kernel]
  rintro same
  obtain rfl := Option.some.inj same
  revert called
  decide

theorem Closes.passes {keyword : String} {text : Text} (h : Closes keyword text)
    (plain : Directive.Plain text)
    (distinct : keyword.toList.map Char.toLower ≠ "endswitch".toList.map Char.toLower) :
    Priming.Passes text :=
  ⟨plain.noStart, h.not_closes distinct, plain.noCase⟩

theorem Closes.ends {text : Text} (h : Closes "endswitch" text) :
    Directive.startsSwitch text = false ∧ Directive.endsSwitch text = true :=
  ⟨(h.plain rfl (by decide)).noStart, h⟩

theorem Selects.starts {a : Operand} {text : Text} (h : Selects a text) :
    Directive.startsSwitch text = true := by
  obtain ⟨-⟩ := h
  rfl

theorem Selects.ne_nil {a : Operand} {text : Text} (h : Selects a text) : text ≠ [] := by
  rintro rfl
  cases h.starts

theorem Directive.noSwitch_of_caseLabel? {text label : Text} (read : caseLabel? text = some label) :
    startsSwitch text = false ∧ endsSwitch text = false := by
  obtain ⟨_, front, -⟩ := Option.map_eq_some_iff.1 read
  have begins := Text.isSome_stripPrefix? "case".toList text
  rw [front, Option.isSome_some] at begins
  exact noSwitch_of_head? (Text.head?_of_isPrefixOf rfl begins.symm) (by decide)

theorem Directive.passes_of_isDefault {text : Text} (read : isDefault text = true) :
    Priming.Passes text := by
  have head := Text.head?_of_isPrefixOf rfl read
  obtain ⟨noStart, noEnd⟩ := noSwitch_of_head? head (by decide)
  exact ⟨noStart, noEnd, caseLabel?_of_head? (by rw [head]; decide)⟩

namespace Passage.Spells

open Priming

variable {Fit : Text → Operand → Prop} {passage : Passage} {lines : List Line} {aliases : List Alias}

/-- **A search for labels** passes over a passage in a switch inside. -/
theorem scan_inside (aliases : List Alias) (spells : Spells Fit passage lines) (rest : List Line)
    (depth last : Nat) (range : LabelRange) :
    ∃ last', scan aliases (lines ++ rest) (depth + 1) last range =
      scan aliases rest (depth + 1) last' range := by
  -- The depth counts the switches that are open, so the hypothesis is for every depth.
  induction spells generalizing rest depth last with
  | nothing => exact ⟨last, rfl⟩
  | blank empty => exact ⟨_, (passes_of_empty empty).scan_eq⟩
  | seq _ _ front back =>
    obtain ⟨last', same⟩ := front (_ ++ rest) depth last
    rw [List.append_assoc, same]
    exact back rest depth last'
  | act instructs data => exact ⟨_, (instructs.passes (.inl data)).scan_eq⟩
  | call instructs => exact ⟨_, (instructs.passes (.inr rfl)).scan_eq⟩
  | @branch first final _ _ _ _ _ tests _ closes inside =>
    obtain ⟨last', same⟩ := inside (final :: rest) depth first.number
    rw [List.cons_append, tests.passes.scan_eq, List.append_assoc, List.singleton_append, same]
    exact ⟨_, (closes.passes (closes.plain rfl (by decide)) (by decide)).scan_eq⟩
  | @divided first middle final _ _ _ _ _ _ more tests _ divides _ closes inside other =>
    obtain ⟨last', same⟩ := inside (middle :: (more ++ [final] ++ rest)) depth first.number
    obtain ⟨last'', same'⟩ := other (final :: rest) depth middle.number
    rw [List.cons_append, tests.passes.scan_eq, List.append_assoc, List.cons_append, same,
      (divides.passes (divides.plain rfl (by decide)) (by decide)).scan_eq,
      List.append_assoc, List.singleton_append, same']
    exact ⟨_, (closes.passes (closes.plain rfl (by decide)) (by decide)).scan_eq⟩
  | @loop first final _ _ _ _ _ tests _ closes inside =>
    obtain ⟨last', same⟩ := inside (final :: rest) depth first.number
    rw [List.cons_append, tests.passes.scan_eq, List.append_assoc, List.singleton_append, same]
    exact ⟨_, (closes.passes (closes.plain rfl (by decide)) (by decide)).scan_eq⟩
  -- One deeper and back again: the labels inside are of another switch.
  | @switch first final _ _ _ selects _ _ closes inside =>
    obtain ⟨last', same⟩ := inside (final :: rest) (depth + 1) first.number
    obtain ⟨noStart, ends⟩ := closes.ends
    rw [List.cons_append, (scan_of_starts selects.starts).1, List.append_assoc,
      List.singleton_append, same]
    exact ⟨_, (scan_of_ends noStart ends).1⟩
  | case read =>
    obtain ⟨noStart, noEnd⟩ := Directive.noSwitch_of_caseLabel? read
    exact ⟨_, scan_of_inside noStart noEnd⟩
  | fallback read => exact ⟨_, (Directive.passes_of_isDefault read).scan_eq⟩
  | leave read =>
    exact ⟨_, (read.passes (read.plain rfl (by decide)) (by decide)).scan_eq⟩

/-- **A search that comes to the end of its switch** finds the values of the labels of a passage on the
way. -/
theorem exists_scan (spells : Spells Fit passage lines) {rest : List Line} {last n : Nat}
    {range : LabelRange} (closed : (scan aliases (lines ++ rest) 0 last range).ending = .closed n) :
    ∃ last' values, passage.labels.mapM (labelValue? aliases) = some values ∧
      scan aliases (lines ++ rest) 0 last range =
        scan aliases rest 0 last' (values.foldl LabelRange.add range) := by
  induction spells generalizing rest last range with
  | nothing => exact ⟨last, [], rfl, rfl⟩
  | blank empty => exact ⟨_, [], rfl, (passes_of_empty empty).scan_eq⟩
  | seq _ _ front back =>
    rw [List.append_assoc] at closed ⊢
    obtain ⟨last', values, known, same⟩ := front closed
    rw [same] at closed ⊢
    obtain ⟨last'', values', known', same'⟩ := back closed
    refine ⟨last'', values ++ values', ?_, ?_⟩
    · rw [labels, List.mapM_append, known, known']
      rfl
    · rw [same', List.foldl_append]
  | act instructs data => exact ⟨_, [], rfl, (instructs.passes (.inl data)).scan_eq⟩
  | call instructs => exact ⟨_, [], rfl, (instructs.passes (.inr rfl)).scan_eq⟩
  | @branch first final _ _ _ _ _ tests _ closes inside =>
    rw [List.cons_append, tests.passes.scan_eq, List.append_assoc, List.singleton_append] at closed ⊢
    obtain ⟨last', values, known, same⟩ := inside closed
    rw [same]
    refine ⟨_, values, ?_,
      (closes.passes (closes.plain rfl (by decide)) (by decide)).scan_eq⟩
    rw [labels, labels, List.append_nil, known]
  | @divided first middle final _ _ _ _ _ _ more tests _ divides _ closes inside other =>
    rw [List.cons_append, tests.passes.scan_eq, List.append_assoc, List.cons_append] at closed ⊢
    obtain ⟨last', values, known, same⟩ := inside closed
    rw [same, (divides.passes (divides.plain rfl (by decide)) (by decide)).scan_eq,
      List.append_assoc, List.singleton_append] at closed ⊢
    obtain ⟨last'', values', known', same'⟩ := other closed
    rw [same']
    refine ⟨final.number, values ++ values', ?_, ?_⟩
    · rw [labels, List.mapM_append, known, known']
      rfl
    · rw [(closes.passes (closes.plain rfl (by decide)) (by decide)).scan_eq,
        List.foldl_append]
  | @loop first final _ _ _ _ _ tests _ closes inside =>
    rw [List.cons_append, tests.passes.scan_eq, List.append_assoc, List.singleton_append] at closed ⊢
    obtain ⟨last', values, known, same⟩ := inside closed
    rw [same]
    exact ⟨_, values, known,
      (closes.passes (closes.plain rfl (by decide)) (by decide)).scan_eq⟩
  -- The labels inside do not count, and the search comes past them at any depth.
  | @switch first final _ _ _ selects _ inside closes =>
    obtain ⟨last', same⟩ := inside.scan_inside aliases (final :: rest) 0 first.number range
    obtain ⟨noStart, ends⟩ := closes.ends
    rw [List.cons_append, (scan_of_starts selects.starts).1, List.append_assoc,
      List.singleton_append, same]
    exact ⟨_, [], rfl, (scan_of_ends noStart ends).1⟩
  -- A label that cannot be read would have ended the search.
  | @case line label read =>
    obtain ⟨noStart, noEnd⟩ := Directive.noSwitch_of_caseLabel? read
    rw [List.singleton_append] at closed ⊢
    simp only [scan, noStart, noEnd, read, Bool.false_eq_true, if_false, if_true] at closed ⊢
    cases known : labelValue aliases label with
    | error reason =>
      rw [known] at closed
      cases closed
    | ok value => exact ⟨line.number, [value], by simp [labels, labelValue?, known, Except.toOption], rfl⟩
  | fallback read => exact ⟨_, [], rfl, (Directive.passes_of_isDefault read).scan_eq⟩
  | leave read =>
    exact ⟨_, [], rfl, (read.passes (read.plain rfl (by decide)) (by decide)).scan_eq⟩

end Passage.Spells

end StageScript
