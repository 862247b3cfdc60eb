import StageScript.Proofs.Compiler.Names
import StageScript.Proofs.Compiler.Translation

/-! # Names in the place of what they stand for
An operand of a call is read with regard to quotes, and the value of an alias without.
* `Text.IsLevel` — brackets are opened and closed in turn, and none is opened within quotes;
* **`OperandForm.isLevel_iff`** — of the ways of writing an operand, only quoted texts may not be so;
* **`Call.Reads.split_eq`** — such a text is read alike in both places;
* `Call.Gap` — a place for an operand in a call;
* **`Compiler.emitCall_congr`** — calls that differ in one operand are compiled alike if the operands are;
* **`compileLine_alias`** — so are a line with the name of an alias and the line with its value;
* **`not_all_transparent`** — they are not where a bracket stands within quotes. -/

namespace StageScript

open Stepwise

/-! ## Brackets -/

/-- What the next character of an operand belongs to. -/
inductive Zone
  | name
  | index
  | quote
  deriving DecidableEq, Repr

/-- What a character leads to. No bracket is opened within quotes or within brackets, and no quote within
brackets, and only a bracket that is open is closed. -/
def Zone.after : Zone → Char → Option Zone
  | .name, c =>
    if c = '"' then some .quote
    else if c = '[' then some .index
    else if c = ']' then none
    else some .name
  | .index, c => if c = ']' then some .name else if c = '[' || c = '"' then none else some .index
  | .quote, c => if c = '"' then some .name else if c = '[' then none else some .quote

/-- **Whether the brackets of a text are opened and closed in turn**, and none is opened within quotes. The
last one may be left open. -/
def Text.IsLevel (text : Text) : Prop := (text.foldlM Zone.after .name).isSome = true

instance (text : Text) : Decidable text.IsLevel := inferInstanceAs (Decidable (_ = true))

namespace Text

variable {text front index back content : Text}

/-- Plain characters stay where they are. -/
theorem foldlM_after_plain (plain : ∀ c ∈ text, Call.IsPlain c) (zone : Zone) :
    text.foldlM Zone.after zone = some zone := by
  induction text with
  | nil => rfl
  | cons c text ih =>
    obtain ⟨quote, -, -, opens, closes⟩ := plain c List.mem_cons_self
    have stays : zone.after c = some zone := by
      cases zone <;> simp [Zone.after, quote, opens, closes]
    rw [List.foldlM_cons, stays]
    exact ih fun c member => plain c (List.mem_cons_of_mem _ member)

/-- A name or a numeral is level. -/
theorem isLevel_plain (plain : ∀ c ∈ text, Call.IsPlain c) : text.IsLevel := by
  rw [IsLevel, foldlM_after_plain plain]
  rfl

/-- A name with an index is level. -/
theorem isLevel_index (plainFront : ∀ c ∈ front, Call.IsPlain c) (plainIndex : ∀ c ∈ index, Call.IsPlain c)
    (plainBack : ∀ c ∈ back, Call.IsPlain c) : (front ++ '[' :: (index ++ ']' :: back)).IsLevel := by
  have opened : Zone.after .name '[' = some .index := rfl
  have closed : Zone.after .index ']' = some .name := rfl
  simp only [IsLevel, List.foldlM_append, List.foldlM_cons, foldlM_after_plain plainFront,
    foldlM_after_plain plainIndex, foldlM_after_plain plainBack, opened, closed, Option.bind_eq_bind,
    Option.bind_some, Option.isSome_some]

/-- **A quoted text is level** exactly if no bracket is opened in it. -/
theorem isLevel_quote (noQuote : '"' ∉ content) :
    (OperandForm.quote content).IsLevel ↔ '[' ∉ content := by
  have inside : (content ++ ['"']).foldlM Zone.after .quote =
      if '[' ∈ content then none else some .name := by
    induction content with
    | nil => rfl
    | cons c content ih =>
      obtain ⟨quote, noQuote⟩ := not_or.1 (mt List.mem_cons.2 noQuote)
      rw [List.cons_append, List.foldlM_cons, Zone.after, if_neg (Ne.symm quote)]
      by_cases opens : c = '['
      · simp [opens]
      · rw [if_neg opens, Option.bind_eq_bind, Option.bind_some, ih noQuote]
        simp [Ne.symm opens]
  have opened : Zone.after .name '"' = some .quote := rfl
  rw [IsLevel, OperandForm.quote, List.foldlM_cons, opened, Option.bind_eq_bind, Option.bind_some, inside]
  split <;> simp_all

end Text

/-- **Each way of writing an operand is level**, but for a quoted text in which a bracket is opened. -/
theorem OperandForm.isLevel_iff (f : OperandForm) (plain : f.IsPlain) :
    f.text.IsLevel ↔ ∀ content noQuote, f = quoted content noQuote → '[' ∉ content := by
  have unquoted (level : f.text.IsLevel) (other : ∀ content noQuote, f ≠ quoted content noQuote) :
      f.text.IsLevel ↔ ∀ content noQuote, f = quoted content noQuote → '[' ∉ content :=
    ⟨fun _ content noQuote same => absurd same (other content noQuote), fun _ => level⟩
  cases f with
  | quoted content noQuote =>
    rw [OperandForm.text, Text.isLevel_quote noQuote]
    constructor
    · intro bare _ _ same
      obtain rfl := quoted.inj same
      exact bare
    · exact fun bare => bare content noQuote rfl
  | literal l => exact unquoted (Text.isLevel_plain l.isPlain) (by simp)
  | «variable» v name known =>
    exact unquoted (Text.isLevel_plain (Variable.worded_of_lookup? known).plain) (by simp)
  | element v front back known index =>
    have name := (Variable.worded_of_lookup? known).plain
    refine unquoted ?_ (by simp)
    apply Text.isLevel_index _ index.isPlain
    · exact fun c member => name c (List.mem_append_right _ member)
    · exact fun c member => name c (List.mem_append_left _ member)
  | function name => exact unquoted (Text.isLevel_plain plain) (by simp)
  | global name => exact unquoted (Text.isLevel_plain plain) (by simp)
  | typeName spelling label spells =>
    refine unquoted ?_ (by simp)
    exact @Text.isLevel_index spelling label [] (Call.isPlain_of_typeName spells) plain.2
      (List.forall_mem_nil _)

namespace Call

variable {text : Text} {o : Operand} {zone zone' : Zone} {draft : Operand.Draft}

/-- **One character** is read in a call as it is in a text that stands alone, unless it ends the operand
there. -/
theorem readOperands_step {c : Char} (next : zone.after c = some zone')
    (drafted : draft.inIndex = (zone == .index)) :
    (zone ≠ .quote ∧ (c = ',' ∨ c = ')')) ∨
      (Operand.splitStep draft c).inIndex = (zone' == .index) ∧
        ∀ rest done, readOperands (c :: rest) (zone == .quote) draft done =
          readOperands rest (zone' == .quote) (Operand.splitStep draft c) done := by
  obtain ⟨base, index, inIndex⟩ := draft
  obtain rfl : inIndex = (zone == .index) := drafted
  by_cases separator : zone ≠ .quote ∧ (c = ',' ∨ c = ')')
  · exact .inl separator
  right
  by_cases quote : c = '"'
  · subst quote
    cases zone with
    | index => simp [Zone.after] at next
    | name | quote =>
      obtain rfl := Option.some.inj next
      exact ⟨rfl, fun _ _ => rfl⟩
  by_cases opens : c = '['
  · subst opens
    cases zone with
    | index | quote => simp [Zone.after] at next
    | name =>
      obtain rfl := Option.some.inj next
      exact ⟨rfl, fun _ _ => rfl⟩
  by_cases closes : c = ']'
  · subst closes
    cases zone with
    | name => simp [Zone.after] at next
    | index | quote =>
      obtain rfl := Option.some.inj next
      exact ⟨rfl, fun _ _ => rfl⟩
  -- any other character belongs to the part that is being read
  obtain rfl : zone = zone' := by
    cases zone <;> simpa [Zone.after, quote, opens, closes] using next
  have pushed : Operand.splitStep ⟨base, index, zone == .index⟩ c =
      Operand.Draft.push ⟨base, index, zone == .index⟩ c := by
    simp [Operand.splitStep, opens, closes]
  rw [pushed]
  cases zone with
  | quote =>
    refine ⟨rfl, fun rest done => ?_⟩
    have inside : readOperands (c :: rest) true ⟨base, index, false⟩ done =
        readOperands rest (decide (c ≠ '"')) (Operand.Draft.pushBase ⟨base, index, false⟩ c) done := by
      rw [readOperands]
    rw [decide_eq_true quote] at inside
    exact inside
  | name | index =>
    obtain ⟨comma, closing⟩ := not_or.1 fun ends => separator ⟨by decide, ends⟩
    have plain : ∀ c' ∈ [c], IsPlain c' :=
      List.forall_mem_singleton.2 ⟨quote, comma, closing, opens, closes⟩
    exact ⟨rfl, fun rest done => @readOperands_foldl [c] rest _ done plain⟩

/-- **How a level text is read in a call**: as if it stood alone, unless another operand begins in it or the
call ends in it. -/
theorem readOperands_of_level (level : text.foldlM Zone.after zone = some zone')
    (drafted : draft.inIndex = (zone == .index)) (done : List Operand) :
    (∀ rest, readOperands (text ++ rest) (zone == .quote) draft done =
        readOperands rest (zone' == .quote) (text.foldl Operand.splitStep draft) done) ∨
      (∃ quoted draft' more first, ∀ rest, readOperands (text ++ rest) (zone == .quote) draft done =
        readOperands rest quoted draft' (more ++ first :: done)) ∨
      ∃ operands, ∀ rest, readOperands (text ++ rest) (zone == .quote) draft done = operands := by
  induction text generalizing zone draft with
  | nil =>
    left
    intro rest
    obtain rfl := Option.some.inj level
    rfl
  | cons c text ih =>
    rw [List.foldlM_cons] at level
    obtain ⟨zone₁, next, level⟩ := Option.bind_eq_some_iff.1 level
    rcases readOperands_step next drafted with ⟨unquoted, rfl | rfl⟩ | ⟨drafted', step⟩
    · -- a comma: another operand begins
      have quoted : (zone == .quote) = false := beq_false_of_ne unquoted
      rw [quoted]
      rcases readOperands_append text false {} (draft.finish :: done) with
        ⟨draft', more, goesOn⟩ | ⟨operands, stops⟩
      · right; left
        exact ⟨_, draft', more, draft.finish, fun rest => readOperands_comma.trans (goesOn rest)⟩
      · right; right
        exact ⟨operands, fun rest => readOperands_comma.trans (stops rest)⟩
    · -- a parenthesis: the call ends
      have quoted : (zone == .quote) = false := beq_false_of_ne unquoted
      right; right
      refine ⟨closeOperands done draft.finish, fun rest => ?_⟩
      rw [quoted]
      rfl
    · simp only [List.cons_append, step, List.foldl_cons]
      exact ih level drafted'

/-- A list of operands with one entry, which may be empty, shows this entry. -/
theorem closeOperands_inj {o o' : Operand} (same : closeOperands [] o = closeOperands [] o') :
    o = o' := by
  by_cases empty : o = {} <;> by_cases empty' : o' = {} <;>
    simp_all [closeOperands]

/-- **A level text that is read as an operand of a call** is read alike where it stands alone. -/
theorem Reads.split_eq (reads : Reads text o) (level : text.IsLevel) : Operand.split text = o := by
  obtain ⟨zone', level⟩ := Option.isSome_iff_exists.1 level
  have ending := reads.ending []
  rw [← List.append_nil text] at ending
  rcases @readOperands_of_level text .name zone' {} level rfl [] with
    whole | ⟨quoted, draft', more, first, goesOn⟩ | ⟨operands, stops⟩
  · exact closeOperands_inj ((whole []).symm.trans ending)
  · -- there would be two operands
    obtain ⟨second, others, shape⟩ := readOperands_done [] quoted draft'
    have two := ((shape _ (by simp)).symm.trans (goesOn []).symm).trans ending
    have count := congrArg List.length two
    rw [closeOperands] at count
    split at count <;> simp at count
  · exact absurd stops reads.not_stops

/-! ## Places in a call -/

/-- A text that is read as one operand. -/
structure ReadsOne (text : Text) (o : Operand) : Prop extends Reads text o where
  written : o ≠ {}

/-- **A place for an operand in a call**: other operands may stand in front of it, and what is behind it
ends the operand. -/
structure Gap where
  name : Text
  operands : List Text
  behind : Text
  noParenthesis : '(' ∉ name
  noQuote : '"' ∉ name
  reads : ∀ text ∈ operands, ∃ o, Reads text o
  ends : ∀ c, behind.head? = some c → c = ',' ∨ c = ')'

namespace Gap

/-- What is in front of the place. -/
def front (g : Gap) : Text := g.name ++ '(' :: g.operands.flatMap (· ++ [','])

/-- A call with a text in the place. -/
def fill (g : Gap) (text : Text) : Text := g.front ++ (text ++ g.behind)

/-- The operands in front of the place are complete there. -/
theorem exists_done {operands : List Text} (reads : ∀ text ∈ operands, ∃ o, Reads text o)
    (done : List Operand) :
    ∃ done', ∀ rest, readOperands (operands.flatMap (· ++ [',']) ++ rest) false {} done =
      readOperands rest false {} done' := by
  induction operands generalizing done with
  | nil => exact ⟨done, fun _ => rfl⟩
  | cons text operands ih =>
    obtain ⟨o, read⟩ := reads text List.mem_cons_self
    obtain ⟨done', complete⟩ := ih (fun text member => reads text (List.mem_cons_of_mem _ member))
      (o :: done)
    refine ⟨done', fun rest => ?_⟩
    rw [List.flatMap_cons, List.append_assoc, List.append_assoc, List.singleton_append, read.comma,
      complete]

/-- **Calls that differ in one place** have the same operands but there. -/
theorem exists_split (g : Gap) : ∃ front back, ∀ text o, ReadsOne text o →
    split (g.fill text) = ⟨g.name, front ++ o :: back⟩ := by
  obtain ⟨done, begins⟩ := exists_done g.reads []
  have closed (o : Operand) (written : o ≠ {}) : closeOperands done o = done.reverse ++ [o] := by
    rw [closeOperands, if_neg (by simp [written]), List.reverse_cons]
  have called (text : Text) : split (g.fill text) =
      ⟨g.name, readOperands (text ++ g.behind) false {} done⟩ := by
    rw [fill, Gap.front, List.append_assoc, List.cons_append, split_eq g.noParenthesis, begins]
  cases shape : g.behind with
  | nil =>
    refine ⟨done.reverse, [], fun text o reads => ?_⟩
    rw [called, shape, List.append_nil, reads.ending, closed o reads.written]
  | cons c rest =>
    rcases g.ends c (by rw [shape]; rfl) with rfl | rfl
    · obtain ⟨next, more, following⟩ := readOperands_done rest false {}
      refine ⟨done.reverse, next :: more, fun text o reads => ?_⟩
      rw [called, shape, reads.comma, following _ (List.cons_ne_nil _ _), List.reverse_cons,
        List.append_assoc]
      rfl
    · refine ⟨done.reverse, [], fun text o reads => ?_⟩
      rw [called, shape, reads.closing, closed o reads.written]

/-- No quoted text is open in front of the place. -/
theorem leavesQuoted_front (g : Gap) : g.front.leavesQuoted false = false := by
  have balanced : ∀ operands : List Text, (∀ text ∈ operands, ∃ o, Reads text o) →
      Text.leavesQuoted false (operands.flatMap (· ++ [','])) = false := by
    intro operands reads
    induction operands with
    | nil => rfl
    | cons text operands ih =>
      obtain ⟨o, read⟩ := reads text List.mem_cons_self
      rw [List.flatMap_cons, Text.leavesQuoted_append, Text.leavesQuoted_append, read.balanced]
      exact ih fun text member => reads text (List.mem_cons_of_mem _ member)
  rw [front, Text.leavesQuoted_append, Text.leavesQuoted_of_not_mem false g.noQuote]
  exact balanced g.operands g.reads

/-- In front of the place stands a parenthesis or a comma. -/
theorem getLast?_front (g : Gap) {c : Char} (last : g.front.getLast? = some c) : c = '(' ∨ c = ',' := by
  rw [front, List.getLast?_append, List.getLast?_cons, Option.some_or] at last
  obtain rfl := Option.some.inj last
  rcases g.operands.eq_nil_or_concat with none_ | ⟨others, text, shape⟩
  · rw [none_]
    exact .inl rfl
  · rw [shape, List.concat_eq_append, List.flatMap_append, List.flatMap_singleton, ← List.append_assoc,
      List.getLast?_concat]
    exact .inr rfl

end Gap

end Call

/-! ## Aliases in operands -/

/-- Without brackets a text that stands alone has no index. -/
theorem Operand.index_split {text : Text} (bare : '[' ∉ text) : (split text).index = none := by
  have steps (draft : Draft) (closed : draft.inIndex = false) :
      (text.foldl splitStep draft).index = draft.index := by
    induction text generalizing draft with
    | nil => rfl
    | cons c text ih =>
      obtain ⟨other, bare⟩ := not_or.1 (mt List.mem_cons.2 bare)
      have step : splitStep draft c = draft.pushBase c := by
        simp [splitStep, Ne.symm other, closed, Draft.push]
      rw [List.foldl_cons, step]
      exact ih bare (draft.pushBase c) closed
  rw [split, Draft.finish, steps {} rfl]
  rfl

/-- **An alias gives an operand without an index its value.** -/
theorem Alias.applyTo_eq_split {a : Alias} {spelling : Text}
    (spells : Text.sameName spelling a.name = true) :
    a.applyTo ⟨spelling, none⟩ = Operand.split a.value := by
  rw [applyTo, if_pos spells]
  dsimp only
  split
  · rfl
  · next bare => rw [← Operand.index_split bare]

namespace Compiler

variable {c : Compiler} {front back : List Alias} {a : Alias} {o o' : Operand} {spelling : Text}

/-- **An alias stands for its value**, if no other alias of its name is in front of it and no alias names
the value. -/
theorem substitute_alias (named : c.aliases = front ++ a :: back)
    (first : ∀ b ∈ front, Text.sameName b.name a.name = false)
    (spells : Text.sameName spelling a.name = true) (value : Operand.split a.value = o)
    (unnamed : ∀ b ∈ c.aliases, Text.sameName b.name o.base = false) :
    c.substitute ⟨spelling, none⟩ = c.substitute o := by
  have passed : front.foldl (fun o a => a.applyTo o) ⟨spelling, none⟩ = ⟨spelling, none⟩ := by
    apply foldl_applyTo_eq
    intro b member
    have other := first b member
    rw [Bool.eq_false_iff] at other ⊢
    exact fun same => other (Text.sameName_iff.2
      ((Text.sameName_iff.1 same).trans (Text.sameName_iff.1 spells)))
  have kept : back.foldl (fun o a => a.applyTo o) o = o := by
    apply foldl_applyTo_eq
    intro b member
    apply unnamed b
    rw [named]
    exact List.mem_append_right _ (List.mem_cons_of_mem _ member)
  have replaced : c.aliases.foldl (fun o a => a.applyTo o) ⟨spelling, none⟩ = o := by
    rw [named, List.foldl_append, passed, List.foldl_cons, Alias.applyTo_eq_split spells, value, kept]
  simp only [substitute, replaced, foldl_applyTo_eq unnamed]

/-- What means the same is compiled alike. -/
theorem emitOperand_of_substitute (same : c.substitute o = c.substitute o') :
    emitOperand o c = emitOperand o' c := by
  rw [emitOperand, emitOperand, bind_apply, bind_apply, get_apply]
  dsimp only
  rw [same]

theorem aliases_emit (words : List Word) (c : Compiler) : (emit words c).2.aliases = c.aliases := by
  rw [emit_apply]
  split <;> rfl

/-- An operand adds no alias. -/
theorem aliases_emitOperand (o : Operand) (c : Compiler) :
    (emitOperand o c).2.aliases = c.aliases := by
  rw [emitOperand, bind_apply, get_apply]
  dsimp only
  have kept := aliases_emit (c.substitute o).emission.words c
  rw [bind_apply]
  rcases added : emit (c.substitute o).emission.words c with ⟨p | ⟨⟨⟩⟩, c₁⟩
  all_goals rw [added] at kept
  · exact kept
  · dsimp only
    cases (c.substitute o).emission.refusal <;> exact kept

/-- Operands that differ in one place are compiled alike if those two are, wherever the aliases are the
same. -/
theorem forM_emitOperand {operands more : List Operand}
    (alike : ∀ c' : Compiler, c'.aliases = c.aliases → emitOperand o c' = emitOperand o' c') :
    (operands ++ o :: more).forM emitOperand c = (operands ++ o' :: more).forM emitOperand c := by
  have split (first : Operand) (rest : List Operand) (c : Compiler) :
      (first :: rest).forM emitOperand c =
        (emitOperand first >>= fun _ => rest.forM emitOperand : Emit Unit) c := rfl
  induction operands generalizing c with
  | nil => rw [List.nil_append, List.nil_append, split, split, bind_apply, bind_apply, alike c rfl]
  | cons first operands ih =>
    have kept := aliases_emitOperand first c
    rw [List.cons_append, List.cons_append, split, split, bind_apply, bind_apply]
    rcases emitted : emitOperand first c with ⟨p | ⟨⟨⟩⟩, c₁⟩
    · rfl
    · rw [emitted] at kept
      exact ih fun c' same => alike c' (same.trans kept)

/-- **Calls that differ in one operand** are compiled alike if the two operands are. -/
theorem emitCall_congr {text text' name : Text} {operands more : List Operand}
    (called : Call.split text = ⟨name, operands ++ o :: more⟩)
    (called' : Call.split text' = ⟨name, operands ++ o' :: more⟩)
    (alike : ∀ c' : Compiler, c'.aliases = c.aliases → emitOperand o c' = emitOperand o' c') :
    emitCall text c = emitCall text' c := by
  unfold emitCall
  rw [called, called']
  dsimp only
  cases Opcode.lookup? name with
  | none => rfl
  | some op =>
    have count : (operands ++ o :: more).length = (operands ++ o' :: more).length := by simp
    dsimp only
    rw [count]
    by_cases arity : (operands ++ o' :: more).length = op.arity
    · cases governs : governedBlock op with
      | none =>
        have kept := aliases_emit [op.word] c
        simp only [arity, ne_eq, not_true_eq_false, if_false, pure_bind, bind_apply]
        rcases added : emit [op.word] c with ⟨p | ⟨⟨⟩⟩, c₁⟩
        · rfl
        · rw [added] at kept
          exact forM_emitOperand fun c' same => alike c' (same.trans kept)
      | some kind =>
        -- what closes or divides a block takes no operand
        rw [arity_of_governedBlock governs] at arity
        simp at arity
    · rw [if_pos arity, if_pos arity]
      rfl

end Compiler

/-! ## Tokens -/

namespace Text

variable {token text rest keyword name : Text} {c : Char}

/-- What a token is searched behind does not matter. -/
theorem cutAt?.go_eq_none_iff {quoted : Bool} (passed passed' : Text) :
    go token text quoted passed = none ↔ go token text quoted passed' = none := by
  induction text generalizing quoted passed passed' with
  | nil => exact Iff.rfl
  | cons c text ih =>
    rw [go, go]
    split
    · exact ih _ _
    · split
      · simp
      · exact ih _ _

/-- No token reaches over the end of a text if it has no such character in it. -/
theorem prefix_of_prefix_append (occurs : token <+: text ++ rest)
    (apart : (∀ c, text.getLast? = some c → c ∉ token) ∨ ∀ c, rest.head? = some c → c ∉ token)
    (some_ : text ≠ []) : token <+: text := by
  rcases List.prefix_or_prefix_of_prefix occurs (List.prefix_append text rest) with inside | ⟨beyond, rfl⟩
  · exact inside
  · cases beyond with
    | nil => simp
    | cons c beyond =>
      exfalso
      rcases apart with apart | apart
      · exact apart _ (List.getLast?_eq_some_getLast some_)
          (List.mem_append_left _ (List.getLast_mem some_))
      · obtain ⟨behind, rfl⟩ := (List.prefix_append_right_inj text).1 occurs
        exact apart c rfl (by simp)

/-- **A token that reaches over no part of a line** stands in the line if it stands in a part. -/
theorem cutAt?_append_eq_none_iff (balanced : text.leavesQuoted false = false)
    (apart : (∀ c, text.getLast? = some c → c ∉ token) ∨ ∀ c, rest.head? = some c → c ∉ token) :
    cutAt? token (text ++ rest) = none ↔ cutAt? token text = none ∧ cutAt? token rest = none := by
  suffices general : ∀ (quoted : Bool) (passed : Text), text.leavesQuoted quoted = false →
      (cutAt?.go token (text ++ rest) quoted passed = none ↔
        cutAt?.go token text quoted passed = none ∧ cutAt? token rest = none) from
    general false [] balanced
  -- The reading may be inside quotes already, so the induction is for either state at the
  -- beginning.
  clear balanced
  induction text with
  | nil =>
    intro quoted passed balanced
    rw [leavesQuoted_nil] at balanced
    rw [balanced, List.nil_append, cutAt?, cutAt?.go_eq_none_iff passed []]
    exact ⟨fun none_ => ⟨rfl, none_⟩, And.right⟩
  | cons c text ih =>
    intro quoted passed balanced
    have apart' : (∀ c, text.getLast? = some c → c ∉ token) ∨ ∀ c, rest.head? = some c → c ∉ token := by
      refine apart.imp_left fun apart c last => apart c ?_
      rw [List.getLast?_cons, last]
      rfl
    rw [leavesQuoted_cons] at balanced
    rw [List.cons_append, cutAt?.go, cutAt?.go]
    by_cases quote : c = '"'
    · rw [if_pos quote, if_pos quote]
      rw [if_pos quote] at balanced
      exact ih apart' _ _ balanced
    rw [if_neg quote] at balanced
    rw [if_neg quote, if_neg quote]
    -- A token that begins in the first part ends in it.
    have same : token.isPrefixOf (c :: (text ++ rest)) = token.isPrefixOf (c :: text) := by
      rw [Bool.eq_iff_iff, List.isPrefixOf_iff_prefix, List.isPrefixOf_iff_prefix]
      refine ⟨fun occurs => prefix_of_prefix_append occurs apart (List.cons_ne_nil _ _), fun occurs => ?_⟩
      exact occurs.trans (List.prefix_append (c :: text) rest)
    rw [same]
    split
    · simp
    · exact ih apart' _ _ balanced

/-- Whether a line begins with a keyword is to be seen in front of a character that is not in it. -/
theorem isPrefixOf_append_cons (absent : c ∉ keyword) :
    keyword.isPrefixOf (name ++ c :: rest) = keyword.isPrefixOf name := by
  rw [Bool.eq_iff_iff, List.isPrefixOf_iff_prefix, List.isPrefixOf_iff_prefix]
  constructor
  · intro begins
    cases name with
    | nil =>
      cases keyword with
      | nil => exact List.prefix_rfl
      | cons k keyword =>
        rw [(List.cons_prefix_cons.1 begins).1] at absent
        exact absurd List.mem_cons_self absent
    | cons first name =>
      refine prefix_of_prefix_append begins (.inr fun c' head => ?_) (List.cons_ne_nil _ _)
      obtain rfl := Option.some.inj head
      exact absent
  · exact fun begins => begins.trans (List.prefix_append name _)

end Text

/-- **Whether a text has no operator** outside quotes. -/
structure Text.IsFree (text : Text) : Prop where
  noComparison : Operator.find? Operator.comparisons text = none
  noAssignment : Operator.find? Operator.assignments text = none

instance (text : Text) : Decidable text.IsFree :=
  decidable_of_iff (Operator.find? Operator.comparisons text = none ∧
      Operator.find? Operator.assignments text = none)
    ⟨fun ⟨none_, none_'⟩ => ⟨none_, none_'⟩, fun ⟨none_, none_'⟩ => ⟨none_, none_'⟩⟩

/-- A table finds nothing where none of its tokens stands. -/
theorem Operator.find?_eq_none_iff_cutAt? {α : Type} {table : List (String × α)} {text : Text} :
    find? table text = none ↔ ∀ entry ∈ table, Text.cutAt? entry.1.toList text = none := by
  simp only [find?_eq_none_iff, occurrence?, Option.map_eq_none_iff]

/-- No token is found in a quoted text, whatever stands between the quotes. -/
theorem Text.cutAt?_quote {content : Text} (noQuote : '"' ∉ content) (token : Text) :
    cutAt? token (OperandForm.quote content) = none := by
  suffices passes : ∀ passed, cutAt?.go token (content ++ ['"']) true passed = none from passes _
  induction content with
  | nil => exact fun _ => rfl
  | cons c content ih =>
    intro passed
    obtain ⟨other, noQuote⟩ := not_or.1 (mt List.mem_cons.2 noQuote)
    rw [List.cons_append, cutAt?.go, if_neg (Ne.symm other), Bool.not_true, Bool.false_and,
      if_neg Bool.false_ne_true]
    exact ih noQuote _

/-- A quoted text has no operator. -/
theorem Text.isFree_quote {content : Text} (noQuote : '"' ∉ content) :
    (OperandForm.quote content).IsFree := by
  constructor <;> exact Operator.find?_eq_none_iff_cutAt?.2 fun entry _ => cutAt?_quote noQuote _

/-- No operator has a mark of a call in it. -/
theorem Operator.not_mem_token {α : Type} {table : List (String × α)}
    (marks : table.all (fun entry => ['(', ',', ')'].all (· ∉ entry.1.toList)) = true)
    {entry : String × α} (member : entry ∈ table) : ∀ c ∈ ['(', ',', ')'], c ∉ entry.1.toList := by
  have all := List.all_eq_true.1 marks entry member
  exact fun c mark => of_decide_eq_true (List.all_eq_true.1 all c mark)

/-! ## Lines that are calls -/

open Compiler

namespace Directive

/-- What the lines of a body begin with that are no calls, those with an operator apart. -/
def keywords : List String := ["#platform:", "#endplatform", "switch", "case", "default"]

/-- **A line of a body that is a call.** -/
structure IsCall (text : Text) : Prop where
  stays : Region.closes text = false
  noKeyword : ∀ keyword ∈ keywords, keyword.toList.isPrefixOf text = false
  noTest : Rewrite.conditionKeyword? text = none ∨ Operator.find? Operator.comparisons text = none
  noAssignment : Operator.find? Operator.assignments text = none

/-- Without the keyword a line has none of the parts that follow it. -/
theorem stripPrefix?_eq_none {keyword text : Text} (other : keyword.isPrefixOf text = false) :
    Text.stripPrefix? keyword text = none := by
  rw [← Option.not_isSome_iff_eq_none, Text.isSome_stripPrefix?, other]
  exact Bool.false_ne_true

end Directive

/-- A keyword that closes a body has no parenthesis. -/
theorem Region.closes_of_mem {text : Text} (parenthesis : '(' ∈ text) : closes text = false := by
  have other (keyword : Text) (absent : '(' ∉ keyword) : Text.sameName text keyword = false := by
    rw [Text.sameName_comm, Bool.eq_false_iff]
    exact fun same => absent (Text.mem_of_sameName same rfl parenthesis)
  rw [closes, other _ (by decide), other _ (by decide)]
  rfl

/-- A line that is a call is compiled as that call. -/
theorem compileLine_of_isCall {c : Compiler} {text : Text} {type number : Nat} {rest : List Line}
    (mode : c.mode = .inside) (h : Directive.IsCall text) :
    compileLine type ⟨number, text⟩ rest c = onLine number (emitCall text) c := by
  have other (keyword : String) (member : keyword ∈ Directive.keywords) :=
    Directive.stripPrefix?_eq_none (h.noKeyword keyword member)
  have noPlatform : Directive.platform? text = none := by
    rw [Directive.platform?, other "#platform:" (by decide)]
    rfl
  have noEnd : Directive.endsPlatform text = false := h.noKeyword "#endplatform" (by decide)
  have noTest (slot : Word) : Rewrite.condition? text slot = none := by
    rcases h.noTest with none_ | none_ <;> simp [Rewrite.condition?, none_]
  have noSwitch (slot : Word) : Rewrite.switch? text slot = none := by
    rw [Rewrite.switch?, other "switch" (by decide)]
    rfl
  have noAssignment : Rewrite.assignment? text = none := by
    rw [Rewrite.assignment?, h.noAssignment]
    rfl
  have noLabel : Directive.caseLabel? text = none := by
    rw [Directive.caseLabel?, other "case" (by decide)]
    rfl
  have noDefault : Directive.isDefault text = false := h.noKeyword "default" (by decide)
  have stays := h.stays
  rw [Region.closes, Bool.or_eq_false_iff] at stays
  have called : insideLine text c = (do emitCall text; return none : Emit (Option Nat)) c := by
    simp only [insideLine, stays.1, stays.2, Bool.false_eq_true, if_false, noPlatform, noEnd, statement,
      bind_apply, get_apply, noTest, noSwitch, pure_apply, noAssignment, Option.getD_none, emitLine,
      noLabel, noDefault]
  rw [compileLine, bind_apply, get_apply]
  dsimp only
  rw [mode]
  dsimp only
  rw [bind_apply, onLine, called, onLine, bind_apply]
  rcases emitCall text c with ⟨reason | ⟨⟨⟩⟩, c₁⟩ <;> rfl

namespace Call.Gap

variable {g : Gap} {text text' : Text} {o o' : Operand}

/-- **A token that is no part of what calls are made of** stands in a call if it stands in one of its
parts. -/
theorem cutAt?_fill {token : Text} (reads : Reads text o) (marks : ∀ c ∈ ['(', ',', ')'], c ∉ token) :
    Text.cutAt? token (g.fill text) = none ↔
      Text.cutAt? token g.front = none ∧ Text.cutAt? token text = none ∧
        Text.cutAt? token g.behind = none := by
  have inFront (c : Char) (last : g.front.getLast? = some c) : c ∉ token := by
    rcases g.getLast?_front last with rfl | rfl
    · exact marks _ (by decide)
    · exact marks _ (by decide)
  have behind (c : Char) (head : g.behind.head? = some c) : c ∉ token := by
    rcases g.ends c head with rfl | rfl
    · exact marks _ (by decide)
    · exact marks _ (by decide)
  rw [fill, Text.cutAt?_append_eq_none_iff g.leavesQuoted_front (.inl inFront),
    Text.cutAt?_append_eq_none_iff reads.balanced (.inr behind)]

/-- **A call stays one** with another operand without operators. -/
theorem isCall_fill (reads : Reads text o) (reads' : Reads text' o') (free : text'.IsFree)
    (call : Directive.IsCall (g.fill text)) : Directive.IsCall (g.fill text') := by
  have begins (keyword : Text) (absent : '(' ∉ keyword) :
      keyword.isPrefixOf (g.fill text') = keyword.isPrefixOf (g.fill text) := by
    simp only [fill, front, List.append_assoc, List.cons_append, Text.isPrefixOf_append_cons absent]
  have kept {α : Type} {table : List (String × α)}
      (marks : table.all (fun entry => ['(', ',', ')'].all (· ∉ entry.1.toList)) = true)
      (none_ : Operator.find? table (g.fill text) = none)
      (none_' : Operator.find? table text' = none) : Operator.find? table (g.fill text') = none := by
    rw [Operator.find?_eq_none_iff_cutAt?] at none_ none_' ⊢
    intro entry member
    have apart := Operator.not_mem_token marks member
    obtain ⟨inFront, -, behind⟩ := (cutAt?_fill reads apart).1 (none_ entry member)
    exact (cutAt?_fill reads' apart).2 ⟨inFront, none_' entry member, behind⟩
  refine ⟨?_, fun keyword member => ?_, ?_, kept (by decide) call.noAssignment free.noAssignment⟩
  · exact Region.closes_of_mem (by simp [fill, front])
  · have absent : ∀ keyword ∈ Directive.keywords, '(' ∉ keyword.toList := by decide
    rw [begins _ (absent keyword member)]
    exact call.noKeyword keyword member
  · rw [Rewrite.conditionKeyword?, begins _ (by decide), begins _ (by decide),
      ← Rewrite.conditionKeyword?]
    exact call.noTest.imp_right fun none_ => kept (by decide) none_ free.noComparison

end Call.Gap

/-- **An alias is transparent.** Let a line of a body be a call with the name of an alias as an operand.
If the value of the alias is read as one operand, which no alias names, has no operators outside quotes
and opens and closes its brackets in turn, none within quotes, then the line with the value in the place of
the name is compiled alike: the two lines add the same words, and fail for the same reason if they do. -/
theorem compileLine_alias {c : Compiler} {front back : List Alias} {a : Alias} {o : Operand}
    {g : Call.Gap} {spelling : Text} {type number : Nat} {rest : List Line}
    (mode : c.mode = .inside) (named : c.aliases = front ++ a :: back)
    (first : ∀ b ∈ front, Text.sameName b.name a.name = false)
    (spells : Text.sameName spelling a.name = true) (bare : Call.ReadsOne spelling ⟨spelling, none⟩)
    (value : Call.ReadsOne a.value o) (unnamed : ∀ b ∈ c.aliases, Text.sameName b.name o.base = false)
    (free : a.value.IsFree) (level : a.value.IsLevel) (call : Directive.IsCall (g.fill spelling)) :
    compileLine type ⟨number, g.fill spelling⟩ rest c =
      compileLine type ⟨number, g.fill a.value⟩ rest c := by
  obtain ⟨operands, more, splits⟩ := g.exists_split
  have alike (c' : Compiler) (same : c'.aliases = c.aliases) :
      emitOperand ⟨spelling, none⟩ c' = emitOperand o c' := by
    apply emitOperand_of_substitute
    rw [← same] at named unnamed
    exact substitute_alias named first spells (value.split_eq level) unnamed
  have call' := g.isCall_fill bare.toReads value.toReads free call
  rw [compileLine_of_isCall mode call, compileLine_of_isCall mode call', onLine, onLine,
    emitCall_congr (splits _ _ bare) (splits _ _ value) alike]

/-- A body of a file that has one more name. -/
def bodyNaming (name value : String) : Compiler :=
  { freshCompiler with
    mode := .inside
    aliases := defaultAliases ++ [⟨name.toList, value.toList⟩] }

/-- A call whose first operand is to be filled in. -/
def calling (name behind : String) (noParenthesis : '(' ∉ name.toList) (noQuote : '"' ∉ name.toList)
    (ends : ∀ c, behind.toList.head? = some c → c = ',' ∨ c = ')') : Call.Gap where
  name := name.toList
  operands := []
  behind := behind.toList
  noParenthesis
  noQuote
  reads := nofun
  ends

/-- Plain characters are a name. -/
theorem Call.readsOne_plain {text : Text} (plain : text.all (decide <| IsPlain ·) = true)
    (some_ : text ≠ []) : ReadsOne text ⟨text, none⟩ where
  toReads := reads_plain (Text.forall_mem_of_all plain)
  written same := some_ (congrArg Operand.base same)

theorem compileLine_alias_coordinate :
    ∃ c' : Compiler,
      compileLine 0 ⟨1, "Equal(spot,5)".toList⟩ [] (bodyNaming "Spot" "Object[+1].XPos") =
          (.ok (), c') ∧
        compileLine 0 ⟨1, "Equal(Object[+1].XPos,5)".toList⟩ [] (bodyNaming "Spot" "Object[+1].XPos") =
          (.ok (), c') := by
  have plain (text : Text) (all : text.all (decide <| Call.IsPlain ·) = true) :=
    Text.forall_mem_of_all (P := Call.IsPlain) all
  have value : Call.ReadsOne "Object[+1].XPos".toList ⟨"Object.XPos".toList, some "+1".toList⟩ :=
    ⟨@Call.reads_index "Object".toList "+1".toList ".XPos".toList (by decide) (plain _ (by decide))
      (plain _ (by decide)) (plain _ (by decide)), by decide⟩
  have alike := @compileLine_alias (bodyNaming "Spot" "Object[+1].XPos") defaultAliases [] _ _
    (calling "Equal" ",5)" (by decide) (by decide) (by simp)) "spot".toList 0 1 [] rfl rfl
    (by decide +kernel) (by decide) (Call.readsOne_plain (by decide) (by decide)) value
    (by decide +kernel) (by decide) (by decide) ⟨by decide, by decide, .inl (by decide), by decide⟩
  have compiled : compileLine 0 ⟨1, "Equal(Object[+1].XPos,5)".toList⟩ []
      (bodyNaming "Spot" "Object[+1].XPos") = _ :=
    Except.eq_of_toOption (show _ = some () by decide +kernel)
  exact ⟨_, alike.trans compiled, compiled⟩

/-- **An alias is not transparent** where a bracket stands within quotes: a call reads it as a part of the
text, and the value of an alias loses it with what stands behind it. -/
theorem not_all_transparent :
    ¬ ∀ (c : Compiler) (front back : List Alias) (a : Alias) (content : Text) (g : Call.Gap)
        (spelling : Text) (type number : Nat) (rest : List Line),
      c.mode = .inside → c.aliases = front ++ a :: back →
      (∀ b ∈ front, Text.sameName b.name a.name = false) → Text.sameName spelling a.name = true →
      Call.ReadsOne spelling ⟨spelling, none⟩ → '"' ∉ content → a.value = OperandForm.quote content →
      (∀ b ∈ c.aliases, Text.sameName b.name a.value = false) → a.value.IsFree →
      Directive.IsCall (g.fill spelling) →
      (compileLine type ⟨number, g.fill spelling⟩ rest c).2.program.code =
        (compileLine type ⟨number, g.fill a.value⟩ rest c).2.program.code := by
  intro all
  have noQuote : '"' ∉ "a[b]c".toList := by decide
  have same := all (bodyNaming "File" "\"a[b]c\"") defaultAliases [] _ "a[b]c".toList
    (calling "LoadVideo" ")" (by decide) (by decide) (by simp)) "File".toList 0 1 [] rfl rfl
    (by decide +kernel) (by decide) (Call.readsOne_plain (by decide) (by decide)) noQuote rfl
    (by decide +kernel) (Text.isFree_quote noQuote)
    ⟨by decide, by decide, .inl (by decide), by decide⟩
  exact absurd same (by decide +kernel)

end StageScript
