import StageScript.Program.Instruction
import StageScript.Proofs.Source.Numeral
import StageScript.Proofs.Source.Rewriting

/-! # Forms of operands
An operand of a script is an integer, a quoted text, a variable with or without an index, or one of
the names that a file gives to numbers. Each has its way of being written, and a call whose operands
are written so is read as having them.
* `Amount`, `WrittenIndex` — what stands between the brackets of a variable;
* `OperandForm` — the forms, with their text and the operand that is meant by it;
* **`OperandForm.reads`** — a call reads the text of a form as that operand. -/

namespace StageScript

/-! ## Indices -/

/-- A number or a register in brackets. -/
inductive Amount
  | number (n : Literal)
  | register (r : IndexRegister) (spelling : Text)
      (spells : Text.sameName r.name.toList spelling = true)

namespace Amount

/-- The amount as it is written. -/
def text : Amount → Text
  | number n => n.text
  | register _ spelling _ => spelling

/-- What the amount is taken from. -/
def source : Amount → IndexSource
  | number n => .literal n.word
  | register r _ _ => .register r

/-- Whether the amount has no sign of its own. -/
def Unsigned : Amount → Prop
  | number n => n.minus? = none
  | register _ _ _ => True

end Amount

/-- What stands in brackets: an element, or a distance from the running object. -/
structure WrittenIndex where
  /-- The sign in front, if the amount is a distance; `true` is a minus. -/
  minus? : Option Bool
  amount : Amount
  unsigned : minus? = none → amount.Unsigned

namespace WrittenIndex

/-- The index as it is written. -/
def text (i : WrittenIndex) : Text :=
  match i.minus? with
  | none => i.amount.text
  | some minus => (if minus then '-' else '+') :: i.amount.text

/-- The element that the index means. -/
def address (i : WrittenIndex) : Address :=
  match i.minus? with
  | none => .at i.amount.source
  | some false => .ahead i.amount.source
  | some true => .behind i.amount.source

end WrittenIndex

/-! ## Operands -/

/-- A way of writing an operand. -/
inductive OperandForm
  | literal (l : Literal)
  | quoted (content : Text) (noQuote : '"' ∉ content)
  | variable (v : Variable) (name : Text) (known : Variable.lookup? name = some v)
  /-- A variable with an index, whose brackets may stand anywhere in the name. -/
  | element (v : Variable) (front back : Text) (known : Variable.lookup? (front ++ back) = some v)
      (index : WrittenIndex)
  | function (name : Text)
  | global (name : Text)
  /-- The number of a type, by the type's name. -/
  | typeName (spelling label : Text) (spells : Text.sameName spelling "TypeName".toList = true)

namespace OperandForm

/-- A quoted text. -/
def quote (content : Text) : Text := '"' :: (content ++ ['"'])

/-- The operand as it is written. -/
def text : OperandForm → Text
  | literal l => l.text
  | quoted content _ => quote content
  | .variable _ name _ => name
  | element _ front back _ index => front ++ '[' :: (index.text ++ ']' :: back)
  | function name => name
  | global name => name
  | typeName spelling label _ => spelling ++ '[' :: (label ++ [']'])

/-- The operand that is meant. -/
def operand : OperandForm → Operand
  | literal l => { base := l.text }
  | quoted content _ => { base := quote content }
  | .variable _ name _ => { base := name }
  | element _ front back _ index => { base := front ++ back, index := some index.text }
  | function name => { base := name }
  | global name => { base := name }
  | typeName spelling label _ => { base := spelling, index := some label }

/-- Names that a file has chosen itself are written without quotes, commas, brackets and closing
parentheses, and those of types are not left out. -/
def IsPlain : OperandForm → Prop
  | function name => ∀ c ∈ name, Call.IsPlain c
  | global name => ∀ c ∈ name, Call.IsPlain c
  | typeName _ label _ => label ≠ [] ∧ ∀ c ∈ label, Call.IsPlain c
  | _ => True

end OperandForm

/-! ## Names of variables -/

/-- What sets the name of a variable apart from the other forms of operands. -/
structure Variable.Worded (name : Text) : Prop where
  plain : ∀ c ∈ name, Call.IsPlain c
  number : Numeral.parse? name = none
  type : Text.sameName name "TypeName".toList = false

/-- **A name made of letters, digits and dots.** -/
def Text.IsName (text : Text) : Prop := text.all (fun c => c.isAlphanum || c == '.') = true

instance (text : Text) : Decidable text.IsName := inferInstanceAs (Decidable (_ = true))

theorem Text.IsName.not_mem {text : Text} (h : text.IsName) {c : Char}
    (other : (c.isAlphanum || c == '.') = false) : c ∉ text := by
  intro member
  rw [List.all_eq_true.1 h c member] at other
  cases other

/-- No mark of an operand is part of a name. -/
theorem Text.IsName.isPlain {text : Text} (named : text.IsName) : ∀ c ∈ text, Call.IsPlain c := by
  have other {mark : Char} (marks : (mark.isAlphanum || mark == '.') = false) : ∀ c ∈ text, c ≠ mark :=
    fun c member same => named.not_mem marks (same ▸ member)
  exact fun c member => ⟨other rfl c member, other rfl c member, other rfl c member, other rfl c member,
    other rfl c member⟩

/-- What the names of variables have in common. -/
theorem Variable.name_facts : ∀ v ∈ Variable.all.toList, Text.IsName v.name.toList ∧
    6 ≤ v.name.toList.length ∧ Numeral.parse? v.name.toList = none ∧
      Text.sameName v.name.toList "TypeName".toList = false := by
  decide +kernel

/-- No variable is named like another form of operand. -/
theorem Variable.worded_of_mem (v : Variable) (member : v ∈ Variable.all.toList) :
    Worded v.name.toList := by
  obtain ⟨named, -, number, type⟩ := name_facts v member
  exact ⟨named.isPlain, number, type⟩

/-- The marks of operands are no letters, so a name has them in every spelling or in none. -/
theorem Call.isPlain_congr {name spelling : Text} (same : Text.sameName name spelling = true)
    (plain : ∀ c ∈ name, IsPlain c) : ∀ c ∈ spelling, IsPlain c := by
  intro c member
  have absent (mark : Char) (other : mark.isAlpha = false) (marks : ¬ IsPlain mark) : c ≠ mark := by
    rintro rfl
    exact marks (plain _ (Text.mem_of_sameName same other member))
  exact ⟨absent _ rfl (by decide), absent _ rfl (by decide), absent _ rfl (by decide),
    absent _ rfl (by decide), absent _ rfl (by decide)⟩

/-- The word that asks for the number of a type has none of them. -/
theorem Call.isPlain_of_typeName {spelling : Text}
    (spells : Text.sameName spelling "TypeName".toList = true) : ∀ c ∈ spelling, IsPlain c := by
  rw [Text.sameName_comm] at spells
  exact isPlain_congr spells (Text.forall_mem_of_all (by decide))

/-- The variable of a name has this name. -/
theorem Variable.sameName_of_lookup? {name : Text} {v : Variable} (known : lookup? name = some v) :
    v ∈ all.toList ∧ Text.sameName v.name.toList name = true := by
  obtain ⟨entry, found, rfl⟩ := Option.map_eq_some_iff.1 known
  obtain ⟨v, member, rfl⟩ := List.mem_map.1 (List.mem_of_find?_eq_some found)
  exact ⟨member, by simpa using List.find?_some found⟩

/-- A variable that is found is found by its own name. -/
theorem Variable.lookup?_name {name : Text} {v : Variable} (known : lookup? name = some v) :
    lookup? v.name.toList = some v := by
  obtain ⟨-, same⟩ := sameName_of_lookup? known
  have alike (entry : Text × Variable) :
      Text.sameName entry.1 v.name.toList = Text.sameName entry.1 name := by
    rw [Bool.eq_iff_iff, Text.sameName_iff, Text.sameName_iff, Text.sameName_iff.1 same]
  simpa only [lookup?, alike] using known

/-- **A name of a variable is no other form of operand**, however it is spelled. -/
theorem Variable.worded_of_lookup? {name : Text} {v : Variable} (known : lookup? name = some v) :
    Worded name := by
  obtain ⟨member, same⟩ := sameName_of_lookup? known
  have worded := worded_of_mem v member
  refine ⟨Call.isPlain_congr same worded.plain, ?_, ?_⟩
  · rw [← Numeral.parse?_congr same]
    exact worded.number
  · rw [← Bool.not_eq_true, Text.sameName_iff, ← Text.sameName_iff.1 same, ← Text.sameName_iff,
      Bool.not_eq_true]
    exact worded.type

/-- No register is written like a number. -/
theorem IndexRegister.parse?_spelling {r : IndexRegister} {spelling : Text}
    (spells : Text.sameName r.name.toList spelling = true) : Numeral.parse? spelling = none := by
  rw [← Numeral.parse?_congr spells]
  cases r <;> decide

/-! ## Reading -/

namespace Literal

/-- The characters of a literal: a sign, digits and the mark of hexadecimal numerals. -/
theorem isPlain (l : Literal) : ∀ c ∈ l.text, Call.IsPlain c := by
  have digits : ∀ c ∈ l.digits, Call.IsPlain c := by
    intro c member
    have digit := l.valid c member
    -- The marks of calls are digits in no system.
    have noMark (mark : Char) (none_ : ∀ radix ∈ [10, 16], Numeral.digit? radix mark = none) :
        c ≠ mark := by
      rintro rfl
      have radix : l.system.radix ∈ [10, 16] := by
        cases l.system <;> simp [Notation.radix]
      rw [none_ _ radix] at digit
      cases digit
    exact ⟨noMark _ (by decide), noMark _ (by decide), noMark _ (by decide), noMark _ (by decide),
      noMark _ (by decide)⟩
  have mark : ∀ c ∈ l.system.mark, Call.IsPlain c := by
    rcases l.system with _ | _ | _ <;> exact Text.forall_mem_of_all (by decide)
  have sign : ∀ c ∈ l.sign, Call.IsPlain c := by
    rw [Literal.sign]
    rcases l.minus? with _ | _ | _ <;> exact Text.forall_mem_of_all (by decide)
  intro c member
  rw [text, List.mem_append, List.mem_append] at member
  rcases member with inSign | inMark | inDigits
  · exact sign c inSign
  · exact mark c inMark
  · exact digits c inDigits

end Literal

theorem Amount.isPlain (a : Amount) : ∀ c ∈ a.text, Call.IsPlain c := by
  cases a with
  | number n => exact n.isPlain
  | register r spelling spells =>
    refine Call.isPlain_congr spells ?_
    cases r <;> exact Text.forall_mem_of_all (by decide)

theorem Amount.text_ne_nil (a : Amount) : a.text ≠ [] := by
  cases a with
  | number n =>
    intro none_
    rw [text, Literal.text, List.append_eq_nil_iff, List.append_eq_nil_iff] at none_
    exact n.nonempty none_.2.2
  | register r spelling spells =>
    rintro rfl
    cases r <;> cases spells

theorem WrittenIndex.text_ne_nil (i : WrittenIndex) : i.text ≠ [] := by
  rw [WrittenIndex.text]
  match i.minus? with
  | none => exact i.amount.text_ne_nil
  | some _ => exact List.cons_ne_nil _ _

theorem WrittenIndex.isPlain (i : WrittenIndex) : ∀ c ∈ i.text, Call.IsPlain c := by
  rw [WrittenIndex.text]
  have amount := i.amount.isPlain
  match i.minus? with
  | none => exact amount
  | some true => exact List.forall_mem_cons.2 ⟨by decide, amount⟩
  | some false => exact List.forall_mem_cons.2 ⟨by decide, amount⟩

namespace Call

variable {text rest : Text} {done : List Operand}

/-- A call reads a text as an operand: what follows a comma behind the text are further operands,
and a closing parenthesis or the end of the line ends the list. -/
structure Reads (text : Text) (o : Operand) : Prop where
  comma : ∀ rest done,
    readOperands (text ++ ',' :: rest) false {} done = readOperands rest false {} (o :: done)
  closing : ∀ rest done, readOperands (text ++ ')' :: rest) false {} done = closeOperands done o
  ending : ∀ done, readOperands text false {} done = closeOperands done o

/-- A text is read as the operand that has been drafted behind it. -/
theorem Reads.of_draft {d : Operand.Draft} {o : Operand} (finish : d.finish = o)
    (read : ∀ rest done,
      readOperands (text ++ rest) false {} done = readOperands rest false d done) :
    Reads text o := by
  subst finish
  refine ⟨fun rest done => ?_, fun rest done => ?_, fun done => ?_⟩
  · rw [read, readOperands_comma]
  · rw [read, readOperands, if_neg (by decide), if_neg (by decide), if_pos rfl]
  · rw [← List.append_nil text, read, readOperands]

/-- Plain text is an operand without an index. -/
theorem reads_plain (plain : ∀ c ∈ text, IsPlain c) : Reads text { base := text } := by
  refine Reads.of_draft (d := { base := text.reverse }) ?_ fun rest done => ?_
  · rw [Operand.Draft.finish, List.reverse_reverse]
    rfl
  · have read := @readOperands_plain text rest [] none done plain
    rw [List.append_nil] at read
    exact read

/-- An operand with brackets has what stands in them as its index, unless nothing stands in them. -/
theorem reads_brackets {front index back : Text} (plainFront : ∀ c ∈ front, IsPlain c)
    (plainIndex : ∀ c ∈ index, IsPlain c) (plainBack : ∀ c ∈ back, IsPlain c) :
    Reads (front ++ '[' :: (index ++ ']' :: back))
      { base := front ++ back, index := (some index).filter (!·.isEmpty) } := by
  refine Reads.of_draft
    (d := { base := back.reverse ++ front.reverse, index := some index.reverse }) ?_
    fun rest done => ?_
  · rw [Operand.Draft.finish, List.reverse_append, List.reverse_reverse, List.reverse_reverse]
    cases index with
    | nil => rfl
    | cons c index =>
      have kept : (!(c :: index).reverse.isEmpty) = true := by simp
      rw [Option.filter_some, if_pos kept, Option.map_some, List.reverse_reverse]
      rfl
  -- The parts are read one after the other: the name, the bracket, the index, the bracket, the
  -- rest.
  · have opened : ∀ more, readOperands ('[' :: more) false { base := front.reverse } done =
        readOperands more false { base := front.reverse, index := some [], inIndex := true } done :=
      fun _ => rfl
    have closed : ∀ more, readOperands (']' :: more) false
          { base := front.reverse, index := some index.reverse, inIndex := true } done =
        readOperands more false { base := front.reverse, index := some index.reverse } done :=
      fun _ => rfl
    have split : front ++ '[' :: (index ++ ']' :: back) ++ rest =
        front ++ '[' :: (index ++ ']' :: (back ++ rest)) := by
      simp only [List.append_assoc, List.cons_append]
    have name := @readOperands_plain front ('[' :: (index ++ ']' :: (back ++ rest))) [] none done
      plainFront
    rw [List.append_nil] at name
    rw [split, name, opened, readOperands_foldl plainIndex, foldl_push_inside, List.append_nil, closed,
      readOperands_plain plainBack]

/-- An operand with something in its brackets has it as its index. -/
theorem reads_index {front index back : Text} (some_ : index ≠ [])
    (plainFront : ∀ c ∈ front, IsPlain c) (plainIndex : ∀ c ∈ index, IsPlain c)
    (plainBack : ∀ c ∈ back, IsPlain c) :
    Reads (front ++ '[' :: (index ++ ']' :: back)) { base := front ++ back, index := some index } := by
  have kept : (!index.isEmpty) = true := by simp [some_]
  have read := reads_brackets plainFront plainIndex plainBack
  rw [Option.filter_some, if_pos kept] at read
  exact read

/-- Inside quotes everything but a quote belongs to the name. -/
theorem readOperands_quoted {content base : Text} (noQuote : '"' ∉ content) :
    readOperands (content ++ '"' :: rest) true { base } done =
      readOperands rest false { base := '"' :: (content.reverse ++ base) } done := by
  induction content generalizing base with
  | nil => rfl
  | cons c content ih =>
    rw [List.mem_cons, not_or] at noQuote
    have inside : decide (c ≠ '"') = true := decide_eq_true (Ne.symm noQuote.1)
    have push : Operand.Draft.pushBase { base } c = { base := c :: base } := rfl
    rw [List.cons_append, readOperands, inside, push, ih noQuote.2, List.reverse_cons,
      List.append_assoc, List.singleton_append]

/-- A quoted text is an operand with its quotes, whatever stands between them. -/
theorem reads_quote {content : Text} (noQuote : '"' ∉ content) :
    Reads (OperandForm.quote content) { base := OperandForm.quote content } := by
  refine Reads.of_draft (d := { base := '"' :: (content.reverse ++ ['"']) }) ?_
    fun rest done => ?_
  · simp [Operand.Draft.finish, OperandForm.quote]
  · have opened : readOperands ('"' :: (content ++ '"' :: rest)) false {} done =
        readOperands (content ++ '"' :: rest) true { base := ['"'] } done := rfl
    have split : OperandForm.quote content ++ rest = '"' :: (content ++ '"' :: rest) := by
      simp [OperandForm.quote]
    rw [split, opened, readOperands_quoted noQuote]

end Call

namespace OperandForm

/-- **A call reads the text of a form as the operand that is meant.** -/
theorem reads (f : OperandForm) (plain : f.IsPlain) : Call.Reads f.text f.operand := by
  cases f with
  | literal l => exact Call.reads_plain l.isPlain
  | quoted content noQuote => exact Call.reads_quote noQuote
  | «variable» v name known => exact Call.reads_plain (Variable.worded_of_lookup? known).plain
  | element v front back known index =>
    have name := (Variable.worded_of_lookup? known).plain
    exact Call.reads_index index.text_ne_nil (fun c member => name c (List.mem_append_left _ member))
      index.isPlain (fun c member => name c (List.mem_append_right _ member))
  | function name => exact Call.reads_plain plain
  | global name => exact Call.reads_plain plain
  | typeName spelling label spells =>
    have name := Call.isPlain_of_typeName spells
    have read := @Call.reads_index spelling label [] plain.1 name plain.2 nofun
    rw [List.append_nil] at read
    exact read

end OperandForm

end StageScript
