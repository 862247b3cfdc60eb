import StageScript.Program.Listing
import StageScript.Proofs.Compiler.Inert
import StageScript.Proofs.Compiler.Loading
import StageScript.Proofs.Source.Integer

/-! # Listed operands
A listing drops the tags of the operands and shows mode, sign and number of an index as one text. Where
brackets and quotes say what is meant by this text, the operand can be read back.
* `Argument.listed` — the operand as which an argument is listed;
* `Argument.IsClear`, `Argument.IsLegible` — the arguments whose text says what they are;
* **`Argument.eq_of_render_eq`** — clear arguments with the same text are the same;
* **`Argument.isInert_render`** — nothing is taken of their text where a line is stripped;
* **`Compiler.Bare.meaning?_listed`** — where only globals have names, they mean what was listed. -/

namespace StageScript

/-! ## Arguments and their texts -/

/-- What is listed between the brackets of an address. -/
def Address.index? : Address → Option Text
  | .self => none
  | .at index => some index.render
  | .ahead index => some ('+' :: index.render)
  | .behind index => some ('-' :: index.render)

/-- **The operand as which an argument is listed.** -/
def Argument.listed : Argument → Operand
  | .integer value => { base := Numeral.ofWord value }
  | .text content => { base := OperandForm.quote content }
  | .element v address => { base := v.name.toList, index := address.index? }

/-- Whether brackets say what an address is. The minus of a negative element would be that of a distance,
and the minus of a negative distance makes a decrement with the minus in front of it. -/
def Address.IsClear : Address → Prop
  | .at (.literal value) => 0 ≤ value.toInt
  | .behind (.literal value) => 0 ≤ value.toInt
  | _ => True

/-- **Whether a text says what an argument is.** -/
def Argument.IsClear : Argument → Prop
  | .integer _ => True
  | .text content => '"' ∉ content
  | .element _ address => address.IsClear

/-- **Whether a text says what an argument is** in a file with some globals: none of them has it as its
name, up to the brackets. -/
structure Argument.IsLegible (globals : List Text) (a : Argument) : Prop where
  clear : a.IsClear
  unnamed : ∀ name ∈ globals, Text.sameName name a.listed.base = false

instance : DecidablePred Address.IsClear
  | .self => .isTrue trivial
  | .at (.literal value) => inferInstanceAs (Decidable (0 ≤ value.toInt))
  | .at (.register _) => .isTrue trivial
  | .ahead _ => .isTrue trivial
  | .behind (.literal value) => inferInstanceAs (Decidable (0 ≤ value.toInt))
  | .behind (.register _) => .isTrue trivial

instance : DecidablePred Argument.IsClear
  | .integer _ => .isTrue trivial
  | .text content => inferInstanceAs (Decidable ('"' ∉ content))
  | .element _ address => inferInstanceAs (Decidable address.IsClear)

instance (globals : List Text) (a : Argument) : Decidable (a.IsLegible globals) :=
  decidable_of_iff (a.IsClear ∧ ∀ name ∈ globals, Text.sameName name a.listed.base = false)
    ⟨fun ⟨clear, unnamed⟩ => ⟨clear, unnamed⟩, fun ⟨clear, unnamed⟩ => ⟨clear, unnamed⟩⟩

/-- The brackets of an address. -/
theorem Address.render_eq (a : Address) :
    a.render = match a.index? with
      | none => []
      | some index => '[' :: (index ++ [']']) := by
  cases a <;> rfl

/-- **An argument that is compiled of an operand** has a variable that is found by its name, if it has
one. -/
def Argument.IsNamed : Argument → Prop
  | .element v _ => Variable.lookup? v.name.toList = some v
  | _ => True

theorem Operand.isNamed_of_argument? {o : Operand} {a : Argument} (meant : o.argument? = some a) :
    a.IsNamed := by
  cases a with
  | integer => trivial
  | text => trivial
  | element v address =>
    rw [argument?] at meant
    split at meant
    · cases meant
    · split at meant
      · cases meant
      · obtain ⟨_, -, element⟩ := Option.bind_eq_some_iff.1 meant
        obtain ⟨_, known, same⟩ := Option.map_eq_some_iff.1 element
        obtain ⟨rfl, rfl⟩ := Argument.element.inj same
        exact Variable.lookup?_name known

/-! ## Reading a listed operand -/

theorem Numeral.parse?_ofWord (w : Word) : parse? (ofWord w) = some w := parse?_eq_some_iff.2 w

/-- No register is named by a number, and none by a sign. -/
theorem IndexRegister.name_facts (r : IndexRegister) :
    Numeral.parse? r.name.toList = none ∧ Operand.addressMode r.name.toList = (.at, r.name.toList) := by
  cases r <;> decide

/-- An index is read from its text. -/
theorem IndexSource.indexSource?_render (i : IndexSource) : Operand.indexSource? i.render = some i := by
  cases i with
  | literal value => rw [render, Operand.indexSource?, Numeral.parse?_ofWord]
  | register r =>
    rw [render, Operand.indexSource?, r.name_facts.1, IndexRegister.lookup?_name]
    rfl

/-- A number that is not negative is written without a sign. -/
theorem Numeral.exists_ofWord_eq {w : Word} (nonneg : 0 ≤ w.toInt) :
    ∃ n, ofWord w = ofNat n ∧ w = Word.ofNat n := by
  have unsigned : ofWord w = ofNat w.toInt.natAbs := by
    rw [ofWord, ofInt, if_neg (by omega)]
  refine ⟨_, unsigned, ?_⟩
  have read := parse?_ofWord w
  rw [unsigned, parse?_ofNat] at read
  exact (Option.some.inj read).symm

/-- **A clear address is read from its brackets.** -/
theorem Address.address?_index? {a : Address} (clear : a.IsClear) : Operand.address? a.index? = some a := by
  cases a with
  | self => rfl
  | ahead i => exact congrArg (Option.map Address.ahead) i.indexSource?_render
  | behind i => exact congrArg (Option.map Address.behind) i.indexSource?_render
  | «at» i =>
    cases i with
    | literal value =>
      obtain ⟨n, written, rfl⟩ := Numeral.exists_ofWord_eq clear
      rw [index?, IndexSource.render, written]
      exact Operand.address?_ofNat n
    | register r =>
      rw [index?, IndexSource.render, Operand.address?, r.name_facts.2]
      exact congrArg (Option.map Address.at) (IndexSource.register r).indexSource?_render

/-! ## Characters of a listed operand -/

/-- Digits are a name. -/
theorem Text.IsName.ofNat (n : Nat) : (Numeral.ofNat n).IsName := by
  refine List.all_eq_true.2 fun c member => ?_
  exact (Numeral.isDigit_of_mem_ofNat member).of_forall
    (P := fun c => (c.isAlphanum || c == '.') = true) (by decide)

/-- **A name or a number behind signs**, of which there are only some. -/
def Text.IsSigned (allowed : List Text) (text : Text) : Prop :=
  ∃ signs ∈ allowed, ∃ name : Text, text = signs ++ name ∧ name ≠ [] ∧ name.IsName

namespace Text.IsSigned

variable {text : Text} {allowed : List Text}

theorem mono {more : List Text} (h : text.IsSigned allowed) (subset : allowed ⊆ more) :
    text.IsSigned more := by
  obtain ⟨signs, few, rest⟩ := h
  exact ⟨signs, subset few, rest⟩

/-- A sign in front of signs. -/
theorem cons (sign : Char) (h : text.IsSigned allowed) :
    IsSigned (allowed.map (sign :: ·)) (sign :: text) := by
  obtain ⟨signs, few, name, rfl, rest⟩ := h
  exact ⟨sign :: signs, List.mem_map_of_mem few, name, rfl, rest⟩

theorem ne_nil (h : text.IsSigned allowed) : text ≠ [] := by
  obtain ⟨signs, -, name, rfl, written, -⟩ := h
  exact List.append_ne_nil_of_right_ne_nil signs written

theorem isPlain (h : text.IsSigned signs) : ∀ c ∈ text, Call.IsPlain c := by
  have own : ∀ signs ∈ Text.signs, signs.all (decide <| Call.IsPlain ·) = true := by decide
  obtain ⟨signs, few, name, rfl, -, named⟩ := h
  exact List.forall_mem_append.2 ⟨forall_mem_of_all (own signs few), named.isPlain⟩

theorem isInert (h : text.IsSigned signs) : text.IsInert := by
  obtain ⟨signs, few, name, rfl, -, named⟩ := h
  exact .of_signs few named

theorem ofNat (n : Nat) : IsSigned [[]] (Numeral.ofNat n) :=
  ⟨[], by decide, _, rfl, Numeral.ofNat_ne_nil n, .ofNat n⟩

/-- A number has at most a minus. -/
theorem ofWord (w : Word) : IsSigned [[], ['-']] (Numeral.ofWord w) := by
  obtain ⟨n, same | same⟩ := Numeral.exists_ofWord w
  · rw [same]
    exact (ofNat n).mono (by decide)
  · rw [same]
    exact ((ofNat n).cons '-').mono (by decide)

/-- A register has no sign. -/
theorem register (r : IndexRegister) : IsSigned [[]] r.name.toList := by
  cases r <;> exact ⟨[], by decide, _, rfl, by decide, by decide⟩

theorem index (i : IndexSource) : IsSigned [[], ['-']] i.render := by
  cases i with
  | literal value => exact ofWord value
  | register r => exact (register r).mono (by decide)

/-- **The brackets of a clear address** have each sign at most once. -/
theorem index? {address : Address} (clear : address.IsClear) (listed : address.index? = some text) :
    text.IsSigned signs := by
  cases address with
  | self => cases listed
  | «at» i =>
    obtain rfl := Option.some.inj listed
    exact (index i).mono (by decide)
  | ahead i =>
    obtain rfl := Option.some.inj listed
    exact ((index i).cons '+').mono (by decide)
  | behind i =>
    obtain rfl := Option.some.inj listed
    cases i with
    | literal value =>
      obtain ⟨n, written, -⟩ := Numeral.exists_ofWord_eq clear
      rw [IndexSource.render, written]
      exact ((ofNat n).cons '-').mono (by decide)
    | register r => exact ((register r).cons '-').mono (by decide)

end Text.IsSigned

namespace Argument

variable {a b : Argument}

/-- **A clear argument is meant** by the operand as which it is listed. -/
theorem argument?_listed (named : a.IsNamed) (clear : a.IsClear) : a.listed.argument? = some a := by
  cases a with
  | integer value => exact Operand.argument?_of_parse? (Numeral.parse?_ofWord value)
  | text content =>
    rw [listed, Operand.argument?, Numeral.parse?_quote]
    dsimp only
    rw [Operand.quoted?_quote]
  | element v address => exact Operand.argument?_of_lookup? named (Address.address?_index? clear)

/-- The name of a variable is a name, and there is one. -/
theorem isName_of_isNamed {v : Variable} {address : Address} (named : (element v address).IsNamed) :
    Text.IsName v.name.toList ∧ v.name.toList ≠ [] := by
  obtain ⟨isName, long, -⟩ := Variable.name_facts v (Variable.sameName_of_lookup? named).1
  exact ⟨isName, List.ne_nil_of_length_pos (Nat.lt_of_lt_of_le (by decide) long)⟩

/-- **A clear argument is written** as the operand that it is listed as. -/
theorem renders (named : a.IsNamed) (clear : a.IsClear) : Operand.Renders a.listed a.render := by
  cases a with
  | integer value =>
    exact .bare (Text.IsSigned.ofWord value).ne_nil (Call.isPlain_ofWord value)
  | text content => exact .quoted clear
  | element v address =>
    obtain ⟨name, written⟩ := isName_of_isNamed named
    rw [render, Address.render_eq, listed]
    cases shape : address.index? with
    | none =>
      rw [List.append_nil]
      exact .bare written name.isPlain
    | some index =>
      have signed := Text.IsSigned.index? clear shape
      have whole := @Operand.Renders.indexed v.name.toList index [] (by simpa using written)
        signed.ne_nil (by simpa using name.isPlain) signed.isPlain
      rwa [List.append_nil] at whole

/-- **Clear arguments with the same text are the same**: the text is read as one operand. -/
theorem eq_of_render_eq (named : a.IsNamed) (named' : b.IsNamed) (clear : a.IsClear)
    (clear' : b.IsClear) (same : a.render = b.render) : a = b := by
  have read := (renders named clear).reads.ending []
  have read' := (renders named' clear').reads.ending []
  rw [← same] at read'
  have operand : a.listed = b.listed := Call.closeOperands_inj (read.symm.trans read')
  have meant := argument?_listed named clear
  rw [operand, argument?_listed named' clear'] at meant
  exact (Option.some.inj meant).symm

/-- An element with a negative number is listed like a distance back. -/
example (v : Variable) : (element v (.at (.literal (-1)))).render =
    (element v (.behind (.literal 1))).render := rfl

/-- The texts of an argument stay on their lines. -/
def IsInline : Argument → Prop
  | .text content => content.IsInline
  | _ => True

/-- **The text of a clear argument is left as it is** where a line is stripped and searched for operators. -/
theorem isInert_render (named : a.IsNamed) (clear : a.IsClear) (inline : a.IsInline) :
    Text.IsInert a.render := by
  cases a with
  | integer value => exact ((Text.IsSigned.ofWord value).mono (by decide)).isInert
  | text content => exact .quote clear inline
  | element v address =>
    have name := Text.IsInert.of_name (isName_of_isNamed named).1
    rw [render, Address.render_eq]
    cases listed : address.index? with
    | none => rwa [List.append_nil]
    | some index =>
      have index := (Text.IsSigned.index? clear listed).isInert
      exact name.mark (index.mark .nil (by decide)) (by decide)

end Argument

/-! ## Meaning of a listed operand -/

namespace Compiler

variable {c d : Compiler} {a : Argument}

/-- **What an operand stands for** has a variable that is found by its name, if it has one. -/
theorem isNamed_of_meaning? {o : Operand} (meant : c.meaning? o = some a) : a.IsNamed :=
  Operand.isNamed_of_argument? meant

/-- A compiler that knows no names but the globals and those of every file. -/
structure Bare (c : Compiler) : Prop where
  aliases : c.aliases = defaultAliases
  functions : c.program.functions = #[]

/-- The names of every file are no numbers and no quoted texts, and they are shorter than those of
variables or have an underscore. -/
theorem defaultAliases_facts : ∀ a ∈ defaultAliases, Numeral.parse? a.name = none ∧ '"' ∉ a.name ∧
    ('_' ∈ a.name ∨ a.name.length < 6) := by
  decide +kernel

/-- **A listed operand is no name** unless a global is named so. -/
theorem Bare.unnamed (h : d.Bare) (named : a.IsNamed) (legible : a.IsLegible d.globals) :
    d.Unnamed a.listed.base where
  aliases b member := by
    rw [h.aliases] at member
    obtain ⟨noNumber, noQuote, underscored⟩ := defaultAliases_facts b member
    rw [Bool.eq_false_iff]
    intro same
    cases a with
    | integer value =>
      rw [Argument.listed, Numeral.parse?_congr same, Numeral.parse?_ofWord] at *
      cases noNumber
    | text content => exact noQuote (Text.mem_of_sameName same rfl List.mem_cons_self)
    -- Every name of a variable is longer than the short aliases, and has no underscore as the
    -- others do.
    | element v address =>
      obtain ⟨name, long, -⟩ := Variable.name_facts v (Variable.sameName_of_lookup? named).1
      rcases underscored with underscore | short
      · rw [Text.sameName_comm] at same
        exact name.not_mem rfl (Text.mem_of_sameName same rfl underscore)
      · have alike := congrArg List.length (Text.sameName_iff.1 same)
        rw [List.length_map, List.length_map] at alike
        exact absurd long (alike ▸ Nat.not_le.2 short)
  globals := legible.unnamed
  functions f member := by
    rw [h.functions] at member
    exact absurd member (Array.not_mem_empty f)

/-- **A listed operand means the argument** that was listed. -/
theorem Bare.meaning?_listed (h : d.Bare) (named : a.IsNamed) (legible : a.IsLegible d.globals) :
    d.meaning? a.listed = some a := by
  have noType : Text.sameName a.listed.base "TypeName".toList = false := by
    cases a with
    | integer value =>
      rw [Bool.eq_false_iff]
      intro same
      have none_ : Numeral.parse? "TypeName".toList = none := by decide +kernel
      rw [← Numeral.parse?_congr same, Argument.listed, Numeral.parse?_ofWord] at none_
      cases none_
    | text content => rfl
    | element v address => exact (Variable.worded_of_lookup? named).type
  rw [meaning?, (h.unnamed named legible).substitute_eq, substituteType_eq noType]
  exact Argument.argument?_listed named legible.clear

end Compiler

end StageScript
