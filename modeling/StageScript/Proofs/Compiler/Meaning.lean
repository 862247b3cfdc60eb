import StageScript.Proofs.Compiler.Effect
import StageScript.Proofs.Program.Reading

/-! # What operands mean
The compiler turns the text of an operand into words, or refuses it behind the first of them. Where
it does not refuse, the words are those of an argument of an instruction.
* **`Operand.argument?`** — the argument that an operand whose names have been substituted stands for;
* **`Operand.emission_iff`** — the words of an operand are those of its argument;
* **`Compiler.emitOperands_eq_ok`** — operands that compile add their arguments to the code. -/

namespace StageScript

/-- The address with an index in an addressing mode. -/
def AddressMode.address : AddressMode → IndexSource → Address
  | .self, _ => .self
  | .at, index => .at index
  | .ahead, index => .ahead index
  | .behind, index => .behind index

namespace Operand

/-- The address that an index in brackets stands for. -/
def address? : Option Text → Option Address
  | none => some .self
  | some index => (indexSource? (addressMode index).2).map (addressMode index).1.address

/-- The argument that an operand stands for, if its names mean something. -/
def argument? (o : Operand) : Option Argument :=
  match Numeral.parse? o.base with
  | some value => some (.integer value)
  | none =>
    match quoted? o.base with
    | some content => some (.text content)
    | none => (address? o.index).bind fun address =>
        (Variable.lookup? o.base).map fun v => .element v address

theorem addressMode_ne_self (index : Text) : (addressMode index).1 ≠ .self := by
  unfold addressMode
  split <;> exact nofun

/-- The words of an address that has a meaning are its own, and any other address is refused. -/
theorem addressEmission_eq (index : Option Text) :
    match address? index with
    | some address => addressEmission index = { words := address.encode }
    | none => (addressEmission index).refusal ≠ none := by
  cases index with
  | none => rfl
  | some index =>
    have notSelf := addressMode_ne_self index
    simp only [address?, addressEmission]
    generalize addressMode index = read at notSelf
    obtain ⟨mode, rest⟩ := read
    dsimp only at notSelf ⊢
    cases indexSource? rest with
    | none => exact Option.some_ne_none _
    | some source =>
      cases mode with
      | self => exact absurd rfl notSelf
      | «at» => rfl
      | ahead => rfl
      | behind => rfl

/-- The words of an operand that has a meaning are those of its argument, and any other operand is
refused. -/
theorem emission_eq (o : Operand) :
    match o.argument? with
    | some a => o.emission = { words := a.encode }
    | none => o.emission.refusal ≠ none := by
  unfold argument? emission
  cases Numeral.parse? o.base with
  | some value => rfl
  | none =>
    cases quoted? o.base with
    | some content => rfl
    | none =>
      have address := addressEmission_eq o.index
      unfold variableEmission
      cases h : address? o.index with
      | none =>
        rw [h] at address
        dsimp only at address ⊢
        cases refusal : (addressEmission o.index).refusal with
        | none => exact absurd refusal address
        | some reason => exact nofun
      | some a =>
        rw [h] at address
        dsimp only at address ⊢
        rw [address]
        cases Variable.lookup? o.base with
        | none => exact nofun
        | some v => rfl

/-- **The words of an operand** are not refused exactly when it stands for an argument, whose words
they are. -/
theorem exists_argument?_of_refusal {o : Operand} (h : o.emission.refusal = none) :
    ∃ a, o.argument? = some a ∧ o.emission.words = a.encode := by
  have eq := emission_eq o
  cases meant : o.argument? with
  | none =>
    rw [meant] at eq
    exact absurd h eq
  | some a =>
    rw [meant] at eq
    exact ⟨a, rfl, congrArg Emission.words eq⟩

theorem mem_all_of_lookup? {spelling : Text} {v : Variable} (h : Variable.lookup? spelling = some v) :
    v ∈ Variable.all := by
  obtain ⟨entry, found, rfl⟩ := Option.map_eq_some_iff.1 h
  obtain ⟨v, member, rfl⟩ := List.mem_map.1 (List.mem_of_find?_eq_some found)
  exact Array.mem_toList_iff.1 member

/-- An argument that fits into the code can be read back from its words. -/
theorem readable_of_argument? {o : Operand} {a : Argument} (h : o.argument? = some a)
    (short : a.encode.length ≤ codeCapacity) : a.Readable := by
  cases a with
  | integer value => trivial
  | text content =>
    have := PackedText.length_pack content
    rw [Argument.encode, List.length_cons, List.length_cons, this, PackedText.wordCount,
      codeCapacity] at short
    show (Utf8.encode content).length < 0x80000000
    omega
  | element v address =>
    unfold argument? at h
    split at h
    · cases h
    · split at h
      · cases h
      · obtain ⟨_, _, named⟩ := Option.bind_eq_some_iff.1 h
        obtain ⟨v, found, same⟩ := Option.map_eq_some_iff.1 named
        cases same
        exact mem_all_of_lookup? found

end Operand

namespace Compiler

open Stepwise

variable {c c' : Compiler}

/-- The argument that an operand stands for where the names of a compiler are known. -/
def meaning? (c : Compiler) (o : Operand) : Option Argument := (c.substitute o).argument?

@[simp] theorem meaning?_addCode (c : Compiler) (words : List Word) :
    (c.addCode words).meaning? = c.meaning? := rfl

@[simp] theorem meaning?_addJumps (c : Compiler) (words : List Word) :
    (c.addJumps words).meaning? = c.meaning? := rfl

@[simp] theorem meaning?_changeJumps (c : Compiler) (change : Array Word → Array Word) :
    (c.changeJumps change).meaning? = c.meaning? := rfl

theorem emitOperand_eq_ok {o : Operand} (h : emitOperand o c = (.ok (), c')) :
    ∃ a, c.meaning? o = some a ∧ c' = c.addCode a.encode ∧ (c.Fits → c'.Fits) := by
  rw [emitOperand, bind_apply, get_apply] at h
  obtain ⟨⟨⟩, c₁, first, rest⟩ := exists_of_bind_eq_ok h
  obtain ⟨rfl, fits⟩ := emit_eq_ok first
  cases refusal : (c.substitute o).emission.refusal with
  | some reason =>
    rw [refusal] at rest
    cases (Prod.mk.inj rest).1
  | none =>
    rw [refusal] at rest
    obtain ⟨-, rfl⟩ := Prod.mk.inj rest
    obtain ⟨a, meant, words⟩ := Operand.exists_argument?_of_refusal refusal
    rw [words] at fits ⊢
    exact ⟨a, meant, rfl, fits⟩

/-- **Operands that compile** add their arguments to the code. -/
theorem emitOperands_eq_ok {operands : List Operand}
    (h : operands.forM emitOperand c = (.ok (), c')) :
    ∃ arguments : List Argument, operands.map c.meaning? = arguments.map some ∧
      c' = c.addCode (arguments.flatMap Argument.encode) ∧ (c.Fits → c'.Fits) := by
  induction operands generalizing c with
  | nil =>
    obtain ⟨-, rfl⟩ := Prod.mk.inj h
    exact ⟨[], rfl, (addCode_nil c).symm, id⟩
  | cons o rest ih =>
    obtain ⟨⟨⟩, c₁, first, others⟩ := exists_of_bind_eq_ok h
    obtain ⟨a, meant, rfl, fits⟩ := emitOperand_eq_ok first
    obtain ⟨arguments, same, rfl, more⟩ := ih others
    refine ⟨a :: arguments, ?_, addCode_addCode .., more ∘ fits⟩
    rw [List.map_cons, List.map_cons, meant]
    exact congrArg _ same

end Compiler

end StageScript
