import StageScript.Opcode.Basic
import StageScript.Program.Fault
import StageScript.Program.PackedText
import StageScript.Variable.Basic

/-! # Instructions
An instruction is an opcode word followed by its operands. An operand begins with a tag:
* tag 2, an integer: the value;
* tag 3, a text: its length in bytes and its packed words;
* tag 1, a variable: the addressing mode, for every mode but the first the source and the value of
  the index, and the variable's number.
`Argument.encode` writes an operand, `Argument.decode` reads one at an offset, and
`Instruction.decode` reads a whole instruction. -/

namespace StageScript

/-- Where an index in brackets comes from. -/
inductive IndexSource
  /-- A number. -/
  | literal (value : Word)
  /-- The current value of a register. -/
  | register (r : IndexRegister)
  deriving DecidableEq, Repr

/-- Which element of a variable an operand means. -/
inductive Address
  /-- That of the running object. -/
  | self
  /-- That of the index. -/
  | at (index : IndexSource)
  /-- That of the running object's number plus the index. -/
  | ahead (index : IndexSource)
  /-- That of the running object's number minus the index. -/
  | behind (index : IndexSource)
  deriving DecidableEq, Repr

/-- The operand of an instruction. -/
inductive Argument
  | integer (value : Word)
  | text (content : Text)
  | element (v : Variable) (address : Address)
  deriving DecidableEq, Repr

/-! ## Words of operands -/

namespace IndexSource

/-- The words of an index: its source and its value. -/
def encode : IndexSource → List Word
  | .literal value => [0, value]
  | .register r => [1, Word.ofNat r.slot.val]

end IndexSource

namespace IndexRegister

/-- The register of a number. -/
def ofWord? (w : Word) : Option IndexRegister := w.index?.bind (all[·]?)

/-- The register of a spelling, without regard to ASCII case. -/
def lookup? (spelling : Text) : Option IndexRegister :=
  all.find? fun register => Text.sameName register.name.toList spelling

end IndexRegister

/-- The addressing modes, in the order of their numbers. -/
inductive AddressMode
  | self
  | at
  | ahead
  | behind
  deriving DecidableEq, Repr

namespace AddressMode

/-- The word of an addressing mode. -/
def word : AddressMode → Word
  | .self => 0
  | .at => 1
  | .ahead => 2
  | .behind => 3

/-- The addressing mode of a word. -/
def ofWord? (w : Word) : Option AddressMode :=
  if w = 0 then some .self
  else if w = 1 then some .at
  else if w = 2 then some .ahead
  else if w = 3 then some .behind
  else none

@[simp] theorem ofWord?_word (mode : AddressMode) : ofWord? mode.word = some mode := by
  cases mode <;> rfl

end AddressMode

namespace Address

/-- The words of an address. -/
def encode : Address → List Word
  | .self => [AddressMode.self.word]
  | .at index => AddressMode.at.word :: index.encode
  | .ahead index => AddressMode.ahead.word :: index.encode
  | .behind index => AddressMode.behind.word :: index.encode

end Address

namespace Argument

/-- The tag of a variable. -/
def variableTag : Word := 1

/-- The tag of an integer. -/
def integerTag : Word := 2

/-- The tag of a text. -/
def textTag : Word := 3

/-- The words of an operand. -/
def encode : Argument → List Word
  | .integer value => [integerTag, value]
  | .text content =>
    textTag :: Word.ofNat (Utf8.encode content).length :: PackedText.pack content
  | .element v address => variableTag :: address.encode ++ [v.word]

end Argument

/-! ## Reading code -/

/-- The word at an offset, with the offset behind it. -/
def readWord (code : Array Word) (offset : Nat) : Except Fault (Word × Nat) :=
  match code[offset]? with
  | some w => .ok (w, offset + 1)
  | none => .error (.codeOutOfRange offset)

namespace IndexSource

/-- Reads the words of an index. Faults name `start`, where the operand begins. -/
def decode (code : Array Word) (start offset : Nat) : Except Fault (IndexSource × Nat) := do
  let (source, offset) ← readWord code offset
  let (value, offset) ← readWord code offset
  if source = 0 then return (.literal value, offset)
  else if source = 1 then
    match IndexRegister.ofWord? value with
    | some r => return (.register r, offset)
    | none => throw (.invalidIndexRegister start value)
  else throw (.invalidAddressingMode start source)

end IndexSource

namespace Address

/-- Reads the words of an address. Faults name `start`, where the operand begins. -/
def decode (code : Array Word) (start offset : Nat) : Except Fault (Address × Nat) := do
  let (w, offset) ← readWord code offset
  match AddressMode.ofWord? w with
  | none => throw (.invalidAddressingMode start w)
  | some .self => return (.self, offset)
  | some .at =>
    let (index, offset) ← IndexSource.decode code start offset
    return (.at index, offset)
  | some .ahead =>
    let (index, offset) ← IndexSource.decode code start offset
    return (.ahead index, offset)
  | some .behind =>
    let (index, offset) ← IndexSource.decode code start offset
    return (.behind index, offset)

end Address

namespace Argument

/-- Reads the length and the words of a text. -/
def decodeText (code : Array Word) (start offset : Nat) : Except Fault (Text × Nat) := do
  let (w, offset) ← readWord code offset
  match w.index? with
  | none => throw (.invalidOperandTag start textTag)
  | some length =>
    let next := offset + PackedText.wordCount length
    if next ≤ code.size then
      return (PackedText.unpack (code.extract offset next).toList length, next)
    else throw (.codeOutOfRange next)

/-- Reads the operand at an offset, with the offset behind it. -/
def decode (code : Array Word) (start : Nat) : Except Fault (Argument × Nat) := do
  let (tag, offset) ← readWord code start
  if tag = integerTag then
    let (value, offset) ← readWord code offset
    return (.integer value, offset)
  else if tag = textTag then
    let (content, offset) ← decodeText code start offset
    return (.text content, offset)
  else if tag = variableTag then
    let (address, offset) ← Address.decode code start offset
    let (id, offset) ← readWord code offset
    match Variable.ofWord? id with
    | some v => return (.element v address, offset)
    | none => throw (.unknownVariable start id)
  else throw (.invalidOperandTag start tag)

/-- Reads so many operands one behind the other, with the offset behind the last. -/
def decodeMany (code : Array Word) : (count offset : Nat) → Except Fault (List Argument × Nat)
  | 0, offset => .ok ([], offset)
  | count + 1, offset => do
    let (argument, offset) ← decode code offset
    let (rest, offset) ← decodeMany code count offset
    return (argument :: rest, offset)

end Argument

/-- An instruction and where it stands. -/
structure Instruction where
  /-- The offset of the opcode word. -/
  offset : Nat
  /-- What the instruction does. -/
  opcode : Opcode
  /-- What it does it with. -/
  arguments : List Argument
  deriving DecidableEq, Repr

namespace Instruction

/-- Reads the opcode at an offset, with the offset behind it. -/
def decodeOpcode (code : Array Word) (offset : Nat) : Except Fault (Opcode × Nat) := do
  let (id, next) ← readWord code offset
  match Opcode.ofWord? id with
  | some op => return (op, next)
  | none => throw (.invalidOpcode offset id)

/-- Reads the instruction at an offset, with the offset of the next one. -/
def decode (code : Array Word) (offset : Nat) : Except Fault (Instruction × Nat) := do
  let (op, next) ← decodeOpcode code offset
  let (arguments, next) ← Argument.decodeMany code op.arity next
  return (⟨offset, op, arguments⟩, next)

end Instruction

/-! ## Reading goes forward -/

theorem lt_of_readWord {code : Array Word} {offset next : Nat} {w : Word}
    (h : readWord code offset = .ok (w, next)) : offset < code.size ∧ next = offset + 1 := by
  unfold readWord at h
  split at h
  · rename_i heq
    obtain ⟨lt, _⟩ := Array.getElem?_eq_some_iff.1 heq
    simp only [Except.ok.injEq, Prod.mk.injEq] at h
    exact ⟨lt, h.2.symm⟩
  · exact nomatch h

/-- A sequence of two readings succeeds through a success of the first. -/
theorem Except.exists_of_bind_eq_ok {ε α β : Type} {x : Except ε α} {f : α → Except ε β} {b : β}
    (h : (x >>= f) = .ok b) : ∃ a, x = .ok a ∧ f a = .ok b := by
  cases x with
  | error e => exact nomatch h
  | ok a => exact ⟨a, rfl, h⟩

theorem Except.eq_of_pure_eq_ok {ε α : Type} {a b : α} (h : (pure a : Except ε α) = .ok b) : a = b :=
  Except.ok.inj h

theorem IndexSource.lt_of_decode {code : Array Word} {start offset next : Nat} {i : IndexSource}
    (h : decode code start offset = .ok (i, next)) : offset < next := by
  obtain ⟨⟨source, _⟩, first, h⟩ := Except.exists_of_bind_eq_ok h
  obtain ⟨⟨value, last⟩, second, h⟩ := Except.exists_of_bind_eq_ok h
  have := (lt_of_readWord first).2
  have := (lt_of_readWord second).2
  have : last = next := by
    simp only at h
    split at h
    · exact congrArg Prod.snd (Except.eq_of_pure_eq_ok h)
    · split at h
      · split at h
        · exact congrArg Prod.snd (Except.eq_of_pure_eq_ok h)
        · exact nomatch h
      · exact nomatch h
  omega

theorem Address.lt_of_decode {code : Array Word} {start offset next : Nat} {a : Address}
    (h : decode code start offset = .ok (a, next)) : offset < next := by
  obtain ⟨⟨w, middle⟩, first, h⟩ := Except.exists_of_bind_eq_ok h
  have := (lt_of_readWord first).2
  have : middle ≤ next := by
    simp only at h
    split at h
    · exact nomatch h
    · exact Nat.le_of_eq (congrArg Prod.snd (Except.eq_of_pure_eq_ok h))
    all_goals
      obtain ⟨⟨index, last⟩, second, h⟩ := Except.exists_of_bind_eq_ok h
      have := IndexSource.lt_of_decode second
      have := congrArg Prod.snd (Except.eq_of_pure_eq_ok h)
      simp only at this
      omega
  omega

theorem Argument.lt_of_decodeText {code : Array Word} {start offset next : Nat} {content : Text}
    (h : decodeText code start offset = .ok (content, next)) : offset < next := by
  obtain ⟨⟨w, middle⟩, first, h⟩ := Except.exists_of_bind_eq_ok h
  have := (lt_of_readWord first).2
  simp only at h
  split at h
  · exact nomatch h
  · split at h
    · have := congrArg Prod.snd (Except.eq_of_pure_eq_ok h)
      simp only [PackedText.wordCount] at this
      omega
    · exact nomatch h

/-- Reading an operand goes forward. -/
theorem Argument.lt_of_decode {code : Array Word} {start next : Nat} {argument : Argument}
    (h : decode code start = .ok (argument, next)) : start < next := by
  obtain ⟨⟨tag, offset⟩, first, h⟩ := Except.exists_of_bind_eq_ok h
  have := (lt_of_readWord first).2
  have : offset < next := by
    simp only at h
    split at h
    · obtain ⟨⟨value, last⟩, second, h⟩ := Except.exists_of_bind_eq_ok h
      have := (lt_of_readWord second).2
      have := congrArg Prod.snd (Except.eq_of_pure_eq_ok h)
      simp only at this
      omega
    · split at h
      · obtain ⟨⟨content, last⟩, second, h⟩ := Except.exists_of_bind_eq_ok h
        have := Argument.lt_of_decodeText second
        have := congrArg Prod.snd (Except.eq_of_pure_eq_ok h)
        simp only at this
        omega
      · split at h
        · obtain ⟨⟨address, middle⟩, second, h⟩ := Except.exists_of_bind_eq_ok h
          obtain ⟨⟨id, last⟩, third, h⟩ := Except.exists_of_bind_eq_ok h
          have := Address.lt_of_decode second
          have := (lt_of_readWord third).2
          simp only at h
          split at h
          · have := congrArg Prod.snd (Except.eq_of_pure_eq_ok h)
            simp only at this
            omega
          · exact nomatch h
        · exact nomatch h
  omega

theorem Argument.le_of_decodeMany {code : Array Word} {count offset next : Nat}
    {arguments : List Argument} (h : decodeMany code count offset = .ok (arguments, next)) :
    offset ≤ next := by
  induction count generalizing offset next arguments with
  | zero => exact Nat.le_of_eq (congrArg Prod.snd (Except.ok.inj h))
  | succ count ih =>
    obtain ⟨⟨argument, middle⟩, first, h⟩ := Except.exists_of_bind_eq_ok h
    obtain ⟨⟨rest, last⟩, second, h⟩ := Except.exists_of_bind_eq_ok h
    have := Argument.lt_of_decode first
    have := ih second
    have := congrArg Prod.snd (Except.eq_of_pure_eq_ok h)
    simp only at this
    omega

/-- An instruction lies in the code and the next one stands behind it. -/
theorem Instruction.lt_of_decode {code : Array Word} {offset next : Nat} {instruction : Instruction}
    (h : decode code offset = .ok (instruction, next)) : offset < code.size ∧ offset < next := by
  obtain ⟨⟨op, middle⟩, first, h⟩ := Except.exists_of_bind_eq_ok h
  obtain ⟨⟨id, after⟩, word, first⟩ := Except.exists_of_bind_eq_ok first
  obtain ⟨inside, step⟩ := lt_of_readWord word
  obtain ⟨⟨arguments, last⟩, second, h⟩ := Except.exists_of_bind_eq_ok h
  have := Argument.le_of_decodeMany second
  have := congrArg Prod.snd (Except.eq_of_pure_eq_ok h)
  simp only at this first
  split at first
  · have := congrArg Prod.snd (Except.eq_of_pure_eq_ok first)
    simp only at this
    omega
  · exact nomatch first

end StageScript
