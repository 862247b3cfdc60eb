import StageScript.Program.Instruction
import StageScript.Proofs.Program.Utf8

/-! # Instructions read back
What the words of an instruction mean where they stand in a program's code, whatever stands in front
of them and behind them.
* **`Holds`** — words standing at an offset of the code;
* **`PackedText.unpack_pack`** — a packed text is unpacked to itself;
* **`Argument.decode_of_holds`**, **`Instruction.decode_of_holds`** — reading the words of an operand
  or of an instruction gives it back, with the offset behind it. -/

namespace StageScript

/-! ## Numbers -/

theorem Word.toInt_ofNat {n : Nat} (h : n < 0x80000000) : (Word.ofNat n).toInt = n :=
  Int32.toInt_ofNat_of_lt h

theorem Word.index?_ofNat {n : Nat} (h : n < 0x80000000) : (Word.ofNat n).index? = some n := by
  rw [Word.index?, Word.toInt_ofNat h, if_neg (by omega), Int.toNat_natCast]

/-- The member of a table at the place where it stands. -/
theorem Array.getElem?_idxOf {α : Type} [DecidableEq α] {xs : Array α} {a : α} (h : a ∈ xs) :
    xs[xs.idxOf a]? = some a := by
  have inside : xs.toList.idxOf a < xs.toList.length :=
    List.idxOf_lt_length_of_mem (Array.mem_toList_iff.2 h)
  have : xs.idxOf a = xs.toList.idxOf a := @List.idxOf_toArray α _ xs.toList a
  rw [this, ← Array.getElem?_toList, List.getElem?_eq_getElem inside, List.getElem_idxOf]

/-- An opcode comes back from its word. -/
theorem Opcode.ofWord?_word {op : Opcode} (h : op ∈ Opcode.all) : ofWord? op.word = some op := by
  have inside := Array.idxOf_lt_length_of_mem h
  rw [Opcode.size_all] at inside
  rw [ofWord?, word, Word.index?_ofNat (by omega), Option.bind_some, Array.getElem?_idxOf h]

/-- A variable comes back from its word. -/
theorem Variable.ofWord?_word {v : Variable} (h : v ∈ Variable.all) : ofWord? v.word = some v := by
  have inside := Array.idxOf_lt_length_of_mem h
  rw [Variable.size_all] at inside
  rw [ofWord?, word, Word.index?_ofNat (by omega), Option.bind_some, Array.getElem?_idxOf h]

/-- A register comes back from its number. -/
theorem IndexRegister.ofWord?_slot (r : IndexRegister) :
    ofWord? (Word.ofNat r.slot.val) = some r := by
  cases r <;> decide

/-! ## Packed texts -/

namespace PackedText

/-- The number that four bytes make, the first byte on top. -/
theorem toNat_word (a b c d : UInt8) :
    (word a b c d).toUInt32.toNat =
      0x1000000 * a.toNat + (0x10000 * b.toNat + (0x100 * c.toNat + d.toNat)) := by
  have := a.toNat_lt
  have := b.toNat_lt
  have := c.toNat_lt
  have := d.toNat_lt
  show _ = 2 ^ 24 * a.toNat + (2 ^ 16 * b.toNat + (2 ^ 8 * c.toNat + d.toNat))
  rw [Nat.two_pow_add_eq_or_of_lt (i := 24) (by omega),
    Nat.two_pow_add_eq_or_of_lt (i := 16) (by omega),
    Nat.two_pow_add_eq_or_of_lt (i := 8) (by omega)]
  simp only [word, UInt32.toUInt32_toInt32, UInt32.toNat_or, UInt32.toNat_shiftLeft,
    UInt8.toNat_toUInt32, UInt32.reduceToNat, Nat.reduceMod, Nat.shiftLeft_eq,
    Nat.mul_comm (2 ^ _)]
  rw [Nat.mod_eq_of_lt (by omega), Nat.mod_eq_of_lt (by omega), Nat.mod_eq_of_lt (by omega),
    Nat.or_assoc, Nat.or_assoc]

theorem bytes_word (a b c d : UInt8) : bytes (word a b c d) = [a, b, c, d] := by
  have := a.toNat_lt
  have := b.toNat_lt
  have := c.toNat_lt
  have := d.toNat_lt
  have value := toNat_word a b c d
  simp only [bytes, List.cons.injEq, and_true, ← UInt8.toNat_inj, UInt32.toNat_toUInt8,
    UInt32.toNat_shiftRight, UInt32.reduceToNat, Nat.reduceMod, Nat.shiftRight_eq_div_pow, value]
  omega

/-- Packed bytes come back, filled up with zeros. -/
theorem prefix_flatMap_packBytes (data : List UInt8) : data <+: (packBytes data).flatMap bytes := by
  induction data using packBytes.induct with
  | case1 a b c d rest ih =>
    rw [packBytes, List.flatMap_cons, bytes_word]
    simpa using ih
  | case2 a b c => simp [packBytes, bytes_word]
  | case3 a b => simp [packBytes, bytes_word]
  | case4 a => simp [packBytes, bytes_word]
  | case5 => simp [packBytes]

theorem length_packBytes (data : List UInt8) : (packBytes data).length = (data.length + 3) / 4 := by
  induction data using packBytes.induct with
  | case1 a b c d rest ih =>
    rw [packBytes, List.length_cons, ih]
    simp only [List.length_cons]
    omega
  | case2 a b c => simp [packBytes]
  | case3 a b => simp [packBytes]
  | case4 a => simp [packBytes]
  | case5 => simp [packBytes]

/-- A packed text takes as many words as its length tells. -/
theorem length_pack (text : Text) : (pack text).length = wordCount (Utf8.encode text).length := by
  have : (Utf8.encode ['"']).length = 1 := rfl
  rw [pack, length_packBytes, List.length_append, this, wordCount]
  omega

/-- **A packed text is unpacked to itself.** -/
theorem unpack_pack (text : Text) : unpack (pack text) (Utf8.encode text).length = text := by
  have front : Utf8.encode text <+: (pack text).flatMap bytes :=
    (List.prefix_append _ _).trans (prefix_flatMap_packBytes _)
  rw [unpack, ← List.prefix_iff_eq_take.1 front, Utf8.decodeLossy_encode]

end PackedText

/-! ## Words in code -/

/-- The words that stand in code from an offset on. -/
def Holds (code : Array Word) : (offset : Nat) → List Word → Prop
  | _, [] => True
  | offset, w :: words => code[offset]? = some w ∧ Holds code (offset + 1) words

namespace Holds

variable {code : Array Word} {offset : Nat}

theorem append_iff {words more : List Word} :
    Holds code offset (words ++ more) ↔
      Holds code offset words ∧ Holds code (offset + words.length) more := by
  induction words generalizing offset with
  | nil => simp [Holds]
  | cons w words ih =>
    rw [List.cons_append, Holds, Holds, ih, List.length_cons, and_assoc]
    have : offset + 1 + words.length = offset + (words.length + 1) := by omega
    rw [this]

/-- Words that stand in code still stand there when more is added behind it. -/
theorem mono {words : List Word} (h : Holds code offset words) (more : Array Word) :
    Holds (code ++ more) offset words := by
  induction words generalizing offset with
  | nil => trivial
  | cons w words ih =>
    obtain ⟨inside, -⟩ := Array.getElem?_eq_some_iff.1 h.1
    exact ⟨(Array.getElem?_append_left inside).trans h.1, ih h.2⟩

/-- Added words stand at the old end of the code. -/
theorem of_append (code : Array Word) (words : List Word) :
    Holds (code ++ words.toArray) code.size words := by
  suffices h : ∀ done rest : List Word, Holds (code ++ (done ++ rest).toArray)
      (code.size + done.length) rest from h [] words
  intro done rest
  induction rest generalizing done with
  | nil => trivial
  | cons w rest ih =>
    constructor
    · rw [Array.getElem?_append_right (by omega)]
      simp
    · have := ih (done ++ [w])
      rw [List.append_assoc, List.length_append] at this
      exact this

theorem le_size {words : List Word} (h : Holds code offset words) (some : words ≠ []) :
    offset + words.length ≤ code.size := by
  induction words generalizing offset with
  | nil => exact absurd rfl some
  | cons w words ih =>
    obtain ⟨inside, -⟩ := Array.getElem?_eq_some_iff.1 h.1
    cases words with
    | nil =>
      rw [List.length_singleton]
      omega
    | cons w' words =>
      have := ih h.2 (List.cons_ne_nil _ _)
      rw [List.length_cons]
      omega

/-- The words that stand somewhere are the extract there. -/
theorem extract_eq {words : List Word} (h : Holds code offset words) :
    (code.extract offset (offset + words.length)).toList = words := by
  induction words generalizing offset with
  | nil => simp
  | cons w words ih =>
    have rest := ih h.2
    obtain ⟨inside, value⟩ := Array.getElem?_eq_some_iff.1 h.1
    rw [Array.toList_extract] at rest ⊢
    have : offset + (w :: words).length - offset = words.length + 1 := by
      rw [List.length_cons]
      omega
    simp only [List.extract_eq_take_drop] at rest ⊢
    rw [this, List.drop_eq_getElem_cons (by simpa using inside), List.take_succ_cons]
    rw [show offset + 1 + words.length - (offset + 1) = words.length by omega] at rest
    rw [rest]
    simpa using value

end Holds

/-! ## Operands -/

/-- A sequence of two readings goes on behind the first. -/
theorem Except.bind_of_eq_ok {ε α β : Type} {x : Except ε α} {a : α} (h : x = .ok a)
    (f : α → Except ε β) : (x >>= f) = f a := by
  rw [h]
  rfl

theorem readWord_of_holds {code : Array Word} {offset : Nat} {w : Word} {words : List Word}
    (h : Holds code offset (w :: words)) : readWord code offset = .ok (w, offset + 1) := by
  rw [readWord, h.1]

theorem IndexSource.decode_of_holds {code : Array Word} {start offset : Nat} {i : IndexSource}
    (h : Holds code offset i.encode) :
    decode code start offset = .ok (i, offset + i.encode.length) := by
  cases i with
  | literal value =>
    rw [decode, Except.bind_of_eq_ok (readWord_of_holds h)]
    dsimp only
    rw [Except.bind_of_eq_ok (readWord_of_holds h.2)]
    rfl
  | register r =>
    rw [decode, Except.bind_of_eq_ok (readWord_of_holds h)]
    dsimp only
    rw [Except.bind_of_eq_ok (readWord_of_holds h.2)]
    dsimp only
    rw [if_neg (by decide), if_pos rfl, IndexRegister.ofWord?_slot]
    rfl

theorem Address.decode_of_holds {code : Array Word} {start offset : Nat} {a : Address}
    (h : Holds code offset a.encode) :
    decode code start offset = .ok (a, offset + a.encode.length) := by
  cases a
  case self =>
    rw [decode, Except.bind_of_eq_ok (readWord_of_holds h)]
    rfl
  case «at» i | ahead i | behind i =>
    -- The mode is read, and then the source of the index behind it.
    rw [decode, Except.bind_of_eq_ok (readWord_of_holds h)]
    simp only [AddressMode.ofWord?_word]
    rw [Except.bind_of_eq_ok (IndexSource.decode_of_holds h.2), encode, List.length_cons,
      Nat.add_right_comm]
    rfl

namespace Argument

/-- The operands that their words give back: variables of the table, and texts whose length is a
word. -/
def Readable : Argument → Prop
  | .integer _ => True
  | .text content => (Utf8.encode content).length < 0x80000000
  | .element v _ => v ∈ Variable.all

theorem decodeText_of_holds {code : Array Word} {start offset : Nat} {content : Text}
    (h : Holds code offset
      (Word.ofNat (Utf8.encode content).length :: PackedText.pack content))
    (short : (Utf8.encode content).length < 0x80000000) :
    decodeText code start offset =
      .ok (content, offset + ((PackedText.pack content).length + 1)) := by
  have some : PackedText.pack content ≠ [] := by
    intro none
    have := PackedText.length_pack content
    rw [none, PackedText.wordCount] at this
    cases this
  have inside := h.2.le_size some
  rw [decodeText, Except.bind_of_eq_ok (readWord_of_holds h)]
  dsimp only
  rw [Word.index?_ofNat short]
  dsimp only
  rw [← PackedText.length_pack, if_pos inside, h.2.extract_eq, PackedText.unpack_pack,
    Nat.add_assoc, Nat.add_comm 1]
  rfl

/-- **The words of an operand** give it back. -/
theorem decode_of_holds {code : Array Word} {start : Nat} {a : Argument}
    (h : Holds code start a.encode) (readable : a.Readable) :
    decode code start = .ok (a, start + a.encode.length) := by
  cases a with
  | integer value =>
    rw [decode, Except.bind_of_eq_ok (readWord_of_holds h)]
    dsimp only
    rw [if_pos rfl, Except.bind_of_eq_ok (readWord_of_holds h.2)]
    rfl
  | text content =>
    rw [decode, Except.bind_of_eq_ok (readWord_of_holds h)]
    dsimp only
    rw [if_neg (by decide), if_pos rfl, Except.bind_of_eq_ok (decodeText_of_holds h.2 readable),
      Nat.add_assoc, Nat.add_comm 1]
    rfl
  | element v address =>
    obtain ⟨front, last⟩ := Holds.append_iff.1 h
    rw [decode, Except.bind_of_eq_ok (readWord_of_holds front)]
    dsimp only
    rw [if_neg (by decide), if_neg (by decide), if_pos rfl,
      Except.bind_of_eq_ok (Address.decode_of_holds front.2)]
    dsimp only
    rw [List.length_cons, ← Nat.add_assoc, Nat.add_right_comm] at last
    rw [Except.bind_of_eq_ok (readWord_of_holds last)]
    dsimp only
    rw [Variable.ofWord?_word readable, encode, List.length_append, List.length_cons]
    simp only [List.length_singleton, ← Nat.add_assoc, Nat.add_right_comm]
    rfl

theorem decodeMany_of_holds {code : Array Word} {offset : Nat} {arguments : List Argument}
    (h : Holds code offset (arguments.flatMap encode)) (readable : ∀ a ∈ arguments, a.Readable) :
    decodeMany code arguments.length offset =
      .ok (arguments, offset + (arguments.flatMap encode).length) := by
  induction arguments generalizing offset with
  | nil => rfl
  | cons a rest ih =>
    rw [List.flatMap_cons] at h
    obtain ⟨front, back⟩ := Holds.append_iff.1 h
    rw [List.length_cons, decodeMany,
      Except.bind_of_eq_ok (decode_of_holds front (readable a List.mem_cons_self))]
    dsimp only
    rw [Except.bind_of_eq_ok (ih back fun b hb => readable b (List.mem_cons_of_mem _ hb)),
      List.flatMap_cons, List.length_append, Nat.add_assoc]
    rfl

end Argument

/-! ## Instructions -/

namespace Instruction

/-- The words of an instruction. -/
def encode (op : Opcode) (arguments : List Argument) : List Word :=
  op.word :: arguments.flatMap Argument.encode

/-- The first word of an instruction gives its opcode back. -/
theorem decodeOpcode_of_holds {code : Array Word} {offset : Nat} {op : Opcode} {words : List Word}
    (h : Holds code offset (op.word :: words)) (known : op ∈ Opcode.all) :
    decodeOpcode code offset = .ok (op, offset + 1) := by
  rw [decodeOpcode, Except.bind_of_eq_ok (readWord_of_holds h)]
  dsimp only
  rw [Opcode.ofWord?_word known]
  rfl

/-- **The words of an instruction** give it back, with the offset of the next one. -/
theorem decode_of_holds {code : Array Word} {offset : Nat} {op : Opcode} {arguments : List Argument}
    (h : Holds code offset (encode op arguments)) (known : op ∈ Opcode.all)
    (many : arguments.length = op.arity) (readable : ∀ a ∈ arguments, a.Readable) :
    decode code offset = .ok (⟨offset, op, arguments⟩, offset + (encode op arguments).length) := by
  rw [decode, Except.bind_of_eq_ok (decodeOpcode_of_holds h known)]
  dsimp only
  rw [← many, Except.bind_of_eq_ok (Argument.decodeMany_of_holds h.2 readable), encode,
    List.length_cons, Nat.add_assoc, Nat.add_comm 1]
  rfl

/-- An instruction that stands in code, in front of the offset `next`. -/
structure Stands (code : Array Word) (offset : Nat) (op : Opcode) (arguments : List Argument)
    (next : Nat) : Prop where
  holds : Holds code offset (encode op arguments)
  known : op ∈ Opcode.all
  many : arguments.length = op.arity
  readable : ∀ a ∈ arguments, a.Readable
  behind : next = offset + (encode op arguments).length

theorem Stands.decode_eq {code : Array Word} {offset next : Nat} {op : Opcode}
    {arguments : List Argument} (h : Stands code offset op arguments next) :
    decode code offset = .ok (⟨offset, op, arguments⟩, next) := by
  rw [h.behind]
  exact decode_of_holds h.holds h.known h.many h.readable

/-- An instruction still stands there when more code is added behind it. -/
theorem Stands.mono {code : Array Word} {offset next : Nat} {op : Opcode}
    {arguments : List Argument} (h : Stands code offset op arguments next) (more : Array Word) :
    Stands (code ++ more) offset op arguments next :=
  ⟨h.holds.mono more, h.known, h.many, h.readable, h.behind⟩

end Instruction

end StageScript
