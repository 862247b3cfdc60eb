import StageScript.Machine.Run
import StageScript.Proofs.Stepwise

/-! # Operands read as they are used
The machine looks at the words of an operand on its own, whichever way it walks over it. It takes the
same words for an operand as `Argument.decode` does, and only then uses the operand:
* `Argument.load` and `Argument.store` — what is done with an operand that has been read;
* **`walkOperand_load`**, **`walkOperand_store`** — a walk over an operand reads it first;
* **`fetch_eq`** — so does the machine with an opcode. -/

namespace StageScript

@[simp] theorem operands_apply (m : Machine) : operands m = (.ok m.registers.operands, m) := rfl

/-! ## Operands that have been read -/

/-- The value of an index at the moment. -/
def IndexSource.value (m : Machine) : IndexSource → Word
  | .literal w => w
  | .register r => m.registers.index r

/-- The element that an operand means at the moment, `object` being the slot of the running object. -/
def Address.index (m : Machine) (object : Nat) : Address → Word
  | .self => Word.ofNat object
  | .at index => index.value m
  | .ahead index => Word.ofNat object + index.value m
  | .behind index => Word.ofNat object - index.value m

namespace Argument

/-- The value of an operand. That of a text is zero; the text itself becomes the script text. -/
def load (object : Nat) : Argument → Exec Word
  | .integer value => return value
  | .text content => do
    modify ({ · with scriptText := String.ofList content })
    return 0
  | .element v address => do v.read (address.index (← get) object)

/-- Gives an operand a value. Only variables take one. -/
def store (object : Nat) (value : Word) : Argument → Exec Unit
  | .integer _ => return
  | .text _ => return
  | .element v address => do v.write (address.index (← get) object) value

end Argument

/-! ## Words and addresses -/

variable {ε α β : Type}

theorem Except.ok_bind (a : α) (f : α → Except ε β) : ((.ok a : Except ε α) >>= f) = f a := rfl

theorem nextWord_apply (code : Array Word) (offset : Nat) (m : Machine) :
    nextWord code offset m = (readWord code offset, m) := by
  unfold nextWord readWord
  cases code[offset]? <;> rfl

theorem Except.pure_eq (a : α) : (pure a : Except ε α) = .ok a := rfl

/-- A register is found by its number where there is one of that number. -/
theorem indexRegister?_eq (m : Machine) (number : Word) :
    indexRegister? m number = (IndexRegister.ofWord? number).map m.registers.index := by
  rw [indexRegister?, IndexRegister.ofWord?]
  cases number.index? with
  | none => rfl
  | some n =>
    match n with
    | 0 => rfl
    | 1 => rfl
    | 2 => rfl
    | _ + 3 => rfl

/-- An index is read and then looked up. -/
theorem indexAt_apply (code : Array Word) (start offset : Nat) (m : Machine) :
    indexAt code start offset m =
      ((IndexSource.decode code start offset).map fun (index, next) => (index.value m, next), m) := by
  unfold indexAt IndexSource.decode
  simp only [Stepwise.bind_apply, nextWord_apply]
  rcases readWord code offset with _ | ⟨source, middle⟩
  · rfl
  simp only [Except.ok_bind]
  rcases readWord code middle with _ | ⟨value, next⟩
  · rfl
  simp only [Except.ok_bind]
  split
  · rfl
  · split
    · simp only [Stepwise.bind_apply, Stepwise.get_apply, indexRegister?_eq]
      cases IndexRegister.ofWord? value <;> rfl
    · rfl

/-- **An address is read and then looked up.** -/
theorem elementIndex_apply (code : Array Word) (object start offset : Nat) (m : Machine) :
    elementIndex code object start offset m =
      ((Address.decode code start offset).map fun (address, next) => (address.index m object, next),
        m) := by
  unfold elementIndex Address.decode
  simp only [Stepwise.bind_apply, nextWord_apply]
  rcases readWord code offset with _ | ⟨w, middle⟩
  · rfl
  simp only [Except.ok_bind]
  cases AddressMode.ofWord? w with
  | none => rfl
  | some mode =>
    cases mode with
    | self => rfl
    | _ =>
      simp only [Stepwise.bind_apply, indexAt_apply]
      rcases IndexSource.decode code start middle with _ | ⟨index, next⟩ <;> rfl

/-! ## Operands -/

/-- What a walk does with an operand that it has read. -/
def Argument.use (direction : Direction) (object place : Nat) (argument : Argument) : Exec Unit :=
  match direction with
  | .load => do
    let value ← argument.load object
    modify (·.setOperand place value)
  | .store => do argument.store object (← operands)[place]

/-- **A walk over an operand reads it and then uses it.** -/
theorem walkOperand_eq (direction : Direction) (code : Array Word) (object place start : Nat) :
    walkOperand direction code object place start = do
      let (argument, next) ← ExceptT.mk (pure (Argument.decode code start))
      argument.use direction object place
      return next := by
  funext m
  unfold walkOperand Argument.decode
  simp only [Stepwise.bind_apply, nextWord_apply, Stepwise.mk_pure_apply]
  rcases readWord code start with _ | ⟨tag, offset⟩
  · rfl
  simp only [Except.ok_bind]
  split
  case isTrue => -- an integer
    simp only [Stepwise.bind_apply, nextWord_apply]
    rcases readWord code offset with _ | ⟨value, next⟩
    · rfl
    · cases direction <;> rfl
  case isFalse =>
  split
  case isTrue => -- a text
    unfold Argument.decodeText
    simp only [Stepwise.bind_apply, nextWord_apply]
    rcases readWord code offset with _ | ⟨w, offset⟩
    · rfl
    simp only [Except.ok_bind]
    cases w.index? with
    | none => rfl
    | some length =>
      by_cases inside : offset + PackedText.wordCount length ≤ code.size
      · have : ¬code.size < offset + PackedText.wordCount length := by omega
        simp only [inside, this, if_true, if_false]
        cases direction <;> rfl
      · have : code.size < offset + PackedText.wordCount length := by omega
        simp only [inside, this, if_true, if_false]
        rfl
  case isFalse =>
  split
  case isTrue => -- a variable
    simp only [Stepwise.bind_apply, elementIndex_apply]
    rcases Address.decode code start offset with _ | ⟨address, offset⟩
    · rfl
    simp only [Except.map, Except.ok_bind, nextWord_apply]
    rcases readWord code offset with _ | ⟨id, next⟩
    · rfl
    simp only [Except.ok_bind]
    cases Variable.ofWord? id with
    | none => rfl
    | some v =>
      simp only [Except.pure_eq, Argument.use]
      cases direction with
      | load =>
        simp only [Stepwise.bind_apply, Argument.load, Stepwise.get_apply]
        rcases v.read (address.index m object) m with ⟨_ | value, _⟩ <;> rfl
      | store =>
        simp only [Stepwise.bind_apply, Argument.store, Stepwise.get_apply, operands_apply]
  case isFalse => rfl

/-- An opcode is read, and then its operands are walked over. -/
theorem fetch_eq (code : Array Word) (object offset : Nat) :
    fetch code object offset = do
      let (opcode, first) ← ExceptT.mk (pure (Instruction.decodeOpcode code offset))
      let next ← walkOperands .load code object opcode.arity 0 first
      return { opcode, first, next } := by
  funext m
  unfold fetch Instruction.decodeOpcode
  simp only [Stepwise.bind_apply, nextWord_apply, Stepwise.mk_pure_apply]
  rcases readWord code offset with _ | ⟨id, first⟩
  · rfl
  simp only [Except.ok_bind]
  cases Opcode.ofWord? id with
  | none => rfl
  | some opcode =>
    simp only [Except.pure_eq, Stepwise.bind_apply]

end StageScript
