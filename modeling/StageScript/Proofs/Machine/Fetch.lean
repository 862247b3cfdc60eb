import StageScript.Proofs.Machine.Operands

/-! # The machine and the listing read alike
Compiled code is read by the machine, which uses operands as it finds them, and by the listing, which
takes an instruction apart. Neither relies on the other.
* **`walkOperands_fst`** — a walk over operands ends where reading them ends, in either direction;
* **`fetch_reads`** — an instruction is fetched exactly when it can be listed, and its operands can be
  stored ever after. -/

namespace StageScript

variable {code : Array Word} {m : Machine}

/-- Outside of strict mode any operand can be used, and the mode stays. -/
theorem Argument.use_of_lax (direction : Direction) (object place : Nat) (argument : Argument)
    (lax : m.strict = false) :
    ∃ m', argument.use direction object place m = (.ok (), m') ∧ m'.strict = false := by
  cases direction with
  | load =>
    obtain ⟨r, load, -, right⟩ := argument.load_apply object m
    obtain rfl := right lax
    refine ⟨_, Stepwise.bind_apply_of_ok load, lax⟩
  | store =>
    obtain ⟨stored, right⟩ := argument.stored_store object m.registers.operands[place] m
    exact ⟨_, Prod.ext (right lax) rfl, (congrArg Backdrop.strict stored.backdrop).trans lax⟩

/-- **A walk over operands ends where reading them ends**, and fails where reading them fails. -/
theorem walkOperands_fst (direction : Direction) (object count place offset : Nat)
    (lax : m.strict = false) :
    (walkOperands direction code object count place offset m).1 =
      (Argument.decodeMany code count offset).map (·.2) := by
  induction count generalizing place offset m with
  | zero => rfl
  | succ count ih =>
    unfold walkOperands Argument.decodeMany
    simp only [walkOperand_eq, Stepwise.bind_apply, Stepwise.mk_pure_apply]
    rcases Argument.decode code offset with _ | ⟨argument, next⟩
    · rfl
    obtain ⟨m', used, lax'⟩ := argument.use_of_lax direction object place lax
    simp only [Except.ok_bind, used, Stepwise.pure_apply]
    rw [ih (place + 1) next lax']
    rcases Argument.decodeMany code count next with _ | ⟨rest, last⟩ <;> rfl

/-- **An instruction is fetched exactly when it can be listed.** Both ways of reading it give the same
opcode, end at the same offset and fail for the same reason. And where the instruction was fetched,
storing its operands succeeds and ends at that offset again, whatever happened to the machine in
between. -/
theorem fetch_reads (code : Array Word) (object offset : Nat) (m : Machine)
    (lax : m.strict = false) :
    (fetch code object offset m).1.map (fun i => (i.opcode, i.next)) =
        (Instruction.decode code offset).map (fun (i, next) => (i.opcode, next)) ∧
      ∀ i, (fetch code object offset m).1 = .ok i →
        ∀ m', m'.strict = false →
          (walkOperands .store code object i.opcode.arity 0 i.first m').1 = .ok i.next := by
  have same : (fetch code object offset m).1 = (do
      let read ← Instruction.decodeOpcode code offset
      let next ← (Argument.decodeMany code read.1.arity read.2).map (·.2)
      return { opcode := read.1, first := read.2, next }) := by
    simp only [fetch_eq, Stepwise.bind_apply, Stepwise.mk_pure_apply]
    rcases Instruction.decodeOpcode code offset with _ | ⟨opcode, first⟩
    · rfl
    simp only [Except.ok_bind, ← walkOperands_fst .load object opcode.arity 0 first lax]
    rcases walkOperands .load code object opcode.arity 0 first m with ⟨_ | next, _⟩ <;> rfl
  rw [same]
  constructor
  · unfold Instruction.decode
    rcases Instruction.decodeOpcode code offset with _ | ⟨opcode, first⟩
    · rfl
    simp only [Except.ok_bind]
    rcases Argument.decodeMany code opcode.arity first with _ | ⟨arguments, next⟩ <;> rfl
  · intro i fetched m' lax'
    obtain ⟨⟨opcode, first⟩, -, fetched⟩ := Except.exists_of_bind_eq_ok fetched
    obtain ⟨next, read, fetched⟩ := Except.exists_of_bind_eq_ok fetched
    obtain rfl := Except.eq_of_pure_eq_ok fetched
    exact (walkOperands_fst .store object opcode.arity 0 first lax').trans read

/-- An assignment to `TempValue0[ArrayPos1]`. -/
def indexedAssignment : Array Word := #[1, 1, 1, 1, 1, 0, 2, 7]

/-- A machine at the beginning of a game. -/
def idle : Machine := { random := .ofSeed 1 }

theorem fetch_reads_indexedAssignment :
    ∃ i, (fetch indexedAssignment 0 0 idle).1 = .ok i ∧ i.opcode = .binary .assign ∧ i.next = 8 ∧
      ∀ m', m'.strict = false →
        (walkOperands .store indexedAssignment 0 i.opcode.arity 0 i.first m').1 = .ok i.next := by
  obtain ⟨fetched, stored⟩ := fetch_reads indexedAssignment 0 0 idle rfl
  have read : (Instruction.decode indexedAssignment 0).map (fun (i, next) => (i.opcode, next)) =
      .ok (.binary .assign, 8) := Except.eq_ok_of_toOption (by decide +kernel)
  rw [read] at fetched
  rcases eq : (fetch indexedAssignment 0 0 idle).1 with fault | i
  · rw [eq] at fetched
    cases fetched
  · rw [eq] at fetched
    obtain ⟨opcode, next⟩ := Prod.mk.inj (Except.ok.inj fetched)
    exact ⟨i, rfl, opcode, next, stored i eq⟩

end StageScript
