import StageScript.Proofs.Machine.Walk

/-! # Execution of a decoded instruction
A step of the machine walks over the operands of an instruction one after the other, before it knows
whether the next one can be read. Where the whole instruction can be read, the two can be taken apart:
* **`Instruction.execute`** — loads the operands, carries the instruction out and stores the operands
  of an instruction with results, without another look at the code;
* **`step_eq_execute`** — a step at a readable instruction is its execution. -/

namespace StageScript

@[simp] theorem currentScene_apply (m : Machine) : currentScene m = (.ok m.scene, m) := rfl

@[simp] theorem outOfRange_apply (subject : String) (index : Word) (m : Machine) :
    outOfRange subject index m =
      (if m.strict then .error (.indexOutOfRange subject index) else .ok (), m) := by
  unfold outOfRange
  cases h : m.strict <;> simp [h]

/-! ## Operands that have been read -/

/-- Loads operands into the operand registers from `place` on. -/
def loadArguments (object : Nat) : List Argument → (place : Nat) → Exec Unit
  | [], _ => return
  | argument :: rest, place => do
    let value ← argument.load object
    modify (·.setOperand place value)
    loadArguments object rest (place + 1)

/-- Stores operands out of the operand registers from `place` on. -/
def storeArguments (object : Nat) : List Argument → (place : Nat) → Exec Unit
  | [], _ => return
  | argument :: rest, place => do
    argument.store object (← operands)[place]
    storeArguments object rest (place + 1)

/-- **Loading readable operands** takes their values in order and ends behind the last one. -/
theorem loadOperands_eq {code : Array Word} {object count place offset next : Nat}
    {arguments : List Argument} (h : Argument.decodeMany code count offset = .ok (arguments, next)) :
    walkOperands .load code object count place offset = do
      loadArguments object arguments place
      return next := by
  induction count generalizing place offset arguments with
  | zero =>
    obtain ⟨rfl, rfl⟩ := Prod.mk.inj (Except.ok.inj h)
    rfl
  | succ count ih =>
    obtain ⟨⟨argument, middle⟩, first, h⟩ := Except.exists_of_bind_eq_ok h
    obtain ⟨⟨rest, last⟩, second, h⟩ := Except.exists_of_bind_eq_ok h
    obtain ⟨rfl, rfl⟩ := Prod.mk.inj (Except.eq_of_pure_eq_ok h)
    funext m
    simp only [walkOperands, walkOperand_eq, Argument.use, loadArguments, first,
      Stepwise.bind_apply, Stepwise.mk_pure_apply]
    rcases argument.load object m with ⟨_ | value, m⟩
    · rfl
    · simp only [Stepwise.modify_apply, Stepwise.pure_apply]
      rw [ih second, Stepwise.bind_apply]
      rfl

/-- **Storing readable operands** writes them in order and ends behind the last one. -/
theorem storeOperands_eq {code : Array Word} {object count place offset next : Nat}
    {arguments : List Argument} (h : Argument.decodeMany code count offset = .ok (arguments, next)) :
    walkOperands .store code object count place offset = do
      storeArguments object arguments place
      return next := by
  induction count generalizing place offset arguments with
  | zero =>
    obtain ⟨rfl, rfl⟩ := Prod.mk.inj (Except.ok.inj h)
    rfl
  | succ count ih =>
    obtain ⟨⟨argument, middle⟩, first, h⟩ := Except.exists_of_bind_eq_ok h
    obtain ⟨⟨rest, last⟩, second, h⟩ := Except.exists_of_bind_eq_ok h
    obtain ⟨rfl, rfl⟩ := Prod.mk.inj (Except.eq_of_pure_eq_ok h)
    funext m
    simp only [walkOperands, walkOperand_eq, Argument.use, storeArguments, first,
      Stepwise.bind_apply, Stepwise.mk_pure_apply, operands_apply]
    rcases argument.store object m.registers.operands[place] m with ⟨_ | _, m⟩
    · rfl
    · simp only [Stepwise.pure_apply]
      rw [ih second, Stepwise.bind_apply]
      rfl

/-! ## Instructions -/

/-- Carries out an instruction that has been read, `next` being the position behind it. -/
def Instruction.execute (p : Program) (activation : Activation) (next : Position)
    (i : Instruction) : Exec (Option Position) := do
  loadArguments activation.object i.arguments 0
  let target ← i.opcode.perform p activation next
  if i.opcode.hasResult then
    storeArguments activation.object i.arguments 0
    return some next
  else return target

/-- **A step at a readable instruction is its execution.** -/
theorem step_eq_execute {p : Program} {activation : Activation} {here : Position} {i : Instruction}
    {next : Nat} (h : Instruction.decode p.code here.pointer = .ok (i, next)) :
    step p activation here = i.execute p activation { here with pointer := next } := by
  obtain ⟨⟨op, first⟩, opcode, h⟩ := Except.exists_of_bind_eq_ok h
  obtain ⟨⟨arguments, last⟩, many, h⟩ := Except.exists_of_bind_eq_ok h
  obtain ⟨rfl, rfl⟩ := Prod.mk.inj (Except.eq_of_pure_eq_ok h)
  funext m
  simp only [step, fetch_eq, opcode, Instruction.execute, Stepwise.bind_apply,
    Stepwise.mk_pure_apply]
  rw [loadOperands_eq many, Stepwise.bind_apply]
  rcases loadArguments activation.object arguments 0 m with ⟨_ | _, m⟩
  · rfl
  · simp only [Stepwise.pure_apply]
    rcases op.perform p activation { here with pointer := last } m with ⟨_ | target, m⟩
    · rfl
    · dsimp only
      split
      · rw [storeOperands_eq many]
        simp only [Stepwise.bind_apply]
        rcases storeArguments activation.object arguments 0 m with ⟨_ | _, m⟩ <;> rfl
      · rfl

/-- Fetching a readable instruction is loading its operands. -/
theorem exists_of_fetch {code : Array Word} {object offset next : Nat} {i : Instruction} {f : Fetched}
    {m m' : Machine} (h : Instruction.decode code offset = .ok (i, next))
    (fetched : fetch code object offset m = (.ok f, m')) :
    f.opcode = i.opcode ∧ f.next = next ∧
      loadArguments object i.arguments 0 m = (.ok (), m') := by
  obtain ⟨⟨op, first⟩, opcode, h⟩ := Except.exists_of_bind_eq_ok h
  obtain ⟨⟨arguments, last⟩, many, h⟩ := Except.exists_of_bind_eq_ok h
  obtain ⟨rfl, rfl⟩ := Prod.mk.inj (Except.eq_of_pure_eq_ok h)
  simp only [fetch_eq, opcode, Stepwise.bind_apply, Stepwise.mk_pure_apply] at fetched
  rw [loadOperands_eq many, Stepwise.bind_apply] at fetched
  rcases loaded : loadArguments object arguments 0 m with ⟨_ | ⟨⟩, m₁⟩
  · rw [loaded] at fetched
    cases (Prod.mk.inj fetched).1
  · rw [loaded] at fetched
    obtain ⟨same, rfl⟩ := Prod.mk.inj fetched
    obtain rfl := Except.ok.inj same
    exact ⟨rfl, rfl, rfl⟩

theorem Argument.length_of_decodeMany {code : Array Word} {count offset next : Nat}
    {arguments : List Argument} (h : decodeMany code count offset = .ok (arguments, next)) :
    arguments.length = count := by
  induction count generalizing offset arguments with
  | zero =>
    obtain ⟨rfl, -⟩ := Prod.mk.inj (Except.ok.inj h)
    rfl
  | succ count ih =>
    obtain ⟨⟨argument, middle⟩, first, h⟩ := Except.exists_of_bind_eq_ok h
    obtain ⟨⟨rest, last⟩, second, h⟩ := Except.exists_of_bind_eq_ok h
    obtain ⟨rfl, rfl⟩ := Prod.mk.inj (Except.eq_of_pure_eq_ok h)
    rw [List.length_cons, ih second]

/-- An instruction has as many operands as its opcode takes, and the registers hold them all. -/
theorem Instruction.length_le_of_decode {code : Array Word} {offset next : Nat} {i : Instruction}
    (h : decode code offset = .ok (i, next)) : i.arguments.length ≤ 10 := by
  obtain ⟨⟨op, first⟩, opcode, h⟩ := Except.exists_of_bind_eq_ok h
  obtain ⟨⟨arguments, last⟩, many, h⟩ := Except.exists_of_bind_eq_ok h
  obtain ⟨rfl, rfl⟩ := Prod.mk.inj (Except.eq_of_pure_eq_ok h)
  have := Argument.length_of_decodeMany many
  have := op.arity_le
  simp only
  omega

end StageScript
