import StageScript.Proofs.Machine.Scratch

/-! # Runs leave nothing to the next
A run begins with whatever the last one left in the operand registers, on the stack of blocks and on that of
calls. It closes the blocks and calls at once, and no instruction sees an operand register that it has not
loaded itself.
* **`Machine.Leftovers`** — these three parts of a machine;
* **`sees_step`** and **`sees_runFrom`** — steps and runs see no operand register at all;
* `runBeside` — runs beside a host that changes the scene between instructions;
* **`run_ignores_leftovers`** — so what was left before a run does not reach what it does. -/

namespace StageScript

open Exec Machine Operands Stepwise

/-! ## Operands -/

section

variable {n : Nat}

theorem Variable.sees_read (v : Variable) (index : Word) : Sees n n (v.read index) := by
  have same (m : Machine) (o : Operands) : v.read? (m.withOperands o) index = v.read? m index := by
    cases v <;> rfl
  refine .get (fun m o _ => ?_) fun m => ?_
  · rw [same]
  · cases v.read? m index with
    | some value => exact .pure value
    | none => exact .bind (.outOfRange _ _) fun _ => .pure 0

theorem Variable.write?_withOperands (v : Variable) (m : Machine) (o : Operands) (index value : Word) :
    v.write? (m.withOperands o) index value = (v.write? m index value).map (·.withOperands o) := by
  cases v
  case objectSheet =>
    simp only [write?, scene_withOperands]
    cases slot? index <;> rfl
  case temp => rfl
  case checkResult => rfl
  case arrayPos => rfl
  case musicVolume => rfl
  case effectsVolume => rfl
  case trackVolume => rfl
  all_goals
    simp only [write?, change?, scene_withOperands, Option.map_map]
    rfl

theorem Variable.sees_write (v : Variable) (index value : Word) : Sees n n (v.write index value) := by
  refine .attempt (f := fun m => v.write? m index value) (i := fun _ => index) v.name (fun m => ?_)
    (fun m o _ => v.write?_withOperands m o index value) fun _ _ _ => rfl
  simp only [write, bind_apply, get_apply]
  cases v.write? m index value <;> rfl

theorem Address.index_withOperands (address : Address) (m : Machine) (o : Operands) (object : Nat) :
    address.index (m.withOperands o) object = address.index m object := by
  cases address with
  | self => rfl
  | «at» i => cases i <;> rfl
  | ahead i => cases i <;> rfl
  | behind i => cases i <;> rfl

theorem Argument.sees_load (object : Nat) (a : Argument) : Sees n n (a.load object) := by
  cases a with
  | integer value => exact .pure value
  | text content => exact .bind (.modify fun _ _ _ => rfl) fun _ => .pure 0
  | element v address =>
    refine .get (fun m o _ => ?_) fun m => v.sees_read _
    rw [address.index_withOperands]

theorem Argument.sees_store (object : Nat) (value : Word) (a : Argument) :
    Sees n n (a.store object value) := by
  cases a with
  | integer _ => exact .pure ()
  | text _ => exact .pure ()
  | element v address =>
    refine .get (fun m o _ => ?_) fun m => v.sees_write _ _
    rw [address.index_withOperands]

/-- **Loading operands** makes one register after the other known, whatever the code is. -/
theorem sees_loadOperands (code : Array Word) (object count place offset : Nat) :
    Sees place (place + count) (walkOperands .load code object count place offset) := by
  induction count generalizing place offset with
  | zero => exact .pure offset
  | succ count ih =>
    rw [walkOperands, walkOperand_eq, ← Nat.add_assoc, Nat.add_right_comm]
    have first (a : Argument) : Sees place (place + 1) (a.use .load object place) :=
      (a.sees_load object).bind fun value => .load place value
    refine .bind ?_ fun next => ih (place + 1) next
    refine .bind (.mk_pure _) fun argument => ?_
    obtain ⟨a, -⟩ := argument
    exact (first a).bind fun _ => .pure _

/-- **Storing operands** sees the registers that it stores. -/
theorem sees_storeOperands (code : Array Word) (object : Nat) {count place : Nat} (offset : Nat)
    (known : place + count ≤ n) : Sees n n (walkOperands .store code object count place offset) := by
  induction count generalizing place offset with
  | zero => exact .pure offset
  | succ count ih =>
    have stored (a : Argument) : Sees n n (a.use .store object place) := by
      refine .operands (fun o o' agree => ?_) fun o => a.sees_store object _
      rw [agree.eq (by omega)]
    rw [walkOperands, walkOperand_eq]
    refine .bind ?_ fun next => ih next (by omega)
    refine .bind (.mk_pure _) fun argument => ?_
    obtain ⟨a, -⟩ := argument
    exact (stored a).bind fun _ => .pure _

end

/-! ## Steps -/

/-- **An instruction, at any place of any code, sees no operand register** that it has not loaded. -/
theorem sees_step (p : Program) (activation : Activation) (here : Position) :
    Sees 0 0 (step p activation here) := by
  rw [step, fetch_eq]
  simp only [bind_assoc, pure_bind]
  refine .bind (.mk_pure _) fun instruction => ?_
  obtain ⟨opcode, first⟩ := instruction
  -- the operands are loaded first, and from then on the opcode's registers are known
  have loads := sees_loadOperands p.code activation.object opcode.arity 0 first
  rw [Nat.zero_add] at loads
  refine .bind loads fun next => .bind (opcode.sees_perform p activation _) fun target => ?_
  have stores := sees_storeOperands p.code activation.object first
    (Nat.le_of_eq (Nat.zero_add opcode.arity))
  refine .forget (.ite ?_ (.pure _)) (Nat.zero_le _)
  exact stores.bind fun pointer => .pure _

/-! ## Runs -/

theorem sees_countStep : Sees 0 0 countStep := .modify fun _ _ _ => rfl

/-- A run of so many instructions, beside a host that may change the scene behind each of them. It sees which
calls were made before the instruction and which behind it. -/
def runFromBeside (edit : History → History → Scene → Scene) (p : Program) (activation : Activation) :
    (fuel : Nat) → Position → Exec Unit
  | 0, _ => do
    countStep
    throw (.stepLimitExceeded (← get).budget)
  | fuel + 1, here => do
    countStep
    let before := (← get).history
    let next? ← step p activation here
    modify fun m => m.modifyScene (edit before m.history)
    match next? with
    | some next => runFromBeside edit p activation fuel next
    | none => return

/-- A run of a body beside a host that may change the scene. -/
def runBeside (edit : History → History → Scene → Scene) (p : Program) (activation : Activation)
    (entry : EntryPoint) : Exec Unit := do
  modify ({ · with branches := [], calls := [] })
  let m ← get
  runFromBeside edit p activation (m.budget - m.steps) (.ofEntry entry)

/-- Beside a host that changes nothing, a run is what it is by itself. -/
theorem runFromBeside_still (p : Program) (activation : Activation) (fuel : Nat) (here : Position) :
    runFromBeside (fun _ _ => id) p activation fuel here = runFrom p activation fuel here := by
  induction fuel generalizing here with
  | zero => rfl
  | succ fuel ih =>
    funext m
    rw [runFromBeside, runFrom]
    simp only [bind_apply, get_apply]
    rcases countStep m with ⟨fault | ⟨⟩, m₁⟩
    · rfl
    · dsimp only
      rcases step p activation here m₁ with ⟨fault | next | next, m₂⟩
      · rfl
      · rfl
      · exact congrFun (ih next) m₂

theorem runBeside_still (p : Program) (activation : Activation) (entry : EntryPoint) :
    runBeside (fun _ _ => id) p activation entry = run p activation entry := by
  unfold runBeside run
  simp only [runFromBeside_still]

/-- **A run, beside any host, sees no operand register.** -/
theorem sees_runFromBeside (edit : History → History → Scene → Scene) (p : Program)
    (activation : Activation) (fuel : Nat) (here : Position) :
    Sees 0 0 (runFromBeside edit p activation fuel here) := by
  induction fuel generalizing here with
  | zero => exact .bind sees_countStep fun _ => .get (fun _ _ _ => rfl) fun _ => .throw _
  | succ fuel ih =>
    refine .bind sees_countStep fun _ => .get (fun _ _ _ => rfl) fun m => ?_
    refine .bind (sees_step p activation here) fun next? => ?_
    refine .bind (.modify fun _ _ _ => rfl) fun _ => ?_
    cases next? with
    | none => exact .pure ()
    | some next => exact ih next

/-! ## What was left before -/

/-- What a run may leave behind, whether it succeeds or fails: its operands, and the blocks and calls that
are open. -/
structure Machine.Leftovers where
  operands : Operands
  branches : List Word
  calls : List Position

/-- A machine with other leftovers. -/
def Machine.withLeftovers (m : Machine) (left : Machine.Leftovers) : Machine :=
  { m.withOperands left.operands with branches := left.branches, calls := left.calls }

theorem runBeside_withLeftovers (edit : History → History → Scene → Scene) (p : Program)
    (activation : Activation) (entry : EntryPoint) (m : Machine) (left : Machine.Leftovers) :
    ∃ o, runBeside edit p activation entry (m.withLeftovers left) =
      ((runBeside edit p activation entry m).1, (runBeside edit p activation entry m).2.withOperands o) := by
  -- the stacks are emptied before anything else is done
  have begun : runBeside edit p activation entry (m.withLeftovers left) =
      runBeside edit p activation entry (m.withOperands left.operands) := rfl
  have blind : Sees 0 0 (runBeside edit p activation entry) :=
    .bind (.modify fun _ _ _ => rfl) fun _ => .get (fun _ _ _ => rfl) fun m =>
      sees_runFromBeside edit p activation _ _
  obtain ⟨o, ran, -⟩ := blind.blind m left.operands fun _ front => absurd front (Nat.not_lt_zero _)
  exact ⟨o, begun.trans ran⟩

/-- **What was left before a run does not reach what it does.** Whatever stands in the operand registers and
on the two stacks, be it of a run that failed anywhere, the run has the same answer and leaves the same
machine but for operand registers: the same scene, the same registers of scripts and the same answer of the
last check, the same texts, random numbers and calls of the host. So it is beside any host that changes the
scene between instructions. -/
theorem run_ignores_leftovers (p : Program) (activation : Activation) (entry : EntryPoint) (m : Machine)
    (left : Machine.Leftovers) :
    (∃ o, run p activation entry (m.withLeftovers left) =
      ((run p activation entry m).1, (run p activation entry m).2.withOperands o)) ∧
    ∀ edit, ∃ o, runBeside edit p activation entry (m.withLeftovers left) =
      ((runBeside edit p activation entry m).1,
        (runBeside edit p activation entry m).2.withOperands o) := by
  refine ⟨?_, fun edit => runBeside_withLeftovers edit p activation entry m left⟩
  rw [← runBeside_still]
  exact runBeside_withLeftovers _ p activation entry m left

end StageScript
