import StageScript.Proofs.Ascent
import StageScript.Proofs.Machine.Detached

/-! # What a run is put together of
A step reads words of the code, uses operands, opens and closes blocks and calls, and acts on data. A
property that is inherited from parts, and that all of these parts have, is one of every step and every run.
* **`Exec.Inherited`** — a property that steps have which are put together of steps that have it;
* **`Exec.Inherited.perform`** — an instruction has it if the parts of control instructions have it and what
  the instruction does with data;
* **`Exec.Inherited.walkOperands`** and **`Exec.Inherited.fetch`** — so have walks over operands;
* **`Exec.Inherited.step`** and **`Exec.Inherited.runFrom`** — and so have steps and runs;
* **`along_run`** — a run leads along a preorder of machines if steps do. -/

namespace StageScript

namespace Exec

variable {α β : Type} {P : ∀ ⦃α : Type⦄, Exec α → Prop}

/-- **A property that is inherited** by steps that are put together of steps that have it. -/
structure Inherited (P : ∀ ⦃α : Type⦄, Exec α → Prop) : Prop where
  pure : ∀ {α : Type} (a : α), P (pure a : Exec α)
  bind : ∀ {α β : Type} {x : Exec α} {f : α → Exec β}, P x → (∀ a, P (f a)) → P (x >>= f)

/-- **The parts of control instructions** have a property. -/
structure ControlParts (P : ∀ ⦃α : Type⦄, Exec α → Prop) (p : Program) : Prop where
  operands : P operands
  pushBranch : ∀ slot, P (pushBranch slot)
  popBranch : P popBranch
  word : ∀ here slot k, P (ExceptT.mk (pure (Jump.word p here slot k)) : Exec Word)
  jump : ∀ here slot k, P (jump p here slot k)
  enterFunction : ∀ next index, P (enterFunction p next index)
  returnFromFunction : P returnFromFunction

namespace Inherited

variable (h : Inherited P)

include h

theorem map (f : α → β) {x : Exec α} (hx : P x) : P (f <$> x) := by
  rw [map_eq_pure_bind]
  exact h.bind hx fun a => h.pure (f a)

theorem discard {x : Exec α} (hx : P x) : P (discard x) := h.map _ hx

theorem seqRight {x : Exec α} {y : Exec β} (hx : P x) (hy : P y) : P (x *> y) := h.bind hx fun _ => hy

/-! ## Control instructions -/

section

variable {p : Program} (parts : ControlParts P p) (next : Position)

include parts

theorem performIf (comparison : Comparison) : P (comparison.performIf p next) := by
  refine h.bind parts.operands fun o => h.bind (parts.pushBranch _) fun _ => ?_
  split
  · exact h.pure _
  · exact parts.jump ..

theorem performWhile (comparison : Comparison) : P (comparison.performWhile p next) := by
  refine h.bind parts.operands fun o => ?_
  split
  · exact h.bind (parts.pushBranch _) fun _ => h.pure _
  · exact parts.jump ..

theorem performSwitch : P (Control.performSwitch p next) := by
  refine h.bind parts.operands fun o => h.bind (parts.pushBranch _) fun _ => ?_
  refine h.bind (parts.word ..) fun min => h.bind (parts.word ..) fun max => ?_
  split
  · exact parts.jump ..
  · exact parts.jump ..

theorem performControl (op : Control) : P (op.perform p next) := by
  -- a block is closed before the jump that it has the target of
  have jumps (k : Int) : P (do return some (← jump p next (← popBranch) k) : Exec _) :=
    h.bind parts.popBranch fun _ => h.bind (parts.jump ..) fun _ => h.pure _
  have closes : P (do Functor.discard popBranch; return some next : Exec (Option Position)) :=
    h.bind (h.discard parts.popBranch) fun _ => h.pure _
  cases op with
  | stop => exact h.pure _
  | elseBranch => exact jumps 1
  | endIf => exact closes
  | loop => exact jumps 0
  | switch => exact h.map _ (h.performSwitch parts next)
  | leave => exact jumps 3
  | endSwitch => exact closes
  | callFunction => exact h.bind parts.operands fun _ => h.bind (parts.enterFunction ..) fun _ => h.pure _
  | endFunction => exact h.map _ parts.returnFromFunction

/-- **An instruction** whose operands have been loaded. -/
theorem perform {activation : Activation} {op : Opcode}
    (acts : op.isControl = false → P (op.act activation)) : P (op.perform p activation next) := by
  by_cases control : op.isControl = true
  · cases op with
    | control op => exact h.performControl parts next op
    | ifTest comparison => exact h.map _ (h.performIf parts next comparison)
    | whileTest comparison => exact h.map _ (h.performWhile parts next comparison)
    | _ => cases control
  · have data := Bool.eq_false_iff.2 control
    rw [Opcode.perform_of_not_isControl data]
    exact h.seqRight (acts data) (h.pure _)

end

/-! ## Steps of any code -/

/-- A walk over operands, each of which is read and used. -/
theorem walkOperands {direction : Direction} {code : Array Word} {object : Nat}
    (reads : ∀ start, P (ExceptT.mk (Pure.pure (Argument.decode code start))))
    (uses : ∀ place (argument : Argument), P (argument.use direction object place))
    (count place offset : Nat) : P (walkOperands direction code object count place offset) := by
  induction count generalizing place offset with
  | zero => exact h.pure _
  | succ count ih =>
    rw [StageScript.walkOperands, walkOperand_eq]
    refine h.bind (h.bind (reads offset) fun read => ?_) fun next => ih _ _
    exact h.bind (uses place read.1) fun _ => h.pure _

/-- The reading of an instruction, with the walk that loads its operands. -/
theorem fetch {code : Array Word} {object : Nat}
    (opcodes : ∀ offset, P (ExceptT.mk (Pure.pure (Instruction.decodeOpcode code offset))))
    (loads : ∀ count offset, P (StageScript.walkOperands .load code object count 0 offset)) (offset : Nat) :
    P (fetch code object offset) := by
  rw [fetch_eq]
  exact h.bind (opcodes offset) fun _ => h.bind (loads _ _) fun _ => h.pure _

/-- **A step**, which stores the operands of an instruction with results. -/
theorem step {p : Program} {activation : Activation} {here : Position}
    (fetches : P (StageScript.fetch p.code activation.object here.pointer))
    (performs : ∀ (op : Opcode) (next : Position), P (op.perform p activation next))
    (stores : ∀ count offset, P (StageScript.walkOperands .store p.code activation.object count 0 offset)) :
    P (step p activation here) := by
  refine h.bind fetches fun i => h.bind (performs i.opcode _) fun next => ?_
  split
  · exact h.bind (stores _ _) fun _ => h.pure _
  · exact h.pure _

/-- **A run** of so many steps. -/
theorem runFrom {p : Program} {activation : Activation} (counts : P countStep)
    (cut : P (do throw (.stepLimitExceeded (← get).budget) : Exec Unit))
    (steps : ∀ here, P (StageScript.step p activation here)) (fuel : Nat) (here : Position) :
    P (runFrom p activation fuel here) := by
  induction fuel generalizing here with
  | zero => exact h.bind counts fun _ => cut
  | succ fuel ih =>
    refine h.bind counts fun _ => h.bind (steps here) fun next? => ?_
    cases next? with
    | none => exact h.pure _
    | some next => exact ih next

end Inherited

end Exec

/-! ## Along a preorder -/

open Stepwise

variable {R : Machine → Machine → Prop} [IsPreorder Machine R]

/-- To lead along a preorder is inherited. -/
theorem Exec.Inherited.along : Inherited (fun _ => Along R) := ⟨.pure, .bind⟩

/-- **A run** of any body leads where its steps lead. -/
theorem along_run {p : Program} {activation : Activation} (entry : EntryPoint)
    (closes : ∀ m : Machine, R m { m with branches := [], calls := [] })
    (counts : ∀ m : Machine, R m { m with steps := m.steps + 1 })
    (steps : ∀ here, Along R (step p activation here)) : Along R (run p activation entry) := by
  have cut : Along R (do throw (.stepLimitExceeded (← get).budget) : Exec Unit) :=
    Along.get_bind fun m => refl_of R m
  refine (Along.modify closes).bind fun _ => Along.get_bind fun m => ?_
  exact Exec.Inherited.along.runFrom (Along.modify counts) cut steps _ _ m

end StageScript
