import StageScript.Proofs.Machine.Parts

/-! # Instructions do not look at the clock
A machine counts its instructions and knows how many a run may execute. It is the run that goes by this
alone: no instruction looks at either, and none changes them.
* **`Exec.Timeless`** — a step that does the same whatever has been counted;
* **`Exec.Detached.timeless`** — so does every step on data, to which the clock is a part of the setting;
* **`timeless_step`** — and so does a step, of any code and from any position. -/

namespace StageScript

namespace Machine

/-- What a machine counts its instructions with. -/
structure Clock where
  limit : Option UInt64
  steps : Nat

/-- A machine with another clock. -/
def withClock (m : Machine) (c : Clock) : Machine := { m with stepLimit := c.limit, steps := c.steps }

end Machine

/-! ## Steps without a look at the clock -/

namespace Exec

open Machine Stepwise

variable {α β : Type}

/-- **A step does not look at the clock**: with another one it gives the same answer and leaves the same
machine, still with that clock. -/
def Timeless (x : Exec α) : Prop := ∀ m c, x (m.withClock c) = ((x m).1, (x m).2.withClock c)

/-- A step on data has the clock in its setting, among what it neither looks at nor changes. -/
theorem Detached.timeless {x : Exec α} (h : Detached x) : Timeless x := by
  intro m c
  have kept := h.kept m
  -- the setting is that of the machine but for the clock, so that it is just as strict
  have same := h.blind m { m.setting with steps := c.steps, limit := c.limit } (.inl rfl)
  rw [kept] at same ⊢
  exact same

namespace Timeless

/-- A result that is known beforehand. -/
protected theorem mk_pure (x : Except Fault α) : Timeless (ExceptT.mk (pure x) : Exec α) :=
  fun _ _ => rfl

protected theorem pure (a : α) : Timeless (pure a : Exec α) := .mk_pure (.ok a)

protected theorem throw (fault : Fault) : Timeless (throw fault : Exec α) := .mk_pure (.error fault)

protected theorem bind {x : Exec α} {f : α → Exec β} (hx : Timeless x) (hf : ∀ a, Timeless (f a)) :
    Timeless (x >>= f) := by
  intro m c
  rw [bind_apply, bind_apply, hx m c]
  rcases x m with ⟨fault | a, m'⟩
  · rfl
  · exact hf a m' c

/-- Such steps put together are such a step. -/
theorem inherited : Inherited (fun _ => Timeless) := ⟨.pure, .bind⟩

protected theorem ite {p : Prop} [Decidable p] {x y : Exec α} (hx : Timeless x) (hy : Timeless y) :
    Timeless (if p then x else y) := by
  split
  · exact hx
  · exact hy

/-- A step that looks at the machine first, but not at its clock. -/
protected theorem get {f : Machine → Exec α} (same : ∀ m c, f (m.withClock c) = f m)
    (hf : ∀ m, Timeless (f m)) : Timeless (get >>= f) := by
  intro m c
  show f (m.withClock c) (m.withClock c) = _
  rw [same]
  exact hf m m c

/-- A change of the machine that leaves its clock alone. -/
protected theorem modify {f : Machine → Machine} (h : ∀ m c, f (m.withClock c) = (f m).withClock c) :
    Timeless (modify f : Exec PUnit) :=
  fun m c => congrArg (Prod.mk (Except.ok PUnit.unit)) (h m c)

end Timeless

end Exec

/-! ## Control instructions -/

open Exec Timeless

theorem timeless_pushBranch (slot : Word) : (pushBranch slot).Timeless := by
  refine .get (fun _ _ => rfl) fun m => .ite ?_ (.throw _)
  exact .modify fun _ _ => rfl

theorem timeless_popBranch : popBranch.Timeless := by
  refine .get (fun _ _ => rfl) fun m => ?_
  cases m.branches with
  | nil => exact .throw _
  | cons slot rest => exact .bind (.modify fun _ _ => rfl) fun _ => .pure _

theorem timeless_enterFunction (p : Program) (next : Position) (index : Word) :
    (enterFunction p next index).Timeless := by
  unfold enterFunction
  split
  · exact .throw _
  · refine .get (fun _ _ => rfl) fun m => .ite ?_ (.throw _)
    exact .bind (.modify fun _ _ => rfl) fun _ => .pure _

theorem timeless_returnFromFunction : returnFromFunction.Timeless := by
  refine .get (fun _ _ => rfl) fun m => ?_
  cases m.calls with
  | nil => exact .throw _
  | cons back rest => exact .bind (.modify fun _ _ => rfl) fun _ => .pure _

/-- The parts of control instructions. -/
theorem timeless_controlParts (p : Program) : ControlParts (fun _ => Timeless) p where
  operands := Detached.operands.timeless
  pushBranch := timeless_pushBranch
  popBranch := timeless_popBranch
  word _ _ _ := .mk_pure _
  jump _ _ _ := .mk_pure _
  enterFunction := timeless_enterFunction p
  returnFromFunction := timeless_returnFromFunction

/-! ## All instructions -/

/-- **An instruction whose operands have been loaded** does not look at the clock. -/
theorem Opcode.timeless_perform (op : Opcode) (p : Program) (activation : Activation) (next : Position) :
    (op.perform p activation next).Timeless :=
  inherited.perform (timeless_controlParts p) next fun _ => (op.detached_act activation).timeless

theorem timeless_walkOperands (direction : Direction) (code : Array Word) (object count place offset : Nat) :
    (walkOperands direction code object count place offset).Timeless :=
  inherited.walkOperands (fun _ => .mk_pure _)
    (fun place argument => (argument.detached_use direction object place).timeless) count place offset

/-- **A step does not look at the clock**, whatever the code is, and whether it can be read or not. -/
theorem timeless_step (p : Program) (activation : Activation) (here : Position) :
    (step p activation here).Timeless := by
  refine inherited.step ?_ (fun op next => op.timeless_perform p activation next)
    fun count offset => timeless_walkOperands _ _ _ _ _ _
  exact inherited.fetch (fun _ => .mk_pure _) (fun count offset => timeless_walkOperands _ _ _ _ _ _) _

end StageScript
