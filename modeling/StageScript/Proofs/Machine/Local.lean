import StageScript.Proofs.Machine.Detached

/-! # Steps on data in other surroundings
A run goes from step to step with blocks and calls open around it and steps counted. Nothing of this
matters to its steps on data.
* **`Exec.Local`** — a step that leaves its surroundings as they are and does the same in others, as long as
  strict mode does not make it fail;
* **`Instruction.local_act`** — an instruction on data is one, from the loading of its operands on. -/

namespace StageScript

namespace Machine

/-- A machine in other surroundings. -/
def within (m : Machine) (around : Machine.Surroundings) : Machine :=
  { m with
    branches := around.branches
    calls := around.calls
    steps := around.steps
    strict := around.strict }

/-- The surroundings of a machine. -/
def surroundings (m : Machine) : Machine.Surroundings := ⟨m.branches, m.calls, m.steps, m.strict⟩

end Machine

namespace Exec

variable {α : Type} {x : Exec α}

/-- A step on data: it leaves its surroundings as they are, does the same in other surroundings that
allow it, and fails for reasons of strict mode only, in strict mode only. -/
structure Local (x : Exec α) : Prop where
  blind : ∀ m around, Allowed m around (x m).1 →
    x (m.within around) = ((x m).1, (x m).2.within around)
  strict : ∀ m fault, (x m).1 = .error fault → fault.isStrict = true
  lax : ∀ m fault, (x m).1 = .error fault → m.strict = true

/-- Other surroundings are another setting in which there may be as many steps. -/
theorem Detached.local (h : Detached x) : Local x where
  blind m around allowed := by
    have limit : (x m).2.stepLimit = m.stepLimit := by
      rw [h.kept m]
      rfl
    have left : (x m).2.within around = (x m).2.under ⟨around, m.stepLimit⟩ := by
      rw [← limit]
      rfl
    rw [left]
    exact h.blind m ⟨around, m.stepLimit⟩ allowed
  strict := h.strict
  lax := h.lax

namespace Local

/-- A step on data leaves its surroundings as they are. -/
theorem kept (h : Local x) (m : Machine) : (x m).2 = (x m).2.within m.surroundings :=
  congrArg Prod.snd (h.blind m m.surroundings (.inl rfl))

theorem branches (h : Local x) (m : Machine) : (x m).2.branches = m.branches := by
  rw [h.kept m]
  rfl

theorem calls (h : Local x) (m : Machine) : (x m).2.calls = m.calls := by
  rw [h.kept m]
  rfl

theorem strict_kept (h : Local x) (m : Machine) : (x m).2.strict = m.strict := by
  rw [h.kept m]
  rfl

end Local

end Exec

theorem local_loadArguments (object : Nat) (arguments : List Argument) (place : Nat) :
    (loadArguments object arguments place).Local :=
  (detached_loadArguments object arguments place).local

/-- **What an instruction on data does** is a step on data. -/
theorem Opcode.local_act (activation : Activation) (op : Opcode) : (op.act activation).Local :=
  (op.detached_act activation).local

/-- **An instruction on data** is a step on data. -/
theorem Instruction.local_act (activation : Activation) (i : Instruction) : (i.act activation).Local :=
  (i.detached_act activation).local

end StageScript
