import StageScript.Proofs.Machine.Safety
import StageScript.Proofs.Machine.Trace

/-! # Steps in the middle of a run
What a machine does with blocks and calls open around it.
* **`Machine.amid`** — a machine in the middle of a run;
* **`Exec.Local.amid`** — a step on data does there what it does outside of a run;
* **`Comparison.performIf_amid`** and its companions — what control instructions do there. -/

namespace StageScript

open Stepwise Statement

/-- A machine with these blocks and calls open and so many steps counted. -/
def Machine.amid (m : Machine) (branches : List Word) (calls : List Position) (steps : Nat) : Machine :=
  m.within ⟨branches, calls, steps, m.strict⟩

@[simp] theorem Machine.counted_amid (m : Machine) (branches : List Word) (calls : List Position)
    (steps : Nat) : (m.amid branches calls steps).counted = m.amid branches calls (steps + 1) := rfl

/-- A step on data goes on in the middle of a run as it does outside of one. -/
theorem Exec.Local.amid {α : Type} {x : Exec α} (h : Exec.Local x) {m m' : Machine}
    {answer : Except Fault α} (eq : x m = (answer, m')) (branches : List Word)
    (calls : List Position) (steps : Nat) :
    x (m.amid branches calls steps) = (answer, m'.amid branches calls steps) := by
  have strict := h.strict_kept m
  have same := h.blind m ⟨branches, calls, steps, m.strict⟩ (.inl rfl)
  rw [eq] at strict same
  rw [Machine.amid, same, Machine.amid, strict]

/-- A question that is answered has its arguments loaded. -/
theorem Statement.exists_of_ask {α : Type} {object : Nat} {arguments : List Argument}
    {answer : Operands → Except Fault α} {m m' : Machine} {x : Except Fault α}
    (h : ask object arguments answer m = (x, m')) :
    (∃ fault, x = .error fault ∧ loadArguments object arguments 0 m = (.error fault, m')) ∨
      loadArguments object arguments 0 m = (.ok (), m') ∧ answer m'.registers.operands = x := by
  rw [ask, bind_apply] at h
  rcases load : loadArguments object arguments 0 m with ⟨fault | ⟨⟩, m''⟩
  · rw [load] at h
    obtain ⟨rfl, rfl⟩ := Prod.mk.inj h
    exact .inl ⟨fault, rfl, rfl⟩
  · rw [load] at h
    obtain ⟨answered, rfl⟩ := Prod.mk.inj h
    exact .inr ⟨rfl, answered⟩

/-- A control instruction has no results, so it ends with where the run goes on. -/
theorem Instruction.execute_of_isControl {i : Instruction} (h : i.opcode.isControl = true)
    (p : Program) (activation : Activation) (next : Position) :
    i.execute p activation next =
      loadArguments activation.object i.arguments 0 >>= fun _ => i.opcode.perform p activation next := by
  obtain ⟨offset, op, arguments⟩ := i
  have free : op.hasResult = false := by
    cases op <;> first | rfl | cases h
  simp only [execute, free, Bool.false_eq_true, if_false, bind_pure]

/-! ## Tests in the middle of a run -/

namespace Comparison

variable (comparison : Comparison) (p : Program) (next : Position) {m : Machine} {w : Word}
  {branches : List Word} (calls : List Position) (steps : Nat)

theorem performIf_amid (room : branches.length < branchDepthLimit)
    (slot : m.registers.operands[0] = w) :
    comparison.performIf p next (m.amid branches calls steps) =
      (if comparison.holds m.registers.operands[1] m.registers.operands[2] then .ok next
        else Jump.target p next w 0, m.amid (w :: branches) calls steps) := by
  subst slot
  rw [performIf, bind_apply, operands_apply]
  dsimp only
  rw [bind_apply_of_ok ((pushBranch_apply _ _).trans (if_pos room))]
  show (if comparison.holds m.registers.operands[1] m.registers.operands[2] then _ else _ : Exec _) _ =
    _
  split <;> rfl

theorem performIf_of_full (full : branchDepthLimit ≤ branches.length) :
    comparison.performIf p next (m.amid branches calls steps) =
      (.error .branchStackOverflow, m.amid branches calls steps) := by
  rw [performIf, bind_apply, operands_apply]
  dsimp only
  exact bind_apply_of_error ((pushBranch_apply _ _).trans (if_neg (Nat.not_lt_of_le full)))

theorem performWhile_amid (room : branches.length < branchDepthLimit)
    (slot : m.registers.operands[0] = w)
    (holds : comparison.holds m.registers.operands[1] m.registers.operands[2] = true) :
    comparison.performWhile p next (m.amid branches calls steps) =
      (.ok next, m.amid (w :: branches) calls steps) := by
  subst slot
  rw [performWhile, bind_apply, operands_apply]
  dsimp only
  refine (congrFun (if_pos holds) _).trans ?_
  rw [bind_apply_of_ok ((pushBranch_apply _ _).trans (if_pos room))]
  rfl

theorem performWhile_of_full (full : branchDepthLimit ≤ branches.length)
    (holds : comparison.holds m.registers.operands[1] m.registers.operands[2] = true) :
    comparison.performWhile p next (m.amid branches calls steps) =
      (.error .branchStackOverflow, m.amid branches calls steps) := by
  rw [performWhile, bind_apply, operands_apply]
  dsimp only
  refine (congrFun (if_pos holds) _).trans ?_
  exact bind_apply_of_error ((pushBranch_apply _ _).trans (if_neg (Nat.not_lt_of_le full)))

theorem performWhile_of_fails (slot : m.registers.operands[0] = w)
    (fails : ¬ comparison.holds m.registers.operands[1] m.registers.operands[2] = true) :
    comparison.performWhile p next (m.amid branches calls steps) =
      (Jump.target p next w 1, m.amid branches calls steps) := by
  subst slot
  rw [performWhile, bind_apply, operands_apply]
  dsimp only
  exact congrFun (if_neg fails) _

end Comparison

/-- Closing the innermost block and going on where one of its slots leads. -/
theorem popBranch_jump {p : Program} {next target : Position} {m : Machine} {w : Word} {k : Int}
    {branches : List Word} {calls : List Position} {steps : Nat}
    (leads : Jump.target p next w k = .ok target) :
    (do return some (← jump p next (← popBranch) k) : Exec (Option Position))
        (m.amid (w :: branches) calls steps) =
      (.ok (some target), m.amid branches calls steps) := by
  rw [bind_apply_of_ok (popBranch_apply rfl), bind_apply, jump_apply, leads]
  rfl

/-! ## Calls in the middle of a run -/

section

variable {p : Program} (next : Position) {entry : EntryPoint} {m : Machine} (branches : List Word)
  {calls : List Position} (steps : Nat)

theorem callFunction_of_none
    (unknown : (m.registers.operands[0].index?.bind (p.functions[·]?)).bind (·.entry) = none) :
    Control.callFunction.perform p next (m.amid branches calls steps) =
      (.error (.undefinedFunction m.registers.operands[0]), m.amid branches calls steps) := by
  have failed : enterFunction p next m.registers.operands[0] (m.amid branches calls steps) =
      (.error (.undefinedFunction m.registers.operands[0]), m.amid branches calls steps) := by
    rw [enterFunction, unknown]
    rfl
  rw [Control.perform, bind_apply, operands_apply]
  exact bind_apply_of_error failed

variable (known : (m.registers.operands[0].index?.bind (p.functions[·]?)).bind (·.entry) = some entry)

include known

theorem callFunction_amid (room : calls.length < callDepthLimit) :
    Control.callFunction.perform p next (m.amid branches calls steps) =
      (.ok (some (.ofEntry entry)), m.amid branches (next :: calls) steps) := by
  have entered : enterFunction p next m.registers.operands[0] (m.amid branches calls steps) =
      (.ok (.ofEntry entry), m.amid branches (next :: calls) steps) := by
    rw [enterFunction, known]
    dsimp only
    rw [bind_apply, get_apply]
    exact congrFun (if_pos room) _
  rw [Control.perform, bind_apply, operands_apply]
  exact bind_apply_of_ok entered

theorem callFunction_of_full (full : callDepthLimit ≤ calls.length) :
    Control.callFunction.perform p next (m.amid branches calls steps) =
      (.error .callStackOverflow, m.amid branches calls steps) := by
  have failed : enterFunction p next m.registers.operands[0] (m.amid branches calls steps) =
      (.error .callStackOverflow, m.amid branches calls steps) := by
    rw [enterFunction, known]
    dsimp only
    rw [bind_apply, get_apply]
    exact congrFun (if_neg (Nat.not_lt_of_le full)) _
  rw [Control.perform, bind_apply, operands_apply]
  exact bind_apply_of_error failed

end

end StageScript
