import StageScript.Proofs.Machine.Statement

/-! # Runs and what they carry out
A run with the instructions on data that it carries out, in their order.
* **`traceFrom`** — a run of `runFrom`, which tells what it carries out;
* **`Leads`** and **`Ends`** — a run gets from one position to another, or to its end, whatever the
  step limit allows behind that;
* **`Leads.exists_rest`** — a run that the step limit does not cut off gets to where it leads. -/

namespace StageScript

open Stepwise

/-- What a run comes to. -/
structure Trace where
  /-- The instructions on data that the run carries out, as far as it gets. -/
  actions : List Action
  answer : Except Fault Unit
  machine : Machine

namespace Trace

/-- A run that carries out some instructions first. -/
def after (done : List Action) (t : Trace) : Trace := { t with actions := done ++ t.actions }

/-- The run was cut off by the step limit. -/
def IsCut (t : Trace) : Prop := ∃ budget, t.answer = .error (.stepLimitExceeded budget)

theorem after_nil (t : Trace) : t.after [] = t := rfl

theorem after_after (t : Trace) (done more : List Action) :
    (t.after more).after done = t.after (done ++ more) := by
  rw [after, after, after, List.append_assoc]

end Trace

/-- A machine that has counted a step. -/
def Machine.counted (m : Machine) : Machine := { m with steps := m.steps + 1 }

/-- The instruction on data at a position, if there is one. -/
def Program.actions (p : Program) (here : Position) : List Action :=
  match Instruction.decode p.code here.pointer with
  | .ok (i, _) => if i.opcode.isControl then [] else [⟨i.opcode, i.arguments⟩]
  | .error _ => []

/-- **A run with what it carries out**, of `fuel` steps at most. -/
def traceFrom (p : Program) (activation : Activation) : (fuel : Nat) → Position → Machine → Trace
  | 0, _, m => ⟨[], .error (.stepLimitExceeded m.budget), m.counted⟩
  | fuel + 1, here, m =>
    match step p activation here m.counted with
    | (.ok (some next), m') => (traceFrom p activation fuel next m').after (p.actions here)
    | (.ok none, m') => ⟨p.actions here, .ok (), m'⟩
    | (.error fault, m') => ⟨p.actions here, .error fault, m'⟩

variable {p : Program} {activation : Activation} {here there : Position} {m m' : Machine}

/-- **The run is one of the machine.** -/
theorem runFrom_eq_traceFrom (fuel : Nat) (here : Position) (m : Machine) :
    runFrom p activation fuel here m =
      ((traceFrom p activation fuel here m).answer, (traceFrom p activation fuel here m).machine) := by
  induction fuel generalizing here m with
  | zero => rfl
  | succ fuel ih =>
    rw [runFrom, traceFrom]
    show (step p activation here >>= _) m.counted = _
    rw [bind_apply]
    rcases step p activation here m.counted with ⟨fault | next | next, m'⟩
    · rfl
    · rfl
    · exact ih next m'

/-! ## Parts of runs -/

/-- **A run leads from one position to another** in so many steps, and goes on there. -/
def Leads (p : Program) (activation : Activation) (steps : Nat) (here : Position) (m : Machine)
    (done : List Action) (there : Position) (m' : Machine) : Prop :=
  ∀ fuel, traceFrom p activation (steps + fuel) here m =
    (traceFrom p activation fuel there m').after done

/-- **A run ends** after so many steps. -/
def Ends (p : Program) (activation : Activation) (steps : Nat) (here : Position) (m : Machine)
    (t : Trace) : Prop :=
  ∀ fuel, traceFrom p activation (steps + fuel) here m = t

theorem Leads.refl (here : Position) (m : Machine) : Leads p activation 0 here m [] here m := by
  intro fuel
  rw [Nat.zero_add, Trace.after_nil]

theorem Leads.trans {steps steps' : Nat} {done done' : List Action} {beyond : Position}
    {m'' : Machine} (first : Leads p activation steps here m done there m')
    (second : Leads p activation steps' there m' done' beyond m'') :
    Leads p activation (steps + steps') here m (done ++ done') beyond m'' := by
  intro fuel
  rw [Nat.add_assoc, first, second, Trace.after_after]

theorem Leads.ends {steps steps' : Nat} {done : List Action} {t : Trace}
    (first : Leads p activation steps here m done there m')
    (second : Ends p activation steps' there m' t) :
    Ends p activation (steps + steps') here m (t.after done) := by
  intro fuel
  rw [Nat.add_assoc, first, second]

/-- A step leads to the next position. -/
theorem leads_of_step (h : step p activation here m.counted = (.ok (some there), m')) :
    Leads p activation 1 here m (p.actions here) there m' := by
  intro fuel
  rw [Nat.add_comm, traceFrom, h]

/-- A step without a next position ends the run. -/
theorem ends_of_step (h : step p activation here m.counted = (.ok none, m')) :
    Ends p activation 1 here m ⟨p.actions here, .ok (), m'⟩ := by
  intro fuel
  rw [Nat.add_comm, traceFrom, h]

/-- A step that fails ends the run. -/
theorem ends_of_failed {fault : Fault} (h : step p activation here m.counted = (.error fault, m')) :
    Ends p activation 1 here m ⟨p.actions here, .error fault, m'⟩ := by
  intro fuel
  rw [Nat.add_comm, traceFrom, h]

/-! ## Step limits -/

/-- **A run that is not cut off** does the same under any higher limit. -/
theorem ends_traceFrom {fuel : Nat} (whole : ¬ (traceFrom p activation fuel here m).IsCut) :
    Ends p activation fuel here m (traceFrom p activation fuel here m) := by
  intro more
  induction fuel generalizing here m with
  | zero => exact absurd ⟨m.budget, rfl⟩ whole
  | succ fuel ih =>
    rw [Nat.add_right_comm]
    rw [traceFrom] at whole ⊢
    rw [traceFrom]
    generalize step p activation here m.counted = result at whole ⊢
    rcases result with ⟨fault | next | next, m'⟩
    · rfl
    · rfl
    · exact congrArg (Trace.after _) (ih whole)

/-- **A run that is not cut off** gets to where it leads, and goes on there with the steps that are
left. -/
theorem Leads.exists_rest {steps fuel : Nat} {done : List Action}
    (leads : Leads p activation steps here m done there m')
    (whole : ¬ (traceFrom p activation fuel here m).IsCut) :
    ∃ rest, fuel = steps + rest ∧ ¬ (traceFrom p activation rest there m').IsCut := by
  rcases Nat.lt_or_ge fuel steps with few | many
  · -- a run that is whole does not become a cut one under a higher limit
    obtain ⟨more, rfl⟩ := Nat.exists_eq_add_of_le (Nat.le_of_lt few)
    have same := ends_traceFrom whole more
    rw [← Nat.add_zero (fuel + more), leads 0] at same
    rw [← same] at whole
    exact absurd ⟨m'.budget, rfl⟩ whole
  · obtain ⟨rest, rfl⟩ := Nat.exists_eq_add_of_le many
    rw [leads rest] at whole
    exact ⟨rest, rfl, whole⟩

/-- A run under a lower limit carries out the first part of what it does under a higher one. -/
theorem actions_prefix_actions (fuel more : Nat) (here : Position) (m : Machine) :
    (traceFrom p activation fuel here m).actions <+:
      (traceFrom p activation (fuel + more) here m).actions := by
  induction fuel generalizing here m with
  | zero => exact List.nil_prefix
  | succ fuel ih =>
    rw [Nat.add_right_comm, traceFrom, traceFrom]
    rcases step p activation here m.counted with ⟨fault | next | next, m'⟩
    · exact List.prefix_rfl
    · exact List.prefix_rfl
    · exact List.prefix_append_right_inj _ |>.2 (ih next m')

end StageScript
