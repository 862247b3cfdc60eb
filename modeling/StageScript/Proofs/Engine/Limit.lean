import StageScript.Proofs.Engine.Store
import StageScript.Proofs.Machine.Timeless

/-! # The step limit only cuts runs off
What a body does is told without counting anything, instruction by instruction. Beside that, a run under a
step limit is the same up to where the limit cuts it off.
* **`Goes`** and **`Finishes`** — the execution of a body without a limit goes on, or ends;
* **`Truncation`** — what a run under a limit comes to, beside that execution;
* **`stepLimit_only_truncates`** — this is what every run comes to, so that a run that is not cut off is
  the same under any higher limit and under none; and the engine lets every run begin with the whole limit. -/

namespace StageScript

open Exec Machine Stepwise

/-! ## Executions without a limit -/

/-- **The execution goes on** from one position to another, with `n` instructions. -/
inductive Goes (p : Program) (activation : Activation) :
    (n : Nat) → Position → Machine → Position → Machine → Prop
  | refl (here : Position) (m : Machine) : Goes p activation 0 here m here m
  | head {n : Nat} {here next there : Position} {m m₁ m' : Machine}
      (first : step p activation here m = (.ok (some next), m₁))
      (rest : Goes p activation n next m₁ there m') : Goes p activation (n + 1) here m there m'

/-- **The execution ends** with its `n`-th instruction, which is the last of the body or fails. -/
inductive Finishes (p : Program) (activation : Activation) :
    (n : Nat) → Position → Machine → Except Fault Unit → Machine → Prop
  | stop {here : Position} {m m' : Machine} (last : step p activation here m = (.ok none, m')) :
      Finishes p activation 1 here m (.ok ()) m'
  | fault {here : Position} {m m' : Machine} {fault : Fault}
      (last : step p activation here m = (.error fault, m')) :
      Finishes p activation 1 here m (.error fault) m'
  | head {n : Nat} {here next : Position} {m m₁ m' : Machine} {answer : Except Fault Unit}
      (first : step p activation here m = (.ok (some next), m₁))
      (rest : Finishes p activation n next m₁ answer m') : Finishes p activation (n + 1) here m answer m'

variable {p : Program} {activation : Activation} {here there : Position} {m m' : Machine}
  {answer : Except Fault Unit} {n : Nat}

/-- An execution ends within so many instructions or goes on for as many. -/
theorem finishes_or_goes (p : Program) (activation : Activation) (n : Nat) (here : Position) (m : Machine) :
    (∃ k ≤ n, ∃ answer m', Finishes p activation k here m answer m') ∨
      ∃ there m', Goes p activation n here m there m' := by
  induction n generalizing here m with
  -- nothing has been executed yet, even if the first instruction is the last one
  | zero => exact .inr ⟨here, m, .refl here m⟩
  | succ n ih =>
    rcases first : step p activation here m with ⟨fault | next | next, m₁⟩
    · exact .inl ⟨1, Nat.le_add_left 1 n, .error fault, m₁, .fault first⟩
    · exact .inl ⟨1, Nat.le_add_left 1 n, .ok (), m₁, .stop first⟩
    · rcases ih next m₁ with ⟨k, few, answer, m', rest⟩ | ⟨there, m', rest⟩
      · exact .inl ⟨k + 1, Nat.succ_le_succ few, answer, m', .head first rest⟩
      · exact .inr ⟨there, m', .head first rest⟩

/-! ## Runs beside executions -/

/-- A clock that has counted so many steps more. -/
def Machine.Clock.ahead (c : Clock) (n : Nat) : Clock := { c with steps := c.steps + n }

theorem Machine.Clock.ahead_ahead (c : Clock) (n k : Nat) : (c.ahead n).ahead k = c.ahead (n + k) :=
  congrArg (Clock.mk c.limit) (Nat.add_assoc c.steps n k)

/-- A run counts its first instruction and carries it out, whatever the clock is. -/
theorem runFrom_withClock (fuel : Nat) (here : Position) (m : Machine) (c : Clock) :
    runFrom p activation (fuel + 1) here (m.withClock c) =
      match step p activation here m with
      | (.ok (some next), m') => runFrom p activation fuel next (m'.withClock (c.ahead 1))
      | (.ok none, m') => (.ok (), m'.withClock (c.ahead 1))
      | (.error fault, m') => (.error fault, m'.withClock (c.ahead 1)) := by
  have counted : (m.withClock c).counted = m.withClock (c.ahead 1) := rfl
  rw [Engine.runFrom_succ, counted, timeless_step p activation here m]
  rcases step p activation here m with ⟨fault | next | next, m'⟩ <;> rfl

/-- **A run that may take the instructions of an execution** ends as it does. -/
theorem runFrom_of_finishes (ends : Finishes p activation n here m answer m') {fuel : Nat}
    (enough : n ≤ fuel) (c : Clock) :
    runFrom p activation fuel here (m.withClock c) = (answer, m'.withClock (c.ahead n)) := by
  induction ends generalizing fuel c with
  | stop last =>
    obtain ⟨fuel, rfl⟩ := Nat.exists_eq_add_of_le' enough
    rw [runFrom_withClock, last]
  | fault last =>
    obtain ⟨fuel, rfl⟩ := Nat.exists_eq_add_of_le' enough
    rw [runFrom_withClock, last]
  | @head n _ _ _ _ _ _ first rest ih =>
    obtain ⟨fuel, rfl⟩ := Nat.exists_eq_add_of_le' (Nat.le_trans (Nat.le_add_left 1 n) enough)
    rw [runFrom_withClock, first]
    dsimp only
    rw [ih (Nat.le_of_succ_le_succ enough), Clock.ahead_ahead, Nat.add_comm 1 n]

/-- **A run that may not take another instruction** behind those of an execution is cut off there. -/
theorem runFrom_of_goes (goes : Goes p activation n here m there m') (c : Clock) :
    runFrom p activation n here (m.withClock c) =
      (.error (.stepLimitExceeded (m.withClock c).budget), m'.withClock (c.ahead (n + 1))) := by
  induction goes generalizing c with
  -- the instruction that is cut off is counted, but not carried out
  | refl here m => rfl
  | @head n _ _ _ _ _ _ first rest ih =>
    rw [runFrom_withClock, first]
    dsimp only
    rw [ih, Clock.ahead_ahead, Nat.add_comm 1 (n + 1)]
    rfl

/-! ## Bodies -/

/-- A machine where a body begins: no blocks and no calls are open. -/
def Machine.cleared (m : Machine) : Machine := { m with branches := [], calls := [] }

/-- **What a run of a body comes to under a limit**, beside the execution of the body without one. -/
inductive Truncation (p : Program) (activation : Activation) (entry : EntryPoint) (m : Machine)
    (limit : UInt64) : Except Fault Unit × Machine → Prop
  /-- The execution ends within the limit, and so does the run, in the same way. -/
  | whole {n : Nat} {answer : Except Fault Unit} {m' : Machine} (within : n ≤ limit.toNat)
      (ends : Finishes p activation n (.ofEntry entry) m.cleared answer m') :
      Truncation p activation entry m limit (answer, m'.withClock ⟨some limit, n⟩)
  /-- The execution goes on for as many instructions as the limit allows, and the run is cut off behind
  them. -/
  | cut {there : Position} {m' : Machine}
      (goes : Goes p activation limit.toNat (.ofEntry entry) m.cleared there m') :
      Truncation p activation entry m limit
        (.error (.stepLimitExceeded limit.toNat), m'.withClock ⟨some limit, limit.toNat + 1⟩)

/-- A run of a body takes the whole budget if nothing has been counted. -/
theorem run_withClock (entry : EntryPoint) (m : Machine) (limit : Option UInt64) :
    run p activation entry (m.withClock ⟨limit, 0⟩) =
      runFrom p activation (limit.elim 0xFFFFFFFFFFFFFFFF UInt64.toNat) (.ofEntry entry)
        (m.cleared.withClock ⟨limit, 0⟩) := rfl

/-- **Every run under a limit** is the execution, as far as the limit allows. -/
theorem truncation_run (p : Program) (activation : Activation) (entry : EntryPoint) (m : Machine)
    (limit : UInt64) :
    Truncation p activation entry m limit (run p activation entry (m.withClock ⟨some limit, 0⟩)) := by
  rw [run_withClock]
  rcases finishes_or_goes p activation limit.toNat (.ofEntry entry) m.cleared with
    ⟨n, within, answer, m', ends⟩ | ⟨there, m', goes⟩
  · have ran := runFrom_of_finishes ends within ⟨some limit, 0⟩
    rw [Clock.ahead, Nat.zero_add] at ran
    exact ran ▸ .whole within ends
  · have ran := runFrom_of_goes goes ⟨some limit, 0⟩
    rw [Clock.ahead, Nat.zero_add] at ran
    exact ran ▸ .cut goes

/-- A run with a budget that the execution ends within. -/
theorem run_of_finishes {entry : EntryPoint}
    (ends : Finishes p activation n (.ofEntry entry) m.cleared answer m') {limit : Option UInt64}
    (within : n ≤ limit.elim 0xFFFFFFFFFFFFFFFF UInt64.toNat) :
    run p activation entry (m.withClock ⟨limit, 0⟩) = (answer, m'.withClock ⟨limit, n⟩) := by
  have ran := runFrom_of_finishes ends within ⟨limit, 0⟩
  rw [Clock.ahead, Nat.zero_add] at ran
  rw [run_withClock, ran]

/-- **A run that is not cut off** is the same under any higher limit, and under none. -/
theorem run_raise {entry : EntryPoint} {limit : UInt64}
    (ran : run p activation entry (m.withClock ⟨some limit, 0⟩) = (answer, m'))
    (whole : ∀ k, answer ≠ .error (.stepLimitExceeded k)) (more : Option UInt64)
    (higher : ∀ l, more = some l → limit ≤ l) :
    run p activation entry (m.withClock ⟨more, 0⟩) = (answer, { m' with stepLimit := more }) := by
  have truncation := truncation_run p activation entry m limit
  rw [ran] at truncation
  cases truncation with
  | cut => exact absurd rfl (whole limit.toNat)
  | whole within ends =>
    refine run_of_finishes ends ?_
    -- without a limit a run has the budget of the highest one
    cases more with
    | none => exact Nat.le_trans within (Nat.le_of_lt_succ limit.toNat_lt)
    | some l => exact Nat.le_trans within (UInt64.le_iff_toNat_le.1 (higher l rfl))

namespace Engine

/-- A body whose run fails. -/
theorem runBody_of_error {activation : Activation} {entry : EntryPoint} {g : Engine} {fault : Fault}
    {m : Machine} (ran : run g.program activation entry { g.machine with steps := 0 } = (.error fault, m)) :
    runBody activation entry g = (fail (.runtime fault) : Act Unit) { g with machine := m } := by
  simp only [runBody, bind_apply, get_apply, ran, set_apply]

/-- **A sub-script of an entity runs with nothing counted**, whatever the engine has run before. -/
theorem processScript_eq_run {object : Nat} {sub : SubScript} {g : Engine} {entry : EntryPoint}
    (found : g.entryPoint? object sub = some entry) :
    let ran := run g.program ⟨object, sub⟩ entry (g.machine.withClock ⟨g.machine.stepLimit, 0⟩)
    (processScript object sub g).1 = ran.1.mapError .runtime ∧
      (processScript object sub g).2.machine = ran.2 := by
  rw [processScript_of_entry found]
  intro ran
  rcases eq : ran with ⟨fault | ⟨⟩, m⟩
  · rw [runBody_of_error eq]
    exact ⟨rfl, rfl⟩
  · rw [runBody_of_ok eq]
    exact ⟨rfl, rfl⟩

end Engine

/-- **The step limit only cuts runs off.** For every program, body, object and machine, and every limit: a
run that begins with nothing counted is the execution of the body, which the limit cuts off behind as many
instructions if it has not ended by then. If the run ends otherwise, then it gives the same answer and
leaves the same machine, the calls of the host included, under any higher limit and under none. And
whatever an engine has counted before, it runs a sub-script with nothing counted. -/
theorem stepLimit_only_truncates (p : Program) (activation : Activation) (entry : EntryPoint)
    (m : Machine) (limit : UInt64) :
    Truncation p activation entry m limit (run p activation entry (m.withClock ⟨some limit, 0⟩)) ∧
    (∀ answer m', run p activation entry (m.withClock ⟨some limit, 0⟩) = (answer, m') →
      (∀ k, answer ≠ .error (.stepLimitExceeded k)) →
        ∀ more : Option UInt64, (∀ l, more = some l → limit ≤ l) →
          run p activation entry (m.withClock ⟨more, 0⟩) = (answer, { m' with stepLimit := more })) ∧
    ∀ (g : Engine) (object : Nat) (sub : SubScript) (body : EntryPoint),
      g.entryPoint? object sub = some body →
        let ran := run g.program ⟨object, sub⟩ body (g.machine.withClock ⟨g.machine.stepLimit, 0⟩)
        (g.processScript object sub).1 = ran.1.mapError .runtime ∧
          (g.processScript object sub).2.machine = ran.2 :=
  ⟨truncation_run p activation entry m limit, fun _ _ => run_raise,
    fun _ _ _ _ => Engine.processScript_eq_run⟩

/-- A program with two bodies: a loop without an end, and behind it an instruction that ends a body. -/
def circling : Program where
  code := #[(Opcode.whileTest .equal).word, Argument.integerTag, 0, Argument.integerTag, 1,
    Argument.integerTag, 1, (Opcode.control .loop).word, (Opcode.control .stop).word]
  jumpTable := #[0, 8]
  entries := (Vector.replicate typeCapacity {}).setIfInBounds 1
    { main := some ⟨0, 0⟩, draw := some ⟨8, 0⟩ }

/-- An engine with that program, a hundred instructions for a run and an entity that plays it. -/
def runaway : Engine :=
  let g := Engine.start { seed := some 1 } {} 1
  { g with
    program := circling
    machine := { g.machine with
      scene := g.machine.scene.modifyEntity firstSlot fun e => { e with typeId := 1 }
      stepLimit := some 100
      steps := 100 } }

/-- The second body ends within a limit of one instruction, and so it does under a higher one and under
none. The first is cut off behind a hundred, although the engine had counted as many before. -/
theorem stepLimit_only_truncates_circling :
    (∃ m', run circling ⟨0, .draw⟩ ⟨8, 0⟩ (runaway.machine.withClock ⟨some 1, 0⟩) = (.ok (), m') ∧
      ∀ more ∈ [some 7, none], run circling ⟨0, .draw⟩ ⟨8, 0⟩ (runaway.machine.withClock ⟨more, 0⟩) =
        (.ok (), { m' with stepLimit := more })) ∧
    (runaway.processScript 0 .main).1 = .error (.runtime (.stepLimitExceeded 100)) := by
  obtain ⟨-, raise, full⟩ := stepLimit_only_truncates circling ⟨0, .draw⟩ ⟨8, 0⟩ runaway.machine 1
  constructor
  · have ran : (run circling ⟨0, .draw⟩ ⟨8, 0⟩ (runaway.machine.withClock ⟨some 1, 0⟩)).1.toOption =
        some () := by decide +kernel
    refine ⟨_, Except.eq_of_toOption ran, fun more listed => ?_⟩
    have higher : ∀ l, more = some l → 1 ≤ l := by
      rintro l rfl
      obtain rfl : l = 7 := by simpa using listed
      decide
    have whole : ∀ k, (.ok () : Except Fault Unit) ≠ .error (.stepLimitExceeded k) := by
      intro k same
      cases same
    exact raise _ _ (Except.eq_of_toOption ran) whole more higher
  · have found : runaway.entryPoint? 0 .main = some ⟨0, 0⟩ := by decide +kernel
    have cut : Except.refusal?
        (run circling ⟨0, .main⟩ ⟨0, 0⟩ (runaway.machine.withClock ⟨some 100, 0⟩)).1 =
          some (.stepLimitExceeded 100) := by decide +kernel
    rw [(full runaway 0 .main ⟨0, 0⟩ found).1]
    exact congrArg (Except.mapError EngineError.runtime) (Except.eq_error_of_refusal? cut)

end StageScript
