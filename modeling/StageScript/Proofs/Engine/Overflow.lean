import StageScript.Engine.Exact
import StageScript.Proofs.Engine.Limit
import StageScript.Proofs.Machine.Headroom

/-! # Coordinates without an overflow
Scripts write most of the words that coordinates are computed from, and may write any word there.
* **`exactly_fits_of_goes`** — in a run that fits, all that is drawn fits;
* **`Engine.value_exactlyActive`** — a turn that fits goes by whether its entity really is active;
* **`coordinates_exact`** — what fits is exact, and what is moderate fits;
* **`not_all_exact`** — scripts can write what does not fit. -/

namespace StageScript

open Exact Stepwise

/-! ## Runs -/

variable {p : Program} {activation : Activation} {here there : Position} {m m' : Machine}

/-- A step that fits has an instruction that fits, once its operands have been loaded. -/
theorem opcode_fits_of_stepFits (fits : stepFits p activation here m = true) {f : Fetched}
    (fetched : fetch p.code activation.object here.pointer m = (.ok f, m')) :
    f.opcode.fits m' activation.object = true := by
  unfold stepFits at fits
  rw [fetch_eq, bind_apply, mk_pure_apply] at fetched
  rcases read : Instruction.decodeOpcode p.code here.pointer with fault | ⟨opcode, first⟩
  · rw [read] at fetched
    cases (Prod.mk.inj fetched).1
  · rw [read] at fetched fits
    dsimp only at fetched fits
    rw [bind_apply] at fetched
    rcases walked : walkOperands .load p.code activation.object opcode.arity 0 first m with
      ⟨fault | next, loaded⟩
    · rw [walked] at fetched
      cases (Prod.mk.inj fetched).1
    · rw [walked] at fetched fits
      obtain ⟨same, rfl⟩ := Prod.mk.inj fetched
      obtain rfl := Except.ok.inj same
      exact (Bool.and_eq_true_iff.1 fits).2

/-- **Each step of a run that fits** fits. -/
theorem stepFits_of_goes {n fuel : Nat} (fits : runFits p activation fuel here m = true)
    (goes : Goes p activation n here m there m') (within : n < fuel) :
    stepFits p activation there m' = true := by
  -- along the execution, what is left of the run still fits
  induction goes generalizing fuel with
  | refl here m =>
    obtain ⟨fuel, rfl⟩ := Nat.exists_eq_add_of_le' within
    exact (Bool.and_eq_true_iff.1 fits).1
  | head first rest ih =>
    obtain ⟨fuel, rfl⟩ := Nat.exists_eq_add_of_le' (Nat.zero_lt_of_lt within)
    have rest := (Bool.and_eq_true_iff.1 fits).2
    rw [first] at rest
    exact ih rest (Nat.lt_of_succ_lt_succ within)

/-- **What is drawn in a run that fits** fits, in each of its instructions. -/
theorem exactly_fits_of_goes {n fuel : Nat} (fits : runFits p activation fuel here m = true)
    (goes : Goes p activation n here m there m') (within : n < fuel) {f : Fetched} {loaded : Machine}
    (fetched : fetch p.code activation.object there.pointer m' = (.ok f, loaded)) {op : Drawing}
    (draws : f.opcode = .draw op) : (op.exactly loaded activation.object).Fits := by
  have opcode := opcode_fits_of_stepFits (stepFits_of_goes fits goes within) fetched
  rw [draws] at opcode
  exact of_decide_eq_true opcode

/-! ## Turns -/

/-- **Whether an entity is active** is what it is in whole numbers. -/
theorem Engine.value_exactlyActive {s : Scene} {e : Entity} (fits : (exactlyActive s e).Fits) :
    (exactlyActive s e).value = isActive s e := by
  unfold exactlyActive at fits ⊢
  unfold isActive
  generalize e.priority.toNat = priority at fits ⊢
  match priority, fits with
  | 0, fits => exact Scene.value_exactBounds fits
  | 1, _ => rfl
  | 2, _ => rfl
  | 3, fits => exact Scene.value_exactBounds fits
  | 4, fits => exact Scene.value_exactBounds fits
  | _ + 5, _ => rfl

/-! ## All coordinates -/

/-- **Coordinates that fit are exact, and moderate ones fit.** For every machine, object and drawing
instruction, and every scene and entity. Where no result on the way is beyond the words, the sprites are
drawn where whole numbers place them and an entity is in the active area exactly if it is so in whole
numbers. That is the case for every screen of moderate size and offset, moderate frames and moderate operands
on the screen, and in each drawing instruction that a run comes to which fits. -/
theorem coordinates_exact (m : Machine) (activation : Activation) (op : Drawing) (s : Scene) (e : Entity)
    (vertical : Bool) :
    ((op.exactly m activation.object).Fits →
      ∃ commands, op.perform activation m = (.ok (), Drawing.drawn m commands) ∧
        commands.filterMap DrawCommand.placed? = (op.exactly m activation.object).value) ∧
    ((s.exactBounds e vertical).Fits →
      (if vertical then s.inBounds e else s.inHorizontalBounds e) = (s.exactBounds e vertical).value) ∧
    (m.scene.Moderate → op.Moderate m → (op.exactly m activation.object).Fits) ∧
    (s.screen.Moderate → (s.exactBounds e vertical).Fits) ∧
    ∀ (p : Program) (fuel : Nat) (here : Position) (start : Machine),
      runFits p activation fuel here start = true →
        ∀ n < fuel, ∀ there m', Goes p activation n here start there m' →
          ∀ f, fetch p.code activation.object there.pointer m' = (.ok f, m) → f.opcode = .draw op →
            (op.exactly m activation.object).Fits := by
  refine ⟨fun fits => ?_, fun fits => (Scene.value_exactBounds fits).symm,
    fun scene operands => Drawing.fits_exactly scene operands,
    fun moderate => Scene.fits_exactBounds moderate e vertical, ?_⟩
  · exact ⟨_, congrArg (Prod.mk _) (Drawing.foldl_call_eq_drawn m _), Drawing.draws_exactly m _ op fits⟩
  · intro p fuel here start fits n within there m' goes f fetched draws
    exact exactly_fits_of_goes fits goes within fetched draws

/-! ## A title card -/

/-- A body that draws the title card around the left edge of the screen. -/
def titling : Program where
  code := #[(Opcode.draw .actName).word, Argument.integerTag, 0, Argument.integerTag, 0, Argument.integerTag, 0,
    Argument.integerTag, 2, Argument.integerTag, 0, Argument.integerTag, 0, Argument.integerTag, 0,
    (Opcode.control .stop).word]

/-- A machine whose title card has two letters of the same width. -/
def titled (width : Word) : Machine where
  scene := { stage := { titleCard := "AB" }, spriteFrames := #[{ width }, { width }] }
  random := Random.ofSeed 1

/-- The machine when the operands of the first instruction have been loaded. -/
def titledLoaded (width : Word) : Machine := (fetch titling.code 0 0 (titled width)).2

/-- **Letters that are eight pixels wide** are drawn around the edge. Their scene is moderate, and the run
fits. -/
theorem coordinates_exact_titled :
    (Drawing.actName.exactly (titledLoaded 8) 0).Fits ∧
    (∃ commands, Drawing.actName.perform ⟨0, .draw⟩ (titledLoaded 8) =
        (.ok (), Drawing.drawn (titledLoaded 8) commands) ∧
      commands.filterMap DrawCommand.placed? = [{ x := -8, y := 0 }, { x := 0, y := 0 }]) ∧
    (titledLoaded 8).scene.inBounds {} = true := by
  obtain ⟨exact, bounds, moderate, screen, run⟩ :=
    coordinates_exact (titledLoaded 8) ⟨0, .draw⟩ .actName (titledLoaded 8).scene {} true
  have size : (titledLoaded 8).scene.screen.Moderate :=
    ⟨by decide +kernel, by decide +kernel, by decide +kernel, by decide +kernel⟩
  have scene : (titledLoaded 8).scene.Moderate := ⟨size, by decide +kernel, by decide +kernel⟩
  have operands : Drawing.actName.Moderate (titledLoaded 8) :=
    ⟨by decide +kernel, by decide +kernel, by decide +kernel, by decide +kernel, by decide +kernel,
      by decide +kernel⟩
  have fetched : (fetch titling.code 0 0 (titled 8)).1.toOption = some ⟨.draw .actName, 1, 15⟩ := by
    decide +kernel
  have fits : (Drawing.actName.exactly (titledLoaded 8) 0).Fits :=
    run titling 2 ⟨0, 0, 0⟩ (titled 8) (by decide +kernel) 0 (by decide) ⟨0, 0, 0⟩ (titled 8) (.refl _ _) _
      (Except.eq_of_toOption fetched) rfl
  have value : (Drawing.actName.exactly (titledLoaded 8) 0).value =
      [{ x := -8, y := 0 }, { x := 0, y := 0 }] := by decide +kernel
  refine ⟨fits, ?_, ?_⟩
  · obtain ⟨commands, performed, placed⟩ := exact (moderate scene operands)
    exact ⟨commands, performed, placed.trans value⟩
  · have inside := bounds (screen size)
    rw [if_pos rfl] at inside
    rw [inside]
    decide +kernel

/-- **Letters that are too wide** are not drawn where whole numbers place them. Both places are those of words,
but the width of the text is not, of which one half is taken. -/
theorem not_all_exact :
    ¬ (Drawing.actName.exactly (titledLoaded 0x40000000) 0).Fits ∧
    (Drawing.actName.exactly (titledLoaded 0x40000000) 0).value =
      [{ x := -0x40000000, y := 0 }, { x := 0, y := 0 }] ∧
    (Drawing.actName.commands (titledLoaded 0x40000000) 0).filterMap DrawCommand.placed? =
      [{ x := 0x40000000, y := 0 }, { x := -0x80000000, y := 0 }] := by
  decide +kernel

end StageScript
