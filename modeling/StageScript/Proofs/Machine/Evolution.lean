import StageScript.Proofs.Machine.Edit

/-! # Runs make no other changes
Whatever the code is that runs, and whether it can be read or not, a run changes a machine only as
scripts can.
* **`Machine.Edits.steady`** — so do the changes that most instructions make, which add no frames besides;
* **`Opcode.steady_perform`** and **`Opcode.tame_perform`** — so does any instruction whose operands have
  been loaded, and all but one add no frames;
* **`tame_step`** and **`tame_run`** — so do steps and runs, of any code and from any position. -/

namespace StageScript

open Exec Machine Stepwise

/-! ## The changes of most instructions -/

theorem Scene.Edit.steady {s s' : Scene} (edit : s.Edit s') : s.Steady s' := by
  cases edit with
  | rest extent _ => exact .of_extent extent
  | menu k few => exact steady_menus k few
  | list k short => exact steady_drawLists k short
  | volume fits => exact ⟨{ Evolves.of_extent (s := s) rfl with volume := .inr fits }, rfl⟩

theorem Machine.Edit.steady {m m' : Machine} (edit : m.Edit m') : m.Steady m' := by
  cases edit with
  | scene edit => exact steady_scene edit.steady
  | sheet type w => exact steady_modifyType type rfl rfl (.inl rfl)
  | branches fit => exact { Steady.refl m with branches := fit }
  | calls fit => exact { Steady.refl m with calls := fit }
  | registers => exact .of_same rfl rfl rfl rfl
  | text => exact .of_same rfl rfl rfl rfl
  | random => exact .of_same rfl rfl rfl rfl
  | call => exact .of_same rfl rfl rfl rfl
  | steps => exact .of_same rfl rfl rfl rfl

/-- **Such changes are some that scripts can make**, without a sprite frame more or less. -/
theorem Machine.Edits.steady {m m' : Machine} (edits : m.Edits m') : m.Steady m' := edits.along Edit.steady

theorem Exec.Edits.steady {α : Type} {x : Exec α} (h : x.Edits) : x.Steady := fun m => (h m).steady

/-! ## The other two -/

theorem Sheet.evolves_appendFrame (m : Machine) (run : Activation) : m.Evolves (appendFrame m run) := by
  unfold appendFrame
  split
  · next room =>
    have fits : (m.scene.spriteFrames.push (frameOf m.registers.operands 0)).size ≤
        max m.scene.spriteFrames.size spriteFrameCapacity := by
      rw [Array.size_push]
      omega
    exact (evolves_scene (Scene.evolves_spriteFrames fits)).trans
      (evolves_modifyType _ rfl (.inl rfl))
  · exact .refl m

/-- **A file that is asked for is there afterwards**, if the host has it. -/
theorem AnimationOp.steady_obtain (m : Machine) (path : String) :
    m.Steady (obtain m path).2 ∧
      ∀ k, (obtain m path).1 = some k → k < (obtain m path).2.scene.animations.size := by
  cases found : loaded? m.scene path with
  | some k =>
    have inside := (Array.findIdx?_eq_some_iff_getElem.1 found).1
    simp only [obtain, found]
    exact ⟨.refl m, fun _ same => Option.some.inj same ▸ inside⟩
  | none =>
    have called : m.Steady (m.call (.loadAnimation path)) := (Edit.call _).steady
    cases answer : m.host.animation m.history path with
    | none =>
      simp only [obtain, found, answer]
      exact ⟨called, fun _ same => by cases same⟩
    | some file =>
      simp only [obtain, found, answer]
      refine ⟨called.trans (steady_scene (Scene.steady_animations ?_)), fun _ same => ?_⟩
      · rw [Array.size_push]
        exact Nat.le_succ _
      · obtain rfl := Option.some.inj same
        simp [modifyScene]

theorem AnimationOp.steady_loadFile (m : Machine) (run : Activation) : m.Steady (loadFile m run) := by
  obtain ⟨steady, known⟩ := steady_obtain m m.scriptText
  unfold loadFile
  rcases got : obtain m m.scriptText with ⟨_ | k, m'⟩
  · rw [got] at steady
    exact steady
  · rw [got] at steady known
    exact steady.trans (steady_modifyType _ rfl rfl (.inr ⟨k, rfl, known k rfl⟩))

/-! ## All instructions -/

/-- **Every instruction** whose operands have been loaded, but for the one that adds a frame. -/
theorem Opcode.steady_perform {op : Opcode} (p : Program) (run : Activation) (next : Position)
    (other : op ≠ .sheet .addFrame) : (op.perform p run next).Steady := by
  by_cases loads : op = .animation .load
  · subst loads
    have loads : (modify (AnimationOp.loadFile · run) : Exec Unit).Steady :=
      Along.modify (AnimationOp.steady_loadFile · run)
    exact loads.seqRight (.pure _)
  · exact (edits_perform p run next other loads).steady

/-- **Every instruction** whose operands have been loaded. -/
theorem Opcode.tame_perform (op : Opcode) (p : Program) (run : Activation) (next : Position) :
    (op.perform p run next).Tame := by
  by_cases adds : op = .sheet .addFrame
  · subst adds
    have appends : (modify (Sheet.appendFrame · run) : Exec Unit).Tame :=
      Along.modify (Sheet.evolves_appendFrame · run)
    exact appends.seqRight (.pure _)
  · exact (Opcode.steady_perform p run next adds).tame

/-! ## Steps and runs of any code -/

/-- **An instruction** at any place of any code. -/
theorem tame_step (p : Program) (run : Activation) (here : Position) : (step p run here).Tame :=
  Inherited.along.step (edits_fetch _ _ _).steady.tame (fun op next => op.tame_perform p run next)
    fun _ _ => (edits_walkOperands _ _ _ _ _ _).steady.tame

/-- **A run** of any body, whether it succeeds or fails. -/
theorem tame_run (p : Program) (activation : Activation) (entry : EntryPoint) :
    (run p activation entry).Tame :=
  along_run entry (fun m => { Evolves.refl m with branches := Nat.zero_le _, calls := Nat.zero_le _ })
    (fun _ => .of_same rfl rfl rfl rfl) (tame_step p activation)

end StageScript
