import StageScript.Engine.Frame
import StageScript.Proofs.Machine.Evolution

/-! # The work of a frame, piece by piece
What an engine does in a frame is to run scripts and, between them, to change the scene in three ways: it
empties the draw lists, puts entities on them and takes entities out of play. So whatever scripts and these
changes lead along, a whole frame leads along.
* **`Engine.exists_runBody`** — a run of a script changes the machine, and what is told of failures;
* **`Engine.along_processObjects`** and **`Engine.along_runFrame`** — frames lead along a preorder. -/

namespace StageScript

namespace Engine

open Stepwise

/-! ## Scripts -/

/-- A failure is told once. -/
theorem fail_apply {α : Type} (e : EngineError) (g : Engine) :
    (fail e : Act α) g = (.error e, { g with error := some (g.error.getD e.message) }) := rfl

/-- A body whose run succeeds. -/
theorem runBody_of_ok {activation : Activation} {entry : EntryPoint} {g : Engine} {m : Machine}
    (ran : run g.program activation entry { g.machine with steps := 0 } = (.ok (), m)) :
    runBody activation entry g = (.ok (), { g with machine := m }) := by
  simp only [runBody, bind_apply, get_apply, ran, set_apply, pure_apply]

/-- **A run of a body** leaves the machine that the run comes to. -/
theorem exists_runBody (activation : Activation) (entry : EntryPoint) (g : Engine) :
    ∃ error, (runBody activation entry g).2 =
      { g with machine := (run g.program activation entry { g.machine with steps := 0 }).2, error } := by
  rcases ran : run g.program activation entry { g.machine with steps := 0 } with ⟨fault | ⟨⟩, m⟩
  · refine ⟨some (g.error.getD (EngineError.runtime fault).message), ?_⟩
    simp only [runBody, bind_apply, get_apply, ran, set_apply, fail_apply]
  · exact ⟨g.error, congrArg Prod.snd (runBody_of_ok ran)⟩

/-- **A run of a body** changes the machine only as scripts can. -/
theorem exists_runBody_evolves (activation : Activation) (entry : EntryPoint) (g : Engine) :
    ∃ machine error, (runBody activation entry g).2 = { g with machine, error } ∧
      g.machine.Evolves machine := by
  obtain ⟨error, left⟩ := exists_runBody activation entry g
  have begun : g.machine.Evolves { g.machine with steps := 0 } := .of_same rfl rfl rfl rfl
  exact ⟨_, error, left, begun.trans (tame_run g.program activation entry _)⟩

section

variable {object : Nat} {sub : SubScript} {g : Engine}

/-- A sub-script that the type of an entity has is its body. -/
theorem processScript_of_entry {entry : EntryPoint} (found : g.entryPoint? object sub = some entry) :
    processScript object sub g = runBody ⟨object, sub⟩ entry g := by
  rw [processScript, bind_apply, get_apply]
  dsimp only
  rw [found]

/-- One that it does not have does nothing. -/
theorem processScript_of_none (missing : g.entryPoint? object sub = none) :
    processScript object sub g = (.ok (), g) := by
  rw [processScript, bind_apply, get_apply]
  dsimp only
  rw [missing]
  rfl

end

variable {R : Engine → Engine → Prop} [IsPreorder Engine R]

/-- A run of an entity's sub-script is a run of its body, if there is one. -/
theorem along_processScript {object : Nat} {sub : SubScript}
    (body : ∀ g entry, g.entryPoint? object sub = some entry → R g (runBody ⟨object, sub⟩ entry g).2) :
    Along R (processScript object sub) := by
  intro g
  cases found : g.entryPoint? object sub with
  | some entry =>
    rw [processScript_of_entry found]
    exact body g entry found
  | none =>
    rw [processScript_of_none found]
    exact refl_of R g

/-! ## Turns -/

/-- The turn of an entity goes by what is in its slot at the beginning. -/
theorem processObject_apply (slot : Fin entityCount) (g : Engine) :
    processObject slot g =
      if isActive g.machine.scene (g.machine.scene.entities.get slot) then
        if (g.machine.scene.entities.get slot).typeId ≠ 0 then
          (processScript slot.val .main >>= fun _ => modify (·.modifyScene (addToDrawList slot)) : Act Unit) g
        else (.ok (), g)
      else if isRemovedOutside (g.machine.scene.entities.get slot) then
        (.ok (), g.modifyScene fun s => s.modifyEntity slot fun e => { e with typeId := 0 })
      else (.ok (), g) := by
  show (if _ then _ else _ : Act Unit) g = _
  simp only [apply_ite (fun x : Act Unit => x g)]
  rfl

/-- An empty slot has no turn. -/
theorem processObject_of_blank {slot : Fin entityCount} {g : Engine}
    (typeless : (g.machine.scene.entities.get slot).typeId = 0)
    (stays : isRemovedOutside (g.machine.scene.entities.get slot) = false) :
    processObject slot g = (.ok (), g) := by
  rw [processObject_apply, if_neg (not_not_intro typeless), if_neg (Bool.eq_false_iff.1 stays)]
  exact ite_self _

/-- **The turn of an entity**, whose script may leave any engine that it leads to. -/
theorem along_processObject {slot : Fin entityCount} (script : Along R (processScript slot.val .main))
    (place : ∀ g, R g (g.modifyScene (addToDrawList slot)))
    (removal : ∀ g, R g (g.modifyScene fun s => s.modifyEntity slot fun e => { e with typeId := 0 })) :
    Along R (processObject slot) := by
  have plays : Along R (do
      processScript slot.val .main
      modify fun g => g.modifyScene (addToDrawList slot)) :=
    script.bind fun _ => Along.modify place
  exact Along.get_bind fun g =>
    Along.ite (Along.ite plays (.pure ())) (Along.ite (Along.modify removal) (.pure ())) g

/-- An engine before the first turn: the draw lists are empty. -/
def emptied (g : Engine) : Engine :=
  g.modifyScene ({ · with drawLists := Vector.replicate drawListCount #[] })

/-- The entities get their turns with empty draw lists. -/
theorem processObjects_apply (g : Engine) :
    processObjects g = (List.finRange entityCount).forM processObject g.emptied := by
  unfold processObjects
  rw [bind_apply, modify_apply]
  rfl

/-- **The turns of all entities.** -/
theorem along_processObjects (empty : ∀ g, R g g.emptied) (turn : ∀ slot, Along R (processObject slot)) :
    Along R processObjects :=
  (Along.modify empty).bind fun _ => Along.forM fun slot _ => turn slot

/-- What an entity on a draw list does: its draw sub-script, if it is in play. -/
theorem along_drawObject (script : ∀ object, Along R (processScript object .draw)) (object : Nat) :
    Along R (drawObject object) :=
  Along.get_bind fun g => Along.ite (script object) (.pure ()) g

/-- **A layer**: the draw sub-scripts of the entities on a draw list. -/
theorem along_drawLayer (script : ∀ object, Along R (processScript object .draw)) (layer : Nat) :
    Along R (drawLayer layer) := by
  refine Along.get_bind fun g => ?_
  cases g.machine.scene.drawLists[layer]? with
  | some list =>
    have draws : Along R (list.toList.forM drawObject) := Along.forM fun object _ => along_drawObject script object
    exact draws g
  | none => exact refl_of R g

/-- **A frame.** -/
theorem along_runFrame (turns : Along R processObjects) (draws : ∀ layer, Along R (drawLayer layer)) :
    Along R runFrame :=
  turns.bind fun _ => Along.forM fun layer _ => draws layer

end Engine

end StageScript
