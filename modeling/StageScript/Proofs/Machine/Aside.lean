import StageScript.Proofs.Machine.Edit

/-! # One instruction alone loads animation files
All the others leave the files as they are. What they ask the host comes behind what it was asked before.
* **`Machine.Aside`** — such a change;
* **`Machine.Edits.aside`** — the changes that most instructions make are such changes;
* **`Opcode.aside_perform`** — and so is any other instruction whose operands have been loaded. -/

namespace StageScript

open Stepwise

/-- **The second machine has the animation files and the host of the first**, which may have been called. -/
structure Machine.Aside (m m' : Machine) : Prop where
  files : m'.scene.animations = m.scene.animations
  host : m'.host = m.host
  history : m.history.toList <+: m'.history.toList

/-- **A step that loads no animation file.** -/
abbrev Exec.Aside {α : Type} (x : Exec α) : Prop := Along Machine.Aside x

namespace Machine

theorem Aside.of_same {m m' : Machine} (files : m'.scene.animations = m.scene.animations)
    (host : m'.host = m.host) (history : m'.history = m.history) : m.Aside m' :=
  ⟨files, host, history ▸ List.prefix_rfl⟩

theorem Aside.refl (m : Machine) : m.Aside m := .of_same rfl rfl rfl

theorem Aside.trans {m m' m'' : Machine} (h : m.Aside m') (h' : m'.Aside m'') : m.Aside m'' :=
  ⟨h'.files.trans h.files, h'.host.trans h.host, h.history.trans h'.history⟩

instance : IsPreorder Machine Machine.Aside where
  refl := Aside.refl
  trans _ _ _ := Aside.trans

theorem aside_call (m : Machine) (c : HostCall) : m.Aside (m.call c) := by
  refine ⟨rfl, rfl, ?_⟩
  show m.history.toList <+: (m.history.push c).toList
  rw [Array.toList_push]
  exact List.prefix_append ..

variable {m m' : Machine}

/-- Another scene with the same files. -/
theorem aside_scene {scene : Scene} (files : scene.animations = m.scene.animations) :
    m.Aside { m with scene } := .of_same files rfl rfl

end Machine

/-! ## The changes of most instructions -/

theorem Scene.Edit.animations {s s' : Scene} (edit : s.Edit s') : s'.animations = s.animations := by
  cases edit with
  | rest _ files => exact files
  | menu => rfl
  | list => rfl
  | volume => rfl

theorem Machine.Edit.aside {m m' : Machine} (edit : m.Edit m') : m.Aside m' := by
  cases edit with
  | scene edit => exact aside_scene edit.animations
  | call c => exact aside_call m c
  | sheet => exact .of_same rfl rfl rfl
  | registers => exact .of_same rfl rfl rfl
  | text => exact .of_same rfl rfl rfl
  | random => exact .of_same rfl rfl rfl
  | branches => exact .of_same rfl rfl rfl
  | calls => exact .of_same rfl rfl rfl
  | steps => exact .of_same rfl rfl rfl

/-- **Such changes load no animation file.** -/
theorem Machine.Edits.aside {m m' : Machine} (edits : m.Edits m') : m.Aside m' := edits.along Edit.aside

theorem Exec.Edits.aside {α : Type} {x : Exec α} (h : x.Edits) : x.Aside := fun m => (h m).aside

/-! ## All instructions -/

open Machine

theorem Sheet.aside_appendFrame (m : Machine) (run : Activation) : m.Aside (appendFrame m run) := by
  unfold appendFrame
  split
  · exact .of_same rfl rfl rfl
  · exact .refl m

/-- **Every instruction** whose operands have been loaded, but for the one that loads a file. -/
theorem Opcode.aside_perform {op : Opcode} (p : Program) (run : Activation) (next : Position)
    (other : op ≠ .animation .load) : (op.perform p run next).Aside := by
  by_cases adds : op = .sheet .addFrame
  · subst adds
    have appends : (modify (Sheet.appendFrame · run) : Exec Unit).Aside :=
      Along.modify (Sheet.aside_appendFrame · run)
    exact appends.seqRight (.pure _)
  · exact (edits_perform p run next adds other).aside

end StageScript
