import StageScript.Proofs.Engine.Session
import StageScript.Proofs.Machine.Cache

/-! # Animation files over a session
Commands run scripts, and scripts load animation files. Some commands forget all files.
* **`Engine.Command.loads`** — what any other command does to the machine is that files may be loaded;
* **`Engine.loads_after`** — so it is with a sequence of them. -/

namespace StageScript

namespace Engine

open Stepwise Machine

/-- **Files may have been loaded** between the two engines. -/
def Loads (g g' : Engine) : Prop := g.machine.Loads g'.machine

instance : IsPreorder Engine Loads where
  refl _ := .refl
  trans _ _ _ := .trans

variable {g g' : Engine}

/-- Commands that leave the machine alone. -/
theorem Loads.of_machine (same : g'.machine = g.machine) : g.Loads g' := by
  rw [Loads, same]

theorem Loads.of_aside (other : g.machine.Aside g'.machine) : g.Loads g' := .single (.aside other)

/-- A change of the scene that leaves the files alone. -/
theorem loads_modifyScene {change : Scene → Scene}
    (files : (change g.machine.scene).animations = g.machine.scene.animations) :
    g.Loads (g.modifyScene change) := .of_aside (aside_scene files)

/-! ## Compiling -/

theorem loads_registerTypes : Along Loads registerTypes := by
  have each (entry : ObjectEntry) : Along Loads (registerType entry) := by
    refine Along.get_bind fun g => ?_
    rcases Program.registerType entry.name.toList g.program with ⟨table | _, program⟩
    · exact .of_machine rfl
    · exact .of_machine rfl
  exact Along.get_bind fun g => Along.forM (fun entry _ => each entry) g

theorem loads_compileSource (path : Path) (source : Text) (type : Nat) :
    Along Loads (compileSource path source type) := by
  intro g
  rcases ran : Compiler.compileFile path source type (compiler g.config g.program) with ⟨e | ⟨⟩, c⟩
  · rw [compileSource_of_error ran]
    exact .of_machine rfl
  · rw [compileSource_of_ok ran]
    exact .of_machine rfl

/-! ## Scripts -/

theorem loads_processScript (object : Nat) (sub : SubScript) : Along Loads (processScript object sub) := by
  refine along_processScript fun g entry _ => ?_
  obtain ⟨error, left⟩ := exists_runBody ⟨object, sub⟩ entry g
  have begins : g.machine.Loads { g.machine with steps := 0 } := .single (.aside (.of_same rfl rfl rfl))
  rw [left]
  exact begins.trans (loads_run g.program ⟨object, sub⟩ entry _)

theorem loads_setupObjects : Along Loads setupObjects := by
  have setup (type : Nat) : Along Loads (setupType type) := by
    refine (Along.modify fun g => .of_aside (.of_same rfl rfl rfl)).bind fun _ => Along.get_bind fun g => ?_
    refine Along.ite ?_ (.pure ()) g
    exact (Along.modify fun g => loads_modifyScene rfl).bind fun _ => loads_processScript _ _
  have types : Along Loads setupTypes := Along.get_bind fun g => Along.forM (fun type _ => setup type) g
  intro g
  have empty : g.Loads (g.modifyScene ({ · with spriteFrames := #[] })) := loads_modifyScene rfl
  -- the slot that was lent is given back, also behind a failure
  exact (empty.trans (types _)).trans (loads_modifyScene rfl)

theorem loads_processObjects : Along Loads processObjects := by
  have place (slot : Fin entityCount) (g : Engine) : g.Loads (g.modifyScene (addToDrawList slot)) := by
    refine loads_modifyScene ?_
    unfold addToDrawList
    dsimp only
    split <;> rfl
  exact along_processObjects (fun g => loads_modifyScene rfl) fun slot =>
    along_processObject (loads_processScript slot.val .main) (place slot) fun g => loads_modifyScene rfl

theorem loads_drawLayer (layer : Nat) : Along Loads (drawLayer layer) :=
  along_drawLayer (fun object => loads_processScript object .draw) layer

/-! ## Sessions -/

/-- Whether a command forgets all animation files. -/
def Command.forgets : Command → Bool
  | loadScripts _ => true
  | loadBytecode .. => true
  | clearScriptData => true
  | _ => false

/-- **What a command does to the machine**, whether it succeeds or fails: files may be loaded. -/
theorem Command.loads (command : Command) (remembers : command.forgets = false) (g : Engine) :
    g.Loads (command.perform g) := by
  cases command with
  | registerTypes => exact loads_registerTypes g
  | compileSource path source type => exact loads_compileSource path source type g
  | loadScripts => cases remembers
  | loadBytecode => cases remembers
  | clearScriptData => cases remembers
  | setupObjects => exact loads_setupObjects g
  | processScript object sub => exact loads_processScript object sub g
  | processObjects => exact loads_processObjects g
  | drawLayer layer => exact loads_drawLayer layer g
  | runFrame => exact along_runFrame loads_processObjects loads_drawLayer g
  | resetError => exact .of_machine rfl
  | limitSteps => exact .of_aside (.of_same rfl rfl rfl)

/-- **Over a session** that forgets no files, files may be loaded. -/
theorem loads_after {commands : List Command} (remember : ∀ command ∈ commands, command.forgets = false)
    (g : Engine) : g.Loads (g.after commands) := by
  refine after_induction (P := g.Loads) .refl fun done command rest split reached => ?_
  exact reached.trans (command.loads (remember command (by simp [split])) _)

end Engine

end StageScript
