import StageScript.Proofs.Engine.Session
import StageScript.Proofs.Engine.Store
import StageScript.Proofs.Machine.Bounds

/-! # Scenes and machines stay sound
What holds of an engine at the beginning, whatever commands it gets, and amid every run of a script.
* **`Engine.Bounded`** — what varies in size stays in its bounds, and what is referred to is there;
* **`Engine.Sound`** — that, with all that never varies, and no access of an instruction is outside of a
  list;
* **`Engine.sound_after`** — every session leaves an engine sound, and so does every part of a run. -/

namespace StageScript

namespace Engine

open Stepwise

/-! ## What varies -/

/-- **The parts of an engine that vary are in their bounds.** -/
structure Bounded (config : Config) (g : Engine) : Prop where
  rows : ∀ k, (g.machine.scene.menus.get k).rows.size ≤ menuRowCapacity
  frames : g.machine.scene.spriteFrames.size ≤ spriteFrameCapacity
  volume : IsVolume g.machine.scene.music.volume
  globals : g.machine.scene.globals.size = config.globals.length
  /-- The animation files of types are there. -/
  animation : ∀ type k, (g.machine.typeData type).animation = some k → k < g.machine.scene.animations.size
  /-- The sprite frames of types begin inside the list. -/
  begins : ∀ type, (g.machine.typeData type).frameListOffset ≤ spriteFrameCapacity
  branches : g.machine.branches.length ≤ branchDepthLimit
  calls : g.machine.calls.length ≤ callDepthLimit
  /-- The types that are registered have entry points and data. -/
  types : g.program.typeNames.size ≤ typeCapacity

/-- The type data at the beginning. -/
theorem typeData_replicate {m : Machine} (blank : m.types = Vector.replicate typeCapacity {})
    (type : UInt8) : m.typeData type = {} := by
  rw [Machine.typeData, blank, Indexed.get_eq_getElem, Vector.getElem_replicate]

theorem bounded_start (config : Config) (host : Host) (entropy : UInt64) :
    (start config host entropy).Bounded config where
  rows k := by
    show ((Vector.replicate 2 ({} : TextMenu)).get k).rows.size ≤ _
    rw [Indexed.get_eq_getElem, Vector.getElem_replicate]
    exact Nat.zero_le _
  frames := Nat.zero_le _
  volume := by
    show IsVolume 0
    exact ⟨by decide, by decide⟩
  globals := by
    show (config.globals.map (·.value)).toArray.size = _
    rw [List.size_toArray, List.length_map]
  animation type k found := by
    rw [typeData_replicate rfl] at found
    cases found
  begins type := by
    rw [typeData_replicate rfl]
    exact Nat.zero_le _
  branches := Nat.zero_le _
  calls := Nat.zero_le _
  types := by
    show (1 : Nat) ≤ typeCapacity
    decide

/-- A machine that scripts can make. -/
theorem Bounded.evolves {config : Config} {g : Engine} {machine : Machine} (h : g.Bounded config)
    (evolves : g.machine.Evolves machine) : Bounded config { g with machine } where
  rows k := Nat.le_trans (evolves.scene.rows k) (Nat.max_le.2 ⟨h.rows k, Nat.le_refl _⟩)
  frames := Nat.le_trans evolves.scene.frames (Nat.max_le.2 ⟨h.frames, Nat.le_refl _⟩)
  volume := by
    rcases evolves.scene.volume with same | good
    · exact (congrArg IsVolume same).mpr h.volume
    · exact good
  globals := evolves.scene.globals.trans h.globals
  animation type k found := by
    -- a file that a type had is still there, and one that it got is there
    rcases evolves.animation type with same | ⟨k', here, known⟩
    · exact Nat.lt_of_lt_of_le (h.animation type k (same.symm.trans found)) evolves.scene.animations
    · obtain rfl : k' = k := Option.some.inj (here.symm.trans found)
      exact known
  begins type := (evolves.offset type).symm ▸ h.begins type
  branches := Nat.le_trans evolves.branches (Nat.max_le.2 ⟨h.branches, Nat.le_refl _⟩)
  calls := Nat.le_trans evolves.calls (Nat.max_le.2 ⟨h.calls, Nat.le_refl _⟩)
  types := h.types

theorem elementary_bounded (config : Config) : Elementary (Keeping (Bounded config)) where
  program g program few h := { h with types := few h.types }
  error g error h := { h with }
  clear g h :=
    { h with
      frames := Nat.zero_le _
      -- the files are forgotten, and so is what types have loaded
      animation := fun type k found => by
        rw [typeData_replicate rfl] at found
        cases found
      begins := fun type => by
        rw [typeData_replicate rfl]
        exact Nat.zero_le _
      types := by
        show (1 : Nat) ≤ typeCapacity
        decide }
  machine g machine evolves h := h.evolves evolves
  frames g type h :=
    { h with
      animation := fun other k found => by
        unfold openFrames modifyMachine at found
        rw [Machine.typeData_modifyType] at found
        split at found
        · next same => exact h.animation other k (same ▸ found)
        · exact h.animation other k found
      begins := fun other => by
        unfold openFrames modifyMachine
        rw [Machine.typeData_modifyType]
        split
        · exact h.frames
        · exact h.begins other }

/-- Draw lists have no bounds here. -/
theorem Bounded.drawLists {config : Config} {g : Engine} (h : g.Bounded config) {change : Scene → Scene}
    (other : ∃ drawLists, change g.machine.scene = { g.machine.scene with drawLists }) :
    (g.modifyScene change).Bounded config := by
  obtain ⟨drawLists, changed⟩ := other
  have left : g.modifyScene change =
      { g with machine := { g.machine with scene := { g.machine.scene with drawLists } } } :=
    congrArg (fun scene => { g with machine := { g.machine with scene } }) changed
  rw [left]
  exact { h with }

theorem bounded_emptied (config : Config) (g : Engine) : Keeping (Bounded config) g g.emptied :=
  fun h => h.drawLists ⟨_, rfl⟩

/-- The turn of an entity. -/
theorem bounded_processObject (config : Config) (slot : Fin entityCount) :
    Along (Keeping (Bounded config)) (processObject slot) := by
  refine along_processObject ((elementary_bounded config).processScript slot.val .main)
    (fun g h => h.drawLists ?_) fun g => (elementary_bounded config).scene g (.of_extent rfl)
  -- an entity whose draw order is none of the lists is put nowhere
  unfold addToDrawList
  dsimp only
  split
  · exact ⟨_, rfl⟩
  · exact ⟨g.machine.scene.drawLists, rfl⟩

/-- **A command keeps the bounds.** -/
theorem Bounded.perform {config : Config} {g : Engine} (h : g.Bounded config) (command : Command) :
    (command.perform g).Bounded config :=
  command.along (elementary_bounded config)
    (fun _ => along_processObjects (bounded_emptied config) (bounded_processObject config) g) h

theorem bounded_after (config : Config) (host : Host) (entropy : UInt64) (commands : List Command) :
    ((start config host entropy).after commands).Bounded config :=
  after_induction (bounded_start config host entropy) fun _ command _ _ h => h.perform command

/-- Amid a run the bounds are kept. -/
theorem Bounded.midway {config : Config} {g : Engine} (h : g.Bounded config) (activation : Activation)
    (n : Nat) (here : Position) : (midway activation (fun _ => id) n here g).Bounded config := by
  induction n generalizing here g with
  | zero => exact h
  | succ n ih =>
    have counted : g.machine.Evolves g.machine.counted := .of_same rfl rfl rfl rfl
    have first : (instruct activation here g).2.Bounded config :=
      h.evolves (counted.trans (tame_step g.program activation here _))
    unfold Engine.midway
    rcases ran : instruct activation here g with ⟨fault | next | next, g'⟩ <;> rw [ran] at first
    · exact first
    · exact first
    · exact ih first next

/-! ## Sound engines -/

/-- **An engine is sound**: every list has the length that it should have or fits into it, every number that
refers to something refers to something that is there, and no access of an instruction is outside of a
list. -/
structure Sound (config : Config) (g : Engine) : Prop where
  entities : g.machine.scene.entities.toArray.size = 0x4A0
  activePlayer : g.machine.scene.stage.activePlayer.val < 2
  players : ∀ k, (g.machine.scene.players.get k).entity.val < 0x4A0
  rows : ∀ k, (g.machine.scene.menus.get k).rows.size ≤ 0x200
  spriteFrames : g.machine.scene.spriteFrames.size ≤ 0x1000
  volume : 0 ≤ g.machine.scene.music.volume ∧ g.machine.scene.music.volume ≤ 100
  deformation : ∀ k, (g.machine.scene.deformation.get k).toArray.size = 0x240
  vertices : g.machine.scene.space.vertices.toArray.size = 4096
  transformed : g.machine.scene.space.transformed.toArray.size = 4096
  faces : g.machine.scene.space.faces.toArray.size = 1024
  globals : g.machine.scene.globals.size = config.globals.length
  saveRam : g.machine.scene.saveRam.toArray.size = 0x2000
  animation : ∀ type k, (g.machine.typeData type).animation = some k → k < g.machine.scene.animations.size
  branches : g.machine.branches.length ≤ 0x400
  calls : g.machine.calls.length ≤ 0x400
  types : ∀ type < g.program.typeNames.size, type < g.program.entries.toArray.size ∧
    type < g.machine.types.toArray.size
  inside : g.machine.Inside

theorem Bounded.sound {config : Config} {g : Engine} (h : g.Bounded config) : g.Sound config where
  entities := Vector.size_toArray _
  activePlayer := g.machine.scene.stage.activePlayer.isLt
  players k := (g.machine.scene.players.get k).entity.isLt
  rows := h.rows
  spriteFrames := h.frames
  volume := h.volume
  deformation k := Vector.size_toArray _
  vertices := Vector.size_toArray _
  transformed := Vector.size_toArray _
  faces := Vector.size_toArray _
  globals := h.globals
  saveRam := Vector.size_toArray _
  animation := h.animation
  branches := h.branches
  calls := h.calls
  types type known := by
    have := h.types
    rw [Vector.size_toArray, Vector.size_toArray]
    omega
  inside := g.machine.inside h.begins

/-- **Engines stay sound.** Whatever commands an engine has got since it was started, and whichever of them
have failed, it is sound; and while it carries out another command, it is sound behind every instruction of
every run that begins, at any place of its code. -/
theorem sound_after (config : Config) (host : Host) (entropy : UInt64) (commands : List Command) :
    ((start config host entropy).after commands).Sound config ∧
    ∀ (command : Command) (g : Engine), command.Begins ((start config host entropy).after commands) g →
      ∀ activation n here, (midway activation (fun _ => id) n here g.opened).Sound config := by
  have bounded := bounded_after config host entropy commands
  refine ⟨bounded.sound, fun command g begins activation n here => ?_⟩
  have reached : g.Bounded config :=
    begins.along (elementary_bounded config) (bounded_emptied config) (bounded_processObject config) bounded
  have opened : g.opened.Bounded config :=
    { reached with branches := Nat.zero_le _, calls := Nat.zero_le _ }
  exact (opened.midway activation n here).sound

/-- A run in the turn of the second entity. -/
theorem sound_after_idle :
    (start {} {} 1).Sound {} ∧
    (midway ⟨1, .main⟩ (fun _ => id) 3 ⟨0, 0, 0⟩
      (((List.finRange entityCount).take 1).forM processObject (start {} {} 1).emptied).2.opened).Sound {} := by
  have sound := sound_after {} {} 1 []
  exact ⟨sound.1, sound.2 .processObjects _ (.turn 1 _) ⟨1, .main⟩ 3 ⟨0, 0, 0⟩⟩

end Engine

end StageScript
