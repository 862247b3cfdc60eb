import StageScript.Proofs.Engine.Session
import StageScript.Proofs.Engine.Store
import StageScript.Proofs.Machine.Execution

/-! # The lengths of draw lists
A script makes a draw list no longer than there are entities. But while entities get their turns, each of
them is put on a list whatever length the list has.
* **`Engine.drawLists_within`** — so the lists are never longer than twice as many entities as there are, and
  no longer than there are where no script that runs in a turn makes a list longer;
* **`Engine.not_all_drawLists_within`** — a script that fills its list makes it longer than that. -/

namespace StageScript

open Stepwise Indexed

/-- **No main sub-script makes a draw list longer**, whatever machine it runs on. -/
def Program.Quiet (p : Program) : Prop :=
  ∀ type entry object m k, p.entryPoint? type .main = some entry →
    ((run p ⟨object, .main⟩ entry m).2.scene.drawLists.get k).size ≤ (m.scene.drawLists.get k).size

namespace Engine

/-- **The draw lists hold no more than so many entities** each. -/
def ListsWithin (n : Nat) (g : Engine) : Prop := ∀ k, (g.machine.scene.drawLists.get k).size ≤ n

variable {n n' : Nat} {g : Engine}

theorem ListsWithin.mono (h : ListsWithin n g) (le : n ≤ n') : ListsWithin n' g :=
  fun k => Nat.le_trans (h k) le

/-! ## Commands without turns -/

/-- **Apart from turns, the lists are kept in any bound** that all entities fit into. -/
theorem elementary_listsWithin (large : entityCount ≤ n) : Elementary (Keeping (ListsWithin n)) where
  program _ _ _ h := h
  error _ _ h := h
  clear _ h := h
  machine _ _ evolves h k := Nat.le_trans (evolves.scene.lists k) (Nat.max_le.2 ⟨h k, large⟩)
  frames _ _ h := h

/-! ## Turns -/

/-- One entity more on one of the lists. -/
theorem ListsWithin.addToDrawList (h : ListsWithin n g) (slot : Fin entityCount) :
    ListsWithin (n + 1) (g.modifyScene (addToDrawList slot)) := by
  intro k
  show ((Engine.addToDrawList slot g.machine.scene).drawLists.get k).size ≤ n + 1
  unfold Engine.addToDrawList
  dsimp only
  split
  · next order _ =>
    dsimp only
    rw [get_put]
    split
    · rw [Array.size_push]
      exact Nat.succ_le_succ (h order)
    · exact Nat.le_succ_of_le (h k)
  · exact Nat.le_succ_of_le (h k)

/-- **A turn** puts one entity more on a list than its script leaves there. -/
theorem ListsWithin.turn {slot : Fin entityCount} (h : ListsWithin n g)
    (script : ListsWithin n (processScript slot.val .main g).2) :
    ListsWithin (n + 1) (processObject slot g).2 := by
  have same : ListsWithin (n + 1) g := h.mono (Nat.le_succ n)
  rw [processObject_apply]
  split
  · split
    · rw [bind_apply]
      rcases ran : processScript slot.val .main g with ⟨e | ⟨⟩, g'⟩ <;> rw [ran] at script
      · exact script.mono (Nat.le_succ n)
      · exact script.addToDrawList slot
    · exact same
  · split
    · exact same
    · exact same

theorem listsWithin_emptied (g : Engine) : ListsWithin 0 g.emptied := by
  intro k
  show ((Vector.replicate drawListCount (#[] : Array Nat)).get k).size ≤ 0
  rw [get_eq_getElem, Vector.getElem_replicate]
  exact Nat.le_refl 0

/-- **The turns of all entities** put them on the lists beside what scripts put there. -/
theorem listsWithin_processObjects (g : Engine) : ListsWithin (2 * entityCount) (processObjects g).2 := by
  have turn : ∀ slot ∈ List.finRange entityCount, ∀ n g, ListsWithin (entityCount + n) g →
      ListsWithin (entityCount + (n + 1)) (processObject slot g).2 := by
    intro slot _ n g h
    -- a script may fill a list up, so the bound that is raised begins where all entities fit
    have large := elementary_listsWithin (Nat.le_add_right entityCount n)
    exact h.turn (large.processScript slot.val .main g h)
  have turns := forM_raises (fun n g h => h.mono (Nat.le_succ (entityCount + n))) turn
    ((listsWithin_emptied g).mono (Nat.zero_le (entityCount + 0)))
  rw [List.length_finRange, Nat.zero_add, ← Nat.two_mul] at turns
  rw [processObjects_apply]
  exact turns

/-! ## Scripts that leave lists short -/

/-- A main sub-script of a quiet program leaves no list longer than it was. -/
theorem ListsWithin.script (h : ListsWithin n g) (quiet : g.program.Quiet) (object : Nat) :
    ListsWithin n (processScript object .main g).2 := by
  cases found : g.entryPoint? object .main with
  | none =>
    rw [processScript_of_none found]
    exact h
  | some entry =>
    obtain ⟨error, left⟩ := exists_runBody ⟨object, .main⟩ entry g
    rw [processScript_of_entry found, left]
    obtain ⟨slot, -, found⟩ := Option.bind_eq_some_iff.1 found
    exact fun k => Nat.le_trans (quiet _ entry object _ k found) (h k)

/-- **The turns of all entities** in a quiet program put no more on a list than there are entities. -/
theorem listsWithin_processObjects_of_quiet (quiet : g.program.Quiet) :
    ListsWithin entityCount (processObjects g).2 := by
  have turn : ∀ slot ∈ List.finRange entityCount, ∀ n g', g'.program = g.program ∧ ListsWithin n g' →
      (processObject slot g').2.program = g.program ∧ ListsWithin (n + 1) (processObject slot g').2 := by
    intro slot _ n g' ⟨same, h⟩
    -- the program is quiet in each turn because no turn changes it
    have kept : (processObject slot g').2.program = g'.program := (keeps_processObject slot g').program
    exact ⟨kept.trans same, h.turn (h.script (same ▸ quiet) slot.val)⟩
  have begins : g.emptied.program = g.program ∧ ListsWithin 0 g.emptied := ⟨rfl, listsWithin_emptied g⟩
  have turns := (forM_raises (fun n g' h => ⟨h.1, h.2.mono (Nat.le_succ n)⟩) turn begins).2
  rw [List.length_finRange, Nat.zero_add] at turns
  rw [processObjects_apply]
  exact turns

/-! ## Fixed scripts -/

/-- The two programs hold the same. -/
def agree (p q : Program) : Bool :=
  decide (p.code = q.code) && decide (p.jumpTable = q.jumpTable) &&
    decide (p.entries.toList = q.entries.toList) && decide (p.functions = q.functions) &&
    decide (p.typeNames = q.typeNames)

theorem eq_of_agree {p q : Program} (h : agree p q = true) : p = q := by
  simp only [agree, Bool.and_eq_true, decide_eq_true_eq] at h
  obtain ⟨code, jumpTable, entries, functions, typeNames⟩ := p
  obtain ⟨⟨⟨⟨rfl, rfl⟩, same⟩, rfl⟩, rfl⟩ := h
  obtain rfl := Vector.toList_inj.1 same
  rfl

/-- What a script makes of a program, if it compiles. -/
def compiled? (source : Text) (type : Nat) (p : Program) : Option Program :=
  let (answer, c) := Compiler.compileFile "Test.txt" source type (compiler {} p)
  answer.toOption.map fun _ => c.program

/-- An engine with a program. -/
def holding (p : Program) : Engine := { start {} {} 1 with program := p }

/-- An engine that gets a script gets what the script makes of its program. -/
theorem perform_compileSource {source : Text} {type : Nat} {p q : Program}
    (compiled : (compiled? source type p).any (agree q) = true) :
    (Command.compileSource "Test.txt" source type).perform (holding p) = holding q := by
  obtain ⟨p', made, same⟩ := (Option.any_eq_true _ _).1 compiled
  obtain rfl := eq_of_agree same
  rcases ran : Compiler.compileFile "Test.txt" source type (compiler {} p) with ⟨e | ⟨⟩, c⟩ <;>
    rw [compiled?, ran] at made
  · cases made
  · obtain rfl := Option.some.inj made
    exact congrArg Prod.snd (compileSource_of_ok (g := holding p) ran)

/-- A main sub-script that does nothing. -/
def idle : Text := "subObjectMain\nendsub\n".toList

/-- The script in a program of its own. -/
def idleProgram : Program where
  code := #[0]
  entries := (Vector.replicate typeCapacity {}).setIfInBounds 1 { main := some ⟨0, 0⟩ }

theorem eq_of_entryPoint?_idleProgram {type : Nat} {sub : SubScript} {entry : EntryPoint}
    (found : idleProgram.entryPoint? type sub = some entry) : entry = ⟨0, 0⟩ := by
  unfold Program.entryPoint? idleProgram at found
  rw [Vector.getElem?_setIfInBounds] at found
  split at found
  · cases sub with
    | main => exact (Option.some.inj found).symm
    | _ => cases found
  · obtain ⟨entries, known, found⟩ := Option.bind_eq_some_iff.1 found
    obtain ⟨h, rfl⟩ := Vector.getElem?_eq_some_iff.1 known
    rw [Vector.getElem_replicate] at found
    cases sub <;> cases found

/-- The script does nothing, and ends if it may run at all. -/
theorem run_idleProgram (activation : Activation) (m : Machine) :
    (run idleProgram activation ⟨0, 0⟩ m).2.scene = m.scene ∧
      (m.steps < m.budget → (run idleProgram activation ⟨0, 0⟩ m).1 = .ok ()) := by
  have decoded : Instruction.decode idleProgram.code 0 = .ok (⟨0, .control .stop, []⟩, 1) :=
    Except.eq_ok_of_toOption (by decide +kernel)
  have ends : step idleProgram activation ⟨0, 0, 0⟩ =
      Instruction.execute idleProgram activation ⟨1, 0, 0⟩ ⟨0, .control .stop, []⟩ :=
    step_eq_execute decoded
  have runs : run idleProgram activation ⟨0, 0⟩ m =
      runFrom idleProgram activation (m.budget - m.steps) ⟨0, 0, 0⟩ { m with branches := [], calls := [] } := rfl
  rw [runs]
  cases left : m.budget - m.steps with
  | zero => exact ⟨rfl, fun room => by omega⟩
  | succ n =>
    rw [runFrom_succ, ends]
    exact ⟨rfl, fun _ => rfl⟩

theorem quiet_idleProgram : idleProgram.Quiet := by
  intro type entry object m k found
  obtain rfl := eq_of_entryPoint?_idleProgram found
  have same := (run_idleProgram ⟨object, .main⟩ m).1
  exact Nat.le_of_eq (congrArg (fun s : Scene => (s.drawLists.get k).size) same)

/-! ## Sessions -/

theorem listsWithin_start (config : Config) (host : Host) (entropy : UInt64) :
    ListsWithin 0 (start config host entropy) := by
  intro k
  show ((Vector.replicate drawListCount (#[] : Array Nat)).get k).size ≤ 0
  rw [get_eq_getElem, Vector.getElem_replicate]
  exact Nat.le_refl 0

/-- **How long draw lists get.** After any session no draw list holds more than twice as many entities as
there are. None holds more than there are if the program is quiet whenever entities get their turns, as it
is in a session without turns, whatever its scripts are. -/
theorem drawLists_within (config : Config) (host : Host) (entropy : UInt64) (commands : List Command) :
    ListsWithin (2 * entityCount) ((start config host entropy).after commands) ∧
    ((∀ done command rest, commands = done ++ command :: rest → command.takesTurns = true →
        ((start config host entropy).after done).program.Quiet) →
      ListsWithin entityCount ((start config host entropy).after commands)) := by
  have begins := listsWithin_start config host entropy
  constructor
  · have large := elementary_listsWithin (n := 2 * entityCount) (by decide)
    refine after_induction (begins.mono (Nat.zero_le _)) fun done command rest _ h => ?_
    exact command.along large (fun _ _ => listsWithin_processObjects _) h
  · intro quiet
    have large := elementary_listsWithin (Nat.le_refl entityCount)
    refine after_induction (begins.mono (Nat.zero_le _)) fun done command rest split h => ?_
    exact command.along large
      (fun turns _ => listsWithin_processObjects_of_quiet (quiet done command rest split turns)) h

/-- A session in which the turns leave the lists within their bound. -/
theorem drawLists_within_idle :
    ListsWithin entityCount
      ((start {} {} 1).after [.compileSource "Test.txt" idle 1, .processObjects]) := by
  refine (drawLists_within {} {} 1 _).2 fun done command rest split turns => ?_
  obtain _ | ⟨first, _ | ⟨second, done⟩⟩ := done
  · obtain ⟨rfl, -⟩ := List.cons.inj split
    cases turns
  · obtain ⟨rfl, -⟩ := List.cons.inj split
    have loaded : (Command.compileSource "Test.txt" idle 1).perform (holding {}) = holding idleProgram :=
      perform_compileSource (by decide +kernel)
    show ((Command.compileSource "Test.txt" idle 1).perform (holding {})).program.Quiet
    rw [loaded]
    exact quiet_idleProgram
  · have lengths := congrArg List.length split
    simp only [List.length_append, List.length_cons, List.length_nil] at lengths
    omega

/-! ## A crowded list -/

/-- A script that makes its entity one of type one. -/
def promotion : Text := "subObjectMain\nObject.Type=1\nendsub\n".toList

/-- A script that puts an entity at the last place that a draw list may have. -/
def crowding : Text := "subObjectMain\nSetDrawListEntityRef(0,3,1183)\nendsub\n".toList

/-- The first script in a program of its own. -/
def promotionProgram : Program where
  code := #[1, 1, 0, 14, 2, 1, 0]
  entries := (Vector.replicate typeCapacity {}).setIfInBounds 0 { main := some ⟨0, 0⟩ }

/-- Both scripts. -/
def crowdingProgram : Program where
  code := #[1, 1, 0, 14, 2, 1, 0, 118, 2, 0, 2, 3, 2, 1183, 0]
  entries := ((Vector.replicate typeCapacity {}).setIfInBounds 0 { main := some ⟨0, 0⟩ }).setIfInBounds 1
    { main := some ⟨7, 0⟩ }

/-- Type one has got the second script. -/
theorem entryPoint?_crowdingProgram : crowdingProgram.entryPoint? 1 .main = some ⟨7, 0⟩ := by
  rw [Program.entryPoint?, crowdingProgram, Vector.getElem?_setIfInBounds_self_of_lt (by decide)]
  rfl

/-- The list that the second script changes. -/
def fourth : Fin drawListCount := ⟨3, by decide⟩

/-- What the second script does, as an instruction. -/
def atLast : Instruction := ⟨7, .drawList .set, [.integer 0, .integer 3, .integer 1183]⟩

/-- A scene with the list filled up. -/
def filledUp (s : Scene) : Scene :=
  let list := s.drawLists.get fourth
  { s with drawLists := put s.drawLists fourth ((resize list (max list.size 1184)).setIfInBounds 1183 0) }

theorem execute_atLast (p : Program) (activation : Activation) (next : Position) (m : Machine) :
    ∃ m', atLast.execute p activation next m = (.ok (some next), m') ∧ m'.scene = filledUp m.scene ∧
      m'.stepLimit = m.stepLimit := by
  generalize loads : ((m.setOperand 0 0).setOperand 1 3).setOperand 2 1183 = m'
  have loaded : loadArguments activation.object atLast.arguments 0 m = (.ok (), m') := loads ▸ rfl
  have scene : m'.scene = m.scene := loads ▸ rfl
  have limit : m'.stepLimit = m.stepLimit := loads ▸ rfl
  have value (place : Nat) : m'.registers.operands[place] =
      if 2 = place then (1183 : Word) else if 1 = place then 3 else if 0 = place then 0 else
        m.registers.operands[place] := by
    subst loads
    show (((m.registers.operands.set 0 0).set 1 3).set 2 1183).get place = _
    rw [Operands.get_set _ _ _ _ (by decide), Operands.get_set _ _ _ _ (by decide),
      Operands.get_set _ _ _ _ (by decide)]
    rfl
  have put : DrawListOp.set? m'.scene m'.registers.operands[0] m'.registers.operands[1]
      m'.registers.operands[2] = some (filledUp m.scene) := by
    rw [value, value, value, scene]
    rfl
  have did : DrawListOp.perform .set m' = (.ok (), { m' with scene := filledUp m.scene }) := by
    show DrawListOp.leave "SetDrawListEntityRef" m'.registers.operands[2] (DrawListOp.set? m'.scene
      m'.registers.operands[0] m'.registers.operands[1] m'.registers.operands[2]) m' = _
    rw [put]
    rfl
  refine ⟨{ m' with scene := filledUp m.scene }, ?_, rfl, limit⟩
  rw [Instruction.execute, bind_apply_of_ok loaded]
  show ((DrawListOp.perform .set *> pure (some next) : Exec (Option Position)) >>= _) m' = _
  rw [bind_apply, seqRight_apply, did]
  rfl

/-- The second script fills the list up. -/
theorem run_crowding (activation : Activation) (m : Machine) (unlimited : m.stepLimit = none)
    (begins : m.steps = 0) :
    ∃ m', run crowdingProgram activation ⟨7, 0⟩ m = (.ok (), m') ∧ m'.scene = filledUp m.scene := by
  have decoded : Instruction.decode crowdingProgram.code 7 = .ok (atLast, 14) ∧
      Instruction.decode crowdingProgram.code 14 = .ok (⟨14, .control .stop, []⟩, 15) :=
    ⟨Except.eq_ok_of_toOption (by decide +kernel), Except.eq_ok_of_toOption (by decide +kernel)⟩
  have first : step crowdingProgram activation ⟨7, 7, 0⟩ =
      atLast.execute crowdingProgram activation ⟨14, 7, 0⟩ := step_eq_execute decoded.1
  have ends : step crowdingProgram activation ⟨14, 7, 0⟩ =
      Instruction.execute crowdingProgram activation ⟨15, 7, 0⟩ ⟨14, .control .stop, []⟩ :=
    step_eq_execute decoded.2
  have budget : m.budget - m.steps = 18446744073709551613 + 2 := by
    rw [Machine.budget, unlimited, begins]
    rfl
  obtain ⟨m', did, scene, -⟩ := execute_atLast crowdingProgram activation ⟨14, 7, 0⟩
    ({ m with branches := [], calls := [] } : Machine).counted
  refine ⟨m'.counted, ?_, scene⟩
  show runFrom crowdingProgram activation (m.budget - m.steps) ⟨7, 7, 0⟩
    { m with branches := [], calls := [] } = _
  rw [budget, runFrom_succ, first, did]
  dsimp only
  rw [runFrom_succ, ends]
  rfl

/-- The last slot has its turn behind all the others. -/
theorem exists_slots : ∃ others, List.finRange entityCount = others ++ [scratchSlot] ∧
    ∀ slot ∈ others, slot ≠ scratchSlot := by
  refine ⟨(List.finRange 1183).map Fin.castSucc, List.finRange_succ_last, fun slot member => ?_⟩
  obtain ⟨i, -, rfl⟩ := List.mem_map.1 member
  exact fun same => Nat.ne_of_lt i.isLt (congrArg Fin.val same)

/-- **Where the other slots are empty**, the turn of an object of type one puts one entity more on the list
than there are. -/
theorem size_crowded {g : Engine} (scripts : g.program = crowdingProgram)
    (unlimited : g.machine.stepLimit = none)
    (blank : ∀ slot, slot ≠ scratchSlot → (g.machine.scene.entities.get slot).typeId = 0 ∧
      isRemovedOutside (g.machine.scene.entities.get slot) = false)
    (active : isActive g.emptied.machine.scene (g.machine.scene.entities.get scratchSlot) = true)
    (typed : (g.machine.scene.entities.get scratchSlot).typeId = 1)
    (order : (g.machine.scene.entities.get scratchSlot).drawOrder = 3) :
    ((processObjects g).2.machine.scene.drawLists.get fourth).size = entityCount + 1 := by
  obtain ⟨others, slots, before⟩ := exists_slots
  have still : ∀ slot ∈ others, processObject slot g.emptied = (.ok (), g.emptied) := by
    intro slot member
    have empty := blank slot (before slot member)
    exact processObject_of_blank empty.1 empty.2
  obtain ⟨m, ran, scene⟩ :=
    run_crowding ⟨scratchSlot.val, .main⟩ { g.emptied.machine with steps := 0 } unlimited rfl
  -- the last entity plays its script and is put on the list
  have entry : g.emptied.entryPoint? scratchSlot.val .main = some ⟨7, 0⟩ := by
    show g.program.entryPoint? (g.machine.scene.entities.get scratchSlot).typeId.toNat .main = _
    rw [scripts, typed]
    exact entryPoint?_crowdingProgram
  have ran : run g.emptied.program ⟨scratchSlot.val, .main⟩ ⟨7, 0⟩
      { g.emptied.machine with steps := 0 } = (.ok (), m) := scripts ▸ ran
  have played : processScript scratchSlot.val .main g.emptied =
      (.ok (), { g.emptied with machine := m }) := by
    rw [processScript_of_entry entry]
    exact runBody_of_ok ran
  have active : isActive g.emptied.machine.scene (g.emptied.machine.scene.entities.get scratchSlot) = true :=
    active
  have typed : (g.emptied.machine.scene.entities.get scratchSlot).typeId ≠ 0 := by
    show (g.machine.scene.entities.get scratchSlot).typeId ≠ 0
    rw [typed]
    decide
  have turn : processObject scratchSlot g.emptied =
      (.ok (), ({ g.emptied with machine := m } : Engine).modifyScene (addToDrawList scratchSlot)) := by
    rw [processObject_apply, if_pos active, if_pos typed, bind_apply_of_ok played]
    rfl
  rw [processObjects_apply, slots, forM_append_of_still still]
  show (((processObject scratchSlot >>= fun _ => pure ()) g.emptied).2.machine.scene.drawLists.get
    fourth).size = _
  rw [bind_apply_of_ok turn]
  show ((addToDrawList scratchSlot m.scene).drawLists.get fourth).size = _
  have place : place? drawListCount (m.scene.entities.get scratchSlot).drawOrder.toNat = some fourth := by
    rw [scene]
    show place? drawListCount (g.machine.scene.entities.get scratchSlot).drawOrder.toNat = _
    rw [order]
    rfl
  have list : (m.scene.drawLists.get fourth).size = entityCount := by
    rw [scene]
    show ((put (Vector.replicate drawListCount #[]) fourth _).get fourth).size = _
    rw [get_put, if_pos rfl, Array.size_setIfInBounds, size_resize]
    rfl
  unfold addToDrawList
  dsimp only
  rw [place]
  dsimp only
  rw [get_put, if_pos rfl, Array.size_push, list]

/-- Slots in front of the last one. -/
theorem blank_of_all {entities : Vector Entity entityCount}
    (all : (entities.toList.dropLast.all fun e => decide (e.typeId = 0) && !isRemovedOutside e) = true)
    (slot : Fin entityCount) (other : slot ≠ scratchSlot) :
    (entities.get slot).typeId = 0 ∧ isRemovedOutside (entities.get slot) = false := by
  have before : slot.val < entityCount - 1 := by
    have := slot.isLt
    have : slot.val ≠ entityCount - 1 := fun same => other (Fin.ext same)
    omega
  have inside : slot.val < entities.toList.dropLast.length := by
    rw [List.length_dropLast, Vector.length_toList]
    exact before
  have member := List.getElem_mem inside
  rw [List.getElem_dropLast, Vector.getElem_toList] at member
  have empty := List.all_eq_true.1 all _ member
  rw [Bool.and_eq_true, decide_eq_true_eq, Bool.not_eq_true'] at empty
  exact empty

/-- The engine in which the first script has run for the last slot. -/
@[irreducible] def promoted : Engine := (Command.processScript 1183 .main).perform (holding crowdingProgram)

theorem size_promoted :
    ((processObjects promoted).2.machine.scene.drawLists.get fourth).size = entityCount + 1 := by
  have scripts : promoted.program = crowdingProgram := by
    have kept (g : Engine) : ((Command.processScript 1183 .main).perform g).program = g.program :=
      (keeps_processScript 1183 .main g).program
    unfold promoted
    rw [kept]
    rfl
  have others : (promoted.machine.scene.entities.toList.dropLast.all fun e =>
      decide (e.typeId = 0) && !isRemovedOutside e) = true := by
    decide +kernel
  have last : isActive promoted.emptied.machine.scene
        (promoted.machine.scene.entities.get scratchSlot) = true ∧
      (promoted.machine.scene.entities.get scratchSlot).typeId = 1 ∧
      (promoted.machine.scene.entities.get scratchSlot).drawOrder = 3 ∧
      promoted.machine.stepLimit = none := by
    decide +kernel
  exact size_crowded scripts last.2.2.2 (blank_of_all others) last.1 last.2.1 last.2.2.1

theorem perform_promotion : (Command.compileSource "Test.txt" promotion 0).perform (holding {}) =
    holding promotionProgram :=
  perform_compileSource (by decide +kernel)

theorem perform_crowding : (Command.compileSource "Test.txt" crowding 1).perform (holding promotionProgram) =
    holding crowdingProgram :=
  perform_compileSource (by decide +kernel)

theorem perform_promoted : (Command.processScript 1183 .main).perform (holding crowdingProgram) = promoted := by
  unfold promoted
  exact Eq.refl _

/-- The turns come when both scripts have been compiled and the first has run. -/
theorem after_crowding :
    (start {} {} 1).after [.compileSource "Test.txt" promotion 0, .compileSource "Test.txt" crowding 1,
      .processScript 1183 .main, .processObjects] = (processObjects promoted).2 := by
  have steps (g : Engine) (a b c d : Command) :
      g.after [a, b, c, d] = d.perform (c.perform (b.perform (a.perform g))) := rfl
  have turns (g : Engine) : Command.processObjects.perform g = (processObjects g).2 := rfl
  have begins (config : Config) (host : Host) (entropy : UInt64) :
      start config host entropy = { start config host entropy with program := {} } := rfl
  have begins : start {} {} 1 = holding {} := begins {} {} 1
  rw [begins, steps, perform_promotion, perform_crowding, perform_promoted, turns]

/-- **Draw lists get longer than there are entities.** The first script makes the entity in the last slot one
of type one. In the turns the second script fills a draw list up, and then the entity is put on it. -/
theorem not_all_drawLists_within :
    ¬ ∀ (config : Config) (host : Host) (entropy : UInt64) (commands : List Command),
      ListsWithin entityCount ((start config host entropy).after commands) := by
  intro claim
  have within := claim {} {} 1 [.compileSource "Test.txt" promotion 0,
    .compileSource "Test.txt" crowding 1, .processScript 1183 .main, .processObjects]
  rw [after_crowding] at within
  have fits := within fourth
  rw [size_promoted] at fits
  exact Nat.not_succ_le_self entityCount fits

end Engine

end StageScript
