import StageScript.Proofs.Engine.DrawLists

/-! # Draw lists are made anew
In a frame the entities get their turns slot by slot, and each that plays its main sub-script is put on the
draw list of the draw order that it then has.
* `Engine.atTurn` — the engine in which the entity of a slot gets its turn;
* **`Engine.Turn`** — what a turn does;
* **`Engine.lists_behindTurns`** — the lists behind the turns of so many slots;
* **`Engine.processObjects_rebuilds`** — the lists behind all turns, and what becomes of entities that are
  removed. -/

namespace StageScript

open Stepwise Indexed

/-- **No main sub-script touches a draw list**, whatever machine it runs on. -/
def Program.LeavesLists (p : Program) : Prop :=
  ∀ type entry object m, p.entryPoint? type .main = some entry →
    (run p ⟨object, .main⟩ entry m).2.scene.drawLists = m.scene.drawLists

namespace Engine

/-! ## Turns -/

/-- The engine behind the turns of so many slots. -/
def behindTurns (g : Engine) (n : Nat) : Engine :=
  (((List.finRange entityCount).take n).forM processObject g.emptied).2

/-- The engine in which the entity of a slot gets its turn. -/
def atTurn (g : Engine) (slot : Fin entityCount) : Engine := g.behindTurns slot.val

/-- What is in a slot of an engine. -/
def entity (g : Engine) (slot : Fin entityCount) : Entity := g.machine.scene.entities.get slot

/-- The engine behind the main sub-script of an entity that gets its turn. -/
def behindMain (g : Engine) (slot : Fin entityCount) : Engine :=
  (processScript slot.val .main (g.atTurn slot)).2

/-- **Whether an entity plays its main sub-script**: it is active and of a type when its turn comes. -/
def plays (g : Engine) (slot : Fin entityCount) : Bool :=
  isActive (g.atTurn slot).machine.scene ((g.atTurn slot).entity slot) &&
    ((g.atTurn slot).entity slot).typeId != 0

/-- Whether an entity is put on a draw list: it plays its main sub-script and has the draw order then. -/
def goesTo (g : Engine) (k : Fin drawListCount) (slot : Fin entityCount) : Bool :=
  g.plays slot && ((g.behindMain slot).entity slot).drawOrder.toNat == k.val

variable {g g' : Engine} {slot : Fin entityCount}

theorem plays_of_active (active : isActive (g.atTurn slot).machine.scene ((g.atTurn slot).entity slot) = true)
    (typed : ((g.atTurn slot).entity slot).typeId ≠ 0) : g.plays slot = true := by
  rw [plays, active, Bool.true_and, bne_iff_ne]
  exact typed

theorem not_plays_of_outside
    (outside : isActive (g.atTurn slot).machine.scene ((g.atTurn slot).entity slot) = false) :
    g.plays slot = false := by
  rw [plays, outside, Bool.false_and]

/-- **What a turn does.** -/
inductive Turn (slot : Fin entityCount) (g g' : Engine) : Prop
  /-- The entity plays its main sub-script and is put on a draw list. -/
  | played (left : Engine) (active : isActive g.machine.scene (g.entity slot) = true)
      (typed : (g.entity slot).typeId ≠ 0) (ran : processScript slot.val .main g = (.ok (), left))
      (placed : g' = left.modifyScene (addToDrawList slot))
  /-- The entity has left the active area and is removed. -/
  | removed (outside : isActive g.machine.scene (g.entity slot) = false)
      (removes : isRemovedOutside (g.entity slot) = true)
      (emptied : g' = g.modifyScene fun s => s.modifyEntity slot fun e => { e with typeId := 0 })
  /-- Nothing is done. -/
  | passed (idle : isActive g.machine.scene (g.entity slot) = true → (g.entity slot).typeId = 0)
      (stays : isActive g.machine.scene (g.entity slot) = false → isRemovedOutside (g.entity slot) = false)
      (same : g' = g)

theorem turn_of_ok (took : processObject slot g = (.ok (), g')) : Turn slot g g' := by
  rw [processObject_apply] at took
  split at took
  · next active =>
    have idle (rests : (g.entity slot).typeId = 0) (same : g = g') : Turn slot g g' := by
      refine .passed (fun _ => rests) (fun outside => ?_) same.symm
      rw [entity, active] at outside
      cases outside
    split at took
    · next typed =>
      obtain ⟨⟨⟩, left, ran, placed⟩ := exists_of_bind_eq_ok took
      exact .played left active typed ran (Prod.mk.inj placed).2.symm
    · next rests => exact idle (Decidable.of_not_not rests) (Prod.mk.inj took).2
  · next outside =>
    have outside : isActive g.machine.scene (g.entity slot) = false := Bool.eq_false_iff.2 outside
    split at took
    · next removes => exact .removed outside removes (Prod.mk.inj took).2.symm
    · next stays =>
      refine .passed (fun active => ?_) (fun _ => Bool.eq_false_iff.2 stays) (Prod.mk.inj took).2.symm
      rw [outside] at active
      cases active

/-- The turn of an entity that plays its main sub-script. -/
theorem processObject_of_active {left : Engine} (active : isActive g.machine.scene (g.entity slot) = true)
    (typed : (g.entity slot).typeId ≠ 0) (ran : processScript slot.val .main g = (.ok (), left)) :
    processObject slot g = (.ok (), left.modifyScene (addToDrawList slot)) := by
  unfold entity at active typed
  rw [processObject_apply, if_pos active, if_pos typed, bind_apply_of_ok ran]
  rfl

/-- The turns of the slots up to one are those up to the one in front, and that one's. -/
theorem take_succ_finRange (slot : Fin entityCount) :
    (List.finRange entityCount).take (slot.val + 1) = (List.finRange entityCount).take slot.val ++ [slot] := by
  rw [List.take_succ_eq_append_getElem (by rw [List.length_finRange]; exact slot.isLt), List.getElem_finRange]
  rfl

theorem take_entityCount_finRange :
    (List.finRange entityCount).take entityCount = List.finRange entityCount :=
  List.take_of_length_le (Nat.le_of_eq List.length_finRange)

theorem forM_append_apply (xs ys : List (Fin entityCount)) (g : Engine) :
    (xs ++ ys).forM processObject g =
      (xs.forM processObject >>= fun _ => ys.forM processObject : Act Unit) g :=
  congrFun (List.forM_append (f := (processObject : Fin entityCount → Act Unit))) g

/-- **All turns succeed where the frame does.** -/
theorem turn_of_processObjects (done : processObjects g = (.ok (), g')) (slot : Fin entityCount) :
    Turn slot (g.atTurn slot) (g.behindTurns (slot.val + 1)) := by
  rw [processObjects_apply, ← List.take_append_drop (slot.val + 1) (List.finRange entityCount),
    forM_append_apply] at done
  obtain ⟨⟨⟩, behind, first, -⟩ := exists_of_bind_eq_ok done
  have reached : g.behindTurns (slot.val + 1) = behind := congrArg Prod.snd first
  rw [take_succ_finRange, forM_append_apply] at first
  obtain ⟨⟨⟩, before, front, turn⟩ := exists_of_bind_eq_ok first
  obtain ⟨⟨⟩, behind', took, ends⟩ := exists_of_bind_eq_ok turn
  obtain rfl : behind' = behind := (Prod.mk.inj ends).2
  have begins : g.atTurn slot = before := congrArg Prod.snd front
  rw [begins, reached]
  exact turn_of_ok took

theorem behindTurns_entityCount (done : processObjects g = (.ok (), g')) :
    g.behindTurns entityCount = g' := by
  rw [behindTurns, take_entityCount_finRange, ← processObjects_apply, done]

/-! ## Lists -/

/-- A draw list of an engine. -/
def drawList (g : Engine) (k : Fin drawListCount) : Array Nat := g.machine.scene.drawLists.get k

theorem drawList_addToDrawList (slot : Fin entityCount) (g : Engine) (k : Fin drawListCount) :
    (g.modifyScene (addToDrawList slot)).drawList k =
      if (g.entity slot).drawOrder.toNat = k.val then (g.drawList k).push slot.val else g.drawList k := by
  show (addToDrawList slot g.machine.scene).drawLists.get k = _
  unfold addToDrawList place?
  dsimp only
  by_cases inside : (g.machine.scene.entities.get slot).drawOrder.toNat < drawListCount
  · rw [dif_pos inside]
    dsimp only
    rw [get_put]
    by_cases same : (g.machine.scene.entities.get slot).drawOrder.toNat = k.val
    · rw [if_pos (Fin.ext same), entity, if_pos same, drawList]
      congr
    · rw [if_neg (mt (congrArg Fin.val) same), entity, if_neg same]
      rfl
  · have other : ¬ (g.entity slot).drawOrder.toNat = k.val := fun same =>
      inside (Nat.lt_of_le_of_lt (Nat.le_of_eq same) k.isLt)
    rw [dif_neg inside, if_neg other]
    rfl

theorem entity_addToDrawList (slot other : Fin entityCount) (g : Engine) :
    (g.modifyScene (addToDrawList slot)).entity other = g.entity other := by
  show (addToDrawList slot g.machine.scene).entities.get other = _
  unfold addToDrawList
  dsimp only
  split <;> rfl

/-- **The main sub-scripts that are played leave the draw lists alone.** -/
def MainsLeaveLists (g : Engine) : Prop :=
  ∀ slot, g.plays slot = true → ∀ k, (g.behindMain slot).drawList k = (g.atTurn slot).drawList k

theorem program_behindTurns (g : Engine) (n : Nat) : (g.behindTurns n).program = g.program := by
  have turns : Along Keeps (((List.finRange entityCount).take n).forM processObject) :=
    Along.forM fun slot _ => keeps_processObject slot
  exact (turns g.emptied).program

/-- A program whose main sub-scripts touch no list has none that does so in a turn. -/
theorem mainsLeaveLists_of_program (leaves : g.program.LeavesLists) : g.MainsLeaveLists := by
  intro slot _ k
  cases found : (g.atTurn slot).entryPoint? slot.val .main with
  | none => rw [behindMain, processScript_of_none found]
  | some entry =>
    obtain ⟨error, left⟩ := exists_runBody ⟨slot.val, .main⟩ entry (g.atTurn slot)
    rw [behindMain, processScript_of_entry found, left]
    obtain ⟨place, -, found⟩ := Option.bind_eq_some_iff.1 found
    have program : (g.atTurn slot).program = g.program := program_behindTurns g slot.val
    rw [program] at found
    have same := leaves _ entry slot.val { (g.atTurn slot).machine with steps := 0 } found
    show (run (g.atTurn slot).program _ _ _).2.scene.drawLists.get k = _
    rw [program, same]
    rfl

/-- The slots among the first `n` whose entities are put on a draw list. -/
def gathered (g : Engine) (k : Fin drawListCount) (n : Nat) : List Nat :=
  (((List.finRange entityCount).take n).filter (g.goesTo k)).map Fin.val

theorem gathered_succ (g : Engine) (k : Fin drawListCount) (slot : Fin entityCount) :
    g.gathered k (slot.val + 1) = g.gathered k slot.val ++ if g.goesTo k slot then [slot.val] else [] := by
  rw [gathered, take_succ_finRange, List.filter_append, List.map_append]
  by_cases goes : g.goesTo k slot = true
  · rw [List.filter_cons_of_pos goes, if_pos goes]
    rfl
  · rw [List.filter_cons_of_neg goes, if_neg goes]
    rfl

/-- **A turn** puts its entity on the list that it goes to, and no other entity on any list. -/
theorem Turn.drawList (turn : Turn slot (g.atTurn slot) (g.behindTurns (slot.val + 1)))
    (leaves : g.MainsLeaveLists) (k : Fin drawListCount) :
    ((g.behindTurns (slot.val + 1)).drawList k).toList =
      ((g.atTurn slot).drawList k).toList ++ if g.goesTo k slot then [slot.val] else [] := by
  -- an entity whose script is not played leaves the lists alone, whether it is removed or passed by
  have still (same : (g.behindTurns (slot.val + 1)).drawList k = (g.atTurn slot).drawList k)
      (rests : g.plays slot = false) : ((g.behindTurns (slot.val + 1)).drawList k).toList =
        ((g.atTurn slot).drawList k).toList ++ if g.goesTo k slot then [slot.val] else [] := by
    rw [same, goesTo, rests]
    simp
  cases turn with
  | played left active typed ran placed =>
    have plays := plays_of_active active typed
    have behind : g.behindMain slot = left := congrArg Prod.snd ran
    have same := leaves slot plays k
    have goes : g.goesTo k slot = true ↔ (left.entity slot).drawOrder.toNat = k.val := by
      rw [goesTo, plays, Bool.true_and, beq_iff_eq, behind]
    rw [placed, drawList_addToDrawList, ← behind, same, behind]
    by_cases order : (left.entity slot).drawOrder.toNat = k.val
    · rw [if_pos order, if_pos (goes.2 order)]
      exact Array.toList_push ..
    · rw [if_neg order, if_neg (mt goes.1 order), List.append_nil]
  | removed outside _ emptied =>
    refine still ?_ (not_plays_of_outside outside)
    rw [emptied]
    rfl
  | passed idle _ same =>
    refine still (by rw [same]) ?_
    by_cases active : isActive (g.atTurn slot).machine.scene ((g.atTurn slot).entity slot) = true
    · rw [plays, idle active, bne_self_eq_false, Bool.and_false]
    · exact not_plays_of_outside (Bool.eq_false_iff.2 active)

/-- **The lists behind the turns of so many slots** hold those whose entities are put on them, in order. -/
theorem lists_behindTurns (done : processObjects g = (.ok (), g')) (leaves : g.MainsLeaveLists)
    (k : Fin drawListCount) {n : Nat} (inside : n ≤ entityCount) :
    ((g.behindTurns n).drawList k).toList = g.gathered k n := by
  induction n with
  | zero =>
    have empty := listsWithin_emptied g k
    rw [behindTurns, gathered, List.take_zero]
    exact List.eq_nil_of_length_eq_zero (Nat.le_zero.1 empty)
  | succ n ih =>
    have turn := turn_of_processObjects done ⟨n, inside⟩
    rw [turn.drawList leaves k, gathered_succ g k ⟨n, inside⟩]
    have before : ((g.atTurn ⟨n, inside⟩).drawList k).toList = g.gathered k n :=
      ih (Nat.le_of_succ_le inside)
    rw [before]

/-! ## Entities that are removed -/

/-- **The main sub-script of a later entity brings one back** that has been removed. -/
structure Respawns (g : Engine) (slot later : Fin entityCount) : Prop where
  behind : slot < later
  plays : g.plays later = true
  gone : ((g.atTurn later).entity slot).typeId = 0
  back : ((g.behindMain later).entity slot).typeId ≠ 0

theorem entity_modifyEntity (slot other : Fin entityCount) (change : Entity → Entity) (g : Engine) :
    (g.modifyScene (·.modifyEntity slot change)).entity other =
      if slot = other then change (g.entity slot) else g.entity other :=
  Scene.entities_modifyEntity ..

/-- A turn leaves an entity without a type as it is, unless the script that is played brings it back. -/
theorem Turn.respawns {later : Fin entityCount}
    (turn : Turn later (g.atTurn later) (g.behindTurns (later.val + 1))) (behind : slot < later)
    (gone : ((g.atTurn later).entity slot).typeId = 0) :
    ((g.behindTurns (later.val + 1)).entity slot).typeId = 0 ∨ g.Respawns slot later := by
  cases turn with
  | played left active typed ran placed =>
    have same : g.behindMain later = left := congrArg Prod.snd ran
    rw [placed, entity_addToDrawList, ← same]
    by_cases back : ((g.behindMain later).entity slot).typeId = 0
    · exact .inl back
    · exact .inr ⟨behind, plays_of_active active typed, gone, back⟩
  | removed _ _ emptied =>
    rw [emptied, entity_modifyEntity, if_neg (Fin.ne_of_gt behind)]
    exact .inl gone
  | passed _ _ same =>
    rw [same]
    exact .inl gone

/-- **An entity that has left the active area** has no type behind its turn, until it is brought back. -/
theorem removed_behindTurns (done : processObjects g = (.ok (), g'))
    (removes : isRemovedOutside ((g.atTurn slot).entity slot) = true)
    (outside : isActive (g.atTurn slot).machine.scene ((g.atTurn slot).entity slot) = false)
    {n : Nat} (behind : slot.val < n) (inside : n ≤ entityCount) :
    ((g.behindTurns n).entity slot).typeId = 0 ∨ ∃ later, g.Respawns slot later := by
  induction n with
  | zero => cases behind
  | succ n ih =>
    have turn := turn_of_processObjects done ⟨n, inside⟩
    rcases Nat.lt_succ_iff_lt_or_eq.1 behind with before | last
    · -- a later turn, which can bring the entity back
      rcases ih before (Nat.le_of_succ_le inside) with gone | back
      · rcases turn.respawns before gone with still | back
        · exact .inl still
        · exact .inr ⟨_, back⟩
      · exact .inr back
    · -- the turn is the entity's own
      obtain rfl : slot = ⟨n, inside⟩ := Fin.ext last
      cases turn with
      | played _ active =>
        rw [active] at outside
        cases outside
      | removed _ _ emptied =>
        rw [emptied, entity_modifyEntity, if_pos rfl]
        exact .inl rfl
      | passed _ stays =>
        rw [stays outside] at removes
        cases removes

/-! ## The frame -/

/-- **The draw lists behind a frame.** -/
structure Rebuilt (g g' : Engine) : Prop where
  ascending : ∀ k, (g'.drawList k).toList.Pairwise (· < ·)
  apart : ∀ j k number, number ∈ g'.drawList j → number ∈ g'.drawList k → j = k
  /-- A list holds the slots whose entities play their main sub-script and have its draw order then. -/
  members : ∀ k number, number ∈ g'.drawList k ↔ ∃ slot : Fin entityCount, slot.val = number ∧
    g.plays slot = true ∧ ((g.behindMain slot).entity slot).drawOrder.toNat = k.val
  /-- An entity that is to be removed and is out of the active area is on no list, and is gone unless a later
  one brings it back. -/
  removed : ∀ slot, ((g.atTurn slot).entity slot).priority = 4 →
    (g.atTurn slot).machine.scene.inBounds ((g.atTurn slot).entity slot) = false →
      (∀ k, slot.val ∉ g'.drawList k) ∧ ((g'.entity slot).typeId = 0 ∨ ∃ later, g.Respawns slot later)

theorem mem_gathered {k : Fin drawListCount} {number : Nat} :
    number ∈ g.gathered k entityCount ↔ ∃ slot : Fin entityCount, slot.val = number ∧
      g.plays slot = true ∧ ((g.behindMain slot).entity slot).drawOrder.toNat = k.val := by
  rw [gathered, take_entityCount_finRange, List.mem_map]
  refine exists_congr fun slot => ?_
  rw [List.mem_filter, goesTo, Bool.and_eq_true, beq_iff_eq]
  exact ⟨fun h => ⟨h.2, h.1.2⟩, fun h => ⟨⟨List.mem_finRange slot, h.2⟩, h.1⟩⟩

theorem pairwise_gathered (g : Engine) (k : Fin drawListCount) (n : Nat) :
    (g.gathered k n).Pairwise (· < ·) := by
  have slots : ((List.finRange entityCount).take n).Pairwise (· < ·) :=
    (List.pairwise_lt_finRange entityCount).sublist (List.take_sublist ..)
  exact (slots.filter (g.goesTo k)).map Fin.val fun a b => id

/-- **A frame makes the draw lists anew.** Where all turns succeed and no main sub-script that is played
touches the lists, each list holds in ascending order the slots whose entities were active and of a type when
their turn came and had its draw order behind their script. -/
theorem processObjects_rebuilds (done : processObjects g = (.ok (), g')) (leaves : g.MainsLeaveLists) :
    g.Rebuilt g' := by
  have lists (k : Fin drawListCount) : (g'.drawList k).toList = g.gathered k entityCount := by
    rw [← behindTurns_entityCount done, lists_behindTurns done leaves k (Nat.le_refl _)]
  have members (k : Fin drawListCount) (number : Nat) : number ∈ g'.drawList k ↔
      ∃ slot : Fin entityCount, slot.val = number ∧ g.plays slot = true ∧
        ((g.behindMain slot).entity slot).drawOrder.toNat = k.val := by
    rw [← Array.mem_toList_iff, lists, mem_gathered]
  refine ⟨fun k => ?_, fun j k number first second => ?_, members, fun slot removes outside => ?_⟩
  · rw [lists]
    exact pairwise_gathered g k entityCount
  · -- an entity has one draw order behind its script, and goes to the list of that
    obtain ⟨slot, rfl, -, order⟩ := (members j number).1 first
    obtain ⟨other, same, -, order'⟩ := (members k _).1 second
    rw [Fin.ext same] at order'
    exact Fin.ext (order.symm.trans order')
  · have outside : isActive (g.atTurn slot).machine.scene ((g.atTurn slot).entity slot) = false := by
      rw [isActive, removes]
      exact outside
    have removes : isRemovedOutside ((g.atTurn slot).entity slot) = true := decide_eq_true removes
    refine ⟨fun k member => ?_, ?_⟩
    · obtain ⟨other, same, plays, -⟩ := (members k _).1 member
      rw [Fin.ext same, not_plays_of_outside outside] at plays
      cases plays
    · rw [← behindTurns_entityCount done]
      exact removed_behindTurns done removes outside slot.isLt (Nat.le_refl _)

theorem leavesLists_idleProgram : idleProgram.LeavesLists := by
  intro type entry object m found
  rw [eq_of_entryPoint?_idleProgram found, (run_idleProgram _ m).1]

theorem entryPoint?_idleProgram : idleProgram.entryPoint? 1 .main = some ⟨0, 0⟩ := by
  rw [Program.entryPoint?, idleProgram, Vector.getElem?_setIfInBounds_self_of_lt (by decide)]
  rfl

/-- Where the other slots are empty, an object in the last slot plays its script, which does nothing. -/
theorem plays_scratchSlot (scripts : g.program = idleProgram) (unlimited : g.machine.stepLimit = none)
    (blank : ∀ slot, slot ≠ scratchSlot →
      (g.entity slot).typeId = 0 ∧ isRemovedOutside (g.entity slot) = false)
    (active : isActive g.emptied.machine.scene (g.entity scratchSlot) = true)
    (typed : (g.entity scratchSlot).typeId = 1) :
    (processObjects g).1 = .ok () ∧ g.plays scratchSlot = true ∧
      (g.behindMain scratchSlot).entity scratchSlot = g.entity scratchSlot := by
  obtain ⟨others, slots, before⟩ := exists_slots
  have still : ∀ slot ∈ others, processObject slot g.emptied = (.ok (), g.emptied) := by
    intro slot member
    have empty := blank slot (before slot member)
    exact processObject_of_blank empty.1 empty.2
  have entry : g.emptied.entryPoint? scratchSlot.val .main = some ⟨0, 0⟩ := by
    show g.program.entryPoint? (g.entity scratchSlot).typeId.toNat .main = _
    rw [scripts, typed]
    exact entryPoint?_idleProgram
  have active : isActive g.emptied.machine.scene (g.emptied.entity scratchSlot) = true := active
  have some : (g.emptied.entity scratchSlot).typeId ≠ 0 := by
    show (g.entity scratchSlot).typeId ≠ 0
    rw [typed]
    decide
  have played : ∃ left, processScript scratchSlot.val .main g.emptied = (.ok (), left) ∧
      left.machine.scene = g.emptied.machine.scene := by
    obtain ⟨scene, ends⟩ := run_idleProgram ⟨scratchSlot.val, .main⟩ { g.emptied.machine with steps := 0 }
    have room : 0 < ({ g.emptied.machine with steps := 0 } : Machine).budget := by
      have limit : g.emptied.machine.stepLimit = none := unlimited
      rw [Machine.budget, limit]
      decide
    rw [← scripts] at scene ends
    refine ⟨{ g.emptied with machine := _ }, ?_, scene⟩
    rw [processScript_of_entry entry]
    exact runBody_of_ok (Prod.ext (ends room) rfl)
  obtain ⟨left, played, scene⟩ := played
  -- the slots in front are empty, so the last one finds what the frame began with
  have turn : g.atTurn scratchSlot = g.emptied := by
    have front : (List.finRange entityCount).take scratchSlot.val = others ++ [] := by
      have length := congrArg List.length slots
      rw [List.length_finRange, List.length_append, List.length_singleton] at length
      have others : others.length = scratchSlot.val := by
        show _ = entityCount - 1
        omega
      rw [slots, List.append_nil]
      exact List.take_left' others
    rw [atTurn, behindTurns, front, forM_append_of_still still]
    rfl
  refine ⟨?_, ?_, ?_⟩
  · rw [processObjects_apply, slots, forM_append_of_still still]
    show ((processObject scratchSlot >>= fun _ => pure ()) g.emptied).1 = _
    rw [bind_apply_of_ok (processObject_of_active active some played)]
    rfl
  · exact plays_of_active (turn ▸ active) (turn ▸ some)
  · rw [behindMain, turn, played, entity, scene]
    rfl

/-- An engine in which the last slot alone has an object, which is always active. -/
def lastActive : Engine :=
  (holding idleProgram).modifyScene
    (·.modifyEntity scratchSlot fun e => { e with typeId := 1, priority := 1 })

theorem entity_holding (p : Program) (slot : Fin entityCount) : (holding p).entity slot = {} := by
  show (Vector.replicate entityCount ({} : Entity)).get slot = {}
  rw [get_eq_getElem, Vector.getElem_replicate]

theorem entity_lastActive (slot : Fin entityCount) : lastActive.entity slot =
    if scratchSlot = slot then { typeId := 1, priority := 1 } else {} := by
  unfold lastActive
  rw [entity_modifyEntity, entity_holding, entity_holding]

/-- That object goes to the list of its draw order. -/
theorem processObjects_rebuilds_lastActive : ∃ g', processObjects lastActive = (.ok (), g') ∧
    lastActive.MainsLeaveLists ∧ 1183 ∈ g'.drawList fourth := by
  have last := entity_lastActive scratchSlot
  rw [if_pos rfl] at last
  have blank (slot : Fin entityCount) (other : slot ≠ scratchSlot) :
      (lastActive.entity slot).typeId = 0 ∧ isRemovedOutside (lastActive.entity slot) = false := by
    rw [entity_lastActive, if_neg (Ne.symm other)]
    exact ⟨rfl, by decide⟩
  have always (s : Scene) : isActive s { typeId := 1, priority := 1 } = true := rfl
  have active : isActive lastActive.emptied.machine.scene (lastActive.entity scratchSlot) = true := by
    rw [last]
    exact always _
  have typed : (lastActive.entity scratchSlot).typeId = 1 := by rw [last]
  obtain ⟨done, plays, same⟩ := plays_scratchSlot (g := lastActive) rfl rfl blank active typed
  have leaves : lastActive.MainsLeaveLists := mainsLeaveLists_of_program leavesLists_idleProgram
  rcases ran : processObjects lastActive with ⟨answer, g'⟩
  rw [ran] at done
  obtain rfl : answer = .ok () := done
  refine ⟨g', rfl, leaves, ?_⟩
  refine ((processObjects_rebuilds ran leaves).members fourth 1183).2 ⟨scratchSlot, rfl, plays, ?_⟩
  rw [same, last]
  rfl

end Engine

end StageScript
