import StageScript.Proofs.Compiler.Placement
import StageScript.Proofs.Machine.Amid

/-! # Steps at statements
What the machine does at the instructions of a statement, where the statement stands in a body.
* **`Statement.Fills`** and **`Program.Links`** — what a body says, and what the functions say;
* **`BodyRecord.Stands.target_eq`** — the slots of a block lead to where its record says;
* **`BodyRecord.Stands.leads_test`** and its companions — a step at an instruction does what the
  statement says. -/

namespace StageScript

open Stepwise Statement

/-- A position in a body. -/
def BodyRecord.position (r : BodyRecord) (offset : Nat) : Position :=
  ⟨r.entry.code + offset, r.entry.code, r.entry.jump⟩

/-- **A statement is what a body says**: the body stands in the program, and the statement in the
body, from its first instruction to the one that closes it. -/
def Statement.Fills (p : Program) (closer : Opcode) (entry : EntryPoint) (s : Statement) : Prop :=
  ∃ (r : BodyRecord) (is : List Instruction), r.entry = entry ∧ r.Stands p is ∧
    s.Sits is r.blocks r.entry.code none 0 ∧ ⟨r.entry.code + s.length, closer, []⟩ ∈ is

/-- The functions of a program have bodies that say what the statements say. -/
def Program.Links (p : Program) (bodies : Nat → Option Statement) : Prop :=
  ∀ index, Option.Rel (Statement.Fills p (.control .endFunction))
    (p.functions[index]?.bind (·.entry)) (bodies index)

theorem Program.Links.rel {p : Program} {bodies : Nat → Option Statement} (h : p.Links bodies)
    (w : Word) :
    Option.Rel (Statement.Fills p (.control .endFunction))
      ((w.index?.bind (p.functions[·]?)).bind (·.entry)) (w.index?.bind bodies) := by
  cases w.index? with
  | none => exact .none
  | some index => exact h index

/-- Each instruction of a chain stands in its place. -/
theorem Chain.stands {code : Array Word} {start stop : Nat} {is : List Instruction}
    (h : Chain code start is stop) {i : Instruction} (member : i ∈ is) :
    Instruction.Stands code i.offset i.opcode i.arguments
      (i.offset + width i.opcode i.arguments) := by
  induction h with
  | nil => cases member
  | cons first _ ih =>
    rcases List.mem_cons.1 member with rfl | behind
    · have place := first.behind
      rw [place] at first
      exact first
    · exact ih behind

namespace BodyRecord.Stands

variable {r : BodyRecord} {p : Program} {is : List Instruction} {activation : Activation}
  {m m' : Machine} {branches : List Word} {calls : List Position} {k o : Nat} {op : Opcode}
  {arguments : List Argument}

/-! ## Instructions in their places -/

theorem decode_eq (h : r.Stands p is) (member : ⟨r.entry.code + o, op, arguments⟩ ∈ is) :
    Instruction.decode p.code (r.position o).pointer =
      .ok (⟨r.entry.code + o, op, arguments⟩, (r.position (o + width op arguments)).pointer) := by
  have stands := (h.chain.stands member).decode_eq
  rwa [Nat.add_assoc] at stands

theorem step_eq (h : r.Stands p is) (member : ⟨r.entry.code + o, op, arguments⟩ ∈ is) :
    step p activation (r.position o) =
      Instruction.execute p activation (r.position (o + width op arguments))
        ⟨r.entry.code + o, op, arguments⟩ :=
  step_eq_execute (h.decode_eq member)

theorem actions_of_data (h : r.Stands p is) (member : ⟨r.entry.code + o, op, arguments⟩ ∈ is)
    (data : op.isControl = false) : p.actions (r.position o) = [⟨op, arguments⟩] := by
  rw [Program.actions, h.decode_eq member]
  dsimp only
  rw [data]
  rfl

theorem actions_of_control (h : r.Stands p is) (member : ⟨r.entry.code + o, op, arguments⟩ ∈ is)
    (control : op.isControl = true) : p.actions (r.position o) = [] := by
  rw [Program.actions, h.decode_eq member]
  dsimp only
  rw [control]
  rfl

/-- **An instruction on data** is carried out, and the run goes on behind it. -/
theorem leads_act (h : r.Stands p is) (member : ⟨r.entry.code + o, op, arguments⟩ ∈ is)
    (data : op.isControl = false)
    (did : Instruction.act activation ⟨0, op, arguments⟩ m = (.ok (), m')) :
    Leads p activation 1 (r.position o) (m.amid branches calls k) [⟨op, arguments⟩]
      (r.position (o + width op arguments)) (m'.amid branches calls (k + 1)) := by
  have done : Instruction.act activation ⟨r.entry.code + o, op, arguments⟩
      (m.amid branches calls (k + 1)) = (.ok (), m'.amid branches calls (k + 1)) :=
    (Instruction.local_act activation ⟨0, op, arguments⟩).amid did branches calls (k + 1)
  rw [← h.actions_of_data member data]
  apply leads_of_step
  rw [h.step_eq member, Instruction.execute_of_not_isControl data, Machine.counted_amid,
    seqRight_apply, done]
  rfl

theorem ends_act {fault : Fault} (h : r.Stands p is)
    (member : ⟨r.entry.code + o, op, arguments⟩ ∈ is) (data : op.isControl = false)
    (failed : Instruction.act activation ⟨0, op, arguments⟩ m = (.error fault, m')) :
    Ends p activation 1 (r.position o) (m.amid branches calls k)
      ⟨[⟨op, arguments⟩], .error fault, m'.amid branches calls (k + 1)⟩ := by
  have done : Instruction.act activation ⟨r.entry.code + o, op, arguments⟩
      (m.amid branches calls (k + 1)) = (.error fault, m'.amid branches calls (k + 1)) :=
    (Instruction.local_act activation ⟨0, op, arguments⟩).amid failed branches calls (k + 1)
  rw [← h.actions_of_data member data]
  apply ends_of_failed
  rw [h.step_eq member, Instruction.execute_of_not_isControl data, Machine.counted_amid,
    seqRight_apply, done]

/-- **A control instruction** loads its arguments and goes on where they say. -/
theorem leads_ask {α : Type} {x : α} {answer : Operands → Except Fault α} {there : Position}
    {behind : Machine} (h : r.Stands p is) (member : ⟨r.entry.code + o, op, arguments⟩ ∈ is)
    (control : op.isControl = true) (asked : ask activation.object arguments answer m = (.ok x, m'))
    (performed : loadArguments activation.object arguments 0 m = (.ok (), m') →
      answer m'.registers.operands = .ok x →
      op.perform p activation (r.position (o + width op arguments)) (m'.amid branches calls (k + 1)) =
        (.ok (some there), behind)) :
    Leads p activation 1 (r.position o) (m.amid branches calls k) [] there behind := by
  obtain ⟨fault, no, -⟩ | ⟨load, answered⟩ := exists_of_ask asked
  · cases no
  · rw [← h.actions_of_control member control]
    apply leads_of_step
    rw [h.step_eq member, Instruction.execute_of_isControl control, Machine.counted_amid]
    rw [bind_apply_of_ok ((local_loadArguments _ _ _).amid load branches calls (k + 1))]
    exact performed load answered

theorem ends_ask {α : Type} {fault : Fault} {answer : Operands → Except Fault α}
    (h : r.Stands p is) (member : ⟨r.entry.code + o, op, arguments⟩ ∈ is)
    (control : op.isControl = true)
    (asked : ask activation.object arguments answer m = (.error fault, m'))
    (performed : loadArguments activation.object arguments 0 m = (.ok (), m') →
      answer m'.registers.operands = .error fault →
      op.perform p activation (r.position (o + width op arguments)) (m'.amid branches calls (k + 1)) =
        (.error fault, m'.amid branches calls (k + 1))) :
    Ends p activation 1 (r.position o) (m.amid branches calls k)
      ⟨[], .error fault, m'.amid branches calls (k + 1)⟩ := by
  rw [← h.actions_of_control member control]
  apply ends_of_failed
  rw [h.step_eq member, Instruction.execute_of_isControl control, Machine.counted_amid]
  obtain ⟨_, same, load⟩ | ⟨load, answered⟩ := exists_of_ask asked
  · cases same
    exact bind_apply_of_error ((local_loadArguments _ _ _).amid load branches calls (k + 1))
  · rw [bind_apply_of_ok ((local_loadArguments _ _ _).amid load branches calls (k + 1))]
    exact performed load answered

/-- A control instruction without arguments goes on at once. -/
theorem leads_bare {there : Position} {behind : Machine} (h : r.Stands p is)
    (member : ⟨r.entry.code + o, op, []⟩ ∈ is) (control : op.isControl = true)
    (performed : op.perform p activation (r.position (o + 1)) (m.amid branches calls (k + 1)) =
      (.ok (some there), behind)) :
    Leads p activation 1 (r.position o) (m.amid branches calls k) [] there behind :=
  have asked : ask activation.object [] (fun _ => Except.ok ()) m = (.ok (), m) := rfl
  h.leads_ask member control asked fun _ _ => performed

/-! ## Slots of blocks -/

section

variable {b : BlockRecord} {target stop : Nat}

/-- **The slots of a block** lead to the places in the body that they name. -/
theorem target_eq (h : r.Stands p is) (member : b ∈ r.blocks) (inside : k < b.size)
    (word : b.words[k]? = some (Word.ofNat target))
    (boundary : Boundary is r.entry.code (r.stop.code - 1) target) (here : Nat) :
    Jump.target p (r.position here) (Word.ofNat b.slot) k = .ok (r.position target) := by
  obtain ⟨i, within, place⟩ := h.exists_of_boundary boundary
  have bounds := h.chain.bounds i within
  have room := h.room
  exact Jump.target_of_getElem? (h.ranged b member).near (by omega)
    ((h.word member inside).trans word)

/-- The slot for what stands behind a block. -/
theorem target_behind (h : r.Stands p is) (member : b ∈ r.blocks) (inside : k < b.size)
    (closing : b.closing = some stop) (word : b.words[k]? = some b.behindWord) (here : Nat) :
    Jump.target p (r.position here) (Word.ofNat b.slot) k = .ok (r.position (stop + 1)) := by
  rw [BlockRecord.behindWord, closing] at word
  exact h.target_eq member inside word ((h.placed b member).closing stop closing).2.2 here

/-- The slot for where an `if` goes on whose test fails. -/
theorem target_fallback (h : r.Stands p is) (member : b ∈ r.blocks) (kind : b.kind = .ifBlock)
    (closing : b.closing = some stop)
    (other : (elseOffset? b.marks).or (some stop) = some target) (here : Nat) :
    Jump.target p (r.position here) (Word.ofNat b.slot) 0 = .ok (r.position target) := by
  have placed := h.placed b member
  -- With an `else` the target is a mark of the block, without one the instruction that closes it.
  have boundary : Boundary is r.entry.code (r.stop.code - 1) target := by
    cases mark : elseOffset? b.marks with
    | some offset =>
      rw [mark] at other
      cases other
      obtain ⟨m, inside, rfl⟩ := exists_mark_of_elseOffset? mark
      exact (placed.marks m inside).2
    | none =>
      rw [mark] at other
      cases other
      obtain ⟨-, ⟨i, inside, place, -⟩, -⟩ := placed.closing _ closing
      exact .inr ⟨i, inside, place⟩
  have size : 0 < b.size := by
    rw [BlockRecord.size, kind]
    exact Nat.zero_lt_two
  refine h.target_eq (k := 0) member size ?_ boundary here
  rw [BlockRecord.words_if kind, BlockRecord.fallback?, closing, other]
  rfl

end

/-! ## Blocks -/

section

variable {block stop target : Nat} {marks : List Mark} {comparison : Comparison} {a b : Argument}
  {fault : Fault} {holds : Bool}

/-- **A test of a branch** opens the block and leads to the part that is chosen. -/
theorem leads_test (calls : List Position) (k : Nat) (h : r.Stands p is)
    (member : ⟨r.entry.code + o, .ifTest comparison, testArguments block a b⟩ ∈ is)
    (opens : HasBlock r.blocks .ifBlock block o marks stop)
    (other : (elseOffset? marks).or (some stop) = some target)
    (tested : test activation.object branches.length block comparison a b m = (.ok holds, m')) :
    Leads p activation 1 (r.position o) (m.amid branches calls k) []
      (r.position (if holds then o + width (.ifTest comparison) (testArguments block a b)
        else target))
      (m'.amid (Word.ofNat block :: branches) calls (k + 1)) := by
  obtain ⟨record, inside, kind, rfl, -, rfl, closing⟩ := opens
  refine h.leads_ask member rfl tested fun load answered => ?_
  by_cases full : branchDepthLimit ≤ branches.length
  · rw [if_pos full] at answered
    cases answered
  · rw [if_neg full] at answered
    cases answered
    show (some <$> comparison.performIf p _ : Exec _) _ = _
    rw [map_apply, comparison.performIf_amid p _ calls _ (Nat.lt_of_not_le full)
      (operand_zero (by simp) load)]
    split
    · rfl
    · rw [h.target_fallback inside kind closing other]
      rfl

theorem ends_test (h : r.Stands p is)
    (member : ⟨r.entry.code + o, .ifTest comparison, testArguments block a b⟩ ∈ is)
    (failed : test activation.object branches.length block comparison a b m = (.error fault, m')) :
    Ends p activation 1 (r.position o) (m.amid branches calls k)
      ⟨[], .error fault, m'.amid branches calls (k + 1)⟩ := by
  refine h.ends_ask member rfl failed fun _ answered => ?_
  by_cases full : branchDepthLimit ≤ branches.length
  · rw [if_pos full] at answered
    cases answered
    show (some <$> comparison.performIf p _ : Exec _) _ = _
    rw [map_apply, comparison.performIf_of_full p _ calls _ full]
    rfl
  · rw [if_neg full] at answered
    cases answered

/-- **A test of a loop** that holds opens the block and leads to the part that is repeated. -/
theorem leads_again (calls : List Position) (k : Nat) (h : r.Stands p is)
    (member : ⟨r.entry.code + o, .whileTest comparison, testArguments block a b⟩ ∈ is)
    (tested : again activation.object branches.length block comparison a b m = (.ok true, m')) :
    Leads p activation 1 (r.position o) (m.amid branches calls k) []
      (r.position (o + width (.whileTest comparison) (testArguments block a b)))
      (m'.amid (Word.ofNat block :: branches) calls (k + 1)) := by
  refine h.leads_ask member rfl tested fun load answered => ?_
  by_cases holds : comparison.holds m'.registers.operands[1] m'.registers.operands[2] = true
  · rw [if_pos holds] at answered
    by_cases full : branchDepthLimit ≤ branches.length
    · rw [if_pos full] at answered
      cases answered
    · show (some <$> comparison.performWhile p _ : Exec _) _ = _
      rw [map_apply, comparison.performWhile_amid p _ calls _ (Nat.lt_of_not_le full)
        (operand_zero (by simp) load) holds]
      rfl
  · rw [if_neg holds] at answered
    cases answered

/-- **A test of a loop** that fails leads behind the loop and opens nothing. -/
theorem leads_finished (h : r.Stands p is)
    (member : ⟨r.entry.code + o, .whileTest comparison, testArguments block a b⟩ ∈ is)
    (opens : HasBlock r.blocks .whileBlock block o marks stop)
    (tested : again activation.object branches.length block comparison a b m = (.ok false, m')) :
    Leads p activation 1 (r.position o) (m.amid branches calls k) [] (r.position (stop + 1))
      (m'.amid branches calls (k + 1)) := by
  obtain ⟨record, inside, kind, rfl, -, -, closing⟩ := opens
  refine h.leads_ask member rfl tested fun load answered => ?_
  by_cases holds : comparison.holds m'.registers.operands[1] m'.registers.operands[2] = true
  · rw [if_pos holds] at answered
    by_cases full : branchDepthLimit ≤ branches.length
    · rw [if_pos full] at answered
      cases answered
    · rw [if_neg full] at answered
      cases answered
  · have size : 1 < record.size := by
      rw [BlockRecord.size, kind]
      exact Nat.one_lt_two
    have behind := h.target_behind (k := 1) inside size closing
      (by rw [BlockRecord.words_while kind]; rfl)
    show (some <$> comparison.performWhile p _ : Exec _) _ = _
    rw [map_apply, comparison.performWhile_of_fails p _ calls _ (operand_zero (by simp) load) holds]
    exact congrArg (fun target => (Except.map some target, _)) (behind _)

theorem ends_again (h : r.Stands p is)
    (member : ⟨r.entry.code + o, .whileTest comparison, testArguments block a b⟩ ∈ is)
    (failed : again activation.object branches.length block comparison a b m = (.error fault, m')) :
    Ends p activation 1 (r.position o) (m.amid branches calls k)
      ⟨[], .error fault, m'.amid branches calls (k + 1)⟩ := by
  refine h.ends_ask member rfl failed fun _ answered => ?_
  by_cases holds : comparison.holds m'.registers.operands[1] m'.registers.operands[2] = true
  · rw [if_pos holds] at answered
    by_cases full : branchDepthLimit ≤ branches.length
    · rw [if_pos full] at answered
      cases answered
      show (some <$> comparison.performWhile p _ : Exec _) _ = _
      rw [map_apply, comparison.performWhile_of_full p _ calls _ full holds]
      rfl
    · rw [if_neg full] at answered
      cases answered
  · rw [if_neg holds] at answered
    cases answered

/-- **A switch** opens its block and leads to where its record says. -/
theorem leads_select {value : Word} (calls : List Position) (k : Nat) (h : r.Stands p is)
    (member : ⟨r.entry.code + o, .control .switch, switchArguments block a⟩ ∈ is)
    {record : BlockRecord} (inside : record ∈ r.blocks) (kind : record.kind = .switchBlock)
    (number : record.slot = block) (destination : record.destination value = some target)
    (selected : select activation.object branches.length block a m = (.ok value, m')) :
    Leads p activation 1 (r.position o) (m.amid branches calls k) [] (r.position target)
      (m'.amid (Word.ofNat block :: branches) calls (k + 1)) := by
  subst number
  refine h.leads_ask member rfl selected fun load answered => ?_
  by_cases full : branchDepthLimit ≤ branches.length
  · rw [if_pos full] at answered
    cases answered
  · rw [if_neg full] at answered
    cases answered
    have slot := operand_zero (by simp) load
    obtain ⟨target', found, entered⟩ := h.performSwitch_apply inside kind
      (m := m'.amid branches calls (k + 1)) (r.position (o + width _ _)).pointer
      slot (Nat.lt_of_not_le full)
    have same : target' = target := Option.some.inj (found.symm.trans destination)
    subst same
    show (some <$> Control.performSwitch p _ : Exec _) _ = _
    rw [map_apply]
    exact congrArg (fun x : _ × Machine => (x.1.map some, x.2)) entered

theorem ends_select (h : r.Stands p is)
    (member : ⟨r.entry.code + o, .control .switch, switchArguments block a⟩ ∈ is)
    (failed : select activation.object branches.length block a m = (.error fault, m')) :
    Ends p activation 1 (r.position o) (m.amid branches calls k)
      ⟨[], .error fault, m'.amid branches calls (k + 1)⟩ := by
  refine h.ends_ask member rfl failed fun _ answered => ?_
  by_cases full : branchDepthLimit ≤ branches.length
  · rw [if_pos full] at answered
    cases answered
    show (some <$> Control.performSwitch p _ : Exec _) _ = _
    rw [map_apply, Control.performSwitch, bind_apply, operands_apply]
    dsimp only
    rw [bind_apply_of_error ((pushBranch_apply _ _).trans (if_neg (Nat.not_lt_of_le full)))]
    rfl
  · rw [if_neg full] at answered
    cases answered

/-! ## Lines that divide and close blocks -/

/-- A line that closes a block leads behind itself, and so does one that divides an `if`. -/
theorem leads_endIf (h : r.Stands p is) (member : ⟨r.entry.code + o, .control .endIf, []⟩ ∈ is)
    (w : Word) :
    Leads p activation 1 (r.position o) (m.amid (w :: branches) calls k) [] (r.position (o + 1))
      (m.amid branches calls (k + 1)) :=
  h.leads_bare member rfl rfl

theorem leads_endSwitch (h : r.Stands p is)
    (member : ⟨r.entry.code + o, .control .endSwitch, []⟩ ∈ is) (w : Word) :
    Leads p activation 1 (r.position o) (m.amid (w :: branches) calls k) [] (r.position (o + 1))
      (m.amid branches calls (k + 1)) :=
  h.leads_bare member rfl rfl

/-- **An `else`** that is reached leads behind the block. -/
theorem leads_elseBranch (h : r.Stands p is)
    (member : ⟨r.entry.code + o, .control .elseBranch, []⟩ ∈ is) {first : Nat}
    (opens : HasBlock r.blocks .ifBlock block first marks stop) :
    Leads p activation 1 (r.position o) (m.amid (Word.ofNat block :: branches) calls k) []
      (r.position (stop + 1)) (m.amid branches calls (k + 1)) := by
  obtain ⟨record, inside, kind, rfl, -, -, closing⟩ := opens
  have size : 1 < record.size := by
    rw [BlockRecord.size, kind]
    exact Nat.one_lt_two
  have behind := h.target_behind (k := 1) inside size closing
    (by rw [BlockRecord.words_if kind]; rfl) (o + 1)
  exact h.leads_bare member rfl (popBranch_jump behind)

/-- **The end of a loop** leads to its test. -/
theorem leads_loop (h : r.Stands p is) (member : ⟨r.entry.code + o, .control .loop, []⟩ ∈ is)
    {first : Nat} (opens : HasBlock r.blocks .whileBlock block first marks stop) :
    Leads p activation 1 (r.position o) (m.amid (Word.ofNat block :: branches) calls k) []
      (r.position first) (m.amid branches calls (k + 1)) := by
  obtain ⟨record, inside, kind, rfl, rfl, -, closing⟩ := opens
  have size : 0 < record.size := by
    rw [BlockRecord.size, kind]
    exact Nat.zero_lt_two
  obtain ⟨i, within, place, -⟩ := (h.placed record inside).opening
  have back := h.target_eq (k := 0) inside size (by rw [BlockRecord.words_while kind]; rfl)
    (.inr ⟨i, within, place⟩) (o + 1)
  exact h.leads_bare member rfl (popBranch_jump back)

/-- **A `break`** leads behind the switch. -/
theorem leads_leave (h : r.Stands p is) (member : ⟨r.entry.code + o, .control .leave, []⟩ ∈ is)
    {first : Nat} (opens : HasBlock r.blocks .switchBlock block first marks stop) :
    Leads p activation 1 (r.position o) (m.amid (Word.ofNat block :: branches) calls k) []
      (r.position (stop + 1)) (m.amid branches calls (k + 1)) := by
  obtain ⟨record, inside, kind, rfl, -, -, closing⟩ := opens
  have size : 3 < record.size := by
    rw [BlockRecord.size, kind]
    exact Nat.lt_of_lt_of_le (by decide) (Nat.le_add_right 4 _)
  have behind := h.target_behind (k := 3) inside size closing
    (by rw [BlockRecord.words_switch kind]; rfl) (o + 1)
  exact h.leads_bare member rfl (popBranch_jump behind)

end

/-! ## Calls -/

section

variable {bodies : Nat → Option Statement} {function : Argument} {body : Statement} {fault : Fault}

/-- **A call** leads to the beginning of the body of the function, and will go on behind itself. -/
theorem leads_enter (branches : List Word) (k : Nat) (h : r.Stands p is) (links : p.Links bodies)
    (member : ⟨r.entry.code + o, .control .callFunction, [function]⟩ ∈ is)
    (entered : enter bodies activation.object calls.length function m = (.ok body, m')) :
    ∃ entry, body.Fills p (.control .endFunction) entry ∧
      Leads p activation 1 (r.position o) (m.amid branches calls k) [] (.ofEntry entry)
        (m'.amid branches (r.position (o + width (.control .callFunction) [function]) :: calls)
          (k + 1)) := by
  obtain ⟨_, no, -⟩ | ⟨load, answered⟩ := exists_of_ask entered
  · cases no
  have rel := links.rel m'.registers.operands[0]
  -- A number that means a body of the statement means a function of the program, and the other way
  -- round.
  cases body? : m'.registers.operands[0].index?.bind bodies with
  | none =>
    rw [body?] at answered
    cases answered
  | some body' =>
    rw [body?] at answered rel
    dsimp only at answered
    by_cases full : callDepthLimit ≤ calls.length
    · rw [if_pos full] at answered
      cases answered
    rw [if_neg full] at answered
    cases answered
    cases known : (m'.registers.operands[0].index?.bind (p.functions[·]?)).bind (·.entry) with
    | none =>
      rw [known] at rel
      cases rel
    | some entry =>
      rw [known] at rel
      obtain ⟨fills⟩ := rel
      refine ⟨entry, fills, h.leads_ask member rfl entered fun _ _ => ?_⟩
      exact callFunction_amid _ _ _ known (Nat.lt_of_not_le full)

theorem ends_enter (h : r.Stands p is) (links : p.Links bodies)
    (member : ⟨r.entry.code + o, .control .callFunction, [function]⟩ ∈ is)
    (failed : enter bodies activation.object calls.length function m = (.error fault, m')) :
    Ends p activation 1 (r.position o) (m.amid branches calls k)
      ⟨[], .error fault, m'.amid branches calls (k + 1)⟩ := by
  refine h.ends_ask member rfl failed fun _ answered => ?_
  have rel := links.rel m'.registers.operands[0]
  cases known : (m'.registers.operands[0].index?.bind (p.functions[·]?)).bind (·.entry) with
  | none =>
    rw [known] at rel
    generalize m'.registers.operands[0].index?.bind bodies = body? at rel answered
    cases rel
    cases answered
    exact callFunction_of_none _ _ _ known
  | some entry =>
    rw [known] at rel
    generalize m'.registers.operands[0].index?.bind bodies = body? at rel answered
    cases rel
    dsimp only at answered
    by_cases full : callDepthLimit ≤ calls.length
    · rw [if_pos full] at answered
      cases answered
      exact callFunction_of_full _ _ _ known full
    · rw [if_neg full] at answered
      cases answered

end

/-! ## Ends of bodies -/

/-- The end of a function leads to where the call goes on. -/
theorem leads_endFunction (h : r.Stands p is)
    (member : ⟨r.entry.code + o, .control .endFunction, []⟩ ∈ is) (back : Position) :
    Leads p activation 1 (r.position o) (m.amid branches (back :: calls) k) [] back
      (m.amid branches calls (k + 1)) :=
  h.leads_bare member rfl rfl

/-- The end of a sub-script ends the run. -/
theorem ends_stop (h : r.Stands p is) (member : ⟨r.entry.code + o, .control .stop, []⟩ ∈ is) :
    Ends p activation 1 (r.position o) (m.amid branches calls k)
      ⟨[], .ok (), m.amid branches calls (k + 1)⟩ := by
  rw [← h.actions_of_control member rfl]
  apply ends_of_step
  rw [h.step_eq member, Instruction.execute_of_isControl rfl, Machine.counted_amid]
  rfl

end BodyRecord.Stands

end StageScript
