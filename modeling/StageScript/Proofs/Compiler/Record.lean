import StageScript.Proofs.Compiler.Block
import StageScript.Proofs.Compiler.Body
import StageScript.Proofs.Compiler.Step
import StageScript.Proofs.Program.Chain

/-! # The record of a body
The lines of a body say which blocks it has, and what they say decides its jump table.
* **`Compiler.record`** — the blocks of a body behind a line, as far as the line says;
* **`Laid`** — the code of the open body is a chain of instructions, and its slots hold the words of
  its blocks;
* **`Laid.stated`**, **`Laid.primed`** — every line of a body keeps this up. -/

namespace StageScript

/-! ## Blocks of a body -/

/-- The words of the slots of blocks, the latest of which is the first of the list. -/
def bodyWords : List BlockRecord → List Word
  | [] => []
  | b :: earlier => bodyWords earlier ++ b.words

/-- The blocks that are open, innermost first, in a body whose slots begin at `start`. -/
def openBlocks (start : Nat) : List BlockRecord → List Block
  | [] => []
  | b :: earlier =>
    match b.closing with
    | none => ⟨b.kind, start + b.slot⟩ :: openBlocks start earlier
    | some _ => openBlocks start earlier

/-- The headers of the switches of a body, in the order in which they were opened. -/
def headers (start : Nat) : List BlockRecord → List Nat
  | [] => []
  | b :: earlier => headers start earlier ++ if b.kind = .switchBlock then [start + b.slot] else []

/-- Changes what is known of the innermost block that is open. -/
def onInnermost (change : BlockRecord → BlockRecord) : List BlockRecord → List BlockRecord
  | [] => []
  | b :: earlier =>
    match b.closing with
    | none => change b :: earlier
    | some _ => b :: onInnermost change earlier

/-- The slots of each block begin behind those of the blocks in front of it. -/
def Slotted : List BlockRecord → Prop
  | [] => True
  | b :: earlier => b.slot = (bodyWords earlier).length ∧ Slotted earlier

section

variable {later earlier bs : List BlockRecord} {b b' : BlockRecord} {start : Nat}

theorem bodyWords_append (later bs : List BlockRecord) :
    bodyWords (later ++ bs) = bodyWords bs ++ bodyWords later := by
  induction later with
  | nil => exact (List.append_nil _).symm
  | cons b later ih => rw [List.cons_append, bodyWords, ih, bodyWords, List.append_assoc]

theorem headers_append (start : Nat) (later bs : List BlockRecord) :
    headers start (later ++ bs) = headers start bs ++ headers start later := by
  induction later with
  | nil => exact (List.append_nil _).symm
  | cons b later ih => rw [List.cons_append, headers, ih, headers, List.append_assoc]

theorem openBlocks_append (closed : ∀ b ∈ later, b.closing ≠ none) (bs : List BlockRecord) :
    openBlocks start (later ++ bs) = openBlocks start bs := by
  induction later with
  | nil => rfl
  | cons b later ih =>
    obtain ⟨first, others⟩ := List.forall_mem_cons.1 closed
    obtain ⟨offset, some⟩ := Option.ne_none_iff_exists'.1 first
    rw [List.cons_append, openBlocks, some]
    exact ih others

theorem onInnermost_append (closed : ∀ b ∈ later, b.closing ≠ none) (opened : b.closing = none)
    (change : BlockRecord → BlockRecord) :
    onInnermost change (later ++ b :: earlier) = later ++ change b :: earlier := by
  induction later with
  | nil =>
    rw [List.nil_append, List.nil_append, onInnermost, opened]
  | cons b' later ih =>
    obtain ⟨first, others⟩ := List.forall_mem_cons.1 closed
    obtain ⟨offset, some⟩ := Option.ne_none_iff_exists'.1 first
    rw [List.cons_append, onInnermost, some, List.cons_append]
    exact congrArg _ (ih others)

theorem onInnermost_id (bs : List BlockRecord) : onInnermost (fun b => b) bs = bs := by
  induction bs with
  | nil => rfl
  | cons b earlier ih =>
    rw [onInnermost]
    split
    · rfl
    · rw [ih]

theorem Slotted.of_append (h : Slotted (later ++ bs)) : Slotted bs := by
  induction later with
  | nil => exact h
  | cons b later ih => exact ih h.2

/-- What holds of all blocks, and of one that takes the place of another. -/
theorem forall_mem_replace {P : BlockRecord → Prop} (h : ∀ x ∈ later ++ b :: earlier, P x)
    (h' : P b') : ∀ x ∈ later ++ b' :: earlier, P x := by
  intro x member
  rcases List.mem_append.1 member with before | now
  · exact h x (List.mem_append_left _ before)
  · rcases List.mem_cons.1 now with rfl | behind
    · exact h'
    · exact h x (List.mem_append_right _ (List.mem_cons_of_mem _ behind))

/-- A block whose slots stay where they are can be changed. -/
theorem Slotted.change (h : Slotted (later ++ b :: earlier)) (slot : b'.slot = b.slot)
    (length : b'.words.length = b.words.length) : Slotted (later ++ b' :: earlier) := by
  induction later with
  | nil => exact ⟨slot.trans h.1, h.2⟩
  | cons first later ih =>
    have same : (bodyWords (later ++ b :: earlier)).length =
        (bodyWords (later ++ b' :: earlier)).length := by
      rw [bodyWords_append, bodyWords_append, bodyWords, bodyWords]
      simp only [List.length_append, length]
    exact ⟨h.1.trans same, ih h.2⟩

/-- **The innermost block** is the latest one that is open. -/
theorem exists_of_openBlocks {block : Block} {others : List Block}
    (h : openBlocks start bs = block :: others) :
    ∃ later b earlier, bs = later ++ b :: earlier ∧ (∀ b ∈ later, b.closing ≠ none) ∧
      b.closing = none ∧ block = ⟨b.kind, start + b.slot⟩ ∧ others = openBlocks start earlier := by
  induction bs with
  | nil => cases h
  | cons b earlier ih =>
    rw [openBlocks] at h
    split at h
    next opened =>
      obtain ⟨rfl, rfl⟩ := List.cons.inj h
      exact ⟨[], b, earlier, rfl, List.forall_mem_nil _, opened, rfl, rfl⟩
    next offset closed =>
      obtain ⟨later, b', earlier', rfl, all, rest⟩ := ih h
      refine ⟨b :: later, b', earlier', rfl, List.forall_mem_cons.2 ⟨?_, all⟩, rest⟩
      rw [closed]
      exact nofun

theorem openBlocks_eq_nil (h : openBlocks start bs = []) : ∀ b ∈ bs, b.closing ≠ none := by
  induction bs with
  | nil => exact List.forall_mem_nil _
  | cons b earlier ih =>
    rw [openBlocks] at h
    split at h
    · cases h
    next offset closed =>
      refine List.forall_mem_cons.2 ⟨?_, ih h⟩
      rw [closed]
      exact nofun

end

/-! ## What lines say -/

namespace Compiler

/-- The offset of the next instruction from the beginning of the body. -/
def offset (c : Compiler) : Nat := c.program.code.size - c.body.entry.code

/-- What a label or a call says about the innermost block. -/
def saying (c : Compiler) (text : Text) : BlockRecord → BlockRecord :=
  match Directive.caseLabel? text with
  | some label =>
    match labelValue c.aliases label with
    | .ok value => BlockRecord.mark (some value) c.offset
    | .error _ => id
  | none =>
    if Directive.isDefault text then BlockRecord.mark none c.offset
    else
      match Opcode.lookup? (Call.split text).name with
      | some op => BlockRecord.past op c.offset
      | none => id

/-- **The blocks of the open body behind a line**, as far as the line says. `rest` are the lines behind
it, where the labels of a switch are looked up. -/
def record (c : Compiler) (line : Line) (rest : List Line) (bs : List BlockRecord) :
    List BlockRecord :=
  if (Directive.platform? line.text).isSome || Directive.endsPlatform line.text then bs
  else
    match Rewrite.condition? line.text c.nextSlot with
    | some condition =>
      { kind := conditionBlock condition.keyword, slot := c.slotNumber, opened := c.offset,
        plain := c.NamesSlot } :: bs
    | none =>
      if Directive.startsSwitch line.text then
        let priming := Priming.scan c.aliases rest 0 line.number LabelRange.start
        { kind := .switchBlock, slot := c.slotNumber, opened := c.offset, plain := c.NamesSlot,
          range := priming.range.settle } :: bs
      else onInnermost (c.saying ((Rewrite.assignment? line.text).getD line.text)) bs

end Compiler

open Compiler

/-! ## Places in the code -/

/-- The kind of the blocks that an opcode opens. -/
def Opcode.opens? : Opcode → Option BlockKind
  | .ifTest _ => some .ifBlock
  | .whileTest _ => some .whileBlock
  | .control .switch => some .switchBlock
  | _ => none

/-- The opcode that closes the blocks of a kind. -/
def BlockKind.closer : BlockKind → Opcode
  | .ifBlock => .control .endIf
  | .whileBlock => .control .loop
  | .switchBlock => .control .endSwitch

/-- An instruction begins at the offset, or the code ends there. -/
def Boundary (is : List Instruction) (start stop offset : Nat) : Prop :=
  start + offset = stop ∨ ∃ i ∈ is, i.offset = start + offset

/-- What is known of a block is about instructions of the body, and these are behind the one that
opens the block. -/
structure BlockRecord.Placed (is : List Instruction) (start stop : Nat) (b : BlockRecord) : Prop where
  opening : ∃ i ∈ is, i.offset = start + b.opened ∧ i.opcode.opens? = some b.kind ∧
    (b.plain = true → ∃ more, i.arguments = .integer (Word.ofNat b.slot) :: more)
  marks : ∀ m ∈ b.marks, b.opened < m.offset ∧ Boundary is start stop m.offset
  closing : ∀ offset, b.closing = some offset → b.opened < offset ∧
    (∃ i ∈ is, i.offset = start + offset ∧ i.opcode = b.kind.closer) ∧
      Boundary is start stop (offset + 1)

/-- The labels of a block are in the range for which it has slots. -/
structure BlockRecord.Ranged (b : BlockRecord) : Prop where
  near : b.slot < jumpCapacity
  ordered : b.range.min ≤ b.range.max
  labels : ∀ m ∈ b.marks, ∀ w, m.value = some w → b.range.min ≤ w ∧ w ≤ b.range.max

/-- The open body of a compiler is laid out as its record says. -/
structure Laid (c : Compiler) (is : List Instruction) (bs : List BlockRecord) : Prop where
  chain : Chain c.program.code c.body.entry.code is c.program.code.size
  table : ∃ front : List Word, front.length = c.body.entry.jump ∧
    c.program.jumpTable.toList = front ++ bodyWords bs
  slotted : Slotted bs
  blocks : c.body.blocks = openBlocks c.body.entry.jump bs
  switches : c.body.switches = headers c.body.entry.jump bs
  placed : ∀ b ∈ bs, b.Placed is c.body.entry.code c.program.code.size
  ranged : ∀ b ∈ bs, b.Ranged

variable {c c' : Compiler} {is : List Instruction} {bs : List BlockRecord}

/-- The end of the code is where the next instruction begins. -/
theorem Boundary.exists_mem {start stop offset : Nat} (h : Boundary is start stop offset)
    (op : Opcode) (arguments : List Argument) :
    ∃ i ∈ is ++ [⟨stop, op, arguments⟩], i.offset = start + offset := by
  obtain last | ⟨i, member, same⟩ := h
  · exact ⟨_, List.mem_append_right _ List.mem_cons_self, last.symm⟩
  · exact ⟨i, List.mem_append_left _ member, same⟩

/-- Instructions that are added leave what is known of a block as it is. -/
theorem Boundary.add {start stop offset : Nat} (h : Boundary is start stop offset) {op : Opcode}
    {arguments : List Argument} {stop' : Nat} :
    Boundary (is ++ [⟨stop, op, arguments⟩]) start stop' offset :=
  .inr (h.exists_mem op arguments)

theorem BlockRecord.Placed.add {start stop : Nat} {b : BlockRecord} (h : b.Placed is start stop)
    {op : Opcode} {arguments : List Argument} {stop' : Nat} :
    b.Placed (is ++ [⟨stop, op, arguments⟩]) start stop' := by
  obtain ⟨i, member, opening⟩ := h.opening
  refine ⟨⟨i, List.mem_append_left _ member, opening⟩, fun m mark => ?_, fun offset closed => ?_⟩
  · obtain ⟨behind, boundary⟩ := h.marks m mark
    exact ⟨behind, boundary.add⟩
  · obtain ⟨behind, ⟨i, member, closer⟩, boundary⟩ := h.closing offset closed
    exact ⟨behind, ⟨i, List.mem_append_left _ member, closer⟩, boundary.add⟩

namespace Laid

/-- A body that has just been opened. -/
theorem begun (c : Compiler) : Laid c.begun [] [] where
  chain := .nil _
  table := ⟨c.program.jumpTable.toList, rfl, (List.append_nil _).symm⟩
  slotted := trivial
  blocks := rfl
  switches := rfl
  placed := List.forall_mem_nil _
  ranged := List.forall_mem_nil _

/-- Nothing but the code, the jump table and the open body counts. -/
theorem congr (h : Laid c is bs) (code : c'.program.code = c.program.code)
    (jumps : c'.program.jumpTable = c.program.jumpTable) (body : c'.body = c.body) :
    Laid c' is bs := by
  constructor
  · rw [code, body]
    exact h.chain
  · rw [jumps, body]
    exact h.table
  · exact h.slotted
  · rw [body]
    exact h.blocks
  · rw [body]
    exact h.switches
  · rw [code, body]
    exact h.placed
  · exact h.ranged

theorem entry_le (h : Laid c is bs) : c.body.entry.code ≤ c.program.code.size := h.chain.le

theorem entry_jump_le (h : Laid c is bs) : c.body.entry.jump ≤ c.program.jumpTable.size := by
  obtain ⟨front, length, table⟩ := h.table
  have := congrArg List.length table
  rw [List.length_append, Array.length_toList] at this
  omega

/-- The next slot is behind those of the blocks. -/
theorem slotNumber_eq (h : Laid c is bs) : c.slotNumber = (bodyWords bs).length := by
  obtain ⟨front, length, table⟩ := h.table
  have := congrArg List.length table
  rw [List.length_append, Array.length_toList] at this
  rw [Compiler.slotNumber]
  omega

/-- **A further instruction** in a body. -/
theorem add (h : Laid c is bs) {op : Opcode} {arguments : List Argument} (known : op ∈ Opcode.all)
    (many : arguments.length = op.arity) (readable : ∀ a ∈ arguments, a.Readable) :
    Laid (c.addCode (Instruction.encode op arguments))
      (is ++ [⟨c.program.code.size, op, arguments⟩]) bs where
  chain := h.chain.add known many readable
  table := h.table
  slotted := h.slotted
  blocks := h.blocks
  switches := h.switches
  placed := fun b member => (h.placed b member).add
  ranged := h.ranged

/-! ## Changes of the innermost block -/

theorem lt_offset (h : Laid c is bs) : ∀ b ∈ bs, b.opened < c.offset := by
  intro b member
  obtain ⟨i, inside, offset, -⟩ := (h.placed b member).opening
  have := h.chain.bounds i inside
  have := h.entry_le
  rw [Compiler.offset]
  omega

/-- The places in a body are no further than the code goes. -/
theorem le_of_boundary (h : Laid c is bs) {target : Nat}
    (boundary : Boundary is c.body.entry.code c.program.code.size target) :
    target ≤ c.program.code.size := by
  obtain last | ⟨i, member, same⟩ := boundary
  · omega
  · have := h.chain.bounds i member
    omega

/-- The targets that are known of a block fit into words. -/
theorem small (h : Laid c is bs) (short : c.program.code.size ≤ codeCapacity) {b : BlockRecord}
    (member : b ∈ bs) : b.Small := fun m mark =>
  Nat.le_trans (h.le_of_boundary ((h.placed b member).marks m mark).2) short

/-- **What happens to the innermost block** alone. -/
theorem change (h : Laid c is bs) {change : BlockRecord → BlockRecord} {block : Block}
    {others : List Block} (innermost : c.body.blocks = block :: others)
    (code : c'.program.code = c.program.code)
    (step : ∀ b ∈ bs, b.closing = none → ∀ front back : List Word,
      block = ⟨b.kind, front.length⟩ → c.program.jumpTable.toList = front ++ b.words ++ back →
        ((change b).kind = b.kind ∧ (change b).slot = b.slot ∧ (change b).range = b.range) ∧
        c'.program.jumpTable.toList = front ++ (change b).words ++ back ∧
        c'.body = { c.body with
          blocks := if (change b).closing = none then block :: others else others } ∧
        (change b).Placed is c.body.entry.code c.program.code.size ∧ (change b).Ranged) :
    Laid c' is (onInnermost change bs) := by
  obtain ⟨front, length, table⟩ := h.table
  have blocks := h.blocks
  rw [innermost] at blocks
  obtain ⟨later, b, earlier, rfl, closed, opened, same, rest⟩ := exists_of_openBlocks blocks.symm
  have member : b ∈ later ++ b :: earlier := List.mem_append_right _ List.mem_cons_self
  -- the block's slots are behind those of the earlier blocks and in front of those of the later ones
  have below : Slotted (b :: earlier) := h.slotted.of_append
  rw [bodyWords_append, bodyWords, ← List.append_assoc, ← List.append_assoc] at table
  have place : (front ++ bodyWords earlier).length = c.body.entry.jump + b.slot := by
    rw [List.length_append, length, below.1]
  obtain ⟨⟨kind, slot, range⟩, table', body, placed, ranged⟩ :=
    step b member opened (front ++ bodyWords earlier) _ (by rw [place, same]) table
  have entry : c'.body.entry = c.body.entry := by rw [body]
  have words : (change b).words.length = b.words.length := by
    rw [BlockRecord.length_words, BlockRecord.length_words, BlockRecord.size, BlockRecord.size, kind,
      range]
  rw [onInnermost_append closed opened]
  refine ⟨?_, ⟨front, entry ▸ length, ?_⟩, h.slotted.change slot words, ?_, ?_, ?_, ?_⟩
  · rw [code, entry]
    exact h.chain
  · rw [table', bodyWords_append, bodyWords, ← List.append_assoc, ← List.append_assoc]
  · rw [body, openBlocks_append closed, openBlocks, kind, slot]
    dsimp only
    cases (change b).closing with
    | none =>
      rw [if_pos rfl, same, rest]
    | some offset =>
      rw [if_neg (Option.some_ne_none offset), rest]
  · rw [body, h.switches, headers_append, headers_append, headers, headers, kind, slot]
  · rw [code, entry]
    exact forall_mem_replace h.placed placed
  · exact forall_mem_replace h.ranged ranged

end Laid

/-- A line that divides a block leaves a place in it. -/
theorem BlockRecord.Placed.mark {start stop offset : Nat} {b : BlockRecord}
    (h : b.Placed is start stop) (value : Option Word) (behind : b.opened < offset)
    (boundary : Boundary is start stop offset) : (b.mark value offset).Placed is start stop where
  opening := h.opening
  marks := List.forall_mem_cons.2 ⟨⟨behind, boundary⟩, h.marks⟩
  closing := h.closing

/-- What divides or closes a block leaves its places behind it. -/
theorem BlockRecord.Placed.past {start stop offset : Nat} {b : BlockRecord} {op : Opcode}
    {i : Instruction} (h : b.Placed is start stop) (governs : governedBlock op = some b.kind)
    (member : i ∈ is) (at_ : i.offset = start + offset) (opcode : i.opcode = op)
    (behind : b.opened < offset) (last : start + (offset + 1) = stop) :
    (b.past op offset).Placed is start stop := by
  have closes (closer : op = b.kind.closer) : (b.close offset).Placed is start stop := by
    refine ⟨h.opening, h.marks, fun offset' closed => ?_⟩
    obtain rfl := Option.some.inj closed
    exact ⟨behind, ⟨i, member, at_, opcode.trans closer⟩, .inl last⟩
  unfold governedBlock at governs
  split at governs
  · exact h.mark none (by omega) (.inl last)
  · exact closes (by rw [← Option.some.inj governs]; rfl)
  · exact closes (by rw [← Option.some.inj governs]; rfl)
  · exact h
  · exact closes (by rw [← Option.some.inj governs]; rfl)
  · cases governs

namespace BlockRecord

/-- A line that divides a block names a value of its range, or none. -/
theorem Ranged.mark {b : BlockRecord} (h : b.Ranged) {value : Option Word} (offset : Nat)
    (inside : ∀ w, value = some w → b.range.min ≤ w ∧ w ≤ b.range.max) :
    (b.mark value offset).Ranged where
  near := h.near
  ordered := h.ordered
  labels := List.forall_mem_cons.2 ⟨inside, h.labels⟩

/-- A value with a slot of its own is in the range. -/
theorem Ranged.mem_of_offset {b : BlockRecord} (h : b.Ranged) {value : Word}
    (least : 0 ≤ value.toInt - b.range.min.toInt)
    (most : value.toInt - b.range.min.toInt < b.range.size) :
    b.range.min ≤ value ∧ value ≤ b.range.max := by
  have ordered := h.ordered
  rw [Int32.le_iff_toInt_le] at ordered
  rw [LabelRange.size] at most
  rw [Int32.le_iff_toInt_le, Int32.le_iff_toInt_le]
  omega

theorem Ranged.past {b : BlockRecord} (h : b.Ranged) (op : Opcode) (offset : Nat) :
    (b.past op offset).Ranged := by
  unfold BlockRecord.past
  split
  · exact h.mark (offset + 1) nofun
  · exact ⟨h.near, h.ordered, h.labels⟩
  · exact ⟨h.near, h.ordered, h.labels⟩
  · exact ⟨h.near, h.ordered, h.labels⟩
  · exact h

/-- What an instruction says about a block does not move it. -/
theorem past_eq (b : BlockRecord) (op : Opcode) (offset : Nat) :
    (b.past op offset).kind = b.kind ∧ (b.past op offset).slot = b.slot ∧
      (b.past op offset).range = b.range := by
  unfold past
  split <;> exact ⟨rfl, rfl, rfl⟩

/-- An instruction that governs no block says nothing about one. -/
theorem past_of_free {op : Opcode} (free : governedBlock op = none) (offset : Nat) :
    (fun b : BlockRecord => b.past op offset) = fun b => b := by
  funext b
  unfold past
  split <;> first | cases free | rfl

end BlockRecord

/-- Which blocks are open behind an instruction that divides or closes the innermost one. -/
theorem Compiler.blocks_bound {b : BlockRecord} {block : Block} {op : Opcode} {others : List Block}
    {offset : Nat} (innermost : c.body.blocks = block :: others) (opened : b.closing = none)
    (governs : governedBlock op = some b.kind) :
    (c.bound block op).body =
      { c.body with
        blocks := if (b.past op offset).closing = none then block :: others else others } := by
  have tail : c.body.blocks.tail = others := by rw [innermost]; rfl
  unfold governedBlock at governs
  split at governs
  · rw [BlockRecord.past, BlockRecord.mark, opened, if_pos rfl, ← innermost]
    rfl
  · rw [BodyTyped.body_bound block (.inl rfl), tail]
    rfl
  · rw [BodyTyped.body_bound block (.inr (.inl rfl)), tail]
    rfl
  · rw [show b.past (.control .leave) offset = b from rfl, opened, if_pos rfl, ← innermost]
    rfl
  · rw [BodyTyped.body_bound block (.inr (.inr rfl)), tail]
    rfl
  · cases governs

namespace Laid

/-! ## Lines -/

/-- **An instruction that divides or closes** the innermost block. -/
theorem block {op : Opcode} {block : Block} {others : List Block} (h : Laid c is bs)
    (known : op ∈ Opcode.all) (governs : governedBlock op = some block.kind)
    (innermost : c.body.blocks = block :: others)
    (short : (c.addCode (Instruction.encode op [])).program.code.size ≤ codeCapacity) :
    Laid ((c.addCode (Instruction.encode op [])).bound block op)
      (is ++ [⟨c.program.code.size, op, []⟩]) (onInnermost (·.past op c.offset) bs) := by
  have begun := h.entry_le
  have size : (c.addCode (Instruction.encode op [])).program.code.size = c.program.code.size + 1 := by
    rw [addCode, Array.size_append]
    rfl
  have here : (c.addCode (Instruction.encode op [])).here = Word.ofNat (c.offset + 1) := by
    rw [Compiler.here, size, offset, ← Nat.sub_add_comm begun]
    rfl
  have at_ : c.program.code.size = c.body.entry.code + c.offset := by
    rw [offset]
    omega
  have added := @add _ _ _ h op [] known (arity_of_governedBlock governs).symm (List.forall_mem_nil _)
  refine added.change innermost (code_bound ..) fun b member opened front back same table => ?_
  subst same
  refine ⟨b.past_eq op c.offset, toList_bound table opened (added.small short member) governs here,
    blocks_bound innermost opened governs, ?_⟩
  refine ⟨(added.placed b member).past governs (List.mem_append_right _ List.mem_cons_self) at_ rfl
    (h.lt_offset b member) ?_, (h.ranged b member).past op c.offset⟩
  rw [size, at_]
  rfl

/-- **A label** of the innermost switch. -/
theorem label {text : Text} (h : Laid c is bs) (short : c.program.code.size ≤ codeCapacity)
    (labelled : Labelled c text c') : Laid c' is (onInnermost (c.saying text) bs) := by
  have begun := h.entry_le
  have boundary : Boundary is c.body.entry.code c.program.code.size c.offset := by
    left
    rw [offset]
    omega
  -- Either label changes a slot of the innermost switch and adds a mark to its record.
  cases labelled with
  | @case label value block others read innermost kind known least most =>
    have told : c.saying text = BlockRecord.mark (some value) c.offset := by
      rw [saying, read]
      dsimp only
      rw [known]
    rw [told]
    refine h.change innermost rfl fun b member opened front back same table => ?_
    subst same
    have words := b.words_switch kind
    have range : c.labelRange front.length = b.range :=
      labelRange_of_toList table (by rw [words]; rfl) (by rw [words]; rfl)
    dsimp only at least most ⊢
    rw [range] at least most ⊢
    have ranged := h.ranged b member
    refine ⟨⟨rfl, rfl, rfl⟩, toList_case table kind least most rfl, ?_,
      (h.placed b member).mark _ (h.lt_offset b member) boundary, ranged.mark _ fun w named => ?_⟩
    · rw [BlockRecord.mark, opened, if_pos rfl, ← innermost]
      rfl
    · obtain rfl := Option.some.inj named
      exact ranged.mem_of_offset least most
  | @default block others other read innermost kind =>
    have told : c.saying text = BlockRecord.mark none c.offset := by
      rw [saying, other]
      dsimp only
      rw [if_pos read]
    rw [told]
    refine h.change innermost rfl fun b member opened front back same table => ?_
    subst same
    refine ⟨⟨rfl, rfl, rfl⟩, toList_default table kind opened (h.small short member) rfl, ?_,
      (h.placed b member).mark _ (h.lt_offset b member) boundary, (h.ranged b member).mark _ fun w named =>
        absurd named.symm (Option.some_ne_none w)⟩
    rw [BlockRecord.mark, opened, if_pos rfl, ← innermost]
    rfl

/-- **A call** that opens no block. -/
theorem call {text : Text} (h : Laid c is bs) (noCase : Directive.caseLabel? text = none)
    (noDefault : Directive.isDefault text = false) (called : Called c text c')
    (short : c'.program.code.size ≤ codeCapacity) :
    ∃ i, Laid c' (is ++ [i]) (onInnermost (c.saying text) bs) := by
  have told {op : Opcode} (known : Opcode.lookup? (Call.split text).name = some op) :
      c.saying text = BlockRecord.past op c.offset := by
    rw [saying, noCase]
    dsimp only
    rw [noDefault, if_neg Bool.false_ne_true, known]
  cases called with
  | plain known meant arity free =>
    rw [told known, show BlockRecord.past _ c.offset = _ from BlockRecord.past_of_free free c.offset,
      onInnermost_id]
    exact ⟨_, h.add (Opcode.mem_all_of_lookup? known) arity
      (readable_of_meaning? meant (short_of_fits short))⟩
  | block known bare governs same innermost =>
    rw [told known]
    rw [code_bound] at short
    exact ⟨_, h.block (Opcode.mem_all_of_lookup? known) (same ▸ governs) innermost short⟩

/-- **An instruction that opens a block**, whose slots are added to the jump table. -/
theorem «open» {b : BlockRecord} {op : Opcode} {arguments : List Argument} (h : Laid c is bs)
    (slot : b.slot = c.slotNumber) (opened : b.opened = c.offset) (unmarked : b.marks = [])
    (unclosed : b.closing = none) (known : op ∈ Opcode.all) (many : arguments.length = op.arity)
    (readable : ∀ a ∈ arguments, a.Readable) (opens : op.opens? = some b.kind)
    (named : b.plain = true → ∃ more, arguments = .integer (Word.ofNat b.slot) :: more)
    (room : c.program.jumpTable.size < jumpCapacity) (ordered : b.range.min ≤ b.range.max)
    (code : c'.program.code = (c.addCode (Instruction.encode op arguments)).program.code)
    (table : c'.program.jumpTable = c.program.jumpTable ++ b.words.toArray)
    (body : c'.body =
      { c.body with
        blocks := ⟨b.kind, c.program.jumpTable.size⟩ :: c.body.blocks
        switches := c.body.switches ++
          if b.kind = .switchBlock then [c.program.jumpTable.size] else [] }) :
    Laid c' (is ++ [⟨c.program.code.size, op, arguments⟩]) (b :: bs) := by
  have begun := h.entry_le
  have place : c.program.jumpTable.size = c.body.entry.jump + b.slot := by
    have := h.entry_jump_le
    rw [slot, slotNumber]
    omega
  have added := @add _ _ _ h op arguments known many readable
  have entry : c'.body.entry = c.body.entry := by rw [body]
  -- What is new is the block in front of the records; all others are where they were.
  refine ⟨?_, ?_, ⟨slot.trans h.slotNumber_eq, h.slotted⟩, ?_, ?_, ?_,
    List.forall_mem_cons.2 ⟨⟨by omega, ordered, ?_⟩, h.ranged⟩⟩
  · rw [code, entry]
    exact added.chain
  · obtain ⟨front, length, table'⟩ := h.table
    refine ⟨front, entry ▸ length, ?_⟩
    rw [table, Array.toList_append, table', bodyWords, List.append_assoc]
  · rw [body, openBlocks, unclosed, h.blocks, place]
  · rw [body, headers, h.switches, place]
  · rw [code, entry]
    refine List.forall_mem_cons.2 ⟨⟨⟨_, List.mem_append_right _ List.mem_cons_self, ?_, opens, named⟩,
      ?_, ?_⟩, added.placed⟩
    · rw [opened, offset]
      dsimp only
      omega
    · rw [unmarked]
      exact List.forall_mem_nil _
    · intro offset closed
      rw [unclosed] at closed
      cases closed
  · rw [unmarked]
    exact List.forall_mem_nil _

/-- **A test** and the block that it opens. -/
theorem test {keyword : ConditionKeyword} {comparison : Comparison} {arguments : List Argument}
    (h : Laid c is bs) (known : keyword.opcode comparison ∈ Opcode.all) (many : arguments.length = 3)
    (readable : ∀ a ∈ arguments, a.Readable)
    (named : c.NamesSlot → ∃ more, arguments = .integer (Word.ofNat c.slotNumber) :: more)
    (room : c.program.jumpTable.size < jumpCapacity) :
    Laid ((c.opened (conditionBlock keyword) (c.conditionWords keyword)).addCode
        (Instruction.encode (keyword.opcode comparison) arguments))
      (is ++ [⟨c.program.code.size, keyword.opcode comparison, arguments⟩])
      ({ kind := conditionBlock keyword, slot := c.slotNumber, opened := c.offset,
         plain := c.NamesSlot } :: bs) := by
  have three : (keyword.opcode comparison).arity = 3 := by
    cases keyword <;> cases comparison <;> rfl
  have opens : (keyword.opcode comparison).opens? = some (conditionBlock keyword) := by
    cases keyword <;> rfl
  refine h.open rfl rfl rfl rfl known (many.trans three.symm) readable opens
    (fun plain => named (of_decide_eq_true plain)) room (Int32.le_refl _) rfl ?_ ?_
  · cases keyword <;> rfl
  · cases keyword <;> exact congrArg (Body.mk _ _) (List.append_nil _).symm

/-- **A switch** and its block, with a slot for each value of a range. -/
theorem select {arguments : List Argument} (h : Laid c is bs)
    (known : Opcode.control .switch ∈ Opcode.all) (many : arguments.length = 2)
    (readable : ∀ a ∈ arguments, a.Readable)
    (named : c.NamesSlot → ∃ more, arguments = .integer (Word.ofNat c.slotNumber) :: more)
    (room : c.program.jumpTable.size < jumpCapacity) (range : LabelRange) :
    Laid ((c.openedSwitch.addCode (Instruction.encode (.control .switch) arguments)).primed
        c.program.jumpTable.size range)
      (is ++ [⟨c.program.code.size, .control .switch, arguments⟩])
      ({ kind := .switchBlock, slot := c.slotNumber, opened := c.offset, plain := c.NamesSlot,
         range := range.settle } :: bs) := by
  refine h.open rfl rfl rfl rfl known many readable rfl
    (fun plain => named (of_decide_eq_true plain)) room (BodyTyped.settle_le _) rfl ?_ rfl
  rw [BodyTyped.jumpTable_primed, BlockRecord.words_unmarked rfl rfl rfl]

end Laid

/-! ## Records of lines -/

namespace Compiler

variable {line : Line} {rest : List Line}
  (noPlatform : Directive.platform? line.text = none)
  (noEnd : Directive.endsPlatform line.text = false)

include noPlatform noEnd

theorem record_of_condition? {condition : Condition}
    (rewritten : Rewrite.condition? line.text c.nextSlot = some condition) :
    c.record line rest bs =
      { kind := conditionBlock condition.keyword, slot := c.slotNumber, opened := c.offset,
        plain := c.NamesSlot } :: bs := by
  rw [record, noPlatform, noEnd, Option.isSome_none, Bool.or_self, if_neg Bool.false_ne_true, rewritten]

theorem record_of_switch? {opened : Text}
    (noTest : Rewrite.condition? line.text c.nextSlot = none)
    (rewritten : Rewrite.switch? line.text c.nextSlot = some opened) :
    c.record line rest bs =
      { kind := .switchBlock, slot := c.slotNumber, opened := c.offset, plain := c.NamesSlot,
        range := (Priming.scan c.aliases rest 0 line.number LabelRange.start).range.settle } :: bs := by
  have starts : Directive.startsSwitch line.text = true := by
    rw [← Rewrite.isSome_switch? line.text c.nextSlot, rewritten]
    rfl
  rw [record, noPlatform, noEnd, Option.isSome_none, Bool.or_self, if_neg Bool.false_ne_true, noTest]
  dsimp only
  rw [if_pos starts]

theorem record_of_none (noTest : Rewrite.condition? line.text c.nextSlot = none)
    (noSwitch : Rewrite.switch? line.text c.nextSlot = none) :
    c.record line rest bs =
      onInnermost (c.saying ((Rewrite.assignment? line.text).getD line.text)) bs := by
  have starts : ¬ Directive.startsSwitch line.text = true := by
    rw [← Rewrite.isSome_switch? line.text c.nextSlot, noSwitch]
    exact Bool.false_ne_true
  rw [record, noPlatform, noEnd, Option.isSome_none, Bool.or_self, if_neg Bool.false_ne_true, noTest]
  dsimp only
  rw [if_neg starts]

end Compiler

namespace Laid

section

variable {line : Line} {rest : List Line} {header? : Option Nat}
  (noPlatform : Directive.platform? line.text = none)
  (noEnd : Directive.endsPlatform line.text = false)

include noPlatform noEnd

/-- **A line of a body** that opens no switch. -/
theorem stated (h : Laid c is bs) (stated : Stated c line.text none c')
    (short : c'.program.code.size ≤ codeCapacity) :
    ∃ is', Laid c' is' (c.record line rest bs) := by
  cases stated with
  | @test condition comparison arguments rewritten known meant arity room =>
    rw [record_of_condition? noPlatform noEnd rewritten]
    exact ⟨_, h.test (Opcode.mem_all_of_lookup? known) arity
      (readable_of_meaning? meant (@short_of_fits c _ _ short))
      (fun names => names.exists_of_condition? room rewritten meant) room⟩
  | label noTest noSwitch labelled =>
    rw [record_of_none noPlatform noEnd noTest noSwitch]
    have same : c'.program.code = c.program.code := by cases labelled <;> rfl
    exact ⟨is, h.label (same ▸ short) labelled⟩
  | call noTest noSwitch noCase noDefault called =>
    rw [record_of_none noPlatform noEnd noTest noSwitch]
    obtain ⟨i, laid⟩ := h.call noCase noDefault called short
    exact ⟨_, laid⟩

/-- **A switch**, once there is a slot for each value between its labels. -/
theorem primed {header : Nat} (h : Laid c is bs) (stated : Stated c line.text (some header) c')
    (short : c'.program.code.size ≤ codeCapacity) :
    ∃ is', Laid (c'.primed header
        (Priming.scan c.aliases rest 0 line.number LabelRange.start).range) is'
      (c.record line rest bs) := by
  cases stated with
  | switch noTest rewritten known meant arity room =>
    rw [record_of_switch? noPlatform noEnd noTest rewritten]
    exact ⟨_, h.select (Opcode.mem_all_of_lookup? known) arity
      (readable_of_meaning? meant (@short_of_fits c _ _ short))
      (fun names => names.exists_of_switch? room rewritten meant) room _⟩

end

end Laid

end StageScript
