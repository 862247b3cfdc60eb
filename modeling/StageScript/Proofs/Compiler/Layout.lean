import StageScript.Proofs.Compiler.Record

/-! # The layout of a body
Where a body is closed, all its blocks are, and then no slot is without a target.
* **`BodyRecord.Resolved`** — a body of a program reads instruction after instruction to the one that
  closes it, and its slots lead to these instructions;
* **`Laid.resolved`** — this is what the line that closes a body leaves;
* **`Laid.unresolvedSlot?_eq_none`** — so the search for a slot without a target finds none. -/

namespace StageScript

open Compiler

/-! ## Targets of blocks -/

namespace BlockRecord

variable {b : BlockRecord} {is : List Instruction} {start stop : Nat}

/-- The slot is one of the two in which a switch keeps the range of its labels. -/
def IsRange (b : BlockRecord) (slot : Nat) : Prop :=
  b.kind = .switchBlock ∧ (slot = b.slot ∨ slot = b.slot + 1)

/-- The target of a slot of a block is behind the instruction that opens the block, and only the first
one of a `while` is this instruction. -/
def Aims (b : BlockRecord) (slot target : Nat) : Prop :=
  if b.kind = .whileBlock ∧ slot = b.slot then target = b.opened else b.opened < target

theorem aims_of_lt {slot target : Nat} (other : ¬ (b.kind = .whileBlock ∧ slot = b.slot))
    (behind : b.opened < target) : b.Aims slot target := by
  rw [Aims, if_neg other]
  exact behind

/-- A slot holds the offset of an instruction, or of the end of the code. -/
def Leads (b : BlockRecord) (is : List Instruction) (start stop k : Nat) : Prop :=
  ∃ target, b.words[k]? = some (Word.ofNat target) ∧ Boundary is start stop target ∧
    b.Aims (b.slot + k) target

/-- The slot for what stands behind a block. -/
theorem Placed.leads_behind (h : b.Placed is start stop) (closed : b.closing ≠ none) {k : Nat}
    (word : b.words[k]? = some b.behindWord) (inside : k ≠ 0) : b.Leads is start stop k := by
  obtain ⟨closing, some⟩ := Option.ne_none_iff_exists'.1 closed
  obtain ⟨behind, -, boundary⟩ := h.closing closing some
  refine ⟨closing + 1, word.trans (by rw [behindWord, some]; rfl), boundary, ?_⟩
  exact aims_of_lt (fun first => by omega) (by omega)

/-- A slot for a line that divides a block: without such a line the end of the block is the target. -/
theorem Placed.leads_or (h : b.Placed is start stop) (closed : b.closing ≠ none) {k : Nat}
    {label? : Option Nat} (label : ∀ o ∈ label?, ∃ m ∈ b.marks, m.offset = o)
    (word : b.words[k]? = some (targetWord (label?.or b.closing))) (other : b.kind ≠ .whileBlock) :
    b.Leads is start stop k := by
  obtain ⟨closing, some⟩ := Option.ne_none_iff_exists'.1 closed
  cases label? with
  | none =>
    obtain ⟨behind, ⟨i, member, at_, -⟩, -⟩ := h.closing closing some
    exact ⟨closing, word.trans (by rw [some]; rfl), .inr ⟨i, member, at_⟩,
      aims_of_lt (fun first => other first.1) behind⟩
  | some o =>
    obtain ⟨m, member, rfl⟩ := label o rfl
    obtain ⟨behind, boundary⟩ := h.marks m member
    exact ⟨m.offset, word, boundary, aims_of_lt (fun first => other first.1) behind⟩

/-- **The slots of a block that is closed** lead to instructions. -/
theorem Placed.leads (h : b.Placed is start stop) (closed : b.closing ≠ none) {k : Nat}
    (inside : k < b.size) (free : ¬ b.IsRange (b.slot + k)) : b.Leads is start stop k := by
  cases kind : b.kind with
  | ifBlock =>
    have other : b.kind ≠ .whileBlock := by rw [kind]; decide
    rw [size, kind] at inside
    obtain rfl | rfl : k = 0 ∨ k = 1 := by dsimp only at inside; omega
    · exact h.leads_or closed (fun o found => exists_mark_of_elseOffset? found)
        (by rw [words_if kind]; rfl) other
    · exact h.leads_behind closed (by rw [words_if kind]; rfl) Nat.one_ne_zero
  | whileBlock =>
    rw [size, kind] at inside
    obtain rfl | rfl : k = 0 ∨ k = 1 := by dsimp only at inside; omega
    · obtain ⟨i, member, at_, -⟩ := h.opening
      refine ⟨b.opened, by rw [words_while kind]; rfl, .inr ⟨i, member, at_⟩, ?_⟩
      rw [Aims, if_pos ⟨kind, rfl⟩]
    · exact h.leads_behind closed (by rw [words_while kind]; rfl) Nat.one_ne_zero
  | switchBlock =>
    have other : b.kind ≠ .whileBlock := by rw [kind]; decide
    rw [size, kind] at inside
    -- the range, where the values outside of it go, where the block ends, and a slot for each value
    rcases k with _ | _ | _ | _ | k
    · exact absurd ⟨kind, .inl rfl⟩ free
    · exact absurd ⟨kind, .inr rfl⟩ free
    · exact h.leads_or closed (fun o found => exists_mark_of_elseOffset? found)
        (by rw [words_switch kind]; rfl) other
    · exact h.leads_behind closed (by rw [words_switch kind]; rfl) (Nat.succ_ne_zero 2)
    · refine @leads_or _ _ _ _ h closed _ (caseOffset? (b.range.min.toInt + k) b.marks)
        (fun o found => exists_mark_of_caseOffset? found) ?_ other
      rw [words_switch kind]
      show b.caseWords[k]? = _
      rw [caseWords, List.getElem?_map, List.getElem?_range (by dsimp only at inside; omega)]
      rfl

end BlockRecord

/-! ## Slots of bodies -/

section

variable {bs : List BlockRecord} {b : BlockRecord} {start : Nat}

/-- The slots of a block among those of its body. -/
theorem getElem?_bodyWords (h : Slotted bs) (member : b ∈ bs) {k : Nat} (inside : k < b.size) :
    (bodyWords bs)[b.slot + k]? = b.words[k]? := by
  rw [← b.length_words] at inside
  induction bs with
  | nil => cases member
  | cons first earlier ih =>
    rw [bodyWords]
    rcases List.mem_cons.1 member with rfl | member
    · rw [h.1, List.getElem?_append_right (Nat.le_add_right ..), Nat.add_sub_cancel_left]
    · have found := ih h.2 member
      rw [List.getElem?_append_left, found]
      rw [List.getElem?_eq_getElem inside] at found
      exact (List.getElem?_eq_some_iff.1 found).1

/-- Every slot is one of a block. -/
theorem exists_block_of_lt (h : Slotted bs) {slot : Nat} (inside : slot < (bodyWords bs).length) :
    ∃ b ∈ bs, ∃ k < b.size, slot = b.slot + k := by
  induction bs with
  | nil => cases inside
  | cons first earlier ih =>
    by_cases below : slot < (bodyWords earlier).length
    · obtain ⟨b, member, found⟩ := ih h.2 below
      exact ⟨b, List.mem_cons_of_mem _ member, found⟩
    · rw [bodyWords, List.length_append] at inside
      refine ⟨first, List.mem_cons_self, slot - first.slot, ?_, ?_⟩
      · rw [← first.length_words, h.1]
        omega
      · rw [h.1]
        omega

/-- A switch has its header in the list of headers. -/
theorem mem_headers (member : b ∈ bs) (kind : b.kind = .switchBlock) :
    start + b.slot ∈ headers start bs := by
  induction bs with
  | nil => cases member
  | cons first earlier ih =>
    rw [headers]
    rcases List.mem_cons.1 member with rfl | member
    · rw [if_pos kind]
      exact List.mem_append_right _ List.mem_cons_self
    · exact List.mem_append_left _ (ih member)

end

/-! ## Bodies that are closed -/

/-- The place behind a program. -/
def Program.stop (p : Program) : EntryPoint := ⟨p.code.size, p.jumpTable.size⟩

/-- A body that was added to a program. -/
structure BodyRecord where
  /-- Where the body begins. -/
  entry : EntryPoint
  /-- The place behind the body. -/
  stop : EntryPoint
  /-- The opcode that closes it. -/
  closer : Opcode
  /-- Its blocks, latest first. -/
  blocks : List BlockRecord
  deriving DecidableEq, Repr

/-- **A body without a loose end**: reading instruction after instruction leads to the one that closes
it, and the slots of its blocks lead to these instructions. -/
structure BodyRecord.Resolved (r : BodyRecord) (p : Program) (is : List Instruction) : Prop where
  decodes : Decodes p.code r.entry.code is r.stop.code
  last : is.getLast? = some ⟨r.stop.code - 1, r.closer, []⟩
  room : r.stop.code ≤ codeCapacity
  /-- Each block is opened by an instruction, which names its slots. -/
  opening : ∀ b ∈ r.blocks, ∃ i ∈ is, i.offset = r.entry.code + b.opened ∧
    i.opcode.opens? = some b.kind ∧
      (b.plain = true → ∃ more, i.arguments = .integer (Word.ofNat b.slot) :: more)
  /-- Each slot is one of a block. -/
  owner : ∀ slot, r.entry.jump + slot < r.stop.jump → ∃ b ∈ r.blocks, ∃ k < b.size, slot = b.slot + k
  slot : ∀ slot, r.entry.jump + slot < r.stop.jump → (∃ b ∈ r.blocks, b.IsRange slot) ∨
    ∃ i ∈ is, p.jumpTable[r.entry.jump + slot]? = some (Word.ofNat (i.offset - r.entry.code))
  target : ∀ b ∈ r.blocks, ∀ k < b.size, ¬ b.IsRange (b.slot + k) →
    ∃ i ∈ is, p.jumpTable[r.entry.jump + (b.slot + k)]? =
      some (Word.ofNat (i.offset - r.entry.code)) ∧ b.Aims (b.slot + k) (i.offset - r.entry.code)

/-- The instructions and the slots of a body of a program. -/
structure BodyRecord.Stands (r : BodyRecord) (p : Program) (is : List Instruction) : Prop where
  chain : Chain p.code r.entry.code is r.stop.code
  last : is.getLast? = some ⟨r.stop.code - 1, r.closer, []⟩
  room : r.stop.code ≤ codeCapacity
  slots : r.entry.jump + (bodyWords r.blocks).length = r.stop.jump
  words : ∀ slot < (bodyWords r.blocks).length,
    p.jumpTable[r.entry.jump + slot]? = (bodyWords r.blocks)[slot]?
  slotted : Slotted r.blocks
  placed : ∀ b ∈ r.blocks, b.Placed is r.entry.code (r.stop.code - 1)
  ranged : ∀ b ∈ r.blocks, b.Ranged
  closed : ∀ b ∈ r.blocks, b.closing ≠ none

namespace BodyRecord

variable {r : BodyRecord} {p p' : Program} {is : List Instruction}

/-- A body stays as it is when a program is added to behind it. -/
theorem Stands.mono (h : r.Stands p is) (code : ∃ more, p'.code = p.code ++ more)
    (jumps : ∀ slot < r.stop.jump, p'.jumpTable[slot]? = p.jumpTable[slot]?) : r.Stands p' is where
  chain := by
    obtain ⟨more, code⟩ := code
    rw [code]
    exact h.chain.mono more
  last := h.last
  room := h.room
  slots := h.slots
  words slot inside := by
    have := h.slots
    rw [jumps _ (by omega)]
    exact h.words slot inside
  slotted := h.slotted
  placed := h.placed
  ranged := h.ranged
  closed := h.closed

/-- The slots of a block of a body. -/
theorem Stands.word (h : r.Stands p is) {b : BlockRecord} (member : b ∈ r.blocks) {k : Nat}
    (inside : k < b.size) : p.jumpTable[r.entry.jump + (b.slot + k)]? = b.words[k]? := by
  have found := getElem?_bodyWords h.slotted member inside
  have word : k < b.words.length := by rwa [b.length_words]
  rw [← found]
  apply h.words
  rw [List.getElem?_eq_getElem word] at found
  exact (List.getElem?_eq_some_iff.1 found).1

/-- Where the next instruction begins behind the others, the last one does. -/
theorem Stands.exists_of_boundary (h : r.Stands p is) {target : Nat}
    (boundary : Boundary is r.entry.code (r.stop.code - 1) target) :
    ∃ i ∈ is, i.offset - r.entry.code = target := by
  obtain last | ⟨i, member, same⟩ := boundary
  · exact ⟨_, List.mem_of_getLast? h.last, by dsimp only; omega⟩
  · exact ⟨i, member, by omega⟩

/-- The slots of a block lead to instructions. -/
theorem Stands.target (h : r.Stands p is) {b : BlockRecord} (member : b ∈ r.blocks) {k : Nat}
    (inside : k < b.size) (free : ¬ b.IsRange (b.slot + k)) :
    ∃ i ∈ is, p.jumpTable[r.entry.jump + (b.slot + k)]? =
      some (Word.ofNat (i.offset - r.entry.code)) ∧
        b.Aims (b.slot + k) (i.offset - r.entry.code) := by
  obtain ⟨target, word, boundary, aims⟩ :=
    (h.placed b member).leads (h.closed b member) inside free
  obtain ⟨i, at_, rfl⟩ := h.exists_of_boundary boundary
  exact ⟨i, at_, (h.word member inside).trans word, aims⟩

/-- Each slot of a body is one of a block. -/
theorem Stands.owner (h : r.Stands p is) {slot : Nat} (inside : r.entry.jump + slot < r.stop.jump) :
    ∃ b ∈ r.blocks, ∃ k < b.size, slot = b.slot + k := by
  have := h.slots
  exact exists_block_of_lt h.slotted (by omega)

/-- **The instructions and the slots of a body** leave no loose end. -/
theorem Stands.resolved (h : r.Stands p is) : r.Resolved p is where
  decodes := h.chain.decodes
  last := h.last
  room := h.room
  opening b member := (h.placed b member).opening
  target b member k inside free := h.target member inside free
  owner slot inside := h.owner inside
  slot slot inside := by
    obtain ⟨b, member, k, below, rfl⟩ := h.owner inside
    by_cases range : b.IsRange (b.slot + k)
    · exact .inl ⟨b, member, range⟩
    · obtain ⟨i, at_, word, -⟩ := h.target member below range
      exact .inr ⟨i, at_, word⟩

end BodyRecord

/-! ## Closing a body -/

namespace Laid

variable {c : Compiler} {is : List Instruction} {bs : List BlockRecord} {op : Opcode}

/-- Where no block is open all are closed. -/
theorem closed_of_bare (h : Laid c is bs) (bare : c.body.blocks = []) :
    ∀ b ∈ bs, b.closing ≠ none := by
  have := h.blocks
  rw [bare] at this
  exact openBlocks_eq_nil this.symm

/-- **The line that closes a body** leaves it without a loose end. -/
theorem stands (h : Laid c is bs) (bare : c.body.blocks = []) (known : op ∈ Opcode.all)
    (many : op.arity = 0) (room : c.program.code.size < codeCapacity) :
    BodyRecord.Stands ⟨c.body.entry, (c.addCode [op.word]).program.stop, op, bs⟩
      (c.addCode [op.word]).program (is ++ [⟨c.program.code.size, op, []⟩]) := by
  have added := @add _ _ _ h op [] known many.symm (List.forall_mem_nil _)
  have size : (c.addCode [op.word]).program.stop.code = c.program.code.size + 1 := by
    rw [Program.stop, addCode, Array.size_append]
    rfl
  obtain ⟨front, length, table⟩ := h.table
  refine ⟨added.chain, ?_, ?_, ?_, fun slot inside => ?_, h.slotted, fun b member => ?_, h.ranged, ?_⟩
  · rw [List.getLast?_concat, size]
    rfl
  · rw [size]
    exact room
  · have := congrArg List.length table
    rw [List.length_append, Array.length_toList] at this
    dsimp only
    rw [Program.stop]
    show _ = c.program.jumpTable.size
    omega
  · show c.program.jumpTable[c.body.entry.jump + slot]? = _
    rw [← Array.getElem?_toList, table, ← length, List.getElem?_append_right (Nat.le_add_right ..),
      Nat.add_sub_cancel_left]
  · exact (h.placed b member).add
  · exact h.closed_of_bare bare

/-- **The search for a slot without a target** finds none. -/
theorem unresolvedSlot?_eq_none (h : Laid c is bs) (bare : c.body.blocks = [])
    (short : c.program.code.size ≤ codeCapacity) : c.unresolvedSlot? = none := by
  obtain ⟨front, length, table⟩ := h.table
  have size := congrArg List.length table
  rw [List.length_append, Array.length_toList, length] at size
  rw [unresolvedSlot?, List.find?_eq_none]
  intro slot inside
  rw [List.mem_range] at inside
  obtain ⟨b, member, k, below, rfl⟩ := @exists_block_of_lt _ h.slotted slot (by omega)
  by_cases range : b.IsRange (b.slot + k)
  · obtain ⟨kind, first⟩ := range
    have header := h.switches ▸ @mem_headers _ _ c.body.entry.jump member kind
    have listed : (c.body.switches.any fun header =>
        c.body.entry.jump + (b.slot + k) == header ||
          c.body.entry.jump + (b.slot + k) == header + 1) = true := by
      rw [List.any_eq_true]
      refine ⟨_, header, ?_⟩
      rw [Bool.or_eq_true, beq_iff_eq, beq_iff_eq]
      omega
    rw [listed]
    exact Bool.false_ne_true
  · obtain ⟨target, word, boundary, -⟩ := (h.placed b member).leads (h.closed_of_bare bare b member)
      below range
    have resolved : c.jumpWord (c.body.entry.jump + (b.slot + k)) = Word.ofNat target := by
      have alone : c.program.jumpTable.toList = front ++ bodyWords bs ++ [] := by
        rw [List.append_nil, table]
      rw [← length]
      exact jumpWord_of_toList alone ((getElem?_bodyWords h.slotted member below).trans word)
    have missing : (Word.ofNat target == -1) = false :=
      beq_eq_false_iff_ne.2 (Word.ofNat_ne (Nat.le_trans (h.le_of_boundary boundary) short))
    rw [resolved, missing, Bool.and_false]
    exact Bool.false_ne_true

end Laid

end StageScript
