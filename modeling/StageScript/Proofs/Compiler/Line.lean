import StageScript.Proofs.Compiler.Meaning
import StageScript.Proofs.Source.Rewriting

/-! # What a line that compiled did
* **`Compiler.Called`** — a line in call form: an instruction with the arguments that its operands
  stand for, and targets for the block that the instruction closes or divides;
* **`Compiler.Stated`** — a line of a body that is neither a closing line nor about a platform: the
  block that it opened, a label, or a call;
* **`Compiler.stated_of_statement`** — every such line that compiles is one of these. -/

namespace StageScript

namespace Compiler

open Stepwise

variable {c c' : Compiler}

/-! ## Calls -/

/-- The targets that an instruction gives the block that it closes or divides, where the next
instruction stands at the end of the code. -/
def bound (c : Compiler) (block : Block) : Opcode → Compiler
  | .control .elseBranch => c.setSlot block.slot c.here
  | .control .endIf =>
    let ended := c.setSlot (block.slot + 1) c.here
    (if ended.jumpWord block.slot = -1 then ended.setSlot block.slot (c.here - 1) else ended).closed
  | .control .endSwitch =>
    let ended := c.setSlot (block.slot + 3) c.here
    (if ended.jumpWord (block.slot + 2) = -1 then
      (ended.setSlot (block.slot + 2) (c.here - 1)).filled block.slot (c.here - 1)
    else ended).closed
  | .control .loop => (c.setSlot (block.slot + 1) c.here).closed
  | _ => c

theorem bindBlock_apply (op : Opcode) (block : Block) (c : Compiler) :
    bindBlock op block c.here c = (.ok (), c.bound block op) := by
  have loopCase : bindBlock (.control .loop) block c.here c =
      (.ok (), c.bound block (.control .loop)) := rfl
  cases op with
  | control op =>
    cases op with
    | endIf =>
      simp only [bindBlock, bound, bind_apply, setJump_apply, get_apply]
      split <;> rfl
    | endSwitch =>
      simp only [bindBlock, bound, bind_apply, setJump_apply, get_apply]
      split <;> rfl
    | _ => rfl
  | _ => rfl

/-- What a line in call form did. -/
inductive Called (c : Compiler) (text : Text) : Compiler → Prop
  /-- It added an instruction. -/
  | plain {op : Opcode} {arguments : List Argument}
    (known : Opcode.lookup? (Call.split text).name = some op)
    (meant : (Call.split text).operands.map c.meaning? = arguments.map some)
    (arity : arguments.length = op.arity) (free : governedBlock op = none) :
    Called c text (c.addCode (Instruction.encode op arguments))
  /-- It added an instruction that closes or divides the innermost block. -/
  | block {op : Opcode} {kind : BlockKind} {block : Block} {rest : List Block}
    (known : Opcode.lookup? (Call.split text).name = some op)
    (bare : (Call.split text).operands = []) (governs : governedBlock op = some kind)
    (same : block.kind = kind) (innermost : c.body.blocks = block :: rest) :
    Called c text ((c.addCode (Instruction.encode op [])).bound block op)

theorem arity_of_governedBlock {op : Opcode} {kind : BlockKind} (h : governedBlock op = some kind) :
    op.arity = 0 := by
  unfold governedBlock at h
  split at h <;> first | rfl | cases h

/-- A call has as many operands as its opcode takes. -/
theorem Called.exists_length {text : Text} (h : Called c text c') :
    ∃ op, Opcode.lookup? (Call.split text).name = some op ∧
      (Call.split text).operands.length = op.arity := by
  cases h with
  | plain known meant arity free =>
    have := congrArg List.length meant
    rw [List.length_map, List.length_map, arity] at this
    exact ⟨_, known, this⟩
  | block known bare governs same innermost =>
    exact ⟨_, known, by rw [bare, arity_of_governedBlock governs]; rfl⟩

/-- The targets of a block change words of the jump table only. -/
theorem size_filled (c : Compiler) (header : Nat) (target : Word) :
    (c.filled header target).program.jumpTable.size = c.program.jumpTable.size :=
  size_foldl_modify ..

theorem size_setSlot (c : Compiler) (slot : Nat) (w : Word) :
    (c.setSlot slot w).program.jumpTable.size = c.program.jumpTable.size :=
  Array.size_setIfInBounds

theorem size_bound (c : Compiler) (block : Block) (op : Opcode) :
    (c.bound block op).program.jumpTable.size = c.program.jumpTable.size := by
  unfold bound
  split
  · exact size_setSlot ..
  · dsimp only [closed]
    split
    · rw [size_setSlot, size_setSlot]
    · exact size_setSlot ..
  · dsimp only [closed]
    split
    · rw [size_filled, size_setSlot, size_setSlot]
    · exact size_setSlot ..
  · exact size_setSlot ..
  · rfl

theorem code_bound (c : Compiler) (block : Block) (op : Opcode) :
    (c.bound block op).program.code = c.program.code := by
  unfold bound
  split
  · rfl
  · dsimp only [closed]
    split
    · rw [code_setSlot, code_setSlot]
    · rfl
  · dsimp only [closed]
    split
    · rw [code_filled, code_setSlot, code_setSlot]
    · rfl
  · rfl
  · rfl

theorem Fits.bound {block : Block} {op : Opcode} (h : c.Fits) : (c.bound block op).Fits :=
  ⟨code_bound c block op ▸ h.code, size_bound c block op ▸ h.jumps⟩

/-- **A line in call form that compiles** has added its instruction. -/
theorem called_of_emitCall {text : Text} (h : emitCall text c = (.ok (), c')) :
    Called c text c' ∧ (c.Fits → c'.Fits) := by
  unfold emitCall at h
  dsimp only at h
  cases known : Opcode.lookup? (Call.split text).name with
  | none =>
    rw [known] at h
    cases (Prod.mk.inj h).1
  | some op =>
    rw [known] at h
    dsimp only at h
    by_cases arity : (Call.split text).operands.length = op.arity
    · rw [if_neg (not_not_intro arity)] at h
      cases governs : governedBlock op with
      | none =>
        rw [governs] at h
        simp only [pure_bind] at h
        obtain ⟨⟨⟩, c₁, first, rest⟩ := exists_of_bind_eq_ok h
        obtain ⟨rfl, fits⟩ := emit_eq_ok first
        obtain ⟨arguments, meant, rfl, more⟩ := emitOperands_eq_ok rest
        rw [addCode_addCode] at more ⊢
        have length : arguments.length = op.arity := by
          have := congrArg List.length meant
          rw [List.length_map, List.length_map] at this
          omega
        exact ⟨.plain known meant length governs, more ∘ fits⟩
      | some kind =>
        rw [governs] at h
        simp only [map_eq_pure_bind, bind_assoc, pure_bind] at h
        obtain ⟨block, c₁, first, rest⟩ := exists_of_bind_eq_ok h
        obtain ⟨rfl, same, others, blocks⟩ := innermost_eq_ok first
        obtain ⟨⟨⟩, c₂, second, rest⟩ := exists_of_bind_eq_ok rest
        obtain ⟨rfl, fits⟩ := emit_eq_ok second
        simp only [bind_apply, get_apply, bindBlock_apply] at rest
        have none : (Call.split text).operands = [] := by
          rw [arity_of_governedBlock governs] at arity
          exact List.eq_nil_of_length_eq_zero arity
        rw [none] at rest
        obtain ⟨-, rfl⟩ := Prod.mk.inj rest
        exact ⟨.block known none governs same blocks, fun whole => (fits whole).bound⟩
    · rw [if_pos arity] at h
      cases (Prod.mk.inj h).1

/-! ## Lines -/

theorem emitLine_of_call {text : Text} (noLabel : Directive.caseLabel? text = none)
    (notDefault : Directive.isDefault text = false) : emitLine text = emitCall text := by
  rw [emitLine, noLabel]
  dsimp only
  rw [notDefault, if_neg nofun]

/-- A line that begins with neither of their first letters is no label. -/
theorem emitLine_eq {text : Text} (noCase : text.head? ≠ some 'c') (noDefault : text.head? ≠ some 'd') :
    emitLine text = emitCall text :=
  emitLine_of_call (Directive.caseLabel?_of_head? noCase) (Text.isPrefixOf_of_head? rfl noDefault)

/-- The line that an infix assignment becomes begins with a capital letter. -/
theorem head?_of_assignment? {text assigned : Text} (h : Rewrite.assignment? text = some assigned) :
    assigned.head? ≠ some 'c' ∧ assigned.head? ≠ some 'd' := by
  obtain ⟨found, find, rfl⟩ := Option.map_eq_some_iff.1 h
  obtain ⟨entry, member, occurs⟩ := Operator.exists_of_find? find
  obtain ⟨meaning, -⟩ := Operator.eq_of_occurrence? occurs
  have table : ∀ entry ∈ Operator.assignments, ∃ first rest, entry.2.name.toList = first :: rest ∧
      first ≠ 'c' ∧ first ≠ 'd' := by
    intro entry member
    simp only [Operator.assignments, List.mem_cons, List.not_mem_nil, or_false] at member
    rcases member with rfl | rfl | rfl | rfl | rfl | rfl | rfl | rfl | rfl | rfl | rfl | rfl | rfl
    all_goals exact ⟨_, _, rfl, by decide, by decide⟩
  obtain ⟨first, rest, name, noCase, noDefault⟩ := table entry member
  rw [meaning, name]
  exact ⟨fun h => noCase (Option.some.inj h), fun h => noDefault (Option.some.inj h)⟩

/-- An infix assignment is a call in disguise. -/
theorem emitLine_of_assignment? {text assigned : Text}
    (h : Rewrite.assignment? text = some assigned) : emitLine assigned = emitCall assigned :=
  emitLine_eq (head?_of_assignment? h).1 (head?_of_assignment? h).2

theorem head?_slotCall {name : String} (h : name.toList ≠ []) (slot : Word) (rest : Text) :
    (Rewrite.slotCall name slot ++ rest).head? = name.toList.head? := by
  cases letters : name.toList with
  | nil => exact absurd letters h
  | cons first others =>
    rw [Rewrite.slotCall, letters]
    rfl

/-- **The call form of a block compiles as it stands**: an operator left in it would make it a call
with too many operands. -/
theorem emitCall_of_slotCall {name : String} {slot : Nat} {rest : Text}
    (word : Rewrite.IsWord name) (letters : name.toList ≠ [])
    (noCase : name.toList.head? ≠ some 'c') (noDefault : name.toList.head? ≠ some 'd')
    (small : slot < 0x80000000) (absent : '=' ∉ rest)
    (h : emitLine ((Rewrite.assignment? (Rewrite.slotCall name (Word.ofNat slot) ++ rest)).getD
      (Rewrite.slotCall name (Word.ofNat slot) ++ rest)) c = (.ok (), c')) :
    emitCall (Rewrite.slotCall name (Word.ofNat slot) ++ rest) c = (.ok (), c') := by
  cases assigned : Rewrite.assignment? (Rewrite.slotCall name (Word.ofNat slot) ++ rest) with
  | none =>
    rw [assigned, Option.getD_none, emitLine_eq] at h
    · exact h
    · rwa [head?_slotCall letters]
    · rwa [head?_slotCall letters]
  | some text =>
    rw [assigned, Option.getD_some, emitLine_of_assignment? assigned] at h
    obtain ⟨op, known, arity, many⟩ := Rewrite.two_le_of_assignment? word small absent assigned
    obtain ⟨called, -⟩ := called_of_emitCall h
    obtain ⟨op', known', length⟩ := called.exists_length
    rw [known] at known'
    obtain rfl := Option.some.inj known'
    omega

/-- The block that a line with a condition opens. -/
def conditionBlock : ConditionKeyword → BlockKind
  | .ifLine => .ifBlock
  | .whileLine => .whileBlock

/-- The words of the slots of that block: a `while` comes back to its test. -/
def conditionWords (c : Compiler) : ConditionKeyword → List Word
  | .ifLine => [-1, 0]
  | .whileLine => [c.here, 0]

/-- A compiler behind the header of a switch. -/
def openedSwitch (c : Compiler) : Compiler :=
  let opened := c.opened .switchBlock [LabelRange.start.min, LabelRange.start.max, -1, 0]
  { opened with
    body := { opened.body with switches := opened.body.switches ++ [c.program.jumpTable.size] } }

theorem openCondition_eq_ok {keyword : ConditionKeyword} (h : openCondition keyword c = (.ok (), c')) :
    c' = c.opened (conditionBlock keyword) (c.conditionWords keyword) ∧ (c.Fits → c'.Fits) := by
  cases keyword with
  | ifLine => exact openBlock_eq_ok h
  | whileLine => exact openBlock_eq_ok h

theorem openCondition_room {keyword : ConditionKeyword} (h : openCondition keyword c = (.ok (), c')) :
    c.program.jumpTable.size < jumpCapacity := by
  cases keyword with
  | ifLine => exact @openBlock_room c c' .ifBlock (-1) [0] h
  | whileLine => exact @openBlock_room c c' .whileBlock c.here [0] h

theorem openSwitch_room {header : Nat} (h : openSwitch c = (.ok header, c')) :
    c.program.jumpTable.size < jumpCapacity := by
  rw [openSwitch, bind_apply, get_apply] at h
  obtain ⟨⟨⟩, c₁, first, -⟩ := exists_of_bind_eq_ok h
  exact openBlock_room first

theorem openSwitch_eq_ok {header : Nat} (h : openSwitch c = (.ok header, c')) :
    header = c.program.jumpTable.size ∧ c' = c.openedSwitch ∧ (c.Fits → c'.Fits) := by
  rw [openSwitch, bind_apply, get_apply] at h
  obtain ⟨⟨⟩, c₁, first, rest⟩ := exists_of_bind_eq_ok h
  obtain ⟨rfl, fits⟩ := openBlock_eq_ok first
  obtain ⟨answer, rfl⟩ := Prod.mk.inj rest
  exact ⟨(Except.ok.inj answer).symm, rfl, fun whole => ⟨(fits whole).code, (fits whole).jumps⟩⟩

/-- What a label did: it gave a slot of the innermost switch a target, or all that had none. -/
inductive Labelled (c : Compiler) (text : Text) : Compiler → Prop
  | case {label : Text} {value : Word} {block : Block} {rest : List Block}
    (read : Directive.caseLabel? text = some label)
    (innermost : c.body.blocks = block :: rest) (kind : block.kind = .switchBlock)
    (known : labelValue c.aliases label = .ok value)
    (least : 0 ≤ value.toInt - (c.labelRange block.slot).min.toInt)
    (most : value.toInt - (c.labelRange block.slot).min.toInt < (c.labelRange block.slot).size) :
    Labelled c text (c.setSlot
      (block.slot + 4 + (value.toInt - (c.labelRange block.slot).min.toInt).toNat) c.here)
  | default {block : Block} {rest : List Block}
    (other : Directive.caseLabel? text = none) (read : Directive.isDefault text = true)
    (innermost : c.body.blocks = block :: rest) (kind : block.kind = .switchBlock) :
    Labelled c text ((c.setSlot (block.slot + 2) c.here).filled block.slot c.here)

theorem Labelled.fits {text : Text} (h : Labelled c text c') (whole : c.Fits) : c'.Fits := by
  cases h with
  | case => exact ⟨whole.code, (size_setSlot ..).symm ▸ whole.jumps⟩
  | default =>
    refine ⟨whole.code, ?_⟩
    rw [size_filled, size_setSlot]
    exact whole.jumps

theorem labelled_of_bindCase {text label : Text} (read : Directive.caseLabel? text = some label)
    (h : bindCase label c = (.ok (), c')) : Labelled c text c' := by
  obtain ⟨block, c₁, first, rest⟩ := exists_of_bind_eq_ok h
  obtain ⟨rfl, kind, others, blocks⟩ := innermost_eq_ok first
  rw [bind_apply, get_apply] at rest
  dsimp only at rest
  obtain ⟨value, c₂, second, rest⟩ := exists_of_bind_eq_ok rest
  rw [mk_pure_apply] at second
  obtain ⟨known, rfl⟩ := Prod.mk.inj second
  by_cases inside : (decide (0 ≤ value.toInt - (c₁.labelRange block.slot).min.toInt) &&
      decide (value.toInt - (c₁.labelRange block.slot).min.toInt <
        (c₁.labelRange block.slot).size)) = true
  · rw [if_pos inside] at rest
    obtain ⟨-, rfl⟩ := Prod.mk.inj rest
    simp only [Bool.and_eq_true, decide_eq_true_eq] at inside
    exact .case read blocks kind known inside.1 inside.2
  · rw [if_neg inside] at rest
    cases (Prod.mk.inj rest).1

theorem labelled_of_bindDefault {text : Text} (other : Directive.caseLabel? text = none)
    (read : Directive.isDefault text = true) (h : bindDefault c = (.ok (), c')) :
    Labelled c text c' := by
  obtain ⟨block, c₁, first, rest⟩ := exists_of_bind_eq_ok h
  obtain ⟨rfl, kind, others, blocks⟩ := innermost_eq_ok first
  obtain ⟨-, rfl⟩ := Prod.mk.inj rest
  exact .default other read blocks kind

/-- What a line of a body did that neither closes it nor is about a platform. The number is that of
the header of a switch that the line opened. -/
inductive Stated (c : Compiler) (text : Text) : Option Nat → Compiler → Prop
  /-- It opened an `if` or a `while`. -/
  | test {condition : Condition} {comparison : Comparison} {arguments : List Argument}
    (rewritten : Rewrite.condition? text c.nextSlot = some condition)
    (known : Opcode.lookup? (Call.split condition.text).name =
      some (condition.keyword.opcode comparison))
    (meant : (Call.split condition.text).operands.map c.meaning? = arguments.map some)
    (arity : arguments.length = 3) (room : c.program.jumpTable.size < jumpCapacity) :
    Stated c text none
      ((c.opened (conditionBlock condition.keyword) (c.conditionWords condition.keyword)).addCode
        (Instruction.encode (condition.keyword.opcode comparison) arguments))
  /-- It opened a switch. -/
  | switch {opened : Text} {arguments : List Argument}
    (noTest : Rewrite.condition? text c.nextSlot = none)
    (rewritten : Rewrite.switch? text c.nextSlot = some opened)
    (known : Opcode.lookup? (Call.split opened).name = some (.control .switch))
    (meant : (Call.split opened).operands.map c.meaning? = arguments.map some)
    (arity : arguments.length = 2) (room : c.program.jumpTable.size < jumpCapacity) :
    Stated c text (some c.program.jumpTable.size)
      (c.openedSwitch.addCode (Instruction.encode (.control .switch) arguments))
  /-- It was a label. -/
  | label {behind : Compiler} (noTest : Rewrite.condition? text c.nextSlot = none)
    (noSwitch : Rewrite.switch? text c.nextSlot = none)
    (label : Labelled c ((Rewrite.assignment? text).getD text) behind) : Stated c text none behind
  /-- It was a call, or an assignment. -/
  | call {behind : Compiler} (noTest : Rewrite.condition? text c.nextSlot = none)
    (noSwitch : Rewrite.switch? text c.nextSlot = none)
    (noCase : Directive.caseLabel? ((Rewrite.assignment? text).getD text) = none)
    (noDefault : Directive.isDefault ((Rewrite.assignment? text).getD text) = false)
    (call : Called c ((Rewrite.assignment? text).getD text) behind) : Stated c text none behind

theorem nextSlot_lt (room : c.program.jumpTable.size ≤ jumpCapacity) :
    c.program.jumpTable.size - c.body.entry.jump < 0x80000000 := by
  rw [jumpCapacity] at room
  omega

/-- The name of a test begins with a capital letter. -/
theorem head?_name (keyword : ConditionKeyword) (comparison : Comparison) :
    (keyword.opcode comparison).name.toList.head? = some 'I' ∨
      (keyword.opcode comparison).name.toList.head? = some 'W' := by
  cases keyword with
  | ifLine =>
    left
    cases comparison <;> rfl
  | whileLine =>
    right
    cases comparison <;> rfl

theorem lookup?_name (keyword : ConditionKeyword) (comparison : Comparison) :
    Opcode.lookup? (keyword.opcode comparison).name.toList = some (keyword.opcode comparison) := by
  cases keyword <;> cases comparison <;> decide +kernel

theorem not_startsSwitch {text : Text} (h : text.head? ≠ some 's') :
    Directive.startsSwitch text = false := Text.isPrefixOf_of_head? rfl h

/-- What a call that compiled gives when it is known to be one of an opcode that governs no block. -/
theorem exists_of_emitCall {text : Text} {op : Opcode} (h : emitCall text c = (.ok (), c'))
    (known : Opcode.lookup? (Call.split text).name = some op) (free : governedBlock op = none) :
    ∃ arguments : List Argument,
      (Call.split text).operands.map c.meaning? = arguments.map some ∧
        arguments.length = op.arity ∧ c' = c.addCode (Instruction.encode op arguments) := by
  obtain ⟨called, -⟩ := called_of_emitCall h
  cases called with
  | plain known' meant arity free' =>
    rw [known] at known'
    obtain rfl := Option.some.inj known'
    exact ⟨_, meant, arity, rfl⟩
  | block known' bare governs same innermost =>
    rw [known] at known'
    obtain rfl := Option.some.inj known'
    rw [free] at governs
    cases governs

theorem exists_of_head?_name (keyword : ConditionKeyword) (comparison : Comparison) :
    (keyword.opcode comparison).name.toList ≠ [] ∧
      ∀ first ∈ ['c', 'd', 's'], (keyword.opcode comparison).name.toList.head? ≠ some first := by
  have head := head?_name keyword comparison
  constructor
  · intro none
    rw [none] at head
    rcases head with head | head <;> cases head
  · rcases head with head | head <;> (rw [head]; simp)

/-- The call form of a test is compiled behind its block. -/
theorem stated_of_condition? {text : Text} {condition : Condition}
    (room : c.program.jumpTable.size < jumpCapacity)
    (rewritten : Rewrite.condition? text c.nextSlot = some condition)
    (fits : c.Fits →
      (c.opened (conditionBlock condition.keyword) (c.conditionWords condition.keyword)).Fits)
    (h : emitLine ((Rewrite.assignment? condition.text).getD condition.text)
      (c.opened (conditionBlock condition.keyword) (c.conditionWords condition.keyword)) =
        (.ok (), c')) : Stated c text none c' ∧ (c.Fits → c'.Fits) := by
  have small := nextSlot_lt (Nat.le_of_lt room)
  obtain ⟨comparison, rest, shape, absent⟩ := Rewrite.exists_of_condition? rewritten
  have word := Rewrite.isWord_name condition.keyword comparison
  obtain ⟨letters, heads⟩ := exists_of_head?_name condition.keyword comparison
  rw [nextSlot] at shape
  rw [shape] at h
  have compiled := emitCall_of_slotCall word letters (heads 'c' (by decide)) (heads 'd' (by decide))
    small absent h
  have known : Opcode.lookup? (Call.split condition.text).name =
      some (condition.keyword.opcode comparison) := by
    rw [shape, Call.split_slotCall (word.not_mem (by decide)) small]
    exact lookup?_name _ _
  have free : governedBlock (condition.keyword.opcode comparison) = none := by
    cases condition.keyword <;> rfl
  have three : (condition.keyword.opcode comparison).arity = 3 := by
    cases condition.keyword <;> cases comparison <;> rfl
  have still := (called_of_emitCall compiled).2
  rw [← shape] at compiled
  obtain ⟨arguments, meant, arity, rfl⟩ := exists_of_emitCall compiled known free
  exact ⟨.test rewritten known meant (arity.trans three) room, still ∘ fits⟩

/-- The call form of a switch is compiled behind its header. -/
theorem stated_of_switch? {text opened : Text} (room : c.program.jumpTable.size < jumpCapacity)
    (noTest : Rewrite.condition? text c.nextSlot = none)
    (rewritten : Rewrite.switch? text c.nextSlot = some opened)
    (fits : c.Fits → c.openedSwitch.Fits)
    (h : emitLine ((Rewrite.assignment? opened).getD opened) c.openedSwitch = (.ok (), c')) :
    Stated c text (some c.program.jumpTable.size) c' ∧ (c.Fits → c'.Fits) := by
  have small := nextSlot_lt (Nat.le_of_lt room)
  obtain ⟨rest, shape, absent⟩ := Rewrite.exists_of_switch? rewritten
  have word : Rewrite.IsWord "switch" := by decide
  rw [nextSlot] at shape
  rw [shape] at h
  have compiled := emitCall_of_slotCall word (by decide) (by decide) (by decide)
    small absent h
  have known : Opcode.lookup? (Call.split opened).name = some (.control .switch) := by
    rw [shape, Call.split_slotCall (word.not_mem (by decide)) small]
    show Opcode.lookup? "switch".toList = _
    decide +kernel
  have still := (called_of_emitCall compiled).2
  rw [← shape] at compiled
  obtain ⟨arguments, meant, arity, rfl⟩ := exists_of_emitCall compiled known rfl
  exact ⟨.switch noTest rewritten known meant arity room, still ∘ fits⟩

/-- **A line of a body that compiles** is a test, a switch, a label or a call. -/
theorem stated_of_statement {text : Text} {header? : Option Nat}
    (h : statement text c = (.ok header?, c')) :
    Stated c text header? c' ∧ (c.Fits → c'.Fits) := by
  rw [statement, bind_apply, get_apply] at h
  dsimp only at h
  cases rewritten : Rewrite.condition? text c.nextSlot with
  | some condition =>
    rw [rewritten] at h
    simp only [pure_bind] at h
    obtain ⟨⟨⟩, c₁, first, h⟩ := exists_of_bind_eq_ok h
    have room := openCondition_room first
    obtain ⟨rfl, fits⟩ := openCondition_eq_ok first
    -- the line is in call form now, and no switch
    have noSwitch (slot : Word) : Rewrite.switch? condition.text slot = none := by
      obtain ⟨comparison, rest, shape, -⟩ := Rewrite.exists_of_condition? rewritten
      obtain ⟨letters, heads⟩ := exists_of_head?_name condition.keyword comparison
      have : Directive.startsSwitch condition.text = false := by
        apply not_startsSwitch
        rw [shape, head?_slotCall letters]
        exact heads 's' (by decide)
      rw [← Option.not_isSome_iff_eq_none, Rewrite.isSome_switch?, this]
      exact Bool.false_ne_true
    rw [bind_apply, get_apply] at h
    dsimp only at h
    rw [noSwitch] at h
    dsimp only at h
    obtain ⟨⟨⟩, c₂, second, h⟩ := exists_of_bind_eq_ok h
    obtain ⟨answer, rfl⟩ := Prod.mk.inj h
    obtain rfl := Except.ok.inj answer
    exact stated_of_condition? room rewritten fits second
  | none =>
    rw [rewritten] at h
    simp only [pure_bind] at h
    rw [bind_apply, get_apply] at h
    dsimp only at h
    cases switched : Rewrite.switch? text c.nextSlot with
    | some opened =>
      rw [switched] at h
      dsimp only at h
      obtain ⟨header, c₁, first, h⟩ := exists_of_bind_eq_ok h
      have room := openSwitch_room first
      obtain ⟨rfl, rfl, fits⟩ := openSwitch_eq_ok first
      obtain ⟨⟨⟩, c₂, second, h⟩ := exists_of_bind_eq_ok h
      obtain ⟨answer, rfl⟩ := Prod.mk.inj h
      obtain rfl := Except.ok.inj answer
      exact stated_of_switch? room rewritten switched fits second
    | none =>
      rw [switched] at h
      dsimp only at h
      obtain ⟨⟨⟩, c₁, first, h⟩ := exists_of_bind_eq_ok h
      obtain ⟨answer, rfl⟩ := Prod.mk.inj h
      obtain rfl := Except.ok.inj answer
      rw [emitLine] at first
      cases read : Directive.caseLabel? ((Rewrite.assignment? text).getD text) with
      | some label =>
        rw [read] at first
        have labelled := labelled_of_bindCase read first
        exact ⟨.label rewritten switched labelled, labelled.fits⟩
      | none =>
        rw [read] at first
        dsimp only at first
        by_cases default : Directive.isDefault ((Rewrite.assignment? text).getD text) = true
        · rw [if_pos default] at first
          have labelled := labelled_of_bindDefault read default first
          exact ⟨.label rewritten switched labelled, labelled.fits⟩
        · rw [if_neg default] at first
          obtain ⟨called, fits⟩ := called_of_emitCall first
          exact ⟨.call rewritten switched read (Bool.eq_false_iff.2 default) called, fits⟩

/-! ## Slots -/

/-- Whether the numeral of a slot stands for itself, so that no name takes its place. -/
def KeepsNumerals (c : Compiler) : Prop :=
  ∀ n, c.substitute ⟨Numeral.ofNat n, none⟩ = ⟨Numeral.ofNat n, none⟩

theorem KeepsNumerals.meaning?_eq (h : c.KeepsNumerals) (n : Nat) :
    c.meaning? ⟨Numeral.ofNat n, none⟩ = some (.integer (Word.ofNat n)) := by
  rw [meaning?, h, Operand.argument?, Numeral.parse?_ofNat]

/-- The place of the next slot in the slots of the body. -/
def slotNumber (c : Compiler) : Nat := c.program.jumpTable.size - c.body.entry.jump

/-- No name takes the place of the numeral of the next slot. -/
def NamesSlot (c : Compiler) : Prop :=
  c.meaning? ⟨Numeral.ofNat c.slotNumber, none⟩ = some (.integer (Word.ofNat c.slotNumber))

instance (c : Compiler) : Decidable c.NamesSlot := inferInstanceAs (Decidable (_ = _))

theorem KeepsNumerals.namesSlot (h : c.KeepsNumerals) : c.NamesSlot := h.meaning?_eq _

/-- The first argument of a call form is the slot. -/
theorem NamesSlot.exists_of_slotCall {name : String} {rest : Text} {arguments : List Argument}
    (h : c.NamesSlot) (room : c.program.jumpTable.size < jumpCapacity) (word : Rewrite.IsWord name)
    (meant : (Call.split (Rewrite.slotCall name c.nextSlot ++ rest)).operands.map c.meaning? =
      arguments.map some) :
    ∃ more, arguments = .integer (Word.ofNat c.slotNumber) :: more := by
  rw [nextSlot, Call.split_slotCall (word.not_mem (by decide)) (nextSlot_lt (Nat.le_of_lt room))]
    at meant
  obtain ⟨o, more, eq⟩ := Call.readOperands_done rest false {}
  rw [eq _ (List.cons_ne_nil _ _)] at meant
  cases arguments with
  | nil => cases meant
  | cons first others =>
    have head := (List.cons.inj meant).1
    rw [NamesSlot, slotNumber, head] at h
    exact ⟨others, by rw [slotNumber, Option.some.inj h]⟩

theorem NamesSlot.exists_of_condition? {text : Text} {condition : Condition}
    {arguments : List Argument} (h : c.NamesSlot) (room : c.program.jumpTable.size < jumpCapacity)
    (rewritten : Rewrite.condition? text c.nextSlot = some condition)
    (meant : (Call.split condition.text).operands.map c.meaning? = arguments.map some) :
    ∃ more, arguments = .integer (Word.ofNat c.slotNumber) :: more := by
  obtain ⟨comparison, rest, shape, -⟩ := Rewrite.exists_of_condition? rewritten
  rw [shape] at meant
  exact h.exists_of_slotCall room (Rewrite.isWord_name _ _) meant

theorem NamesSlot.exists_of_switch? {text opened : Text} {arguments : List Argument}
    (h : c.NamesSlot) (room : c.program.jumpTable.size < jumpCapacity)
    (rewritten : Rewrite.switch? text c.nextSlot = some opened)
    (meant : (Call.split opened).operands.map c.meaning? = arguments.map some) :
    ∃ more, arguments = .integer (Word.ofNat c.slotNumber) :: more := by
  obtain ⟨rest, rfl, -⟩ := Rewrite.exists_of_switch? rewritten
  exact h.exists_of_slotCall room (by decide) meant

/-! ## Looking ahead -/

/-- A compiler with another range in the header of a switch. -/
def ranged (c : Compiler) (header : Nat) (range : LabelRange) : Compiler :=
  (c.setSlot header range.min).setSlot (header + 1) range.max

/-- A compiler behind the slots of a switch. -/
def primed (c : Compiler) (header : Nat) (range : LabelRange) : Compiler :=
  ((c.ranged header range).ranged header range.settle).addJumps
    (List.replicate range.settle.size (-1))

theorem size_ranged (c : Compiler) (header : Nat) (range : LabelRange) :
    (c.ranged header range).program.jumpTable.size = c.program.jumpTable.size := by
  rw [ranged, size_setSlot, size_setSlot]

theorem onLine_eq_ok {α : Type} {line : Nat} {step : Emit α} {a : α}
    (h : onLine line step c = (.ok a, c')) : step c = (.ok a, c') := by
  rw [onLine] at h
  rcases answer : step c with ⟨_ | _, c₁⟩
  · rw [answer] at h
    cases (Prod.mk.inj h).1
  · rw [answer] at h
    obtain ⟨same, rfl⟩ := Prod.mk.inj h
    obtain rfl := Except.ok.inj same
    rfl

theorem reserveCases_eq_ok {header : Nat} {range : LabelRange}
    (h : reserveCases header range c = (.ok (), c')) :
    c' = (c.ranged header range.settle).addJumps (List.replicate range.settle.size (-1)) ∧
      (c.Fits → c'.Fits) := by
  unfold reserveCases setLabelRange at h
  simp only [bind_assoc] at h
  obtain ⟨⟨⟩, c₁, first, h⟩ := exists_of_bind_eq_ok h
  obtain ⟨-, rfl⟩ := Prod.mk.inj first
  obtain ⟨⟨⟩, c₁, second, h⟩ := exists_of_bind_eq_ok h
  obtain ⟨-, rfl⟩ := Prod.mk.inj second
  rw [bind_apply, get_apply] at h
  dsimp only at h
  obtain ⟨⟨⟩, c₂, third, h⟩ := exists_of_bind_eq_ok h
  obtain ⟨rfl, fits⟩ := reserve_eq_ok third
  split at h
  · cases (Prod.mk.inj h).1
  · next room =>
    obtain ⟨-, rfl⟩ := Prod.mk.inj h
    rw [Nat.min_eq_left (Nat.le_of_not_lt room)] at fits ⊢
    refine ⟨rfl, fun whole => fits ⟨whole.code, ?_⟩⟩
    show (c.ranged header range.settle).program.jumpTable.size ≤ jumpCapacity
    rw [size_ranged]
    exact whole.jumps

/-- **A switch whose labels were found** has a slot for each value of their range. -/
theorem prime_eq_ok {header opening : Nat} {rest : List Line}
    (h : prime header opening rest c = (.ok (), c')) :
    (∃ line, (Priming.scan c.aliases rest 0 opening LabelRange.start).ending = .closed line) ∧
      c' = c.primed header (Priming.scan c.aliases rest 0 opening LabelRange.start).range ∧
      (c.Fits → c'.Fits) := by
  unfold prime at h
  rw [bind_apply, get_apply] at h
  dsimp only at h
  generalize Priming.scan c.aliases rest 0 opening LabelRange.start = priming at h ⊢
  obtain ⟨⟨⟩, c₁, first, h⟩ := exists_of_bind_eq_ok h
  obtain ⟨-, rfl⟩ := Prod.mk.inj (onLine_eq_ok first)
  cases ending : priming.ending with
  | closed line =>
    rw [ending] at h
    obtain ⟨rfl, fits⟩ := reserveCases_eq_ok (onLine_eq_ok h)
    refine ⟨⟨line, rfl⟩, rfl, fun whole => fits ⟨whole.code, ?_⟩⟩
    exact (size_ranged c header priming.range).symm ▸ whole.jumps
  | refused line reason =>
    rw [ending] at h
    cases (Prod.mk.inj h).1
  | unclosed line =>
    rw [ending] at h
    cases (Prod.mk.inj h).1

end Compiler

end StageScript
