import StageScript.Proofs.Compiler.Closure
import StageScript.Proofs.Compiler.Simulation
import StageScript.Proofs.Compiler.Spelling

/-! # Passages are compiled to what they say
* **`Compiler.called_of_instructs`** and its companions — what a line of each form does that compiles;
* **`Passage.Spells.translates`** — the lines of a passage that compile are laid out as the statement
  that the passage stands for: one law of `Passage.Translates` for each way to write a passage. -/

namespace StageScript

open Stepwise Compiler Statement

variable {c c' c₀ c₁ : Compiler} {line : Line} {rest : List Line} {text : Text} {type last : Nat}
  {bs : List BlockRecord}

/-! ## Operands that mean something -/

section

variable {α β : Type} {f : α → Option β} {ys : List β}

theorem mapM_of_map_eq {xs : List α} (h : xs.map f = ys.map some) : xs.mapM f = some ys := by
  induction xs generalizing ys with
  | nil =>
    obtain rfl := List.map_eq_nil_iff.1 h.symm
    rfl
  | cons x xs ih =>
    cases ys with
    | nil => cases h
    | cons y ys =>
      obtain ⟨head, tail⟩ := List.cons.inj h
      simp [List.mapM_cons, head, ih tail]

theorem exists_of_map_pair {a b : α} (h : [a, b].map f = ys.map some) :
    ∃ x y, ys = [x, y] ∧ f a = some x ∧ f b = some y := by
  obtain ⟨x, _, rfl, first, tail⟩ := List.map_eq_cons_iff.1 h.symm
  obtain ⟨y, _, rfl, second, tail⟩ := List.map_eq_cons_iff.1 tail
  obtain rfl := List.map_eq_nil_iff.1 tail
  exact ⟨x, y, rfl, first.symm, second.symm⟩

theorem exists_of_map_triple {a b c : α} (h : [a, b, c].map f = ys.map some) :
    ∃ x y z, ys = [x, y, z] ∧ f a = some x ∧ f b = some y ∧ f c = some z := by
  obtain ⟨x, _, rfl, first, tail⟩ := List.map_eq_cons_iff.1 h.symm
  obtain ⟨y, z, rfl, second, third⟩ := exists_of_map_pair tail.symm
  exact ⟨x, y, z, rfl, first.symm, second, third⟩

end

/-! ## Lines of an open body -/

/-- A line that neither closes a body nor is about a platform. -/
structure Directive.Inner (text : Text) : Prop where
  stays : Region.closes text = false
  noPlatform : Directive.platform? text = none
  noEnd : Directive.endsPlatform text = false

theorem Inside.stated {header? : Option Nat} (h : Inside c text header? c')
    (inner : Directive.Inner text) : Stated c text header? c' := by
  cases h with
  | closes _ _ keyword =>
    have stays := inner.stays
    rw [Region.closes, Bool.or_eq_false_iff] at stays
    rcases keyword with ⟨read, -⟩ | ⟨-, read, -⟩
    · cases stays.1.symm.trans read
    · cases stays.2.symm.trans read
  | platform _ read => cases inner.noPlatform.symm.trans read
  | endsPlatform _ _ read => cases inner.noEnd.symm.trans read
  | other _ _ _ stated => exact stated

/-- **A body that is open** fits into the code if it is closed further on. -/
theorem Between.short {lines : List Line} (h : Between c bs) (opened : c.mode ≠ .outside)
    (compiled : compileLines type last lines c = (.ok (), c')) :
    c.program.code.size ≤ codeCapacity := by
  -- The line that closes the body has looked at the size, and the code only grows on the way there.
  induction lines generalizing c bs last with
  | nil => exact absurd (eq_of_compileLines_nil compiled).1 opened
  | cons line rest ih =>
    by_cases empty : line.text = []
    · rw [compileLines_of_empty empty] at compiled
      exact ih h opened compiled
    obtain ⟨c₁, first, others⟩ := exists_of_compileLines empty compiled
    have step := h.advances first
    by_cases opened' : c₁.mode = .outside
    · have begun := h opened
      cases lined_of_compileLine first with
      | outside mode => exact absurd mode opened
      | skipped mode =>
        split at opened'
        · cases opened'
        · exact absurd opened' opened
      | inside mode did =>
        cases did with
        | closes _ room => exact Nat.le_of_lt room
        | platform =>
          split at opened'
          · exact absurd opened' opened
          · cases opened'
        | endsPlatform => exact absurd opened' opened
        | other _ _ _ stated =>
          exact absurd ((stated.grows begun.jump begun.slots).mode.symm.trans opened') opened
      | primed mode did =>
        cases did with
        | other _ _ _ stated =>
          rw [mode_primed] at opened'
          exact absurd ((stated.grows begun.jump begun.slots).mode.symm.trans opened') opened
    · obtain ⟨more, code⟩ := step.follows.code
      have short := ih step.between opened' others
      rw [code, Array.size_append] at short
      omega

/-! ## What lines do -/

namespace Directive

/-- A line that begins with one of these letters stays inside. -/
theorem inner_of_head? {first : Char} (head : text.head? = some first)
    (letter : first ∈ ['i', 'w', 's', 'c', 'd']) : Inner text := by
  have letters : ∀ first ∈ ['i', 'w', 's', 'c', 'd'],
      first ≠ '#' ∧ (first.toLower == 'e'.toLower) = false := Text.forall_mem_of_all (by decide)
  obtain ⟨other, other'⟩ := letters first letter
  have noMark : text.head? ≠ some '#' := by
    rw [head]
    exact fun same => other (Option.some.inj same)
  refine ⟨?_, ?_, Text.isPrefixOf_of_head? rfl noMark⟩
  · cases text with
    | nil => cases head
    | cons c text =>
      obtain rfl := Option.some.inj head
      rw [Region.closes, show "endsub".toList = 'e' :: "ndsub".toList from rfl,
        show "endfunction".toList = 'e' :: "ndfunction".toList from rfl, Text.sameName, Text.sameName,
        other', Bool.false_and, Bool.false_and]
      rfl
  · have front : Text.stripPrefix? "#platform:".toList text = none := by
      rw [← Option.not_isSome_iff_eq_none, Text.isSome_stripPrefix?,
        Text.isPrefixOf_of_head? rfl noMark]
      exact Bool.false_ne_true
    rw [platform?, front]
    rfl

theorem Plain.inner (h : Plain text) (stays : Region.closes text = false) : Inner text :=
  ⟨stays, h.noPlatform, h.noEnd⟩

end Directive

/-- A line that neither tests nor opens a switch is a label or a call. -/
theorem Compiler.Stated.label_or_call {header? : Option Nat} (h : Stated c text header? c')
    (noTest : ∀ slot, Rewrite.condition? text slot = none)
    (noSwitch : ∀ slot, Rewrite.switch? text slot = none) :
    header? = none ∧ (Labelled c ((Rewrite.assignment? text).getD text) c' ∨
      Directive.caseLabel? ((Rewrite.assignment? text).getD text) = none ∧
        Directive.isDefault ((Rewrite.assignment? text).getD text) = false ∧
          Called c ((Rewrite.assignment? text).getD text) c') := by
  cases h with
  | test rewritten => cases rewritten.symm.trans (noTest _)
  | switch _ rewritten => cases rewritten.symm.trans (noSwitch _)
  | label _ _ labelled => exact ⟨rfl, .inl labelled⟩
  | call _ _ noCase noDefault called => exact ⟨rfl, .inr ⟨noCase, noDefault, called⟩⟩

section

variable (mode : c.mode = .inside) (compiled : compileLine type line rest c = (.ok (), c'))

include mode compiled

/-- A line that opens no switch has done what it did before the next line. -/
theorem stated_of_compileLine (inner : Directive.Inner line.text)
    (noSwitch : ∀ slot, Rewrite.switch? line.text slot = none) : Stated c line.text none c' := by
  rcases inside_of_compileLine mode compiled with inside | ⟨header, c₁, n, inside, -, -⟩
  · exact inside.stated inner
  · cases inside.stated inner with
    | switch _ rewritten => cases rewritten.symm.trans (noSwitch _)

/-- **A line that opens a switch** does what it did before its labels were looked up ahead, and then
there is a slot for each of them. -/
theorem exists_of_startsSwitch (starts : Directive.startsSwitch line.text = true) :
    ∃ header c₁ n, Stated c line.text (some header) c₁ ∧
      (Priming.scan c.aliases rest 0 line.number LabelRange.start).ending = .closed n ∧
        c' = c₁.primed header
          (Priming.scan c.aliases rest 0 line.number LabelRange.start).range := by
  have head := Text.head?_of_isPrefixOf (show "switch".toList.head? = some 's' from rfl) starts
  have noTest (slot : Word) : Rewrite.condition? line.text slot = none := by
    rw [Option.eq_none_iff_forall_ne_some]
    intro condition rewritten
    cases (Rewrite.noSwitch_of_condition? rewritten).1.symm.trans starts
  have opens (slot : Word) : (Rewrite.switch? line.text slot).isSome := by
    rw [Rewrite.isSome_switch?, starts]
  have inner := Directive.inner_of_head? head (by decide)
  rcases inside_of_compileLine mode compiled with inside | ⟨header, c₁, n, inside, closed, rfl⟩
  · cases inside.stated inner with
    | test rewritten => cases rewritten.symm.trans (noTest _)
    | label _ noSwitch => cases noSwitch ▸ opens _
    | call _ noSwitch => cases noSwitch ▸ opens _
  · have stated := inside.stated inner
    have same : c₁.aliases = c.aliases := by cases stated; rfl
    rw [same] at closed ⊢
    exact ⟨header, c₁, n, stated, closed, rfl⟩

/-- **A line with an instruction** adds it with the arguments that its operands mean. -/
theorem eq_addCode_of_instructs {op : Opcode} {operands : List Operand}
    (h : Instructs line.text op operands) (called : op.IsPlain) :
    ∃ arguments : List Argument, operands.map c.meaning? = arguments.map some ∧
      arguments.length = op.arity ∧ op ∈ Opcode.all ∧
        c' = c.addCode (Instruction.encode op arguments) := by
  have plain := h.plain called
  -- No opcode that may be called is a keyword of bodies.
  have notSub : Text.sameName line.text "endsub".toList = false := by
    refine h.not_closes (Text.forall_mem_of_all (by decide)) ?_
    rw [show Opcode.lookup? "endsub".toList = none by decide +kernel]
    exact nofun
  have notFunction : Text.sameName line.text "endfunction".toList = false := by
    refine h.not_closes (Text.forall_mem_of_all (by decide)) ?_
    rw [show Opcode.lookup? "endfunction".toList = some (.control .endFunction) by decide +kernel]
    rintro same
    obtain rfl := Option.some.inj same
    revert called
    decide
  have inner := plain.inner (by rw [Region.closes, notSub, notFunction]; rfl)
  have stated := stated_of_compileLine mode compiled inner plain.noSwitch
  obtain ⟨name, read, known, noCase, noDefault⟩ := h.split_eq called
  obtain ⟨-, labelled | ⟨-, -, did⟩⟩ := stated.label_or_call plain.noTest plain.noSwitch
  · cases labelled with
    | case read => cases read.symm.trans noCase
    | default _ read => cases read.symm.trans noDefault
  · cases did with
    | plain known' meant arity =>
      rw [read] at known' meant
      obtain rfl := Option.some.inj (known'.symm.trans known)
      exact ⟨_, meant, arity, Opcode.mem_all_of_lookup? known', rfl⟩
    | block known' _ governs =>
      rw [read] at known'
      obtain rfl := Option.some.inj (known'.symm.trans known)
      rcases called with data | rfl
      · unfold governedBlock at governs
        split at governs <;> first | cases data | cases governs
      · cases governs

/-- **A keyword** divides or closes the innermost block. -/
theorem eq_bound_of_closes {keyword : String} {op : Opcode} {kind : BlockKind}
    (h : Closes keyword line.text) (letters : ∀ c ∈ keyword.toList, c.toLower ∈ Text.letters)
    (plain : Directive.Plain line.text) (stays : Region.closes line.text = false)
    (known : Opcode.lookup? keyword.toList = some op) (governs : governedBlock op = some kind) :
    ∃ block others, c.body.blocks = block :: others ∧ block.kind = kind ∧ op ∈ Opcode.all ∧
      c' = (c.addCode (Instruction.encode op [])).bound block op := by
  have stated := stated_of_compileLine mode compiled (plain.inner stays) plain.noSwitch
  have written := h.letters letters
  have same : (Rewrite.assignment? line.text).getD line.text = line.text := by
    rw [Rewrite.assignment?, Operator.find?_of_letters written]
    rfl
  have split := Call.split_of_letters written
  have known : Opcode.lookup? line.text = some op := (Opcode.lookup?_congr h).trans known
  obtain ⟨-, labelled | ⟨-, -, did⟩⟩ := stated.label_or_call plain.noTest plain.noSwitch
  · rw [same] at labelled
    cases labelled with
    | case read => cases read.symm.trans plain.noCase
    | default _ read => cases read.symm.trans plain.noDefault
  · rw [same] at did
    cases did with
    | plain known' _ _ free =>
      rw [split] at known'
      obtain rfl := Option.some.inj (known'.symm.trans known)
      cases free.symm.trans governs
    | @block _ _ block others known' _ governs' kind' innermost =>
      rw [split] at known'
      obtain rfl := Option.some.inj (known'.symm.trans known)
      obtain rfl := Option.some.inj (governs'.symm.trans governs)
      exact ⟨block, others, innermost, kind', Opcode.mem_all_of_lookup? known, rfl⟩

/-- **A label** is one of the innermost switch. -/
theorem labelled_of_compileLine {first : Char} (head : line.text.head? = some first)
    (letter : first ∈ ['c', 'd'])
    (noOperator : Operator.find? Operator.assignments line.text = none)
    (read : (Directive.caseLabel? line.text).isSome ∨ Directive.isDefault line.text = true) :
    Labelled c line.text c' := by
  have others : ∀ first ∈ ['c', 'd'], first ∈ ['i', 'w', 's', 'c', 'd'] ∧ first ≠ 'i' ∧ first ≠ 'w' ∧
      first ≠ 's' := Text.forall_mem_of_all (by decide)
  obtain ⟨inside, noIf, noWhile, noStart⟩ := others first letter
  have noSwitch (slot : Word) : Rewrite.switch? line.text slot = none := by
    rw [← Option.not_isSome_iff_eq_none, Rewrite.isSome_switch?,
      not_startsSwitch (by rw [head]; exact fun same => noStart (Option.some.inj same))]
    exact Bool.false_ne_true
  have noTest (slot : Word) : Rewrite.condition? line.text slot = none := by
    rw [Option.eq_none_iff_forall_ne_some]
    intro condition rewritten
    rcases Rewrite.head?_of_condition? rewritten with same | same
    · exact noIf (Option.some.inj (head.symm.trans same))
    · exact noWhile (Option.some.inj (head.symm.trans same))
  have stated := stated_of_compileLine mode compiled (Directive.inner_of_head? head inside) noSwitch
  have same : (Rewrite.assignment? line.text).getD line.text = line.text := by
    rw [Rewrite.assignment?, noOperator]
    rfl
  obtain ⟨-, labelled | ⟨noCase, noDefault, -⟩⟩ := stated.label_or_call noTest noSwitch
  · exact same ▸ labelled
  · rw [same] at noCase noDefault
    rw [noCase, noDefault] at read
    rcases read with read | read <;> cases read

/-- **A line that tests a condition** opens a block and adds the test with its number. -/
theorem eq_opened_of_tests {keyword : ConditionKeyword} {comparison : Comparison} {a b : Operand}
    (h : Tests Rewrite.Writes keyword comparison a b line.text) (keeps : c.KeepsNumerals) :
    ∃ x y, c.meaning? a = some x ∧ c.meaning? b = some y ∧
      c.program.jumpTable.size < jumpCapacity ∧ keyword.opcode comparison ∈ Opcode.all ∧
        c' = (c.opened (conditionBlock keyword) (c.conditionWords keyword)).addCode
          (Instruction.encode (keyword.opcode comparison) (testArguments c.slotNumber x y)) := by
  have inner : Directive.Inner line.text := by
    rcases h.head? with head | head
    · exact Directive.inner_of_head? head (by decide)
    · exact Directive.inner_of_head? head (by decide)
  have tests (slot : Word) : (Rewrite.condition? line.text slot).isSome := by
    obtain ⟨condition, rewritten, -⟩ := h.exists_condition (show 0 < 0x80000000 by decide)
    rw [Rewrite.isSome_condition?, ← Rewrite.isSome_condition? line.text (Word.ofNat 0), rewritten]
    rfl
  have stated : Stated c line.text none c' := by
    rcases inside_of_compileLine mode compiled with inside | ⟨header, c₁, n, inside, -, -⟩
    · exact inside.stated inner
    · cases inside.stated inner with
      | switch noTest => cases noTest ▸ tests _
  cases stated with
  | label noTest => cases noTest ▸ tests _
  | call noTest => cases noTest ▸ tests _
  | @test condition other arguments rewritten known meant arity room =>
    have small : c.slotNumber < 0x80000000 := nextSlot_lt (Nat.le_of_lt room)
    obtain ⟨condition', rewritten', rfl, split⟩ := h.exists_condition small
    obtain rfl := Option.some.inj (rewritten.symm.trans rewritten')
    rw [split] at known meant
    -- The opcode tells the comparison.
    have same : comparison = other := by
      have ops := Option.some.inj ((lookup?_name ..).symm.trans known)
      cases keyword : condition.keyword <;> rw [keyword] at ops <;> injection ops
    subst same
    obtain ⟨number, x, y, rfl, slot, left, right⟩ := exists_of_map_triple meant
    obtain rfl := Option.some.inj ((keeps.meaning?_eq _).symm.trans slot)
    exact ⟨x, y, left, right, room, Opcode.mem_all_of_lookup? known, rfl⟩

/-- **A line that opens a switch** adds it with its number, and the slots for its labels. -/
theorem eq_primed_of_selects {a : Operand} (h : Selects a line.text) (keeps : c.KeepsNumerals) :
    ∃ x n, c.meaning? a = some x ∧ c.program.jumpTable.size < jumpCapacity ∧
      (Priming.scan c.aliases rest 0 line.number LabelRange.start).ending = .closed n ∧
        c' = (c.openedSwitch.addCode (Instruction.encode (.control .switch)
          (switchArguments c.slotNumber x))).primed c.program.jumpTable.size
            (Priming.scan c.aliases rest 0 line.number LabelRange.start).range := by
  obtain ⟨header, c₁, n, stated, closed, rfl⟩ := exists_of_startsSwitch mode compiled h.starts
  cases stated with
  | @switch opened arguments _ rewritten known meant arity room =>
    have small : c.slotNumber < 0x80000000 := nextSlot_lt (Nat.le_of_lt room)
    obtain ⟨opened', rewritten', split⟩ := h.exists_switch small
    obtain rfl := Option.some.inj (rewritten.symm.trans rewritten')
    rw [split] at meant
    obtain ⟨number, x, rfl, slot, operand⟩ := exists_of_map_pair meant
    obtain rfl := Option.some.inj ((keeps.meaning?_eq _).symm.trans slot)
    exact ⟨x, n, operand, room, closed, rfl⟩

end

/-! ## Where a compiler stands -/

namespace Compiler

/-- What names stand for to a compiler. -/
def names (c : Compiler) : Names := ⟨c.meaning?, labelValue? c.aliases⟩

/-- The number of the innermost block, if that is a switch. -/
def around (c : Compiler) : Option Nat :=
  match c.body.blocks with
  | [] => none
  | block :: _ => if block.kind = .switchBlock then some (block.slot - c.body.entry.jump) else none

theorem Grows.names_eq (h : c.Grows c') : c'.names = c.names := by
  have same : c'.meaning? = c.meaning? := funext fun o => by rw [meaning?, meaning?, h.substitute_eq]
  rw [names, names, same, h.aliases]

theorem Grows.around_eq (h : c.Grows c') (blocks : c'.body.blocks = c.body.blocks) :
    c'.around = c.around := by
  rw [around, around, blocks, h.entry]

theorem around_of_blocks {kind : BlockKind} {slot : Nat} {others : List Block}
    (innermost : c.body.blocks = ⟨kind, slot⟩ :: others) :
    c.around = if kind = .switchBlock then some (slot - c.body.entry.jump) else none := by
  rw [around, innermost]

end Compiler

namespace BlockRecord

/-- A block with further labels, latest first. -/
def marked (marks : List Mark) (b : BlockRecord) : BlockRecord := { b with marks := marks ++ b.marks }

theorem marked_nil : marked [] = fun b => b := rfl

theorem marked_marked (more marks : List Mark) (b : BlockRecord) :
    (b.marked marks).marked more = b.marked (more ++ marks) := by
  rw [marked, marked, marked, List.append_assoc]

end BlockRecord

section

variable {is : List Instruction} {later earlier : List BlockRecord} {b : BlockRecord}
  {others : List Block} {op : Opcode}

/-- A block that is closed is not the innermost one. -/
theorem onInnermost_later (closed : ∀ b ∈ later, b.closing ≠ none)
    (change : BlockRecord → BlockRecord) (bs : List BlockRecord) :
    onInnermost change (later ++ bs) = later ++ onInnermost change bs := by
  induction later with
  | nil => rfl
  | cons b later ih =>
    obtain ⟨stop, shut⟩ := Option.ne_none_iff_exists'.1 (closed b List.mem_cons_self)
    rw [List.cons_append, onInnermost, shut]
    exact congrArg (b :: ·) (ih fun b member => closed b (List.mem_cons_of_mem _ member))

/-- What happens to the innermost block happens to the same one, as long as it stays open. -/
theorem onInnermost_marked (more marks : List Mark) (bs : List BlockRecord) :
    onInnermost (·.marked more) (onInnermost (·.marked marks) bs) =
      onInnermost (·.marked (more ++ marks)) bs := by
  induction bs with
  | nil => rfl
  | cons b bs ih =>
    cases shut : b.closing with
    | none =>
      have still : (b.marked marks).closing = none := shut
      simp only [onInnermost, shut, still, BlockRecord.marked_marked]
    | some stop => simp only [onInnermost, shut, ih]

theorem Laid.le_slot {start : Nat} : ∀ {bs : List BlockRecord}, ∀ block ∈ openBlocks start bs,
    start ≤ block.slot
  | [], _, member => nomatch member
  | b :: earlier, block, member => by
    rw [openBlocks] at member
    cases shut : b.closing with
    | none =>
      rw [shut] at member
      rcases List.mem_cons.1 member with rfl | member
      · exact Nat.le_add_right ..
      · exact le_slot block member
    | some stop =>
      rw [shut] at member
      exact le_slot block member

/-- A body that is laid out is open. -/
theorem Laid.begun' (h : Laid c is bs) : Begun c bs where
  jump := h.entry_jump_le
  slots block member := by
    rw [h.blocks] at member
    exact le_slot block member
  laid _ := ⟨is, h⟩

/-- A line of a body that is closed further on leaves the code no longer than it may be. -/
theorem Laid.short (h : Laid c is bs) (compiled : compileLine type line rest c = (.ok (), c'))
    (opened : c'.mode ≠ .outside) (others : compileLines type last rest c' = (.ok (), c₁)) :
    c'.program.code.size ≤ codeCapacity :=
  (Between.advances (fun _ => h.begun') compiled).between.short opened others

theorem Laid.offset_addCode (h : Laid c is bs) (words : List Word) :
    (c.addCode words).offset = c.offset + words.length := by
  have begun := h.entry_le
  rw [Compiler.offset, Compiler.offset, Compiler.addCode, Array.size_append,
    ← @List.size_toArray _ words]
  show _ + _ - c.body.entry.code = _
  omega

theorem Laid.size_eq (h : Laid c is bs) : c.program.code.size = c.body.entry.code + c.offset := by
  have begun := h.entry_le
  rw [Compiler.offset]
  omega

end

/-! ## Blocks that are opened and closed -/

/-- **A line that is a keyword** has added its instruction, and left these blocks and these ones open. -/
structure Passed (c : Compiler) (is : List Instruction) (c' : Compiler) (op : Opcode)
    (bs : List BlockRecord) (open_ : List Block) : Prop where
  grows : c.Grows c'
  laid : Laid c' (is ++ [⟨c.program.code.size, op, []⟩]) bs
  blocks : c'.body.blocks = open_
  ends : c'.offset = c.offset + 1
  slots : c'.slotNumber = c.slotNumber

section

variable {is : List Instruction} {later : List BlockRecord} {b : BlockRecord}
  {others : List Block} {op : Opcode} {slot : Nat}

/-- **An instruction that divides or closes** the innermost block. -/
theorem Laid.passed {open_ : List Block} (h : Laid c is (later ++ b :: bs))
    (closed : ∀ b ∈ later, b.closing ≠ none) (unclosed : b.closing = none)
    (known : op ∈ Opcode.all) (governs : governedBlock op = some b.kind)
    (innermost : c.body.blocks = ⟨b.kind, slot⟩ :: others)
    (same : c' = (c.addCode (Instruction.encode op [])).bound ⟨b.kind, slot⟩ op)
    (short : c'.program.code.size ≤ codeCapacity)
    (left : open_ = if (b.past op c.offset).closing = none then c.body.blocks else others) :
    Passed c is c' op (later ++ b.past op c.offset :: bs) open_ := by
  subst same
  have inside : c.body.entry.jump ≤ slot :=
    h.begun'.slots ⟨b.kind, slot⟩ (innermost ▸ List.mem_cons_self)
  have grows : c.Grows ((c.addCode (Instruction.encode op [])).bound ⟨b.kind, slot⟩ op) :=
    ((Grows.refl c).addCode _).bound inside op
  rw [code_bound] at short
  have laid := h.block known governs innermost short
  rw [onInnermost_append closed unclosed] at laid
  refine ⟨grows, laid, ?_, ?_, ?_⟩
  · rw [left, innermost,
      blocks_bound (c := c.addCode (Instruction.encode op [])) innermost unclosed governs]
  · rw [Compiler.offset, code_bound, grows.entry]
    exact h.offset_addCode (Instruction.encode op [])
  · rw [slotNumber, size_bound, grows.entry]
    rfl

end

/-- **A line has opened a block** with an instruction, and the lines behind it are in the block. -/
structure Opened (c : Compiler) (is : List Instruction) (bs : List BlockRecord) (c' : Compiler)
    (op : Opcode) (arguments : List Argument) (b : BlockRecord) : Prop where
  grows : c.Grows c'
  laid : Laid c' (is ++ [⟨c.program.code.size, op, arguments⟩]) (b :: bs)
  blocks : c'.body.blocks = ⟨b.kind, c.program.jumpTable.size⟩ :: c.body.blocks
  ends : c'.offset = c.offset + width op arguments
  slot : b.slot = c.slotNumber
  opened : b.opened = c.offset
  unmarked : b.marks = []
  unclosed : b.closing = none

section

variable {is : List Instruction} {b : BlockRecord} {op : Opcode} {arguments : List Argument}

/-- The block takes its slots. -/
theorem Opened.slotNumber_eq (h : Opened c is bs c' op arguments b) (laid : Laid c is bs) :
    c'.slotNumber = c.slotNumber + b.size := by
  rw [h.laid.slotNumber_eq, laid.slotNumber_eq, bodyWords, List.length_append,
    BlockRecord.length_words]

theorem Opened.around_eq (h : Opened c is bs c' op arguments b) :
    c'.around = if b.kind = .switchBlock then some c.slotNumber else none := by
  rw [around_of_blocks h.blocks, h.grows.entry]
  rfl

theorem Opened.around_eq_none (h : Opened c is bs c' op arguments b) (plain : b.kind ≠ .switchBlock) :
    c'.around = none := by
  rw [h.around_eq, if_neg plain]

variable (mode : c.mode = .inside) (compiled : compileLine type line rest c = (.ok (), c'))
  (laid : Laid c is bs) (keeps : c.KeepsNumerals)
  (others : compileLines type line.number rest c' = (.ok (), c₁))

include mode compiled laid keeps others

/-- **A test** opens its block. -/
theorem opened_of_tests {keyword : ConditionKeyword} {comparison : Comparison} {a a' : Operand}
    (h : Tests Rewrite.Writes keyword comparison a a' line.text) :
    ∃ x y b, c.meaning? a = some x ∧ c.meaning? a' = some y ∧
      Opened c is bs c' (keyword.opcode comparison) (testArguments c.slotNumber x y) b ∧
        b.kind = conditionBlock keyword := by
  obtain ⟨x, y, left, right, room, known, rfl⟩ := eq_opened_of_tests mode compiled h keeps
  have grows : c.Grows ((c.opened (conditionBlock keyword) (c.conditionWords keyword)).addCode
      (Instruction.encode (keyword.opcode comparison) (testArguments c.slotNumber x y))) :=
    ((Grows.refl c).opened laid.entry_jump_le _ _).addCode _
  have short := laid.short compiled (by rw [grows.mode, mode]; decide) others
  have meant : [⟨Numeral.ofNat c.slotNumber, none⟩, a, a'].map c.meaning? =
      (testArguments c.slotNumber x y).map some := by
    rw [List.map_cons, List.map_cons, List.map_cons, keeps.meaning?_eq, left, right]
    rfl
  have readable := readable_of_meaning? meant (@short_of_fits c _ _ short)
  exact ⟨x, y, _, left, right, ⟨grows, laid.test known rfl readable (fun _ => ⟨_, rfl⟩) room, rfl,
    laid.offset_addCode (Instruction.encode _ _), rfl, rfl, rfl, rfl⟩, rfl⟩

/-- **A switch** opens its block, which has slots for the labels that are looked up ahead. -/
theorem opened_of_selects {a : Operand} (h : Selects a line.text) :
    ∃ x b n, c.meaning? a = some x ∧
      Opened c is bs c' (.control .switch) (switchArguments c.slotNumber x) b ∧
        b.kind = .switchBlock ∧
          (Priming.scan c.aliases rest 0 line.number LabelRange.start).ending = .closed n ∧
            b.range = (Priming.scan c.aliases rest 0 line.number LabelRange.start).range.settle := by
  obtain ⟨x, n, operand, room, closed, rfl⟩ := eq_primed_of_selects mode compiled h keeps
  have begun := laid.entry_jump_le
  have grows : c.Grows ((c.openedSwitch.addCode (Instruction.encode (.control .switch)
      (switchArguments c.slotNumber x))).primed c.program.jumpTable.size
        (Priming.scan c.aliases rest 0 line.number LabelRange.start).range) := by
    have listed : c.Grows c.openedSwitch := ((Grows.refl c).opened begun .switchBlock _).trans
      ⟨rfl, rfl, rfl, rfl, rfl, rfl, rfl, rfl, ⟨#[], Array.append_empty.symm⟩, fun _ _ => rfl⟩
    refine (listed.addCode _).primed ?_ begun _
    show _ ≤ (c.program.jumpTable ++ List.toArray _).size
    rw [Array.size_append]
    exact Nat.le_add_right_of_le begun
  have short := laid.short compiled (by rw [grows.mode, mode]; decide) others
  have meant : [⟨Numeral.ofNat c.slotNumber, none⟩, a].map c.meaning? =
      (switchArguments c.slotNumber x).map some := by
    rw [List.map_cons, List.map_cons, keeps.meaning?_eq, operand]
    rfl
  have readable := readable_of_meaning? meant (@short_of_fits c _ _ short)
  refine ⟨x, _, n, operand, ⟨grows, laid.select (by decide +kernel) rfl readable (fun _ => ⟨_, rfl⟩)
    room _, ?_, ?_, rfl, rfl, rfl, rfl⟩, rfl, closed, rfl⟩
  · rw [body_primed]
    rfl
  · rw [Compiler.offset, code_primed, body_primed]
    exact laid.offset_addCode (Instruction.encode _ _)

end

/-! ## Passages that are compiled -/

/-- A statement stays where it stands when more is added around it. -/
theorem Statement.Sits.mono {is is' : List Instruction} {bs bs' : List BlockRecord} {base : Nat}
    {around : Option Nat} {offset : Nat} {s : Statement} (h : s.Sits is bs base around offset)
    (more : is ⊆ is') (later : bs ⊆ bs') : s.Sits is' bs' base around offset := by
  have blocks {kind : BlockKind} {slot opened closing : Nat} {marks : List Mark}
      (h : HasBlock bs kind slot opened marks closing) :
      HasBlock bs' kind slot opened marks closing := by
    obtain ⟨b, member, shape⟩ := h
    exact ⟨b, later member, shape⟩
  induction s generalizing around offset with
  | skip => trivial
  | case => trivial
  | fallback => trivial
  | leave => exact ⟨h.1, more h.2⟩
  | seq _ _ ihFirst ihRest => exact ⟨ihFirst h.1, ihRest h.2⟩
  | act => exact ⟨h.1, more h.2⟩
  | call => exact more h
  | branch _ _ _ _ yes divided no ihYes ihNo =>
    obtain ⟨test, inside, other⟩ := h
    refine ⟨more test, ihYes inside, ?_⟩
    cases divided with
    | true =>
      obtain ⟨middle, other, last, opens⟩ := other
      exact ⟨more middle, ihNo other, more last, blocks opens⟩
    | false =>
      obtain ⟨none, last, opens⟩ := other
      exact ⟨none, more last, blocks opens⟩
  | loop _ _ _ _ _ ih =>
    obtain ⟨test, inside, last, opens⟩ := h
    exact ⟨more test, ih inside, more last, blocks opens⟩
  | switch _ _ _ ih =>
    obtain ⟨select, once, inside, last, opens⟩ := h
    exact ⟨more select, once, ih inside, more last, blocks opens⟩

namespace Passage

/-- **A passage has been compiled** as a statement: instructions and closed blocks were added, and the
labels outside its blocks were given to the innermost block. -/
structure Compiled (passage : Passage) (c : Compiler) (is : List Instruction) (bs : List BlockRecord)
    (c' : Compiler) (more : List Instruction) (later : List BlockRecord) (s : Statement) : Prop where
  grows : c.Grows c'
  blocks : c'.body.blocks = c.body.blocks
  resolves : passage.resolve c.names c.slotNumber = some (s, c'.slotNumber)
  ends : c'.offset = c.offset + s.length
  closed : ∀ b ∈ later, b.closing ≠ none
  laid : Laid c' (is ++ more) (later ++ onInnermost (·.marked (s.marks c.offset)) bs)
  sits : s.Sits more later c.body.entry.code c.around c.offset
  inSwitch : c.around = none → s.marks c.offset = []

namespace Compiled

variable {is more more' : List Instruction} {later later' : List BlockRecord} {s s' : Statement}
  {passage passage' : Passage}

/-- Nothing has been compiled. -/
theorem skip (laid : Laid c is bs) : Passage.skip.Compiled c is bs c [] [] .skip where
  grows := .refl c
  blocks := rfl
  resolves := rfl
  ends := rfl
  closed := List.forall_mem_nil _
  laid := by
    rw [List.append_nil, List.nil_append, Statement.marks, BlockRecord.marked_nil, onInnermost_id]
    exact laid
  sits := trivial
  inSwitch _ := rfl

/-- Passages are compiled one behind the other. -/
theorem seq (h : passage.Compiled c is bs c₁ more later s)
    (h' : passage'.Compiled c₁ (is ++ more)
      (later ++ onInnermost (·.marked (s.marks c.offset)) bs) c' more' later' s') :
    (passage.seq passage').Compiled c is bs c' (more ++ more') (later' ++ later) (s.seq s') where
  grows := h.grows.trans h'.grows
  blocks := h'.blocks.trans h.blocks
  resolves := by
    have rest := h'.resolves
    rw [h.grows.names_eq] at rest
    simp only [resolve, h.resolves, Option.bind_eq_bind, Option.bind_some, rest]
    rfl
  ends := by rw [h'.ends, h.ends, Statement.length, Nat.add_assoc]
  closed := by
    intro b member
    rcases List.mem_append.1 member with member | member
    · exact h'.closed b member
    · exact h.closed b member
  laid := by
    have laid := h'.laid
    rw [onInnermost_later h.closed, onInnermost_marked, ← List.append_assoc, List.append_assoc is,
      h.ends] at laid
    exact laid
  sits := by
    have rest := h'.sits
    rw [h.grows.entry, h.grows.around_eq h.blocks, h.ends] at rest
    exact ⟨h.sits.mono (List.subset_append_left ..) (List.subset_append_right ..),
      rest.mono (List.subset_append_right ..) (List.subset_append_left ..)⟩
  inSwitch outside := by
    have rest := h'.inSwitch ((h.grows.around_eq h.blocks).trans outside)
    rw [h.ends] at rest
    rw [Statement.marks, h.inSwitch outside, rest]
    rfl

/-- **An instruction** is compiled as itself. -/
theorem instruction {op : Opcode} {arguments : List Argument} (laid : Laid c is bs)
    (known : op ∈ Opcode.all) (many : arguments.length = op.arity)
    (readable : ∀ a ∈ arguments, a.Readable)
    (resolves : passage.resolve c.names c.slotNumber = some (s, c.slotNumber))
    (length : s.length = width op arguments) (marks : s.marks c.offset = [])
    (sits : s.Sits [⟨c.body.entry.code + c.offset, op, arguments⟩] [] c.body.entry.code c.around
      c.offset) :
    passage.Compiled c is bs (c.addCode (Instruction.encode op arguments))
      [⟨c.body.entry.code + c.offset, op, arguments⟩] [] s where
  grows := (Grows.refl c).addCode _
  blocks := rfl
  resolves := resolves
  ends := by rw [laid.offset_addCode (Instruction.encode op arguments), length]; rfl
  closed := List.forall_mem_nil _
  laid := by
    rw [marks, BlockRecord.marked_nil, onInnermost_id, List.nil_append, ← laid.size_eq]
    exact laid.add known many readable
  sits := sits
  inSwitch _ := marks

section

variable {b : BlockRecord} {comparison : Comparison} {a a' : Operand} {x y : Argument}
  {c₂ : Compiler}

/-- **A block** is compiled from the instruction that opens it to the one that closes it. -/
theorem block {i : Instruction} {op : Opcode} (grows : c.Grows c₂)
    (closed : ∀ b ∈ later, b.closing ≠ none)
    (shut : Passed c₂ (is ++ i :: more) c' op (later ++ b.close c₂.offset :: bs) c.body.blocks)
    (resolves : passage.resolve c.names c.slotNumber = some (s, c₂.slotNumber))
    (ends : c₂.offset + 1 = c.offset + s.length) (unmarked : s.marks c.offset = [])
    (sits : s.Sits (i :: (more ++ [⟨c₂.program.code.size, op, []⟩])) (later ++ [b.close c₂.offset])
      c.body.entry.code c.around c.offset) :
    passage.Compiled c is bs c' (i :: (more ++ [⟨c₂.program.code.size, op, []⟩]))
      (later ++ [b.close c₂.offset]) s where
  grows := grows.trans shut.grows
  blocks := shut.blocks
  resolves := by rw [resolves, shut.slots]
  ends := by rw [shut.ends, ends]
  closed := by
    intro b member
    rcases List.mem_append.1 member with member | member
    · exact closed b member
    · obtain rfl := List.mem_singleton.1 member
      exact Option.some_ne_none _
  laid := by
    have laid := shut.laid
    rw [List.append_assoc, List.cons_append] at laid
    rw [unmarked, BlockRecord.marked_nil, onInnermost_id, List.append_assoc, List.singleton_append]
    exact laid
  sits := sits
  inSwitch _ := unmarked

/-- In a block that is no switch no label counts. -/
theorem laid_of_plain (inside : passage.Compiled c₁ is bs c₂ more later s)
    (outside : c₁.around = none) : Laid c₂ (is ++ more) (later ++ bs) := by
  have laid := inside.laid
  rw [inside.inSwitch outside, BlockRecord.marked_nil, onInnermost_id] at laid
  exact laid

end

end Compiled

/-- **A part of a block** has been compiled as a statement, from an offset and a number on. -/
structure Part (passage : Passage) (c : Compiler) (around : Option Nat) (start slot : Nat)
    (c' : Compiler) (more : List Instruction) (later : List BlockRecord) (s : Statement) : Prop where
  grows : c.Grows c'
  resolves : passage.resolve c.names slot = some (s, c'.slotNumber)
  ends : c'.offset = start + s.length
  size : c'.program.code.size = c.body.entry.code + c'.offset
  closed : ∀ b ∈ later, b.closing ≠ none
  sits : s.Sits more later c.body.entry.code around start

section

variable {is is' more more' : List Instruction} {later later' : List BlockRecord} {s s' : Statement}
  {passage passage' : Passage} {b : BlockRecord} {c₂ : Compiler}

/-- What has been compiled behind the line that opens a block. -/
theorem Compiled.part {op : Opcode} {arguments : List Argument}
    (inside : passage.Compiled c₁ is' (b :: bs) c₂ more later s)
    (opened : Opened c is bs c₁ op arguments b) (laid : Laid c is bs) :
    passage.Part c (if b.kind = .switchBlock then some c.slotNumber else none)
      (c.offset + width op arguments) (c.slotNumber + b.size) c₂ more later s where
  grows := opened.grows.trans inside.grows
  resolves := by
    have resolves := inside.resolves
    rw [opened.grows.names_eq, opened.slotNumber_eq laid] at resolves
    exact resolves
  ends := by rw [inside.ends, opened.ends]
  size := by rw [inside.laid.size_eq, inside.grows.entry, opened.grows.entry]
  closed := inside.closed
  sits := by
    have sits := inside.sits
    rw [opened.grows.entry, opened.around_eq, opened.ends] at sits
    exact sits

/-- What has been compiled behind a line with a test. -/
theorem Compiled.part_of_plain {op : Opcode} {arguments : List Argument}
    (inside : passage.Compiled c₁ is' (b :: bs) c₂ more later s)
    (opened : Opened c is bs c₁ op arguments b) (laid : Laid c is bs)
    (plain : b.kind ≠ .switchBlock) :
    passage.Part c none (c.offset + width op arguments) (c.slotNumber + 2) c₂ more later s := by
  have part := inside.part opened laid
  have size : b.size = 2 := by
    rw [BlockRecord.size]
    cases kind : b.kind with
    | ifBlock => rfl
    | whileBlock => rfl
    | switchBlock => exact absurd kind plain
  rw [if_neg plain, size] at part
  exact part

/-- What has been compiled behind the line that divides a block. -/
theorem Compiled.part_of_passed {op : Opcode} {bs' : List BlockRecord} {around : Option Nat}
    (inside : passage'.Compiled c₁ is' bs' c₂ more' later' s')
    {start slot : Nat} (before : passage.Part c₀ around start slot c more later s)
    (passed : Passed c is c₁ op bs' c.body.blocks) (outside : c₁.around = around) :
    passage'.Part c₀ around (c.offset + 1) c.slotNumber c₂ more' later' s' where
  grows := before.grows.trans (passed.grows.trans inside.grows)
  resolves := by
    have resolves := inside.resolves
    rw [passed.grows.names_eq, before.grows.names_eq, passed.slots] at resolves
    exact resolves
  ends := by rw [inside.ends, passed.ends]
  size := by rw [inside.laid.size_eq, inside.grows.entry, passed.grows.entry, before.grows.entry]
  closed := inside.closed
  sits := by
    have sits := inside.sits
    rw [passed.grows.entry, before.grows.entry, outside, passed.ends] at sits
    exact sits

end

namespace Compiled

variable {is more more' : List Instruction} {later later' : List BlockRecord} {s s' : Statement}
  {passage passage' : Passage} {b : BlockRecord} {comparison : Comparison} {a a' : Operand}
  {x y : Argument} {c₂ c₃ : Compiler}

/-- **An `if` without an `else`** is compiled with its part inside. -/
theorem branch {i : Instruction} (laid : Laid c is bs)
    (opened : Opened c is bs c₁ (.ifTest comparison) (testArguments c.slotNumber x y) b)
    (shape : i = ⟨c.program.code.size, .ifTest comparison, testArguments c.slotNumber x y⟩)
    (kind : b.kind = .ifBlock) (left : c.meaning? a = some x) (right : c.meaning? a' = some y)
    (part : passage.Part c none (c.offset + width (.ifTest comparison) (testArguments c.slotNumber x y))
      (c.slotNumber + 2) c₂ more later s)
    (shut : Passed c₂ (is ++ i :: more) c' (.control .endIf)
      (later ++ b.close c₂.offset :: bs) c.body.blocks) :
    (Passage.branch comparison a a' passage false .skip).Compiled c is bs c'
      (i :: (more ++ [⟨c₂.program.code.size, .control .endIf, []⟩])) (later ++ [b.close c₂.offset])
      (.branch c.slotNumber comparison x y s false .skip) := by
  refine block part.grows part.closed shut ?_ ?_ rfl
    ⟨?_, part.sits.mono (fun _ member => .tail _ (List.mem_append_left _ member))
      (List.subset_append_left ..), rfl, ?_, ?_⟩
  · have resolves := part.resolves
    dsimp only [names] at resolves
    simp only [resolve, names, left, right, Option.bind_eq_bind, Option.bind_some, resolves]
    rfl
  · rw [part.ends, Statement.length, if_neg Bool.false_ne_true]
    omega
  · rw [shape, laid.size_eq]
    exact List.mem_cons_self
  · rw [part.size, part.ends]
    exact .tail _ (List.mem_append_right _ List.mem_cons_self)
  · exact ⟨_, List.mem_append_right _ List.mem_cons_self, kind, opened.slot, opened.opened,
      opened.unmarked, by rw [part.ends]; rfl⟩

/-- **An `if` with an `else`** is compiled with its two parts. -/
theorem divided {i e : Instruction} (laid : Laid c is bs)
    (opened : Opened c is bs c₁ (.ifTest comparison) (testArguments c.slotNumber x y) b)
    (shape : i = ⟨c.program.code.size, .ifTest comparison, testArguments c.slotNumber x y⟩)
    (kind : b.kind = .ifBlock) (left : c.meaning? a = some x) (right : c.meaning? a' = some y)
    (part : passage.Part c none (c.offset + width (.ifTest comparison) (testArguments c.slotNumber x y))
      (c.slotNumber + 2) c₂ more later s) (middle : e = ⟨c₂.program.code.size, .control .elseBranch, []⟩)
    (part' : passage'.Part c none (c₂.offset + 1) c₂.slotNumber c₃ more' later' s')
    (shut : Passed c₃ (is ++ i :: (more ++ e :: more')) c' (.control .endIf)
      (later' ++ later ++ (b.mark none (c₂.offset + 1)).close c₃.offset :: bs) c.body.blocks) :
    (Passage.branch comparison a a' passage true passage').Compiled c is bs c'
      (i :: (more ++ e :: more' ++ [⟨c₃.program.code.size, .control .endIf, []⟩]))
      (later' ++ later ++ [(b.mark none (c₂.offset + 1)).close c₃.offset])
      (.branch c.slotNumber comparison x y s true s') := by
  have sits' := part'.sits
  rw [part.ends] at sits'
  refine block part'.grows ?_ shut ?_ ?_ rfl ⟨?_, part.sits.mono ?_ ?_, ?_, sits'.mono ?_ ?_, ?_, ?_⟩
  · intro b member
    rcases List.mem_append.1 member with member | member
    · exact part'.closed b member
    · exact part.closed b member
  · have resolves := part.resolves
    have resolves' := part'.resolves
    dsimp only [names] at resolves resolves'
    simp only [resolve, names, left, right, Option.bind_eq_bind, Option.bind_some, resolves, resolves']
    rfl
  · rw [part'.ends, part.ends, Statement.length, if_pos rfl]
    omega
  · rw [shape, laid.size_eq]
    exact List.mem_cons_self
  · intro j member
    simp [member]
  · intro b member
    simp [member]
  · rw [middle, part.size, part.ends]
    simp
  · intro j member
    simp [member]
  · intro b member
    simp [member]
  · rw [part'.size, part'.ends, part.ends]
    simp
  · refine ⟨_, List.mem_append_right _ List.mem_cons_self, kind, opened.slot, opened.opened, ?_, ?_⟩
    · show ⟨none, c₂.offset + 1⟩ :: b.marks = _
      rw [opened.unmarked, part.ends]
    · rw [part'.ends, part.ends]
      rfl

/-- **A `while`** is compiled with its part inside. -/
theorem loop {i : Instruction} (laid : Laid c is bs)
    (opened : Opened c is bs c₁ (.whileTest comparison) (testArguments c.slotNumber x y) b)
    (shape : i = ⟨c.program.code.size, .whileTest comparison, testArguments c.slotNumber x y⟩)
    (kind : b.kind = .whileBlock) (left : c.meaning? a = some x) (right : c.meaning? a' = some y)
    (part : passage.Part c none
      (c.offset + width (.whileTest comparison) (testArguments c.slotNumber x y))
      (c.slotNumber + 2) c₂ more later s)
    (shut : Passed c₂ (is ++ i :: more) c' (.control .loop)
      (later ++ b.close c₂.offset :: bs) c.body.blocks) :
    (Passage.loop comparison a a' passage).Compiled c is bs c'
      (i :: (more ++ [⟨c₂.program.code.size, .control .loop, []⟩])) (later ++ [b.close c₂.offset])
      (.loop c.slotNumber comparison x y s) := by
  refine block part.grows part.closed shut ?_ ?_ rfl
    ⟨?_, part.sits.mono (fun _ member => .tail _ (List.mem_append_left _ member))
      (List.subset_append_left ..), ?_, ?_⟩
  · have resolves := part.resolves
    dsimp only [names] at resolves
    simp only [resolve, names, left, right, Option.bind_eq_bind, Option.bind_some, resolves]
    rfl
  · rw [part.ends, Statement.length]
    omega
  · rw [shape, laid.size_eq]
    exact List.mem_cons_self
  · rw [part.size, part.ends]
    exact .tail _ (List.mem_append_right _ List.mem_cons_self)
  · exact ⟨_, List.mem_append_right _ List.mem_cons_self, kind, opened.slot, opened.opened,
      opened.unmarked, by rw [part.ends]; rfl⟩

/-- **A switch** is compiled with its labels. -/
theorem switch {i : Instruction} {range : LabelRange} (laid : Laid c is bs)
    (opened : Opened c is bs c₁ (.control .switch) (switchArguments c.slotNumber x) b)
    (shape : i = ⟨c.program.code.size, .control .switch, switchArguments c.slotNumber x⟩)
    (kind : b.kind = .switchBlock) (operand : c.meaning? a = some x)
    (ranged : passage.range c.names = some range) (once : s.fallbacks ≤ 1)
    (part : passage.Part c (some c.slotNumber)
      (c.offset + width (.control .switch) (switchArguments c.slotNumber x))
      (c.slotNumber + (4 + range.size)) c₂ more later s)
    (shut : Passed c₂ (is ++ i :: more) c' (.control .endSwitch)
      (later ++ (b.marked (s.marks c₁.offset)).close c₂.offset :: bs) c.body.blocks) :
    (Passage.switch a passage).Compiled c is bs c'
      (i :: (more ++ [⟨c₂.program.code.size, .control .endSwitch, []⟩]))
      (later ++ [(b.marked (s.marks c₁.offset)).close c₂.offset])
      (.switch c.slotNumber x s) := by
  refine block part.grows part.closed shut ?_ ?_ rfl
    ⟨?_, once, part.sits.mono (fun _ member => .tail _ (List.mem_append_left _ member))
      (List.subset_append_left ..), ?_, ?_⟩
  · have resolves := part.resolves
    dsimp only [names] at resolves ranged
    simp only [resolve, names, operand, ranged, Option.bind_eq_bind, Option.bind_some, resolves]
    rfl
  · rw [part.ends, Statement.length]
    omega
  · rw [shape, laid.size_eq]
    exact List.mem_cons_self
  · rw [part.size, part.ends]
    exact .tail _ (List.mem_append_right _ List.mem_cons_self)
  · refine ⟨_, List.mem_append_right _ List.mem_cons_self, kind, opened.slot, opened.opened, ?_, ?_⟩
    · show s.marks c₁.offset ++ b.marks = _
      rw [opened.unmarked, opened.ends, List.append_nil]
    · rw [part.ends]
      rfl

end Compiled

/-- A statement has as many labels for all other values as its passage. -/
theorem fallbacks_of_resolve {names : Names} {passage : Passage} {s : Statement} {slot next : Nat}
    (resolves : passage.resolve names slot = some (s, next)) : s.fallbacks = passage.fallbacks := by
  induction passage generalizing s slot next with
  | seq first rest ihFirst ihRest =>
    obtain ⟨⟨s₁, slot₁⟩, before, resolves⟩ := Option.bind_eq_some_iff.1 resolves
    obtain ⟨⟨s₂, slot₂⟩, behind, resolves⟩ := Option.bind_eq_some_iff.1 resolves
    obtain ⟨rfl, -⟩ := Prod.mk.inj (Option.some.inj resolves)
    rw [Statement.fallbacks, fallbacks, ihFirst before, ihRest behind]
  | act =>
    obtain ⟨_, -, resolves⟩ := Option.bind_eq_some_iff.1 resolves
    obtain ⟨rfl, -⟩ := Prod.mk.inj (Option.some.inj resolves)
    rfl
  | call =>
    obtain ⟨_, -, resolves⟩ := Option.bind_eq_some_iff.1 resolves
    obtain ⟨rfl, -⟩ := Prod.mk.inj (Option.some.inj resolves)
    rfl
  | branch =>
    obtain ⟨_, -, resolves⟩ := Option.bind_eq_some_iff.1 resolves
    obtain ⟨_, -, resolves⟩ := Option.bind_eq_some_iff.1 resolves
    obtain ⟨_, -, resolves⟩ := Option.bind_eq_some_iff.1 resolves
    obtain ⟨_, -, resolves⟩ := Option.bind_eq_some_iff.1 resolves
    obtain ⟨rfl, -⟩ := Prod.mk.inj (Option.some.inj resolves)
    rfl
  | loop =>
    obtain ⟨_, -, resolves⟩ := Option.bind_eq_some_iff.1 resolves
    obtain ⟨_, -, resolves⟩ := Option.bind_eq_some_iff.1 resolves
    obtain ⟨_, -, resolves⟩ := Option.bind_eq_some_iff.1 resolves
    obtain ⟨rfl, -⟩ := Prod.mk.inj (Option.some.inj resolves)
    rfl
  | switch =>
    obtain ⟨_, -, resolves⟩ := Option.bind_eq_some_iff.1 resolves
    obtain ⟨_, -, resolves⟩ := Option.bind_eq_some_iff.1 resolves
    obtain ⟨_, -, resolves⟩ := Option.bind_eq_some_iff.1 resolves
    obtain ⟨rfl, -⟩ := Prod.mk.inj (Option.some.inj resolves)
    rfl
  | case =>
    obtain ⟨_, -, resolves⟩ := Option.bind_eq_some_iff.1 resolves
    obtain ⟨rfl, -⟩ := Prod.mk.inj (Option.some.inj resolves)
    rfl
  | skip => exact (Prod.mk.inj (Option.some.inj resolves)).1 ▸ rfl
  | fallback => exact (Prod.mk.inj (Option.some.inj resolves)).1 ▸ rfl
  | leave => exact (Prod.mk.inj (Option.some.inj resolves)).1 ▸ rfl

end Passage

/-! ## Keywords of blocks -/

/-- The keyword that closes the blocks of a kind. -/
def BlockKind.closingWord : BlockKind → String
  | .ifBlock => "endif"
  | .whileBlock => "loop"
  | .switchBlock => "endswitch"

section

variable {is : List Instruction} {later : List BlockRecord} {b : BlockRecord} {others : List Block}
  {slot : Nat}

theorem Closes.stays {keyword : String} (h : Closes keyword text)
    (noSub : keyword.toList.map Char.toLower ≠ "endsub".toList.map Char.toLower)
    (noFunction : keyword.toList.map Char.toLower ≠ "endfunction".toList.map Char.toLower) :
    Region.closes text = false := by
  rw [Region.closes, h.not_closes noSub, h.not_closes noFunction]
  rfl

/-- **A keyword** that divides or closes the innermost block. -/
theorem Laid.passed_of_keyword {keyword : String} {op : Opcode}
    (laid : Laid c is (later ++ b :: bs)) (mode : c.mode = .inside)
    (closed : ∀ b ∈ later, b.closing ≠ none) (unclosed : b.closing = none)
    (blocks : c.body.blocks = ⟨b.kind, slot⟩ :: others) (closes : Closes keyword line.text)
    (letters : ∀ c ∈ keyword.toList, c.toLower ∈ Text.letters)
    (plain : Directive.Plain line.text) (stays : Region.closes line.text = false)
    (known : Opcode.lookup? keyword.toList = some op) (governs : governedBlock op = some b.kind)
    (compiled : compileLines type last (line :: rest) c = (.ok (), c')) :
    ∃ c₁, Passed c is c₁ op (later ++ b.past op c.offset :: bs)
        (if (b.past op c.offset).closing = none then c.body.blocks else others) ∧
      compileLines type line.number rest c₁ = (.ok (), c') := by
  have written : line.text ≠ [] := by
    intro empty
    rw [empty, Closes] at closes
    cases letter : keyword.toList with
    | nil =>
      rw [letter] at known
      cases known.symm.trans (by decide +kernel : Opcode.lookup? [] = none)
    | cons =>
      rw [letter] at closes
      cases closes
  obtain ⟨c₁, first, behind⟩ := exists_of_compileLines written compiled
  obtain ⟨block, others', innermost, kind', member, same⟩ :=
    eq_bound_of_closes mode first closes letters plain stays known governs
  obtain ⟨rfl, rfl⟩ := List.cons.inj (blocks.symm.trans innermost)
  -- An open block has its slots among those of the body.
  have inside : c.body.entry.jump ≤ slot :=
    laid.begun'.slots ⟨b.kind, slot⟩ (blocks ▸ List.mem_cons_self)
  have mode₁ : c₁.mode ≠ .outside := by
    rw [same, (((Grows.refl c).addCode _).bound inside op).mode, mode]
    decide
  exact ⟨c₁, laid.passed closed unclosed member governs blocks same (laid.short first mode₁ behind) rfl,
    behind⟩

/-- **The keyword that closes** the innermost block. -/
theorem Laid.passed_of_closes (laid : Laid c is (later ++ b :: bs)) (mode : c.mode = .inside)
    (closed : ∀ b ∈ later, b.closing ≠ none) (unclosed : b.closing = none)
    (blocks : c.body.blocks = ⟨b.kind, slot⟩ :: others)
    (closes : Closes b.kind.closingWord line.text)
    (compiled : compileLines type last (line :: rest) c = (.ok (), c')) :
    ∃ c₁, Passed c is c₁ b.kind.closer (later ++ b.close c.offset :: bs) others ∧
      compileLines type line.number rest c₁ = (.ok (), c') := by
  have letters : ∀ c ∈ b.kind.closingWord.toList, c.toLower ∈ Text.letters := by
    cases b.kind <;> exact Text.forall_mem_of_all (by decide)
  have plain : Directive.Plain line.text := by
    cases kind : b.kind <;> rw [kind] at closes
    · exact closes.plain (show "endif".toList.head? = some 'e' from rfl) (by decide)
    · exact closes.plain (show "loop".toList.head? = some 'l' from rfl) (by decide)
    · exact closes.plain (show "endswitch".toList.head? = some 'e' from rfl) (by decide)
  have stays : Region.closes line.text = false :=
    closes.stays (by cases b.kind <;> decide) (by cases b.kind <;> decide)
  have known : Opcode.lookup? b.kind.closingWord.toList = some b.kind.closer := by
    cases b.kind <;> decide +kernel
  have governs : governedBlock b.kind.closer = some b.kind := by cases b.kind <;> rfl
  have shut : b.past b.kind.closer c.offset = b.close c.offset := by cases b.kind <;> rfl
  have passed := laid.passed_of_keyword mode closed unclosed blocks closes letters plain stays known
    governs compiled
  rw [shut, if_neg (show (b.close c.offset).closing ≠ none from Option.some_ne_none _)] at passed
  exact passed

/-- **An `else`** divides the innermost block. -/
theorem Laid.passed_of_divides (laid : Laid c is (later ++ b :: bs)) (mode : c.mode = .inside)
    (closed : ∀ b ∈ later, b.closing ≠ none) (unclosed : b.closing = none) (kind : b.kind = .ifBlock)
    (blocks : c.body.blocks = ⟨b.kind, slot⟩ :: others) (divides : Closes "else" line.text)
    (compiled : compileLines type last (line :: rest) c = (.ok (), c')) :
    ∃ c₁, Passed c is c₁ (.control .elseBranch) (later ++ b.mark none (c.offset + 1) :: bs)
      c.body.blocks ∧ compileLines type line.number rest c₁ = (.ok (), c') := by
  have passed := laid.passed_of_keyword mode closed unclosed blocks divides
    (Text.forall_mem_of_all (by decide))
    (divides.plain rfl (by decide)) (divides.stays (by decide) (by decide))
    (show Opcode.lookup? "else".toList = some (.control .elseBranch) by decide +kernel) (kind ▸ rfl)
    compiled
  rw [if_pos (show (b.past (.control .elseBranch) c.offset).closing = none from unclosed)] at passed
  exact passed

end

/-! ## Lines of passages -/

section

variable {is : List Instruction} (mode : c.mode = .inside) (laid : Laid c is bs)
  (compiled : compileLines type last (line :: rest) c = (.ok (), c'))

include mode laid compiled

/-- **A line with an instruction** is compiled as that instruction. -/
theorem compiled_of_instructs {op : Opcode} {operands : List Operand}
    (h : Instructs line.text op operands) (called : op.IsPlain) :
    ∃ arguments : List Argument, operands.map c.meaning? = arguments.map some ∧
      ∀ {p : Passage} {s : Statement}, p.resolve c.names c.slotNumber = some (s, c.slotNumber) →
        s.length = width op arguments → s.marks c.offset = [] →
        s.Sits [⟨c.body.entry.code + c.offset, op, arguments⟩] [] c.body.entry.code c.around
          c.offset →
        ∃ c₁ last' more later, p.Compiled c is bs c₁ more later s ∧
          compileLines type last' rest c₁ = (.ok (), c') := by
  have written : line.text ≠ [] := by
    intro empty
    rw [empty] at h
    have noOperator : Operator.find? Operator.assignments [] = none := by decide
    cases h with
    | call _ read known =>
      obtain ⟨rfl, -⟩ := Call.mk.inj read
      cases known.symm.trans (by decide +kernel : Opcode.lookup? [] = none)
    | binary _ operator => cases operator.symm.trans noOperator
    | unary _ operator => cases operator.symm.trans noOperator
  obtain ⟨c₁, first, behind⟩ := exists_of_compileLines written compiled
  obtain ⟨arguments, meant, arity, known, rfl⟩ := eq_addCode_of_instructs mode first h called
  have opened : c.mode ≠ .outside := by rw [mode]; decide
  have readable := readable_of_meaning? meant (short_of_fits (laid.short first opened behind))
  exact ⟨arguments, meant, fun resolves length marks sits =>
    ⟨_, _, _, _, .instruction laid known arity readable resolves length marks sits, behind⟩⟩

end

/-- **A label** of the innermost switch is compiled as a label. -/
theorem Passage.Compiled.label {is : List Instruction} {passage : Passage} {s : Statement}
    {value : Option Word} (laid : Laid c is bs) (labelled : Labelled c text c')
    (short : c.program.code.size ≤ codeCapacity)
    (told : c.saying text = BlockRecord.mark value c.offset)
    (resolves : passage.resolve c.names c.slotNumber = some (s, c.slotNumber))
    (length : s.length = 0) (marks : s.marks c.offset = [⟨value, c.offset⟩])
    (sits : s.Sits [] [] c.body.entry.code c.around c.offset) :
    passage.Compiled c is bs c' [] [] s where
  grows := labelled.grows laid.begun'.slots
  blocks := by cases labelled <;> rfl
  resolves := by
    rw [resolves]
    cases labelled with
    | case => rw [slotNumber, slotNumber, size_setSlot]; rfl
    | default => rw [slotNumber, slotNumber, size_filled, size_setSlot]; rfl
  ends := by
    rw [length]
    cases labelled <;> rfl
  closed := List.forall_mem_nil _
  laid := by
    have laid := laid.label short labelled
    rw [told] at laid
    rw [marks, List.append_nil]
    exact laid
  sits := sits
  inSwitch outside := by
    cases labelled with
    | case _ innermost kind => rw [around_of_blocks innermost, if_pos kind] at outside; cases outside
    | default _ _ innermost kind =>
      rw [around_of_blocks innermost, if_pos kind] at outside
      cases outside

/-- The search for the labels of a switch ends where the switch does. -/
theorem scan_of_closes {aliases : List Alias} {range : LabelRange} (h : Closes "endswitch" line.text) :
    (Priming.scan aliases (line :: rest) 0 last range).range = range := by
  obtain ⟨noStart, ends⟩ := h.ends
  simp only [Priming.scan, noStart, ends, Bool.false_eq_true, if_false, if_true]

namespace Passage

/-- **Lines are compiled as a passage**: a compiler that is in a body and comes past them has laid out
the statement that the passage stands for. -/
structure Translates (passage : Passage) (lines : List Line) : Prop where
  compiled {type last : Nat} {rest : List Line} {c c' : Compiler} {is : List Instruction}
    {bs : List BlockRecord} : c.mode = .inside → Laid c is bs → c.KeepsNumerals →
      compileLines type last (lines ++ rest) c = (.ok (), c') →
        ∃ c₁ last' more later s, passage.Compiled c is bs c₁ more later s ∧
          compileLines type last' rest c₁ = (.ok (), c')

section

variable {is : List Instruction} {passage : Passage} {lines : List Line} {first final : Line}
  (mode : c.mode = .inside) (laid : Laid c is bs)

include mode laid

/-- **Lines behind a test**, up to the line that closes its block, are compiled inside the block. -/
theorem Translates.exists_part {keyword : ConditionKeyword} {comparison : Comparison}
    {a a' : Operand} (inside : passage.Translates lines)
    (tests : Tests Rewrite.Writes keyword comparison a a' first.text)
    (closes : Closes (conditionBlock keyword).closingWord final.text) (keeps : c.KeepsNumerals)
    (compiled : compileLines type last (first :: (lines ++ [final]) ++ rest) c = (.ok (), c')) :
    ∃ x y b c₁ c₂ c₃ more later s, c.meaning? a = some x ∧ c.meaning? a' = some y ∧
      Opened c is bs c₁ (keyword.opcode comparison) (testArguments c.slotNumber x y) b ∧
      b.kind = conditionBlock keyword ∧
      passage.Part c none
        (c.offset + width (keyword.opcode comparison) (testArguments c.slotNumber x y))
        (c.slotNumber + 2) c₂ more later s ∧
      Passed c₂
        (is ++ ⟨c.program.code.size, keyword.opcode comparison, testArguments c.slotNumber x y⟩ :: more)
        c₃ (conditionBlock keyword).closer (later ++ b.close c₂.offset :: bs) c.body.blocks ∧
      compileLines type final.number rest c₃ = (.ok (), c') := by
  rw [List.cons_append, List.append_assoc] at compiled
  obtain ⟨c₁, opening, behind⟩ := exists_of_compileLines tests.ne_nil compiled
  obtain ⟨x, y, b, left, right, opened, kind⟩ :=
    opened_of_tests mode opening laid keeps behind tests
  have plain : b.kind ≠ .switchBlock := by rw [kind]; cases keyword <;> decide
  obtain ⟨c₂, last₂, more, later, s, done, behind⟩ := inside.compiled (opened.grows.mode.trans mode)
    opened.laid (opened.grows.keepsNumerals keeps) behind
  have part := done.part_of_plain opened laid plain
  obtain ⟨c₃, shut, behind⟩ := (done.laid_of_plain (opened.around_eq_none plain)).passed_of_closes
    (part.grows.mode.trans mode) done.closed opened.unclosed (done.blocks.trans opened.blocks)
    (kind ▸ closes) behind
  rw [List.append_assoc, List.singleton_append, kind] at shut
  exact ⟨x, y, b, c₁, c₂, c₃, more, later, s, left, right, opened, kind, part, shut, behind⟩

/-- **A line with a label** of a switch has done no more than to give it to the innermost block. -/
theorem exists_labelled {letter : Char} (head : line.text.head? = some letter)
    (begins : letter ∈ ['c', 'd'])
    (noOperator : Operator.find? Operator.assignments line.text = none)
    (read : (Directive.caseLabel? line.text).isSome ∨ Directive.isDefault line.text = true)
    (compiled : compileLines type last (line :: rest) c = (.ok (), c')) :
    ∃ c₁, Labelled c line.text c₁ ∧ c.program.code.size ≤ codeCapacity ∧
      compileLines type line.number rest c₁ = (.ok (), c') := by
  have written : line.text ≠ [] := by
    intro empty
    rw [empty] at head
    cases head
  obtain ⟨c₁, compiled', behind⟩ := exists_of_compileLines written compiled
  have labelled := labelled_of_compileLine mode compiled' head begins noOperator read
  have opened : c₁.mode ≠ .outside := by
    rw [(labelled.grows laid.begun'.slots).mode, mode]
    decide
  have code : c₁.program.code = c.program.code := by cases labelled <;> rfl
  have short := laid.short compiled' opened behind
  rw [code] at short
  exact ⟨c₁, labelled, short, behind⟩

end

namespace Translates

variable {passage passage' : Passage} {lines more : List Line} {first middle final : Line}
  {comparison : Comparison} {a a' : Operand}

theorem nothing : Passage.skip.Translates [] :=
  ⟨fun {_ last _ c _ _ _} _ laid _ compiled => ⟨c, last, [], [], .skip, .skip laid, compiled⟩⟩

theorem blank (empty : line.text = []) : Passage.skip.Translates [line] := by
  refine ⟨fun {type last rest c c' is bs} mode laid keeps compiled => ?_⟩
  rw [List.singleton_append, compileLines, if_neg (not_not_intro empty)] at compiled
  exact ⟨c, _, [], [], .skip, .skip laid, compiled⟩

theorem seq (front : passage.Translates lines) (back : passage'.Translates more) :
    (passage.seq passage').Translates (lines ++ more) := by
  refine ⟨fun {type last rest c c' is bs} mode laid keeps compiled => ?_⟩
  rw [List.append_assoc] at compiled
  obtain ⟨c₁, last₁, more, later, s, before, behind⟩ := front.compiled mode laid keeps compiled
  obtain ⟨c₂, last₂, more', later', s', after, behind'⟩ := back.compiled (before.grows.mode.trans mode)
    before.laid (before.grows.keepsNumerals keeps) behind
  exact ⟨c₂, last₂, _, _, _, before.seq after, behind'⟩

theorem act {op : Opcode} {operands : List Operand} (instructs : Instructs line.text op operands)
    (data : op.isControl = false) : (Passage.act op operands).Translates [line] := by
  refine ⟨fun {type last rest c c' is bs} mode laid keeps compiled => ?_⟩
  obtain ⟨arguments, meant, compiled⟩ :=
    compiled_of_instructs mode laid compiled instructs (.inl data)
  obtain ⟨c₁, last', more, later, done, behind⟩ := compiled (s := .act _ arguments)
    (p := .act op operands) (by simp only [resolve, names, mapM_of_map_eq meant]; rfl) rfl rfl
    ⟨data, List.mem_cons_self⟩
  exact ⟨c₁, last', more, later, _, done, behind⟩

theorem call {function : Operand}
    (instructs : Instructs line.text (.control .callFunction) [function]) :
    (Passage.call function).Translates [line] := by
  refine ⟨fun {type last rest c c' is bs} mode laid keeps compiled => ?_⟩
  obtain ⟨arguments, meant, compiled⟩ :=
    compiled_of_instructs mode laid compiled instructs (.inr rfl)
  obtain ⟨x, _, rfl, known, tail⟩ := List.map_eq_cons_iff.1 meant.symm
  obtain rfl := List.map_eq_nil_iff.1 tail
  obtain ⟨c₁, last', more, later, done, behind⟩ := compiled (s := .call x) (p := .call function)
    (by simp only [resolve, names, ← known]; rfl) rfl rfl List.mem_cons_self
  exact ⟨c₁, last', more, later, _, done, behind⟩

theorem branch (tests : Tests Rewrite.Writes .ifLine comparison a a' first.text)
    (inside : passage.Translates lines) (closes : Closes "endif" final.text) :
    (Passage.branch comparison a a' passage false .skip).Translates (first :: (lines ++ [final])) := by
  refine ⟨fun {type last rest c c' is bs} mode laid keeps compiled => ?_⟩
  obtain ⟨x, y, b, c₁, c₂, c₃, more, later, s, left, right, opened, kind, part, shut, behind⟩ :=
    inside.exists_part mode laid tests closes keeps compiled
  exact ⟨c₃, _, _, _, _, .branch laid opened rfl kind left right part shut, behind⟩

theorem loop (tests : Tests Rewrite.Writes .whileLine comparison a a' first.text)
    (inside : passage.Translates lines) (closes : Closes "loop" final.text) :
    (Passage.loop comparison a a' passage).Translates (first :: (lines ++ [final])) := by
  refine ⟨fun {type last rest c c' is bs} mode laid keeps compiled => ?_⟩
  obtain ⟨x, y, b, c₁, c₂, c₃, more, later, s, left, right, opened, kind, part, shut, behind⟩ :=
    inside.exists_part mode laid tests closes keeps compiled
  exact ⟨c₃, _, _, _, _, .loop laid opened rfl kind left right part shut, behind⟩

theorem divided (tests : Tests Rewrite.Writes .ifLine comparison a a' first.text)
    (inside : passage.Translates lines) (divides : Closes "else" middle.text)
    (other : passage'.Translates more) (closes : Closes "endif" final.text) :
    (Passage.branch comparison a a' passage true passage').Translates
      (first :: (lines ++ middle :: (more ++ [final]))) := by
  refine ⟨fun {type last rest c c' is bs} mode laid keeps compiled => ?_⟩
  rw [List.cons_append, List.append_assoc, List.cons_append, List.append_assoc] at compiled
  obtain ⟨c₁, opening, behind⟩ := exists_of_compileLines tests.ne_nil compiled
  obtain ⟨x, y, b, left, right, opened, kind⟩ :=
    opened_of_tests mode opening laid keeps behind tests
  have plain : b.kind ≠ .switchBlock := by rw [kind]; decide
  obtain ⟨c₂, last₂, more, later, s, done, behind⟩ := inside.compiled (opened.grows.mode.trans mode)
    opened.laid (opened.grows.keepsNumerals keeps) behind
  have part := done.part_of_plain opened laid plain
  have outside := opened.around_eq_none plain
  obtain ⟨c₃, middle, behind⟩ := (done.laid_of_plain outside).passed_of_divides
    (part.grows.mode.trans mode) done.closed opened.unclosed kind (done.blocks.trans opened.blocks)
    divides behind
  -- The `else` leaves the block open, so what is behind it is in no switch either.
  have outside' : c₃.around = none :=
    (middle.grows.around_eq middle.blocks).trans ((done.grows.around_eq done.blocks).trans outside)
  have grows := part.grows.trans middle.grows
  obtain ⟨c₄, last₄, more', later', s', done', behind⟩ := other.compiled (grows.mode.trans mode) middle.laid
    (grows.keepsNumerals keeps) behind
  have part' := done'.part_of_passed part middle outside'
  have laid' := done'.laid_of_plain outside'
  rw [← List.append_assoc later'] at laid'
  obtain ⟨c₅, shut, behind⟩ := laid'.passed_of_closes (part'.grows.mode.trans mode)
    (List.forall_mem_append.2 ⟨done'.closed, done.closed⟩) opened.unclosed
    (done'.blocks.trans (middle.blocks.trans (done.blocks.trans opened.blocks))) (kind ▸ closes)
    behind
  rw [show (b.mark none (c₂.offset + 1)).kind = .ifBlock from kind, List.append_assoc,
    List.singleton_append, List.append_assoc, List.append_assoc, List.singleton_append] at shut
  exact ⟨c₅, _, _, _, _, .divided laid opened rfl kind left right part rfl part' shut, behind⟩

theorem switch (selects : Selects a first.text) (once : passage.fallbacks ≤ 1)
    (spells : passage.Spells Rewrite.Writes lines) (inside : passage.Translates lines)
    (closes : Closes "endswitch" final.text) :
    (Passage.switch a passage).Translates (first :: (lines ++ [final])) := by
  refine ⟨fun {type last rest c c' is bs} mode laid keeps compiled => ?_⟩
  rw [List.cons_append, List.append_assoc] at compiled
  obtain ⟨c₁, opening, behind⟩ := exists_of_compileLines selects.ne_nil compiled
  obtain ⟨x, b, n, operand, opened, kind, closed, range⟩ :=
    opened_of_selects mode opening laid keeps behind selects
  obtain ⟨c₂, last₂, more, later, s, done, behind⟩ := inside.compiled (opened.grows.mode.trans mode)
    opened.laid (opened.grows.keepsNumerals keeps) behind
  -- The labels that were looked up ahead are those of the passage, so the slots are as many.
  obtain ⟨last₃, values, known, scanned⟩ := spells.exists_scan closed
  rw [scanned, List.singleton_append, scan_of_closes closes] at range
  have ranged : passage.range c.names = some b.range := by
    rw [range, Passage.range, show passage.labels.mapM c.names.value = some values from known]
    rfl
  have part := done.part opened laid
  have size : b.size = 4 + b.range.size := by rw [BlockRecord.size, kind]
  rw [kind, if_pos rfl, size] at part
  have laid' := done.laid
  rw [onInnermost, opened.unclosed] at laid'
  obtain ⟨c₃, shut, behind⟩ := laid'.passed_of_closes
    (part.grows.mode.trans mode) done.closed opened.unclosed (done.blocks.trans opened.blocks)
    (kind ▸ closes) behind
  rw [show (b.marked (s.marks c₁.offset)).kind = .switchBlock from kind, List.append_assoc,
    List.singleton_append] at shut
  exact ⟨c₃, _, _, _, _, .switch laid opened rfl kind operand ranged
    (fallbacks_of_resolve part.resolves ▸ once) part shut, behind⟩

theorem case {label : Text} (read : Directive.caseLabel? line.text = some label)
    (noOperator : Operator.find? Operator.assignments line.text = none) :
    (Passage.case label).Translates [line] := by
  refine ⟨fun {type last rest c c' is bs} mode laid keeps compiled => ?_⟩
  obtain ⟨_, front, -⟩ := Option.map_eq_some_iff.1 read
  have begins : "case".toList.isPrefixOf line.text = true := by
    rw [← Text.isSome_stripPrefix?, front]
    rfl
  obtain ⟨c₁, labelled, short, behind⟩ := exists_labelled mode laid
    (Text.head?_of_isPrefixOf rfl begins) (by decide) noOperator (.inl (read ▸ rfl)) compiled
  obtain ⟨value, known⟩ : ∃ value, labelValue c.aliases label = .ok value := by
    cases labelled with
    | case read' _ _ known =>
      obtain rfl := Option.some.inj (read'.symm.trans read)
      exact ⟨_, known⟩
    | default other => cases other.symm.trans read
  have told : c.saying line.text = BlockRecord.mark (some value) c.offset := by
    rw [saying, read]
    dsimp only
    rw [known]
  have resolves : (Passage.case label).resolve c.names c.slotNumber =
      some (.case value, c.slotNumber) := by
    simp only [resolve, names, labelValue?, known, Except.toOption]
    rfl
  exact ⟨c₁, _, [], [], _, .label laid labelled short told resolves rfl rfl trivial, behind⟩

theorem fallback (read : Directive.isDefault line.text = true)
    (noOperator : Operator.find? Operator.assignments line.text = none) :
    Passage.fallback.Translates [line] := by
  refine ⟨fun {type last rest c c' is bs} mode laid keeps compiled => ?_⟩
  have head := Text.head?_of_isPrefixOf (show "default".toList.head? = some 'd' from rfl) read
  obtain ⟨c₁, labelled, short, behind⟩ :=
    exists_labelled mode laid head (by decide) noOperator (.inr read) compiled
  refine ⟨c₁, _, [], [], .fallback, .label laid labelled short ?_ rfl rfl rfl trivial, behind⟩
  rw [saying, Directive.caseLabel?_of_head? (by rw [head]; decide)]
  exact if_pos read

theorem leave (read : Closes "break" line.text) : Passage.leave.Translates [line] := by
  refine ⟨fun {type last rest c c' is bs} mode laid keeps compiled => ?_⟩
  have plain := read.plain (show "break".toList.head? = some 'b' from rfl) (by decide)
  have written : line.text ≠ [] := by
    intro empty
    rw [empty, Closes] at read
    cases read
  obtain ⟨c₁, first, behind⟩ := exists_of_compileLines written compiled
  obtain ⟨block, others, innermost, kind, known, rfl⟩ := eq_bound_of_closes mode first read
    (Text.forall_mem_of_all (by decide)) plain (read.stays (by decide) (by decide))
    (show Opcode.lookup? "break".toList = some (.control .leave) by decide +kernel) rfl
  refine ⟨_, _, _, _, .leave, .instruction laid known rfl (List.forall_mem_nil _) rfl rfl rfl
    ⟨?_, List.mem_cons_self⟩, behind⟩
  rw [around_of_blocks innermost, if_pos kind]
  rfl

end Translates

/-- **A passage that compiles is laid out as what it says.** -/
theorem Spells.translates {passage : Passage} {lines : List Line}
    (spells : passage.Spells Rewrite.Writes lines) : passage.Translates lines := by
  induction spells with
  | nothing => exact .nothing
  | blank empty => exact .blank empty
  | seq _ _ front back => exact .seq front back
  | act instructs data => exact .act instructs data
  | call instructs => exact .call instructs
  | branch tests _ closes inside => exact .branch tests inside closes
  | divided tests _ divides _ closes inside other =>
    exact .divided tests inside divides other closes
  | loop tests _ closes inside => exact .loop tests inside closes
  | switch selects once spells closes inside => exact .switch selects once spells inside closes
  | case read noOperator => exact .case read noOperator
  | fallback read noOperator => exact .fallback read noOperator
  | leave read => exact .leave read

end Passage

end StageScript
