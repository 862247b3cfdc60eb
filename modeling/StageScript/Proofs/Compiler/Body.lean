import StageScript.Proofs.Compiler.Growth
import StageScript.Proofs.Compiler.Table
import StageScript.Proofs.Compiler.Typing
import StageScript.Proofs.Source.Discipline

/-! # Lines of typed bodies
A body that is being compiled is typed by the blocks that are open in it.
* **`BodyTyped`** — the instructions and the slots of the open body fit a typing;
* **`BodyTyped.stated`** — every line that neither closes the body nor calls a reserved opcode keeps
  it typed;
* **`BodyTyped.closed`** — the line that closes it leaves a body whose blocks fit together. -/

namespace StageScript

open Compiler

/-- The open body of a compiler fits a typing. -/
structure BodyTyped (c : Compiler) (returns : Bool) (t : Typing) : Prop where
  code : CodeTyped c.program.code c.body.entry.code returns t
    (places c.body.entry.jump c.body.blocks)
  table : TableTyped c.program.jumpTable c.body.entry.jump c.body.blocks t

/-! ## Arguments -/

theorem Opcode.mem_all_of_lookup? {name : Text} {op : Opcode} (h : Opcode.lookup? name = some op) :
    op ∈ Opcode.all := by
  obtain ⟨entry, found, rfl⟩ := Option.map_eq_some_iff.1 h
  obtain ⟨op, member, rfl⟩ := List.mem_map.1 (List.mem_of_find?_eq_some found)
  exact Array.mem_toList_iff.1 (List.mem_filter.1 member).1

/-- Arguments that fit into the code can be read back. -/
theorem Compiler.readable_of_meaning? {c : Compiler} {operands : List Operand}
    {arguments : List Argument} (meant : operands.map c.meaning? = arguments.map some)
    (short : (arguments.flatMap Argument.encode).length ≤ codeCapacity) :
    ∀ a ∈ arguments, a.Readable := by
  induction arguments generalizing operands with
  | nil => exact List.forall_mem_nil _
  | cons a rest ih =>
    cases operands with
    | nil => cases meant
    | cons o others =>
      obtain ⟨head, tail⟩ := List.cons.inj meant
      rw [List.flatMap_cons, List.length_append] at short
      intro b member
      rcases List.mem_cons.1 member with rfl | member
      · exact Operand.readable_of_argument? head (by omega)
      · exact ih tail (by omega) b member

theorem Compiler.Fits.of_addCode {c : Compiler} {words : List Word} (h : (c.addCode words).Fits) :
    c.Fits := by
  refine ⟨Nat.le_trans ?_ h.code, h.jumps⟩
  rw [Compiler.addCode, Array.size_append]
  exact Nat.le_add_right ..

theorem Compiler.short_of_fits {c : Compiler} {op : Opcode} {arguments : List Argument}
    (whole : (c.addCode (Instruction.encode op arguments)).program.code.size ≤ codeCapacity) :
    (arguments.flatMap Argument.encode).length ≤ codeCapacity := by
  rw [Compiler.addCode, Array.size_append, @List.size_toArray _ (Instruction.encode op arguments),
    Instruction.encode, List.length_cons] at whole
  omega

namespace BodyTyped

variable {c c' : Compiler} {returns : Bool} {t : Typing}

/-! ## Where the code ends -/

theorem begun (h : BodyTyped c returns t) : c.body.entry.jump ≤ c.program.jumpTable.size := by
  have := h.table.length
  omega

theorem le_slot (h : BodyTyped c returns t) :
    ∀ block ∈ c.body.blocks, c.body.entry.jump ≤ block.slot :=
  fun _ member => (h.table.nested.of_mem member).1

/-- Where the next instruction will stand. -/
theorem resolves_here (h : BodyTyped c returns t) (whole : c.Fits) :
    t.Resolves c.here (places c.body.entry.jump c.body.blocks) :=
  ⟨_, Nat.le_trans (Nat.sub_le ..) whole.code, rfl, h.code.last⟩

theorem small (h : BodyTyped c returns t) :
    ∀ slot ∈ places c.body.entry.jump c.body.blocks, slot < jumpCapacity :=
  h.code.small h.code.last

/-- The place of the innermost block. -/
theorem exists_place (h : BodyTyped c returns t) {kind : BlockKind} {slot : Nat} {rest : List Block}
    (innermost : c.body.blocks = ⟨kind, slot⟩ :: rest) :
    ∃ place, slot = c.body.entry.jump + place ∧ places c.body.entry.jump c.body.blocks =
      place :: places c.body.entry.jump rest := by
  have : c.body.entry.jump ≤ slot := h.le_slot _ (innermost ▸ List.mem_cons_self)
  refine ⟨slot - c.body.entry.jump, by omega, ?_⟩
  rw [innermost, places, List.map_cons, places]

/-- **An instruction that is added** to a body, with the blocks that are open behind it. -/
theorem exists_addCode {op : Opcode} {arguments : List Argument} {blocks : List Block}
    {here behind : List Nat} (code : CodeTyped c.program.code c.body.entry.code returns t here)
    (table : TableTyped c.program.jumpTable c.body.entry.jump blocks t)
    (known : op ∈ Opcode.all) (many : arguments.length = op.arity)
    (readable : ∀ a ∈ arguments, a.Readable) (small : ∀ slot ∈ behind, slot < jumpCapacity)
    (whole : (c.addCode (Instruction.encode op arguments)).Fits)
    (allows : ∀ {t' : Typing} {next : Nat}, t.Extends t' → t'.At next behind →
      t'.Allows returns next here op arguments) :
    ∃ t', t.Extends t' ∧
      CodeTyped (c.addCode (Instruction.encode op arguments)).program.code c.body.entry.code returns
        t' behind ∧
      TableTyped (c.addCode (Instruction.encode op arguments)).program.jumpTable c.body.entry.jump
        blocks t' ∧
      t'.Resolves (c.addCode (Instruction.encode op arguments)).here behind := by
  have longer := t.addPlace_extends
    (c.program.code.size - c.body.entry.code + (Instruction.encode op arguments).length) behind
  have code := code.add known many readable small (allows longer List.mem_cons_self)
  exact ⟨_, longer, code, table.of_extends longer rfl rfl, _,
    Nat.le_trans (Nat.sub_le ..) whole.code, rfl, code.last⟩

/-! ## Calls -/

/-- What opens, divides or closes no block leaves the open blocks open. -/
theorem allows_of_free {op : Opcode} {arguments : List Argument} {blocks : List Nat} {next : Nat}
    (free : governedBlock op = none) (called : op.isReserved = false) (at_ : t.At next blocks) :
    t.Allows returns next blocks op arguments := by
  cases op with
  | ifTest _ => cases called
  | whileTest _ => cases called
  | control op =>
    cases op with
    | stop => trivial
    | callFunction => exact at_
    | switch => cases called
    | endFunction => cases called
    | _ => cases free
  | _ => exact at_

theorem plain {operands : List Operand} {op : Opcode} {arguments : List Argument}
    (h : BodyTyped c returns t) (known : op ∈ Opcode.all)
    (meant : operands.map c.meaning? = arguments.map some) (arity : arguments.length = op.arity)
    (free : governedBlock op = none) (called : op.isReserved = false)
    (whole : (c.addCode (Instruction.encode op arguments)).Fits) :
    ∃ t', BodyTyped (c.addCode (Instruction.encode op arguments)) returns t' := by
  have readable := readable_of_meaning? meant (short_of_fits whole.code)
  obtain ⟨t', -, code, table, -⟩ := exists_addCode h.code h.table known arity readable h.small whole
    fun _ at_ => allows_of_free free called at_
  exact ⟨t', code, table⟩

theorem body_bound {c : Compiler} {op : Opcode} (block : Block)
    (closes : op = .control .endIf ∨ op = .control .loop ∨ op = .control .endSwitch) :
    (c.bound block op).body = { c.body with blocks := c.body.blocks.tail } := by
  rcases closes with rfl | rfl | rfl
  · rw [bound]
    split <;> rfl
  · rfl
  · rw [bound]
    split <;> rfl

/-- A block that is closed. -/
theorem of_closes {op : Opcode} {block : Block} {rest : List Block}
    (closes : op = .control .endIf ∨ op = .control .loop ∨ op = .control .endSwitch)
    (innermost : c.body.blocks = block :: rest)
    (code : CodeTyped c.program.code c.body.entry.code returns t (places c.body.entry.jump rest))
    (table : TableTyped (c.bound block op).program.jumpTable c.body.entry.jump rest t) :
    BodyTyped (c.bound block op) returns t := by
  have body := body_bound (c := c) block closes
  rw [innermost] at body
  constructor
  · rw [body, code_bound]
    exact code
  · rw [body]
    exact table

/-- **What divides or closes** the innermost block. -/
theorem block {op : Opcode} {block : Block} {rest : List Block} (h : BodyTyped c returns t)
    (known : op ∈ Opcode.all) (governs : governedBlock op = some block.kind)
    (innermost : c.body.blocks = block :: rest)
    (whole : (c.addCode (Instruction.encode op [])).Fits) :
    ∃ t', BodyTyped ((c.addCode (Instruction.encode op [])).bound block op) returns t' := by
  obtain ⟨kind, slot⟩ := block
  obtain ⟨place, rfl, held⟩ := h.exists_place innermost
  have table := h.table
  rw [innermost] at table
  have slots := table.hasSlots
  have arity := arity_of_governedBlock governs
  have small := h.small
  rw [held] at small
  -- what closes the block stands in it, and behind it the blocks around it are open
  have before : t.Resolves ((c.addCode (Instruction.encode op [])).here - 1)
      (place :: places c.body.entry.jump rest) := by
    have begun := h.code.begun
    have same : (c.addCode (Instruction.encode op [])).here - 1 = c.here := by
      rw [here, here, Compiler.addCode, Array.size_append]
      show Word.ofNat (_ + 1 - _) - 1 = _
      rw [Nat.sub_add_comm begun, Word.ofNat_succ_sub]
    rw [same, ← held]
    exact h.resolves_here whole.of_addCode
  have divides (allows : ∀ {t' : Typing} {next : Nat}, t.Extends t' →
      t'.At next (place :: places c.body.entry.jump rest) →
        t'.Allows returns next (places c.body.entry.jump c.body.blocks) op []) :=
    @exists_addCode c returns t op [] _ _ _ h.code h.table known arity.symm (List.forall_mem_nil _) small whole allows
  have closes (allows : ∀ {t' : Typing} {next : Nat}, t.Extends t' →
      t'.At next (places c.body.entry.jump rest) →
        t'.Allows returns next (places c.body.entry.jump c.body.blocks) op []) :=
    @exists_addCode c returns t op [] _ _ _ h.code h.table known arity.symm (List.forall_mem_nil _) (fun slot member =>
      small slot (List.mem_cons_of_mem place member)) whole allows
  cases op with
  | control op =>
    cases op with
    | elseBranch =>
      obtain rfl : kind = .ifBlock := (Option.some.inj governs).symm
      obtain ⟨t', longer, code, table, behind⟩ := divides
        fun longer _ => ⟨place, _, held, longer.slot slots.2⟩
      rw [innermost] at table
      refine ⟨t', ?_, ?_⟩
      · show CodeTyped _ _ _ _ (places c.body.entry.jump c.body.blocks)
        exact held ▸ code
      · show TableTyped _ _ c.body.blocks _
        exact innermost ▸ table.setOwn (k := 0) (slots.mono longer).1 behind (absurd · (by decide))
    | endIf =>
      obtain rfl : kind = .ifBlock := (Option.some.inj governs).symm
      obtain ⟨t', longer, code, table, behind⟩ := closes fun _ at_ => ⟨place, _, held, at_⟩
      rw [innermost] at table
      exact ⟨t', of_closes (.inl rfl) innermost code (table.closeIf behind (before.mono longer))⟩
    | loop =>
      obtain rfl : kind = .whileBlock := (Option.some.inj governs).symm
      obtain ⟨t', longer, code, table, behind⟩ := closes
        fun longer _ => ⟨place, _, held, longer.slot slots.1⟩
      rw [innermost] at table
      exact ⟨t', of_closes (.inr (.inl rfl)) innermost code (table.closeWhile behind)⟩
    | leave =>
      obtain rfl : kind = .switchBlock := (Option.some.inj governs).symm
      obtain ⟨range, header, other, last, cases⟩ := slots
      obtain ⟨t', longer, code, table, behind⟩ := divides
        fun longer _ => ⟨place, _, held, longer.slot last⟩
      refine ⟨t', ?_, table⟩
      show CodeTyped _ _ _ _ (places c.body.entry.jump c.body.blocks)
      exact held ▸ code
    | endSwitch =>
      obtain rfl : kind = .switchBlock := (Option.some.inj governs).symm
      obtain ⟨t', longer, code, table, behind⟩ := closes fun _ at_ => ⟨place, _, held, at_⟩
      rw [innermost] at table
      exact ⟨t', of_closes (.inr (.inr rfl)) innermost code
        (table.closeSwitch behind (before.mono longer))⟩
    | _ => cases governs
  | _ => cases governs

/-! ## Lines that open blocks -/

theorem fits_of_opened {kind : BlockKind} {words : List Word} (h : (c.opened kind words).Fits) :
    c.Fits := by
  refine ⟨h.code, Nat.le_trans ?_ h.jumps⟩
  rw [opened, Compiler.addJumps, Array.size_append]
  exact Nat.le_add_right ..

/-- The place of a block that is opened is small. -/
theorem slotNumber_lt {kind : BlockKind} {words : List Word} (h : BodyTyped c returns t)
    (some : words ≠ []) (whole : (c.opened kind words).Fits) : c.slotNumber < jumpCapacity := by
  have size := whole.jumps
  have begun := h.begun
  have := List.length_pos_iff.2 some
  rw [opened, Compiler.addJumps, Array.size_append, @List.size_toArray _ words] at size
  rw [slotNumber]
  omega

/-- An instruction that opens a block, whose slots are there already. -/
theorem exists_opened {kind : BlockKind} {words : List Word} {op : Opcode}
    {arguments : List Argument} {t' : Typing} (h : BodyTyped c returns t) (longer : t.Extends t')
    (same : t'.places = t.places) (table : TableTyped (c.opened kind words).program.jumpTable
      c.body.entry.jump (c.opened kind words).body.blocks t')
    (some : words ≠ []) (known : op ∈ Opcode.all) (many : arguments.length = op.arity)
    (readable : ∀ a ∈ arguments, a.Readable)
    (whole : ((c.opened kind words).addCode (Instruction.encode op arguments)).Fits)
    (allows : ∀ {t'' : Typing} {next : Nat}, t'.Extends t'' →
      t''.At next (c.slotNumber :: places c.body.entry.jump c.body.blocks) →
        t''.Allows returns next (places c.body.entry.jump c.body.blocks) op arguments) :
    ∃ t'', BodyTyped ((c.opened kind words).addCode (Instruction.encode op arguments)) returns
      t'' := by
  have small : ∀ slot ∈ c.slotNumber :: places c.body.entry.jump c.body.blocks,
      slot < jumpCapacity := by
    intro slot member
    rcases List.mem_cons.1 member with rfl | member
    · exact h.slotNumber_lt some whole.of_addCode
    · exact h.small slot member
  have code : CodeTyped (c.opened kind words).program.code (c.opened kind words).body.entry.code
      returns t' (places c.body.entry.jump c.body.blocks) := h.code.of_extends longer same
  obtain ⟨t'', -, code, table, -⟩ := exists_addCode code table known many readable small whole allows
  exact ⟨t'', code, table⟩

/-- **A test** and the block that it opens. -/
theorem test {keyword : ConditionKeyword} {comparison : Comparison} {arguments more : List Argument}
    (h : BodyTyped c returns t) (shape : arguments = .integer (Word.ofNat c.slotNumber) :: more)
    (known : keyword.opcode comparison ∈ Opcode.all) (arity : arguments.length = 3)
    (readable : ∀ a ∈ arguments, a.Readable)
    (whole : ((c.opened (conditionBlock keyword) (c.conditionWords keyword)).addCode
      (Instruction.encode (keyword.opcode comparison) arguments)).Fits) :
    ∃ t', BodyTyped ((c.opened (conditionBlock keyword) (c.conditionWords keyword)).addCode
      (Instruction.encode (keyword.opcode comparison) arguments)) returns t' := by
  cases keyword with
  | ifLine =>
    have slots := h.table.openIf.nested.2.1
    exact h.exists_opened (t.addSlots_extends _) rfl h.table.openIf (List.cons_ne_nil _ _) known
      (arity.trans (by cases comparison <;> rfl)) readable whole fun longer at_ =>
        ⟨c.slotNumber, more, shape, h.slotNumber_lt (List.cons_ne_nil _ _) whole.of_addCode, at_,
          longer.slot slots.1⟩
  | whileLine =>
    have table := h.table.openWhile (h.resolves_here (fits_of_opened whole.of_addCode))
    exact h.exists_opened (t.addSlots_extends _) rfl table (List.cons_ne_nil _ _) known
      (arity.trans (by cases comparison <;> rfl)) readable whole fun longer at_ =>
        ⟨c.slotNumber, more, shape, h.slotNumber_lt (List.cons_ne_nil _ _) whole.of_addCode, at_,
          longer.slot table.nested.2.1.2⟩

theorem setIfInBounds_append (jumps : Array Word) (a b x y : Word) (rest : List Word) :
    ((jumps ++ (a :: b :: rest).toArray).setIfInBounds jumps.size x).setIfInBounds
      (jumps.size + 1) y = jumps ++ (x :: y :: rest).toArray := by
  have size : jumps.size = jumps.toList.length := rfl
  apply Array.toList_inj.1
  rw [Array.toList_setIfInBounds, Array.toList_setIfInBounds, Array.toList_append,
    Array.toList_append, size, List.set_append_right _ _ (Nat.le_refl _),
    List.set_append_right _ _ (Nat.le_add_right _ 1), Nat.sub_self, Nat.add_sub_cancel_left]
  rfl

theorem jumpTable_addJumps (c : Compiler) (words : List Word) :
    (c.addJumps words).program.jumpTable = c.program.jumpTable ++ words.toArray := rfl

theorem jumpTable_ranged (c : Compiler) (header : Nat) (range : LabelRange) :
    (c.ranged header range).program.jumpTable =
      (c.program.jumpTable.setIfInBounds header range.min).setIfInBounds (header + 1) range.max := rfl

/-- The slots of a switch once its labels are known. -/
theorem jumpTable_primed (c : Compiler) (words : List Word) (range : LabelRange) :
    ((c.openedSwitch.addCode words).primed c.program.jumpTable.size range).program.jumpTable =
      c.program.jumpTable ++ ([range.settle.min, range.settle.max, -1, 0] ++
        List.replicate range.settle.size (-1)).toArray := by
  have opened : (c.openedSwitch.addCode words).program.jumpTable = c.program.jumpTable ++
      [LabelRange.start.min, LabelRange.start.max, -1, 0].toArray := rfl
  rw [primed, jumpTable_addJumps, jumpTable_ranged, jumpTable_ranged, opened, setIfInBounds_append,
    setIfInBounds_append, Array.append_assoc]
  exact congrArg (c.program.jumpTable ++ ·) (List.append_toArray ..)

theorem settle_le (range : LabelRange) : range.settle.min ≤ range.settle.max := by
  rw [LabelRange.settle]
  split
  · exact Int32.le_refl _
  · next order => exact Int32.not_lt.1 order

/-- **A switch** and its block, with a slot for each value between its labels. -/
theorem switch {arguments more : List Argument} {range : LabelRange} (h : BodyTyped c returns t)
    (shape : arguments = .integer (Word.ofNat c.slotNumber) :: more)
    (known : Opcode.control .switch ∈ Opcode.all) (arity : arguments.length = 2)
    (readable : ∀ a ∈ arguments, a.Readable)
    (whole : ((c.openedSwitch.addCode (Instruction.encode (.control .switch) arguments)).primed
      c.program.jumpTable.size range).Fits) :
    ∃ t', BodyTyped ((c.openedSwitch.addCode (Instruction.encode (.control .switch) arguments)).primed
      c.program.jumpTable.size range) returns t' := by
  have jumps := jumpTable_primed c (Instruction.encode (.control .switch) arguments) range
  have table := h.table.openSwitch (settle_le range)
  obtain ⟨settled, header, other, behind, cases⟩ := table.nested.2.1
  have whole' : ((c.opened .switchBlock ([range.settle.min, range.settle.max, -1, 0] ++
      List.replicate range.settle.size (-1))).addCode
        (Instruction.encode (.control .switch) arguments)).Fits := by
    have size := whole.jumps
    rw [jumps] at size
    exact ⟨whole.code, size⟩
  obtain ⟨t', code, table⟩ := h.exists_opened
    ((t.addSlots_extends _).trans (Typing.addHeader_extends ..)) rfl table (List.cons_ne_nil _ _)
    known arity readable whole' fun longer at_ => ⟨c.slotNumber, more, settled, shape,
      h.slotNumber_lt (List.cons_ne_nil _ _) whole'.of_addCode, longer.header header,
      longer.slot other, fun k inside => longer.slot (cases k inside)⟩
  refine ⟨t', code, ?_⟩
  rw [jumps]
  exact table

/-! ## Labels -/

/-- **A label** of the innermost switch. -/
theorem label {text : Text} (h : BodyTyped c returns t) (whole : c.Fits)
    (labelled : Labelled c text c') : BodyTyped c' returns t := by
  have target := h.resolves_here whole
  have table := h.table
  cases labelled with
  | @case _ value block _ read innermost isSwitch known least most =>
    obtain ⟨kind, slot⟩ := block
    obtain rfl : kind = .switchBlock := isSwitch
    obtain ⟨place, rfl, held⟩ := h.exists_place innermost
    rw [innermost] at table
    rw [held] at target
    obtain ⟨range, header, other, behind, cases⟩ := table.hasSlots
    dsimp only at least most ⊢
    rw [table.labelRange_eq header] at least most ⊢
    refine ⟨h.code, ?_⟩
    have inside := cases (value.toInt - range.min.toInt).toNat (by omega)
    rw [Nat.add_assoc] at inside
    have := table.setOwn inside target (by omega)
    rw [← Nat.add_assoc, ← Nat.add_assoc] at this
    show TableTyped _ _ c.body.blocks _
    rw [innermost]
    exact this
  | @default block _ other read innermost isSwitch =>
    obtain ⟨kind, slot⟩ := block
    obtain rfl : kind = .switchBlock := isSwitch
    obtain ⟨place, rfl, held⟩ := h.exists_place innermost
    rw [innermost] at table
    rw [held] at target
    refine ⟨h.code, ?_⟩
    show TableTyped _ _ c.body.blocks _
    rw [innermost]
    exact (table.fill target).1

/-! ## Lines -/

/-- What is no test and opens no switch does not call a reserved opcode if it may stand in a body. -/
theorem isReserved_eq_false {text : Text} {op : Opcode} {slot : Word}
    (admitted : Region.callsReserved text = false) (noTest : Rewrite.condition? text slot = none)
    (noSwitch : Rewrite.switch? text slot = none)
    (known : Opcode.lookup? (Call.split ((Rewrite.assignment? text).getD text)).name = some op) :
    op.isReserved = false := by
  have test : (Rewrite.condition? text 0).isSome = false := by
    rw [Rewrite.isSome_condition?, ← Rewrite.isSome_condition? text slot, noTest]
    rfl
  have opens : Directive.startsSwitch text = false := by
    rw [← Rewrite.isSome_switch? text slot, noSwitch]
    rfl
  rw [Region.callsReserved, test, opens, known] at admitted
  exact admitted

/-- **A line of a body** that calls no reserved opcode keeps the body typed. -/
theorem stated {text : Text} (h : BodyTyped c returns t) (whole : c.Fits) (keeps : c.KeepsNumerals)
    (admitted : Region.callsReserved text = false) (stated : Stated c text none c')
    (whole' : c'.Fits) : ∃ t', BodyTyped c' returns t' := by
  cases stated with
  | test rewritten known meant arity room =>
    obtain ⟨more, shape⟩ := keeps.namesSlot.exists_of_condition? room rewritten meant
    exact h.test shape (Opcode.mem_all_of_lookup? known) arity
      (readable_of_meaning? meant (short_of_fits whole'.code)) whole'
  | label _ _ labelled => exact ⟨t, h.label whole labelled⟩
  | call noTest noSwitch _ _ called =>
    cases called with
    | plain known meant arity free =>
      exact h.plain (Opcode.mem_all_of_lookup? known) meant arity free
        (isReserved_eq_false admitted noTest noSwitch known) whole'
    | block known _ governs same innermost =>
      refine h.block (Opcode.mem_all_of_lookup? known) (same ▸ governs) innermost ?_
      exact ⟨code_bound .. ▸ whole'.code, size_bound .. ▸ whole'.jumps⟩

/-- **A switch** and the slots of its labels keep the body typed. -/
theorem stated_primed {text : Text} {header : Nat} (h : BodyTyped c returns t)
    (keeps : c.KeepsNumerals) (stated : Stated c text (some header) c') {range : LabelRange}
    (whole' : (c'.primed header range).Fits) : ∃ t', BodyTyped (c'.primed header range) returns t' := by
  cases stated with
  | switch noTest rewritten known meant arity room =>
    obtain ⟨more, shape⟩ := keeps.namesSlot.exists_of_switch? room rewritten meant
    have code := whole'.code
    rw [code_primed] at code
    have short := short_of_fits code
    exact h.switch shape (Opcode.mem_all_of_lookup? known) arity (readable_of_meaning? meant short)
      whole'

/-! ## Closing lines -/

/-- **A body that is closed** is one whose blocks fit together. -/
theorem closed {op : Opcode} (h : BodyTyped c returns t) (bare : c.body.blocks = [])
    (closes : op = .control .stop ∨ op = .control .endFunction ∧ returns = true) :
    (c.addCode [op.word]).program.Typed c.body.entry returns t := by
  have code := h.code
  have table := h.table
  rw [bare] at code table
  have begun := code.begun
  have known : op ∈ Opcode.all ∧ op.arity = 0 := by
    rcases closes with rfl | ⟨rfl, -⟩
    · decide +kernel
    · decide +kernel
  refine ⟨code.first, code.small, fun {offset blocks} at_ => ?_, fun typed => ?_, fun header => ?_⟩
  · by_cases inside : offset < c.program.code.size - c.body.entry.code
    · obtain ⟨op', arguments, next, stands, allows⟩ := code.instruction at_ inside
      exact ⟨op', arguments, next, stands.mono _, allows⟩
    · have := code.inside at_
      obtain rfl : offset = c.program.code.size - c.body.entry.code := by omega
      obtain rfl := code.only at_
      refine ⟨op, [], c.program.code.size - c.body.entry.code + 1, ⟨?_, known.1, known.2.symm,
        List.forall_mem_nil _, rfl⟩, ?_⟩
      · rw [show c.body.entry.code + (c.program.code.size - c.body.entry.code) =
          c.program.code.size by omega]
        exact Holds.of_append ..
      · rcases closes with rfl | ⟨rfl, yes⟩
        · trivial
        · exact ⟨yes, rfl⟩
  · rcases table.slot typed with ⟨w, word, target, small, rfl, at_⟩ | ⟨b, member, -⟩
    · exact ⟨target, small, word, at_⟩
    · cases member
  · obtain ⟨first, second, order, min, max⟩ := table.header header
    exact ⟨(List.getElem?_eq_some_iff.1 second).1, order, min, max⟩

end BodyTyped

end StageScript
