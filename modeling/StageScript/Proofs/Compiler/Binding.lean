import StageScript.Proofs.Compiler.Body
import StageScript.Proofs.Compiler.Priming
import StageScript.Proofs.Compiler.Step

/-! # Labels that are bound to switches
A switch is read twice: where it is opened the lines behind it are searched for its labels, and where
these lines are compiled the labels get their targets. The search knows a switch by the raw spelling
of its lines, compilation knows it by the opcodes that they call.
* `Compiler.fileBindings` — the `case` lines that compilation binds, each with its switch;
* **`Watches.compileLine`** — where only the bare keyword closes a switch, both readings agree on which
  switches are open, line by line;
* **`compileFile_counts_labels`** — so the lines that are bound are among those that were counted, and
  no label is outside the range of its switch;
* **`not_all_counted`** — a closing keyword that is written as a call breaks this. -/

namespace StageScript

open Stepwise

/-! ## What compilation binds -/

/-- A `case` line and the switch among whose labels it is bound, where there is one. -/
structure CaseBinding where
  switch? : Option Opening
  line : Line
  deriving DecidableEq, Repr

namespace Compiler

/-- How many switches are open. -/
def switchDepth (c : Compiler) : Nat := c.body.blocks.countP (·.kind = .switchBlock)

/-- **The switches that are open behind a line**, innermost first. `os` are those in front of it, and
the second compiler is the one behind it. -/
def openings (c c' : Compiler) (line : Line) (rest : List Line) (os : List Opening) : List Opening :=
  if c.switchDepth < c'.switchDepth then ⟨line, rest⟩ :: os
  else os.drop (c.switchDepth - c'.switchDepth)

/-- Whether a line is compiled as a label of a switch. -/
def binds (c : Compiler) (line : Line) : Bool :=
  c.mode = .inside ∧ (c.body.blocks.head?.any (·.kind = .switchBlock)) = true ∧
    (Directive.caseLabel? ((Rewrite.assignment? line.text).getD line.text)).isSome

/-- **The `case` lines that are bound** when lines are compiled, up to the first that fails. `os` are the
switches that are open in front of them. -/
def caseBindings (type : Nat) : Compiler → List Opening → List Line → List CaseBinding
  | _, _, [] => []
  | c, os, line :: rest =>
    if line.text = [] then caseBindings type c os rest
    else
      let (answer, c') := compileLine type line rest c
      (if c.binds line then [⟨os.head?, line⟩] else []) ++
        match answer with
        | .ok _ => caseBindings type c' (c.openings c' line rest os) rest
        | .error _ => []

/-- The `case` lines that are bound when a file is compiled. -/
def fileBindings (c : Compiler) (source : Text) (type : Nat) : List CaseBinding :=
  caseBindings type c.startFile [] (Line.ofSource source)

end Compiler

open Compiler

variable {c c' : Compiler} {line : Line} {rest lines : List Line} {os : List Opening}

/-! ## Slots in front of a block -/

/-- A compiler is another one but for its program and its blocks, and its jump table is the same in
front of a place. -/
structure Compiler.Agrees (c c' : Compiler) (bound : Nat) : Prop where
  aliases : c'.aliases = c.aliases
  mode : c'.mode = c.mode
  words : ∀ slot < bound, c'.jumpWord slot = c.jumpWord slot

namespace Compiler

variable {bound bound' slot header : Nat}

theorem Agrees.mono (h : c.Agrees c' bound) (fewer : bound' ≤ bound) : c.Agrees c' bound' :=
  ⟨h.aliases, h.mode, fun slot below => h.words slot (Nat.lt_of_lt_of_le below fewer)⟩

theorem Agrees.trans {c'' : Compiler} (h : c.Agrees c' bound) (h' : c'.Agrees c'' bound) :
    c.Agrees c'' bound :=
  ⟨h'.aliases.trans h.aliases, h'.mode.trans h.mode,
    fun slot below => (h'.words slot below).trans (h.words slot below)⟩

theorem Agrees.labelRange (h : c.Agrees c' bound) (inside : header + 2 ≤ bound) :
    c'.labelRange header = c.labelRange header := by
  rw [Compiler.labelRange, Compiler.labelRange, h.words header (by omega),
    h.words (header + 1) (by omega)]

theorem agrees_of_table (aliases : c'.aliases = c.aliases) (mode : c'.mode = c.mode)
    (same : ∀ slot < bound, c'.program.jumpTable[slot]? = c.program.jumpTable[slot]?) :
    c.Agrees c' bound := by
  refine ⟨aliases, mode, fun slot below => ?_⟩
  rw [jumpWord, jumpWord, Array.getD_eq_getD_getElem?, Array.getD_eq_getD_getElem?, same slot below]

theorem agrees_addCode (c : Compiler) (words : List Word) (bound : Nat) :
    c.Agrees (c.addCode words) bound := agrees_of_table rfl rfl fun _ _ => rfl

theorem agrees_closed (c : Compiler) (bound : Nat) : c.Agrees c.closed bound :=
  agrees_of_table rfl rfl fun _ _ => rfl

theorem agrees_setSlot (inside : bound ≤ slot) (w : Word) : c.Agrees (c.setSlot slot w) bound :=
  agrees_of_table rfl rfl fun _ _ => Array.getElem?_setIfInBounds_ne (by omega)

theorem agrees_filled (inside : bound ≤ header + 4) (w : Word) :
    c.Agrees (c.filled header w) bound :=
  agrees_of_table rfl rfl fun _ _ => (getElem?_foldl_modify ..).trans (if_neg (by omega))

theorem agrees_opened (c : Compiler) (kind : BlockKind) (words : List Word) :
    c.Agrees (c.opened kind words) c.program.jumpTable.size :=
  agrees_of_table rfl rfl fun _ below => Array.getElem?_append_left below

/-- **The targets of a block** are behind the slots of the blocks around it. -/
theorem agrees_bound (c : Compiler) (block : Block) (op : Opcode) :
    c.Agrees (c.bound block op) block.slot := by
  have ended (k : Nat) (w : Word) : c.Agrees (c.setSlot (block.slot + k) w) block.slot :=
    agrees_setSlot (Nat.le_add_right ..) w
  unfold Compiler.bound
  split
  · exact agrees_setSlot (Nat.le_refl _) _
  · dsimp only
    refine Agrees.trans ?_ (agrees_closed ..)
    split
    · exact (ended 1 _).trans (agrees_setSlot (Nat.le_refl _) _)
    · exact ended 1 _
  · dsimp only
    refine Agrees.trans ?_ (agrees_closed ..)
    split
    · exact ((ended 3 _).trans (agrees_setSlot (Nat.le_add_right ..) _)).trans
        (agrees_filled (Nat.le_add_right ..) _)
    · exact ended 3 _
  · exact (ended 1 _).trans (agrees_closed ..)
  · exact agrees_of_table rfl rfl fun _ _ => rfl

/-- **A switch whose labels have been looked up** has their range in its header. -/
theorem agrees_primed (c : Compiler) (words : List Word) (range : LabelRange) :
    c.Agrees ((c.openedSwitch.addCode words).primed c.program.jumpTable.size range)
        c.program.jumpTable.size ∧
      ((c.openedSwitch.addCode words).primed c.program.jumpTable.size range).labelRange
        c.program.jumpTable.size = range.settle := by
  have table := BodyTyped.jumpTable_primed c words range
  constructor
  · refine agrees_of_table rfl rfl fun slot below => ?_
    rw [table]
    exact Array.getElem?_append_left below
  · rw [labelRange, jumpWord, jumpWord, table]
    simp [Array.getD_eq_getD_getElem?]

end Compiler

/-! ## Switches that both readings know -/

/-- **Both readings agree on the open switches.** The open blocks of a body, innermost first, have their
slots in front of a place, and for each of them that is a switch the search for its labels has ended
well, has left its range in the slots of the switch, and came past the lines that are to be compiled. -/
inductive Watched (c : Compiler) (lines : List Line) :
    (depth bound : Nat) → List Block → List Opening → Prop
  | nil {depth bound : Nat} : Watched c lines depth bound [] []
  | plain {depth bound : Nat} {block : Block} {outer : List Block} {os : List Opening}
    (kind : block.kind ≠ .switchBlock) (inside : block.slot + 2 ≤ bound)
    (around : Watched c lines depth block.slot outer os) :
    Watched c lines depth bound (block :: outer) os
  | switch {depth bound n : Nat} {block : Block} {outer : List Block} {o : Opening}
    {os : List Opening} (kind : block.kind = .switchBlock) (inside : block.slot + 2 ≤ bound)
    (closed : (o.priming c.aliases).ending = .closed n)
    (range : c.labelRange block.slot = (o.priming c.aliases).range.settle)
    (reaches : o.Reaches c.aliases lines depth)
    (around : Watched c lines (depth + 1) block.slot outer os) :
    Watched c lines depth bound (block :: outer) (o :: os)

namespace Watched

variable {depth depth' bound bound' : Nat} {block : Block} {blocks : List Block}

theorem mono (h : Watched c lines depth bound blocks os) (more : bound ≤ bound') :
    Watched c lines depth bound' blocks os := by
  cases h with
  | nil => exact .nil
  | plain kind inside around => exact .plain kind (Nat.le_trans inside more) around
  | switch kind inside closed range reaches around =>
    exact .switch kind (Nat.le_trans inside more) closed range reaches around

/-- Only the slots in front of the place count. -/
theorem agrees (h : Watched c lines depth bound blocks os) (same : c.Agrees c' bound) :
    Watched c' lines depth bound blocks os := by
  induction h with
  | nil => exact .nil
  | plain kind inside around ih => exact .plain kind inside (ih (same.mono (by omega)))
  | switch kind inside closed range reaches around ih =>
    refine .switch kind inside (same.aliases ▸ closed) ?_ (same.aliases ▸ reaches)
      (ih (same.mono (by omega)))
    rw [same.labelRange inside, range, same.aliases]

/-- What the innermost block becomes, as far as its slots are concerned, does not count but for the
range in the header of a switch. -/
theorem changed (h : Watched c lines depth bound (block :: blocks) os)
    (same : c.Agrees c' block.slot)
    (range : block.kind = .switchBlock → c'.labelRange block.slot = c.labelRange block.slot) :
    Watched c' lines depth bound (block :: blocks) os := by
  cases h with
  | plain kind inside around => exact .plain kind inside (around.agrees same)
  | switch kind inside closed range' reaches around =>
    refine .switch kind inside (same.aliases ▸ closed) ?_ (same.aliases ▸ reaches)
      (around.agrees same)
    rw [range kind, range', same.aliases]

/-- The searches of all open switches go past a line alike. -/
theorem advance (h : Watched c (line :: rest) depth bound blocks os)
    (step : ∀ (o : Opening) (n k : Nat), (o.priming c.aliases).ending = .closed n →
      o.Reaches c.aliases (line :: rest) (depth + k) → o.Reaches c.aliases rest (depth' + k)) :
    Watched c rest depth' bound blocks os := by
  induction h generalizing depth' with
  | nil => exact .nil
  | plain kind inside around ih => exact .plain kind inside (ih step)
  | switch kind inside closed range reaches around ih =>
    refine .switch kind inside closed range (step _ _ 0 closed reaches) (ih fun o n k ended came => ?_)
    rw [Nat.add_right_comm] at came ⊢
    exact step o n (k + 1) ended came

/-- A line that opens a switch. -/
theorem starts (h : Watched c (line :: rest) depth bound blocks os)
    (starts : Directive.startsSwitch line.text = true) :
    Watched c rest (depth + 1) bound blocks os :=
  h.advance fun o _ k _ came => by
    rw [Nat.add_right_comm]
    exact came.starts starts

/-- A line that is not about a switch. -/
theorem passes (h : Watched c (line :: rest) depth bound blocks os)
    (other : Directive.startsSwitch line.text = false ∧ Directive.endsSwitch line.text = false) :
    Watched c rest depth bound blocks os :=
  h.advance fun _ _ _ closed came => came.passes closed other.1 other.2

/-- A line that closes the innermost switch. -/
theorem ends (h : Watched c (line :: rest) (depth + 1) bound blocks os)
    (noStart : Directive.startsSwitch line.text = false)
    (ends : Directive.endsSwitch line.text = true) : Watched c rest depth bound blocks os :=
  h.advance fun o _ k _ came => by
    rw [Nat.add_right_comm] at came
    exact came.ends noStart ends

/-- The blocks around one that is no switch. -/
theorem around (h : Watched c lines depth bound (block :: blocks) os)
    (kind : block.kind ≠ .switchBlock) :
    Watched c lines depth block.slot blocks os ∧ block.slot ≤ bound := by
  cases h with
  | plain _ inside around => exact ⟨around, by omega⟩
  | switch kind' => exact absurd kind' kind

/-- The blocks around a switch. -/
theorem around_switch (h : Watched c lines depth bound (block :: blocks) os)
    (kind : block.kind = .switchBlock) :
    Watched c lines (depth + 1) block.slot blocks os.tail ∧ block.slot ≤ bound := by
  cases h with
  | plain kind' => exact absurd kind kind'
  | switch _ inside _ _ _ around => exact ⟨around, by omega⟩

end Watched

/-! ## Lines -/

/-- **Both readings agree between two lines.** -/
structure Watches (c : Compiler) (lines : List Line) (os : List Opening) : Prop where
  mode : c.mode ≠ .skipping
  bare : c.mode = .outside → c.body.blocks = []
  stack : Watched c lines 0 c.program.jumpTable.size c.body.blocks os

/-- A line that leaves as many switches open. -/
theorem openings_of_eq (same : c'.switchDepth = c.switchDepth) :
    c.openings c' line rest os = os := by
  rw [openings, same, if_neg (Nat.lt_irrefl _), Nat.sub_self, List.drop_zero]

/-- A line that opens a switch. -/
theorem openings_of_succ (more : c'.switchDepth = c.switchDepth + 1) :
    c.openings c' line rest os = ⟨line, rest⟩ :: os := by
  rw [openings, more, if_pos (Nat.lt_succ_self _)]

/-- A line that closes a switch. -/
theorem openings_of_pred (fewer : c'.switchDepth + 1 = c.switchDepth) :
    c.openings c' line rest os = os.tail := by
  rw [openings, ← fewer, if_neg (by omega), Nat.add_sub_cancel_left, List.drop_one]

/-- The switches that are open around the innermost block. -/
theorem Compiler.switchDepth_cons {block : Block} {outer : List Block}
    (innermost : c.body.blocks = block :: outer) :
    c.switchDepth = outer.countP (·.kind = .switchBlock) +
      if block.kind = .switchBlock then 1 else 0 := by
  rw [switchDepth, innermost, List.countP_cons]
  simp only [decide_eq_true_eq]

/-- A line that is compiled as a `case` begins like one. -/
theorem exists_of_caseLabel? {text label : Text}
    (read : Directive.caseLabel? ((Rewrite.assignment? text).getD text) = some label) :
    Rewrite.assignment? text = none ∧ text.head? = some 'c' ∧
      Directive.caseLabel? text = some label := by
  by_cases head : text.head? = some 'c'
  · cases assigned : Rewrite.assignment? text with
    | none =>
      rw [assigned] at read
      exact ⟨rfl, head, read⟩
    | some line =>
      rw [assigned, Option.getD_some,
        Directive.caseLabel?_of_head? (head?_of_assignment? assigned).1] at read
      cases read
  · rw [caseLabel?_getD_assignment? head] at read
    cases read

/-- So does a line that is compiled as a `default`. -/
theorem head?_of_isDefault {text : Text}
    (read : Directive.isDefault ((Rewrite.assignment? text).getD text) = true) :
    text.head? = some 'd' := by
  have head := @Text.head?_of_isPrefixOf _ _ 'd' rfl read
  cases assigned : Rewrite.assignment? text with
  | none =>
    rw [assigned] at head
    exact head
  | some line =>
    rw [assigned] at head
    exact absurd head (head?_of_assignment? assigned).2

theorem startsSwitch_eq_false {text : Text} {slot : Word}
    (noSwitch : Rewrite.switch? text slot = none) : Directive.startsSwitch text = false := by
  rw [← Rewrite.isSome_switch? text slot, noSwitch]
  rfl

/-- A line that neither closes a body nor is about a platform leaves its mode and the aliases as they
are. -/
theorem Compiler.Stated.agrees {text : Text} {header? : Option Nat}
    (h : Stated c text header? c') : c.Agrees c' 0 := by
  have same {c₁ : Compiler} (aliases : c₁.aliases = c.aliases) (mode : c₁.mode = c.mode) :
      c.Agrees c₁ 0 := agrees_of_table aliases mode fun _ below => absurd below (Nat.not_lt_zero _)
  cases h with
  | test => exact same rfl rfl
  | switch => exact same rfl rfl
  | label _ _ labelled =>
    cases labelled with
    | case => exact same rfl rfl
    | @default block =>
      exact (agrees_setSlot (Nat.zero_le _) _).trans (@agrees_filled _ 0 block.slot (Nat.zero_le _) _)
  | call _ _ _ _ called =>
    cases called with
    | plain => exact same rfl rfl
    | block =>
      exact (agrees_addCode c _ 0).trans ((agrees_bound ..).mono (Nat.zero_le _))

theorem Compiler.Stated.mode_eq {text : Text} {header? : Option Nat}
    (h : Stated c text header? c') : c'.mode = c.mode :=
  h.agrees.mode

/-- **A line that is compiled as a `case`** is bound and nothing else. -/
theorem insideLine_of_caseLabel? {text label : Text} (noPlatform : Directive.platform? text = none)
    (read : Directive.caseLabel? ((Rewrite.assignment? text).getD text) = some label) :
    insideLine text = do
      bindCase label
      return none := by
  obtain ⟨noOperator, head, read⟩ := exists_of_caseLabel? read
  -- The first letter is a `c`, which none of the tests that come earlier takes.
  have differs (keyword : Text) (other : keyword.head? = some 'e') :
      Text.sameName text keyword = false := by
    cases text with
    | nil => cases head
    | cons c text =>
      obtain rfl := Option.some.inj head
      cases keyword with
      | nil => cases other
      | cons c keyword =>
        obtain rfl := Option.some.inj other
        rfl
  have noEnd : Directive.endsPlatform text = false :=
    Text.isPrefixOf_of_head? rfl (by rw [head]; decide)
  have noTest (slot : Word) : Rewrite.condition? text slot = none := by
    cases rewritten : Rewrite.condition? text slot with
    | none => rfl
    | some condition =>
      rcases Rewrite.head?_of_condition? rewritten with other | other
      · rw [head] at other
        cases other
      · rw [head] at other
        cases other
  have noSwitch (slot : Word) : Rewrite.switch? text slot = none := by
    rw [← Option.isNone_iff_eq_none, ← Option.not_isSome, Rewrite.isSome_switch?,
      (Directive.noSwitch_of_head? head (by decide)).1]
    rfl
  funext c
  rw [insideLine, differs _ rfl, differs _ rfl, if_neg Bool.false_ne_true,
    if_neg Bool.false_ne_true, noPlatform]
  dsimp only
  rw [noEnd, if_neg Bool.false_ne_true, statement, bind_apply, get_apply]
  dsimp only
  rw [noTest]
  dsimp only
  rw [pure_bind, bind_apply, get_apply]
  dsimp only
  rw [noSwitch]
  dsimp only
  rw [pure_bind, noOperator, Option.getD_none, emitLine, read]

namespace Watches

/-- A line that calls no closing opcode is not the closing keyword. -/
theorem endsSwitch_eq_false {op : Opcode} {text : Text}
    (known : Opcode.lookup? (Call.split ((Rewrite.assignment? text).getD text)).name = some op)
    (other : op ≠ .control .endSwitch) : Directive.endsSwitch text = false := by
  cases ends : Directive.endsSwitch text with
  | false => rfl
  | true =>
    have calls := Region.callsEndSwitch_of_endsSwitch ends
    rw [Region.callsEndSwitch, known, decide_eq_true_eq] at calls
    exact absurd (Option.some.inj calls) other

section

variable {block : Block} {outer : List Block} (h : Watches c (line :: rest) os)
  (innermost : c.body.blocks = block :: outer) (agrees : c.Agrees c' block.slot)
  (size : c'.program.jumpTable.size = c.program.jumpTable.size)
include h innermost agrees size

/-- A line that leaves the innermost block open and is no keyword of a switch. -/
theorem stays (blocks : c'.body.blocks = c.body.blocks)
    (range : block.kind = .switchBlock → c'.labelRange block.slot = c.labelRange block.slot)
    (other : Directive.startsSwitch line.text = false ∧ Directive.endsSwitch line.text = false) :
    Watched c' rest 0 c'.program.jumpTable.size c'.body.blocks (c.openings c' line rest os) := by
  have passed := h.stack.passes other
  rw [innermost] at passed
  rw [openings_of_eq (by rw [switchDepth, switchDepth, blocks]), size, blocks, innermost]
  exact passed.changed agrees range

/-- A line that closes the innermost block, and is the keyword for it if that is a switch. -/
theorem leaves (blocks : c'.body.blocks = outer)
    (noStart : Directive.startsSwitch line.text = false)
    (ends : Directive.endsSwitch line.text = decide (block.kind = .switchBlock)) :
    Watched c' rest 0 c'.program.jumpTable.size c'.body.blocks (c.openings c' line rest os) := by
  have depth := switchDepth_cons innermost
  have depth' : c'.switchDepth = outer.countP (·.kind = .switchBlock) := by
    rw [switchDepth, blocks]
  have stack := h.stack
  rw [innermost] at stack
  rw [size, blocks]
  by_cases kind : block.kind = .switchBlock
  · rw [decide_eq_true kind] at ends
    rw [if_pos kind] at depth
    obtain ⟨around, below⟩ := stack.around_switch kind
    rw [openings_of_pred (by omega)]
    exact ((around.ends noStart ends).agrees agrees).mono below
  · rw [decide_eq_false kind] at ends
    rw [if_neg kind] at depth
    obtain ⟨around, below⟩ := stack.around kind
    rw [openings_of_eq (by omega)]
    exact ((around.passes ⟨noStart, ends⟩).agrees agrees).mono below

end

/-- **An instruction that closes or divides** the innermost block, and is the keyword for it if it
closes a switch. -/
theorem governed {op : Opcode} {block : Block} {outer : List Block} {words : List Word}
    (h : Watches c (line :: rest) os) (innermost : c.body.blocks = block :: outer)
    (governs : governedBlock op = some block.kind)
    (noStart : Directive.startsSwitch line.text = false)
    (ends : Directive.endsSwitch line.text = decide (op = .control .endSwitch))
    (behind : c' = (c.addCode words).bound block op) :
    Watched c' rest 0 c'.program.jumpTable.size c'.body.blocks (c.openings c' line rest os) := by
  have agrees := (agrees_addCode c words block.slot).trans (agrees_bound (c.addCode words) block op)
  have size := size_bound (c.addCode words) block op
  rw [← behind] at agrees size
  have blocks (closer : op = .control .endIf ∨ op = .control .loop ∨ op = .control .endSwitch) :
      c'.body.blocks = outer := by
    rw [behind, BodyTyped.body_bound block closer]
    exact (congrArg List.tail innermost).trans List.tail_cons
  -- An `else` and a `break` leave the block open, the other keywords close it.
  unfold governedBlock at governs
  split at governs
  · refine h.stays innermost agrees size (congrArg (·.body.blocks) behind) ?_ ⟨noStart, ends⟩
    intro kind
    rw [kind] at governs
    cases governs
  · refine h.leaves innermost agrees size (blocks (.inl rfl)) noStart ?_
    rw [ends, ← Option.some.inj governs]
    rfl
  · refine h.leaves innermost agrees size (blocks (.inr (.inl rfl))) noStart ?_
    rw [ends, ← Option.some.inj governs]
    rfl
  · refine h.stays innermost agrees size (congrArg (·.body.blocks) behind) ?_ ⟨noStart, ends⟩
    rw [behind]
    exact fun _ => rfl
  · refine h.leaves innermost agrees size (blocks (.inr (.inr rfl))) noStart ?_
    rw [ends, ← Option.some.inj governs]
    rfl
  · cases governs

/-- **A call** that is the bare keyword if it closes a switch. -/
theorem called (h : Watches c (line :: rest) os)
    (noStart : Directive.startsSwitch line.text = false)
    (bare : Region.callsEndSwitch line.text = true → Directive.endsSwitch line.text = true)
    (called : Called c ((Rewrite.assignment? line.text).getD line.text) c') :
    Watched c' rest 0 c'.program.jumpTable.size c'.body.blocks (c.openings c' line rest os) := by
  cases called with
  | @plain op arguments known meant arity free =>
    have other : op ≠ .control .endSwitch := by
      rintro rfl
      cases free
    have passed := h.stack.passes ⟨noStart, endsSwitch_eq_false known other⟩
    have same : (c.addCode (Instruction.encode op arguments)).switchDepth = c.switchDepth := rfl
    rw [openings_of_eq same]
    exact passed.agrees (agrees_addCode ..)
  | @block op kind block outer known operands governs same innermost =>
    subst same
    refine h.governed innermost governs noStart ?_ rfl
    by_cases closes : op = .control .endSwitch
    · rw [decide_eq_true closes]
      apply bare
      rw [Region.callsEndSwitch, known, closes]
      rfl
    · rw [decide_eq_false closes]
      exact endsSwitch_eq_false known closes

/-- **A label** of the innermost switch. -/
theorem labelled (h : Watches c (line :: rest) os)
    (labelled : Labelled c ((Rewrite.assignment? line.text).getD line.text) c') :
    Watched c' rest 0 c'.program.jumpTable.size c'.body.blocks (c.openings c' line rest os) := by
  cases labelled with
  | case read innermost kind known least most =>
    obtain ⟨-, head, -⟩ := exists_of_caseLabel? read
    refine h.stays innermost (agrees_setSlot (by omega) _) (size_setSlot ..) rfl (fun _ => ?_)
      (Directive.noSwitch_of_head? head (by decide))
    exact Agrees.labelRange (agrees_setSlot (by omega) _) (Nat.le_refl _)
  | @default block outer other read innermost kind =>
    have header : c.Agrees ((c.setSlot (block.slot + 2) c.here).filled block.slot c.here)
        (block.slot + 2) :=
      (agrees_setSlot (Nat.le_refl _) _).trans (agrees_filled (by omega) _)
    refine h.stays innermost (header.mono (by omega)) ((size_filled ..).trans (size_setSlot ..)) rfl
      (fun _ => header.labelRange (Nat.le_refl _)) ?_
    exact Directive.noSwitch_of_head? (head?_of_isDefault read) (by decide)

/-- **A line** that opens no switch. -/
theorem stated (h : Watches c (line :: rest) os)
    (bare : Region.callsEndSwitch line.text = true → Directive.endsSwitch line.text = true)
    (stated : Stated c line.text none c') :
    Watched c' rest 0 c'.program.jumpTable.size c'.body.blocks (c.openings c' line rest os) := by
  cases stated with
  | @test condition comparison arguments rewritten =>
    have other : conditionBlock condition.keyword ≠ .switchBlock := by
      cases condition.keyword <;> decide
    have two : (c.conditionWords condition.keyword).length = 2 := by
      cases condition.keyword <;> rfl
    have passed := h.stack.passes (Rewrite.noSwitch_of_condition? rewritten)
    have depth := @switchDepth_cons ((c.opened (conditionBlock condition.keyword)
      (c.conditionWords condition.keyword)).addCode (Instruction.encode
        (condition.keyword.opcode comparison) arguments)) _ _ rfl
    rw [if_neg other] at depth
    rw [openings_of_eq depth]
    refine .plain other ?_ (passed.agrees ((agrees_opened ..).trans (agrees_addCode ..)))
    have size := size_addJumps c (c.conditionWords condition.keyword)
    rw [two] at size
    exact Nat.le_of_eq size.symm
  | label noTest noSwitch labelled => exact h.labelled labelled
  | call noTest noSwitch noCase noDefault called =>
    exact h.called (startsSwitch_eq_false noSwitch) bare called

/-- **A line** that opens a switch. -/
theorem primed {header n : Nat} {behind : Compiler} (h : Watches c (line :: rest) os)
    (stated : Stated c line.text (some header) c')
    (closed : (Priming.scan c.aliases rest 0 line.number LabelRange.start).ending = .closed n)
    (primed : behind =
      c'.primed header (Priming.scan c.aliases rest 0 line.number LabelRange.start).range) :
    Watched behind rest 0 behind.program.jumpTable.size behind.body.blocks
      (c.openings behind line rest os) := by
  cases stated with
  | @switch opened arguments noTest rewritten known meant arity room =>
    have starts : Directive.startsSwitch line.text = true := by
      rw [← Rewrite.isSome_switch? line.text c.nextSlot, rewritten]
      rfl
    obtain ⟨agrees, range⟩ := agrees_primed c (Instruction.encode (.control .switch) arguments)
      (Priming.scan c.aliases rest 0 line.number LabelRange.start).range
    have size := size_primed (c.openedSwitch.addCode (Instruction.encode (.control .switch) arguments))
      c.program.jumpTable.size (Priming.scan c.aliases rest 0 line.number LabelRange.start).range
    have four : c.program.jumpTable.size + 4 ≤
        (c.openedSwitch.addCode (Instruction.encode (.control .switch) arguments)).program.jumpTable.size :=
      Nat.le_of_eq (size_addJumps c [LabelRange.start.min, LabelRange.start.max, -1, 0]).symm
    rw [← primed] at agrees range size
    have blocks : behind.body.blocks =
        ⟨.switchBlock, c.program.jumpTable.size⟩ :: c.body.blocks := by
      rw [primed, body_primed]
      rfl
    rw [openings_of_succ (by rw [switchDepth_cons blocks, if_pos rfl]; rfl), blocks]
    refine .switch rfl (by dsimp only; omega) (agrees.aliases ▸ closed) ?_ ?_
      ((h.stack.starts starts).agrees agrees)
    · rw [agrees.aliases]
      exact range
    · exact Opening.reaches _ _

/-- Where no block is open no switch is. -/
theorem empty (h : Watches c lines os) (blocks : c.body.blocks = []) (behind : c'.body.blocks = [])
    (mode : c'.mode ≠ .skipping) : Watches c' rest (c.openings c' line rest os) := by
  have stack := h.stack
  rw [blocks] at stack
  cases stack
  have depth : c'.switchDepth = c.switchDepth := by rw [switchDepth, switchDepth, blocks, behind]
  refine ⟨mode, fun _ => behind, ?_⟩
  rw [openings_of_eq depth, behind]
  exact .nil

/-- **A line outside bodies** opens at most a body, which has no block yet. -/
theorem outside {type : Nat} {text : Text} (h : Watches c lines os) (mode : c.mode = .outside)
    (outside : Outside c type text c') : Watches c' rest (c.openings c' line rest os) := by
  have blocks := h.bare mode
  cases outside with
  | named => exact h.empty blocks blocks h.mode
  | sub => exact h.empty blocks rfl nofun
  | declare _ _ _ known =>
    rcases known with rfl | rfl
    · exact h.empty blocks blocks h.mode
    · exact h.empty blocks blocks h.mode
  | define => exact h.empty blocks rfl nofun
  | none => exact h.empty blocks blocks h.mode

/-- **A line of a body** that opens no switch. -/
theorem inside (h : Watches c (line :: rest) os) (mode : c.mode = .inside)
    (noPlatform : Directive.platform? line.text = none)
    (bare : Region.callsEndSwitch line.text = true → Directive.endsSwitch line.text = true)
    (inside : Inside c line.text none c') : Watches c' rest (c.openings c' line rest os) := by
  cases inside with
  | closes blocks => exact h.empty blocks blocks nofun
  | platform noKeyword read =>
    rw [noPlatform] at read
    cases read
  | endsPlatform noKeyword noPlatform read =>
    have head := @Text.head?_of_isPrefixOf _ _ '#' rfl read
    have same : c.openings c line rest os = os := openings_of_eq rfl
    rw [same]
    exact ⟨h.mode, h.bare, h.stack.passes (Directive.noSwitch_of_head? head (by decide))⟩
  | other noKeyword noPlatform noEnd stated =>
    have opened : c'.mode = .inside := stated.mode_eq.trans mode
    exact ⟨by rw [opened]; decide, by rw [opened]; exact nofun, h.stated bare stated⟩

/-- **A line of a body** that opens a switch. -/
theorem inside_primed {header : Nat} {behind : Compiler} (h : Watches c (line :: rest) os)
    (mode : c.mode = .inside) (inside : Inside c line.text (some header) c')
    (primed : prime header line.number rest c' = (.ok (), behind)) :
    Watches behind rest (c.openings behind line rest os) := by
  cases inside with
  | other noKeyword noPlatform noEnd stated =>
    obtain ⟨⟨n, closed⟩, looked, -⟩ := prime_eq_ok primed
    have aliases : c'.aliases = c.aliases := by cases stated; rfl
    rw [aliases] at closed looked
    have opened : behind.mode = .inside := by
      rw [looked, mode_primed]
      exact stated.mode_eq.trans mode
    exact ⟨by rw [opened]; decide, by rw [opened]; exact nofun, h.primed stated closed looked⟩

/-- **A line that compiles** is read alike by both readings. -/
theorem compileLine {type : Nat} (h : Watches c (line :: rest) os)
    (noPlatform : Directive.platform? line.text = none)
    (bare : Region.callsEndSwitch line.text = true → Directive.endsSwitch line.text = true)
    (compiled : Compiler.compileLine type line rest c = (.ok (), c')) :
    Watches c' rest (c.openings c' line rest os) := by
  rw [Compiler.compileLine, bind_apply, get_apply] at compiled
  dsimp only at compiled
  cases mode : c.mode with
  | skipping => exact absurd mode h.mode
  | outside =>
    rw [mode] at compiled
    exact h.outside mode (outside_of_outsideLine (onLine_eq_ok compiled))
  | inside =>
    rw [mode] at compiled
    obtain ⟨header?, c₁, first, others⟩ := exists_of_bind_eq_ok compiled
    obtain ⟨inside, -⟩ := inside_of_insideLine (onLine_eq_ok first)
    cases header? with
    | none =>
      obtain ⟨-, rfl⟩ := Prod.mk.inj others
      exact h.inside mode noPlatform bare inside
    | some header => exact h.inside_primed mode inside others

/-! ## Labels -/

/-- **A `case` line that is bound** counts for the innermost switch, and its value is in the range for
which the switch has slots. -/
theorem exists_value {block : Block} {outer : List Block} {label : Text}
    (h : Watches c (line :: rest) os) (innermost : c.body.blocks = block :: outer)
    (kind : block.kind = .switchBlock)
    (read : Directive.caseLabel? ((Rewrite.assignment? line.text).getD line.text) = some label) :
    ∃ o, os.head? = some o ∧ line ∈ o.counted ∧
      ∃ value, labelValue c.aliases label = .ok value ∧
        (c.labelRange block.slot).min ≤ value ∧ value ≤ (c.labelRange block.slot).max := by
  obtain ⟨-, head, read⟩ := exists_of_caseLabel? read
  obtain ⟨noStart, noEnd⟩ := Directive.noSwitch_of_head? head (by decide)
  have stack := h.stack
  rw [innermost] at stack
  cases stack with
  | plain other => exact absurd kind other
  | @switch _ _ n _ _ o _ _ inside closed range reaches around =>
    have counts := reaches.mem_counted read noStart noEnd
    rw [range]
    exact ⟨o, rfl, counts, Opening.exists_value closed counts read⟩

/-- **No label** is outside the range of its switch. -/
theorem spares_bindCase {label : Text} {reason : CompileReason} (h : Watches c (line :: rest) os)
    (read : Directive.caseLabel? ((Rewrite.assignment? line.text).getD line.text) = some label)
    (failed : bindCase label c = (.error reason, c')) : reason.isOutside = false := by
  rw [bindCase] at failed
  rcases first : innermost .switchBlock "case" c with ⟨reason' | block, c₁⟩
  · rw [bind_apply_of_error first] at failed
    obtain rfl := Except.error.inj (Prod.mk.inj failed).1
    exact CompileReason.isOutside_of_isLayout ((spares_innermost ..).spared first)
  · obtain ⟨rfl, kind, outer, blocks⟩ := innermost_eq_ok first
    obtain ⟨o, -, -, value, known, least, most⟩ := h.exists_value blocks kind read
    rw [bind_apply_of_ok first, bind_apply, get_apply] at failed
    dsimp only at failed
    rw [known, bind_apply, mk_pure_apply] at failed
    dsimp only at failed
    rw [Int32.le_iff_toInt_le] at least most
    -- so the slot of the value is one of those of the switch
    rw [if_pos (by
      rw [Bool.and_eq_true, decide_eq_true_eq, decide_eq_true_eq, LabelRange.size]
      omega)] at failed
    cases (Prod.mk.inj failed).1

/-- **No line** is refused for a label outside the range of its switch. -/
theorem spares_compileLine {type : Nat} {p : Problem} (h : Watches c (line :: rest) os)
    (noPlatform : Directive.platform? line.text = none)
    (failed : Compiler.compileLine type line rest c = (.error p, c')) : p.reason.isOutside = false := by
  refine Compiler.spares_compileLine (fun _ => CompileReason.isOutside_of_isLayout) ?_ failed
  intro _ reason c' failed
  cases read : Directive.caseLabel? ((Rewrite.assignment? line.text).getD line.text) with
  | none =>
    have spares : Spares CompileReason.isOutside (insideLine line.text) :=
      spares_insideLine (fun _ => CompileReason.isOutside_of_isLayout)
        (fun _ op => spares_closeBody op) fun label some => by
          rw [read] at some
          cases some
    exact spares.spared failed
  | some label =>
    rw [insideLine_of_caseLabel? noPlatform read] at failed
    rcases first : bindCase label c with ⟨reason' | ⟨⟩, c₁⟩
    · rw [bind_apply_of_error first] at failed
      obtain rfl := Except.error.inj (Prod.mk.inj failed).1
      exact h.spares_bindCase read first
    · rw [bind_apply_of_ok first] at failed
      cases (Prod.mk.inj failed).1

/-- A line that is bound counts for its switch. -/
theorem mem_counted (h : Watches c (line :: rest) os) (binds : c.binds line = true) :
    ∃ o, os.head? = some o ∧ line ∈ o.counted := by
  rw [Compiler.binds, decide_eq_true_eq] at binds
  obtain ⟨-, innermost, label⟩ := binds
  obtain ⟨label, read⟩ := Option.isSome_iff_exists.1 label
  cases blocks : c.body.blocks with
  | nil =>
    rw [blocks] at innermost
    cases innermost
  | cons block outer =>
    rw [blocks, List.head?_cons, Option.any_some, decide_eq_true_eq] at innermost
    obtain ⟨o, first, counts, -⟩ := h.exists_value blocks innermost read
    exact ⟨o, first, counts⟩

/-! ## Files -/

/-- **Lines** are read alike by both readings: those that are bound count, and none is refused for a
label outside the range of its switch. -/
theorem compileLines {type last : Nat} (h : Watches c lines os)
    (noPlatform : ∀ line ∈ lines, Directive.platform? line.text = none)
    (bare : ∀ line ∈ lines, Region.callsEndSwitch line.text = true →
      Directive.endsSwitch line.text = true) :
    (∀ b ∈ caseBindings type c os lines, ∃ o, b.switch? = some o ∧ b.line ∈ o.counted) ∧
      ∀ {p c'}, Compiler.compileLines type last lines c = (.error p, c') → p.reason.isOutside = false := by
  induction lines generalizing c os last with
  | nil =>
    refine ⟨List.forall_mem_nil _, fun failed => ?_⟩
    exact CompileReason.isOutside_of_isLayout ((spares_compileLines_nil type last).spared failed)
  | cons line rest ih =>
    obtain ⟨noPlatform, noPlatforms⟩ := List.forall_mem_cons.1 noPlatform
    obtain ⟨bare, bares⟩ := List.forall_mem_cons.1 bare
    rw [caseBindings, Compiler.compileLines]
    by_cases blank : line.text = []
    · have passes : Watches c rest os :=
        ⟨h.mode, h.bare, h.stack.passes (by rw [blank]; exact ⟨rfl, rfl⟩)⟩
      rw [if_pos blank, if_neg (not_not_intro blank)]
      exact ih passes noPlatforms bares
    · have first : ∀ b ∈ if c.binds line then [CaseBinding.mk os.head? line] else [],
          ∃ o, b.switch? = some o ∧ b.line ∈ o.counted := by
        split
        · next binds => exact List.forall_mem_singleton.2 (h.mem_counted binds)
        · exact List.forall_mem_nil _
      rw [if_neg blank, if_pos blank]
      rcases answer : Compiler.compileLine type line rest c with ⟨p | ⟨⟩, c₁⟩
      · refine ⟨List.forall_mem_append.2 ⟨first, List.forall_mem_nil _⟩, fun failed => ?_⟩
        rw [bind_apply_of_error answer] at failed
        obtain rfl := Except.error.inj (Prod.mk.inj failed).1
        exact h.spares_compileLine noPlatform answer
      · obtain ⟨others, spares⟩ :=
          @ih c₁ _ line.number (h.compileLine noPlatform bare answer) noPlatforms bares
        refine ⟨List.forall_mem_append.2 ⟨first, others⟩, fun failed => ?_⟩
        rw [bind_apply_of_ok answer] at failed
        exact spares failed

end Watches

theorem watches_startFile (c : Compiler) (lines : List Line) : Watches c.startFile lines [] :=
  ⟨nofun, fun _ => rfl, .nil⟩

/-- **Both readings of a switch agree** in a source in which nothing is left out for a platform and only
the bare keyword closes a switch. Every `case` line that is bound is among the lines that were counted
for its switch when its labels were looked up, however deep it is nested. So no file is refused for a
label outside the range of its switch. -/
theorem compileFile_counts_labels (path : String) (source : Text) (type : Nat) (c : Compiler)
    (noPlatform : ∀ line ∈ Line.ofSource source, Directive.platform? line.text = none)
    (bare : ∀ line ∈ Line.ofSource source, Region.callsEndSwitch line.text = true →
      Directive.endsSwitch line.text = true) :
    (∀ b ∈ c.fileBindings source type, ∃ o, b.switch? = some o ∧ b.line ∈ o.counted) ∧
      ∀ e c', compileFile path source type c = (.error e, c') →
        ∀ value min max, e.reason ≠ .caseOutOfRange value min max := by
  obtain ⟨counts, spares⟩ := @Watches.compileLines c.startFile _ _ type 0
    (watches_startFile c (Line.ofSource source)) noPlatform bare
  refine ⟨counts, fun e c' failed value min max same => ?_⟩
  obtain rfl | ⟨p, lines, rfl⟩ := exists_of_compileFile_eq_error failed
  · cases same
  · have reason : p.reason = .caseOutOfRange value min max := same
    have spared := spares lines
    rw [reason] at spared
    cases spared

/-- A script with a switch in another one, whose closing keyword is written in capitals. -/
def nested : Text :=
  ("subObjectMain\nswitchTempValue0\nswitchTempValue1\ncase7:\nENDSWITCH\ncase3:\nendswitch\n" ++
    "endsub").toList

theorem compileFile_counts_labels_nested :
    (freshCompiler.fileBindings nested 1).map (fun b => (b.switch?.map (·.line.number), b.line.number)) =
        [(some 3, 4), (some 2, 6)] ∧
      ∀ b ∈ freshCompiler.fileBindings nested 1, ∃ o, b.switch? = some o ∧ b.line ∈ o.counted :=
  ⟨by decide +kernel,
    (compileFile_counts_labels "" nested 1 freshCompiler (by decide +kernel) (by decide +kernel)).1⟩

/-- A script in which a switch is closed by a call of its keyword. -/
def closedByCall : Text :=
  ("subObjectMain\nswitchTempValue0\nswitchTempValue1\nendswitch()\ncase5:\nendswitch\nendsub\n" ++
    "endswitch").toList

/-- **A call of the closing keyword** closes a switch where its lines are compiled, but not where they
are searched for labels. -/
theorem not_all_counted :
    ¬ ∀ (path : String) (source : Text) (type : Nat) (c : Compiler),
      (∀ line ∈ Line.ofSource source, Directive.platform? line.text = none) →
        (∀ b ∈ c.fileBindings source type, ∃ o, b.switch? = some o ∧ b.line ∈ o.counted) ∧
          ∀ e c', compileFile path source type c = (.error e, c') →
            ∀ value min max, e.reason ≠ .caseOutOfRange value min max := by
  intro claim
  obtain ⟨-, spares⟩ := claim "" closedByCall 1 freshCompiler (by decide +kernel)
  have refused : (match (compileFile "" closedByCall 1 freshCompiler).1 with
      | .error e => decide (e.reason = .caseOutOfRange 5 0 0)
      | .ok _ => false) = true := by decide +kernel
  rcases answer : compileFile "" closedByCall 1 freshCompiler with ⟨e | ⟨⟩, c'⟩
  · rw [answer] at refused
    exact spares e c' answer 5 0 0 (of_decide_eq_true refused)
  · rw [answer] at refused
    cases refused

end StageScript
