import StageScript.Proofs.Compiler.Closure
import StageScript.Proofs.Machine.Safety

/-! # Where a switch goes on
The lines that divide a switch decide where it goes on for a value, and the slots of the switch say so.
* **`BlockRecord.destination`** — what the lines decide;
* **`BodyRecord.Stands.jump_switch`** — the slots of a switch lead there;
* **`switch_dispatches`** — and so does a step of the machine at the switch. -/

namespace StageScript

open Stepwise Compiler

/-! ## Lines that divide a switch -/

/-- The offset behind the last `case` of a value. -/
def lastCase? (value : Word) (marks : List Mark) : Option Nat :=
  (marks.find? (·.value = some value)).map (·.offset)

/-- The offset behind the first line that names no value. -/
def firstElse? (marks : List Mark) : Option Nat := elseOffset? marks.reverse

/-- **Where a switch goes on for a value**: behind the last `case` of the value. Without one it goes on
behind a `default`, which is the first one if the value is between the labels and the last one if it
is not. Without any `default` it goes on at its own end. -/
def BlockRecord.destination (b : BlockRecord) (value : Word) : Option Nat :=
  (lastCase? value b.marks).or
    ((if b.range.min ≤ value ∧ value ≤ b.range.max then firstElse? b.marks
      else elseOffset? b.marks).or b.closing)

theorem firstElse?_cons (m : Mark) (earlier : List Mark) :
    firstElse? (m :: earlier) = (firstElse? earlier).or (elseOffset? [m]) := by
  rw [firstElse?, elseOffset?, List.reverse_cons, List.find?_append]
  cases found : earlier.reverse.find? (·.value.isNone) with
  | none => rw [firstElse?, elseOffset?, found]; rfl
  | some m' => rw [firstElse?, elseOffset?, found]; rfl

/-- The slot of a value is taken by the last `case` of the value, or else by the first `default`. -/
theorem caseOffset?_eq (value : Word) (marks : List Mark) :
    caseOffset? value.toInt marks = (lastCase? value marks).or (firstElse? marks) := by
  induction marks with
  | nil => rfl
  | cons m earlier ih =>
    obtain ⟨_ | w, offset⟩ := m
    · rw [caseOffset?, ih, firstElse?_cons, Option.or_assoc]
      rfl
    · rw [caseOffset?, firstElse?_cons, lastCase?, List.find?_cons]
      by_cases same : w = value
      · subst same
        simp
      · have other : w.toInt ≠ value.toInt := fun eq => same (Int32.toInt_inj.1 eq)
        rw [if_neg other, ih]
        simp [same, elseOffset?, lastCase?]

theorem elseOffset?_eq_none {marks : List Mark} (all : marks.countP (·.value.isNone) = 0) :
    elseOffset? marks = none := by
  rw [elseOffset?, Option.map_eq_none_iff, List.find?_eq_none]
  exact List.countP_eq_zero.1 all

/-- Where at most one `default` divides a switch, it is the first and the last one. -/
theorem firstElse?_eq {marks : List Mark} (one : marks.countP (·.value.isNone) ≤ 1) :
    firstElse? marks = elseOffset? marks := by
  induction marks with
  | nil => rfl
  | cons m earlier ih =>
    obtain ⟨_ | w, offset⟩ := m
    · have rest : earlier.countP (·.value.isNone) = 0 := by
        rw [List.countP_cons] at one
        simpa using one
      rw [firstElse?_cons, firstElse?, elseOffset?_eq_none (by rwa [List.countP_reverse])]
      rfl
    · rw [List.countP_cons] at one
      rw [firstElse?_cons, ih (by simpa using one)]
      exact Option.or_none

/-! ## Slots of a switch -/

theorem Jump.target_of_getElem? {p : Program} {here : Position} {slot k offset : Nat}
    (small : slot < jumpCapacity) (inside : offset ≤ codeCapacity)
    (h : p.jumpTable[here.jumpBase + (slot + k)]? = some (Word.ofNat offset)) :
    Jump.target p here (Word.ofNat slot) k = .ok { here with pointer := here.codeBase + offset } := by
  rw [codeCapacity] at inside
  rw [Jump.target, Except.bind_of_eq_ok (Jump.word_of_getElem? small h),
    Word.index?_ofNat (by omega)]
  rfl

theorem eq_of_opens? {op : Opcode} (h : op.opens? = some .switchBlock) : op = .control .switch := by
  unfold Opcode.opens? at h
  split at h <;> first | rfl | cases h

namespace BodyRecord.Stands

variable {r : BodyRecord} {p : Program} {is : List Instruction} {b : BlockRecord}

/-- A slot that is a label's or else leads to the end of its block has a target that fits into a
word. -/
theorem exists_target (h : r.Stands p is) (member : b ∈ r.blocks) {label? : Option Nat}
    (label : ∀ o ∈ label?, ∃ m ∈ b.marks, m.offset = o) :
    ∃ target, label?.or b.closing = some target ∧ target ≤ codeCapacity := by
  have room := h.room
  have within {i : Instruction} (inside : i ∈ is) : i.offset ≤ codeCapacity := by
    have := h.chain.bounds i inside
    omega
  have placed := h.placed b member
  obtain ⟨closing, some⟩ := Option.ne_none_iff_exists'.1 (h.closed b member)
  cases label? with
  | none =>
    obtain ⟨-, ⟨i, inside, at_, -⟩, -⟩ := placed.closing closing some
    have := within inside
    exact ⟨closing, some, by omega⟩
  | some o =>
    obtain ⟨m, mark, rfl⟩ := label o rfl
    obtain ⟨i, inside, at_⟩ := h.exists_of_boundary (placed.marks m mark).2
    have := within inside
    exact ⟨m.offset, rfl, by omega⟩

/-- A value that is not between the labels has no `case`. -/
theorem lastCase?_eq_none (h : b.Ranged) {value : Word}
    (outside : ¬ (b.range.min ≤ value ∧ value ≤ b.range.max)) : lastCase? value b.marks = none := by
  rw [lastCase?, Option.map_eq_none_iff, List.find?_eq_none]
  intro m mark same
  exact outside (h.labels m mark value (of_decide_eq_true same))

/-- **The slots of a switch lead where its lines decide**: one slot those values that are not between
the labels, and one slot each of the others. -/
theorem exists_word (h : r.Stands p is) (member : b ∈ r.blocks) (kind : b.kind = .switchBlock)
    (value : Word) :
    ∃ target k : Nat, b.destination value = some target ∧ target ≤ codeCapacity ∧
      p.jumpTable[r.entry.jump + (b.slot + k)]? = some (Word.ofNat target) ∧
        (k : Int) = if b.range.min ≤ value ∧ value ≤ b.range.max then
          4 + (value.toInt - b.range.min.toInt) else 2 := by
  have ranged := h.ranged b member
  have size : b.size = 4 + b.range.size := by rw [BlockRecord.size, kind]
  by_cases inside : b.range.min ≤ value ∧ value ≤ b.range.max
  · obtain ⟨target, found, small⟩ := @exists_target _ _ _ _ h member
      (caseOffset? value.toInt b.marks) fun o => exists_mark_of_caseOffset?
    -- Between the labels there is a slot for every value, told by its distance from the least one.
    have order := inside
    rw [Int32.le_iff_toInt_le, Int32.le_iff_toInt_le] at order
    obtain ⟨k, place⟩ : ∃ k : Nat, value.toInt = b.range.min.toInt + k :=
      ⟨(value.toInt - b.range.min.toInt).toNat, by omega⟩
    have own : k < b.range.size := by
      rw [LabelRange.size]
      omega
    refine ⟨target, 4 + k, ?_, small, ?_, ?_⟩
    · rw [BlockRecord.destination, if_pos inside, ← Option.or_assoc, ← caseOffset?_eq, found]
    · rw [h.word member (by omega), BlockRecord.words_switch kind, Nat.add_comm 4 k]
      show b.caseWords[k]? = _
      rw [BlockRecord.caseWords, List.getElem?_map, List.getElem?_range own, Option.map_some,
        BlockRecord.case?, ← place, found]
      rfl
    · rw [if_pos inside]
      omega
  · obtain ⟨target, found, small⟩ := @exists_target _ _ _ _ h member (elseOffset? b.marks)
      fun o => exists_mark_of_elseOffset?
    refine ⟨target, 2, ?_, small, ?_, ?_⟩
    · rw [BlockRecord.destination, lastCase?_eq_none ranged inside, if_neg inside]
      exact found
    · rw [h.word member (by omega), BlockRecord.words_switch kind, BlockRecord.fallback?, found]
      rfl
    · rw [if_neg inside]
      rfl

/-- **The machine enters a switch** and goes on where its lines decide. -/
theorem performSwitch_apply (h : r.Stands p is) (member : b ∈ r.blocks)
    (kind : b.kind = .switchBlock) (pointer : Nat) {m : Machine}
    (slot : m.registers.operands[0] = Word.ofNat b.slot)
    (room : m.branches.length < branchDepthLimit) :
    ∃ target, b.destination m.registers.operands[1] = some target ∧
      Control.performSwitch p ⟨pointer, r.entry.code, r.entry.jump⟩ m =
        (.ok ⟨r.entry.code + target, r.entry.code, r.entry.jump⟩,
          { m with branches := Word.ofNat b.slot :: m.branches }) := by
  have near := (h.ranged b member).near
  have words := BlockRecord.words_switch kind
  have size : b.size = 4 + b.range.size := by rw [BlockRecord.size, kind]
  have least : Jump.word p ⟨pointer, r.entry.code, r.entry.jump⟩ (Word.ofNat b.slot) 0 =
      .ok b.range.min :=
    @Jump.word_of_getElem? p _ b.slot 0 _ near
      ((h.word member (by omega)).trans (by rw [words]; rfl))
  have most : Jump.word p ⟨pointer, r.entry.code, r.entry.jump⟩ (Word.ofNat b.slot) 1 =
      .ok b.range.max :=
    @Jump.word_of_getElem? p _ b.slot 1 _ near
      ((h.word member (by omega)).trans (by rw [words]; rfl))
  obtain ⟨target, k, destination, small, word, place⟩ :=
    h.exists_word member kind m.registers.operands[1]
  refine ⟨target, destination, ?_⟩
  have jumped := @Jump.target_of_getElem? p ⟨pointer, r.entry.code, r.entry.jump⟩ b.slot k target near
    small word
  rw [Control.performSwitch, bind_apply, operands_apply]
  dsimp only
  rw [bind_apply, pushBranch_apply, slot, if_pos room]
  dsimp only
  rw [bind_apply, mk_pure_apply, least]
  dsimp only
  rw [bind_apply, mk_pure_apply, most]
  dsimp only
  generalize m.registers.operands[1] = value at place
  -- the machine asks whether the value is outside of the range, its record whether it is inside
  have asks : (decide (value < b.range.min) || decide (b.range.max < value)) = true ↔
      ¬ (b.range.min ≤ value ∧ value ≤ b.range.max) := by
    simp only [Bool.or_eq_true, decide_eq_true_eq, Int32.lt_iff_toInt_lt, Int32.le_iff_toInt_le]
    omega
  by_cases inside : b.range.min ≤ value ∧ value ≤ b.range.max
  · rw [if_pos inside] at place
    rw [if_neg (fun outside => asks.1 outside inside), jump_apply, ← place, jumped]
  · rw [if_neg inside] at place
    rw [if_pos (asks.2 inside), jump_apply, show (2 : Int) = k from place.symm, jumped]

/-- **A step at a switch** goes on where its lines decide. -/
theorem step_switch (h : r.Stands p is) (member : b ∈ r.blocks) (kind : b.kind = .switchBlock)
    (plain : b.plain = true) :
    ∃ i ∈ is, i.offset = r.entry.code + b.opened ∧ i.opcode = .control .switch ∧
      ∀ (activation : Activation) (m m' : Machine) (f : Fetched),
        fetch p.code activation.object i.offset m = (.ok f, m') →
          m'.branches.length < branchDepthLimit →
            ∃ target, b.destination m'.registers.operands[1] = some target ∧
              step p activation ⟨i.offset, r.entry.code, r.entry.jump⟩ m =
                (.ok (some ⟨r.entry.code + target, r.entry.code, r.entry.jump⟩),
                  { m' with branches := Word.ofNat b.slot :: m'.branches }) := by
  obtain ⟨i, inside, at_, opens, named⟩ := (h.placed b member).opening
  obtain ⟨more, arguments⟩ := named plain
  have opcode : i.opcode = .control .switch := by
    rw [kind] at opens
    exact eq_of_opens? opens
  refine ⟨i, inside, at_, opcode, fun activation m m' f fetched room => ?_⟩
  obtain ⟨next, decoded⟩ := h.chain.exists_decode inside
  obtain ⟨same, -, loaded⟩ := exists_of_fetch decoded fetched
  have many := Instruction.length_le_of_decode decoded
  rw [arguments] at loaded many
  have slot := operand_zero (Nat.le_of_succ_le_succ many) loaded
  obtain ⟨target, destination, entered⟩ := h.performSwitch_apply member kind f.next slot room
  refine ⟨target, destination, ?_⟩
  rw [step, bind_apply_of_ok fetched, same, opcode]
  have performed : Opcode.perform p activation ⟨f.next, r.entry.code, r.entry.jump⟩
      (.control .switch) m' = _ :=
    (map_apply some (Control.performSwitch p ⟨f.next, r.entry.code, r.entry.jump⟩) m').trans
      (by rw [entered])
  exact bind_apply_of_ok performed

end BodyRecord.Stands

/-! ## Switches of files -/

/-- **Switches go on where their lines decide.** In a file that compiles, a switch whose slots no name
takes the place of goes on behind the last `case` of a value. A value without a `case` goes on behind
the first `default` if it is between the labels and behind the last `default` if it is not, so all of
them go on at one place if there is at most one `default`. Without any they go on at the instruction
that closes the switch. -/
theorem switch_dispatches {path : String} {source : Text} {type : Nat} {c c' : Compiler}
    (compiled : compileFile path source type c = (.ok (), c')) {r : BodyRecord}
    (member : r ∈ c.fileBodies source type) {b : BlockRecord} (inside : b ∈ r.blocks)
    (kind : b.kind = .switchBlock) (plain : b.plain = true) :
    ∃ is, r.Resolved c'.program is ∧
      (∃ e ∈ is, e.opcode = .control .endSwitch ∧ b.closing = some (e.offset - r.entry.code)) ∧
      (∃ i ∈ is, i.offset = r.entry.code + b.opened ∧ i.opcode = .control .switch ∧
        ∀ (activation : Activation) (m m' : Machine) (f : Fetched),
          fetch c'.program.code activation.object i.offset m = (.ok f, m') →
            m'.branches.length < branchDepthLimit →
              ∃ target, b.destination m'.registers.operands[1] = some target ∧
                step c'.program activation ⟨i.offset, r.entry.code, r.entry.jump⟩ m =
                  (.ok (some ⟨r.entry.code + target, r.entry.code, r.entry.jump⟩),
                    { m' with branches := Word.ofNat b.slot :: m'.branches })) ∧
      (b.marks.countP (·.value.isNone) ≤ 1 → ∀ value, lastCase? value b.marks = none →
        b.destination value = (elseOffset? b.marks).or b.closing) := by
  obtain ⟨-, stand⟩ := stands_of_compileFile compiled
  obtain ⟨is, stands⟩ := stand r member
  refine ⟨is, stands.resolved, ?_, stands.step_switch inside kind plain, fun one value other => ?_⟩
  · obtain ⟨closing, some⟩ := Option.ne_none_iff_exists'.1 (stands.closed b inside)
    obtain ⟨-, ⟨e, at_, offset, closer⟩, -⟩ := (stands.placed b inside).closing closing some
    rw [kind] at closer
    exact ⟨e, at_, closer, some.trans (by rw [offset, Nat.add_sub_cancel_left])⟩
  · rw [BlockRecord.destination, other, firstElse?_eq one, ite_self]
    rfl

/-- A script with a switch that two lines divide without naming a value. -/
def divided : Text :=
  "subObjectMain\nswitchTempValue0\ncase1:\ncase3:\ndefault:\nbreak\ndefault:\nendswitch\nendsub".toList

/-- The switch of the script. -/
def dividedSwitch : BlockRecord where
  kind := .switchBlock
  slot := 0
  opened := 0
  plain := true
  range := ⟨1, 3⟩
  marks := [⟨none, 7⟩, ⟨none, 6⟩, ⟨some 3, 6⟩, ⟨some 1, 6⟩]
  closing := some 7

/-- What the script compiles to. -/
def dividedProgram : Program := (compileFile "" divided 1 freshCompiler).2.program

/-- A machine with a value in the first of the scratch registers. -/
def holding (value : Word) : Machine where
  random := .ofSeed 1
  registers := { tempValues := (Vector.replicate 8 0).set 0 value }

/-- What comes of the script, and of steps at its switch. -/
theorem divided_eq :
    (compileFile "" divided 1 freshCompiler).1.toOption = some () ∧
    freshCompiler.fileBodies divided 1 = [⟨⟨0, 0⟩, ⟨9, 7⟩, .control .stop, [dividedSwitch]⟩] ∧
    (fetch dividedProgram.code 0 0 (holding 2)).1.toOption = some ⟨.control .switch, 1, 6⟩ ∧
    (fetch dividedProgram.code 0 0 (holding 2)).2.branches = [] ∧
    (step dividedProgram ⟨0, .main⟩ ⟨0, 0, 0⟩ (holding 2)).1.toOption = some (some ⟨6, 0, 0⟩) ∧
    (step dividedProgram ⟨0, .main⟩ ⟨0, 0, 0⟩ (holding 5)).1.toOption = some (some ⟨7, 0, 0⟩) ∧
    (step dividedProgram ⟨0, .main⟩ ⟨0, 0, 0⟩ (holding 2)).2.registers.operands[1] = 2 ∧
    (step dividedProgram ⟨0, .main⟩ ⟨0, 0, 0⟩ (holding 5)).2.registers.operands[1] = 5 := by
  decide +kernel

theorem exists_compiled_divided :
    ∃ c', compileFile "" divided 1 freshCompiler = (.ok (), c') ∧ c'.program = dividedProgram ∧
      ⟨⟨0, 0⟩, ⟨9, 7⟩, .control .stop, [dividedSwitch]⟩ ∈ freshCompiler.fileBodies divided 1 := by
  obtain ⟨c', compiled⟩ : ∃ c', compileFile "" divided 1 freshCompiler = (.ok (), c') :=
    ⟨_, Except.eq_of_toOption divided_eq.1⟩
  refine ⟨c', compiled, by rw [dividedProgram, compiled], ?_⟩
  rw [divided_eq.2.1]
  exact List.mem_cons_self

theorem switch_dispatches_divided : ∃ (m : Machine) (target : Nat),
    dividedSwitch.destination m.registers.operands[1] = some target ∧
      step dividedProgram ⟨0, .main⟩ ⟨0, 0, 0⟩ (holding 2) =
        (.ok (some ⟨0 + target, 0, 0⟩), { m with branches := 0 :: m.branches }) := by
  obtain ⟨c', compiled, program, member⟩ := exists_compiled_divided
  obtain ⟨-, -, fetched, branches, -⟩ := divided_eq
  obtain ⟨-, -, -, ⟨i, -, at_, -, dispatches⟩, -⟩ :=
    switch_dispatches compiled member List.mem_cons_self rfl rfl
  have offset : i.offset = 0 := at_
  have room : (fetch dividedProgram.code 0 0 (holding 2)).2.branches.length < branchDepthLimit := by
    rw [branches]
    decide
  rw [program, offset] at dispatches
  exact ⟨_, dispatches ⟨0, .main⟩ (holding 2) _ _ (Except.eq_of_toOption fetched) room⟩

/-- **Values without a `case` may go on at different places** where more than one `default` divides a
switch. -/
theorem not_all_together :
    ¬ ∀ (path : String) (source : Text) (type : Nat) (c c' : Compiler),
      compileFile path source type c = (.ok (), c') → ∀ r ∈ c.fileBodies source type,
        ∀ b ∈ r.blocks, b.kind = .switchBlock →
          ∀ (activation : Activation) (m₁ m₂ n₁ n₂ : Machine) (next₁ next₂ : Position),
            step c'.program activation ⟨r.entry.code + b.opened, r.entry.code, r.entry.jump⟩ m₁ =
                (.ok (some next₁), n₁) →
            step c'.program activation ⟨r.entry.code + b.opened, r.entry.code, r.entry.jump⟩ m₂ =
                (.ok (some next₂), n₂) →
            lastCase? n₁.registers.operands[1] b.marks = none →
            lastCase? n₂.registers.operands[1] b.marks = none → next₁ = next₂ := by
  intro claim
  obtain ⟨c', compiled, program, member⟩ := exists_compiled_divided
  obtain ⟨-, -, -, -, inside, outside, two, five⟩ := divided_eq
  have together := claim "" divided 1 freshCompiler c' compiled _ member dividedSwitch
    List.mem_cons_self rfl ⟨0, .main⟩ (holding 2) (holding 5)
  rw [program] at together
  have unlabelled : lastCase? 2 dividedSwitch.marks = none ∧ lastCase? 5 dividedSwitch.marks = none := by
    decide
  have same := together _ _ _ _ (Except.eq_of_toOption inside) (Except.eq_of_toOption outside)
    (two.symm ▸ unlabelled.1) (five.symm ▸ unlabelled.2)
  cases congrArg Position.pointer same

end StageScript
