import StageScript.Proofs.Compiler.Line
import StageScript.Proofs.Compiler.Table

/-! # Blocks and their slots
What the lines of a body say about its blocks decides every word of its jump table.
* **`BlockRecord`** — a block of a body: where it was opened, its labels, where it was closed;
* **`BlockRecord.words`** — the words of its slots;
* **`Compiler.toList_bound`**, **`Compiler.toList_case`**, **`Compiler.toList_default`** — what the
  compiler does to these words at a line is what the line says about the block. -/

namespace StageScript

/-- A line that divides a block: an `else`, a `case` or a `default`. -/
structure Mark where
  /-- The value of a `case`. -/
  value : Option Word
  /-- The offset of what stands behind the line, from the beginning of the body. -/
  offset : Nat
  deriving DecidableEq, Repr

/-- What the lines of a body say about one of its blocks. Offsets are counted from the beginning of
the body and slots from its first slot. -/
structure BlockRecord where
  kind : BlockKind
  /-- The first slot of the block. -/
  slot : Nat
  /-- The offset of the instruction that opens the block. -/
  opened : Nat
  /-- Whether no name takes the place of the numeral of the first slot in that instruction. -/
  plain : Bool
  /-- The values for which a switch has slots. -/
  range : LabelRange := ⟨0, 0⟩
  /-- The lines that divide the block, latest first. -/
  marks : List Mark := []
  /-- The offset of the instruction that closes the block, once it is closed. -/
  closing : Option Nat := none
  deriving DecidableEq, Repr

/-! ## Targets -/

/-- The offset behind the latest `case` of a value. A `default` takes the value if no `case` of it is
in front. -/
def caseOffset? (value : Int) : List Mark → Option Nat
  | [] => none
  | ⟨some w, offset⟩ :: earlier =>
    if w.toInt = value then some offset else caseOffset? value earlier
  | ⟨none, offset⟩ :: earlier => (caseOffset? value earlier).or (some offset)

/-- The offset behind the latest line that divides a block without naming a value. -/
def elseOffset? (marks : List Mark) : Option Nat :=
  (marks.find? (·.value.isNone)).map (·.offset)

namespace BlockRecord

/-- The word of a slot whose target may be missing. -/
def targetWord (target : Option Nat) : Word := target.elim (-1) Word.ofNat

/-- Where an `if` goes on whose test fails, and a switch for values without slots. -/
def fallback? (b : BlockRecord) : Option Nat := (elseOffset? b.marks).or b.closing

/-- Where a switch goes on for a value that has a slot. -/
def case? (b : BlockRecord) (value : Int) : Option Nat := (caseOffset? value b.marks).or b.closing

/-- The word of the slot for what stands behind the block. -/
def behindWord (b : BlockRecord) : Word := b.closing.elim 0 fun offset => Word.ofNat (offset + 1)

/-- The words of the slots for the values of a switch. -/
def caseWords (b : BlockRecord) : List Word :=
  (List.range b.range.size).map fun k : Nat => targetWord (b.case? (b.range.min.toInt + k))

/-- **The words of the slots of a block.** -/
def words (b : BlockRecord) : List Word :=
  match b.kind with
  | .ifBlock => [targetWord b.fallback?, b.behindWord]
  | .whileBlock => [Word.ofNat b.opened, b.behindWord]
  | .switchBlock =>
    b.range.min :: b.range.max :: targetWord b.fallback? :: b.behindWord :: b.caseWords

/-- The number of the slots of a block. -/
def size (b : BlockRecord) : Nat :=
  match b.kind with
  | .ifBlock => 2
  | .whileBlock => 2
  | .switchBlock => 4 + b.range.size

/-- A block with a further line that divides it. -/
def mark (value : Option Word) (offset : Nat) (b : BlockRecord) : BlockRecord :=
  { b with marks := ⟨value, offset⟩ :: b.marks }

/-- A block that is closed. -/
def close (offset : Nat) (b : BlockRecord) : BlockRecord := { b with closing := some offset }

/-- A block behind an instruction at an offset in it. -/
def past (op : Opcode) (offset : Nat) (b : BlockRecord) : BlockRecord :=
  match op with
  | .control .elseBranch => b.mark none (offset + 1)
  | .control .endIf => b.close offset
  | .control .loop => b.close offset
  | .control .endSwitch => b.close offset
  | _ => b

end BlockRecord

/-! ## Words that are missing -/

/-- The offset of a target is found among those of the marks. -/
theorem exists_mark_of_caseOffset? {value : Int} {marks : List Mark} {offset : Nat}
    (h : caseOffset? value marks = some offset) : ∃ m ∈ marks, m.offset = offset := by
  induction marks with
  | nil => cases h
  | cons m earlier ih =>
    obtain ⟨_ | w, o⟩ := m
    · rw [caseOffset?] at h
      cases found : caseOffset? value earlier with
      | none =>
        rw [found] at h
        exact ⟨_, List.mem_cons_self, Option.some.inj h⟩
      | some o' =>
        rw [found] at h
        obtain ⟨m, member, same⟩ := ih (found.trans h)
        exact ⟨m, List.mem_cons_of_mem _ member, same⟩
    · rw [caseOffset?] at h
      split at h
      · exact ⟨_, List.mem_cons_self, Option.some.inj h⟩
      · obtain ⟨m, member, same⟩ := ih h
        exact ⟨m, List.mem_cons_of_mem _ member, same⟩

theorem exists_mark_of_elseOffset? {marks : List Mark} {offset : Nat}
    (h : elseOffset? marks = some offset) : ∃ m ∈ marks, m.offset = offset := by
  obtain ⟨m, found, same⟩ := Option.map_eq_some_iff.1 h
  exact ⟨m, List.mem_of_find?_eq_some found, same⟩

namespace BlockRecord

/-- A target that fits into a word can be told from a missing one. -/
theorem targetWord_eq_iff {target : Option Nat} (small : ∀ offset ∈ target, offset ≤ codeCapacity) :
    targetWord target = -1 ↔ target = none := by
  cases target with
  | none => exact ⟨fun _ => rfl, fun _ => rfl⟩
  | some offset => exact ⟨fun h => absurd h (Word.ofNat_ne (small offset rfl)), nofun⟩

theorem targetWord_neg_iff {target : Option Nat} (small : ∀ offset ∈ target, offset ≤ codeCapacity) :
    targetWord target < 0 ↔ target = none := by
  cases target with
  | none => exact ⟨fun _ => rfl, fun _ => by decide⟩
  | some offset => exact ⟨fun h => absurd h (Word.ofNat_nonneg (small offset rfl)), nofun⟩

variable {b : BlockRecord} {offset : Nat}

/-- The words of a switch whose missing targets are filled in. -/
def fill (words : List Word) (w : Word) : List Word :=
  words.take 4 ++ (words.drop 4).map fun old => if old < 0 then w else old

theorem words_switch (kind : b.kind = .switchBlock) :
    b.words = b.range.min :: b.range.max :: targetWord b.fallback? :: b.behindWord :: b.caseWords := by
  rw [words, kind]

theorem words_if (kind : b.kind = .ifBlock) : b.words = [targetWord b.fallback?, b.behindWord] := by
  rw [words, kind]

theorem words_while (kind : b.kind = .whileBlock) :
    b.words = [Word.ofNat b.opened, b.behindWord] := by
  rw [words, kind]

@[simp] theorem length_caseWords (b : BlockRecord) : b.caseWords.length = b.range.size := by
  rw [caseWords, List.length_map, List.length_range]

/-- The slots of a switch no label of which has been met. -/
theorem words_unmarked {b : BlockRecord} (kind : b.kind = .switchBlock) (unmarked : b.marks = [])
    (unclosed : b.closing = none) :
    b.words = [b.range.min, b.range.max, -1, 0] ++ List.replicate b.range.size (-1) := by
  have cases : b.caseWords = List.replicate b.range.size (-1) := by
    rw [caseWords, ← List.length_range (n := b.range.size), ← List.map_const', List.length_range]
    refine List.map_congr_left fun k _ => ?_
    rw [case?, unmarked, unclosed]
    rfl
  rw [words_switch kind, cases, fallback?, unmarked, behindWord, unclosed]
  rfl

/-- A block has as many slots as its kind and its range tell. -/
theorem length_words (b : BlockRecord) : b.words.length = b.size := by
  cases kind : b.kind with
  | ifBlock => rw [words_if kind, size, kind]; rfl
  | whileBlock => rw [words_while kind, size, kind]; rfl
  | switchBlock =>
    rw [words_switch kind, size, kind]
    simp only [List.length_cons, length_caseWords]
    omega

/-- The known targets of a block fit into words. -/
def Small (b : BlockRecord) : Prop := ∀ m ∈ b.marks, m.offset ≤ codeCapacity

theorem Small.case? (h : b.Small) (opened : b.closing = none) (value : Int) :
    ∀ offset ∈ b.case? value, offset ≤ codeCapacity := by
  intro offset found
  rw [BlockRecord.case?, opened, Option.or_none] at found
  obtain ⟨m, member, rfl⟩ := exists_mark_of_caseOffset? found
  exact h m member

theorem Small.fallback? (h : b.Small) (opened : b.closing = none) :
    ∀ offset ∈ b.fallback?, offset ≤ codeCapacity := by
  intro offset found
  rw [BlockRecord.fallback?, opened, Option.or_none] at found
  obtain ⟨m, member, rfl⟩ := exists_mark_of_elseOffset? found
  exact h m member

/-! ## Lines that say more about a block -/

theorem words_mark_else (kind : b.kind = .ifBlock) :
    (b.mark none offset).words = b.words.set 0 (Word.ofNat offset) := by
  rw [words_if kind, words_if (b := b.mark none offset) kind]
  rfl

theorem words_mark_case (kind : b.kind = .switchBlock) {value : Word} {k : Nat}
    (place : value.toInt = b.range.min.toInt + k) :
    (b.mark (some value) offset).words = b.words.set (4 + k) (Word.ofNat offset) := by
  have cases : (b.mark (some value) offset).caseWords = b.caseWords.set k (Word.ofNat offset) := by
    apply List.ext_getElem?
    intro j
    rw [List.getElem?_set, length_caseWords, caseWords, caseWords, List.getElem?_map,
      List.getElem?_map, BlockRecord.mark]
    by_cases inside : j < b.range.size
    · rw [List.getElem?_range inside, Option.map_some, Option.map_some]
      by_cases same : k = j
      · subst same
        simp [BlockRecord.case?, caseOffset?, place, inside, targetWord]
      · have other : b.range.min.toInt + k ≠ b.range.min.toInt + j := by omega
        simp [BlockRecord.case?, caseOffset?, place, other, same]
    · have outside : (List.range b.range.size)[j]? = none :=
        List.getElem?_eq_none (by rw [List.length_range]; omega)
      rw [outside]
      split
      · rw [if_neg (by omega)]
        rfl
      · rfl
  rw [words_switch kind, words_switch (b := b.mark (some value) offset) kind, cases, Nat.add_comm]
  rfl

/-- A `default` fills the slots that have no target in. -/
theorem words_mark_default (kind : b.kind = .switchBlock) (small : b.Small)
    (opened : b.closing = none) :
    (b.mark none offset).words = fill (b.words.set 2 (Word.ofNat offset)) (Word.ofNat offset) := by
  have cases : (b.mark none offset).caseWords =
      b.caseWords.map fun old => if old < 0 then Word.ofNat offset else old := by
    rw [caseWords, caseWords, List.map_map]
    refine List.map_congr_left fun k _ => ?_
    have missing := targetWord_neg_iff (small.case? opened (b.range.min.toInt + k))
    rw [Function.comp_apply]
    cases found : caseOffset? (b.range.min.toInt + k) b.marks with
    | none =>
      have none : b.case? (b.range.min.toInt + k) = none := by
        rw [BlockRecord.case?, found, opened]
        rfl
      rw [if_pos (missing.2 none)]
      simp [BlockRecord.case?, BlockRecord.mark, caseOffset?, found, targetWord]
    | some o =>
      have some : b.case? (b.range.min.toInt + k) = some o := by
        rw [BlockRecord.case?, found]
        rfl
      rw [if_neg (fun negative => by rw [missing.1 negative] at some; cases some), some]
      simp [BlockRecord.case?, BlockRecord.mark, caseOffset?, found]
  rw [words_switch kind, words_switch (b := b.mark none offset) kind, cases]
  rfl

theorem words_close_while (kind : b.kind = .whileBlock) :
    (b.close offset).words = b.words.set 1 (Word.ofNat (offset + 1)) := by
  rw [words_while kind, words_while (b := b.close offset) kind]
  rfl

/-- A block that is open has no target for its first need yet exactly as long as no line divides it
without naming a value. -/
theorem fallback_missing_iff (small : b.Small) (opened : b.closing = none) :
    targetWord b.fallback? = -1 ↔ elseOffset? b.marks = none := by
  rw [targetWord_eq_iff (small.fallback? opened), BlockRecord.fallback?, opened, Option.or_none]

/-- An `if` without an `else` goes on at its own end where its test fails. -/
theorem words_close_if (kind : b.kind = .ifBlock) (opened : b.closing = none) :
    (b.close offset).words =
      if elseOffset? b.marks = none then
        (b.words.set 1 (Word.ofNat (offset + 1))).set 0 (Word.ofNat offset)
      else b.words.set 1 (Word.ofNat (offset + 1)) := by
  rw [words_if kind, words_if (b := b.close offset) kind, BlockRecord.fallback?,
    BlockRecord.fallback?, BlockRecord.close, opened]
  cases elseOffset? b.marks <;> rfl

/-- A `default` leaves no slot of a switch without a target. -/
theorem caseOffset?_ne_none {marks : List Mark} {o : Nat} (h : elseOffset? marks = some o)
    (value : Int) : caseOffset? value marks ≠ none := by
  induction marks with
  | nil => cases h
  | cons m earlier ih =>
    obtain ⟨_ | w, offset⟩ := m
    · rw [caseOffset?]
      cases caseOffset? value earlier <;> exact nofun
    · rw [caseOffset?]
      split
      · exact nofun
      · exact ih h

/-- A switch without a `default` goes on at its own end for the values that it has no `case` of. -/
theorem words_close_switch (kind : b.kind = .switchBlock) (small : b.Small)
    (opened : b.closing = none) :
    (b.close offset).words =
      if elseOffset? b.marks = none then
        fill ((b.words.set 3 (Word.ofNat (offset + 1))).set 2 (Word.ofNat offset))
          (Word.ofNat offset)
      else b.words.set 3 (Word.ofNat (offset + 1)) := by
  have closed : (b.close offset).caseWords = (List.range b.range.size).map fun k : Nat =>
      targetWord ((caseOffset? (b.range.min.toInt + k) b.marks).or (some offset)) := rfl
  have fallback : (b.close offset).fallback? = (elseOffset? b.marks).or (some offset) := rfl
  rw [words_switch kind, words_switch (b := b.close offset) kind, fallback]
  cases found : elseOffset? b.marks with
  | none =>
    -- A case without a label has a negative word, and these are the ones that get the end.
    have cases : (b.close offset).caseWords =
        b.caseWords.map fun old => if old < 0 then Word.ofNat offset else old := by
      rw [closed, caseWords, List.map_map]
      refine List.map_congr_left fun k _ => ?_
      have missing := targetWord_neg_iff (small.case? opened (b.range.min.toInt + k))
      rw [BlockRecord.case?, opened, Option.or_none] at missing
      rw [Function.comp_apply, BlockRecord.case?, opened, Option.or_none]
      cases found : caseOffset? (b.range.min.toInt + k) b.marks with
      | none => rfl
      | some o =>
        rw [if_neg fun negative => by rw [found] at missing; cases missing.1 negative]
        rfl
    rw [cases]
    rfl
  | some o =>
    -- With a label for other values no case is without a target, so closing changes none.
    have cases : (b.close offset).caseWords = b.caseWords := by
      rw [closed, caseWords]
      refine List.map_congr_left fun k _ => ?_
      rw [BlockRecord.case?, opened]
      cases all : caseOffset? (b.range.min.toInt + k) b.marks with
      | none => exact absurd all (caseOffset?_ne_none found _)
      | some o => rfl
    rw [cases, BlockRecord.fallback?, found]
    rfl

end BlockRecord

/-! ## Words of the jump table -/

section

variable {jumps : Array Word} {front ws back : List Word}

theorem getElem?_of_toList (h : jumps.toList = front ++ ws ++ back) {k : Nat}
    (inside : k < ws.length) : jumps[front.length + k]? = ws[k]? := by
  rw [← Array.getElem?_toList, h, List.append_assoc,
    List.getElem?_append_right (Nat.le_add_right ..), Nat.add_sub_cancel_left,
    List.getElem?_append_left inside]

theorem toList_set (h : jumps.toList = front ++ ws ++ back) {k : Nat} (inside : k < ws.length)
    (w : Word) : (jumps.setIfInBounds (front.length + k) w).toList = front ++ ws.set k w ++ back := by
  rw [Array.toList_setIfInBounds, h, List.append_assoc,
    List.set_append_right _ _ (Nat.le_add_right ..), Nat.add_sub_cancel_left,
    List.set_append_left _ _ inside, List.append_assoc]

/-- A run of words that is changed, one word after the other. -/
theorem toList_foldl_modify (h : jumps.toList = front ++ (ws ++ back)) (f : Word → Word) :
    ((List.range ws.length).foldl (fun jumps k => jumps.modify (front.length + k) f) jumps).toList =
      front ++ (ws.map f ++ back) := by
  apply List.ext_getElem?
  intro i
  rw [Array.getElem?_toList, Compiler.getElem?_foldl_modify, ← Array.getElem?_toList, h]
  by_cases before : i < front.length
  · rw [if_neg (by omega), List.getElem?_append_left before, List.getElem?_append_left before]
  · obtain ⟨j, rfl⟩ : ∃ j, i = front.length + j := ⟨i - front.length, by omega⟩
    have skip (l : List Word) : (front ++ l)[front.length + j]? = l[j]? := by
      rw [List.getElem?_append_right (Nat.le_add_right ..), Nat.add_sub_cancel_left]
    rw [skip, skip]
    by_cases inside : j < ws.length
    · rw [if_pos (by omega), List.getElem?_append_left inside,
        List.getElem?_append_left (by rwa [List.length_map]), List.getElem?_map]
    · rw [if_neg (by omega), List.getElem?_append_right (by omega),
        List.getElem?_append_right (by rw [List.length_map]; omega), List.length_map]

/-- The slots of a switch that are filled in. -/
theorem toList_fill (h : jumps.toList = front ++ ws ++ back) {count : Nat}
    (length : ws.length = 4 + count) (w : Word) :
    ((List.range count).foldl (fun jumps k => jumps.modify (front.length + 4 + k) fun old =>
      if old < 0 then w else old) jumps).toList = front ++ BlockRecord.fill ws w ++ back := by
  have four : (front ++ ws.take 4).length = front.length + 4 := by
    rw [List.length_append, List.length_take]
    omega
  have rest : (ws.drop 4).length = count := by
    rw [List.length_drop]
    omega
  have split : jumps.toList = (front ++ ws.take 4) ++ (ws.drop 4 ++ back) := by
    rw [h, List.append_assoc, List.append_assoc, ← List.append_assoc (ws.take 4),
      List.take_append_drop]
  have filled := toList_foldl_modify split fun old => if old < 0 then w else old
  rw [four, rest] at filled
  rw [filled, BlockRecord.fill]
  simp only [List.append_assoc]

end

/-! ## What lines do to the words of a block -/

namespace Compiler

variable {c : Compiler} {b : BlockRecord} {front back : List Word}

theorem jumpWord_of_toList {ws : List Word} (h : c.program.jumpTable.toList = front ++ ws ++ back)
    {k : Nat} {w : Word} (word : ws[k]? = some w) : c.jumpWord (front.length + k) = w := by
  obtain ⟨inside, -⟩ := List.getElem?_eq_some_iff.1 word
  rw [jumpWord, Array.getD_eq_getD_getElem?, getElem?_of_toList h inside, word]
  rfl

/-- The range in the header of a switch. -/
theorem labelRange_of_toList {ws : List Word} {range : LabelRange}
    (h : c.program.jumpTable.toList = front ++ ws ++ back) (min : ws[0]? = some range.min)
    (max : ws[1]? = some range.max) : c.labelRange front.length = range := by
  rw [labelRange, ← Nat.add_zero front.length, jumpWord_of_toList h min, Nat.add_zero,
    jumpWord_of_toList h max]

/-- **The slots of a switch are filled in** from the slot for other values on. -/
theorem toList_filled {ws : List Word} {range : LabelRange}
    (h : c.program.jumpTable.toList = front ++ ws ++ back) (length : ws.length = 4 + range.size)
    (min : ws[0]? = some range.min) (max : ws[1]? = some range.max) (w : Word) :
    ((c.setSlot (front.length + 2) w).filled front.length w).program.jumpTable.toList =
      front ++ BlockRecord.fill (ws.set 2 w) w ++ back := by
  have set := toList_set h (k := 2) (by omega) w
  have same : (c.setSlot (front.length + 2) w).labelRange front.length = range :=
    labelRange_of_toList set ((List.getElem?_set_ne (by decide)).trans min)
      ((List.getElem?_set_ne (by decide)).trans max)
  rw [filled, same]
  exact toList_fill set (by rw [List.length_set, length]) w

theorem toList_elseBranch {offset : Nat} (h : c.program.jumpTable.toList = front ++ b.words ++ back)
    (kind : b.kind = .ifBlock) (here : c.here = Word.ofNat (offset + 1)) :
    (c.bound ⟨.ifBlock, front.length⟩ (.control .elseBranch)).program.jumpTable.toList =
      front ++ (b.mark none (offset + 1)).words ++ back := by
  have two : b.words.length = 2 := by rw [BlockRecord.length_words, BlockRecord.size, kind]
  rw [BlockRecord.words_mark_else kind, bound, here]
  exact toList_set h (k := 0) (by omega) _

theorem toList_loop {offset : Nat} (h : c.program.jumpTable.toList = front ++ b.words ++ back)
    (kind : b.kind = .whileBlock) (here : c.here = Word.ofNat (offset + 1)) :
    (c.bound ⟨.whileBlock, front.length⟩ (.control .loop)).program.jumpTable.toList =
      front ++ (b.close offset).words ++ back := by
  have two : b.words.length = 2 := by rw [BlockRecord.length_words, BlockRecord.size, kind]
  rw [BlockRecord.words_close_while kind, bound, here]
  exact toList_set h (k := 1) (by omega) _

theorem toList_endIf {offset : Nat} (h : c.program.jumpTable.toList = front ++ b.words ++ back)
    (kind : b.kind = .ifBlock) (opened : b.closing = none) (small : b.Small)
    (here : c.here = Word.ofNat (offset + 1)) :
    (c.bound ⟨.ifBlock, front.length⟩ (.control .endIf)).program.jumpTable.toList =
      front ++ (b.close offset).words ++ back := by
  have two : b.words.length = 2 := by rw [BlockRecord.length_words, BlockRecord.size, kind]
  have first : b.words[0]? = some (BlockRecord.targetWord b.fallback?) := by
    rw [BlockRecord.words_if kind]
    rfl
  have ended := toList_set h (k := 1) (by omega) c.here
  have test : (c.setSlot (front.length + 1) c.here).jumpWord front.length =
      BlockRecord.targetWord b.fallback? :=
    jumpWord_of_toList ended (k := 0) ((List.getElem?_set_ne (by decide)).trans first)
  have both := toList_set ended (k := 0) (by rw [List.length_set]; omega) (c.here - 1)
  rw [bound, test, BlockRecord.words_close_if kind opened]
  rw [here] at ended
  rw [here, Word.ofNat_succ_sub] at both ⊢
  have missing := BlockRecord.fallback_missing_iff small opened
  by_cases undivided : elseOffset? b.marks = none
  · rw [if_pos (missing.2 undivided), if_pos undivided]
    exact both
  · rw [if_neg (undivided ∘ missing.1), if_neg undivided]
    exact ended

theorem toList_endSwitch {offset : Nat} (h : c.program.jumpTable.toList = front ++ b.words ++ back)
    (kind : b.kind = .switchBlock) (opened : b.closing = none) (small : b.Small)
    (here : c.here = Word.ofNat (offset + 1)) :
    (c.bound ⟨.switchBlock, front.length⟩ (.control .endSwitch)).program.jumpTable.toList =
      front ++ (b.close offset).words ++ back := by
  have length : b.words.length = 4 + b.range.size := by rw [BlockRecord.length_words, BlockRecord.size, kind]
  have words := BlockRecord.words_switch kind
  have min : b.words[0]? = some b.range.min := by rw [words]; rfl
  have max : b.words[1]? = some b.range.max := by rw [words]; rfl
  have other : b.words[2]? = some (BlockRecord.targetWord b.fallback?) := by rw [words]; rfl
  have ended := toList_set h (k := 3) (by omega) c.here
  have test : (c.setSlot (front.length + 3) c.here).jumpWord (front.length + 2) =
      BlockRecord.targetWord b.fallback? :=
    jumpWord_of_toList ended ((List.getElem?_set_ne (by decide)).trans other)
  have filled := toList_filled (c := c.setSlot (front.length + 3) c.here) ended
    (by rw [List.length_set, length]) ((List.getElem?_set_ne (by decide)).trans min)
    ((List.getElem?_set_ne (by decide)).trans max) (c.here - 1)
  rw [bound, test, BlockRecord.words_close_switch kind small opened]
  rw [here] at ended
  rw [here, Word.ofNat_succ_sub] at filled ⊢
  have missing := BlockRecord.fallback_missing_iff small opened
  by_cases undivided : elseOffset? b.marks = none
  · rw [if_pos (missing.2 undivided), if_pos undivided]
    exact filled
  · rw [if_neg (undivided ∘ missing.1), if_neg undivided]
    exact ended

/-- **An instruction that divides or closes a block** changes the words of its slots. -/
theorem toList_bound {op : Opcode} {offset : Nat}
    (h : c.program.jumpTable.toList = front ++ b.words ++ back) (opened : b.closing = none)
    (small : b.Small) (governs : governedBlock op = some b.kind)
    (here : c.here = Word.ofNat (offset + 1)) :
    (c.bound ⟨b.kind, front.length⟩ op).program.jumpTable.toList =
      front ++ (b.past op offset).words ++ back := by
  unfold governedBlock at governs
  split at governs
  · have kind := (Option.some.inj governs).symm
    rw [kind]
    exact toList_elseBranch h kind here
  · have kind := (Option.some.inj governs).symm
    rw [kind]
    exact toList_endIf h kind opened small here
  · have kind := (Option.some.inj governs).symm
    rw [kind]
    exact toList_loop h kind here
  · exact h
  · have kind := (Option.some.inj governs).symm
    rw [kind]
    exact toList_endSwitch h kind opened small here
  · cases governs

/-- **A `case`** changes the word of the slot of its value. -/
theorem toList_case {offset : Nat} {value : Word}
    (h : c.program.jumpTable.toList = front ++ b.words ++ back) (kind : b.kind = .switchBlock)
    (least : 0 ≤ value.toInt - b.range.min.toInt)
    (most : value.toInt - b.range.min.toInt < b.range.size) (here : c.here = Word.ofNat offset) :
    (c.setSlot (front.length + 4 + (value.toInt - b.range.min.toInt).toNat)
        c.here).program.jumpTable.toList =
      front ++ (b.mark (some value) offset).words ++ back := by
  have length : b.words.length = 4 + b.range.size := by rw [BlockRecord.length_words, BlockRecord.size, kind]
  have place : value.toInt = b.range.min.toInt + (value.toInt - b.range.min.toInt).toNat := by omega
  rw [BlockRecord.words_mark_case kind place, here, Nat.add_assoc]
  exact toList_set h (by omega) _

/-- **A `default`** changes the word of the slot for other values, and those that have no target. -/
theorem toList_default {offset : Nat}
    (h : c.program.jumpTable.toList = front ++ b.words ++ back) (kind : b.kind = .switchBlock)
    (opened : b.closing = none) (small : b.Small) (here : c.here = Word.ofNat offset) :
    ((c.setSlot (front.length + 2) c.here).filled front.length c.here).program.jumpTable.toList =
      front ++ (b.mark none offset).words ++ back := by
  have length : b.words.length = 4 + b.range.size := by rw [BlockRecord.length_words, BlockRecord.size, kind]
  have words := BlockRecord.words_switch kind
  rw [BlockRecord.words_mark_default kind small opened, ← here]
  exact toList_filled h length (by rw [words]; rfl) (by rw [words]; rfl) c.here

end Compiler

end StageScript
