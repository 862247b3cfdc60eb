import Mathlib.Order.Bounds.Defs
import StageScript.Proofs.Compiler.Skipping

/-! # The range of a switch
The search for the labels of a switch begins at a range that is turned around, and widens it.
* **`LabelRange.isLeast_foldl_add`**, **`LabelRange.isGreatest_foldl_add`** — so the range ends at the
  least and the greatest of the labels and of what it began at;
* **`Compiler.reserveCases_apply`** — there are as many slots as the range has values, if there is room;
* **`compileLine_ranges`** — what a line that opens a switch leaves in the jump table;
* **`not_all_least`** — labels that are far from zero do not reach what the range began at. -/

namespace StageScript

open Stepwise Compiler

/-! ## Least and greatest labels -/

namespace LabelRange

theorem mem_min_foldl_add (values : List Word) (range : LabelRange) :
    (values.foldl add range).min ∈ range.min :: values := by
  induction values generalizing range with
  | nil => exact List.mem_cons_self
  | cons value values ih =>
    -- a bound that the first label moved is that label
    rcases List.mem_cons.1 (ih (range.add value)) with same | member
    · rw [List.foldl_cons, same, add]
      dsimp only
      split
      · exact List.mem_cons_of_mem _ List.mem_cons_self
      · exact List.mem_cons_self
    · exact List.mem_cons_of_mem _ (List.mem_cons_of_mem _ member)

theorem mem_max_foldl_add (values : List Word) (range : LabelRange) :
    (values.foldl add range).max ∈ range.max :: values := by
  induction values generalizing range with
  | nil => exact List.mem_cons_self
  | cons value values ih =>
    rcases List.mem_cons.1 (ih (range.add value)) with same | member
    · rw [List.foldl_cons, same, add]
      dsimp only
      split
      · exact List.mem_cons_of_mem _ List.mem_cons_self
      · exact List.mem_cons_self
    · exact List.mem_cons_of_mem _ (List.mem_cons_of_mem _ member)

/-- **The lower bound of a range that labels widened** is the least of them and of what it was. -/
theorem isLeast_foldl_add (values : List Word) (range : LabelRange) :
    IsLeast {v | v ∈ range.min :: values} (values.foldl add range).min :=
  ⟨mem_min_foldl_add values range, List.forall_mem_cons.2
    ⟨(le_foldl_add values range).1, fun _ member => (mem_foldl_add member range).1⟩⟩

/-- **The upper bound of a range that labels widened** is the greatest of them and of what it was. -/
theorem isGreatest_foldl_add (values : List Word) (range : LabelRange) :
    IsGreatest {v | v ∈ range.max :: values} (values.foldl add range).max :=
  ⟨mem_max_foldl_add values range, List.forall_mem_cons.2
    ⟨(le_foldl_add values range).2, fun _ member => (mem_foldl_add member range).2⟩⟩

/-- The lower bound is a label just where there is one that is not above what the bound was. -/
theorem isLeast_foldl_add_iff (values : List Word) (range : LabelRange) :
    IsLeast {v | v ∈ values} (values.foldl add range).min ↔ ∃ v ∈ values, v ≤ range.min := by
  have least : ∀ v ∈ values, (values.foldl add range).min ≤ v :=
    fun _ member => (mem_foldl_add member range).1
  constructor
  · exact fun among => ⟨_, among.1, (le_foldl_add values range).1⟩
  · rintro ⟨v, member, below⟩
    refine ⟨?_, least⟩
    rcases List.mem_cons.1 (mem_min_foldl_add values range) with same | inside
    · have equal : v = range.min := Int32.le_antisymm below (same ▸ least v member)
      exact same ▸ equal ▸ member
    · exact inside

/-- The upper bound is a label just where there is one that is not below what the bound was. -/
theorem isGreatest_foldl_add_iff (values : List Word) (range : LabelRange) :
    IsGreatest {v | v ∈ values} (values.foldl add range).max ↔ ∃ v ∈ values, range.max ≤ v := by
  have most : ∀ v ∈ values, v ≤ (values.foldl add range).max :=
    fun _ member => (mem_foldl_add member range).2
  constructor
  · exact fun among => ⟨_, among.1, (le_foldl_add values range).2⟩
  · rintro ⟨v, member, above⟩
    refine ⟨?_, most⟩
    rcases List.mem_cons.1 (mem_max_foldl_add values range) with same | inside
    · have equal : range.max = v := Int32.le_antisymm above (same ▸ most v member)
      exact same ▸ equal ▸ member
    · exact inside

/-- A range that is not turned around has as many values as there are between its bounds. -/
theorem size_eq {range : LabelRange} (h : range.min ≤ range.max) :
    (range.size : Int) = range.max.toInt - range.min.toInt + 1 := by
  rw [Int32.le_iff_toInt_le] at h
  rw [size]
  omega

end LabelRange

/-! ## Slots -/

namespace Compiler

variable {c c₁ : Compiler} {line : Line} {rest : List Line} {type : Nat}

/-- **The slots of a range** are reserved as far as there is room. -/
theorem reserveCases_apply (c : Compiler) (header : Nat) (range : LabelRange) :
    let room := jumpCapacity - c.program.jumpTable.size
    reserveCases header range c =
      (if room < range.settle.size then .error (.exhausted .jumpTable) else .ok (),
        (c.ranged header range.settle).addJumps
          (List.replicate (min range.settle.size room) (-1))) := by
  have write : setLabelRange header range.settle c = (.ok (), c.ranged header range.settle) := rfl
  have size := size_ranged c header range.settle
  have fill := @reserve_of_room (c.ranged header range.settle)
    (List.replicate (min range.settle.size (jumpCapacity - c.program.jumpTable.size)) (-1)) (by
      rw [List.length_replicate, size]
      exact Nat.min_le_right ..)
  unfold reserveCases
  dsimp only
  rw [bind_apply_of_ok write, bind_apply, get_apply]
  dsimp only
  rw [size, bind_apply_of_ok fill]
  split <;> rfl

/-- The header of a switch and the slots behind it, with a range in the header. -/
theorem jumpTable_reserved (c : Compiler) (words : List Word) (range : LabelRange) (count : Nat) :
    (((c.openedSwitch.addCode words).ranged c.program.jumpTable.size range).addJumps
        (List.replicate count (-1))).program.jumpTable =
      c.program.jumpTable ++
        ([range.min, range.max, -1, 0] ++ List.replicate count (-1)).toArray := by
  have opened : (c.openedSwitch.addCode words).program.jumpTable = c.program.jumpTable ++
      [LabelRange.start.min, LabelRange.start.max, -1, 0].toArray := rfl
  rw [BodyTyped.jumpTable_addJumps, BodyTyped.jumpTable_ranged, opened, BodyTyped.setIfInBounds_append,
    Array.append_assoc]
  exact congrArg (c.program.jumpTable ++ ·) (List.append_toArray ..)

/-- **A line that opens a switch**, before the labels are looked up, has put the instruction behind the
header at the end of the jump table. -/
theorem opens_of_insideLine {header : Nat}
    (opens : insideLine line.text c = (.ok (some header), c₁)) :
    Directive.startsSwitch line.text = true ∧ header = c.program.jumpTable.size ∧
      ∃ arguments : List Argument,
        c₁ = c.openedSwitch.addCode (Instruction.encode (.control .switch) arguments) := by
  obtain ⟨inside, -⟩ := inside_of_insideLine opens
  cases inside with
  | other _ _ _ stated =>
    cases stated with
    | switch _ rewritten =>
      refine ⟨?_, rfl, _, rfl⟩
      rw [← Rewrite.isSome_switch? line.text c.nextSlot, rewritten]
      rfl

/-- A line that opens a switch is followed by the look at its labels. -/
theorem compileLine_of_opens {header : Nat} (mode : c.mode = .inside)
    (opens : insideLine line.text c = (.ok (some header), c₁)) :
    compileLine type line rest c = prime header line.number rest c₁ := by
  rw [compileLine, bind_apply, get_apply]
  dsimp only
  rw [mode]
  dsimp only
  rw [bind_apply_of_ok (onLine_of_ok opens)]

/-- **A line that opens a switch** whose labels are found has their range in its header, and slots
behind it. -/
theorem compileLine_of_closed {header n : Nat} {range : LabelRange} (mode : c.mode = .inside)
    (opens : insideLine line.text c = (.ok (some header), c₁))
    (closed : (Priming.scan c.aliases rest 0 line.number LabelRange.start).ending = .closed n)
    (settled : (Priming.scan c.aliases rest 0 line.number LabelRange.start).range.settle = range) :
    let room := jumpCapacity - c₁.program.jumpTable.size
    compileLine type line rest c =
      (if room < range.size then .error ⟨n, .exhausted .jumpTable⟩ else .ok (),
        (c₁.ranged header range).addJumps (List.replicate (min range.size room) (-1))) := by
  have sameAliases : c₁.aliases = c.aliases := by
    obtain ⟨-, -, arguments, rfl⟩ := opens_of_insideLine opens
    rfl
  rw [← sameAliases] at closed settled
  have twice : range.settle = range := settled ▸ LabelRange.settle_settle _
  intro room
  rw [compileLine_of_opens mode opens, prime_of_closed closed, settled, onLine, reserveCases_apply,
    twice]
  dsimp only
  split <;> rfl

end Compiler

/-- **What a line that opens a switch leaves in the jump table**, if the search for the labels comes to
the end of the switch and there are any: a header whose first two words are the least and the greatest
of the labels and of what the range began at, and slots for all values from the one to the other. Words
of the header are labels just where a label comes up to what the range began at. -/
theorem compileLine_ranges {c c₁ : Compiler} {line : Line} {rest : List Line} {type header n : Nat}
    (mode : c.mode = .inside) (opens : insideLine line.text c = (.ok (some header), c₁))
    (closed : (Priming.scan c.aliases rest 0 line.number LabelRange.start).ending = .closed n)
    (labelled : Priming.counted rest 0 ≠ []) :
    let room := jumpCapacity - c₁.program.jumpTable.size
    ∃ (values : List Word) (range : LabelRange) (c₂ : Compiler),
      (Priming.counted rest 0).map (Line.value? c.aliases) = values.map some ∧
        IsLeast {v | v ∈ 0x10000 :: values} range.min ∧
        IsGreatest {v | v ∈ -0x10000 :: values} range.max ∧
        (IsLeast {v | v ∈ values} range.min ↔ ∃ v ∈ values, v ≤ 0x10000) ∧
        (IsGreatest {v | v ∈ values} range.max ↔ ∃ v ∈ values, -0x10000 ≤ v) ∧
        (range.size : Int) = range.max.toInt - range.min.toInt + 1 ∧
        c₂.program.jumpTable = c.program.jumpTable ++
          ([range.min, range.max, -1, 0] ++ List.replicate (min range.size room) (-1)).toArray ∧
        compileLine type line rest c =
          (if room < range.size then .error ⟨n, .exhausted .jumpTable⟩ else .ok (), c₂) := by
  intro room
  obtain ⟨values, all, found⟩ := Priming.exists_range closed
  obtain ⟨-, rfl, arguments, rfl⟩ := opens_of_insideLine opens
  have nonempty : values ≠ [] := by
    rintro rfl
    exact labelled (List.map_eq_nil_iff.1 all)
  obtain ⟨value, member⟩ := List.exists_mem_of_ne_nil values nonempty
  -- with a label inside, the range is not turned around any more
  have within := LabelRange.mem_foldl_add member LabelRange.start
  have settled := (congrArg LabelRange.settle found).trans (LabelRange.settle_of_mem within)
  have written := @compileLine_of_closed c _ line rest type _ n _ mode opens closed settled
  exact ⟨values, values.foldl LabelRange.add LabelRange.start, _, all,
    LabelRange.isLeast_foldl_add .., LabelRange.isGreatest_foldl_add ..,
    LabelRange.isLeast_foldl_add_iff .., LabelRange.isGreatest_foldl_add_iff ..,
    LabelRange.size_eq (Int32.le_trans within.1 within.2), jumpTable_reserved .., written⟩

/-- A compiler in a body in which nothing stands yet. -/
def bodyBegun : Compiler := { freshCompiler with mode := .inside }

/-- A line that opens a switch. -/
def switchLine : Line := ⟨1, "switchTempValue0".toList⟩

/-- A compiler that has compiled that line, and has not looked at the labels yet. -/
def switchOpened : Compiler := (insideLine switchLine.text bodyBegun).2

theorem switchLine_opens : insideLine switchLine.text bodyBegun = (.ok (some 0), switchOpened) :=
  Except.eq_of_toOption (by decide +kernel)

/-- The lines of a switch with another one inside, whose label does not count. -/
def nestedSwitch : List Line :=
  [⟨2, "case3:".toList⟩, ⟨3, "switchTempValue1".toList⟩, ⟨4, "case70000:".toList⟩,
    ⟨5, "endswitch".toList⟩, ⟨6, "case-2:".toList⟩, ⟨7, "endswitch".toList⟩]

theorem compileLine_ranges_nestedSwitch :
    ∃ c₂ : Compiler, compileLine 0 switchLine nestedSwitch bodyBegun = (.ok (), c₂) ∧
      c₂.program.jumpTable = #[-2, 3, -1, 0, -1, -1, -1, -1, -1, -1] := by
  obtain ⟨values, range, c₂, all, -, -, least, greatest, -, table, written⟩ :=
    @compileLine_ranges bodyBegun switchOpened switchLine nestedSwitch 0 0 7 rfl switchLine_opens
      (by decide +kernel) (by decide +kernel)
  have known : (Priming.counted nestedSwitch 0).map (Line.value? bodyBegun.aliases) =
      [3, -2].map some := by decide +kernel
  obtain rfl : values = [3, -2] :=
    (List.map_inj_right fun _ _ => Option.some.inj).1 (all.symm.trans known)
  -- both bounds are labels, as neither label is far from zero
  obtain ⟨inside, below⟩ := least.2 ⟨-2, by decide, by decide⟩
  obtain ⟨inside', above⟩ := greatest.2 ⟨3, by decide, by decide⟩
  obtain ⟨lower, upper⟩ := range
  have bounds : ∀ v ∈ ([3, -2] : List Word), -2 ≤ v ∧ v ≤ 3 :=
    List.forall_mem_cons.2 ⟨by decide, List.forall_mem_singleton.2 (by decide)⟩
  obtain rfl : lower = -2 :=
    Int32.le_antisymm (below (List.mem_of_getLast? rfl)) (bounds lower inside).1
  obtain rfl : upper = 3 := Int32.le_antisymm (bounds upper inside').2 (above List.mem_cons_self)
  have room : ¬ jumpCapacity - switchOpened.program.jumpTable.size < (⟨-2, 3⟩ : LabelRange).size := by
    decide +kernel
  rw [if_neg room] at written
  rw [Nat.min_eq_left (Nat.le_of_not_lt room)] at table
  exact ⟨c₂, written, table⟩

/-- The lines of a switch whose only label is far from zero. -/
def farLabel : List Line := [⟨2, "case65537:".toList⟩, ⟨3, "endswitch".toList⟩]

/-- **A label that is far from zero** lies in a range that begins where the search for it did. -/
theorem not_all_least :
    ¬ ∀ (c c₁ c₂ : Compiler) (line : Line) (rest : List Line) (type header : Nat) (values : List Word),
      c.mode = .inside → insideLine line.text c = (.ok (some header), c₁) →
      compileLine type line rest c = (.ok (), c₂) → Priming.counted rest 0 ≠ [] →
      (Priming.counted rest 0).map (Line.value? c.aliases) = values.map some →
      IsLeast {v | v ∈ values} (c₂.labelRange header).min ∧
        IsGreatest {v | v ∈ values} (c₂.labelRange header).max ∧
        (c₂.program.jumpTable.size : Int) = c₁.program.jumpTable.size +
          ((c₂.labelRange header).max.toInt - (c₂.labelRange header).min.toInt + 1) := by
  intro all
  have compiled : compileLine 0 switchLine farLabel bodyBegun = _ :=
    Except.eq_of_toOption (show _ = some () by decide +kernel)
  obtain ⟨⟨member, -⟩, -⟩ := all bodyBegun switchOpened _ switchLine farLabel 0 0 [65537] rfl
    switchLine_opens compiled (by decide +kernel) (by decide +kernel)
  exact absurd (List.mem_singleton.1 member) (by decide +kernel)

end StageScript
