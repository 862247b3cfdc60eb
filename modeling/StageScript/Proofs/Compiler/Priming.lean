import StageScript.Proofs.Compiler.Refusal

/-! # Labels that are looked up ahead
Where a switch is opened the lines behind it are searched for its labels. The search knows switches by
the raw spelling of the lines.
* `Priming.counted` — the `case` lines that count;
* **`Priming.exists_range`** — a search that ends well finds the range of the values of these lines;
* **`Opening.exists_value`** — so each of them has a value in the range for which there are slots. -/

namespace StageScript

open Compiler

/-! ## Ranges of labels -/

namespace LabelRange

theorem le_add (range : LabelRange) (value : Word) :
    (range.add value).min ≤ range.min ∧ range.max ≤ (range.add value).max := by
  simp only [add, Int32.le_iff_toInt_le, Int32.lt_iff_toInt_lt]
  constructor <;> split <;> omega

theorem mem_add (range : LabelRange) (value : Word) :
    (range.add value).min ≤ value ∧ value ≤ (range.add value).max := by
  simp only [add, Int32.le_iff_toInt_le, Int32.lt_iff_toInt_lt]
  constructor <;> split <;> omega

/-- A range is only widened by labels. -/
theorem le_foldl_add (values : List Word) (range : LabelRange) :
    (values.foldl add range).min ≤ range.min ∧ range.max ≤ (values.foldl add range).max := by
  induction values generalizing range with
  | nil => exact ⟨Int32.le_refl _, Int32.le_refl _⟩
  | cons value values ih =>
    obtain ⟨least, most⟩ := range.le_add value
    obtain ⟨least', most'⟩ := ih (range.add value)
    exact ⟨Int32.le_trans least' least, Int32.le_trans most most'⟩

/-- A range that was widened by a label has it inside. -/
theorem mem_foldl_add {values : List Word} {value : Word} (member : value ∈ values)
    (range : LabelRange) :
    (values.foldl add range).min ≤ value ∧ value ≤ (values.foldl add range).max := by
  induction values generalizing range with
  | nil => cases member
  | cons first values ih =>
    rcases List.mem_cons.1 member with rfl | member
    · obtain ⟨least, most⟩ := range.mem_add value
      obtain ⟨least', most'⟩ := le_foldl_add values (range.add value)
      exact ⟨Int32.le_trans least' least, Int32.le_trans most most'⟩
    · exact ih member (range.add first)

/-- A range with a label inside is settled. -/
theorem settle_of_mem {range : LabelRange} {value : Word}
    (h : range.min ≤ value ∧ value ≤ range.max) : range.settle = range := by
  rw [settle, if_neg]
  rw [Int32.lt_iff_toInt_lt]
  rw [Int32.le_iff_toInt_le, Int32.le_iff_toInt_le] at h
  omega

end LabelRange

/-! ## Lines that count -/

/-- The value of the label of a line, if it has one. -/
def Line.value? (aliases : List Alias) (line : Line) : Option Word :=
  (Directive.caseLabel? line.text).bind fun label => (labelValue aliases label).toOption

theorem Line.value?_of_ok {aliases : List Alias} {line : Line} {label : Text} {value : Word}
    (read : Directive.caseLabel? line.text = some label)
    (known : labelValue aliases label = .ok value) : line.value? aliases = some value := by
  rw [value?, read, Option.bind_some, known]
  rfl

namespace Priming

/-- **The `case` lines that count** when the lines behind a switch are searched for its labels. -/
def counted : List Line → (depth : Nat) → List Line
  | [], _ => []
  | line :: rest, depth =>
    if Directive.startsSwitch line.text then counted rest (depth + 1)
    else if Directive.endsSwitch line.text then
      match depth with
      | 0 => []
      | depth + 1 => counted rest depth
    else if depth = 0 ∧ (Directive.caseLabel? line.text).isSome then line :: counted rest depth
    else counted rest depth

variable {aliases : List Alias} {line : Line} {rest lines : List Line} {depth last : Nat}
  {range : LabelRange}

theorem scan_of_starts (starts : Directive.startsSwitch line.text = true) :
    scan aliases (line :: rest) depth last range =
        scan aliases rest (depth + 1) line.number range ∧
      counted (line :: rest) depth = counted rest (depth + 1) := by
  simp only [scan, counted, starts, if_true, and_self]

theorem scan_of_ends (noStart : Directive.startsSwitch line.text = false)
    (ends : Directive.endsSwitch line.text = true) :
    scan aliases (line :: rest) (depth + 1) last range =
        scan aliases rest depth line.number range ∧
      counted (line :: rest) (depth + 1) = counted rest depth := by
  simp only [scan, counted, noStart, ends, Bool.false_eq_true, if_false, if_true, and_self]

/-- **A line that is not about a switch** widens the range if it counts. -/
theorem exists_scan (noStart : Directive.startsSwitch line.text = false)
    (noEnd : Directive.endsSwitch line.text = false) {n : Nat}
    (closed : (scan aliases (line :: rest) depth last range).ending = .closed n) :
    ∃ range', scan aliases (line :: rest) depth last range =
        scan aliases rest depth line.number range' ∧
      (range' = range ∧ counted (line :: rest) depth = counted rest depth ∨
        ∃ label value, Directive.caseLabel? line.text = some label ∧
          labelValue aliases label = .ok value ∧ range' = range.add value ∧
            counted (line :: rest) depth = line :: counted rest depth) := by
  simp only [scan, counted, noStart, noEnd, Bool.false_eq_true, if_false] at closed ⊢
  by_cases outermost : depth = 0
  · rw [if_pos outermost] at closed ⊢
    cases read : Directive.caseLabel? line.text with
    | none =>
      rw [if_neg (by simp)]
      exact ⟨range, rfl, .inl ⟨rfl, rfl⟩⟩
    | some label =>
      rw [read] at closed
      rw [if_pos ⟨outermost, rfl⟩]
      dsimp only at closed ⊢
      cases known : labelValue aliases label with
      | ok value => exact ⟨range.add value, rfl, .inr ⟨label, value, rfl, known, rfl, rfl⟩⟩
      | error reason =>
        rw [known] at closed
        cases closed
  · rw [if_neg outermost, if_neg fun both => outermost both.1]
    exact ⟨range, rfl, .inl ⟨rfl, rfl⟩⟩

/-- **What a search finds** that comes to the end of its switch: each line that counts has a value, and
the range is that of these values. -/
theorem exists_range {n : Nat} (closed : (scan aliases lines depth last range).ending = .closed n) :
    ∃ values : List Word, (counted lines depth).map (Line.value? aliases) = values.map some ∧
      (scan aliases lines depth last range).range = values.foldl LabelRange.add range := by
  -- The search and the list of the lines that count go in step; only a line that counts adds a
  -- value.
  induction lines generalizing depth last range with
  | nil => cases closed
  | cons line rest ih =>
    cases noStart : Directive.startsSwitch line.text with
    | true =>
      obtain ⟨same, count⟩ := @scan_of_starts aliases line rest depth last range noStart
      rw [same] at closed ⊢
      rw [count]
      exact ih closed
    | false =>
      cases noEnd : Directive.endsSwitch line.text with
      | true =>
        cases depth with
        | zero =>
          rw [scan, counted, noStart, if_neg Bool.false_ne_true, if_neg Bool.false_ne_true,
            if_pos noEnd, if_pos noEnd]
          exact ⟨[], rfl, rfl⟩
        | succ depth =>
          obtain ⟨same, count⟩ := @scan_of_ends aliases line rest depth last range noStart noEnd
          rw [same] at closed ⊢
          rw [count]
          exact ih closed
      | false =>
        obtain ⟨range', same, ⟨rfl, count⟩ | ⟨label, value, read, known, rfl, count⟩⟩ :=
          exists_scan noStart noEnd closed
        · rw [same] at closed ⊢
          rw [count]
          exact ih closed
        · rw [same] at closed ⊢
          rw [count]
          obtain ⟨values, all, found⟩ := ih closed
          refine ⟨value :: values, ?_, found⟩
          rw [List.map_cons, List.map_cons, Line.value?_of_ok read known, all]

/-- The range that a search finds is that of the values of all lines that count. -/
theorem exists_values {n : Nat} (closed : (scan aliases lines depth last range).ending = .closed n) :
    ∃ values : List Word, (scan aliases lines depth last range).range = values.foldl LabelRange.add range ∧
      ∀ line ∈ counted lines depth, ∀ label, Directive.caseLabel? line.text = some label →
        ∃ value ∈ values, labelValue aliases label = .ok value := by
  obtain ⟨values, all, found⟩ := exists_range closed
  refine ⟨values, found, fun line member label read => ?_⟩
  have valued := List.mem_map_of_mem (f := Line.value? aliases) member
  rw [all] at valued
  obtain ⟨value, inside, same⟩ := List.mem_map.1 valued
  rw [Line.value?, read] at same
  exact ⟨value, inside, Except.eq_ok_of_toOption same.symm⟩

end Priming

/-! ## Switches that are open -/

/-- A switch that is open: the line that opened it and the lines behind that one. -/
structure Opening where
  line : Line
  rest : List Line
  deriving DecidableEq, Repr

namespace Opening

variable {aliases : List Alias} {o : Opening} {line : Line} {rest lines : List Line} {depth : Nat}

/-- What the search for the labels of a switch finds. -/
def priming (o : Opening) (aliases : List Alias) : Priming :=
  Priming.scan aliases o.rest 0 o.line.number LabelRange.start

/-- The `case` lines that count for a switch. -/
def counted (o : Opening) : List Line := Priming.counted o.rest 0

/-- The search for the labels of a switch comes to some lines, with so many switches open inside of
it. -/
structure Reaches (o : Opening) (aliases : List Alias) (lines : List Line) (depth : Nat) : Prop where
  scan : ∃ last range, o.priming aliases = Priming.scan aliases lines depth last range
  counted : ∃ passed, o.counted = passed ++ Priming.counted lines depth

theorem reaches (o : Opening) (aliases : List Alias) : o.Reaches aliases o.rest 0 :=
  ⟨⟨_, _, rfl⟩, ⟨[], rfl⟩⟩

theorem Reaches.starts (h : o.Reaches aliases (line :: rest) depth)
    (starts : Directive.startsSwitch line.text = true) : o.Reaches aliases rest (depth + 1) := by
  obtain ⟨⟨last, range, found⟩, passed, count⟩ := h
  obtain ⟨same, counts⟩ := Priming.scan_of_starts starts
  exact ⟨⟨_, _, found.trans same⟩, passed, counts ▸ count⟩

theorem Reaches.ends (h : o.Reaches aliases (line :: rest) (depth + 1))
    (noStart : Directive.startsSwitch line.text = false)
    (ends : Directive.endsSwitch line.text = true) : o.Reaches aliases rest depth := by
  obtain ⟨⟨last, range, found⟩, passed, count⟩ := h
  obtain ⟨same, counts⟩ := Priming.scan_of_ends noStart ends
  exact ⟨⟨_, _, found.trans same⟩, passed, counts ▸ count⟩

theorem Reaches.passes {n : Nat} (h : o.Reaches aliases (line :: rest) depth)
    (closed : (o.priming aliases).ending = .closed n)
    (noStart : Directive.startsSwitch line.text = false)
    (noEnd : Directive.endsSwitch line.text = false) : o.Reaches aliases rest depth := by
  obtain ⟨⟨last, range, found⟩, passed, count⟩ := h
  rw [found] at closed
  obtain ⟨range', same, ⟨-, counts⟩ | ⟨-, -, -, -, -, counts⟩⟩ :=
    Priming.exists_scan noStart noEnd closed
  · exact ⟨⟨_, _, found.trans same⟩, passed, counts ▸ count⟩
  · refine ⟨⟨_, _, found.trans same⟩, passed ++ [line], ?_⟩
    rw [count, counts, List.append_assoc]
    rfl

/-- **A `case` line that the search comes to**, with no switch open inside, counts. -/
theorem Reaches.mem_counted {label : Text} (h : o.Reaches aliases (line :: rest) 0)
    (read : Directive.caseLabel? line.text = some label)
    (noStart : Directive.startsSwitch line.text = false)
    (noEnd : Directive.endsSwitch line.text = false) : line ∈ o.counted := by
  obtain ⟨-, passed, count⟩ := h
  rw [Priming.counted, noStart, if_neg Bool.false_ne_true, noEnd, if_neg Bool.false_ne_true, read,
    if_pos ⟨rfl, rfl⟩] at count
  rw [count]
  exact List.mem_append_right _ List.mem_cons_self

/-- **A line that counts** has its value in the range for which there are slots. -/
theorem exists_value {n : Nat} {label : Text} (closed : (o.priming aliases).ending = .closed n)
    (member : line ∈ o.counted) (read : Directive.caseLabel? line.text = some label) :
    ∃ value, labelValue aliases label = .ok value ∧
      (o.priming aliases).range.settle.min ≤ value ∧
        value ≤ (o.priming aliases).range.settle.max := by
  obtain ⟨values, found, all⟩ := Priming.exists_values closed
  obtain ⟨value, inside, known⟩ := all line member label read
  have within := LabelRange.mem_foldl_add inside LabelRange.start
  rw [← found] at within
  change (o.priming aliases).range.min ≤ value ∧ value ≤ (o.priming aliases).range.max at within
  rw [LabelRange.settle_of_mem within]
  exact ⟨value, known, within⟩

end Opening


/-! ## Lines that are about switches -/

/-- A line that begins in one of these ways is no keyword of a switch. -/
theorem Directive.noSwitch_of_head? {text : Text} {first : Char} (head : text.head? = some first)
    (other : first ∈ ['#', 'c', 'd', 'i', 'w']) :
    startsSwitch text = false ∧ endsSwitch text = false := by
  have letters : ∀ first ∈ ['#', 'c', 'd', 'i', 'w'],
      first ≠ 's' ∧ (first.toLower == 'e'.toLower) = false :=
    Text.forall_mem_of_all (by decide)
  obtain ⟨noStart, noEnd⟩ := letters first other
  constructor
  · exact not_startsSwitch (by rw [head]; exact fun same => noStart (Option.some.inj same))
  · cases text with
    | nil => rfl
    | cons c text =>
      obtain rfl := Option.some.inj head
      rw [endsSwitch, show "endswitch".toList = 'e' :: "ndswitch".toList from rfl, Text.sameName,
        noEnd, Bool.false_and]

/-- The name of an opcode is looked up without regard to case. -/
theorem Opcode.lookup?_congr {name name' : Text} (same : Text.sameName name name' = true) :
    lookup? name = lookup? name' := by
  simp only [lookup?, Text.sameName_congr same]

/-- Whether a line calls the opcode that closes a switch, however it is spelled. -/
def Region.callsEndSwitch (text : Text) : Bool :=
  Opcode.lookup? (Call.split ((Rewrite.assignment? text).getD text)).name =
    some (.control .endSwitch)

/-- The keyword that closes a switch calls its opcode. -/
theorem Region.callsEndSwitch_of_endsSwitch {text : Text} (ends : Directive.endsSwitch text = true) :
    callsEndSwitch text = true := by
  have letters : ∀ c ∈ text, c.toLower ∈ "endswitch".toList := by
    intro c member
    have lower := List.mem_map_of_mem (f := Char.toLower) member
    rw [Text.sameName_iff.1 ends] at lower
    exact lower
  -- every operator has a character that is none of these letters
  have noOperator : Rewrite.assignment? text = none := by
    rw [Rewrite.assignment?, Option.map_eq_none_iff, Operator.find?_eq_none_iff]
    intro entry member
    rw [Option.eq_none_iff_forall_ne_some]
    intro found occurs
    obtain ⟨-, shape⟩ := Operator.eq_of_occurrence? occurs
    have table : ∀ entry ∈ Operator.assignments,
        entry.1.toList.any (decide <| ·.toLower ∉ "endswitch".toList) = true := by decide
    obtain ⟨c, inside, other⟩ := List.any_eq_true.1 (table entry member)
    refine of_decide_eq_true other (letters c ?_)
    rw [shape]
    exact List.mem_append_right _ (List.mem_append_left _ inside)
  have bare : '(' ∉ text := fun member => absurd (letters '(' member) (by decide)
  rw [callsEndSwitch, noOperator, Option.getD_none, Call.split_of_not_mem bare,
    Opcode.lookup?_congr ends]
  decide +kernel

/-- A line that tests a condition begins with one of two keywords. -/
theorem Rewrite.head?_of_condition? {text : Text} {slot : Word} {condition : Condition}
    (rewritten : condition? text slot = some condition) :
    text.head? = some 'i' ∨ text.head? = some 'w' := by
  obtain ⟨keyword, read, -⟩ := Option.bind_eq_some_iff.1 rewritten
  rw [conditionKeyword?] at read
  split at read
  · next front => exact .inl (Text.head?_of_isPrefixOf rfl front)
  · split at read
    · next front => exact .inr (Text.head?_of_isPrefixOf rfl front)
    · cases read

theorem Rewrite.noSwitch_of_condition? {text : Text} {slot : Word} {condition : Condition}
    (rewritten : condition? text slot = some condition) :
    Directive.startsSwitch text = false ∧ Directive.endsSwitch text = false := by
  rcases head?_of_condition? rewritten with head | head
  · exact Directive.noSwitch_of_head? head (by decide)
  · exact Directive.noSwitch_of_head? head (by decide)

end StageScript
