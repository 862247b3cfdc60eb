import StageScript.Source.Line

/-! # Reading a source line by line
A reader stands at a place in a source. It reads a line at a time, and can go back to a place where it
was before.
* `Reader.next?` reads a line, and `Reader.seek` goes to a place;
* `Reader.lines` is what is still to be read;
* **`Reader.lines_of_next?`**, **`Reader.lines_of_next?_none`** — a line that is read is the first of
  these, and at the end there are none. -/

namespace StageScript

/-- A place in a source. -/
structure Reader.Mark where
  /-- How many characters are in front of it. -/
  position : Nat
  /-- How many lines have been read up to it. -/
  line : Nat
  deriving DecidableEq, Repr

/-- A source and a place in it. -/
structure Reader extends Reader.Mark where
  source : Text
  deriving DecidableEq, Repr

/-! ## Pieces of a source -/

namespace Line

/-- The first piece of a source ends at the first newline, or where the source does. -/
theorem pieces_eq_cons {source : Text} (some_ : source ≠ []) :
    pieces source = source.takeWhile (· ≠ '\n') ::
      pieces (source.drop ((source.takeWhile (· ≠ '\n')).length + 1)) := by
  have apart : '\n' ∉ source.takeWhile (· ≠ '\n') := fun member => by
    simpa using List.all_eq_true.1 (List.all_takeWhile (p := (· ≠ '\n'))) _ member
  have whole := source.takeWhile_append_dropWhile (p := (· ≠ '\n'))
  generalize source.takeWhile (· ≠ '\n') = front at apart whole ⊢
  cases others : source.dropWhile (· ≠ '\n') with
  | nil =>
    -- there is no newline, so there is one piece, and it is not empty
    rw [others, List.append_nil] at whole
    subst whole
    rw [pieces, List.splitOn_eq_singleton apart, List.drop_eq_nil_of_le (Nat.le_succ _)]
    simp [some_]
  | cons newline rest =>
    have isNewline : newline = '\n' := by
      have first := List.head_dropWhile_not (l := source) (p := (· ≠ '\n')) (others ▸ nofun)
      simpa only [others, List.head_cons, decide_eq_false_iff_not, Decidable.not_not] using first
    rw [others, isNewline] at whole
    subst whole
    have behind : (front ++ '\n' :: rest).drop (front.length + 1) = rest := by simp
    obtain ⟨first, more, shape⟩ := List.exists_cons_of_ne_nil (List.splitOn_ne_nil '\n' rest)
    rw [behind, pieces, List.splitOn_append_cons_self_of_not_mem apart, pieces, shape,
      List.getLast?_cons_cons]
    split
    · rw [List.dropLast_cons_cons]
    · rfl

end Line

/-! ## Readers -/

namespace Reader

/-- A reader at the beginning of a source. -/
def ofSource (source : Text) : Reader := { position := 0, line := 0, source }

/-- The place where a reader stands. -/
abbrev mark (r : Reader) : Mark := r.toMark

/-- Goes to a place in the source. -/
def seek (r : Reader) (mark : Mark) : Reader := { r with toMark := mark }

/-- What is behind the place where a reader stands. -/
def rest (r : Reader) : Text := r.source.drop r.position

/-- Reads a line, if the source does not end here. -/
def next? (r : Reader) : Option (Line × Reader) :=
  if r.source.length ≤ r.position then none
  else
    let piece := r.rest.takeWhile (· ≠ '\n')
    let position := min (r.position + piece.length + 1) r.source.length
    some (⟨r.line + 1, Line.strip piece⟩, { r with position, line := r.line + 1 })

/-- The lines that are still to be read. -/
def lines (r : Reader) : List Line :=
  (Line.pieces r.rest).mapIdx fun i piece => ⟨r.line + i + 1, Line.strip piece⟩

variable {r r' : Reader} {line : Line}

/-- A reader that goes where another one stands in the source is that one. -/
theorem seek_mark (same : r.source = r'.source) : r.seek r'.mark = r' := by
  rw [seek, same]

theorem lines_ofSource (source : Text) : (ofSource source).lines = Line.ofSource source := by
  simp [lines, rest, ofSource, Line.ofSource]

/-- **Where nothing is read** there are no lines any more. -/
theorem lines_of_next?_none (ends : r.next? = none) : r.lines = [] := by
  rw [next?] at ends
  split at ends
  · next passed =>
    rw [lines, rest, List.drop_eq_nil_of_le passed]
    rfl
  · cases ends

/-- **A line that is read** is the first of those to be read, and the others are left. The source stays,
and the line bears the number of lines that have been read. -/
theorem lines_of_next? (reads : r.next? = some (line, r')) :
    r.lines = line :: r'.lines ∧ line.number = r'.line ∧ r'.source = r.source := by
  rw [next?] at reads
  split at reads
  · cases reads
  · next before =>
    obtain ⟨rfl, rfl⟩ := Prod.mk.inj (Option.some.inj reads)
    refine ⟨?_, rfl, rfl⟩
    have some_ : r.rest ≠ [] := fun empty => before (List.drop_eq_nil_iff.1 empty)
    generalize piece : r.rest.takeWhile (· ≠ '\n') = front
    have behind : rest ⟨⟨min (r.position + front.length + 1) r.source.length, r.line + 1⟩, r.source⟩ =
        r.rest.drop (front.length + 1) := by
      rw [rest, rest, List.drop_drop, ← List.drop_eq_drop_min]
      rfl
    have numbers (i : Nat) : r.line + (i + 1) + 1 = r.line + 1 + i + 1 := by omega
    rw [lines, Line.pieces_eq_cons some_, piece, List.mapIdx_cons, lines, behind]
    simp only [Nat.add_zero, numbers]

end Reader

end StageScript
