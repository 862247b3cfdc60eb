import StageScript.Proofs.Source.Discipline

/-! # Sources without the lines that are left out
The lines of a platform block of a body that names no tag of the compiler are left out. A source is
blanked by an empty line in the place of each of them.
* **`blanked`** — the text of the blanked source;
* **`ofSource_blanked`** — its lines are those of the source, the ones left out being empty. -/

namespace StageScript

/-! ## Lines that are left out -/

namespace Region

/-- Whether a line is left out where it stands. The one that ends the platform block is not. -/
def leavesOut (text : Text) : Region → Bool
  | .skipped _ => !Directive.endsPlatform text
  | _ => false

/-- Lines, with empty ones in the place of those that are left out. -/
def blank (tags : List Text) : Region → List Line → List Line
  | _, [] => []
  | region, line :: rest =>
    (if region.leavesOut line.text then { line with text := [] } else line) ::
      blank tags (region.after tags line.text) rest

/-- The parts of a text between its newlines, with empty ones in the place of those that are left
out. -/
def blankPieces (tags : List Text) : Region → List Text → List Text
  | _, [] => []
  | region, piece :: rest =>
    (if region.leavesOut (Line.strip piece) then [] else piece) ::
      blankPieces tags (region.after tags (Line.strip piece)) rest

/-- Where the lines behind some lines stand. -/
def behind (tags : List Text) (region : Region) (texts : List Text) : Region :=
  texts.foldl (fun region text => region.after tags text) region

variable {tags : List Text} {region : Region} {text : Text}

/-- An empty line leads no further. -/
@[simp] theorem after_nil (tags : List Text) (region : Region) : region.after tags [] = region := by
  cases region <;> rfl

/-- A line that is left out stands in a block that is. -/
theorem exists_of_leavesOut (out : region.leavesOut text = true) :
    ∃ isFunction, region = .skipped isFunction ∧ Directive.endsPlatform text = false := by
  cases region with
  | outside => cases out
  | body => cases out
  | skipped isFunction => exact ⟨isFunction, rfl, by simpa [leavesOut] using out⟩

/-- A line that is left out leads no further. -/
theorem after_of_leavesOut (out : region.leavesOut text = true) : region.after tags text = region := by
  obtain ⟨isFunction, rfl, goesOn⟩ := exists_of_leavesOut out
  simp [after, goesOn]

/-- Blanked lines lead where the lines lead. -/
theorem behind_blank (tags : List Text) (region : Region) (lines : List Line) :
    region.behind tags ((region.blank tags lines).map (·.text)) =
      region.behind tags (lines.map (·.text)) := by
  induction lines generalizing region with
  | nil => rfl
  | cons line rest ih =>
    simp only [blank, behind, List.map_cons, List.foldl_cons] at ih ⊢
    cases out : region.leavesOut line.text with
    | true =>
      rw [if_pos rfl, after_nil, after_of_leavesOut out]
      exact ih region
    | false =>
      rw [if_neg Bool.false_ne_true]
      exact ih (region.after tags line.text)

/-! ## Texts -/

theorem blankPieces_concat (tags : List Text) (region : Region) (front : List Text) (last : Text) :
    region.blankPieces tags (front ++ [last]) = region.blankPieces tags front ++
      [if (region.behind tags (front.map Line.strip)).leavesOut (Line.strip last) then []
        else last] := by
  induction front generalizing region with
  | nil => rfl
  | cons piece rest ih =>
    rw [List.cons_append, blankPieces, blankPieces, ih, List.cons_append]
    rfl

/-- No newline is added to a part. -/
theorem mem_of_mem_blankPieces {region : Region} {pieces : List Text} {piece : Text} {c : Char}
    (member : piece ∈ region.blankPieces tags pieces) (inside : c ∈ piece) :
    ∃ piece ∈ pieces, c ∈ piece := by
  induction pieces generalizing region with
  | nil => cases member
  | cons first rest ih =>
    rcases List.mem_cons.1 member with rfl | member
    · split at inside
      · cases inside
      · exact ⟨first, List.mem_cons_self, inside⟩
    · obtain ⟨piece, behind, inside⟩ := ih member
      exact ⟨piece, List.mem_cons_of_mem _ behind, inside⟩

/-- The lines of the parts that are not left out. -/
theorem mapIdx_blankPieces (number : Nat → Nat) (tags : List Text) (region : Region)
    (pieces : List Text) :
    (region.blankPieces tags pieces).mapIdx (fun i piece => ⟨number i, Line.strip piece⟩) =
      region.blank tags (pieces.mapIdx fun i piece => ⟨number i, Line.strip piece⟩) := by
  induction pieces generalizing region number with
  | nil => rfl
  | cons piece rest ih =>
    rw [blankPieces, List.mapIdx_cons, List.mapIdx_cons, blank, ih]
    split <;> rfl

end Region

/-- **The blanked source**: the same text, with an empty line in the place of each line that is left
out. -/
def blanked (tags : List Text) (source : Text) : Text :=
  ['\n'].intercalate (Region.outside.blankPieces tags (source.splitOn '\n'))

/-- No part between newlines has a newline. -/
theorem Text.not_mem_of_mem_splitOn {source piece : Text} {c : Char} (member : piece ∈ source.splitOn c) :
    c ∉ piece := by
  induction source generalizing piece with
  | nil =>
    obtain rfl := List.mem_singleton.1 member
    exact List.not_mem_nil
  | cons first rest ih =>
    obtain ⟨front, others, shape⟩ := List.exists_cons_of_ne_nil (List.splitOn_ne_nil c rest)
    rw [List.splitOn_cons_eq_if_modifyHead, shape] at member
    rw [shape] at ih
    split at member
    · rcases List.mem_cons.1 member with rfl | member
      · exact List.not_mem_nil
      · exact ih member
    · next other =>
      rw [List.modifyHead_cons] at member
      rcases List.mem_cons.1 member with rfl | member
      · intro inside
        rcases List.mem_cons.1 inside with rfl | inside
        · exact other (beq_self_eq_true _)
        · exact ih List.mem_cons_self inside
      · exact ih (List.mem_cons_of_mem _ member)

/-- The parts of a text that was put together from parts. -/
theorem Line.pieces_intercalate {parts : List Text} (some_ : parts ≠ [])
    (single : ∀ piece ∈ parts, '\n' ∉ piece) :
    pieces (['\n'].intercalate parts) =
      if parts.getLast? = some [] then parts.dropLast else parts := by
  rw [pieces, List.splitOn_intercalate '\n' single some_]

/-- What is left of numbered lines without their numbers. -/
theorem Line.map_text_mapIdx (number : Nat → Nat) (pieces : List Text) :
    (pieces.mapIdx fun i piece => (⟨number i, strip piece⟩ : Line)).map (·.text) =
      pieces.map strip := by
  apply List.ext_getElem?
  intro i
  simp only [List.getElem?_map, List.getElem?_mapIdx, Option.map_map]
  rfl

/-- **The lines of the blanked source** are those of the source with empty ones in the place of those
left out. Only a source that ends in a block left out, without a newline, loses its last line. -/
theorem ofSource_blanked (tags : List Text) (source : Text) :
    Line.ofSource (blanked tags source) = Region.outside.blank tags (Line.ofSource source) ∨
      ∃ (lines : List Line) (isFunction : Bool),
        Line.ofSource (blanked tags source) = Region.outside.blank tags lines ∧
          Region.outside.behind tags (lines.map (·.text)) = .skipped isFunction := by
  obtain ⟨front, last, shape⟩ : ∃ front last, source.splitOn '\n' = front ++ [last] :=
    ⟨_, _, (List.dropLast_concat_getLast (List.splitOn_ne_nil '\n' source)).symm⟩
  have single : ∀ piece ∈ Region.outside.blankPieces tags (source.splitOn '\n'), '\n' ∉ piece := by
    intro piece member inside
    obtain ⟨piece', member', inside'⟩ := Region.mem_of_mem_blankPieces member inside
    exact Text.not_mem_of_mem_splitOn member' inside'
  have parts := Region.blankPieces_concat tags .outside front last
  rw [← shape] at parts
  have read := Line.pieces_intercalate (by rw [parts]; simp) single
  have whole : Line.pieces source = if last = [] then front else front ++ [last] := by
    simp [Line.pieces, shape]
  rw [parts, List.getLast?_concat, List.dropLast_concat] at read
  simp only [Line.ofSource, blanked, parts, read, whole]
  by_cases empty : last = []
  · left
    subst empty
    rw [if_pos rfl, if_pos (by split <;> rfl), Region.mapIdx_blankPieces]
  · rw [if_neg empty]
    by_cases out : (Region.outside.behind tags (front.map Line.strip)).leavesOut (Line.strip last) = true
    · right
      obtain ⟨isFunction, left, -⟩ := Region.exists_of_leavesOut out
      refine ⟨front.mapIdx fun i piece => ⟨i + 1, Line.strip piece⟩, isFunction, ?_, ?_⟩
      · rw [if_pos out, if_pos rfl, Region.mapIdx_blankPieces]
      · rw [Line.map_text_mapIdx (· + 1) front, left]
    · left
      rw [if_neg out, if_neg (by simpa using empty), ← Region.mapIdx_blankPieces,
        Region.blankPieces_concat, if_neg out]

end StageScript
