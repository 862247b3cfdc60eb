import StageScript.Text.Basic

/-! # Source lines
A script is read line by line, each line without its separators and its comment.
* `Line.pieces` cuts a source at its newlines; a final newline starts no further line;
* `Line.strip` drops carriage returns everywhere, drops spaces, tabs and semicolons outside quoted
  strings, and ends the line in front of the first `//` outside them;
* `Line.ofSource` numbers the stripped lines from one. -/

namespace StageScript

/-- One line of a script, stripped, with its number in the file. -/
structure Line where
  /-- The line's place in the file, counted from one. -/
  number : Nat
  /-- What is left of the line once it is stripped. -/
  text : Text
  deriving DecidableEq, Repr

namespace Line

/-- The parts of a source between its newlines, without an empty part behind the last one. -/
def pieces (source : Text) : List Text :=
  let parts := source.splitOn '\n'
  if parts.getLast? = some [] then parts.dropLast else parts

/-- How far the stripping of one line has come. -/
structure Scan where
  /-- The characters kept so far, latest first. -/
  kept : Text := []
  /-- Whether a quoted string is open. -/
  quoted : Bool := false
  /-- Whether the comment has begun. -/
  comment : Bool := false

/-- Reads one character of a line. The second slash of a comment mark also takes back the first,
even where separators stood between the two. -/
def Scan.step (scan : Scan) (c : Char) : Scan :=
  if c = '\r' || scan.comment then scan
  else if c = '"' then { scan with kept := c :: scan.kept, quoted := !scan.quoted }
  else if scan.quoted then { scan with kept := c :: scan.kept }
  else if c = ' ' || c = '\t' || c = ';' then scan
  else if c = '/' && scan.kept.head? = some '/' then
    { scan with kept := scan.kept.tail, comment := true }
  else { scan with kept := c :: scan.kept }

/-- A line without separators and comment. -/
def strip (piece : Text) : Text := (piece.foldl Scan.step {}).kept.reverse

/-- The lines of a source, stripped and numbered. -/
def ofSource (source : Text) : List Line :=
  (pieces source).mapIdx fun i piece => ⟨i + 1, strip piece⟩

@[simp] theorem pieces_nil : pieces [] = [] := rfl

@[simp] theorem strip_nil : strip [] = [] := rfl

/-- There are as many lines as pieces. -/
@[simp] theorem length_ofSource (source : Text) :
    (ofSource source).length = (pieces source).length := by
  simp [ofSource]

/-- Lines are numbered by their place. -/
theorem number_of_getElem? {source : Text} {i : Nat} {line : Line}
    (h : (ofSource source)[i]? = some line) : line.number = i + 1 := by
  simp only [ofSource, List.getElem?_mapIdx, Option.map_eq_some_iff] at h
  obtain ⟨piece, _, rfl⟩ := h
  rfl

end Line

end StageScript
