import StageScript.Text.Basic

/-! # Paths
A path is a text whose components stand between slashes.
* `Path.join` puts a path behind a directory;
* `Path.parent?` is the directory that a path lies in. Neither normalises what it is given. -/

namespace StageScript

/-- A path, as it is written. -/
abbrev Path := String

namespace Path

/-- Whether a path begins at the root. -/
def isAbsolute (path : Path) : Bool := ['/'].isPrefixOf path.toList

/-- A path as seen from a directory: an absolute path stands for itself, and an empty directory adds
nothing. -/
def join (directory path : Path) : Path :=
  if path.isAbsolute then path
  else if directory.isEmpty || directory.toList.getLast? = some '/' then directory ++ path
  else directory ++ "/" ++ path

/-! ## Parents -/

/-- What stands in front of a path's components: the root, or the dot of a path that begins with the
current directory. -/
def anchor : Text → Text × Text
  | '/' :: rest => (['/'], rest)
  | ['.'] => (['.'], [])
  | '.' :: '/' :: rest => (['.'], '/' :: rest)
  | text => ([], text)

/-- Whether a component goes nowhere. -/
def isIdle (component : Text) : Bool := component = [] || component = ['.']

/-- Components without those at the end that go nowhere. -/
def trim (components : List Text) : List Text := (components.reverse.dropWhile isIdle).reverse

/-- Components between slashes. -/
def ofComponents (components : List Text) : Text := ['/'].intercalate components

/-- The directory that a path lies in. The root and the empty path lie in none. -/
def parent? (path : Path) : Option Path :=
  let (front, body) := anchor path.toList
  match trim (Text.pieces '/' body) with
  | [] => if front = ['.'] then some "" else none
  | components => some (String.ofList (front ++ ofComponents (trim components.dropLast)))

/-- A path behind an empty directory is the path. -/
@[simp] theorem join_empty (path : Path) : join "" path = path := by
  simp [join]

end Path

end StageScript
