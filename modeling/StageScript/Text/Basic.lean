/-! # Script text
Texts are lists of characters.
* `Text.sameName` compares names the way scripts do: ASCII letters match in either case, and every
  other character matches only itself;
* `Text.stripPrefix?` removes a fixed beginning;
* `Text.pieces` takes a text apart at a character;
* `Text.cutAt?` finds a token outside quoted strings. -/

namespace StageScript

/-- A text as its characters. -/
abbrev Text := List Char

namespace Text

/-- Whether two names are equal up to the case of ASCII letters. -/
def sameName : Text → Text → Bool
  | [], [] => true
  | a :: as, b :: bs => a.toLower == b.toLower && sameName as bs
  | _, _ => false

/-- Two names are the same exactly when their lower-case spellings are equal. -/
theorem sameName_iff {a b : Text} : sameName a b = true ↔ a.map Char.toLower = b.map Char.toLower := by
  induction a generalizing b with
  | nil => cases b <;> simp [sameName]
  | cons x xs ih => cases b <;> simp [sameName, ih]

@[simp] theorem sameName_refl (a : Text) : sameName a a = true := sameName_iff.2 rfl

/-- The rest of a text behind a fixed beginning. -/
def stripPrefix? (beginning text : Text) : Option Text := beginning.isPrefixOf? text

/-- A text without its spaces. -/
def withoutSpaces (text : Text) : Text := text.filter (· ≠ ' ')

/-! ## Pieces -/

/-- The pieces of a text behind a further character in front of it. -/
def addToPieces (separator c : Char) (pieces : List Text) : List Text :=
  if c = separator then [] :: pieces
  else
    match pieces with
    | [] => [[c]]
    | first :: others => (c :: first) :: others

/-- The pieces of a text between the places where a character stands. There is one piece more than
there are such places. -/
def pieces (separator : Char) (text : Text) : List Text :=
  text.foldr (addToPieces separator) [[]]

@[simp] theorem pieces_nil (separator : Char) : pieces separator [] = [[]] := rfl

@[simp] theorem pieces_cons (separator c : Char) (text : Text) :
    pieces separator (c :: text) = addToPieces separator c (pieces separator text) := rfl

/-- There is one piece more than there are separators. -/
theorem length_pieces (separator : Char) (text : Text) :
    (pieces separator text).length = text.count separator + 1 := by
  induction text with
  | nil => rfl
  | cons c text ih =>
    by_cases same : c = separator
    · simp [addToPieces, same, ih]
    · cases shape : pieces separator text with
      | nil => simp [shape] at ih
      | cons first others =>
        simp only [shape, List.length_cons] at ih
        simp [addToPieces, shape, same, ih]

/-! ## Tokens outside quotes -/

/-- Walks over `text` for `cutAt?`, holding the characters passed, latest first. -/
def cutAt?.go (token : Text) : Text → Bool → Text → Option (Text × Text)
  | [], _, _ => none
  | c :: rest, quoted, passed =>
    if c = '"' then go token rest (!quoted) (c :: passed)
    else if !quoted && token.isPrefixOf (c :: rest) then some (passed.reverse, c :: rest)
    else go token rest quoted (c :: passed)

/-- Cuts a text in front of the first place where `token` stands outside quoted strings. A quote
itself is never such a place. -/
def cutAt? (token text : Text) : Option (Text × Text) := cutAt?.go token text false []

theorem cutAt?.append_of_go {token text passed before after : Text} {quoted : Bool}
    (h : go token text quoted passed = some (before, after)) :
    before ++ after = passed.reverse ++ text := by
  induction text generalizing quoted passed with
  | nil => simp [go] at h
  | cons c rest ih =>
    rw [go] at h
    split at h
    · simpa using ih h
    · split at h
      · simp only [Option.some.injEq, Prod.mk.injEq] at h
        simp [← h.1, ← h.2]
      · simpa using ih h

/-- A cut loses no character. -/
theorem append_of_cutAt? {token text before after : Text}
    (h : cutAt? token text = some (before, after)) : before ++ after = text := by
  simpa using cutAt?.append_of_go h

end Text

end StageScript
