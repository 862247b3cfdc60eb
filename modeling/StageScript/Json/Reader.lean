import StageScript.Json.Basic

/-! # Reading JSON
`Json.parse?` reads a text that holds one value between blanks. Blanks are spaces, tabs, newlines and
carriage returns; numbers have no leading zeros; a string holds no control characters. Nothing else
is accepted: no comments, and no comma behind a last item. -/

namespace StageScript

namespace Json

/-- A reading step: the value at the front of a text and the text behind it. -/
abbrev Reading (α : Type) := Text → Option (α × Text)

/-- The text behind the blanks at its front. -/
def skipBlanks (text : Text) : Text :=
  text.dropWhile fun c => c = ' ' || c = '\t' || c = '\n' || c = '\r'

/-! ## Strings -/

/-- Reads four hexadecimal digits. -/
def readHex : Reading Nat
  | a :: b :: c :: d :: rest => do
    let a ← Numeral.digit? 16 a
    let b ← Numeral.digit? 16 b
    let c ← Numeral.digit? 16 c
    let d ← Numeral.digit? 16 d
    some (((a * 16 + b) * 16 + c) * 16 + d, rest)
  | _ => none

/-- The character that a letter behind a backslash stands for. -/
def escape? : Char → Option Char
  | '"' => some '"'
  | '\\' => some '\\'
  | '/' => some '/'
  | 'b' => some '\x08'
  | 'f' => some '\x0C'
  | 'n' => some '\n'
  | 'r' => some '\r'
  | 't' => some '\t'
  | _ => none

/-- A piece of a string. -/
inductive Piece
  | char (c : Char)
  /-- Half of a surrogate pair. -/
  | half (code : Nat)

/-- Reads the pieces of a string behind its opening quote, which are collected latest first. `fuel`
bounds their number. -/
def readPieces : (fuel : Nat) → List Piece → Reading (List Piece)
  | 0, _, _ => none
  | _ + 1, pieces, '"' :: rest => some (pieces, rest)
  | fuel + 1, pieces, '\\' :: 'u' :: rest => do
    let (code, rest) ← readHex rest
    let piece := if 0xD800 ≤ code ∧ code < 0xE000 then .half code else .char (Char.ofNat code)
    readPieces fuel (piece :: pieces) rest
  | fuel + 1, pieces, '\\' :: c :: rest => do
    let c ← escape? c
    readPieces fuel (.char c :: pieces) rest
  | fuel + 1, pieces, c :: rest =>
    if c.val < 0x20 ∨ c = '\\' then none else readPieces fuel (.char c :: pieces) rest
  | _ + 1, _, [] => none

/-- Joins pieces, given latest first, to a text in front of `text`. The halves of a surrogate pair
have to stand one behind the other. -/
def joinPieces : List Piece → Text → Option Text
  | [], text => some text
  | .char c :: rest, text => joinPieces rest (c :: text)
  | .half low :: .half high :: rest, text =>
    if high < 0xDC00 ∧ 0xDC00 ≤ low then
      joinPieces rest (Char.ofNat (0x10000 + (high - 0xD800) * 0x400 + (low - 0xDC00)) :: text)
    else none
  | [.half _], _ => none
  | .half _ :: .char _ :: _, _ => none

/-- Reads a string behind its opening quote. -/
def readString : Reading (Option String) := fun text => do
  let (pieces, rest) ← readPieces (text.length + 1) [] text
  some ((joinPieces pieces []).map String.ofList, rest)

/-! ## Numbers -/

/-- Splits off the decimal digits at the front of a text. -/
def spanDigits (text : Text) : Text × Text :=
  (text.takeWhile Char.isDigit, text.dropWhile Char.isDigit)

/-- Reads the digits of a fraction or an exponent, of which there is at least one, behind the
characters in `front`. -/
def readDigits (front : Text) : Reading Text := fun text =>
  match spanDigits text with
  | ([], _) => none
  | (digits, rest) => some (front ++ digits, rest)

/-- Reads the part of a number in front of its fraction. -/
def readWhole : Reading Text
  | '0' :: rest => match rest with
    | c :: _ => if c.isDigit then none else some (['0'], rest)
    | [] => some (['0'], [])
  | text => readDigits [] text

/-- Reads a fraction if there is one. -/
def readFraction : Reading Text
  | '.' :: rest => readDigits ['.'] rest
  | text => some ([], text)

/-- Reads an exponent if there is one. -/
def readExponent : Reading Text
  | c :: rest =>
    if c = 'e' ∨ c = 'E' then
      match rest with
      | '+' :: rest => readDigits [c, '+'] rest
      | '-' :: rest => readDigits [c, '-'] rest
      | _ => readDigits [c] rest
    else some ([], c :: rest)
  | [] => some ([], [])

/-- Reads a number as it is written. -/
def readNumber : Reading Text := fun text => do
  let (sign, text) := match text with
    | '-' :: rest => (['-'], rest)
    | _ => ([], text)
  let (whole, text) ← readWhole text
  let (fraction, text) ← readFraction text
  let (exponent, text) ← readExponent text
  some (sign ++ whole ++ fraction ++ exponent, text)

/-! ## Values -/

mutual

/-- Reads a value at the front of a text without blanks. `fuel` bounds the depth of the recursion. -/
def readValue : (fuel : Nat) → Reading Json
  | 0, _ => none
  | _ + 1, 'n' :: 'u' :: 'l' :: 'l' :: rest => some (.null, rest)
  | _ + 1, 't' :: 'r' :: 'u' :: 'e' :: rest => some (.bool true, rest)
  | _ + 1, 'f' :: 'a' :: 'l' :: 's' :: 'e' :: rest => some (.bool false, rest)
  | _ + 1, '"' :: rest => (readString rest).map fun (text, rest) => (.string text, rest)
  | fuel + 1, '[' :: rest =>
    match skipBlanks rest with
    | ']' :: rest => some (.array [], rest)
    | rest => readItems fuel [] rest
  | fuel + 1, '\x7b' :: rest =>
    match skipBlanks rest with
    | '\x7d' :: rest => some (.object [], rest)
    | rest => readEntries fuel [] rest
  | _ + 1, text => (readNumber text).map fun (spelling, rest) => (.number spelling, rest)

/-- Reads the items of an array up to its bracket; `items` holds those read, latest first. -/
def readItems : (fuel : Nat) → List Json → Reading Json
  | 0, _, _ => none
  | fuel + 1, items, text => do
    let (item, rest) ← readValue fuel text
    match skipBlanks rest with
    | ',' :: rest => readItems fuel (item :: items) (skipBlanks rest)
    | ']' :: rest => some (.array (item :: items).reverse, rest)
    | _ => none

/-- Reads the entries of an object up to its brace; `entries` holds those read, latest first. -/
def readEntries : (fuel : Nat) → List (Option String × Json) → Reading Json
  | 0, _, _ => none
  | fuel + 1, entries, '"' :: text => do
    let (key, rest) ← readString text
    match skipBlanks rest with
    | ':' :: rest =>
      let (value, rest) ← readValue fuel (skipBlanks rest)
      match skipBlanks rest with
      | ',' :: rest => readEntries fuel ((key, value) :: entries) (skipBlanks rest)
      | '\x7d' :: rest => some (.object ((key, value) :: entries).reverse, rest)
      | _ => none
    | _ => none
  | _ + 1, _, _ => none

end

/-- Reads a text that holds one value. -/
def parse? (text : Text) : Option Json := do
  let (value, rest) ← readValue (text.length + 1) (skipBlanks text)
  if skipBlanks rest = [] then some value else none

end Json

end StageScript
