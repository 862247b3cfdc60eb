import StageScript.Json.Basic

/-! # Writing JSON
* `Json.compact` writes a value on one line without blanks;
* `Json.pretty` writes every item on a line of its own, indented by two spaces per level; empty
  arrays and objects stay on their line. -/

namespace StageScript

namespace Json

/-- The spelling of a character in a string. Characters beyond ASCII stand for themselves. -/
def escape (c : Char) : Text :=
  if c = '"' then ['\\', '"']
  else if c = '\\' then ['\\', '\\']
  else if c = '\n' then ['\\', 'n']
  else if c = '\r' then ['\\', 'r']
  else if c = '\t' then ['\\', 't']
  else if c = '\x08' then ['\\', 'b']
  else if c = '\x0C' then ['\\', 'f']
  else if c.val < 0x20 then
    let hex := "0123456789abcdef".toList
    ['\\', 'u', '0', '0', hex.getD (c.toNat / 16) '0', hex.getD (c.toNat % 16) '0']
  else [c]

/-- A string in quotes. -/
def quote (s : String) : String :=
  s.toList.foldl (fun out c => (escape c).foldl String.push out) "\"" ++ "\""

/-- The spelling of a string value; one without text is written as empty. -/
def quoteText (text : Option String) : String := quote (text.getD "")

mutual

/-- Writes a value behind `out`. -/
def write (out : String) : Json → String
  | .null => out ++ "null"
  | .bool true => out ++ "true"
  | .bool false => out ++ "false"
  | .number spelling => out ++ String.ofList spelling
  | .string text => out ++ quoteText text
  | .array items => writeItems (out ++ "[") "" items
  | .object entries => writeEntries (out ++ "\x7b") "" entries

/-- Writes items, with `comma` in front of the first. -/
def writeItems (out comma : String) : List Json → String
  | [] => out ++ "]"
  | item :: rest => writeItems (write (out ++ comma) item) "," rest

/-- Writes entries, with `comma` in front of the first. -/
def writeEntries (out comma : String) : List (Option String × Json) → String
  | [] => out ++ "\x7d"
  | (key, value) :: rest => writeEntries (write (out ++ comma ++ quoteText key ++ ":") value) "," rest

end

/-- A value on one line. -/
def compact (value : Json) : String := write "" value

/-- A new line at a level. -/
def newline (level : Nat) : String := "\n" ++ String.ofList (List.replicate (2 * level) ' ')

mutual

/-- Writes a value behind `out`, its own items one level further in. -/
def writePretty (level : Nat) (out : String) : Json → String
  | .null => out ++ "null"
  | .bool true => out ++ "true"
  | .bool false => out ++ "false"
  | .number spelling => out ++ String.ofList spelling
  | .string text => out ++ quoteText text
  | .array [] => out ++ "[]"
  | .array (item :: rest) =>
    prettyItems (level + 1) (writePretty (level + 1) (out ++ "[" ++ newline (level + 1)) item) rest
      ++ newline level ++ "]"
  | .object [] => out ++ "\x7b\x7d"
  | .object ((key, value) :: rest) =>
    let out := out ++ "\x7b" ++ newline (level + 1) ++ quoteText key ++ ": "
    prettyEntries (level + 1) (writePretty (level + 1) out value) rest ++ newline level ++ "\x7d"

/-- Writes further items behind the first. -/
def prettyItems (level : Nat) (out : String) : List Json → String
  | [] => out
  | item :: rest => prettyItems level (writePretty level (out ++ "," ++ newline level) item) rest

/-- Writes further entries behind the first. -/
def prettyEntries (level : Nat) (out : String) : List (Option String × Json) → String
  | [] => out
  | (key, value) :: rest =>
    let out := out ++ "," ++ newline level ++ quoteText key ++ ": "
    prettyEntries level (writePretty level out value) rest

end

/-- A value on indented lines. -/
def pretty (value : Json) : String := writePretty 0 "" value

end Json

end StageScript
