import StageScript.File.Path
import StageScript.Text.Utf8

/-! # Files
* `Files` is what can be read, and `FileError` why something cannot;
* `Files.readText` reads a file as text, which every byte of it has to be part of. -/

namespace StageScript

/-- Why a file cannot be read or written. -/
inductive FileError
  /-- There is nothing at the path. -/
  | notFound
  /-- A directory on the way is a file. -/
  | notDirectory
  /-- The file is a directory. -/
  | isDirectory
  /-- A component of the path, or the path, is too long. -/
  | nameTooLong
  /-- The path holds a character that no name can have. -/
  | invalidName
  /-- The file is not text. -/
  | invalidText
  /-- The system says something else. -/
  | other (message : String)
  deriving DecidableEq, Repr

/-- The wording of a file error. -/
def FileError.message : FileError → String
  | .notFound => "No such file or directory (os error 2)"
  | .notDirectory => "Not a directory (os error 20)"
  | .isDirectory => "Is a directory (os error 21)"
  | .nameTooLong => "File name too long (os error 36)"
  | .invalidName => "file name contained an unexpected NUL byte"
  | .invalidText => "stream did not contain valid UTF-8"
  | .other message => message

/-- The files that can be read. -/
structure Files where
  /-- The bytes of a file. -/
  read : Path → Except FileError (List UInt8)

namespace Files

/-- No files at all. -/
def empty : Files := ⟨fun _ => .error .notFound⟩

/-- The text that bytes encode. -/
def text? (bytes : List UInt8) : Option Text :=
  let text := Utf8.decodeLossy bytes
  if Utf8.encode text = bytes then some text else none

/-- Reads a file as text. -/
def readText (files : Files) (path : Path) : Except FileError Text := do
  match text? (← files.read path) with
  | some text => return text
  | none => throw .invalidText

/-- Whether there is anything at a path. -/
def exists? (files : Files) (path : Path) : Bool :=
  match files.read path with
  | .ok _ => true
  | .error error => error = .isDirectory

/-- Bytes are read as the text that encodes to them. -/
theorem encode_of_text? {bytes : List UInt8} {text : Text} (h : text? bytes = some text) :
    Utf8.encode text = bytes := by
  simp only [text?] at h
  split at h
  · rename_i same
    rw [← Option.some.inj h, same]
  · exact nomatch h

/-- A line that ends in a newline, without the carriage return that may stand before it. -/
def endedLine (line : Text) : Text :=
  if line.getLast? = some '\r' then line.dropLast else line

/-- The lines of a text. What stands behind the last newline is a line only if it is not empty. -/
def lines (text : Text) : List Text :=
  let pieces := Text.pieces '\n' text
  pieces.dropLast.map endedLine ++ (pieces.getLast?.filter (· ≠ [])).toList

end Files

end StageScript
