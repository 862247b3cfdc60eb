import StageScript.Text.Utf8
import StageScript.Word

/-! # Packed text
Compiled code holds a text as its bytes, four to a word with the first byte on top, closed by a
quote and filled up with zero bytes.
* `PackedText.pack` writes the words and `PackedText.wordCount` says how many they are;
* `PackedText.unpack` reads a text of a given number of bytes back. -/

namespace StageScript

namespace PackedText

/-- How many words a text of so many bytes takes. -/
def wordCount (length : Nat) : Nat := length / 4 + 1

/-- Four bytes as one word, the first on top. -/
def word (a b c d : UInt8) : Word :=
  (a.toUInt32 <<< 24 ||| b.toUInt32 <<< 16 ||| c.toUInt32 <<< 8 ||| d.toUInt32).toInt32

/-- The four bytes of a word, the topmost first. -/
def bytes (w : Word) : List UInt8 :=
  let u := w.toUInt32
  [(u >>> 24).toUInt8, (u >>> 16).toUInt8, (u >>> 8).toUInt8, u.toUInt8]

/-- Bytes in words, the last word filled up with zeros. -/
def packBytes : List UInt8 → List Word
  | a :: b :: c :: d :: rest => word a b c d :: packBytes rest
  | [a, b, c] => [word a b c 0]
  | [a, b] => [word a b 0 0]
  | [a] => [word a 0 0 0]
  | [] => []

/-- The words of a text with its closing quote. -/
def pack (text : Text) : List Word := packBytes (Utf8.encode text ++ Utf8.encode ['"'])

/-- The text in the first `length` bytes of some words. -/
def unpack (words : List Word) (length : Nat) : Text :=
  Utf8.decodeLossy ((words.flatMap bytes).take length)

end PackedText

end StageScript
