import StageScript.Text.Basic

/-! # UTF-8
* `Utf8.encode` writes a text as bytes and `Utf8.size` counts them;
* `Utf8.decodeLossy` reads any bytes: each longest beginning of a character that its next byte does
  not continue becomes one replacement character. -/

namespace StageScript

namespace Utf8

/-- The bytes of a text. -/
def encode (text : Text) : List UInt8 := text.flatMap String.utf8EncodeChar

/-- How many bytes a text has. -/
def size (text : Text) : Nat := text.foldl (fun n c => n + c.utf8Size) 0

/-- The character that stands for bytes which encode none. -/
def replacement : Char := '\uFFFD'

/-- What the first byte of a character announces. -/
structure Lead where
  /-- The bits of the character that the first byte holds. -/
  bits : Nat
  /-- How many bytes have to follow. -/
  following : Nat
  /-- The least value of the byte that follows next. -/
  low : UInt8 := 0x80
  /-- The greatest value of the byte that follows next. -/
  high : UInt8 := 0xBF

/-- Reads the first byte of a character. The narrower bounds on the second byte keep out overlong
forms, surrogates and values beyond the last character. -/
def lead? (b : UInt8) : Option Lead :=
  if b < 0x80 then some { bits := b.toNat, following := 0 }
  else if b < 0xC2 then none
  else if b < 0xE0 then some { bits := b.toNat % 0x20, following := 1 }
  else if b = 0xE0 then some { bits := 0, following := 2, low := 0xA0 }
  else if b = 0xED then some { bits := 0xD, following := 2, high := 0x9F }
  else if b < 0xF0 then some { bits := b.toNat % 0x10, following := 2 }
  else if b = 0xF0 then some { bits := 0, following := 3, low := 0x90 }
  else if b < 0xF4 then some { bits := b.toNat % 8, following := 3 }
  else if b = 0xF4 then some { bits := 4, following := 3, high := 0x8F }
  else none

/-- Takes the bytes that follow a first byte, as long as they fit, and gives the character's bits
if they are complete, with the bytes left over. -/
def follow : (following : Nat) → (low high : UInt8) → (bits : Nat) → List UInt8 →
    Option Nat × List UInt8
  | 0, _, _, bits, rest => (some bits, rest)
  | _ + 1, _, _, _, [] => (none, [])
  | n + 1, low, high, bits, b :: rest =>
    if low ≤ b && b ≤ high then follow n 0x80 0xBF (bits * 0x40 + b.toNat % 0x40) rest
    else (none, b :: rest)

theorem length_follow_le (n : Nat) (low high : UInt8) (bits : Nat) (bytes : List UInt8) :
    (follow n low high bits bytes).2.length ≤ bytes.length := by
  induction n generalizing low high bits bytes with
  | zero => simp [follow]
  | succ n ih =>
    cases bytes with
    | nil => simp [follow]
    | cons b rest =>
      rw [follow]
      split
      · exact Nat.le_succ_of_le (ih ..)
      · simp

/-- Takes one character, or the bytes that stand for a replacement character, off the front. -/
def take (b : UInt8) (rest : List UInt8) : Char × List UInt8 :=
  match lead? b with
  | none => (replacement, rest)
  | some lead =>
    match follow lead.following lead.low lead.high lead.bits rest with
    | (some bits, rest) => (Char.ofNat bits, rest)
    | (none, rest) => (replacement, rest)

theorem length_take_le (b : UInt8) (rest : List UInt8) : (take b rest).2.length ≤ rest.length := by
  unfold take
  split
  · exact Nat.le_refl _
  · rename_i lead _
    have h := length_follow_le lead.following lead.low lead.high lead.bits rest
    split <;> simp_all

/-- Reads bytes as text, putting a replacement character for each part that is none. -/
def decodeLossy : List UInt8 → Text
  | [] => []
  | b :: rest => (take b rest).1 :: decodeLossy (take b rest).2
termination_by bytes => bytes.length
decreasing_by exact Nat.lt_succ_of_le (length_take_le b rest)

@[simp] theorem decodeLossy_nil : decodeLossy [] = [] := by rw [decodeLossy]

end Utf8

end StageScript
