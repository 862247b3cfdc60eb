import StageScript.Program.Basic
import StageScript.Text.Numeral

/-! # Bytecode files
A program as bytes. All integers are little-endian.
* the code: a 32-bit count and the words in runs; then the jump table in the same form;
* the sub-scripts: a 16-bit number of types, the code offsets of the four sub-scripts of each type,
  then their jump offsets;
* the functions: a 16-bit number, the code offsets, then the jump offsets.
A run is a byte whose low seven bits are its length, and its words: as 32-bit integers if the top bit
is set, as single bytes otherwise. The offset `0x3FFFF` stands for a missing body. Names are not
kept: functions read from a file are called by their numbers.
`Bytecode.encode` writes a program and `Bytecode.decode` reads one. -/

namespace StageScript

namespace Bytecode

/-! ## Writing -/

/-- The low byte of a number. -/
def byte (n : Nat) : UInt8 := UInt8.ofNat n

/-- A 16-bit integer. -/
def halfBytes (n : Nat) : List UInt8 := [byte n, byte (n / 0x100)]

/-- A 32-bit integer. -/
def wordBytes (w : Word) : List UInt8 :=
  let n := w.toUInt32.toNat
  [byte n, byte (n / 0x100), byte (n / 0x10000), byte (n / 0x1000000)]

/-- The most words of a run. -/
def maxRun : Nat := 0x7F

/-- Whether a word fits into a run of single bytes. -/
def isNarrow (w : Word) : Bool := 0 ≤ w && w ≤ 0xFF

/-- The bytes of one run, whose words are all narrow or all wide. -/
def runBytes (narrow : Bool) (run : List Word) : List UInt8 :=
  if narrow then byte run.length :: run.map Word.lowByte
  else byte (0x80 + run.length) :: run.flatMap wordBytes

/-- The longest run at the front of some words. -/
def frontRun (first : Word) (rest : List Word) : List Word :=
  ((first :: rest).take maxRun).takeWhile fun w => isNarrow w == isNarrow first

theorem length_frontRun_pos (first : Word) (rest : List Word) :
    0 < (frontRun first rest).length := by
  simp [frontRun, maxRun]

/-- Cuts words into runs, each as long as it can be. `done` holds the runs in front of the words,
latest first. -/
def cutRuns (done : List (Bool × List Word)) : List Word → List (Bool × List Word)
  | [] => done.reverse
  | first :: rest =>
    cutRuns ((isNarrow first, frontRun first rest) :: done)
      ((first :: rest).drop (frontRun first rest).length)
termination_by words => words.length
decreasing_by
  have := length_frontRun_pos first rest
  simp only [List.length_drop, List.length_cons]
  omega

/-- Words cut into runs, each with the mark of its kind. -/
def runs (words : List Word) : List (Bool × List Word) := cutRuns [] words

/-- A counted section of words. -/
def sectionBytes (words : List Word) : List UInt8 :=
  wordBytes (Word.ofNat words.length) ++ (runs words).flatMap fun (narrow, run) => runBytes narrow run

/-- The offset that stands for a missing body. -/
def noEntry : Word := 0x3FFFF

/-- The code offset of an entry point. -/
def codePointer (entry : Option EntryPoint) : Word :=
  entry.elim noEntry fun e => Word.ofNat e.code

/-- The jump offset of an entry point. -/
def jumpPointer (entry : Option EntryPoint) : Word :=
  entry.elim noEntry fun e => Word.ofNat e.jump

/-- A counted section of entry points; each type brings four of them. -/
def entryBytes (count : Nat) (entries : List (Option EntryPoint)) : List UInt8 :=
  halfBytes count ++ entries.flatMap (fun e => wordBytes (codePointer e))
    ++ entries.flatMap fun e => wordBytes (jumpPointer e)

/-- The entry points of the registered types. -/
def typeEntries (p : Program) : List (Option EntryPoint) :=
  (p.entries.toList.take p.typeNames.size).flatMap fun entries => SubScript.all.map entries.get

/-- The bytes of a program. -/
def encode (p : Program) : List UInt8 :=
  sectionBytes p.code.toList ++ sectionBytes p.jumpTable.toList
    ++ entryBytes (min p.typeNames.size typeCapacity) (typeEntries p)
    ++ entryBytes p.functions.size (p.functions.toList.map (·.entry))

/-! ## Reading -/

/-- Why bytes are no program. -/
inductive Malformed
  /-- The bytes end inside the item that begins here. -/
  | truncated (position : Nat)
  /-- A section has more items than a program can hold. -/
  | capacity (content : String) (count limit : Nat)
  deriving DecidableEq, Repr

/-- The wording of malformed bytes. -/
def Malformed.message : Malformed → String
  | .truncated position => "bytecode truncated at byte " ++ Numeral.showNat position
  | .capacity content count limit =>
    content ++ " count " ++ Numeral.showNat count ++ " exceeds capacity " ++ Numeral.showNat limit

/-- The bytes still to be read and how many were read before them. -/
structure Cursor where
  position : Nat := 0
  rest : List UInt8

/-- A reading step: a value and the place behind it. -/
abbrev Reader := StateT Cursor (Except Malformed)

/-- Refuses to go on because the bytes end. -/
def truncated {α : Type} : Reader α := fun c => .error (.truncated c.position)

/-- Reads a byte. -/
def readByte : Reader UInt8 := fun c =>
  match c.rest with
  | b :: rest => .ok (b, ⟨c.position + 1, rest⟩)
  | [] => truncated c

/-- Reads a 16-bit integer. -/
def readHalf : Reader Nat := fun c =>
  match c.rest with
  | a :: b :: rest => .ok (a.toNat + b.toNat * 0x100, ⟨c.position + 2, rest⟩)
  | _ => truncated c

/-- Reads a 32-bit integer. -/
def readWord : Reader Word := fun c =>
  match c.rest with
  | a :: b :: d :: e :: rest =>
    let value := a.toNat + b.toNat * 0x100 + d.toNat * 0x10000 + e.toNat * 0x1000000
    .ok (Word.ofNat value, ⟨c.position + 4, rest⟩)
  | _ => truncated c

/-- Reads so many values one behind the other, in front of those in `done`, latest first. -/
def readInto {α : Type} (read : Reader α) : Nat → List α → Reader (List α)
  | 0, done => pure done
  | n + 1, done => do
    let value ← read
    readInto read n (value :: done)

/-- Reads so many values one behind the other. -/
def readMany {α : Type} (read : Reader α) (n : Nat) : Reader (List α) :=
  List.reverse <$> readInto read n []

/-- Refuses a count beyond a limit. -/
def checkCount (content : String) (count limit : Nat) : Reader Unit :=
  if count > limit then throw (.capacity content count limit) else pure ()

/-- Reads the count of a section. A negative count is taken for the greatest count there is. -/
def readCount (content : String) (limit : Nat) : Reader Nat := do
  let w ← readWord
  let count := w.index?.getD 0xFFFFFFFFFFFFFFFF
  checkCount content count limit
  return count

/-- Reads runs until so many words are there; the last run is cut off. `fuel` bounds the number of
runs, of which some may be empty. `done` holds the words read, latest first. -/
def readRuns : (fuel count : Nat) → List Word → Reader (List Word)
  | 0, _, done => pure done
  | _ + 1, 0, done => pure done
  | fuel + 1, count + 1, done => do
    let header ← readByte
    let length := min (header.toNat % 0x80) (count + 1)
    let item := if header.toNat < 0x80 then Word.ofByte <$> readByte else readWord
    let done ← readInto item length done
    readRuns fuel (count + 1 - length) done

/-- Reads a section of words. Every run takes a byte, so there are no more runs than bytes. -/
def readSection (content : String) (limit : Nat) : Reader (List Word) := do
  let count ← readCount content limit
  let c ← get
  List.reverse <$> readRuns (c.rest.length + 1) count []

/-- The entry point of a pair of offsets, none of which may be negative. -/
def entryOf (code jump : Word) : Option EntryPoint :=
  if code = noEntry then none
  else do
    let code ← code.index?
    let jump ← jump.index?
    return ⟨code, jump⟩

/-- Reads so many entry points: first their code offsets, then their jump offsets. -/
def readEntries (count : Nat) : Reader (List (Option EntryPoint)) := do
  let codes ← readMany readWord count
  let jumps ← readMany readWord count
  return codes.zipWith entryOf jumps

/-- The entry points of types from those of all their sub-scripts. -/
def groupEntries : List (Option EntryPoint) → List Entries
  | main :: playerInteraction :: draw :: startup :: rest =>
    ⟨main, playerInteraction, draw, startup⟩ :: groupEntries rest
  | _ => []

/-- The name of a function that was read from a file. -/
def functionName (index : Nat) : Text := "Function".toList ++ Numeral.ofNat index

/-- Reads the compiled contents of a program. -/
def readProgram (p : Program) : Reader Program := do
  let code ← readSection "code" codeCapacity
  let jumpTable ← readSection "jump table" jumpCapacity
  let types ← readHalf
  checkCount "script" types typeCapacity
  let entries := (groupEntries (← readEntries (types * 4))).toArray
  let functions ← readHalf
  checkCount "function" functions functionCapacity
  let bodies ← readEntries functions
  return { p with
    code := code.toArray
    jumpTable := jumpTable.toArray
    entries := Vector.ofFn fun type => entries.getD type {}
    functions := (bodies.mapIdx fun i entry => ⟨functionName i, entry⟩).toArray }

/-- Replaces everything but the type names of a program with what the bytes hold. Bytes behind the
last section are not looked at. -/
def decode (bytes : List UInt8) (p : Program) : Except Malformed Program :=
  (·.1) <$> (readProgram p).run { rest := bytes }

end Bytecode

end StageScript
