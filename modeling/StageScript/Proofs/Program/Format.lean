import StageScript.Proofs.Program.Truncation

/-! # The format of bytecode files
Which bytes are a file, what it says, and that nothing else is ever read.
* **`Bytecode.IsRuns`** — the bytes of some words as run blocks, of any lengths and kinds;
* **`Bytecode.IsFile`** — the bytes of a file with its counts, and what it says as `Contents`;
* **`Bytecode.Parses`** — a reading step takes what a format allows, finds it wherever it stands in
  front of other bytes, and is refused inside the bytes that there are;
* **`Bytecode.parses_readProgram`** — so does the whole file;
* **`Bytecode.decode_spec`** — any bytes whatsoever are refused or say a program, which comes back
  whenever it is written again. -/

namespace StageScript

/-- Positions are less than all words without a sign. -/
theorem Word.lt_of_index? {w : Word} {n : Nat} (h : w.index? = some n) : n < 0x80000000 := by
  unfold Word.index? at h
  split at h
  · cases h
  · obtain rfl := Option.some.inj h
    have := w.toInt_lt
    omega

namespace Bytecode

/-! ## What is in a file -/

/-- The bytes of one run block where so many words are still to come: a length byte, and as many words
as it says, but no more than are to come. A block may be empty, and single bytes or 32-bit integers
are as good for words that would fit into a byte. -/
def IsBlock (count : Nat) (bytes : List UInt8) (words : List Word) : Prop :=
  ∃ header : UInt8, words.length = min (header.toNat % 0x80) count ∧
    (∀ w ∈ words, decide (header.toNat < 0x80) = true → isNarrow w = true) ∧
    bytes = header :: words.flatMap (itemBytes (decide (header.toNat < 0x80)))

/-- **The bytes of words as run blocks.** There are blocks as long as there are words to come. -/
inductive IsRuns : List UInt8 → List Word → Prop
  | nil : IsRuns [] []
  | cons {front back : List UInt8} {words rest : List Word}
      (first : IsBlock (words ++ rest).length front words) (some : words ++ rest ≠ [])
      (behind : IsRuns back rest) : IsRuns (front ++ back) (words ++ rest)

/-- The bytes of a counted section of words. -/
def IsSection (limit : Nat) (bytes : List UInt8) (words : List Word) : Prop :=
  words.length ≤ limit ∧ ∃ blocks, IsRuns blocks words ∧
    bytes = wordBytes (.ofNat words.length) ++ blocks

/-- The bytes of pairs of offsets: first all code offsets, then all jump offsets. -/
def pointerBytes (pointers : List (Word × Word)) : List UInt8 :=
  (pointers.map Prod.fst).flatMap wordBytes ++ (pointers.map Prod.snd).flatMap wordBytes

/-- What a bytecode file says: its words, and the two offsets of each entry point. -/
structure Contents where
  code : List Word
  jumpTable : List Word
  /-- The number of types. -/
  typeCount : Nat
  /-- The offsets of the sub-scripts, four for each type. -/
  types : List (Word × Word)
  /-- The offsets of the functions. -/
  functions : List (Word × Word)

/-- **The bytes of a file**: its sections one behind the other, with their counts, none of which is
beyond what a program can hold. -/
structure IsFile (bytes : List UInt8) (f : Contents) : Prop where
  layout : ∃ code jumps, IsSection codeCapacity code f.code ∧ IsSection jumpCapacity jumps f.jumpTable ∧
    bytes = code ++ (jumps ++ (halfBytes f.typeCount ++ (pointerBytes f.types ++
      (halfBytes f.functions.length ++ pointerBytes f.functions))))
  types : f.typeCount ≤ typeCapacity
  each : f.types.length = f.typeCount * 4
  functions : f.functions.length ≤ functionCapacity

/-- The entry points that pairs of offsets stand for. -/
def entryPoints (pointers : List (Word × Word)) : List (Option EntryPoint) :=
  pointers.map fun pointer => entryOf pointer.1 pointer.2

/-- A program whose compiled contents are those of a file. -/
def Contents.program (f : Contents) (p : Program) : Program :=
  { p with
    code := f.code.toArray
    jumpTable := f.jumpTable.toArray
    entries := Vector.ofFn fun type => (groupEntries (entryPoints f.types)).toArray.getD type {}
    functions := ((entryPoints f.functions).mapIdx fun i entry =>
      (⟨functionName i, entry⟩ : Function)).toArray }

/-! ## Steps that read a format -/

/-- Where bytes are refused: between the place where reading begins and the place where the bytes end,
or because of a count beyond its limit. -/
def Malformed.Within (first last : Nat) : Malformed → Prop
  | .truncated place => first ≤ place ∧ place ≤ last
  | .capacity _ count limit => limit < count

theorem Malformed.Within.mono {first last first' last' : Nat} {e : Malformed}
    (h : e.Within first last) (before : first' ≤ first) (behind : last ≤ last') :
    e.Within first' last' := by
  cases e with
  | truncated place => exact ⟨Nat.le_trans before h.1, Nat.le_trans h.2 behind⟩
  | capacity content count limit => exact h

/-- **The step reads the format** at a place. -/
structure Parses {α : Type} (format : List UInt8 → α → Prop) (read : Reader α) (c : Cursor) :
    Prop where
  /-- What is taken is in the format, and stood in front of what is left. -/
  taken : ∀ a c', read c = .ok (a, c') →
    ∃ bytes, format bytes a ∧ c.rest = bytes ++ c'.rest ∧ c'.position = c.position + bytes.length
  /-- What is in the format is found, whatever stands behind it. -/
  found : ∀ bytes a more, format bytes a → c.rest = bytes ++ more →
    read c = .ok (a, ⟨c.position + bytes.length, more⟩)
  /-- What is refused is refused inside the bytes. -/
  refused : ∀ e, read c = .error e → e.Within c.position (c.position + c.rest.length)

/-- A format and one behind it, which depends on what the first one says. -/
def Then {α β : Type} (format : List UInt8 → α → Prop) (next : α → List UInt8 → β → Prop)
    (bytes : List UInt8) (b : β) : Prop :=
  ∃ front a back, format front a ∧ next a back b ∧ bytes = front ++ back

namespace Parses

variable {α β : Type} {format : List UInt8 → α → Prop} {read : Reader α} {c : Cursor}

theorem congr {format' : List UInt8 → α → Prop} (h : Parses format read c)
    (same : ∀ bytes a, format bytes a ↔ format' bytes a) : Parses format' read c := by
  have : format = format' := funext fun bytes => funext fun a => propext (same bytes a)
  exact this ▸ h

/-- Only what the step does at this place matters. -/
theorem of_eq {read' : Reader α} (h : Parses format read' c) (same : read c = read' c) :
    Parses format read c where
  taken a c' ok := h.taken a c' (same ▸ ok)
  found bytes a more here rest := same ▸ h.found bytes a more here rest
  refused e error := h.refused e (same ▸ error)

theorem pure (a : α) : Parses (fun bytes b => bytes = [] ∧ b = a) (pure a) c where
  taken := by
    intro b c' ok
    cases ok
    exact ⟨[], ⟨rfl, rfl⟩, rfl, rfl⟩
  found := by
    rintro bytes b more ⟨rfl, rfl⟩ rest
    rw [List.nil_append] at rest
    subst rest
    rfl
  refused := by
    intro e error
    cases error

/-- A step and what follows it read their formats one behind the other. -/
theorem bind {next : α → Reader β} {format' : α → List UInt8 → β → Prop} (first : Parses format read c)
    (second : ∀ a c', read c = .ok (a, c') → Parses (format' a) (next a) c') :
    Parses (Then format format') (read >>= next) c where
  taken := by
    intro b c'' ok
    obtain ⟨⟨a, c'⟩, ran, ok⟩ := Except.exists_of_bind_eq_ok ok
    obtain ⟨front, here, rest, place⟩ := first.taken a c' ran
    obtain ⟨back, there, rest', place'⟩ := (second a c' ran).taken b c'' ok
    refine ⟨front ++ back, ⟨front, a, back, here, there, rfl⟩, ?_, ?_⟩
    · rw [rest, rest', List.append_assoc]
    · rw [place', place, List.length_append, Nat.add_assoc]
  found := by
    rintro bytes b more ⟨front, a, back, here, there, rfl⟩ rest
    rw [List.append_assoc] at rest
    have ran := first.found front a _ here rest
    show (read c >>= fun p => next p.1 p.2) = _
    rw [ran, List.length_append, ← Nat.add_assoc]
    exact (second a _ ran).found back b more there rfl
  refused := by
    intro e error
    replace error : (read c >>= fun p => next p.1 p.2) = .error e := error
    cases ran : read c with
    | error e' =>
      rw [ran] at error
      cases error
      exact first.refused e ran
    | ok p =>
      rw [ran] at error
      -- the second step begins behind what the first one took, and ends where the bytes end
      obtain ⟨front, -, rest, place⟩ := first.taken p.1 p.2 ran
      refine ((second p.1 p.2 ran).refused e error).mono ?_ ?_
      · omega
      · rw [place, rest, List.length_append]
        omega

theorem map (h : Parses format read c) (f : α → β) :
    Parses (fun bytes b => ∃ a, format bytes a ∧ b = f a) (f <$> read) c := by
  rw [map_eq_pure_bind]
  refine (h.bind fun a c' _ => Parses.pure (f a)).congr fun bytes b => ?_
  constructor
  · rintro ⟨front, a, back, here, ⟨rfl, rfl⟩, rfl⟩
    exact ⟨a, by rwa [List.append_nil], rfl⟩
  · rintro ⟨a, here, rfl⟩
    exact ⟨bytes, a, [], here, ⟨rfl, rfl⟩, (List.append_nil bytes).symm⟩

end Parses

/-! ## Integers -/

theorem parses_readByte (c : Cursor) : Parses (fun bytes b => bytes = [b]) readByte c where
  taken := by
    obtain ⟨position, rest⟩ := c
    intro b c' ok
    cases rest with
    | nil => cases ok
    | cons b rest =>
      cases ok
      exact ⟨[b], rfl, rfl, rfl⟩
  found := by
    obtain ⟨position, rest⟩ := c
    rintro bytes b more rfl rfl
    exact reads_readByte b position more
  refused := by
    obtain ⟨position, rest⟩ := c
    intro e error
    cases rest with
    | nil =>
      cases error
      exact ⟨Nat.le_refl _, Nat.le_add_right ..⟩
    | cons b rest => cases error

theorem byte_of_toNat {n : Nat} {b : UInt8} (h : n % 0x100 = b.toNat) : byte n = b := by
  rw [← UInt8.toNat_inj, toNat_byte, h]

theorem halfBytes_of_bytes (a b : UInt8) : halfBytes (a.toNat + b.toNat * 0x100) = [a, b] := by
  have := a.toNat_lt
  have := b.toNat_lt
  rw [halfBytes, byte_of_toNat (b := a) (by omega), byte_of_toNat (b := b) (by omega)]

theorem wordBytes_of_bytes (a b d e : UInt8) :
    wordBytes (.ofNat (a.toNat + b.toNat * 0x100 + d.toNat * 0x10000 + e.toNat * 0x1000000)) =
      [a, b, d, e] := by
  have := a.toNat_lt
  have := b.toNat_lt
  have := d.toNat_lt
  have := e.toNat_lt
  generalize total : a.toNat + b.toNat * 0x100 + d.toNat * 0x10000 + e.toNat * 0x1000000 = n
  have same : (Word.ofNat n).toUInt32.toNat = n := by
    show (UInt32.ofNat n).toInt32.toUInt32.toNat = n
    rw [UInt32.toUInt32_toInt32, UInt32.toNat_ofNat']
    omega
  simp only [wordBytes, same]
  rw [byte_of_toNat (b := a) (by omega), byte_of_toNat (b := b) (by omega),
    byte_of_toNat (b := d) (by omega), byte_of_toNat (b := e) (by omega)]

theorem parses_readHalf (c : Cursor) :
    Parses (fun bytes n => n < 0x10000 ∧ bytes = halfBytes n) readHalf c where
  taken := by
    obtain ⟨position, rest⟩ := c
    intro n c' ok
    match rest, ok with
    | a :: b :: rest, ok =>
      cases ok
      have := a.toNat_lt
      have := b.toNat_lt
      exact ⟨[a, b], ⟨by omega, (halfBytes_of_bytes a b).symm⟩, rfl, rfl⟩
  found := by
    obtain ⟨position, rest⟩ := c
    rintro bytes n more ⟨small, rfl⟩ rfl
    exact reads_readHalf small position more
  refused := by
    obtain ⟨position, rest⟩ := c
    intro e error
    match rest, error with
    | [], error | [_], error =>
      cases error
      exact ⟨Nat.le_refl _, Nat.le_add_right ..⟩

theorem parses_readWord (c : Cursor) : Parses (fun bytes w => bytes = wordBytes w) readWord c where
  taken := by
    obtain ⟨position, rest⟩ := c
    intro w c' ok
    match rest, ok with
    | a :: b :: d :: e :: rest, ok =>
      cases ok
      exact ⟨[a, b, d, e], (wordBytes_of_bytes a b d e).symm, rfl, rfl⟩
  found := by
    obtain ⟨position, rest⟩ := c
    rintro bytes w more rfl rfl
    exact reads_readWord w position more
  refused := by
    obtain ⟨position, rest⟩ := c
    intro e error
    match rest, error with
    | [], error | [_], error | [_, _], error | [_, _, _], error =>
      cases error
      exact ⟨Nat.le_refl _, Nat.le_add_right ..⟩

theorem parses_checkCount (content : String) (count limit : Nat) (c : Cursor) :
    Parses (fun bytes (_ : Unit) => bytes = [] ∧ count ≤ limit) (checkCount content count limit) c := by
  rw [checkCount]
  by_cases beyond : count > limit
  · rw [if_pos beyond]
    constructor
    · intro _ c' ok
      cases ok
    · rintro bytes _ more ⟨-, fits⟩
      exact absurd fits (Nat.not_le_of_lt beyond)
    · intro e error
      cases error
      exact beyond
  · rw [if_neg beyond]
    refine (Parses.pure ()).congr fun bytes _ => and_congr_right fun _ => ?_
    exact iff_of_true rfl (Nat.le_of_not_lt beyond)

/-! ## Values one behind the other -/

section

variable {α : Type} {read : Reader α} {write : α → List UInt8} {ok : α → Prop}

theorem parses_readInto (each : ∀ c, Parses (fun bytes a => ok a ∧ bytes = write a) read c) (n : Nat)
    (done : List α) (c : Cursor) :
    Parses (fun bytes all => ∃ values : List α, values.length = n ∧ (∀ a ∈ values, ok a) ∧
      bytes = values.flatMap write ∧ all = values.reverse ++ done) (readInto read n done) c := by
  induction n generalizing done c with
  | zero =>
    refine (Parses.pure done).congr fun bytes all => ?_
    simp
  | succ n ih =>
    refine ((each c).bind fun a c' _ => ih (a :: done) c').congr fun bytes all => ?_
    constructor
    · rintro ⟨-, a, -, ⟨good, rfl⟩, ⟨values, rfl, all, rfl, rfl⟩, rfl⟩
      exact ⟨a :: values, rfl, List.forall_mem_cons.2 ⟨good, all⟩, rfl, by simp⟩
    · rintro ⟨values, length, all, rfl, rfl⟩
      obtain ⟨a, values, rfl⟩ := List.exists_cons_of_length_eq_add_one length
      have good := List.forall_mem_cons.1 all
      exact ⟨write a, a, values.flatMap write, ⟨good.1, rfl⟩,
        ⟨values, Nat.succ.inj length, good.2, rfl, by simp⟩, rfl⟩

theorem parses_readMany (each : ∀ c, Parses (fun bytes a => ok a ∧ bytes = write a) read c) (n : Nat)
    (c : Cursor) :
    Parses (fun bytes (values : List α) => values.length = n ∧ (∀ a ∈ values, ok a) ∧
      bytes = values.flatMap write)
      (readMany read n) c := by
  refine ((parses_readInto each n [] c).map List.reverse).congr fun bytes values => ?_
  constructor
  · rintro ⟨-, ⟨values, length, all, rfl, rfl⟩, rfl⟩
    rw [List.append_nil, List.reverse_reverse]
    exact ⟨length, all, rfl⟩
  · rintro ⟨length, all, rfl⟩
    exact ⟨_, ⟨values, length, all, rfl, rfl⟩, by simp⟩

end

/-! ## Sections of words -/

/-- The word of a byte fits into a run of single bytes. -/
theorem isNarrow_ofByte (b : UInt8) : isNarrow (.ofByte b) = true := by
  have := b.toNat_lt
  have back : (Word.ofByte b).toUInt32.toBitVec.toNat = b.toNat := by
    show (Word.ofByte b).toUInt32.toNat = b.toNat
    rw [Word.ofByte, UInt32.toUInt32_toInt32, UInt8.toNat_toUInt32]
  have shown : (Word.ofByte b).toInt = b.toNat := by
    show (Word.ofByte b).toUInt32.toBitVec.toInt = b.toNat
    rw [BitVec.toInt_eq_toNat_cond, back, if_pos (by omega)]
  rw [isNarrow, Bool.and_eq_true, decide_eq_true_eq, decide_eq_true_eq, Int32.le_iff_toInt_le,
    Int32.le_iff_toInt_le, shown]
  exact ⟨by show (0 : Int) ≤ _; omega, by show _ ≤ (0xFF : Int); omega⟩

theorem parses_readItem (narrow : Bool) (c : Cursor) :
    Parses (fun bytes w => (narrow = true → isNarrow w = true) ∧ bytes = itemBytes narrow w)
      (readItem narrow) c := by
  cases narrow with
  | false => exact (parses_readWord c).congr fun bytes w => by simp [itemBytes]
  | true =>
    refine ((parses_readByte c).map Word.ofByte).congr fun bytes w => ?_
    constructor
    · rintro ⟨b, rfl, rfl⟩
      exact ⟨fun _ => isNarrow_ofByte b, by simp [itemBytes, Word.lowByte_ofByte]⟩
    · rintro ⟨good, rfl⟩
      exact ⟨w.lowByte, rfl, (ofByte_lowByte (good rfl)).symm⟩

theorem parses_readRun (count : Nat) (done : List Word) (c : Cursor) :
    Parses (fun bytes run => ∃ words, IsBlock count bytes words ∧
      run = (words.length, words.reverse ++ done)) (readRun count done) c := by
  refine ((parses_readByte c).bind fun header c' _ =>
    (parses_readInto (parses_readItem (decide (header.toNat < 0x80))) _ done c').bind
      fun all c'' _ => Parses.pure _).congr fun bytes run => ?_
  constructor
  · rintro ⟨-, header, -, rfl, ⟨-, -, -, ⟨words, length, good, rfl, rfl⟩, ⟨rfl, rfl⟩, rfl⟩, rfl⟩
    exact ⟨words, ⟨header, length, good, by simp⟩, by rw [length]⟩
  · rintro ⟨words, ⟨header, length, good, rfl⟩, rfl⟩
    exact ⟨[header], header, _, rfl, ⟨_, _, [], ⟨words, length, good, rfl, rfl⟩,
      ⟨rfl, by rw [length]⟩, (List.append_nil _).symm⟩, rfl⟩

theorem IsRuns.eq_nil_iff {bytes : List UInt8} : IsRuns bytes [] ↔ bytes = [] := by
  constructor
  · intro h
    generalize none : ([] : List Word) = words at h
    cases h with
    | nil => rfl
    | cons first some behind => exact absurd none.symm some
  · rintro rfl
    exact .nil

/-- Words to come are those of a first block and those behind it. -/
theorem IsRuns.iff_cons {bytes : List UInt8} {words : List Word} (some : words ≠ []) :
    IsRuns bytes words ↔ ∃ front back first rest, IsBlock words.length front first ∧
      IsRuns back rest ∧ bytes = front ++ back ∧ words = first ++ rest := by
  constructor
  · intro h
    cases h with
    | nil => exact absurd rfl some
    | cons first _ behind => exact ⟨_, _, _, _, first, behind, rfl, rfl⟩
  · rintro ⟨front, back, first, rest, here, behind, rfl, rfl⟩
    exact .cons here some behind

/-- **Runs are read** as long as the fuel allows for a block for each byte: an empty block takes a byte
too. -/
theorem parses_readRuns (fuel count : Nat) (done : List Word) (c : Cursor)
    (enough : c.rest.length < fuel) :
    Parses (fun bytes all => ∃ words, words.length = count ∧ IsRuns bytes words ∧
      all = words.reverse ++ done) (readRuns fuel count done) c := by
  induction fuel generalizing count done c with
  | zero => exact absurd enough (Nat.not_lt_zero _)
  | succ fuel ih =>
    cases count with
    | zero =>
      refine (Parses.pure done).congr fun bytes all => ?_
      simp [IsRuns.eq_nil_iff]
    | succ count =>
      rw [readRuns_succ_eq_readRun]
      have first := parses_readRun (count + 1) done c
      refine (first.bind fun run c' ran => ih _ run.2 c' ?_).congr fun bytes all => ?_
      · obtain ⟨front, ⟨_, ⟨header, -, -, rfl⟩, -⟩, rest, -⟩ := first.taken run c' ran
        rw [rest, List.length_append, List.length_cons] at enough
        omega
      · constructor
        · rintro ⟨front, -, back, ⟨words, block, rfl⟩, ⟨rest, length, behind, rfl⟩, rfl⟩
          obtain ⟨header, short, -⟩ := id block
          have total : (words ++ rest).length = count + 1 := by
            rw [List.length_append, length]
            dsimp only
            omega
          have some : words ++ rest ≠ [] := List.ne_nil_of_length_pos (by omega)
          exact ⟨words ++ rest, total, .cons (total ▸ block) some behind, by simp⟩
        · rintro ⟨words, length, runs, rfl⟩
          have some : words ≠ [] := List.ne_nil_of_length_pos (by omega)
          obtain ⟨front, back, here, rest, block, behind, rfl, rfl⟩ := (IsRuns.iff_cons some).1 runs
          rw [List.length_append] at length
          refine ⟨front, _, back, ⟨here, ?_, rfl⟩, ⟨rest, ?_, behind, by simp⟩, rfl⟩
          · rwa [List.length_append, length] at block
          · dsimp only
            omega

/-- Reads so many words from runs. Every run takes a byte, so there are no more runs than bytes. -/
def readWords (count : Nat) : Reader (List Word) := do
  let c ← get
  List.reverse <$> readRuns (c.rest.length + 1) count []

/-- A section is its count and so many words. -/
theorem readSection_eq (content : String) (limit : Nat) :
    readSection content limit = readCount content limit >>= readWords := rfl

theorem parses_readWords (count : Nat) (c : Cursor) :
    Parses (fun bytes words => words.length = count ∧ IsRuns bytes words) (readWords count) c := by
  -- the fuel is the number of bytes from here on
  refine (((parses_readRuns _ count [] c (Nat.lt_succ_self _)).map List.reverse).congr
    fun bytes words => ?_).of_eq rfl
  constructor
  · rintro ⟨-, ⟨words, length, here, rfl⟩, rfl⟩
    rw [List.append_nil, List.reverse_reverse]
    exact ⟨length, here⟩
  · rintro ⟨length, here⟩
    exact ⟨_, ⟨words, length, here, rfl⟩, by simp⟩

theorem parses_readCount (content : String) {limit : Nat} (small : limit < 0x80000000) (c : Cursor) :
    Parses (fun bytes count => count ≤ limit ∧ bytes = wordBytes (.ofNat count))
      (readCount content limit) c := by
  refine ((parses_readWord c).bind fun w c' _ =>
    (parses_checkCount content (w.index?.getD 0xFFFFFFFFFFFFFFFF) limit c').bind
      fun _ c'' _ => Parses.pure _).congr fun bytes count => ?_
  constructor
  · rintro ⟨-, w, -, rfl, ⟨-, -, -, ⟨rfl, fits⟩, ⟨rfl, rfl⟩, rfl⟩, rfl⟩
    cases shown : w.index? with
    | none =>
      rw [shown] at fits
      exact absurd fits (by simp; omega)
    | some n =>
      rw [shown] at fits
      exact ⟨fits, by simp [Word.ofNat_of_index? shown]⟩
  · rintro ⟨fits, rfl⟩
    have shown : (Word.ofNat count).index?.getD 0xFFFFFFFFFFFFFFFF = count := by
      rw [Word.index?_ofNat (Nat.lt_of_le_of_lt fits small), Option.getD_some]
    exact ⟨_, .ofNat count, [], rfl, ⟨[], (), [], ⟨rfl, shown.symm ▸ fits⟩, ⟨rfl, shown.symm⟩, rfl⟩,
      (List.append_nil _).symm⟩

theorem parses_readSection (content : String) {limit : Nat} (small : limit < 0x80000000) (c : Cursor) :
    Parses (IsSection limit) (readSection content limit) c := by
  rw [readSection_eq]
  refine ((parses_readCount content small c).bind fun count c' _ => parses_readWords count c').congr
    fun bytes words => ?_
  constructor
  · rintro ⟨-, -, blocks, ⟨fits, rfl⟩, ⟨rfl, here⟩, rfl⟩
    exact ⟨fits, blocks, here, rfl⟩
  · rintro ⟨fits, blocks, here, rfl⟩
    exact ⟨_, _, blocks, ⟨fits, rfl⟩, ⟨rfl, here⟩, rfl⟩

/-! ## Entry points -/

theorem parses_readEntries (count : Nat) (c : Cursor) :
    Parses (fun bytes entries => ∃ pointers, pointers.length = count ∧ bytes = pointerBytes pointers ∧
      entries = entryPoints pointers) (readEntries count) c := by
  have words (c' : Cursor) : Parses (fun bytes words => words.length = count ∧
      bytes = words.flatMap wordBytes) (readMany readWord count) c' := by
    have each (c : Cursor) : Parses (fun bytes w => True ∧ bytes = wordBytes w) readWord c :=
      (parses_readWord c).congr fun bytes w => (iff_of_eq (true_and _)).symm
    exact (parses_readMany each count c').congr fun bytes words => by simp
  refine ((words c).bind fun codes c' _ => (words c').bind fun jumps c'' _ => Parses.pure _).congr
    fun bytes entries => ?_
  constructor
  · rintro ⟨-, codes, -, ⟨length, rfl⟩, ⟨-, jumps, -, ⟨length', rfl⟩, ⟨rfl, rfl⟩, rfl⟩, rfl⟩
    refine ⟨codes.zip jumps, ?_, ?_, ?_⟩
    · rw [List.length_zip, length, length', Nat.min_self]
    · rw [pointerBytes, List.map_fst_zip (by omega), List.map_snd_zip (by omega), List.append_nil]
    · rw [entryPoints, List.zip, List.map_zipWith]
  · rintro ⟨pointers, length, rfl, rfl⟩
    refine ⟨_, pointers.map Prod.fst, _, ⟨by simpa using length, rfl⟩, ⟨_, pointers.map Prod.snd, [],
      ⟨by simpa using length, rfl⟩, ⟨rfl, ?_⟩, (List.append_nil _).symm⟩, rfl⟩
    rw [entryPoints, List.zipWith_map, List.zipWith_self]

/-- A counted table of entry points, and what stands behind it. -/
theorem Parses.table {β : Type} {next : Nat → List (Option EntryPoint) → Reader β}
    {format : Nat → List (Option EntryPoint) → List UInt8 → β → Prop} (content : String) {limit : Nat}
    (narrow : limit < 0x10000) (all : Nat → Nat) {c : Cursor}
    (behind : ∀ n entries c', Parses (format n entries) (next n entries) c') :
    Parses (fun bytes b => ∃ n pointers back, n ≤ limit ∧ pointers.length = all n ∧
        format n (entryPoints pointers) back b ∧ bytes = halfBytes n ++ (pointerBytes pointers ++ back))
      (do
        let n ← readHalf
        checkCount content n limit
        let entries ← readEntries (all n)
        next n entries) c := by
  refine ((parses_readHalf c).bind fun n c₁ _ => (parses_checkCount content n limit c₁).bind
    fun _ c₂ _ => (parses_readEntries (all n) c₂).bind fun entries c₃ _ => behind n entries c₃).congr
    fun bytes b => ?_
  constructor
  · rintro ⟨-, n, -, ⟨-, rfl⟩, ⟨-, -, -, ⟨rfl, fits⟩, ⟨-, -, back, ⟨pointers, length, rfl, rfl⟩, later, rfl⟩,
      rfl⟩, rfl⟩
    exact ⟨n, pointers, back, fits, length, later, rfl⟩
  · rintro ⟨n, pointers, back, fits, length, later, rfl⟩
    exact ⟨_, n, _, ⟨Nat.lt_of_le_of_lt fits narrow, rfl⟩,
      ⟨[], (), _, ⟨rfl, fits⟩, ⟨_, _, back, ⟨pointers, length, rfl, rfl⟩, later, rfl⟩, rfl⟩, rfl⟩

/-! ## Files -/

/-- **A file is read as what it says**, and nothing else is. -/
theorem parses_readProgram (p : Program) (c : Cursor) :
    Parses (fun bytes q => ∃ f, IsFile bytes f ∧ q = f.program p) (readProgram p) c := by
  refine ((parses_readSection "code" (by decide) c).bind fun code c₁ _ =>
    (parses_readSection "jump table" (by decide) c₁).bind fun jumpTable c₂ _ =>
    Parses.table "script" (by decide) (· * 4) fun typeCount types c₃ =>
    Parses.table "function" (by decide) id fun count bodies c₄ => Parses.pure _).congr
    fun bytes q => ?_
  constructor
  · rintro ⟨front, code, -, first, ⟨middle, jumpTable, -, second, ⟨typeCount, types, -, few, each,
      ⟨-, functions, -, room, rfl, ⟨rfl, rfl⟩, rfl⟩, rfl⟩, rfl⟩, rfl⟩
    refine ⟨⟨code, jumpTable, typeCount, types, functions⟩, ⟨⟨front, middle, first, second, ?_⟩, few, each,
      room⟩, rfl⟩
    rw [List.append_nil]
  · rintro ⟨⟨code, jumpTable, typeCount, types, functions⟩,
      ⟨⟨front, middle, first, second, rfl⟩, few, each, room⟩, rfl⟩
    exact ⟨front, code, _, first, ⟨middle, jumpTable, _, second, ⟨typeCount, types, _, few, each,
      ⟨functions.length, functions, [], room, rfl, ⟨rfl, rfl⟩, rfl⟩, rfl⟩, rfl⟩, by rw [List.append_nil]⟩

/-! ### What is read -/

/-- **The program holds what a file says**, under the type names of another program. -/
structure Contents.In (f : Contents) (p q : Program) : Prop where
  code : q.code.toList = f.code
  jumpTable : q.jumpTable.toList = f.jumpTable
  /-- There are entry points for all types, and the types behind those of the file have none. -/
  types : q.entries.toList.length = typeCapacity ∧ ∀ type sub, q.entryPoint? type sub =
    (entryPoints f.types)[type * 4 + SubScript.all.idxOf sub]?.getD none
  /-- The functions are called by their numbers. -/
  functions : q.functions.toList = (entryPoints f.functions).mapIdx fun i entry =>
    (⟨functionName i, entry⟩ : Function)
  typeNames : q.typeNames = p.typeNames

/-- Four entry points each belong to a type. -/
theorem get_groupEntries {n : Nat} {entries : List (Option EntryPoint)}
    (length : entries.length = n * 4) (type : Nat) (sub : SubScript) :
    ((groupEntries entries)[type]?.getD {}).get sub =
      entries[type * 4 + SubScript.all.idxOf sub]?.getD none := by
  induction n generalizing entries type with
  | zero =>
    obtain rfl := List.eq_nil_of_length_eq_zero (length.trans (Nat.zero_mul 4))
    cases sub <;> rfl
  | succ n ih =>
    replace length : entries.length = n * 4 + 3 + 1 := length.trans (Nat.add_mul n 1 4)
    obtain ⟨main, entries, rfl⟩ := List.exists_cons_of_length_eq_add_one length
    obtain ⟨playerInteraction, entries, rfl⟩ :=
      List.exists_cons_of_length_eq_add_one (Nat.succ.inj length)
    obtain ⟨draw, entries, rfl⟩ :=
      List.exists_cons_of_length_eq_add_one (Nat.succ.inj (Nat.succ.inj length))
    obtain ⟨startup, entries, rfl⟩ :=
      List.exists_cons_of_length_eq_add_one (Nat.succ.inj (Nat.succ.inj (Nat.succ.inj length)))
    cases type with
    | zero => cases sub <;> rfl
    | succ type =>
      rw [Nat.add_mul, Nat.add_right_comm]
      exact ih (Nat.add_right_cancel (m := 4) length) type

theorem length_entryPoints (pointers : List (Word × Word)) :
    (entryPoints pointers).length = pointers.length := List.length_map _

variable {f : Contents} {bytes : List UInt8}

theorem IsFile.program_in (file : IsFile bytes f) (p : Program) : f.In p (f.program p) where
  code := rfl
  jumpTable := rfl
  types := by
    refine ⟨Vector.length_toList, fun type sub => ?_⟩
    by_cases inside : type < typeCapacity
    · have grouped := get_groupEntries ((length_entryPoints f.types).trans file.each) type sub
      rw [Program.entryPoint?, Contents.program, Vector.getElem?_eq_getElem inside, Vector.getElem_ofFn,
        Option.bind_some, Array.getD_eq_getD_getElem?, List.getElem?_toArray]
      exact grouped
    · have outside (entries : Vector Entries typeCapacity) : entries[type]? = none :=
        Vector.getElem?_eq_none (by omega)
      have few := file.types
      have each := file.each
      have none : (entryPoints f.types)[type * 4 + SubScript.all.idxOf sub]? = none :=
        List.getElem?_eq_none (by rw [length_entryPoints]; omega)
      rw [Program.entryPoint?, outside, none]
      rfl
  functions := rfl
  typeNames := rfl

/-! ### Files written again -/

/-- What an entry point from a file is: never at the offset for missing bodies, and never too far off to be
written. -/
theorem of_mem_entryOf (code jump : Word) : ∀ e ∈ entryOf code jump,
    e.code ≠ 0x3FFFF ∧ e.code < 0x80000000 ∧ e.jump < 0x80000000 := by
  intro e found
  rw [entryOf] at found
  split at found
  · cases found
  · next missing =>
    obtain ⟨n, here, found⟩ := Option.bind_eq_some_iff.1 found
    obtain ⟨k, there, found⟩ := Option.bind_eq_some_iff.1 found
    cases found
    refine ⟨fun same => missing ?_, Word.lt_of_index? here, Word.lt_of_index? there⟩
    rw [← Word.ofNat_of_index? here, show n = 0x3FFFF from same]
    rfl

/-- So are the entry points that pairs of offsets stand for. -/
theorem of_mem_entryPoints {pointers : List (Word × Word)} : ∀ entry ∈ entryPoints pointers, ∀ e ∈ entry,
    e.code ≠ 0x3FFFF ∧ e.code < 0x80000000 ∧ e.jump < 0x80000000 := by
  intro entry member
  obtain ⟨pointer, -, rfl⟩ := List.mem_map.1 member
  exact of_mem_entryOf pointer.1 pointer.2

/-- The entry points of types are all that their table holds. -/
theorem entries_ext {p q : Program} (h : ∀ type sub, p.entryPoint? type sub = q.entryPoint? type sub) :
    p.entries = q.entries := by
  apply Vector.ext
  intro type inside
  have same (sub : SubScript) : p.entries[type].get sub = q.entries[type].get sub := by
    have := h type sub
    rwa [Program.entryPoint?, Program.entryPoint?, Vector.getElem?_eq_getElem inside,
      Vector.getElem?_eq_getElem inside] at this
  have main := same .main
  have playerInteraction := same .playerInteraction
  have draw := same .draw
  have startup := same .startup
  simp only [Entries.get] at main playerInteraction draw startup
  cases eq : p.entries[type]
  cases eq' : q.entries[type]
  simp_all

section

variable {p q : Program}

theorem Contents.In.exists_entry (held : f.In p q) {type : Nat} {sub : SubScript} {e : EntryPoint}
    (found : e ∈ q.entryPoint? type sub) :
    (entryPoints f.types)[type * 4 + SubScript.all.idxOf sub]? = some (some e) := by
  rw [held.types.2] at found
  cases here : (entryPoints f.types)[type * 4 + SubScript.all.idxOf sub]? with
  | none =>
    rw [here] at found
    cases found
  | some entry =>
    rw [here] at found
    exact congrArg some found

theorem Contents.In.entry (held : f.In p q) : ∀ type sub, ∀ e ∈ q.entryPoint? type sub,
    e.code ≠ 0x3FFFF ∧ e.code < 0x80000000 ∧ e.jump < 0x80000000 := by
  intro type sub e found
  exact of_mem_entryPoints _ (List.mem_of_getElem? (held.exists_entry found)) e rfl

theorem Contents.In.function (held : f.In p q) : ∀ body ∈ q.functions, ∀ e ∈ body.entry,
    e.code ≠ 0x3FFFF ∧ e.code < 0x80000000 ∧ e.jump < 0x80000000 := by
  intro body member
  rw [← Array.mem_toList_iff, held.functions] at member
  obtain ⟨i, inside, rfl⟩ := List.mem_mapIdx.1 member
  exact of_mem_entryPoints _ (List.getElem_mem inside)

/-- Only the types of a file have entry points. -/
theorem Contents.In.lt_typeCount (held : f.In p q) (file : IsFile bytes f) {type : Nat} {sub : SubScript}
    {e : EntryPoint} (found : e ∈ q.entryPoint? type sub) : type < f.typeCount := by
  obtain ⟨inside, -⟩ := List.getElem?_eq_some_iff.1 (held.exists_entry found)
  rw [length_entryPoints, file.each] at inside
  omega

/-- **What was read from a file is the same when it is written and read again**, if there are names for
all of the types. -/
theorem IsFile.reread_eq (file : IsFile bytes f) (held : f.In p q)
    (named : f.typeCount ≤ p.typeNames.size) : reread q q = q := by
  have registered : ∀ type sub, ∀ e ∈ q.entryPoint? type sub, type < q.typeNames.size := by
    intro type sub e found
    rw [held.typeNames]
    exact Nat.lt_of_lt_of_le (held.lt_typeCount file found) named
  have entries : (reread q q).entries = q.entries := by
    refine entries_ext fun type sub => ?_
    rw [entryPoint?_reread q registered]
    exact kept_eq fun e found => (held.entry type sub e found).1
  have functions : (reread q q).functions = q.functions := by
    apply Array.toList_inj.1
    have all : (q.functions.toList.map fun body => kept body.entry) = q.functions.toList.map (·.entry) :=
      List.map_congr_left fun body member => kept_eq fun e found =>
        (held.function body (Array.mem_toList_iff.1 member) e found).1
    rw [reread, all, held.functions, map_entry_named]
  calc reread q q = { q with entries := (reread q q).entries, functions := (reread q q).functions } := rfl
    _ = q := by rw [entries, functions]

theorem IsFile.decode_encoded (file : IsFile bytes f) (held : f.In p q)
    (named : f.typeCount ≤ p.typeNames.size) (more : List UInt8) :
    decode (encode q ++ more) q = .ok q := by
  obtain ⟨code, jumps, ⟨codeFits, -⟩, ⟨jumpsFit, -⟩, -⟩ := file.layout
  have read := reads_encode (p := q) (by rwa [← Array.length_toList, held.code])
    (by rwa [← Array.length_toList, held.jumpTable])
    (by
      rw [← Array.length_toList, held.functions, List.length_mapIdx, length_entryPoints]
      exact file.functions)
    (fun type sub e found => (held.entry type sub e found).2)
    (fun body member e found => (held.function body member e found).2) q
  rw [file.reread_eq held named] at read
  exact decode_append read more

end

/-! ### Any bytes -/

/-- An engine that is given a file takes its program. -/
theorem loadBytecode_of_read {files : Files} {path : Path} {g g' : Engine} {q : Program}
    (file : files.read path = .ok bytes)
    (registered : Engine.registerTypes g.clearScriptData = (.ok (), g'))
    (read : decode bytes g'.program = .ok q) :
    Engine.loadBytecode files path g = (.ok (), { g' with program := q }) := by
  rw [Engine.loadBytecode]
  refine (Stepwise.bind_apply_of_ok rfl).trans ?_
  refine (Stepwise.bind_apply_of_ok registered).trans ?_
  rw [file]
  dsimp only
  rw [Stepwise.bind_apply, Stepwise.get_apply]
  dsimp only
  rw [read]
  rfl

/-- **Any bytes whatsoever** are refused inside of them, none of their fronts being a file, and an engine
that was to load them keeps the program that it was to replace; or one of their fronts is a file, whatever
stands behind it is not looked at, and the program is what the file says. If there are names for all types
of the file, the program comes back when it is written and read again. -/
theorem decode_spec (bytes : List UInt8) (p : Program) :
    (∃ e, decode bytes p = .error e ∧ e.Within 0 bytes.length ∧
      (∀ front f, front <+: bytes → ¬ IsFile front f) ∧
      ∀ (files : Files) (path : Path) (g g' : Engine), files.read path = .ok bytes →
        Engine.registerTypes g.clearScriptData = (.ok (), g') → g'.program = p →
          ∃ error, Engine.loadBytecode files path g =
            (.error (.malformed e), { g' with program := p, error })) ∨
    ∃ front f q, front <+: bytes ∧ IsFile front f ∧ f.In p q ∧ decode bytes p = .ok q ∧
      (∀ more, decode (front ++ more) p = .ok q) ∧
      (f.typeCount ≤ p.typeNames.size → ∀ more, decode (encode q ++ more) q = .ok q) ∧
      ∀ (files : Files) (path : Path) (g g' : Engine), files.read path = .ok bytes →
        Engine.registerTypes g.clearScriptData = (.ok (), g') → g'.program = p →
          Engine.loadBytecode files path g = (.ok (), { g' with program := q }) := by
  have parses := parses_readProgram p ⟨0, bytes⟩
  have run (more : List UInt8) {front : List UInt8} {f : Contents} (file : IsFile front f) :
      decode (front ++ more) p = .ok (f.program p) := by
    have ran := (parses_readProgram p ⟨0, front ++ more⟩).found front _ more ⟨f, file, rfl⟩ rfl
    rw [decode, StateT.run, ran]
    rfl
  -- The reading takes a front that is a file, or it fails; `run` says that it cannot do both.
  cases ran : readProgram p ⟨0, bytes⟩ with
  | error e =>
    have refused : decode bytes p = .error e := by
      rw [decode, StateT.run, ran]
      rfl
    refine .inl ⟨e, refused, ?_, ?_, ?_⟩
    · have within := parses.refused e ran
      exact within.mono (Nat.le_refl _) (Nat.le_of_eq (Nat.zero_add _))
    · rintro front f ⟨more, rfl⟩ file
      rw [run more file] at refused
      cases refused
    · rintro files path g g' file registered rfl
      exact ⟨_, loadBytecode_of_refused file registered refused⟩
  | ok read =>
    obtain ⟨front, ⟨f, file, -⟩, here, -⟩ := parses.taken read.1 read.2 ran
    dsimp only at here
    have whole : decode bytes p = .ok (f.program p) := by
      rw [here]
      exact run _ file
    have held := file.program_in p
    refine .inr ⟨front, f, f.program p, ?_, file, held, whole, fun more => run more file, ?_, ?_⟩
    · rw [here]
      exact List.prefix_append ..
    · exact file.decode_encoded held
    · rintro files path g g' read registered rfl
      exact loadBytecode_of_read read registered whole

/-- Two words as an empty block and one that says five words. -/
example : (decode ([2, 0, 0, 0, 0, 0x85, 1, 0, 0, 0, 2, 0, 0, 0] ++ List.replicate 8 0) {}).toOption.map
    Program.code = some #[1, 2] := by
  decide +kernel

end Bytecode

end StageScript
