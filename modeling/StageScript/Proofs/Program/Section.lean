import StageScript.Program.Bytecode
import StageScript.Proofs.Program.Reading

/-! # Sections read back
What the reading steps of a bytecode file give where the bytes of an item stand in front of any others.
* **`Bytecode.Reads`** — a reading step takes exactly the bytes of an item and gives its value;
* **`Bytecode.flatMap_runs`**, **`Bytecode.isRun_of_mem_runs`** — words are cut into short runs of
  one kind, and nothing is lost;
* **`Bytecode.reads_sectionBytes`**, **`Bytecode.reads_readEntries`** — the two kinds of sections. -/

namespace StageScript

namespace Bytecode

/-! ## Reading steps -/

/-- **The step takes exactly the bytes and gives the value**, whatever stands behind them. -/
def Reads {α : Type} (read : Reader α) (bytes : List UInt8) (value : α) : Prop :=
  ∀ position rest, read ⟨position, bytes ++ rest⟩ = .ok (value, ⟨position + bytes.length, rest⟩)

namespace Reads

variable {α β : Type}

theorem pure (value : α) : Reads (pure value) [] value := fun _ _ => rfl

/-- What follows a step begins behind the bytes that it takes. -/
theorem bind_apply {read : Reader α} {bytes : List UInt8} {a : α} (h : Reads read bytes a)
    (next : α → Reader β) (position : Nat) (rest : List UInt8) :
    (read >>= next) ⟨position, bytes ++ rest⟩ = next a ⟨position + bytes.length, rest⟩ := by
  show (read ⟨position, bytes ++ rest⟩ >>= fun p => next p.1 p.2) = _
  rw [h]
  rfl

/-- A step and what follows it take their bytes one behind the other. -/
theorem bind {read : Reader α} {next : α → Reader β} {bytes more : List UInt8} {a : α} {b : β}
    (first : Reads read bytes a) (second : Reads (next a) more b) :
    Reads (read >>= next) (bytes ++ more) b := by
  intro position rest
  rw [List.append_assoc, first.bind_apply, second, List.length_append, Nat.add_assoc]

/-- A step that takes no bytes. -/
theorem bind_nil {read : Reader α} {next : α → Reader β} {bytes : List UInt8} {a : α} {b : β}
    (first : Reads read [] a) (second : Reads (next a) bytes b) : Reads (read >>= next) bytes b :=
  first.bind second

theorem map {read : Reader α} {bytes : List UInt8} {a : α} (h : Reads read bytes a) (f : α → β) :
    Reads (f <$> read) bytes (f a) := by
  intro position rest
  show (read ⟨position, bytes ++ rest⟩ >>= fun p => Pure.pure (f p.1, p.2)) = _
  rw [h]
  rfl

end Reads

theorem toNat_byte (n : Nat) : (byte n).toNat = n % 0x100 := UInt8.toNat_ofNat'

theorem reads_readByte (b : UInt8) : Reads readByte [b] b := fun _ _ => rfl

/-- A 16-bit integer comes back. -/
theorem reads_readHalf {n : Nat} (h : n < 0x10000) : Reads readHalf (halfBytes n) n := by
  intro position rest
  have value : (byte n).toNat + (byte (n / 0x100)).toNat * 0x100 = n := by
    rw [toNat_byte, toNat_byte]
    omega
  show Except.ok (_, _) = _
  rw [value]
  rfl

/-- A 32-bit integer comes back. -/
theorem reads_readWord (w : Word) : Reads readWord (wordBytes w) w := by
  intro position rest
  have small := w.toUInt32.toNat_lt
  have value : (byte w.toUInt32.toNat).toNat + (byte (w.toUInt32.toNat / 0x100)).toNat * 0x100 +
      (byte (w.toUInt32.toNat / 0x10000)).toNat * 0x10000 +
      (byte (w.toUInt32.toNat / 0x1000000)).toNat * 0x1000000 = w.toUInt32.toNat := by
    simp only [toNat_byte]
    omega
  have back : Word.ofNat w.toUInt32.toNat = w := by
    show (UInt32.ofNat w.toUInt32.toNat).toInt32 = w
    rw [UInt32.ofNat_toNat, Int32.toInt32_toUInt32]
  show Except.ok (Word.ofNat _, _) = _
  rw [value, back]
  rfl

/-- Values that stand one behind the other are read one behind the other. -/
theorem reads_readInto {α : Type} {read : Reader α} {write : α → List UInt8} {values : List α}
    (each : ∀ a ∈ values, Reads read (write a) a) (done : List α) :
    Reads (readInto read values.length done) (values.flatMap write) (values.reverse ++ done) := by
  induction values generalizing done with
  | nil => exact Reads.pure done
  | cons a values ih =>
    have rest := ih (fun b member => each b (List.mem_cons_of_mem _ member)) (a :: done)
    rw [List.flatMap_cons, List.reverse_cons, List.append_assoc, List.singleton_append]
    exact (each a List.mem_cons_self).bind rest

theorem reads_readMany {α : Type} {read : Reader α} {write : α → List UInt8} {values : List α}
    (each : ∀ a ∈ values, Reads read (write a) a) :
    Reads (readMany read values.length) (values.flatMap write) values := by
  have h := (reads_readInto each []).map List.reverse
  rwa [List.append_nil, List.reverse_reverse] at h

theorem reads_checkCount {content : String} {count limit : Nat} (h : count ≤ limit) :
    Reads (checkCount content count limit) [] () := by
  rw [checkCount, if_neg (by omega)]
  exact Reads.pure ()

/-! ## Runs -/

/-- Words are taken apart by their runs: none, or a first run and the words behind it. -/
@[elab_as_elim]
theorem runs_induction {P : List Word → Prop} (nil : P [])
    (cons : ∀ first rest, P ((first :: rest).drop (frontRun first rest).length) → P (first :: rest))
    (words : List Word) : P words :=
  cutRuns.induct (fun _ words => P words) (fun _ => nil) (fun _ first rest => cons first rest) [] words

/-- Runs that are cut off first come first. -/
theorem cutRuns_eq (words : List Word) (done : List (Bool × List Word)) :
    cutRuns done words = done.reverse ++ runs words := by
  induction words using runs_induction generalizing done with
  | nil => rw [runs, cutRuns, cutRuns, List.reverse_nil, List.append_nil]
  | cons first rest ih =>
    rw [runs, cutRuns, cutRuns, ih, ih [_]]
    simp

theorem runs_nil : runs [] = [] := by
  rw [runs, cutRuns, List.reverse_nil]

theorem runs_cons (first : Word) (rest : List Word) :
    runs (first :: rest) = (isNarrow first, frontRun first rest) ::
      runs ((first :: rest).drop (frontRun first rest).length) := by
  rw [runs, cutRuns, cutRuns_eq]
  rfl

theorem frontRun_prefix_words (first : Word) (rest : List Word) :
    frontRun first rest <+: first :: rest :=
  (List.takeWhile_prefix _).trans (List.take_prefix ..)

/-- **Nothing is lost** when words are cut into runs. -/
theorem flatMap_runs (words : List Word) : (runs words).flatMap (·.2) = words := by
  induction words using runs_induction with
  | nil => rw [runs_nil, List.flatMap_nil]
  | cons first rest ih =>
    rw [runs_cons, List.flatMap_cons, ih]
    exact List.prefix_iff_eq_append.1 (frontRun_prefix_words first rest)

/-- **The shape of a run**: some words, at most as many as the length byte can say, and all of one
kind. -/
structure IsRun (run : Bool × List Word) : Prop where
  some : run.2 ≠ []
  short : run.2.length ≤ maxRun
  same : ∀ w ∈ run.2, isNarrow w = run.1

theorem isRun_of_mem_runs {words : List Word} : ∀ run ∈ runs words, IsRun run := by
  induction words using runs_induction with
  | nil =>
    rw [runs_nil]
    exact List.forall_mem_nil _
  | cons first rest ih =>
    rw [runs_cons]
    refine List.forall_mem_cons.2 ⟨⟨?_, ?_, fun w member => ?_⟩, ih⟩
    · exact List.ne_nil_of_length_pos (length_frontRun_pos first rest)
    · exact Nat.le_trans (List.takeWhile_prefix _).length_le (List.length_take_le ..)
    · -- the run goes on as long as words are of the kind of the first
      have kept := List.all_eq_true.1 List.all_takeWhile w member
      exact beq_iff_eq.1 kept

/-! ### Words of a run -/

/-- The number that a word shows, unless it is negative. -/
theorem toNat_toUInt32 {w : Word} (h : 0 ≤ w.toInt) : (w.toUInt32.toNat : Int) = w.toInt := by
  have same : w.toInt = w.toUInt32.toBitVec.toInt := rfl
  have nat : w.toUInt32.toBitVec.toNat = w.toUInt32.toNat := rfl
  have small := w.toUInt32.toNat_lt
  rw [same, BitVec.toInt_eq_toNat_cond, nat] at h ⊢
  split at h <;> split <;> omega

/-- A word of a run of single bytes comes back. -/
theorem ofByte_lowByte {w : Word} (h : isNarrow w = true) : Word.ofByte w.lowByte = w := by
  rw [isNarrow, Bool.and_eq_true, decide_eq_true_eq, decide_eq_true_eq, Int32.le_iff_toInt_le,
    Int32.le_iff_toInt_le] at h
  have high : (0xFF : Word).toInt = 0xFF := rfl
  have shown := toNat_toUInt32 h.1
  have byte : w.toUInt32.toUInt8.toUInt32 = w.toUInt32 := by
    rw [← UInt32.toNat_inj, UInt8.toNat_toUInt32, UInt32.toNat_toUInt8]
    omega
  rw [Word.ofByte, Word.lowByte, byte, Int32.toInt32_toUInt32]

/-- The step that reads a word of a run. -/
def readItem (narrow : Bool) : Reader Word := if narrow then Word.ofByte <$> readByte else readWord

/-- The bytes of a word in a run. -/
def itemBytes (narrow : Bool) (w : Word) : List UInt8 := if narrow then [w.lowByte] else wordBytes w

theorem reads_readItem {narrow : Bool} {w : Word} (h : isNarrow w = narrow) :
    Reads (readItem narrow) (itemBytes narrow w) w := by
  cases narrow with
  | true =>
    have := (reads_readByte w.lowByte).map Word.ofByte
    rwa [ofByte_lowByte h] at this
  | false => exact reads_readWord w

/-- The length byte of a run, whose top bit is the mark of wide words. -/
def header (narrow : Bool) (length : Nat) : UInt8 := byte (if narrow then length else 0x80 + length)

theorem toNat_header {narrow : Bool} {length : Nat} (short : length ≤ maxRun) :
    (header narrow length).toNat % 0x80 = length ∧
      decide ((header narrow length).toNat < 0x80) = narrow := by
  rw [maxRun] at short
  rw [header, toNat_byte]
  cases narrow <;> simp <;> omega

theorem runBytes_eq (narrow : Bool) (words : List Word) :
    runBytes narrow words = header narrow words.length :: words.flatMap (itemBytes narrow) := by
  cases narrow with
  | true =>
    have : words.flatMap (itemBytes true) = words.map Word.lowByte := by
      simp only [List.map_eq_flatMap]
      rfl
    rw [this]
    rfl
  | false => rfl

/-! ## Sections of words -/

/-- Reading a run that is there. -/
theorem readRuns_succ (fuel count : Nat) (done : List Word) :
    readRuns (fuel + 1) (count + 1) done = (do
      let header ← readByte
      let length := min (header.toNat % 0x80) (count + 1)
      let done ← readInto (readItem (decide (header.toNat < 0x80))) length done
      readRuns fuel (count + 1 - length) done) := by
  simp only [readRuns, readItem, decide_eq_true_eq]

/-- A run that stands in front of others is read first. -/
theorem Reads.run {fuel rest : Nat} {narrow : Bool} {words done value : List Word}
    {more : List UInt8} (good : IsRun (narrow, words))
    (behind : Reads (readRuns fuel rest (words.reverse ++ done)) more value) :
    Reads (readRuns (fuel + 1) (words.length + rest) done) (runBytes narrow words ++ more)
      value := by
  have some : 0 < words.length := List.length_pos_iff.2 good.some
  obtain ⟨low, kind⟩ : (header narrow words.length).toNat % 0x80 = words.length ∧
    decide ((header narrow words.length).toNat < 0x80) = narrow := toNat_header good.short
  obtain ⟨count, total⟩ : ∃ n, words.length + rest = n + 1 :=
    ⟨words.length + rest - 1, by omega⟩
  have whole : min ((header narrow words.length).toNat % 0x80) (count + 1) = words.length := by
    omega
  have each : Reads (readInto (readItem narrow) words.length done) _ _ :=
    reads_readInto (fun w member => reads_readItem (good.same w member)) done
  rw [total, readRuns_succ, runBytes_eq, ← List.singleton_append, List.append_assoc]
  refine (reads_readByte _).bind ?_
  dsimp only
  rw [whole, kind]
  refine each.bind ?_
  rwa [show count + 1 - words.length = rest by omega]

/-- **Runs are read back** as long as the fuel allows for each of them. -/
theorem reads_readRuns {fuel : Nat} {rs : List (Bool × List Word)} (good : ∀ run ∈ rs, IsRun run)
    (enough : rs.length < fuel) (done : List Word) :
    Reads (readRuns fuel (rs.flatMap (·.2)).length done)
      (rs.flatMap fun (narrow, run) => runBytes narrow run)
      ((rs.flatMap (·.2)).reverse ++ done) := by
  induction rs generalizing fuel done with
  | nil =>
    obtain ⟨fuel, rfl⟩ : ∃ f, fuel = f + 1 := ⟨fuel - 1, by simp at enough; omega⟩
    exact Reads.pure done
  | cons run rs ih =>
    obtain ⟨fuel, rfl⟩ : ∃ f, fuel = f + 1 := ⟨fuel - 1, by simp at enough; omega⟩
    have fewer : rs.length < fuel := by simpa using enough
    have behind := ih (fun run member => good run (List.mem_cons_of_mem _ member)) fewer
      (run.2.reverse ++ done)
    rw [List.flatMap_cons, List.flatMap_cons, List.length_append, List.reverse_append,
      List.append_assoc]
    exact behind.run (good run List.mem_cons_self)

/-- Items that take a byte at least are no more than the bytes. -/
theorem length_le_length_flatMap {α : Type} {write : α → List UInt8}
    (some : ∀ a, 0 < (write a).length) (values : List α) :
    values.length ≤ (values.flatMap write).length := by
  induction values with
  | nil => exact Nat.le_refl _
  | cons a values ih =>
    have := some a
    rw [List.flatMap_cons, List.length_append, List.length_cons]
    omega

theorem length_runBytes_pos (run : Bool × List Word) : 0 < (runBytes run.1 run.2).length := by
  rw [runBytes_eq]
  exact Nat.succ_pos _

/-- **A section of words is read back.** -/
theorem reads_sectionBytes {content : String} {limit : Nat} {words : List Word}
    (fits : words.length ≤ limit) (small : words.length < 0x80000000) :
    Reads (readSection content limit) (sectionBytes words) words := by
  have count : Reads (readCount content limit) (wordBytes (Word.ofNat words.length))
      words.length := by
    rw [← List.append_nil (wordBytes _)]
    refine (reads_readWord _).bind ?_
    rw [Word.index?_ofNat small, Option.getD_some]
    exact (reads_checkCount fits).bind_nil (Reads.pure _)
  refine count.bind fun position rest => ?_
  -- the runs are read with as much fuel as bytes are left
  have enough : (runs words).length < ((runs words).flatMap fun (narrow, run) =>
      runBytes narrow run).length + rest.length + 1 :=
    have some := length_le_length_flatMap length_runBytes_pos (runs words)
    Nat.lt_succ_of_le (Nat.le_trans some (Nat.le_add_right ..))
  have read := (reads_readRuns isRun_of_mem_runs enough []).map List.reverse
  rw [List.append_nil, List.reverse_reverse, flatMap_runs] at read
  rw [← read position rest, ← List.length_append]
  rfl

/-! ## Sections of entry points -/

/-- What a file keeps of an entry point: one at the offset for missing bodies is taken for none. -/
def kept (entry : Option EntryPoint) : Option EntryPoint := entry.filter fun e => e.code ≠ 0x3FFFF

/-- Elsewhere it keeps the entry point. -/
theorem kept_eq {entry : Option EntryPoint} (h : ∀ e ∈ entry, e.code ≠ 0x3FFFF) : kept entry = entry := by
  cases entry with
  | none => rfl
  | some e => simp [kept, h e rfl]

theorem ofNat_eq_noEntry_iff {n : Nat} (small : n < 0x80000000) :
    Word.ofNat n = noEntry ↔ n = 0x3FFFF := by
  rw [← Int32.toInt_inj, Word.toInt_ofNat small]
  show (n : Int) = 0x3FFFF ↔ n = 0x3FFFF
  omega

/-- An entry point comes back from its two offsets, as far as it is kept. -/
theorem entryOf_pointers {entry : Option EntryPoint}
    (small : ∀ e ∈ entry, e.code < 0x80000000 ∧ e.jump < 0x80000000) :
    entryOf (codePointer entry) (jumpPointer entry) = kept entry := by
  cases entry with
  | none => rfl
  | some e =>
    obtain ⟨code, jump⟩ := small e rfl
    simp only [codePointer, jumpPointer, Option.elim_some, entryOf, kept, Option.filter_some,
      ofNat_eq_noEntry_iff code, Word.index?_ofNat code, Word.index?_ofNat jump]
    split <;> simp_all

/-- The pointers of entry points are read back. -/
theorem reads_pointers (entries : List (Option EntryPoint)) (pointer : Option EntryPoint → Word) :
    Reads (readMany readWord entries.length) (entries.flatMap fun e => wordBytes (pointer e))
      (entries.map pointer) := by
  have each : ∀ w ∈ entries.map pointer, Reads readWord (wordBytes w) w :=
    fun w _ => reads_readWord w
  have all := reads_readMany each
  rwa [List.length_map, List.flatMap_map] at all

/-- The code offsets of entry points are read first, and their jump offsets behind them. -/
theorem reads_readEntries_zip (entries : List (Option EntryPoint)) :
    Reads (readEntries entries.length)
      (entries.flatMap (fun e => wordBytes (codePointer e))
        ++ entries.flatMap fun e => wordBytes (jumpPointer e))
      ((entries.map codePointer).zipWith entryOf (entries.map jumpPointer)) := by
  refine (reads_pointers entries codePointer).bind ?_
  rw [← List.append_nil (entries.flatMap fun e => wordBytes (jumpPointer e))]
  exact (reads_pointers entries jumpPointer).bind (Reads.pure _)

/-- **Entry points are read back**, as far as they are kept. -/
theorem reads_readEntries {entries : List (Option EntryPoint)}
    (small : ∀ entry ∈ entries, ∀ e ∈ entry, e.code < 0x80000000 ∧ e.jump < 0x80000000) :
    Reads (readEntries entries.length)
      (entries.flatMap (fun e => wordBytes (codePointer e))
        ++ entries.flatMap fun e => wordBytes (jumpPointer e))
      (entries.map kept) := by
  have paired : (entries.map codePointer).zipWith entryOf (entries.map jumpPointer) =
      entries.map kept := by
    rw [List.zipWith_map, List.zipWith_self]
    exact List.map_congr_left fun entry member => entryOf_pointers (small entry member)
  rw [← paired]
  exact reads_readEntries_zip entries

end Bytecode

end StageScript
