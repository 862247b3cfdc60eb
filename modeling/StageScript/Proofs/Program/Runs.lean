import StageScript.Proofs.Program.Format

/-! # Words written in runs
Many run blocks say the same words. The ones that are written have no empty block and no word that is
written wider than it needs, and reading takes them up to their last byte.
* **`Bytecode.Written`** — the run blocks in the form in which they are written;
* **`Bytecode.written_runs`** — this is what cutting words into runs gives;
* **`Bytecode.readWords_written`** — words of any number are read back, whatever stands behind them. -/

namespace StageScript

namespace Bytecode

/-- A word that a single byte can hold. -/
def FitsByte (w : Word) : Prop := 0 ≤ w.toInt ∧ w.toInt ≤ 0xFF

/-- **Run blocks as they are written.** A block has from 1 to 127 words. Either each of them fits into a byte
and is written as one, behind the number of words; or none of them does, and they are written as 32-bit
integers behind that number with the top bit set. -/
inductive Written : List UInt8 → List Word → Prop
  | nil : Written [] []
  | narrow {back : List UInt8} {words rest : List Word} (some : 1 ≤ words.length) (short : words.length ≤ 127)
      (kind : ∀ w ∈ words, FitsByte w) (behind : Written back rest) :
      Written (byte words.length :: words.map Word.lowByte ++ back) (words ++ rest)
  | wide {back : List UInt8} {words rest : List Word} (some : 1 ≤ words.length) (short : words.length ≤ 127)
      (kind : ∀ w ∈ words, ¬ FitsByte w) (behind : Written back rest) :
      Written (byte (0x80 + words.length) :: words.flatMap wordBytes ++ back) (words ++ rest)

theorem isNarrow_iff {w : Word} : isNarrow w = true ↔ FitsByte w := by
  rw [isNarrow, Bool.and_eq_true, decide_eq_true_eq, decide_eq_true_eq, Int32.le_iff_toInt_le,
    Int32.le_iff_toInt_le]
  rfl

variable {narrow : Bool} {words rest : List Word} {bytes back : List UInt8}

/-- A run in front of blocks. -/
theorem Written.run (first : IsRun (narrow, words)) (behind : Written back rest) :
    Written (runBytes narrow words ++ back) (words ++ rest) := by
  have some : 1 ≤ words.length := List.length_pos_iff.2 first.some
  cases narrow with
  | true => exact .narrow some first.short (fun w member => isNarrow_iff.1 (first.same w member)) behind
  | false =>
    refine .wide some first.short (fun w member fits => ?_) behind
    exact Bool.false_ne_true ((first.same w member).symm.trans (isNarrow_iff.2 fits))

theorem written_of_isRun {rs : List (Bool × List Word)} (good : ∀ run ∈ rs, IsRun run) :
    Written (rs.flatMap fun (narrow, run) => runBytes narrow run) (rs.flatMap (·.2)) := by
  induction rs with
  | nil => exact .nil
  | cons run rs ih =>
    rw [List.flatMap_cons, List.flatMap_cons]
    exact .run (good run List.mem_cons_self) (ih fun run member => good run (List.mem_cons_of_mem _ member))

/-- **Words are written** by cutting them into runs. -/
theorem written_runs (words : List Word) :
    Written ((runs words).flatMap fun (narrow, run) => runBytes narrow run) words := by
  have all := written_of_isRun (@isRun_of_mem_runs words)
  rwa [flatMap_runs] at all

/-- A run in front of blocks that are read. -/
theorem IsRun.isRuns (first : IsRun (narrow, words)) (behind : IsRuns back rest) :
    IsRuns (runBytes narrow words ++ back) (words ++ rest) := by
  obtain ⟨low, kind⟩ := @toNat_header narrow _ first.short
  refine .cons ⟨header narrow words.length, ?_, fun w member marked => ?_, ?_⟩ ?_ behind
  · dsimp only at low
    rw [low, List.length_append]
    exact (Nat.min_eq_left (Nat.le_add_right ..)).symm
  · rw [first.same w member, ← kind]
    exact marked
  · rw [kind]
    exact runBytes_eq narrow words
  · exact List.append_ne_nil_of_left_ne_nil first.some rest

/-- **What is written can be read.** -/
theorem Written.isRuns (h : Written bytes words) : IsRuns bytes words := by
  induction h with
  | nil => exact .nil
  | narrow some short kind _ ih =>
    have first : IsRun (true, _) :=
      ⟨List.ne_nil_of_length_pos some, short, fun w member => isNarrow_iff.2 (kind w member)⟩
    exact first.isRuns ih
  | wide some short kind _ ih =>
    have first : IsRun (false, _) := ⟨List.ne_nil_of_length_pos some, short,
      fun w member => Bool.eq_false_iff.2 fun fits => kind w member (isNarrow_iff.1 fits)⟩
    exact first.isRuns ih

/-- The four bytes of a count, the low byte first. -/
theorem wordBytes_ofNat (n : Nat) :
    wordBytes (Word.ofNat n) = [byte n, byte (n / 0x100), byte (n / 0x10000), byte (n / 0x1000000)] := by
  have value : (Word.ofNat n).toUInt32.toNat = n % 2 ^ 32 := UInt32.toNat_ofNat'
  simp only [wordBytes, value, List.cons.injEq, and_true, ← UInt8.toNat_inj, toNat_byte]
  omega

/-- **Words come back.** Whatever words there are, and however many, their section is their number in four
bytes and run blocks in the form in which they are written. Reading so many words takes these blocks up to
their last byte and gives the words, wherever the blocks stand and whatever stands behind them. -/
theorem readWords_written (words : List Word) :
    ∃ blocks, Written blocks words ∧
      sectionBytes words = [byte words.length, byte (words.length / 0x100), byte (words.length / 0x10000),
        byte (words.length / 0x1000000)] ++ blocks ∧
      ∀ position rest, readWords words.length ⟨position, blocks ++ rest⟩ =
        .ok (words, ⟨position + blocks.length, rest⟩) := by
  have written := written_runs words
  -- nothing bounds the number of words: reading is told it, not the four bytes, which may be too few
  refine ⟨_, written, ?_, fun position rest => ?_⟩
  · rw [sectionBytes, wordBytes_ofNat]
  · -- what is written is one of the forms that can be read
    exact (parses_readWords words.length _).found _ words rest ⟨rfl, written.isRuns⟩ rfl

end Bytecode

end StageScript
