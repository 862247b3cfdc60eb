import StageScript.Engine.Load
import StageScript.Proofs.Program.File
import StageScript.Proofs.Stepwise

/-! # Files that are cut off
A file of which only the front is there is refused, wherever it was cut.
* **`Bytecode.Demands`** — a reading step is refused where its bytes end too early;
* **`Bytecode.refused_readRuns`** — so are the words of a section, whichever run is cut off;
* **`Bytecode.demands_readProgram`** — so is the whole file;
* **`Bytecode.decode_of_cut`** — and the program that should be replaced stays as it is. -/

namespace StageScript

namespace Bytecode

/-! ## Bytes that end too early -/

/-- The bytes are the front of others, and not all of them. -/
structure IsCut (front bytes : List UInt8) : Prop where
  begins : front <+: bytes
  short : front.length < bytes.length

/-- **The step needs all of the bytes**: it is refused where they end too early. -/
def Demands {α : Type} (read : Reader α) (bytes : List UInt8) : Prop :=
  ∀ front, IsCut front bytes →
    ∀ position, ∃ place, read ⟨position, front⟩ = .error (.truncated place)

/-- What is cut off ends inside the first part, or behind it inside the second. -/
theorem IsCut.cases_append {front bytes more : List UInt8} (h : IsCut front (bytes ++ more)) :
    IsCut front bytes ∨ ∃ rest, front = bytes ++ rest ∧ IsCut rest more := by
  have whole : bytes <+: bytes ++ more := List.prefix_append ..
  rcases Nat.lt_or_ge front.length bytes.length with short | long
  · exact .inl ⟨List.prefix_of_prefix_length_le h.begins whole (Nat.le_of_lt short), short⟩
  · obtain ⟨rest, rfl⟩ := List.prefix_of_prefix_length_le whole h.begins long
    have short := h.short
    rw [List.length_append, List.length_append] at short
    exact .inr ⟨rest, rfl, (List.prefix_append_right_inj bytes).1 h.begins, by omega⟩

section

variable {α β : Type} {read : Reader α} {next : α → Reader β} {bytes more : List UInt8} {a : α}

/-- What is refused has nothing behind it. -/
theorem bind_apply_of_refused {c : Cursor} {e : Malformed} (h : read c = .error e) :
    (read >>= next) c = .error e := by
  show (read c >>= fun p => next p.1 p.2) = _
  rw [h]
  rfl

theorem map_apply_of_refused {c : Cursor} {e : Malformed} (h : read c = .error e) (f : α → β) :
    (f <$> read) c = .error e := by
  rw [map_eq_pure_bind]
  exact bind_apply_of_refused h

namespace Demands

theorem nil (read : Reader α) : Demands read [] :=
  fun _ cut => absurd cut.short (Nat.not_lt_zero _)

/-- A step and what follows it need their bytes one behind the other. -/
theorem bind (first : Reads read bytes a) (cut : Demands read bytes)
    (behind : Demands (next a) more) : Demands (read >>= next) (bytes ++ more) := by
  intro front short position
  rcases short.cases_append with inside | ⟨rest, rfl, later⟩
  · obtain ⟨place, refused⟩ := cut front inside position
    exact ⟨place, bind_apply_of_refused refused⟩
  · obtain ⟨place, refused⟩ := behind rest later (position + bytes.length)
    exact ⟨place, by rw [first.bind_apply, refused]⟩

/-- A step that takes no bytes. -/
theorem bind_nil (first : Reads read [] a) (behind : Demands (next a) bytes) :
    Demands (read >>= next) bytes :=
  bind first (nil read) behind

/-- A step behind which no bytes are read. -/
theorem bind_last (first : Reads read bytes a) (cut : Demands read bytes) :
    Demands (read >>= next) bytes := by
  have all := bind first cut (nil (next a))
  rwa [List.append_nil] at all

theorem map (cut : Demands read bytes) (f : α → β) : Demands (f <$> read) bytes := by
  intro front short position
  obtain ⟨place, refused⟩ := cut front short position
  exact ⟨place, map_apply_of_refused refused f⟩

end Demands

end

/-! ## Integers -/

theorem demands_readByte (b : UInt8) : Demands readByte [b] := by
  intro front cut position
  obtain rfl := List.eq_nil_of_length_eq_zero (Nat.lt_one_iff.1 cut.short)
  exact ⟨position, rfl⟩

theorem demands_readHalf (n : Nat) : Demands readHalf (halfBytes n) := by
  intro front cut position
  have short : front.length < 2 := cut.short
  match front, short with
  | [], _ => exact ⟨position, rfl⟩
  | [_], _ => exact ⟨position, rfl⟩

theorem demands_readWord (w : Word) : Demands readWord (wordBytes w) := by
  intro front cut position
  have short : front.length < 4 := cut.short
  match front, short with
  | [], _ => exact ⟨position, rfl⟩
  | [_], _ => exact ⟨position, rfl⟩
  | [_, _], _ => exact ⟨position, rfl⟩
  | [_, _, _], _ => exact ⟨position, rfl⟩

/-! ## Values one behind the other -/

section

variable {α : Type} {read : Reader α} {write : α → List UInt8} {values : List α}

theorem demands_readInto (each : ∀ a ∈ values, Reads read (write a) a)
    (cut : ∀ a ∈ values, Demands read (write a)) (done : List α) :
    Demands (readInto read values.length done) (values.flatMap write) := by
  induction values generalizing done with
  | nil => exact Demands.nil _
  | cons a values ih =>
    rw [List.flatMap_cons]
    refine .bind (each a List.mem_cons_self) (cut a List.mem_cons_self) (ih ?_ ?_ (a :: done))
    · exact fun b member => each b (List.mem_cons_of_mem _ member)
    · exact fun b member => cut b (List.mem_cons_of_mem _ member)

theorem demands_readMany (each : ∀ a ∈ values, Reads read (write a) a)
    (cut : ∀ a ∈ values, Demands read (write a)) :
    Demands (readMany read values.length) (values.flatMap write) :=
  (demands_readInto each cut []).map List.reverse

end

/-! ## Sections of words -/

theorem demands_readItem {narrow : Bool} (w : Word) :
    Demands (readItem narrow) (itemBytes narrow w) := by
  cases narrow with
  | true => exact (demands_readByte w.lowByte).map Word.ofByte
  | false => exact demands_readWord w

/-- Reads a run, of which no more words are taken than are still to come. -/
def readRun (count : Nat) (done : List Word) : Reader (Nat × List Word) := do
  let header ← readByte
  let length := min (header.toNat % 0x80) count
  let done ← readInto (readItem (decide (header.toNat < 0x80))) length done
  return (length, done)

/-- A section is read run by run. -/
theorem readRuns_succ_eq_readRun (fuel count : Nat) (done : List Word) :
    readRuns (fuel + 1) (count + 1) done =
      readRun (count + 1) done >>= fun run => readRuns fuel (count + 1 - run.1) run.2 := by
  rw [readRuns_succ, readRun, bind_assoc]
  simp only [bind_assoc, pure_bind]

section

variable {narrow : Bool} {words : List Word} (good : IsRun (narrow, words)) {count : Nat}
  (many : words.length ≤ count) (done : List Word)

include good many

theorem reads_readRun : Reads (readRun count done) (runBytes narrow words)
    (words.length, words.reverse ++ done) := by
  obtain ⟨low, kind⟩ := @toNat_header narrow _ good.short
  have each := fun w member => reads_readItem (good.same w member)
  rw [runBytes_eq, ← List.singleton_append, ← List.append_nil (words.flatMap _)]
  refine (reads_readByte _).bind ?_
  dsimp only
  rw [low, kind, Nat.min_eq_left many]
  exact (reads_readInto each done).bind (Reads.pure _)

theorem demands_readRun : Demands (readRun count done) (runBytes narrow words) := by
  obtain ⟨low, kind⟩ := @toNat_header narrow _ good.short
  have each := fun w member => reads_readItem (good.same w member)
  rw [runBytes_eq, ← List.singleton_append]
  refine .bind (reads_readByte _) (demands_readByte _) ?_
  dsimp only
  rw [low, kind, Nat.min_eq_left many]
  exact .bind_last (reads_readInto each done)
    (demands_readInto each (fun w _ => demands_readItem w) done)

end

/-- **Runs that are cut off are refused.** The fuel does not run out before, since every run takes a
byte. -/
theorem refused_readRuns {fuel : Nat} {rs : List (Bool × List Word)} (good : ∀ run ∈ rs, IsRun run)
    {front : List UInt8} (cut : IsCut front (rs.flatMap fun (narrow, run) => runBytes narrow run))
    (enough : front.length < fuel) (done : List Word) (position : Nat) :
    ∃ place, readRuns fuel (rs.flatMap (·.2)).length done ⟨position, front⟩ =
      .error (.truncated place) := by
  induction rs generalizing fuel front done position with
  | nil => exact absurd cut.short (Nat.not_lt_zero _)
  | cons run rs ih =>
    obtain ⟨narrow, words⟩ := run
    obtain ⟨fuel, rfl⟩ : ∃ f, fuel = f + 1 := ⟨fuel - 1, by omega⟩
    have first : IsRun (narrow, words) := good _ List.mem_cons_self
    have some : 0 < words.length := List.length_pos_iff.2 first.some
    rw [List.flatMap_cons] at cut
    rw [List.flatMap_cons, List.length_append]
    obtain ⟨count, total⟩ : ∃ n, words.length + (rs.flatMap (·.2)).length = n + 1 :=
      ⟨words.length + (rs.flatMap (·.2)).length - 1, by omega⟩
    have many : words.length ≤ count + 1 := by omega
    rw [total, readRuns_succ_eq_readRun]
    rcases cut.cases_append with inside | ⟨rest, rfl, later⟩
    · obtain ⟨place, refused⟩ := demands_readRun first many done front inside position
      exact ⟨place, bind_apply_of_refused refused⟩
    · have long : 0 < (runBytes narrow words).length := length_runBytes_pos (narrow, words)
      rw [List.length_append] at enough
      dsimp only at enough
      rw [(reads_readRun first many done).bind_apply,
        show count + 1 - words.length = (rs.flatMap (·.2)).length by omega]
      exact ih (fun run member => good run (List.mem_cons_of_mem _ member)) later (by omega) _ _

/-- **A section of words needs all of its bytes.** -/
theorem demands_readSection {content : String} {limit : Nat} {words : List Word}
    (fits : words.length ≤ limit) (small : words.length < 0x80000000) :
    Demands (readSection content limit) (sectionBytes words) := by
  have count : (Word.ofNat words.length).index?.getD 0xFFFFFFFFFFFFFFFF = words.length := by
    rw [Word.index?_ofNat small, Option.getD_some]
  have read : Reads (readCount content limit) (wordBytes (Word.ofNat words.length))
      words.length := by
    rw [← List.append_nil (wordBytes _)]
    refine (reads_readWord _).bind ?_
    rw [count]
    exact (reads_checkCount fits).bind_nil (Reads.pure _)
  refine .bind read (.bind_last (reads_readWord _) (demands_readWord _)) ?_
  intro front cut position
  -- the runs are read with as much fuel as bytes are left
  obtain ⟨place, refused⟩ := refused_readRuns isRun_of_mem_runs cut (Nat.lt_succ_self _) []
    position
  rw [flatMap_runs] at refused
  refine ⟨place, ?_⟩
  show (List.reverse <$> readRuns (front.length + 1) words.length []) ⟨position, front⟩ = _
  exact map_apply_of_refused refused _

/-! ## Sections of entry points -/

theorem demands_pointers (entries : List (Option EntryPoint))
    (pointer : Option EntryPoint → Word) :
    Demands (readMany readWord entries.length) (entries.flatMap fun e => wordBytes (pointer e)) := by
  have all : Demands _ ((entries.map pointer).flatMap wordBytes) :=
    demands_readMany (fun w _ => reads_readWord w) fun w _ => demands_readWord w
  rwa [List.length_map, List.flatMap_map] at all

theorem demands_readEntries (entries : List (Option EntryPoint)) :
    Demands (readEntries entries.length)
      (entries.flatMap (fun e => wordBytes (codePointer e))
        ++ entries.flatMap fun e => wordBytes (jumpPointer e)) :=
  .bind (reads_pointers entries codePointer) (demands_pointers entries codePointer)
    (.bind_last (reads_pointers entries jumpPointer) (demands_pointers entries jumpPointer))

/-- A counted section of entry points needs all of its bytes, whatever its entry points are. -/
theorem demands_entryBytes {content : String} {count limit : Nat} (all : Nat → Nat)
    {entries : List (Option EntryPoint)} (fits : count ≤ limit) (narrow : count < 0x10000)
    (length : entries.length = all count) {β : Type} {next : List (Option EntryPoint) → Reader β}
    {more : List UInt8} (behind : ∀ read, Demands (next read) more) :
    Demands (do
      let n ← readHalf
      checkCount content n limit
      let read ← readEntries (all n)
      next read) (entryBytes count entries ++ more) := by
  rw [entryBytes, List.append_assoc, List.append_assoc]
  refine .bind (reads_readHalf narrow) (demands_readHalf count) (.bind_nil (reads_checkCount fits) ?_)
  rw [← length, ← List.append_assoc]
  exact .bind (reads_readEntries_zip entries) (demands_readEntries entries) (behind _)

/-! ## Files -/

variable {p : Program}

/-- **A file needs all of its bytes.** -/
theorem demands_readProgram (room : p.Roomy) (target : Program) :
    Demands (readProgram target) (encode p) := by
  have codeSmall := room.code
  have jumpSmall := room.jumpTable
  have functionsSmall := room.functions
  simp only [codeCapacity, jumpCapacity, functionCapacity] at codeSmall jumpSmall functionsSmall
  have short : min p.typeNames.size typeCapacity < 0x10000 := by
    simp only [typeCapacity]
    omega
  have words {content : String} {limit : Nat} {words : List Word} (fits : words.length ≤ limit)
      (small : words.length < 0x80000000) {β : Type} {next : List Word → Reader β}
      {more : List UInt8} (behind : Demands (next words) more) :
      Demands (readSection content limit >>= next) (sectionBytes words ++ more) :=
    .bind (reads_sectionBytes fits small) (demands_readSection fits small) behind
  rw [encode, List.append_assoc, List.append_assoc]
  refine words room.code (by simp; omega) (words room.jumpTable (by simp; omega) ?_)
  refine demands_entryBytes (· * 4) (Nat.min_le_right ..) short (length_typeEntries p) fun types => ?_
  rw [← List.append_nil (entryBytes p.functions.size _)]
  exact demands_entryBytes id room.functions (by omega) (by simp) fun bodies => .nil _

/-- Reading a file that is cut off ends where its bytes end too early. -/
theorem exists_decode_of_cut (room : p.Roomy) {front : List UInt8} (cut : IsCut front (encode p))
    (target : Program) : ∃ place, decode front target = .error (.truncated place) := by
  obtain ⟨place, refused⟩ := demands_readProgram room target front cut 0
  refine ⟨place, ?_⟩
  rw [decode, StateT.run, refused]
  rfl

/-- An engine that is refused a file keeps the program that it was to replace. -/
theorem loadBytecode_of_refused {files : Files} {path : Path} {front : List UInt8} {g g' : Engine}
    {e : Malformed} (file : files.read path = .ok front)
    (registered : Engine.registerTypes g.clearScriptData = (.ok (), g'))
    (refused : decode front g'.program = .error e) :
    Engine.loadBytecode files path g =
      (.error (.malformed e),
        { g' with error := some (g'.error.getD (EngineError.malformed e).message) }) := by
  rw [Engine.loadBytecode]
  refine (Stepwise.bind_apply_of_ok rfl).trans ?_
  refine (Stepwise.bind_apply_of_ok registered).trans ?_
  rw [file]
  dsimp only
  rw [Stepwise.bind_apply, Stepwise.get_apply]
  dsimp only
  rw [refused]
  rfl

/-- **A file that is cut off is refused as such**, wherever it was cut, and an engine that was to load
it keeps the program that it was to replace, and the rest of its state but for the error. -/
theorem decode_of_cut (room : p.Roomy) {front : List UInt8} (cut : IsCut front (encode p))
    (target : Program) :
    ∃ place, decode front target = .error (.truncated place) ∧
      ∀ (files : Files) (path : Path) (g g' : Engine), files.read path = .ok front →
        Engine.registerTypes g.clearScriptData = (.ok (), g') → g'.program = target →
          ∃ error, Engine.loadBytecode files path g =
            (.error (.malformed (.truncated place)), { g' with program := target, error }) := by
  obtain ⟨place, refused⟩ := exists_decode_of_cut room cut target
  refine ⟨place, refused, fun files path g g' file registered same => ?_⟩
  subst same
  exact ⟨_, loadBytecode_of_refused file registered refused⟩

/-- All of the bytes but the last one. -/
theorem isCut_dropLast {bytes : List UInt8} (some : bytes ≠ []) : IsCut bytes.dropLast bytes where
  begins := List.dropLast_prefix bytes
  short := by
    have := List.length_pos_iff.2 some
    rw [List.length_dropLast]
    omega

theorem decode_of_cut_twoFunctions :
    ∃ place, decode (encode twoFunctions).dropLast {} = .error (.truncated place) ∧
      ∀ host, (Engine.loadBytecode ⟨fun _ => .ok (encode twoFunctions).dropLast⟩ "Scripts.bin"
        (.start {} host 0)).2.program = {} := by
  have some : encode twoFunctions ≠ [] := by
    simp [encode, sectionBytes, wordBytes]
  obtain ⟨place, refused, kept⟩ := decode_of_cut (p := twoFunctions)
    ⟨by decide, by decide, by decide, by decide⟩ (isCut_dropLast some) {}
  refine ⟨place, refused, fun host => ?_⟩
  obtain ⟨error, loaded⟩ := kept ⟨fun _ => .ok _⟩ "Scripts.bin" (.start {} host 0) _ rfl rfl rfl
  rw [loaded]

end Bytecode

end StageScript
