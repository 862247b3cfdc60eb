import StageScript.Proofs.Program.Section

/-! # Bytecode files read back
What is left of a program that was written to a file and read again.
* **`Bytecode.reads_encode`** — the whole file is read as it was written;
* **`Bytecode.decode_encode`** — everything comes back but the names of the functions and the bodies
  that begin at the offset for missing bodies. -/

namespace StageScript

/-- A program that its tables have room for. -/
structure Program.Roomy (p : Program) : Prop where
  code : p.code.size ≤ codeCapacity
  jumpTable : p.jumpTable.size ≤ jumpCapacity
  functions : p.functions.size ≤ functionCapacity
  types : p.typeNames.size ≤ typeCapacity

/-- An entry point inside what the tables have room for. -/
structure EntryPoint.Inside (e : EntryPoint) : Prop where
  code : e.code < codeCapacity
  jump : e.jump ≤ jumpCapacity

namespace Bytecode

/-- What a file keeps of the entry points of a type. -/
def keptEntries (entries : Entries) : Entries where
  main := kept entries.main
  playerInteraction := kept entries.playerInteraction
  draw := kept entries.draw
  startup := kept entries.startup

@[simp] theorem get_keptEntries (entries : Entries) (sub : SubScript) :
    (keptEntries entries).get sub = kept (entries.get sub) := by
  cases sub <;> rfl

/-- The entry points of types are grouped as they were before they were written. -/
theorem groupEntries_flatMap (types : List Entries) :
    groupEntries ((types.flatMap fun entries => SubScript.all.map entries.get).map kept) =
      types.map keptEntries := by
  induction types with
  | nil => rfl
  | cons entries types ih =>
    rw [List.map_cons, ← ih]
    rfl

/-- The program that is read from the file of a program. -/
def reread (p target : Program) : Program :=
  { target with
    code := p.code
    jumpTable := p.jumpTable
    entries := Vector.ofFn fun type =>
      ((p.entries.toList.take p.typeNames.size).map keptEntries).toArray.getD type {}
    functions := ((p.functions.toList.map fun f => kept f.entry).mapIdx fun i entry =>
      (⟨functionName i, entry⟩ : Function)).toArray }

/-- Each type brings four entry points. -/
theorem length_typeEntries (p : Program) :
    (typeEntries p).length = min p.typeNames.size typeCapacity * 4 := by
  have count : (p.entries.toList.take p.typeNames.size).length =
      min p.typeNames.size typeCapacity := by
    rw [List.length_take, Vector.length_toList]
  rw [← count, typeEntries]
  generalize p.entries.toList.take p.typeNames.size = types
  induction types with
  | nil => rfl
  | cons entries types ih =>
    rw [List.flatMap_cons, List.length_append, ih, List.length_cons]
    simp [SubScript.all]
    omega

/-- The offsets of the entry points that a file holds are small enough to be written. -/
theorem small_of_inside {entry : Option EntryPoint} (inside : ∀ e ∈ entry, e.Inside) :
    ∀ e ∈ entry, e.code < 0x80000000 ∧ e.jump < 0x80000000 := by
  intro e member
  have code := (inside e member).code
  have jump := (inside e member).jump
  simp only [codeCapacity, jumpCapacity] at code jump
  omega

variable {p : Program}

/-- A counted section of entry points is read back. -/
theorem reads_entryBytes {content : String} {count limit : Nat} (all : Nat → Nat)
    {entries : List (Option EntryPoint)} (fits : count ≤ limit) (narrow : count < 0x10000)
    (length : entries.length = all count)
    (small : ∀ entry ∈ entries, ∀ e ∈ entry, e.code < 0x80000000 ∧ e.jump < 0x80000000) {β : Type}
    {next : List (Option EntryPoint) → Reader β} {more : List UInt8} {b : β}
    (behind : Reads (next (entries.map kept)) more b) :
    Reads (do
      let n ← readHalf
      checkCount content n limit
      let read ← readEntries (all n)
      next read) (entryBytes count entries ++ more) b := by
  rw [entryBytes, List.append_assoc, List.append_assoc]
  refine (reads_readHalf narrow).bind ((reads_checkCount fits).bind_nil ?_)
  rw [← length, ← List.append_assoc]
  exact (reads_readEntries small).bind behind

/-- What holds of the entry points of all types holds of those that a file keeps. -/
theorem forall_mem_typeEntries {P : EntryPoint → Prop}
    (types : ∀ type sub, ∀ e ∈ p.entryPoint? type sub, P e) :
    ∀ entry ∈ typeEntries p, ∀ e ∈ entry, P e := by
  intro entry member e found
  obtain ⟨entries, here, entryMember⟩ := List.mem_flatMap.1 member
  obtain ⟨sub, -, rfl⟩ := List.mem_map.1 entryMember
  obtain ⟨type, small, rfl⟩ := List.getElem_of_mem (List.mem_of_mem_take here)
  rw [Vector.length_toList] at small
  refine types type sub e ?_
  rw [Program.entryPoint?, Vector.getElem?_eq_getElem small, Option.bind_some]
  simpa using found

/-- **A file is read as it was written** where its tables are not too long and its offsets can be
written. -/
theorem reads_encode (code : p.code.size ≤ codeCapacity) (jumpTable : p.jumpTable.size ≤ jumpCapacity)
    (count : p.functions.size ≤ functionCapacity)
    (types : ∀ type sub, ∀ e ∈ p.entryPoint? type sub, e.code < 0x80000000 ∧ e.jump < 0x80000000)
    (functions : ∀ f ∈ p.functions, ∀ e ∈ f.entry, e.code < 0x80000000 ∧ e.jump < 0x80000000)
    (target : Program) : Reads (readProgram target) (encode p) (reread p target) := by
  have codeSmall := code
  have jumpSmall := jumpTable
  have functionsSmall := count
  simp only [codeCapacity, jumpCapacity, functionCapacity] at codeSmall jumpSmall functionsSmall
  rw [encode, List.append_assoc, List.append_assoc]
  refine (reads_sectionBytes code (by simp; omega)).bind ?_
  refine (reads_sectionBytes jumpTable (by simp; omega)).bind ?_
  refine reads_entryBytes (· * 4) (Nat.min_le_right ..) ?_ ?_ (forall_mem_typeEntries types) ?_
  · simp only [typeCapacity]
    omega
  · exact length_typeEntries p
  rw [← List.append_nil (entryBytes p.functions.size _)]
  refine reads_entryBytes id count (by omega) (by simp) ?_ ?_
  · simpa using functions
  · rw [typeEntries, groupEntries_flatMap, List.map_map, Array.toArray_toList, Array.toArray_toList]
    exact Reads.pure _

/-- The file of a program whose bodies begin inside its tables is read as it was written. -/
theorem reads_readProgram (room : p.Roomy)
    (types : ∀ type sub, ∀ e ∈ p.entryPoint? type sub, e.Inside)
    (functions : ∀ f ∈ p.functions, ∀ e ∈ f.entry, e.Inside) (target : Program) :
    Reads (readProgram target) (encode p) (reread p target) :=
  reads_encode room.code room.jumpTable room.functions
    (fun type sub => small_of_inside (types type sub))
    (fun f member => small_of_inside (functions f member)) target

/-- Bytes behind the file are not looked at. -/
theorem decode_append {target : Program} {bytes : List UInt8} {p' : Program}
    (read : Reads (readProgram target) bytes p') (more : List UInt8) :
    decode (bytes ++ more) target = .ok p' := by
  rw [decode, StateT.run, read]
  rfl

/-- The entry points of a program that was read from the file of one whose types are registered. -/
theorem entryPoint?_reread (target : Program)
    (registered : ∀ type sub, ∀ e ∈ p.entryPoint? type sub, type < p.typeNames.size) (type : Nat)
    (sub : SubScript) :
    (reread p target).entryPoint? type sub = kept (p.entryPoint? type sub) := by
  by_cases inside : type < typeCapacity
  case neg =>
    have outside (entries : Vector Entries typeCapacity) : entries[type]? = none :=
      Vector.getElem?_eq_none (by omega)
    rw [Program.entryPoint?, Program.entryPoint?, outside, outside]
    rfl
  have here : p.entries[type]? = some p.entries[type] := Vector.getElem?_eq_getElem inside
  have there : (reread p target).entryPoint? type sub =
      (((p.entries.toList.take p.typeNames.size).map keptEntries)[type]?.getD {}).get sub := by
    rw [Program.entryPoint?, reread, Vector.getElem?_eq_getElem inside, Vector.getElem_ofFn,
      Option.bind_some]
    simp
  have whole : p.entryPoint? type sub = p.entries[type].get sub := by
    rw [Program.entryPoint?, Vector.getElem?_eq_getElem inside, Option.bind_some]
  rw [there, whole]
  -- The entry points of types without a name are not written, so there must be none.
  by_cases known : type < p.typeNames.size
  case pos =>
    have listed : p.entries.toList[type]? = some p.entries[type] := by simp [inside]
    rw [List.getElem?_map, List.getElem?_take_of_lt known, listed, Option.map_some,
      Option.getD_some, get_keptEntries]
  case neg =>
    have missing : p.entries[type].get sub = none :=
      Option.eq_none_iff_forall_not_mem.2 fun e member => known (registered type sub e (whole ▸ member))
    have short : ((p.entries.toList.take p.typeNames.size).map keptEntries)[type]? = none :=
      List.getElem?_eq_none (by simp; omega)
    rw [short, missing]
    cases sub <;> rfl

theorem map_entry_named (entries : List (Option EntryPoint)) :
    (entries.mapIdx fun i entry => (⟨functionName i, entry⟩ : Function)).map (·.entry) = entries := by
  apply List.ext_getElem?
  intro i
  rw [List.getElem?_map, List.getElem?_mapIdx, Option.map_map]
  exact Option.map_id'

/-- **A program that was written to a file and read again.** Its code and its jump table come back,
and every entry point of a registered type and of a function, in their order, but for bodies that
begin at the offset `0x3FFFF`: the file marks missing bodies by it. -/
theorem decode_encode (room : p.Roomy)
    (types : ∀ type sub, ∀ e ∈ p.entryPoint? type sub, e.Inside ∧ type < p.typeNames.size)
    (functions : ∀ f ∈ p.functions, ∀ e ∈ f.entry, e.Inside) (more : List UInt8)
    (target : Program) (names : target.typeNames = p.typeNames) :
    ∃ p', decode (encode p ++ more) target = .ok p' ∧
      p'.code = p.code ∧ p'.jumpTable = p.jumpTable ∧ p'.typeNames = p.typeNames ∧
      (∀ type sub, p'.entryPoint? type sub =
        (p.entryPoint? type sub).filter fun e => e.code ≠ 0x3FFFF) ∧
      p'.functions.toList.map (·.entry) =
        p.functions.toList.map fun f => f.entry.filter fun e => e.code ≠ 0x3FFFF := by
  have read := reads_readProgram room (fun type sub e member => (types type sub e member).1)
    functions target
  refine ⟨reread p target, decode_append read more, by simp only [reread], by simp only [reread],
    by simp only [reread, names], ?_, ?_⟩
  · exact entryPoint?_reread target fun type sub e member => (types type sub e member).2
  · simp only [reread, map_entry_named]
    rfl

/-- A program with one type. -/
def ringProgram (code jumpTable : Array Word) (entries : Entries) (functions : Array Function) :
    Program where
  code := code
  jumpTable := jumpTable
  entries := (Vector.replicate typeCapacity {}).set 1 entries (by decide)
  functions := functions
  typeNames := #["BlankObject".toList, "Ring".toList]

theorem entryPoint?_ringProgram (code jumpTable : Array Word) (entries : Entries)
    (functions : Array Function) (type : Nat) (sub : SubScript) :
    (ringProgram code jumpTable entries functions).entryPoint? type sub =
      if type = 1 then entries.get sub else none := by
  have blank : ({} : Entries).get sub = none := by cases sub <;> rfl
  rw [Program.entryPoint?, ringProgram, Vector.getElem?_set]
  by_cases one : type = 1
  · simp [one]
  · rw [if_neg (Ne.symm one), if_neg one, Vector.getElem?_replicate]
    split <;> simp [blank]

/-- A program with two functions, the second of which has no body. -/
def twoFunctions : Program :=
  ringProgram #[300, -1, 7, 7, 200] #[2] { main := some ⟨0, 0⟩, draw := some ⟨4, 1⟩ }
    #[⟨"Step".toList, some ⟨2, 1⟩⟩, ⟨"Jump".toList, none⟩]

theorem decode_encode_twoFunctions :
    ∃ p', decode (encode twoFunctions ++ [1, 2, 3]) (ringProgram #[] #[] {} #[]) = .ok p' ∧
      p'.code = #[300, -1, 7, 7, 200] ∧ p'.entryPoint? 1 .draw = some ⟨4, 1⟩ ∧
      p'.functions.toList.map (·.entry) = [some ⟨2, 1⟩, none] := by
  have types (type sub) : ∀ e ∈ twoFunctions.entryPoint? type sub,
      e.Inside ∧ type < twoFunctions.typeNames.size := by
    rw [twoFunctions, entryPoint?_ringProgram]
    split
    next one =>
      subst one
      cases sub <;> simp [Entries.get, ringProgram] <;> constructor <;> decide
    next => simp
  have functions : ∀ f ∈ twoFunctions.functions, ∀ e ∈ f.entry, e.Inside := by
    simp [twoFunctions, ringProgram]
    constructor <;> decide
  obtain ⟨p', read, code, -, -, entries, bodies⟩ := decode_encode
    (p := twoFunctions) ⟨by decide, by decide, by decide, by decide⟩ types functions [1, 2, 3]
    (ringProgram #[] #[] {} #[]) rfl
  refine ⟨p', read, code, ?_, bodies⟩
  rw [entries, twoFunctions, entryPoint?_ringProgram]
  rfl

/-- A program whose tables are full: its last body begins at the last word of the code. -/
def fullProgram : Program :=
  ringProgram (Array.replicate codeCapacity 0) #[]
    { main := some ⟨0x3FFFE, 0⟩, draw := some ⟨0x3FFFF, 0⟩ } #[]

/-- **Not every entry point comes back**: a body that is the last word of a full code is taken for a
missing one. -/
theorem not_all_restored :
    fullProgram.Roomy ∧
      (∀ type sub, ∀ e ∈ fullProgram.entryPoint? type sub,
        e.code < fullProgram.code.size ∧ e.jump ≤ fullProgram.jumpTable.size ∧
          type < fullProgram.typeNames.size) ∧
      fullProgram.entryPoint? 1 .draw = some ⟨0x3FFFF, 0⟩ ∧
      ∃ p', decode (encode fullProgram) fullProgram = .ok p' ∧ p'.entryPoint? 1 .draw = none := by
  have size : fullProgram.code.size = codeCapacity := Array.size_replicate
  have draw : fullProgram.entryPoint? 1 .draw = some ⟨0x3FFFF, 0⟩ := by
    rw [fullProgram, entryPoint?_ringProgram]
    rfl
  have types (type sub) : ∀ e ∈ fullProgram.entryPoint? type sub,
      e.code < codeCapacity ∧ e.jump = 0 ∧ type < fullProgram.typeNames.size := by
    rw [fullProgram, entryPoint?_ringProgram]
    split
    next one =>
      subst one
      cases sub <;> simp [Entries.get, ringProgram, codeCapacity]
    next => simp
  have room : fullProgram.Roomy :=
    ⟨Nat.le_of_eq size, by decide, by decide, by decide⟩
  have read := reads_readProgram room (fun type sub e member =>
    have ⟨code, jump, _⟩ := types type sub e member
    ⟨code, jump ▸ Nat.zero_le _⟩) (fun f member => absurd member (Array.not_mem_empty f)) fullProgram
  -- The entry point is the offset of the last word of code, which means none when it is read.
  refine ⟨room, fun type sub e member => ?_, draw, reread fullProgram fullProgram, ?_, ?_⟩
  · have ⟨code, jump, known⟩ := types type sub e member
    exact ⟨size ▸ code, jump ▸ Nat.zero_le _, known⟩
  · rw [← List.append_nil (encode _)]
    exact decode_append read []
  · rw [entryPoint?_reread _ fun type sub e member => (types type sub e member).2.2, draw]
    rfl

end Bytecode

end StageScript
