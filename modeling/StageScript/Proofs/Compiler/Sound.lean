import StageScript.Proofs.Compiler.Body
import StageScript.Proofs.Compiler.Names
import StageScript.Proofs.Machine.Safety

/-! # Disciplined sources compile to sound programs
* **`CompilerSound`** — what holds between two lines: every body that is closed is typed, and so is
  the one that is open;
* **`CompilerSound.line`** — a line that may stand where it stands keeps this up;
* **`sound_of_compileFile`** — so the program of a disciplined source that compiles is sound;
* **`compileFile_safe`** — and its sub-scripts run without a fault of corrupt code. -/

namespace StageScript

open Stepwise Compiler

/-! ## Names -/

/-- No name that the file has made known is a numeral. -/
structure NamesKept (c : Compiler) : Prop where
  aliases : ∀ a ∈ c.aliases, Numeral.natural? a.name = none
  globals : ∀ name ∈ c.globals, Numeral.natural? name = none
  functions : ∀ f ∈ c.program.functions, Numeral.natural? f.name = none

theorem not_sameName_ofNat {name : Text} (n : Nat) (h : Numeral.natural? name = none) :
    Text.sameName name (Numeral.ofNat n) = false := by
  rw [← Bool.not_eq_true]
  intro same
  rw [Numeral.eq_of_sameName_ofNat same, Numeral.natural?_ofNat] at h
  cases h

/-- The numerals of slots then stand for themselves. -/
theorem NamesKept.keepsNumerals {c : Compiler} (h : NamesKept c) : c.KeepsNumerals := fun n =>
  Unnamed.substitute_ofNat
    ⟨fun a member => not_sameName_ofNat n (h.aliases a member),
      fun name member => not_sameName_ofNat n (h.globals name member),
      fun f member => not_sameName_ofNat n (h.functions f member)⟩

theorem NamesKept.mono {c c' : Compiler} (h : NamesKept c) (grows : c.Grows c') : NamesKept c' :=
  ⟨grows.aliases ▸ h.aliases, grows.globals ▸ h.globals, grows.functions ▸ h.functions⟩

/-! ## Bodies -/

/-- A body that is typed and whose slots are in front of a limit. -/
def Closed (p : Program) (limit : Nat) (entry : EntryPoint) (returns : Bool) : Prop :=
  ∃ t : Typing, p.Typed entry returns t ∧ entry.jump + t.slots.length ≤ limit

theorem Closed.mono {p p' : Program} {limit limit' : Nat} {entry : EntryPoint} {returns : Bool}
    (h : Closed p limit entry returns) (code : ∃ more, p'.code = p.code ++ more)
    (jumps : ∀ k < limit, p'.jumpTable[k]? = p.jumpTable[k]?) (further : limit ≤ limit') :
    Closed p' limit' entry returns := by
  obtain ⟨t, typed, inside⟩ := h
  exact ⟨t, typed.mono code fun k front => jumps k (by omega), by omega⟩

/-- Every body that the program has an entry point of is the open one or typed. -/
structure Recorded (p : Program) (limit : Nat) (current : Option (EntryPoint × Bool)) : Prop where
  sub : ∀ {type sub entry}, p.entryPoint? type sub = some entry →
    current = some (entry, false) ∨ Closed p limit entry false
  functions : ∀ f ∈ p.functions, ∀ entry, f.entry = some entry →
    current = some (entry, true) ∨ Closed p limit entry true

/-- What a program that is added to records, as far as its entry points are old ones or that of the
body that is open. -/
theorem Recorded.change {p p' : Program} {limit limit' : Nat}
    {current current' : Option (EntryPoint × Bool)} (h : Recorded p limit current)
    (code : ∃ more, p'.code = p.code ++ more)
    (jumps : ∀ k < limit, p'.jumpTable[k]? = p.jumpTable[k]?) (further : limit ≤ limit')
    (carry : ∀ {entry returns}, current = some (entry, returns) →
      current' = some (entry, returns) ∨ Closed p' limit' entry returns)
    (subs : ∀ {type sub entry}, p'.entryPoint? type sub = some entry →
      current' = some (entry, false) ∨ p.entryPoint? type sub = some entry)
    (functions : ∀ f ∈ p'.functions, ∀ entry, f.entry = some entry →
      current' = some (entry, true) ∨ ∃ f' ∈ p.functions, f'.entry = some entry) :
    Recorded p' limit' current' := by
  constructor
  · intro type sub entry recorded
    rcases subs recorded with new | old
    · exact .inl new
    · rcases h.sub old with current | closed
      · exact carry current
      · exact .inr (closed.mono code jumps further)
  · intro f member entry recorded
    rcases functions f member entry recorded with new | ⟨f', member', old⟩
    · exact .inl new
    · rcases h.functions f' member' entry old with current | closed
      · exact carry current
      · exact .inr (closed.mono code jumps further)

/-- Further code, and further slots, leave the bodies typed. -/
theorem Recorded.mono {c c' : Compiler} {current : Option (EntryPoint × Bool)}
    (h : Recorded c.program c.body.entry.jump current) (grows : c.Grows c') :
    Recorded c'.program c'.body.entry.jump current := by
  refine h.change grows.code grows.jumps (Nat.le_of_eq (congrArg EntryPoint.jump grows.entry).symm)
    .inl (fun recorded => .inr ?_) fun f member entry recorded => .inr ⟨f, ?_, recorded⟩
  · rwa [Program.entryPoint?, grows.entries] at recorded
  · rwa [grows.functions] at member

/-- **What holds between two lines.** -/
structure CompilerSound (tags : List Text) (c : Compiler) (region : Region) : Prop where
  fits : c.Fits
  names : NamesKept c
  tags : c.tags = tags
  state : match region with
    | .outside => c.mode = .outside ∧ Recorded c.program c.program.jumpTable.size none
    | .body isFunction => c.mode = .inside ∧
        Recorded c.program c.body.entry.jump (some (c.body.entry, isFunction)) ∧
          ∃ t, BodyTyped c isFunction t
    | .skipped isFunction => c.mode = .skipping ∧
        Recorded c.program c.body.entry.jump (some (c.body.entry, isFunction)) ∧
          ∃ t, BodyTyped c isFunction t

/-! ## What a program records -/

theorem Program.eq_or_of_entryPoint?_setEntry {p : Program} {type type' : Nat} {sub sub' : SubScript}
    {entry entry' : EntryPoint}
    (h : (p.setEntry type sub (some entry)).entryPoint? type' sub' = some entry') :
    entry' = entry ∨ p.entryPoint? type' sub' = some entry' := by
  rw [setEntry] at h
  split at h
  · next inside =>
    rw [entryPoint?, Vector.getElem?_set] at h
    by_cases same : type = type'
    · subst same
      rw [if_pos rfl, Option.bind_some, Entries.get_set] at h
      by_cases same : sub = sub'
      · rw [if_pos same] at h
        exact .inl (Option.some.inj h).symm
      · rw [if_neg same] at h
        right
        rw [entryPoint?, Vector.getElem?_eq_getElem inside]
        exact h
    · rw [if_neg same] at h
      exact .inr h
  · exact .inr h

theorem Program.exists_of_mem_setFunctionEntry {p : Program} {index : Nat} {entry : EntryPoint}
    {f : Function} (h : f ∈ (p.setFunctionEntry index (some entry)).functions) :
    ∃ f' ∈ p.functions, f.name = f'.name ∧ (f.entry = some entry ∨ f.entry = f'.entry) := by
  obtain ⟨i, found⟩ := Array.mem_iff_getElem?.1 h
  rw [setFunctionEntry, Array.getElem?_modify] at found
  by_cases same : index = i
  · rw [if_pos same] at found
    obtain ⟨f', found', rfl⟩ := Option.map_eq_some_iff.1 found
    exact ⟨f', Array.mem_of_getElem? found', rfl, .inl rfl⟩
  · rw [if_neg same] at found
    exact ⟨f, Array.mem_of_getElem? found, rfl, .inr rfl⟩

/-- A function whose name is no numeral may become known. -/
theorem CompilerSound.declared {tags : List Text} {c c' : Compiler} {name : Text}
    (h : CompilerSound tags c .outside) (numeral : Numeral.natural? name = none)
    (known : c' = c ∨ c' = c.declared name) : CompilerSound tags c' .outside := by
  obtain ⟨mode, recorded⟩ := h.state
  rcases known with rfl | rfl
  · exact h
  · refine ⟨⟨h.fits.code, h.fits.jumps⟩, ⟨h.names.aliases, h.names.globals, ?_⟩, h.tags, mode, ?_⟩
    · intro f member
      rcases Array.mem_push.1 member with old | rfl
      · exact h.names.functions f old
      · exact numeral
    · refine recorded.change ⟨#[], Array.append_empty.symm⟩ (fun _ _ => rfl) (Nat.le_refl _) nofun
        .inr fun f member entry has => ?_
      rcases Array.mem_push.1 member with old | rfl
      · exact .inr ⟨f, old, has⟩
      · cases has

/-- A body may be opened, if the entry point that it is recorded at is its own. -/
theorem CompilerSound.begun {tags : List Text} {c : Compiler} {change : Program → Program}
    {returns : Bool} (h : CompilerSound tags c .outside)
    (code : (change c.begun.program).code = c.program.code)
    (jumps : (change c.begun.program).jumpTable = c.program.jumpTable)
    (subs : ∀ {type sub entry}, (change c.begun.program).entryPoint? type sub = some entry →
      entry = c.begun.body.entry ∧ returns = false ∨ c.program.entryPoint? type sub = some entry)
    (functions : ∀ f ∈ (change c.begun.program).functions, ∃ f' ∈ c.program.functions,
      f.name = f'.name ∧
        (f.entry = some c.begun.body.entry ∧ returns = true ∨ f.entry = f'.entry)) :
    CompilerSound tags (c.begun.withProgram change) (.body returns) := by
  obtain ⟨-, recorded⟩ := h.state
  refine ⟨⟨code ▸ h.fits.code, jumps ▸ h.fits.jumps⟩, ⟨h.names.aliases, h.names.globals, ?_⟩, h.tags,
    rfl, ?_, { places := [(0, [])] }, ?_⟩
  · intro f member
    obtain ⟨f', old, same, -⟩ := functions f member
    exact same ▸ h.names.functions f' old
  · refine recorded.change ⟨#[], code.trans Array.append_empty.symm⟩ (fun k _ => ?_) (Nat.le_refl _)
      nofun (fun has => ?_) fun f member entry has => ?_
    · exact congrArg (·[k]?) jumps
    · rcases subs has with ⟨rfl, rfl⟩ | old
      · exact .inl rfl
      · exact .inr old
    · obtain ⟨f', old, -, ⟨new, rfl⟩ | same⟩ := functions f member
      · obtain rfl := Option.some.inj (has.symm.trans new)
        exact .inl rfl
      · exact .inr ⟨f', old, same.symm.trans has⟩
  · constructor
    · show CodeTyped (change c.begun.program).code _ _ _ _
      rw [code]
      exact CodeTyped.empty ..
    · show TableTyped (change c.begun.program).jumpTable _ _ _
      rw [jumps]
      exact TableTyped.empty ..

/-- **A line outside bodies** keeps what holds between lines. -/
theorem CompilerSound.outside {tags : List Text} {c c' : Compiler} {type : Nat} {text : Text}
    (h : CompilerSound tags c .outside) (admitted : Region.outside.admits text = true)
    (line : Outside c type text c') : CompilerSound tags c' (Region.outside.after tags text) := by
  obtain ⟨mode, recorded⟩ := h.state
  rw [Region.admits, Region.introduced?] at admitted
  rw [Region.after]
  -- Only a line that opens a body changes what has to hold; an alias and a function add a name.
  cases line with
  | @named a read =>
    rw [read] at admitted ⊢
    rw [if_pos Option.isSome_some]
    refine ⟨⟨h.fits.code, h.fits.jumps⟩, ⟨?_, h.names.globals, h.names.functions⟩, h.tags, mode,
      recorded⟩
    intro b member
    rcases List.mem_append.1 member with old | new
    · exact h.names.aliases b old
    · obtain rfl := List.mem_singleton.1 new
      exact Option.isNone_iff_eq_none.1 admitted
  | sub noAlias read =>
    rw [noAlias, if_neg nofun, read, if_pos Option.isSome_some]
    obtain ⟨code, jumps, functions⟩ := Program.setEntry_eq c.begun.program type _
      (some c.begun.body.entry)
    refine h.begun code jumps (fun has => ?_) fun f member => ⟨f, functions ▸ member, rfl, .inr rfl⟩
    exact (Program.eq_or_of_entryPoint?_setEntry has).imp_left fun same => ⟨same, rfl⟩
  | declare noAlias noSub read known =>
    rw [noAlias, read] at admitted
    rw [noAlias, if_neg nofun, noSub, if_neg nofun, read]
    exact h.declared (Option.isNone_iff_eq_none.1 admitted) known
  | define noAlias noSub read known =>
    rw [noAlias, read] at admitted
    rw [noAlias, if_neg nofun, noSub, if_neg nofun, read]
    have h := h.declared (Option.isNone_iff_eq_none.1 admitted) known
    refine h.begun rfl rfl .inr fun f member => ?_
    obtain ⟨f', old, same, entry⟩ := Program.exists_of_mem_setFunctionEntry member
    exact ⟨f', old, same, entry.imp_left fun new => ⟨new, rfl⟩⟩
  | none noAlias noSub noFunction =>
    rw [noAlias, if_neg nofun, noSub, if_neg nofun, noFunction]
    exact h

/-! ## Files -/

/-- A body that is open stays open and typed further on. -/
theorem CompilerSound.further {tags : List Text} {c c' : Compiler} {isFunction : Bool}
    (h : CompilerSound tags c (.body isFunction)) (grows : c.Grows c') (whole : c'.Fits)
    (typed : ∃ t, BodyTyped c' isFunction t) : CompilerSound tags c' (.body isFunction) := by
  obtain ⟨mode, recorded, -⟩ := h.state
  refine ⟨whole, h.names.mono grows, grows.tags.trans h.tags, grows.mode.trans mode, ?_, typed⟩
  rw [grows.entry]
  have := recorded.mono grows
  rwa [grows.entry] at this

/-- **A line that closes a body** leaves it typed. -/
theorem CompilerSound.closes {tags : List Text} {c : Compiler} {isFunction : Bool} {op : Opcode}
    (h : CompilerSound tags c (.body isFunction)) (bare : c.body.blocks = [])
    (closes : op = .control .stop ∨ op = .control .endFunction ∧ isFunction = true)
    (whole : ((c.addCode [op.word]).withMode .outside).Fits) :
    CompilerSound tags ((c.addCode [op.word]).withMode .outside) .outside := by
  obtain ⟨-, recorded, t, typed⟩ := h.state
  refine ⟨whole, ⟨h.names.aliases, h.names.globals, h.names.functions⟩, h.tags, rfl, ?_⟩
  refine recorded.change ⟨_, rfl⟩ (fun _ _ => rfl) typed.begun (fun current => .inr ?_) .inr
    fun f member entry has => .inr ⟨f, member, has⟩
  obtain ⟨rfl, rfl⟩ := Prod.mk.inj (Option.some.inj current)
  exact ⟨t, typed.closed bare closes, Nat.le_of_eq typed.table.length⟩

/-- **A line of a body** keeps what holds between lines. -/
theorem CompilerSound.inside {tags : List Text} {c c' : Compiler} {isFunction : Bool} {text : Text}
    (h : CompilerSound tags c (.body isFunction))
    (admitted : (Region.body isFunction).admits text = true) (line : Inside c text none c')
    (whole : c'.Fits) : CompilerSound tags c' ((Region.body isFunction).after tags text) := by
  obtain ⟨mode, recorded, t, typed⟩ := h.state
  rw [Region.admits] at admitted
  rw [Region.after]
  cases line with
  | closes bare room keyword =>
    rcases keyword with ⟨endsub, rfl⟩ | ⟨noSub, endfunction, rfl⟩
    · rw [Region.closes, endsub, Bool.true_or, if_pos rfl]
      exact h.closes bare (.inl rfl) whole
    · rw [noSub, endfunction, if_neg Bool.false_ne_true, if_pos rfl] at admitted
      rw [Region.closes, endfunction, Bool.or_true, if_pos rfl]
      exact h.closes bare (.inr ⟨rfl, admitted⟩) whole
  | platform noKeyword read =>
    rw [noKeyword, if_neg Bool.false_ne_true, read]
    dsimp only
    rw [h.tags]
    split
    · exact h
    · exact ⟨⟨h.fits.code, h.fits.jumps⟩, ⟨h.names.aliases, h.names.globals, h.names.functions⟩,
        h.tags, rfl, recorded, t, typed.code, typed.table⟩
  | endsPlatform noKeyword noPlatform read =>
    rw [noKeyword, if_neg Bool.false_ne_true, noPlatform]
    exact h
  | other noKeyword noPlatform noEnd stated =>
    have keyword := noKeyword
    rw [Region.closes, Bool.or_eq_false_iff] at keyword
    rw [keyword.1, keyword.2, if_neg Bool.false_ne_true, if_neg Bool.false_ne_true, noPlatform,
      noEnd] at admitted
    rw [noKeyword, if_neg Bool.false_ne_true, noPlatform]
    have grows := stated.grows typed.begun typed.le_slot
    have call : Region.callsReserved text = false := by
      rw [Option.isSome_none, Bool.false_or, Bool.false_or, Bool.not_eq_true'] at admitted
      exact admitted
    exact h.further grows whole (typed.stated h.fits h.names.keepsNumerals call stated whole)

/-- **A line that opens a switch** keeps what holds between lines once its slots are there. -/
theorem CompilerSound.primed {tags : List Text} {c c' : Compiler} {isFunction : Bool} {text : Text}
    {header : Nat} {range : LabelRange} (h : CompilerSound tags c (.body isFunction))
    (line : Inside c text (some header) c') (whole : (c'.primed header range).Fits) :
    CompilerSound tags (c'.primed header range) ((Region.body isFunction).after tags text) := by
  obtain ⟨-, -, t, typed⟩ := h.state
  rw [Region.after]
  cases line with
  | other noKeyword noPlatform noEnd stated =>
    rw [noKeyword, if_neg Bool.false_ne_true, noPlatform]
    have typed' := typed.stated_primed h.names.keepsNumerals stated whole
    have grows := stated.grows typed.begun typed.le_slot
    refine h.further ?_ whole typed'
    cases stated with
    | switch =>
      refine grows.primed (Nat.le_trans typed.begun ?_) typed.begun range
      show _ ≤ (c.program.jumpTable ++ _).size
      rw [Array.size_append]
      exact Nat.le_add_right ..

/-- **A line** that may stand where it stands keeps what holds between lines. -/
theorem CompilerSound.line {tags : List Text} {c c' : Compiler} {region : Region} {type : Nat}
    {line : Line} {rest : List Line} (h : CompilerSound tags c region)
    (admitted : region.admits line.text = true) (compiled : compileLine type line rest c = (.ok (), c')) :
    CompilerSound tags c' (region.after tags line.text) := by
  cases region with
  | outside =>
    rw [compileLine_of_outside h.state.1] at compiled
    exact h.outside admitted (outside_of_outsideLine (onLine_eq_ok compiled))
  | body isFunction =>
    cases lined_of_compileLine compiled with
    | inside _ did fits => exact h.inside admitted did (fits h.fits)
    | primed _ did _ fits => exact h.primed did (fits h.fits)
    | outside mode => cases h.state.1.symm.trans mode
    | skipped mode => cases h.state.1.symm.trans mode
  | skipped isFunction =>
    obtain ⟨mode, recorded, t, typed⟩ := h.state
    rw [compileLine_of_skipping mode] at compiled
    obtain ⟨-, rfl⟩ := Prod.mk.inj compiled
    rw [Region.after]
    split
    · exact ⟨⟨h.fits.code, h.fits.jumps⟩, ⟨h.names.aliases, h.names.globals, h.names.functions⟩,
        h.tags, rfl, recorded, t, typed.code, typed.table⟩
    · exact h

/-- Lines that may stand where they stand end outside bodies. -/
theorem CompilerSound.lines {tags : List Text} {c c' : Compiler} {region : Region} {type last : Nat}
    {lines : List Line} (h : CompilerSound tags c region)
    (admitted : region.admitsAll tags lines = true)
    (compiled : compileLines type last lines c = (.ok (), c')) :
    CompilerSound tags c' .outside := by
  induction lines generalizing c region last with
  | nil =>
    obtain ⟨mode, rfl⟩ := eq_of_compileLines_nil compiled
    cases region with
    | outside => exact h
    | body => cases h.state.1.symm.trans mode
    | skipped => cases h.state.1.symm.trans mode
  | cons line rest ih =>
    rw [Region.admitsAll] at admitted
    by_cases empty : line.text = []
    · rw [if_pos empty] at admitted
      rw [compileLines_of_empty empty] at compiled
      exact ih h admitted compiled
    · rw [if_neg empty, Bool.and_eq_true] at admitted
      obtain ⟨c₁, first, others⟩ := exists_of_compileLines empty compiled
      exact ih (h.line admitted.1 first) admitted.2 others

/-- What holds at the beginning of a file that adds to an empty program. -/
theorem compilerSound_startFile {globals tags : List Text} {typeNames : Array Text}
    (kept : ∀ name ∈ globals, Numeral.natural? name = none) :
    CompilerSound tags (startFile { program := { typeNames }, globals, tags }) .outside := by
  refine ⟨⟨Nat.zero_le _, Nat.zero_le _⟩, ⟨?_, kept, nofun⟩, rfl, rfl, ?_, nofun⟩
  · show ∀ a ∈ defaultAliases, Numeral.natural? a.name = none
    decide +kernel
  · intro type sub entry recorded
    rw [Program.entryPoint?] at recorded
    obtain ⟨entries, found, has⟩ := Option.bind_eq_some_iff.1 recorded
    -- No sub-script of an empty program is recorded.
    have same : entries = {} := by
      have vector : (startFile { program := { typeNames }, globals, tags }).program.entries =
          Vector.replicate typeCapacity {} := rfl
      rw [vector, Vector.getElem?_replicate] at found
      by_cases inside : type < typeCapacity
      · rw [if_pos inside] at found
        exact (Option.some.inj found).symm
      · rw [if_neg inside] at found
        cases found
    subst same
    cases sub <;> cases has

/-- **A disciplined source that compiles** gives a program all of whose bodies are typed. -/
theorem sound_of_compileFile {globals tags : List Text} {typeNames : Array Text} {path : String}
    {source : Text} {type : Nat} {c' : Compiler}
    (disciplined : isDisciplined globals tags source = true)
    (compiled : compileFile path source type { program := { typeNames }, globals, tags } =
      (.ok (), c')) : c'.program.Sound := by
  rw [isDisciplined, Bool.and_eq_true, List.all_eq_true] at disciplined
  have start := @compilerSound_startFile globals tags typeNames fun name member =>
    Option.isNone_iff_eq_none.1 (disciplined.1 name member)
  obtain ⟨-, recorded⟩ := (start.lines disciplined.2 (compileFile_eq_ok_iff.1 compiled).2).state
  constructor
  · intro type sub entry has
    rcases recorded.sub has with none | ⟨t, typed, -⟩
    · cases none
    · exact ⟨t, typed⟩
  · intro f member entry has
    rcases recorded.functions f member entry has with none | ⟨t, typed, -⟩
    · cases none
    · exact ⟨t, typed⟩

/-- **Disciplined sources that compile do not go wrong**: whatever sub-script of the program is run,
for whatever object and on whatever machine, and however long the run is, it does not meet a fault of
corrupt code. -/
theorem compileFile_safe {globals tags : List Text} {typeNames : Array Text} {path : String}
    {source : Text} {type : Nat} {c' : Compiler}
    (disciplined : isDisciplined globals tags source = true)
    (compiled : compileFile path source type { program := { typeNames }, globals, tags } =
      (.ok (), c'))
    {owner : Nat} {sub : SubScript} {entry : EntryPoint}
    (recorded : c'.program.entryPoint? owner sub = some entry) (activation : Activation)
    (m : Machine) {fault : Fault} (failed : (run c'.program activation entry m).1 = .error fault) :
    fault.isCorruption = false :=
  safe_run (sound_of_compileFile disciplined compiled) recorded activation m failed

/-- A script whose sub-script is closed as a function. -/
def returning : Text := "subObjectMain\nendfunction".toList

/-- A machine that stops a run after nine instructions. -/
def patient : Machine := { random := .ofSeed 1, stepLimit := some 9 }

/-- The fault of a run that fails. -/
def fault? {α : Type} : Except Fault α → Option Fault
  | .ok _ => none
  | .error fault => some fault

theorem eq_error_of_fault? {α : Type} {x : Except Fault α} {fault : Fault}
    (h : fault? x = some fault) : x = .error fault := by
  cases x with
  | ok a => cases h
  | error fault' => exact congrArg _ (Option.some.inj h)

/-- What compiling and running a script without names gives. -/
theorem compiled_and_failed {source : Text} {fault : Fault}
    (h : (compileFile "" source 1 freshCompiler).1.toOption = some () ∧
      (compileFile "" source 1 freshCompiler).2.program.entryPoint? 1 .main = some ⟨0, 0⟩ ∧
        fault? (run (compileFile "" source 1 freshCompiler).2.program ⟨0, .main⟩ ⟨0, 0⟩ patient).1 =
          some fault) :
    ∃ c', compileFile "" source 1 freshCompiler = (.ok (), c') ∧
      c'.program.entryPoint? 1 .main = some ⟨0, 0⟩ ∧
        (run c'.program ⟨0, .main⟩ ⟨0, 0⟩ patient).1 = .error fault :=
  ⟨_, Prod.ext (Except.eq_ok_of_toOption h.1) rfl, h.2.1, eq_error_of_fault? h.2.2⟩

theorem compileFile_safe_endless : ∃ c' fault,
    compileFile "" endless 1 freshCompiler = (.ok (), c') ∧
      (run c'.program ⟨0, .main⟩ ⟨0, 0⟩ patient).1 = .error fault ∧ fault.isCorruption = false := by
  obtain ⟨c', compiled, recorded, failed⟩ :=
    @compiled_and_failed endless (.stepLimitExceeded 9) (by decide +kernel)
  have disciplined : isDisciplined [] [] endless = true := by decide +kernel
  exact ⟨c', _, compiled, failed,
    compileFile_safe disciplined compiled recorded ⟨0, .main⟩ patient failed⟩

/-- **Undisciplined sources may go wrong**: a sub-script that is closed as a function returns without a
caller. -/
theorem not_all_safe :
    ¬ ∀ (globals tags : List Text) (typeNames : Array Text) (path : String) (source : Text)
        (type : Nat) (c' : Compiler),
      compileFile path source type { program := { typeNames }, globals, tags } = (.ok (), c') →
        ∀ (owner : Nat) (sub : SubScript) (entry : EntryPoint),
          c'.program.entryPoint? owner sub = some entry →
            ∀ (activation : Activation) (m : Machine) (fault : Fault),
              (run c'.program activation entry m).1 = .error fault → fault.isCorruption = false := by
  intro claim
  obtain ⟨c', compiled, recorded, failed⟩ :=
    @compiled_and_failed returning .callStackUnderflow (by decide +kernel)
  cases claim [] [] _ "" returning 1 c' compiled 1 .main _ recorded ⟨0, .main⟩ patient _ failed

end StageScript
