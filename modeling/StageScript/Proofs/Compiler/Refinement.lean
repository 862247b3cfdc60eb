import StageScript.Proofs.Compiler.Hygiene
import StageScript.Proofs.Compiler.Script
import StageScript.Proofs.Compiler.Sound

/-! # Scripts are compiled to what they say
* `Reading.Says` — a compiler has compiled what scripts have said so far;
* **`Script.Spells.says`** — a script that compiles adds to the program what it says;
* **`compileFile_governs`** — so the runs of the sub-scripts of the program are those of the statements
  that the sub-scripts say. -/

namespace StageScript

open Stepwise Compiler Statement

variable {c c' c₁ : Compiler} {r : Reading} {s : Statement} {line final : Line} {rest lines : List Line}
  {type last index : Nat}

/-! ## Programs that are added to -/

/-- **A program is added to** behind what it holds. -/
structure Program.Extends (p p' : Program) : Prop where
  code : ∃ more, p'.code = p.code ++ more
  jumps : ∀ (slot : Nat) (w : Word), p.jumpTable[slot]? = some w → p'.jumpTable[slot]? = some w

theorem Program.Extends.of_eq {p p' : Program} (code : p'.code = p.code)
    (jumps : p'.jumpTable = p.jumpTable) : p.Extends p' :=
  ⟨⟨#[], by rw [code, Array.append_empty]⟩, fun _ _ word => jumps ▸ word⟩

theorem Program.Extends.trans {p p' p'' : Program} (h : p.Extends p') (h' : p'.Extends p'') :
    p.Extends p'' := by
  obtain ⟨more, code⟩ := h.code
  obtain ⟨more', code'⟩ := h'.code
  refine ⟨⟨more ++ more', ?_⟩, fun slot w word => h'.jumps slot w (h.jumps slot w word)⟩
  rw [code', code, Array.append_assoc]

/-- A body adds to the program behind what it holds when the body begins. -/
theorem Compiler.Grows.extends (h : c.Grows c')
    (begun : c.program.jumpTable.size ≤ c.body.entry.jump) : c.program.Extends c'.program where
  code := h.code
  jumps slot w word := by
    have inside := (Array.getElem?_eq_some_iff.1 word).1
    rw [h.jumps slot (Nat.lt_of_lt_of_le inside begun), word]

/-- A body stays as it is. -/
theorem BodyRecord.Stands.extend {p p' : Program} {r : BodyRecord} {is : List Instruction}
    (h : r.Stands p is) (more : p.Extends p') : r.Stands p' is :=
  { h with
    chain := by
      obtain ⟨more, code⟩ := more.code
      rw [code]
      exact h.chain.mono more
    words := fun slot inside => by
      have word := h.words slot inside
      rw [List.getElem?_eq_getElem inside] at word ⊢
      exact more.jumps _ _ word }

/-- A body says what it said. -/
theorem Statement.Fills.extend {p p' : Program} {closer : Opcode} {entry : EntryPoint}
    (h : s.Fills p closer entry) (more : p.Extends p') : s.Fills p' closer entry := by
  obtain ⟨r, is, same, stands, sits, last⟩ := h
  exact ⟨r, is, same, stands.extend more, sits, last⟩

/-- The entry point of a sub-script that is set. -/
theorem Program.entryPoint?_setEntry {p : Program} (room : type < typeCapacity) (sub : SubScript)
    (entry : Option EntryPoint) (type' : Nat) (sub' : SubScript) :
    (p.setEntry type sub entry).entryPoint? type' sub' =
      if type' = type ∧ sub' = sub then entry else p.entryPoint? type' sub' := by
  rw [setEntry, dif_pos room, entryPoint?, entryPoint?, Vector.getElem?_set]
  by_cases same : type = type'
  · subst same
    rw [if_pos rfl, Option.bind_some, Entries.get_set, Vector.getElem?_eq_getElem room]
    by_cases same : sub = sub'
    · rw [if_pos same, if_pos ⟨rfl, same.symm⟩]
    · rw [if_neg same, if_neg fun both => same both.2.symm]
      rfl
  · rw [if_neg same, if_neg fun both => same both.1.symm]

/-- What bodies say stays, where they have said something. -/
theorem Statement.Fills.extend_rel {p p' : Program} {closer : Opcode}
    {point? : Option EntryPoint} {s? : Option Statement}
    (h : Option.Rel (Fills p closer) point? s?) (more : p.Extends p') :
    Option.Rel (Fills p' closer) point? s? := by
  cases h with
  | none => exact .none
  | some fills => exact .some (fills.extend more)

/-! ## What a program says -/

/-- A compiler knows the names that scripts have made known. -/
structure Reading.Matches (r : Reading) (c : Compiler) : Prop where
  aliases : c.aliases = r.aliases
  globals : c.globals = r.globals
  types : c.program.typeNames = r.types
  functions : c.program.functions.toList.map (·.name) = r.functions.map (·.1)

/-- **A compiler has compiled what scripts have said**: it knows their names, and the bodies that its
program records say what they said. -/
structure Reading.Says (r : Reading) (c : Compiler) : Prop extends r.Matches c where
  bodies : c.program.Links r.bodies
  subs (type : Nat) (sub : SubScript) :
    Option.Rel (Statement.Fills c.program (.control .stop)) (c.program.entryPoint? type sub)
      (r.subs type sub)

/-- A program without functions and sub-scripts says nothing. -/
theorem Reading.says_empty (globals tags : List Text) (typeNames : Array Text) :
    Reading.Says { globals, types := typeNames } { program := { typeNames }, globals, tags } where
  aliases := rfl
  globals := rfl
  types := rfl
  functions := rfl
  bodies _ := .none
  subs type sub := by
    have none_ : ({ typeNames } : Program).entryPoint? type sub = none := by
      rw [Program.entryPoint?]
      by_cases room : type < typeCapacity
      · rw [Vector.getElem?_eq_getElem room, Vector.getElem_replicate]
        cases sub <;> rfl
      · rw [Vector.getElem?_eq_none (Nat.le_of_not_lt room)]
        rfl
    rw [none_]
    exact .none

namespace Reading.Matches

/-- There are as many functions. -/
theorem length_eq (h : r.Matches c) : r.functions.length = c.program.functions.size := by
  have same := congrArg List.length h.functions
  rw [List.length_map, List.length_map, Array.length_toList] at same
  exact same.symm

/-- A function has the same number. -/
theorem findIdx?_eq (h : r.Matches c) (name : Text) :
    (r.functions.findIdx? fun f => Text.sameName f.1 name) = c.program.functionIndex? name := by
  have same := congrArg (List.findIdx? fun known => Text.sameName known name) h.functions
  rw [List.findIdx?_map, List.findIdx?_map] at same
  rw [Program.functionIndex?, ← c.program.functions.toArray_toList, List.findIdx?_toArray]
  exact same.symm

/-- **Names stand for the same.** -/
theorem names_eq (h : r.Matches c) : c.names = r.names := by
  have functions (name : Text) : c.program.functionIndex? name =
      Program.functionIndex? { functions := (r.functions.map fun f => { name := f.1 }).toArray } name := by
    rw [← h.findIdx?_eq, Program.functionIndex?, List.findIdx?_toArray, List.findIdx?_map]
    rfl
  have same (o : Operand) : substituteFunction c.program o = substituteFunction
      { functions := (r.functions.map fun f => { name := f.1 }).toArray, typeNames := r.types } o := by
    rw [substituteFunction, substituteFunction, functions]
    rfl
  have types (o : Operand) : substituteType c.program o = substituteType
      { functions := (r.functions.map fun f => { name := f.1 }).toArray, typeNames := r.types } o := by
    rw [substituteType, substituteType, Program.typeIndex?, Program.typeIndex?, h.types]
  rw [Compiler.names, Reading.names, Compiler.names, h.aliases]
  congr 1
  funext o
  rw [meaning?, meaning?, substitute, substitute, h.aliases, h.globals, same, types]

/-- Further on in a body no name is new. -/
theorem grows (h : r.Matches c) (grows : c.Grows c') : r.Matches c' where
  aliases := grows.aliases.trans h.aliases
  globals := grows.globals.trans h.globals
  types := grows.typeNames.trans h.types
  functions := grows.functions ▸ h.functions

/-- The entry point of a sub-script is no name. -/
theorem setEntry (h : r.Matches c) (type : Nat) (sub : SubScript) (entry : Option EntryPoint) :
    r.Matches (c.begun.withProgram (·.setEntry type sub entry)) where
  aliases := h.aliases
  globals := h.globals
  types := by
    refine Eq.trans ?_ h.types
    show (c.program.setEntry type sub entry).typeNames = _
    rw [Program.setEntry]
    split <;> rfl
  functions := by
    refine Eq.trans ?_ h.functions
    show (c.program.setEntry type sub entry).functions.toList.map _ = _
    rw [(Program.setEntry_eq c.program type sub entry).2.2]

/-- The entry point of a function is no name. -/
theorem setFunctionEntry (h : r.Matches c) (index : Nat) (entry : Option EntryPoint) :
    r.Matches (c.begun.withProgram (·.setFunctionEntry index entry)) where
  aliases := h.aliases
  globals := h.globals
  types := h.types
  functions := by
    refine Eq.trans ?_ h.functions
    show (c.program.functions.modify index ({ · with entry })).toList.map _ = _
    refine List.ext_getElem? fun k => ?_
    rw [Array.toList_modify, List.getElem?_map, List.getElem?_map, List.getElem?_modify]
    cases c.program.functions.toList[k]? with
    | none => rfl
    | some f =>
      simp only [Option.map_eq_map, Option.map_some]
      split <;> rfl

/-- What the body of a function says is no name. -/
theorem define (h : r.Matches c) (index : Nat) (s : Statement) : (r.define index s).Matches c where
  aliases := h.aliases
  globals := h.globals
  types := h.types
  functions := by
    refine h.functions.trans (List.ext_getElem? fun k => ?_)
    rw [Reading.define, List.getElem?_map, List.getElem?_map, List.getElem?_modify]
    cases r.functions[k]? with
    | none => rfl
    | some f =>
      simp only [Option.map_eq_map, Option.map_some]
      split <;> rfl

end Reading.Matches

namespace Reading.Says

/-- Nothing is said about what the next line belongs to. -/
theorem withMode (h : r.Says c) (mode : Mode) : r.Says (c.withMode mode) :=
  ⟨⟨h.aliases, h.globals, h.types, h.functions⟩, h.bodies, h.subs⟩

/-- A function that is new has no body. -/
theorem declared (h : r.Says c) (name : Text) :
    Reading.Says { r with functions := r.functions ++ [(name, none)] } (c.declared name) where
  aliases := h.aliases
  globals := h.globals
  types := h.types
  functions := by
    rw [Compiler.declared, Array.toList_push, List.map_append, List.map_append, h.functions]
    rfl
  bodies index := by
    have bodies := Fills.extend_rel (h.bodies index) (@Program.Extends.of_eq _ (c.declared name).program rfl rfl)
    rw [Reading.bodies] at bodies ⊢
    show Option.Rel _ ((c.program.functions.push ⟨name, none⟩)[index]?.bind (·.entry)) _
    have length := h.length_eq
    rw [Array.getElem?_push, List.getElem?_append]
    by_cases new : index = c.program.functions.size
    · rw [if_pos new, if_neg (by omega), new, length, Nat.sub_self]
      exact .none
    · rw [if_neg new]
      by_cases old : index < r.functions.length
      · rw [if_pos old]
        exact bodies
      · rw [if_neg old, Array.getElem?_eq_none (by omega), List.getElem?_eq_none (by simp; omega)]
        exact .none
  subs type sub := Fills.extend_rel (h.subs type sub) (.of_eq rfl rfl)

/-- **A function that is made known** has the same number. -/
theorem number (h : r.Says c) {name : Text}
    (known : edit (Program.declareFunction name) c = (.ok index, c')) :
    (r.number name).1 = index ∧ (r.number name).2.Says c' ∧
      index < c'.program.functions.size ∧ c'.mode = c.mode := by
  rw [edit, Program.declareFunction] at known
  rw [Reading.number, h.findIdx?_eq]
  cases found : c.program.functionIndex? name with
  | some index' =>
    rw [found] at known
    obtain ⟨same, rfl⟩ := Prod.mk.inj known
    obtain rfl := Except.ok.inj same
    exact ⟨rfl, h, (Array.findIdx?_eq_some_iff_getElem.1 found).1, rfl⟩
  | none =>
    rw [found] at known
    by_cases room : c.program.functions.size < functionCapacity
    · simp only [if_pos room] at known
      obtain ⟨same, rfl⟩ := Prod.mk.inj known
      obtain rfl := Except.ok.inj same
      refine ⟨h.length_eq, h.declared name, ?_, rfl⟩
      rw [Array.size_push]
      exact Nat.lt_succ_self _
    · simp only [if_neg room] at known
      cases (Prod.mk.inj known).1

/-- **The body of a function** says from now on what it says. -/
theorem define (h : r.Says c) {entry : EntryPoint} (inside : index < c.program.functions.size)
    (grows : (c.begun.withProgram (·.setFunctionEntry index (some entry))).Grows c')
    (fills : s.Fills c'.program (.control .endFunction) entry) : (r.define index s).Says c' := by
  have begun : c.program.Extends
      (c.begun.withProgram (·.setFunctionEntry index (some entry))).program := .of_eq rfl rfl
  have extends_ := begun.trans (grows.extends (Nat.le_refl _))
  have functions : c'.program.functions =
      c.program.functions.modify index ({ · with entry := some entry }) := grows.functions
  refine ⟨((h.setFunctionEntry index (some entry)).grows grows).define index s, fun k => ?_,
    fun type sub => ?_⟩
  · have bodies := Fills.extend_rel (h.bodies k) extends_
    rw [Reading.bodies] at bodies
    rw [functions, Reading.bodies, Reading.define, Array.getElem?_modify, List.getElem?_modify]
    by_cases same : index = k
    · subst same
      rw [if_pos rfl, Array.getElem?_eq_getElem inside,
        List.getElem?_eq_getElem (h.length_eq.symm ▸ inside)]
      simpa using fills
    · rw [if_neg same]
      simpa only [if_neg same, Option.map_eq_map, Option.map_id'] using bodies
  · rw [Program.entryPoint?, grows.entries]
    exact Fills.extend_rel (h.subs type sub) extends_

/-- **A sub-script** says from now on what it says. -/
theorem record (h : r.Says c) {entry : EntryPoint} {sub : SubScript} (room : type < typeCapacity)
    (grows : (c.begun.withProgram (·.setEntry type sub (some entry))).Grows c')
    (fills : s.Fills c'.program (.control .stop) entry) : (r.record type sub s).Says c' := by
  obtain ⟨code, jumps, functions⟩ := Program.setEntry_eq c.begun.program type sub (some entry)
  have extends_ : c.program.Extends c'.program := by
    refine (Program.Extends.of_eq code jumps).trans (grows.extends ?_)
    show (c.begun.program.setEntry type sub (some entry)).jumpTable.size ≤ _
    rw [jumps]
    exact Nat.le_refl _
  have functions' : c'.program.functions = c.program.functions := grows.functions.trans functions
  have known := (h.setEntry type sub (some entry)).grows grows
  refine ⟨⟨known.aliases, known.globals, known.types, known.functions⟩, fun k => ?_,
    fun type' sub' => ?_⟩
  · rw [functions']
    exact Fills.extend_rel (h.bodies k) extends_
  · rw [Program.entryPoint?, grows.entries]
    show Option.Rel _ ((c.begun.program.setEntry type sub (some entry)).entryPoint? type' sub') _
    rw [Program.entryPoint?_setEntry room, Reading.record]
    dsimp only
    by_cases same : type' = type ∧ sub' = sub
    · rw [if_pos same, if_pos same]
      exact .some fills
    · rw [if_neg same, if_neg same]
      exact Fills.extend_rel (h.subs type' sub') extends_

end Reading.Says

/-! ## Bodies -/

theorem Chain.eq_of_nil {code : Array Word} {start stop : Nat} (h : Chain code start [] stop) :
    start = stop := by
  cases h
  rfl

theorem Closes.ne_nil {text : Text} {keyword : String} (h : Closes keyword text)
    (word : keyword.toList ≠ []) : text ≠ [] := by
  rintro rfl
  cases letters : keyword.toList with
  | nil => exact word letters
  | cons =>
    rw [Closes, letters] at h
    cases h

namespace Header

theorem keyword_ne_nil (header : Header) : header.keyword.toList ≠ [] := by
  cases header with
  | sub =>
    show "endsub".toList ≠ []
    decide
  | function =>
    show "endfunction".toList ≠ []
    decide

theorem closer_known (header : Header) : header.closer ∈ Opcode.all ∧ header.closer.arity = 0 := by
  have known : ∀ op ∈ [Opcode.control .stop, Opcode.control .endFunction],
      op ∈ Opcode.all ∧ op.arity = 0 := by decide +kernel
  cases header with
  | sub => exact known _ List.mem_cons_self
  | function => exact known _ (List.mem_cons_of_mem _ List.mem_cons_self)

end Header

/-- **The line that closes a body** is compiled as the opcode that does. -/
theorem closed_of_closes {header : Header} (closes : Closes header.keyword final.text)
    (mode : c.mode = .inside) (compiled : compileLine type final rest c = (.ok (), c')) :
    c.body.blocks = [] ∧ c.program.code.size < codeCapacity ∧
      c' = (c.addCode [header.closer.word]).withMode .outside := by
  have ends : Region.closes final.text = true := by
    rw [Region.closes]
    cases header with
    | sub => rw [show Text.sameName final.text "endsub".toList = true from closes, Bool.true_or]
    | function =>
      rw [show Text.sameName final.text "endfunction".toList = true from closes, Bool.or_true]
  rcases inside_of_compileLine mode compiled with inside | ⟨header, c₁, n, inside, -, -⟩
  · cases inside with
    | @closes op bare room keyword =>
      have same : op = header.closer := by
        cases header with
        | sub =>
          rcases keyword with ⟨-, rfl⟩ | ⟨other, -⟩
          · rfl
          · cases other.symm.trans closes
        | function =>
          rcases keyword with ⟨other, -⟩ | ⟨-, -, rfl⟩
          · have noSub : Text.sameName final.text "endsub".toList = false :=
              Closes.not_closes (show Closes "endfunction" final.text from closes) (by decide)
            cases noSub.symm.trans other
          · rfl
      exact ⟨bare, room, same ▸ rfl⟩
    | platform stays => cases stays.symm.trans ends
    | endsPlatform stays => cases stays.symm.trans ends
    | other stays => cases stays.symm.trans ends
  · cases inside with
    | other stays => cases stays.symm.trans ends

/-- **A body that compiles** says what its passage stands for. -/
theorem Passage.Spells.fills {passage : Passage} {header : Header}
    (spells : Spells Rewrite.Writes passage lines) (closes : Closes header.keyword final.text)
    (mode : c.mode = .inside) (begun : Laid c [] []) (keeps : c.KeepsNumerals)
    (compiled : compileLines type last (lines ++ (final :: rest)) c = (.ok (), c')) :
    ∃ c₁ s slot, passage.resolve c.names 0 = some (s, slot) ∧ c.Grows c₁ ∧
      s.Fills c₁.program header.closer c.body.entry ∧
        compileLines type final.number rest (c₁.withMode .outside) = (.ok (), c') := by
  obtain ⟨c₁, last₁, more, later, s, done, behind⟩ := spells.translates.compiled mode begun keeps compiled
  obtain ⟨c₂, first, behind⟩ := exists_of_compileLines (closes.ne_nil header.keyword_ne_nil) behind
  obtain ⟨bare, room, rfl⟩ := closed_of_closes closes (done.grows.mode.trans mode) first
  obtain ⟨known, many⟩ := header.closer_known
  have stands := done.laid.stands bare known many room
  rw [List.nil_append, onInnermost, List.append_nil] at stands
  have slot : c.slotNumber = 0 := by rw [begun.slotNumber_eq]; rfl
  have offset : c.offset = 0 := by
    rw [Compiler.offset, begun.chain.eq_of_nil, Nat.sub_self]
  have around : c.around = none := by rw [around, begun.blocks]; rfl
  refine ⟨_, s, c₁.slotNumber, ?_, done.grows.addCode [header.closer.word],
    ⟨_, _, done.grows.entry, stands, ?_, ?_⟩, behind⟩
  · rw [← slot]
    exact done.resolves
  · have sits := done.sits
    rw [offset, around, ← done.grows.entry] at sits
    exact sits.mono (List.subset_append_left ..) (List.Subset.refl _)
  · have ends := done.ends
    rw [offset, Nat.zero_add] at ends
    rw [done.laid.size_eq, ends]
    exact List.mem_append_right _ List.mem_cons_self

/-! ## Lines outside bodies -/

theorem Text.exists_of_stripPrefix? {beginning text rest : Text}
    (h : stripPrefix? beginning text = some rest) : ∃ behind, text = beginning ++ behind := by
  have front : beginning.isPrefixOf text = true := by
    rw [← isSome_stripPrefix?, h]
    rfl
  obtain ⟨behind, rfl⟩ := List.isPrefixOf_iff_prefix.1 front
  exact ⟨behind, rfl⟩

theorem Directive.exists_of_alias? {text : Text} {a : Alias} (read : alias? text = some a) :
    ∃ behind, text = "#alias".toList ++ behind := by
  obtain ⟨rest, front, -⟩ := Option.bind_eq_some_iff.1 read
  exact Text.exists_of_stripPrefix? front

theorem Directive.exists_of_function? {text : Text} {l : FunctionLine}
    (read : function? text = some l) :
    ∃ behind, text = "function".toList ++ behind ∨ text = "#function".toList ++ behind := by
  have named {text name : Text} (read : functionName? text = some name) :
      ∃ behind, text = "function".toList ++ behind :=
    Text.exists_of_stripPrefix? (Option.filter_eq_some_iff.1 read).1
  unfold function? at read
  split at read
  · obtain ⟨name, front, -⟩ := Option.map_eq_some_iff.1 read
    obtain ⟨behind, rfl⟩ := named front
    exact ⟨behind, .inr rfl⟩
  · obtain ⟨name, front, -⟩ := Option.map_eq_some_iff.1 read
    obtain ⟨behind, rfl⟩ := named front
    exact ⟨behind, .inl rfl⟩

/-- A marker is neither an alias nor a function. -/
theorem SubScript.ofMarker?_of_head {first : Char} (rest : Text) (other : first.toLower ≠ 's') :
    ofMarker? (first :: rest) = none := by
  rw [ofMarker?, List.find?_eq_none]
  intro sub _ same
  have letter : (first.toLower == 's'.toLower) = true := by
    cases sub <;> exact (Bool.and_eq_true _ _ ▸ same).1
  exact other (of_decide_eq_true letter)

/-- A line about a function makes no alias known and opens no sub-script. -/
theorem Directive.alone_of_function? {text : Text} {l : FunctionLine}
    (read : function? text = some l) : alias? text = none ∧ SubScript.ofMarker? text = none := by
  obtain ⟨behind, rfl | rfl⟩ := exists_of_function? read
  · exact ⟨rfl, SubScript.ofMarker?_of_head _ (by decide)⟩
  · exact ⟨rfl, SubScript.ofMarker?_of_head _ (by decide)⟩

/-- A line that opens a sub-script makes no alias known. -/
theorem Directive.noAlias_of_ofMarker? {text : Text} {sub : SubScript}
    (read : SubScript.ofMarker? text = some sub) : alias? text = none := by
  cases named : alias? text with
  | none => rfl
  | some a =>
    obtain ⟨behind, rfl⟩ := exists_of_alias? named
    cases (SubScript.ofMarker?_of_head _ (by decide)).symm.trans read

/-! ## Scripts -/

/-- A name that is known further on and is no numeral was none before. -/
theorem NamesKept.before (h : NamesKept c') (knows : c'.Knows c) : NamesKept c where
  aliases a member := h.aliases a (knows.aliases member)
  globals name member := h.globals name (knows.globals ▸ member)
  functions f member := by
    obtain ⟨f', member', same⟩ := knows.functions f member
    exact same ▸ h.functions f' member'

section

variable (mode : c.mode = .outside) (compiled : compileLines type last (line :: rest) c = (.ok (), c'))

include mode compiled

/-- A line outside bodies is compiled before the lines behind it. -/
theorem exists_of_outside (written : line.text ≠ []) :
    ∃ c₁, outsideLine type line.text c = (.ok (), c₁) ∧
      compileLines type line.number rest c₁ = (.ok (), c') := by
  obtain ⟨c₁, first, behind⟩ := exists_of_compileLines written compiled
  rw [compileLine_of_outside mode] at first
  exact ⟨c₁, onLine_eq_ok first, behind⟩

/-- A line that is passed over does nothing. -/
theorem passed_over (noAlias : Directive.alias? line.text = none)
    (noSub : SubScript.ofMarker? line.text = none) (noFunction : Directive.function? line.text = none) :
    compileLines type line.number rest c = (.ok (), c') := by
  by_cases empty : line.text = []
  · rwa [compileLines_of_empty empty] at compiled
  · obtain ⟨c₁, first, behind⟩ := exists_of_outside mode compiled empty
    rw [outsideLine, noAlias, noSub, noFunction] at first
    obtain ⟨-, rfl⟩ := Prod.mk.inj first
    exact behind

/-- **A line with an alias** makes it known. -/
theorem compiled_of_alias {a : Alias} (read : Directive.alias? line.text = some a) :
    compileLines type line.number rest { c with aliases := c.aliases ++ [a] } = (.ok (), c') := by
  have written : line.text ≠ [] := by
    intro empty
    rw [empty] at read
    cases read
  obtain ⟨c₁, first, behind⟩ := exists_of_outside mode compiled written
  rw [outsideLine, read] at first
  obtain ⟨-, rfl⟩ := Prod.mk.inj first
  exact behind

/-- **A line that declares a function** gives it a number. -/
theorem compiled_of_declare {name : Text} (read : Directive.function? line.text = some (.declare name)) :
    ∃ index c₁, edit (Program.declareFunction name) c = (.ok index, c₁) ∧
      compileLines type line.number rest c₁ = (.ok (), c') := by
  have written : line.text ≠ [] := by
    intro empty
    rw [empty] at read
    cases read
  obtain ⟨noAlias, noSub⟩ := Directive.alone_of_function? read
  obtain ⟨c₁, first, behind⟩ := exists_of_outside mode compiled written
  rw [outsideLine, noAlias, noSub, read] at first
  dsimp only at first
  rw [discard_apply] at first
  rcases known : edit (Program.declareFunction name) c with ⟨_ | index, c₂⟩
  · rw [known] at first
    cases (Prod.mk.inj first).1
  · rw [known] at first
    obtain ⟨-, rfl⟩ := Prod.mk.inj first
    exact ⟨index, c₂, rfl, behind⟩

/-- **A line that defines a function** opens its body. -/
theorem compiled_of_define {name : Text} (read : Directive.function? line.text = some (.define name)) :
    ∃ index c₁, edit (Program.declareFunction name) c = (.ok index, c₁) ∧
      compileLines type line.number rest (c₁.begun.withProgram
        (·.setFunctionEntry index (some c₁.begun.body.entry))) = (.ok (), c') := by
  have written : line.text ≠ [] := by
    intro empty
    rw [empty] at read
    cases read
  obtain ⟨noAlias, noSub⟩ := Directive.alone_of_function? read
  obtain ⟨c₁, first, behind⟩ := exists_of_outside mode compiled written
  rw [outsideLine, noAlias, noSub, read] at first
  dsimp only at first
  obtain ⟨index, c₂, known, opened⟩ := exists_of_bind_eq_ok first
  obtain ⟨-, rfl⟩ := Prod.mk.inj opened
  exact ⟨index, c₂, known, behind⟩

/-- **A line with a marker** opens the body of a sub-script. -/
theorem compiled_of_marker {sub : SubScript} (read : SubScript.ofMarker? line.text = some sub) :
    compileLines type line.number rest (c.begun.withProgram
      (·.setEntry type sub (some c.begun.body.entry))) = (.ok (), c') := by
  have written : line.text ≠ [] := by
    intro empty
    rw [empty] at read
    cases read
  obtain ⟨c₁, first, behind⟩ := exists_of_outside mode compiled written
  rw [outsideLine, Directive.noAlias_of_ofMarker? read, read] at first
  obtain ⟨-, rfl⟩ := Prod.mk.inj first
  exact behind

end

/-- **A body that compiles** says what its passage stands for, by the names where it begins. -/
theorem Passage.Spells.says {passage : Passage} {header : Header} {change : Program → Program}
    (spells : Spells Rewrite.Writes passage lines) (closes : Closes header.keyword final.text)
    (code : (change c.begun.program).code = c.program.code)
    (jumps : (change c.begun.program).jumpTable = c.program.jumpTable)
    (known : r.Matches (c.begun.withProgram change)) (kept : NamesKept c')
    (compiled : compileLines type last (lines ++ (final :: rest)) (c.begun.withProgram change) =
      (.ok (), c')) :
    ∃ c₁ s slot, passage.resolve r.names 0 = some (s, slot) ∧ (c.begun.withProgram change).Grows c₁ ∧
      s.Fills c₁.program header.closer c.begun.body.entry ∧
        compileLines type final.number rest (c₁.withMode .outside) = (.ok (), c') := by
  have begun : Laid (c.begun.withProgram change) [] [] := (Laid.begun c).congr code jumps rfl
  have between : Between (c.begun.withProgram change) [] := fun _ => begun.begun'
  have keeps := (kept.before (Between.knows_lines between compiled)).keepsNumerals
  obtain ⟨c₁, s, slot, resolves, grows, fills, behind⟩ := spells.fills closes rfl begun keeps compiled
  exact ⟨c₁, s, slot, known.names_eq ▸ resolves, grows, fills, behind⟩

/-- **A part of a script that compiles** adds to the program what it says. -/
theorem Item.Spells.says {item : Item} (spells : item.Spells Rewrite.Writes lines)
    (room : type < typeCapacity) (mode : c.mode = .outside) (h : r.Says c) (kept : NamesKept c')
    (compiled : compileLines type last (lines ++ rest) c = (.ok (), c')) :
    ∃ c₁ last' r', item.read type r = some r' ∧ r'.Says c₁ ∧ c₁.mode = .outside ∧
      compileLines type last' rest c₁ = (.ok (), c') := by
  cases spells with
  | remark noAlias noSub noFunction =>
    exact ⟨c, _, r, rfl, h, mode, passed_over mode compiled noAlias noSub noFunction⟩
  | @named line a read =>
    have known : r.Matches c := h.toMatches
    refine ⟨{ c with aliases := c.aliases ++ [a] }, _, _, rfl,
      ⟨⟨?_, known.globals, known.types, known.functions⟩, h.bodies, h.subs⟩, mode,
      compiled_of_alias mode compiled read⟩
    exact congrArg (· ++ [a]) known.aliases
  | declared read =>
    obtain ⟨index, c₁, known, behind⟩ := compiled_of_declare mode compiled read
    obtain ⟨-, told, -, mode'⟩ := h.number known
    exact ⟨c₁, _, _, rfl, told, mode'.trans mode, behind⟩
  | @body first final header passage lines opens inside closes =>
    rw [List.cons_append, List.append_assoc] at compiled
    -- The entry point is recorded before the body, so what is told of the body is told at that.
    cases header with
    | sub sub =>
      have behind := compiled_of_marker mode compiled opens
      obtain ⟨code, jumps, -⟩ :=
        Program.setEntry_eq c.begun.program type sub (some c.begun.body.entry)
      obtain ⟨c₁, s, slot, resolves, grows, fills, behind⟩ :=
        inside.says closes code jumps (h.setEntry type sub _) kept behind
      refine ⟨_, _, r.record type sub s, ?_, (h.record room grows fills).withMode .outside, rfl, behind⟩
      rw [Item.read, resolves]
      rfl
    | function name =>
      obtain ⟨index, c₁, known, behind⟩ := compiled_of_define mode compiled opens
      obtain ⟨same, told, new, -⟩ := h.number known
      obtain ⟨c₂, s, slot, resolves, grows, fills, behind⟩ :=
        inside.says closes rfl rfl (told.setFunctionEntry index _) kept behind
      refine ⟨_, _, (r.number name).2.define index s, ?_, (told.define new grows fills).withMode .outside,
        rfl, behind⟩
      rw [Item.read]
      dsimp only
      rw [resolves, same]
      rfl

/-- **The parts of a script that compiles** add to the program what they say. -/
theorem Script.Spells.says {script : List Item} (spells : Script.Spells Rewrite.Writes script lines)
    (room : type < typeCapacity) (mode : c.mode = .outside) (h : r.Says c) (kept : NamesKept c')
    (compiled : compileLines type last lines c = (.ok (), c')) :
    ∃ r', Script.readItems type script r = some r' ∧ r'.Says c' := by
  induction spells generalizing c r last with
  | nil =>
    obtain ⟨-, rfl⟩ := eq_of_compileLines_nil compiled
    exact ⟨r, rfl, h⟩
  | cons first _ ih =>
    obtain ⟨c₁, last₁, r₁, read, told, mode₁, behind⟩ := first.says room mode h kept compiled
    obtain ⟨r', others, told'⟩ := ih mode₁ told behind
    refine ⟨r', ?_, told'⟩
    rw [Script.readItems, read]
    exact others

/-! ## Files -/

/-- **What sub-scripts say governs their runs.** -/
theorem Reading.Says.governs (h : r.Says c) (type : Nat) (sub : SubScript) :
    Option.Rel (fun entry s => s.Governs c.program r.bodies entry) (c.program.entryPoint? type sub)
      (r.subs type sub) := by
  have fills := h.subs type sub
  generalize c.program.entryPoint? type sub = entry?, r.subs type sub = s? at fills
  cases fills with
  | none => exact .none
  | some fills => exact .some (fills.governs h.bodies)

/-- **Scripts do what they say.** Where a script compiles everything in it means something, and what its
sub-scripts say, with the bodies of the functions, governs the runs from the entry points that the program
records: the instructions on data that they carry out, and the registers, the scene and the calls of the
host that they come to. The earlier files of the program have to be compiled to what they said; no name
may be a numeral; and no operand of a condition may be written with an operator or in parentheses. -/
theorem compileFile_governs {path : String} {source : Text} {script : List Item}
    (spells : Script.Spells Rewrite.Writes script (Line.ofSource source)) (h : r.Says c)
    (compiled : compileFile path source type c = (.ok (), c')) (kept : NamesKept c') :
    ∃ r', Script.read type script r = some r' ∧ r'.Says c' ∧ ∀ type sub,
      Option.Rel (fun entry s => s.Governs c'.program r'.bodies entry)
        (c'.program.entryPoint? type sub) (r'.subs type sub) := by
  obtain ⟨room, lines⟩ := compileFile_eq_ok_iff.1 compiled
  -- Each file begins with the aliases that all files have, and keeps all else.
  have begun : Reading.Says { r with aliases := defaultAliases } c.startFile :=
    ⟨⟨rfl, h.globals, h.types, h.functions⟩, h.bodies, h.subs⟩
  obtain ⟨r', read, told⟩ := spells.says room rfl begun kept lines
  exact ⟨r', read, told, told.governs⟩

/-- An operand without an index. -/
def word (s : String) : Operand := ⟨s.toList, none⟩

/-- A script that calls a function when it has counted to two. -/
def tallying : Text :=
  ("functionTally\nendfunction\nsubObjectMain\nwhile(TempValue0<3)\nswitchTempValue0\ncase2:\n" ++
    "CallFunction(Tally)\nbreak\ndefault:\nTempValue0++\nendswitch\nloop\nendsub").toList

/-- The parts of the script. -/
def tallyingParts : List Item :=
  [.body (.function "Tally".toList) .skip,
    .body (.sub .main)
      (.loop .lower (word "TempValue0") (word "3")
        (.switch (word "TempValue0")
          (.seq (.case "2".toList) (.seq (.call (word "Tally"))
            (.seq .leave (.seq .fallback (.act (.unary .inc) [word "TempValue0"])))))))]

theorem spells_tallying : Script.Spells Rewrite.Writes tallyingParts (Line.ofSource tallying) := by
  have lines : Line.ofSource tallying = [⟨1, "functionTally".toList⟩, ⟨2, "endfunction".toList⟩,
      ⟨3, "subObjectMain".toList⟩, ⟨4, "while(TempValue0<3)".toList⟩, ⟨5, "switchTempValue0".toList⟩,
      ⟨6, "case2:".toList⟩, ⟨7, "CallFunction(Tally)".toList⟩, ⟨8, "break".toList⟩,
      ⟨9, "default:".toList⟩, ⟨10, "TempValue0++".toList⟩, ⟨11, "endswitch".toList⟩,
      ⟨12, "loop".toList⟩, ⟨13, "endsub".toList⟩] := by decide +kernel
  have label : Passage.Spells Rewrite.Writes (.case "2".toList) [⟨6, "case2:".toList⟩] :=
    .case (by decide +kernel) (by decide +kernel)
  have call : Passage.Spells Rewrite.Writes (.call (word "Tally"))
      [⟨7, "CallFunction(Tally)".toList⟩] :=
    .call (@Instructs.call _ _ "CallFunction".toList _ (by decide +kernel) (by decide +kernel)
      (by decide +kernel))
  have leave : Passage.Spells Rewrite.Writes .leave [⟨8, "break".toList⟩] := .leave (by decide)
  have others : Passage.Spells Rewrite.Writes .fallback [⟨9, "default:".toList⟩] :=
    .fallback (by decide) (by decide +kernel)
  have count : Passage.Spells Rewrite.Writes (.act (.unary .inc) [word "TempValue0"])
      [⟨10, "TempValue0++".toList⟩] :=
    .act (@Instructs.unary _ ⟨.unary .inc, "TempValue0".toList, "++".toList, []⟩ _ (by decide +kernel)
      (by decide +kernel) rfl (Call.reads_plain (Text.forall_mem_of_all (by decide)))
      (by decide)) rfl
  have choice : Passage.Spells Rewrite.Writes (.switch (word "TempValue0") _)
      (⟨5, "switchTempValue0".toList⟩ :: (_ ++ [⟨11, "endswitch".toList⟩])) :=
    .switch
      (@Selects.intro _ "TempValue0".toList (Call.reads_plain (Text.forall_mem_of_all (by decide))))
      (by decide) (label.seq (call.seq (leave.seq (others.seq count)))) (by decide)
  have test : Tests Rewrite.Writes .whileLine .lower (word "TempValue0") (word "3")
      ("while".toList ++ ("(TempValue0".toList ++ ("<".toList ++ "3)".toList))) :=
    .intro (by decide)
      ⟨Text.forall_mem_of_all (by decide), Call.reads_plain (Text.forall_mem_of_all (by decide))⟩
      ⟨Text.forall_mem_of_all (by decide), Call.reads_plain (Text.forall_mem_of_all (by decide))⟩
  have loop : Passage.Spells Rewrite.Writes (.loop .lower (word "TempValue0") (word "3") _)
      (⟨4, "while(TempValue0<3)".toList⟩ :: (_ ++ [⟨12, "loop".toList⟩])) :=
    .loop test choice (by decide)
  have function : Item.Spells Rewrite.Writes (.body (.function "Tally".toList) .skip)
      (⟨1, "functionTally".toList⟩ :: ([] ++ [⟨2, "endfunction".toList⟩])) :=
    .body (by decide +kernel) .nothing (by decide)
  have sub : Item.Spells Rewrite.Writes (.body (.sub .main) _)
      (⟨3, "subObjectMain".toList⟩ :: (_ ++ [⟨13, "endsub".toList⟩])) :=
    .body (by decide +kernel) loop (by decide)
  rw [lines]
  exact .cons function (.cons sub .nil)

/-- What the first sub-script of the first type and the names are when a file has been compiled. -/
def outline (result : Except CompileError Unit × Compiler) :
    Option Unit × Option EntryPoint × List Alias × List Text × List Text :=
  (result.1.toOption, result.2.program.entryPoint? 1 .main, result.2.aliases, result.2.globals,
    result.2.program.functions.toList.map (·.name))

theorem compiled_of_outline {result : Except CompileError Unit × Compiler} {entry : EntryPoint}
    {functions : List Text}
    (same : outline result = (some (), some entry, defaultAliases, [], functions))
    (kept : ∀ name ∈ functions, Numeral.natural? name = none) :
    ∃ c', result = (.ok (), c') ∧ c'.program.entryPoint? 1 .main = some entry ∧ NamesKept c' := by
  simp only [outline, Prod.mk.injEq] at same
  obtain ⟨done, at_, aliases, globals, rfl⟩ := same
  refine ⟨result.2, Except.eq_of_toOption done, at_, aliases ▸ by decide +kernel,
    globals ▸ List.forall_mem_nil _, fun f member => ?_⟩
  exact kept _ (List.mem_map_of_mem (Array.mem_toList_iff.2 member))

theorem outline_tallying : outline (compileFile "" tallying 1 freshCompiler) =
    (some (), some ⟨1, 0⟩, defaultAliases, [], ["Tally".toList]) := by decide +kernel

theorem compileFile_governs_tallying : ∃ c' r' s,
    compileFile "" tallying 1 freshCompiler = (.ok (), c') ∧
      c'.program.entryPoint? 1 .main = some ⟨1, 0⟩ ∧ Script.read 1 tallyingParts {} = some r' ∧
        r'.subs 1 .main = some s ∧ s.Governs c'.program r'.bodies ⟨1, 0⟩ := by
  obtain ⟨c', compiled, entry, kept⟩ := compiled_of_outline outline_tallying (by decide +kernel)
  have empty : Reading.Says {} freshCompiler := Reading.says_empty [] [] _
  obtain ⟨r', read, -, governs⟩ := compileFile_governs spells_tallying empty compiled kept
  have governed := governs 1 .main
  rw [entry] at governed
  generalize told : r'.subs 1 .main = s? at governed
  cases governed with
  | some governed => exact ⟨c', r', _, compiled, entry, read, told, governed⟩

/-! ## Parentheses -/

/-- An operand that is written as in a call, without the characters of operators. -/
structure Operator.Spares (text : Text) (o : Operand) : Prop where
  free : ∀ c ∈ text, c ∉ (comparisons.map (·.1) ++ assignments.map (·.1)).flatMap String.toList
  reads : Call.Reads text o

/-- A script that compares with a text in parentheses. -/
def bracketed : Text := "subObjectMain\nifTempValue0==\"(x)\"\nLoadVideo(0)\nendif\nendsub".toList

/-- The parts of the script. -/
def bracketedParts : List Item :=
  [.body (.sub .main) (.branch .equal (word "TempValue0") (word "\"(x)\"")
    (.act (.platform .loadVideo) [word "0"]) false .skip)]

/-- There is a first temporary value. -/
theorem zero_lt_temps : 0 < 8 := by decide

/-- What its sub-script says. -/
def bracketedSays : Statement :=
  .branch 0 .equal (.element (.temp ⟨0, zero_lt_temps⟩) .self) (.text "(x)".toList)
    (.act (.platform .loadVideo) [.integer 0]) false .skip

theorem spells_bracketed : Script.Spells Operator.Spares bracketedParts (Line.ofSource bracketed) := by
  have lines : Line.ofSource bracketed = [⟨1, "subObjectMain".toList⟩,
      ⟨2, "ifTempValue0==\"(x)\"".toList⟩, ⟨3, "LoadVideo(0)".toList⟩, ⟨4, "endif".toList⟩,
      ⟨5, "endsub".toList⟩] := by decide +kernel
  have load : Passage.Spells Operator.Spares (.act (.platform .loadVideo) [word "0"])
      [⟨3, "LoadVideo(0)".toList⟩] :=
    .act (@Instructs.call _ _ "LoadVideo".toList _ (by decide +kernel) (by decide +kernel)
      (by decide +kernel)) rfl
  have tests : Tests Operator.Spares .ifLine .equal (word "TempValue0") (word "\"(x)\"")
      ("if".toList ++ ("TempValue0".toList ++ ("==".toList ++ "\"(x)\"".toList))) :=
    .intro (by decide)
      ⟨Text.forall_mem_of_all (by decide), Call.reads_plain (Text.forall_mem_of_all (by decide))⟩
      ⟨Text.forall_mem_of_all (by decide), @Call.reads_quote "(x)".toList (by decide)⟩
  have test : Passage.Spells Operator.Spares (.branch .equal (word "TempValue0") (word "\"(x)\"") _ false .skip)
      (⟨2, "ifTempValue0==\"(x)\"".toList⟩ :: (_ ++ [⟨4, "endif".toList⟩])) :=
    .branch tests load (by decide)
  have sub : Item.Spells Operator.Spares (.body (.sub .main) _)
      (⟨1, "subObjectMain".toList⟩ :: (_ ++ [⟨5, "endsub".toList⟩])) :=
    .body (by decide +kernel) test (by decide)
  rw [lines]
  exact .cons sub .nil

theorem outline_bracketed : outline (compileFile "" bracketed 1 freshCompiler) =
    (some (), some ⟨0, 0⟩, defaultAliases, [], []) := by decide +kernel

/-- **Parentheses get lost** in texts of conditions, though they are no operators: the host is told
another text than the script says. -/
theorem not_all_govern : ¬ ∀ (script : List Item) (source : Text) (type : Nat) (r : Reading)
    (c c' : Compiler), Script.Spells Operator.Spares script (Line.ofSource source) → r.Says c →
      compileFile "" source type c = (.ok (), c') → NamesKept c' →
        ∃ r', Script.read type script r = some r' ∧ ∀ type sub,
          Option.Rel (fun entry s => s.Governs c'.program r'.bodies entry)
            (c'.program.entryPoint? type sub) (r'.subs type sub) := by
  intro all
  obtain ⟨c', compiled, entry, kept⟩ := compiled_of_outline outline_bracketed (List.forall_mem_nil _)
  have empty : Reading.Says {} freshCompiler := Reading.says_empty [] [] _
  obtain ⟨r', read, governs⟩ := all bracketedParts bracketed 1 {} freshCompiler c' spells_bracketed
    empty compiled kept
  have said : (Script.read 1 bracketedParts {}).bind (·.subs 1 .main) = some bracketedSays := by
    decide +kernel
  rw [read] at said
  have governed := governs 1 .main
  rw [entry, show r'.subs 1 .main = some bracketedSays from said] at governed
  cases governed with
  | some governed =>
    have ran := governed.is_run ⟨0, .main⟩ patient
    have ended : (run c'.program ⟨0, .main⟩ ⟨0, 0⟩ patient).1.toOption = some () ∧
        (run c'.program ⟨0, .main⟩ ⟨0, 0⟩ patient).2.scriptText = "x" := by
      rw [← show (compileFile "" bracketed 1 freshCompiler).2 = c' by rw [compiled]]
      decide +kernel
    rw [ran] at ended
    -- the statement tests the text with its parentheses and loads it
    have tested : (test 0 0 0 .equal (.element (.temp 0) .self) (.text "(x)".toList) patient).1.toOption =
        some true := by decide +kernel
    have loaded : (Instruction.act ⟨0, .main⟩ ⟨0, .platform .loadVideo, [.integer 0]⟩
        (test 0 0 0 .equal (.element (.temp 0) .self) (.text "(x)".toList) patient).2).2.scriptText =
          "(x)" := by decide +kernel
    have runs : bracketedSays.Runs r'.bodies ⟨0, .main⟩ 0 0 patient _ _ _ :=
      .branch (Prod.ext (Except.eq_ok_of_toOption tested) rfl) (.act rfl)
    rcases governed.does runs with agrees | ⟨⟨budget, cut⟩, -⟩
    · obtain ⟨branches, calls, steps, same⟩ := agrees.machine
      have text := congrArg Machine.scriptText same
      rw [ended.2] at text
      exact absurd (text.trans loaded) (by decide)
    · rw [cut] at ended
      cases ended.1

end StageScript
