import StageScript.Proofs.Compiler.Appending
import StageScript.Proofs.Compiler.Closure
import StageScript.Proofs.Compiler.Sound

/-! # Files that fail
What a file added before it failed stays in the program, and so do the entry points of its bodies.
* `Compiler.closedBodies` — the bodies that lines close, up to the first that does not compile;
* **`Adds`** — what lines leave of a program and what they add to it, whatever they end in;
* **`addScripts_recorded`** — behind each entry point is a body without a loose end, or the one that
  a file had open where it failed. -/

namespace StageScript

open Stepwise Compiler

/-! ## What is recorded -/

/-- What an entry point may be recorded for: a sub-script of an object type, or a function. -/
inductive Place where
  | sub (type : Nat) (sub : SubScript)
  | function (index : Nat)

namespace Program

/-- The entry point that is recorded for something. -/
def recorded? (p : Program) : Place → Option EntryPoint
  | .sub type sub => p.entryPoint? type sub
  | .function index => p.functionPoint? index

theorem recorded?_congr {p p' : Program} (entries : p'.entries = p.entries)
    (functions : p'.functions = p.functions) (place : Place) :
    p'.recorded? place = p.recorded? place := by
  cases place with
  | sub type sub => rw [recorded?, recorded?, entryPoint?, entryPoint?, entries]
  | function index => rw [recorded?, recorded?, functionPoint?, functionPoint?, functions]

/-- A function that becomes known has no entry point yet. -/
theorem functionPoint?_of_push {p : Program} {name : Text} {index : Nat} {e : EntryPoint}
    (h : { p with functions := p.functions.push ⟨name, none⟩ : Program }.functionPoint? index =
      some e) : p.functionPoint? index = some e := by
  rw [functionPoint?, Array.getElem?_push] at h
  split at h
  · cases h
  · exact h

theorem functionPoint?_setFunctionEntry {p : Program} {index index' : Nat} {e e' : EntryPoint}
    (h : (p.setFunctionEntry index (some e)).functionPoint? index' = some e') :
    e' = e ∨ p.functionPoint? index' = some e' := by
  rw [functionPoint?, setFunctionEntry, Array.getElem?_modify] at h
  split at h
  · obtain ⟨f, changed, has⟩ := Option.bind_eq_some_iff.1 h
    obtain ⟨f', -, rfl⟩ := Option.map_eq_some_iff.1 changed
    exact .inl (Option.some.inj has).symm
  · exact .inr h

end Program

namespace Compiler

/-- The entry point of the body that is open. -/
def openPoint? (c : Compiler) : Option EntryPoint :=
  match c.mode with
  | .outside => none
  | _ => some c.body.entry

theorem openPoint?_of_open {c : Compiler} (mode : c.mode ≠ .outside) :
    c.openPoint? = some c.body.entry := by
  rw [openPoint?]
  split
  · next outside => exact absurd outside mode
  · rfl

/-- **The bodies that lines close**, up to the first line that does not compile. `bs` are the blocks
of the body that is open in front of the lines. -/
def closedBodies (type : Nat) : Compiler → List BlockRecord → List Line → List BodyRecord
  | _, _, [] => []
  | c, bs, line :: rest =>
    if line.text = [] then closedBodies type c bs rest
    else
      match compileLine type line rest c with
      | (.ok _, c') =>
        let told := c.told c' line rest bs
        told.1 ++ closedBodies type c' told.2 rest
      | (.error _, _) => []

theorem closer_of_told {c c' : Compiler} {line : Line} {rest : List Line} {bs : List BlockRecord}
    {r : BodyRecord} (member : r ∈ (c.told c' line rest bs).1) :
    r.closer = .control .stop ∨ r.closer = .control .endFunction := by
  rw [told] at member
  split at member
  · cases member
  · cases member
  · split at member
    · obtain rfl := List.mem_singleton.1 member
      rw [closingOpcode]
      split
      · exact .inl rfl
      · exact .inr rfl
    · cases member

/-- A body is closed by an `endsub` or an `endfunction`. -/
theorem closer_of_closedBodies {type : Nat} {c : Compiler} {bs : List BlockRecord}
    {lines : List Line} {r : BodyRecord} (member : r ∈ closedBodies type c bs lines) :
    r.closer = .control .stop ∨ r.closer = .control .endFunction := by
  induction lines generalizing c bs with
  | nil => cases member
  | cons line rest ih =>
    rw [closedBodies] at member
    split at member
    · exact ih member
    · split at member
      · rcases List.mem_append.1 member with told | later
        · exact closer_of_told told
        · exact ih later
      · cases member

end Compiler

/-! ## Lines outside bodies -/

section

variable {c c' : Compiler} {type : Nat}

theorem declareFunction_eq_error {name : Text} {reason : CompileReason}
    (h : edit (Program.declareFunction name) c = (.error reason, c')) : c' = c := by
  rw [edit, Program.declareFunction] at h
  cases known : c.program.functionIndex? name with
  | some index =>
    rw [known] at h
    cases (Prod.mk.inj h).1
  | none =>
    rw [known] at h
    by_cases room : c.program.functions.size < functionCapacity
    · simp only [if_pos room] at h
      cases (Prod.mk.inj h).1
    · simp only [if_neg room] at h
      exact (Prod.mk.inj h).2.symm

/-- **A line outside bodies** that does not compile leaves everything as it is. -/
theorem outsideLine_eq_error {text : Text} {reason : CompileReason}
    (h : outsideLine type text c = (.error reason, c')) : c' = c := by
  unfold outsideLine at h
  cases read : Directive.alias? text with
  | some a =>
    rw [read] at h
    cases (Prod.mk.inj h).1
  | none =>
    rw [read] at h
    dsimp only at h
    cases marker : SubScript.ofMarker? text with
    | some sub =>
      rw [marker] at h
      cases (Prod.mk.inj h).1
    | none =>
      rw [marker] at h
      dsimp only at h
      cases function : Directive.function? text with
      | none =>
        rw [function] at h
        cases (Prod.mk.inj h).1
      | some directive =>
        rw [function] at h
        -- all that can fail is to make a function known
        cases directive with
        | declare name =>
          dsimp only at h
          rw [discard_apply] at h
          rcases made : edit (Program.declareFunction name) c with ⟨_ | index, c₁⟩
          · rw [made] at h
            obtain ⟨-, rfl⟩ := Prod.mk.inj h
            exact declareFunction_eq_error made
          · rw [made] at h
            cases (Prod.mk.inj h).1
        | define name =>
          dsimp only at h
          rcases made : edit (Program.declareFunction name) c with ⟨_ | index, c₁⟩
          · rw [bind_apply_of_error made] at h
            obtain ⟨-, rfl⟩ := Prod.mk.inj h
            exact declareFunction_eq_error made
          · rw [bind_apply_of_ok made] at h
            cases (Prod.mk.inj h).1

/-- A line outside bodies records no entry point but that of the body that it opens. -/
theorem Outside.records {text : Text} (h : Outside c type text c') {place : Place} {e : EntryPoint}
    (recorded : c'.program.recorded? place = some e) :
    c.program.recorded? place = some e ∨ c'.openPoint? = some e := by
  have declared {known : Compiler} {name : Text} (made : known = c ∨ known = c.declared name)
      (place : Place) (recorded : known.program.recorded? place = some e) :
      c.program.recorded? place = some e := by
    obtain rfl | rfl := made
    · exact recorded
    · cases place with
      | sub => exact recorded
      | function index => exact Program.functionPoint?_of_push recorded
  cases h with
  | named => exact .inl recorded
  | sub =>
    cases place with
    | sub =>
      exact (Program.eq_or_of_entryPoint?_setEntry recorded).symm.imp_right fun new =>
        congrArg some new.symm
    | function index =>
      obtain ⟨-, -, functions⟩ :=
        Program.setEntry_eq c.begun.program type _ (some c.begun.body.entry)
      rw [← recorded]
      exact .inl (congrArg (fun known : Array Function => known[index]?.bind (·.entry))
        functions.symm)
  | declare _ _ _ known => exact .inl (declared known place recorded)
  | define _ _ _ known =>
    cases place with
    | sub type' sub => exact .inl (declared known (.sub type' sub) recorded)
    | function index =>
      rcases Program.functionPoint?_setFunctionEntry recorded with rfl | old
      · exact .inr rfl
      · exact .inl (declared known (.function index) old)
  | none => exact .inl recorded

/-! ## Lines of bodies -/

/-- The body that is open is compiled behind a program, as it would be by itself. -/
def Apart (type : Nat) (c : Compiler) : Prop :=
  ∃ p q, c = behind p type q ∧ Sound p q ∧ c.body.entry.jump = p.jumpTable.size

/-- **What a line that does not close the open body leaves**: it stays open, and whatever stands in
front of it stays as it is. -/
structure Leaves (c c' : Compiler) : Prop where
  mode : c'.mode ≠ .outside
  entry : c'.body.entry = c.body.entry
  entries : c'.program.entries = c.program.entries
  functions : c'.program.functions = c.program.functions
  code : ∃ more, c'.program.code = c.program.code ++ more
  jumps : ∀ slot < c.body.entry.jump, c'.program.jumpTable[slot]? = c.program.jumpTable[slot]?

theorem Relocates.exists_place {ε σ α β : Type} {full : ε → Bool} {place : σ → σ} {sound : σ → Prop}
    {move : α → β} {x : ExceptT ε (StateM σ) α} {x' : ExceptT ε (StateM σ) β}
    (h : Relocates full place sound move x x') {s : σ} (good : sound s) :
    ∃ s', (x' (place s)).2 = place s' ∧ sound s' := by
  rcases h.runs good with ⟨e, s', ran, -, good'⟩ | ⟨ran, good'⟩
  · exact ⟨s', by rw [ran], good'⟩
  · exact ⟨_, by rw [ran], good'⟩

/-- What is compiled further behind a program leaves what is in front of it. -/
theorem Compiler.Further.leaves {p : Program} {q q' : Compiler} (h : Further p q q')
    (mode : q.mode ≠ .outside) (start : (q.behind p type).body.entry.jump = p.jumpTable.size) :
    Leaves (q.behind p type) (q'.behind p type) where
  mode := h.mode mode
  entry := congrArg (EntryPoint.behind · p) h.entry
  entries := by
    show (q'.program.behind p type).entries = (q.program.behind p type).entries
    rw [Program.behind, Program.behind, h.entries]
  functions := by
    show (q'.program.behind p type).functions = (q.program.behind p type).functions
    rw [Program.behind, Program.behind, h.functions]
  code := by
    obtain ⟨more, grown⟩ := h.grown
    refine ⟨more, ?_⟩
    show p.code ++ q'.program.code = p.code ++ q.program.code ++ more
    rw [grown, Array.append_assoc]
  jumps slot front := by
    rw [start] at front
    show (p.jumpTable ++ q'.program.jumpTable)[slot]? = (p.jumpTable ++ q.program.jumpTable)[slot]?
    rw [Array.getElem?_append_left front, Array.getElem?_append_left front]

/-- Words that are added to the code leave the body open. -/
theorem leaves_addCode (mode : c.mode ≠ .outside) (words : List Word) :
    Leaves c (c.addCode words) :=
  ⟨mode, rfl, rfl, rfl, ⟨words.toArray, rfl⟩, fun _ _ => rfl⟩

/-- What a closing line that does not compile adds to the code. -/
theorem closeBody_eq_error {op : Opcode} {reason : CompileReason}
    (h : closeBody op c = (.error reason, c')) : ∃ words, c' = c.addCode words := by
  rw [closeBody, bind_apply, get_apply] at h
  dsimp only at h
  cases bare : c.body.blocks with
  | cons block others =>
    rw [bare] at h
    obtain ⟨-, rfl⟩ := Prod.mk.inj h
    exact ⟨[], (addCode_nil c).symm⟩
  | nil =>
    rw [bare] at h
    dsimp only at h
    rw [bind_apply, emit_apply] at h
    by_cases room : [op.word].length ≤ codeCapacity - c.program.code.size
    · rw [if_pos room] at h
      dsimp only at h
      rw [bind_apply, get_apply] at h
      dsimp only at h
      cases left : (c.addCode [op.word]).unresolvedSlot? with
      | some slot =>
        rw [left] at h
        obtain ⟨-, rfl⟩ := Prod.mk.inj h
        exact ⟨_, rfl⟩
      | none =>
        rw [left] at h
        cases (Prod.mk.inj h).1
    · rw [if_neg room] at h
      obtain ⟨-, rfl⟩ := Prod.mk.inj h
      exact ⟨_, rfl⟩

theorem compileLine_of_closes {line : Line} (mode : c.mode = .inside)
    (closes : Region.closes line.text = true) (rest : List Line) :
    compileLine type line rest c =
      onLine line.number (closeBody (closingOpcode line.text)) c := by
  rw [compileLine, bind_apply, get_apply]
  dsimp only
  rw [mode, insideLine_of_closes closes]
  dsimp only
  rw [bind_apply, onLine, onLine, bind_apply]
  rcases closeBody (closingOpcode line.text) c with ⟨_ | ⟨⟩, c'⟩ <;> rfl

/-- A line of a body that does not close it. -/
theorem insideLine_of_goesOn {text : Text} (noKeyword : Region.closes text = false) :
    insideLine text = goesOn text := by
  obtain ⟨noSub, noFunction⟩ := Bool.or_eq_false_iff.1 noKeyword
  rw [insideLine, noSub, noFunction, if_neg Bool.false_ne_true, if_neg Bool.false_ne_true]
  rfl

/-- A line that does not close the open body moves with it. -/
theorem relocates_bodyLine {p : Program} {q : Compiler} {line : Line}
    (noKeyword : Region.closes line.text = false) (rest : List Line) :
    MovesLines p type (Further p q) id
      (do match ← onLine line.number (insideLine line.text) with
        | some header => prime header line.number rest
        | none => return)
      (do match ← onLine line.number (insideLine line.text) with
        | some header => prime header line.number rest
        | none => return) := by
  rw [insideLine_of_goesOn noKeyword]
  refine .bind (relocates_onLine (relocates_goesOn line.text) line.number) fun header? => ?_
  cases header? with
  | none => exact .pure _ _
  | some header => exact relocates_prime header line.number rest

/-- **A line that does not close the open body** leaves it open, be it that it compiles or fails. -/
theorem Apart.leaves {line : Line} (h : Apart type c) (mode : c.mode ≠ .outside)
    (goesOn : c.mode = .inside → Region.closes line.text = false) (rest : List Line) :
    Leaves c (compileLine type line rest c).2 ∧ Apart type (compileLine type line rest c).2 := by
  obtain ⟨p, q, rfl, good, start⟩ := h
  rw [mode_behind] at mode goesOn
  have further : ∃ q', (compileLine type line rest (behind p type q)).2 = behind p type q' ∧
      Further p q q' := by
    rw [compileLine, bind_apply, get_apply]
    dsimp only
    rw [mode_behind]
    cases here : q.mode with
    | outside => exact absurd here mode
    | skipping =>
      have skips : MovesLines p type (Further p q) id
          (do if Directive.endsPlatform line.text then modify fun c => { c with mode := .inside })
          (do if Directive.endsPlatform line.text then modify fun c => { c with mode := .inside })
        := .ite (.modify (fun _ => rfl) fun _ good =>
          ⟨⟨good.typeNames, good.names, good.code, good.jumps⟩, good.entries, good.functions,
            fun _ => (by decide : Mode.inside ≠ .outside), good.entry, good.grown⟩) (.pure _ _)
      exact skips.exists_place (Further.refl good)
    | inside => exact (relocates_bodyLine (goesOn here) rest).exists_place (Further.refl good)
  obtain ⟨q', ran, further⟩ := further
  have leaves : Leaves (behind p type q) (behind p type q') := further.leaves mode start
  rw [ran]
  exact ⟨leaves, p, q', rfl, further.toSound, (congrArg EntryPoint.jump leaves.entry).trans start⟩

/-- A body that has just been opened is compiled behind all that is there. -/
theorem apart_of_begun (program : c'.program.stop = c.program.stop)
    (body : c'.body = c.begun.body) : Apart type c' := by
  refine ⟨c'.program, { c' with program := c'.program.blank, body := {} }, ?_, ?_, ?_⟩
  · rw [behind]
    dsimp only
    rw [Program.blank_behind]
    obtain ⟨code, jumps⟩ := EntryPoint.mk.inj program
    have same : c'.body = ({} : Body).behind c'.program := by
      rw [body, begun, Body.behind, EntryPoint.behind, code, jumps]
      rfl
    rw [← same]
  · have alone := c'.sound_alone
    exact ⟨alone.typeNames, alone.names, alone.code, alone.jumps⟩
  · rw [body]
    exact (EntryPoint.mk.inj program).2.symm

/-! ## What lines add -/

/-- **What lines add to a program**, be it that they compile or fail: the bodies that they close
stand in it, and each entry point is an old one, that of such a body, or that of the open one. -/
structure Adds (c c' : Compiler) (rs : List BodyRecord) : Prop where
  follows : Follows c c'
  stands : ∀ r ∈ rs, r.stop.jump ≤ c'.frontier.jump ∧ ∃ is, r.Stands c'.program is
  consecutive : Consecutive c.frontier rs c'.frontier
  records : ∀ place e, c'.program.recorded? place = some e →
    c.program.recorded? place = some e ∨ c'.openPoint? = some e ∨ ∃ r ∈ rs, r.entry = e
  stays : ∀ e, c.openPoint? = some e → c'.openPoint? = some e ∨ ∃ r ∈ rs, r.entry = e

theorem Adds.refl (c : Compiler) : Adds c c [] :=
  ⟨.refl c, List.forall_mem_nil _, rfl, fun _ _ => .inl, fun _ => .inl⟩

theorem Adds.trans {c'' : Compiler} {rs rs' : List BodyRecord} (h : Adds c c' rs)
    (h' : Adds c' c'' rs') : Adds c c'' (rs ++ rs') := by
  have first {e : EntryPoint} (told : ∃ r ∈ rs, r.entry = e) : ∃ r ∈ rs ++ rs', r.entry = e :=
    told.imp fun _ => And.imp_left (List.mem_append_left rs')
  have second {e : EntryPoint} (told : ∃ r ∈ rs', r.entry = e) : ∃ r ∈ rs ++ rs', r.entry = e :=
    told.imp fun _ => And.imp_left (List.mem_append_right rs)
  refine ⟨h.follows.trans h'.follows, fun r member => ?_, h.consecutive.append h'.consecutive,
    fun place e recorded => ?_, fun e opened => ?_⟩
  · rcases List.mem_append.1 member with old | new
    · obtain ⟨front, is, stands⟩ := h.stands r old
      exact ⟨Nat.le_trans front h'.follows.further, is,
        stands.mono h'.follows.code fun slot below =>
          h'.follows.jumps slot (Nat.lt_of_lt_of_le below front)⟩
    · exact h'.stands r new
  · rcases h'.records place e recorded with old | opened | told
    · rcases h.records place e old with old | opened | told
      · exact .inl old
      · exact .inr ((h'.stays e opened).imp_right second)
      · exact .inr (.inr (first told))
    · exact .inr (.inl opened)
    · exact .inr (.inr (second told))
  · rcases h.stays e opened with opened | told
    · exact (h'.stays e opened).imp_right second
    · exact .inr (first told)

/-- A line that leaves the open body open adds no entry point. -/
theorem Leaves.adds (h : Leaves c c') (mode : c.mode ≠ .outside) : Adds c c' [] := by
  have same : c'.frontier = c.frontier := by
    rw [frontier_of_open mode, frontier_of_open h.mode, h.entry]
  refine ⟨⟨h.code, ?_, Nat.le_of_eq (congrArg EntryPoint.jump same.symm)⟩, List.forall_mem_nil _,
    same.symm, fun place e recorded => .inl ?_, fun e opened => .inl ?_⟩
  · rw [frontier_of_open mode]
    exact h.jumps
  · rwa [Program.recorded?_congr h.entries h.functions] at recorded
  · rw [openPoint?_of_open mode] at opened
    rw [openPoint?_of_open h.mode, h.entry, opened]

/-- **A line that compiles** adds the bodies of which it tells. -/
theorem Between.adds {bs : List BlockRecord} {line : Line} {rest : List Line} (h : Between c bs)
    (apart : c.mode ≠ .outside → Apart type c)
    (compiled : compileLine type line rest c = (.ok (), c')) :
    Adds c c' (c.told c' line rest bs).1 ∧ (c'.mode ≠ .outside → Apart type c') := by
  have advances := h.advances compiled
  -- Three kinds of lines: one outside of bodies, the keyword that closes a body, and all others.
  by_cases mode : c.mode = .outside
  · rw [compileLine_of_outside mode] at compiled
    have outside := outside_of_outsideLine (onLine_eq_ok compiled)
    have none : c.openPoint? = none := by rw [openPoint?, mode]
    refine ⟨⟨advances.follows, advances.stands, advances.consecutive,
      fun _ _ recorded => (outside.records recorded).imp_right .inl, fun e opened => ?_⟩,
      fun opened => ?_⟩
    · rw [none] at opened
      cases opened
    · obtain ⟨code, jumps, kept | ⟨-, body⟩⟩ := effect_of_outside outside
      · exact absurd (kept.trans mode) opened
      · exact apart_of_begun (by rw [Program.stop, Program.stop, code, jumps]) body
  · by_cases closing : c.mode = .inside ∧ Region.closes line.text = true
    · obtain ⟨inside, closes⟩ := closing
      rw [compileLine_of_closes inside closes] at compiled
      obtain ⟨-, -, rfl, -⟩ := closeBody_eq_ok (onLine_eq_ok compiled)
      have told : ∃ r ∈ (c.told ((c.addCode [(closingOpcode line.text).word]).withMode .outside)
          line rest bs).1, r.entry = c.body.entry := by
        rw [told, inside]
        dsimp only
        rw [if_pos closes]
        exact ⟨_, List.mem_singleton_self _, rfl⟩
      refine ⟨⟨advances.follows, advances.stands, advances.consecutive,
        fun _ _ => .inl, fun e opened => .inr ?_⟩,
        fun opened => absurd rfl opened⟩
      rw [openPoint?_of_open mode] at opened
      rwa [← Option.some.inj opened]
    · have goesOn (inside : c.mode = .inside) : Region.closes line.text = false :=
        Bool.eq_false_iff.2 fun closes => closing ⟨inside, closes⟩
      obtain ⟨leaves, apart'⟩ := (apart mode).leaves mode goesOn rest
      rw [compiled] at leaves apart'
      have none : (c.told c' line rest bs).1 = [] := by
        rw [told]
        cases here : c.mode with
        | outside => rfl
        | skipping => rfl
        | inside =>
          dsimp only
          rw [goesOn here, if_neg Bool.false_ne_true]
      rw [none]
      exact ⟨leaves.adds mode, fun _ => apart'⟩

/-- **A line that fails** adds no body and leaves the open one open. -/
theorem Adds.of_error {line : Line} {rest : List Line} {problem : Problem}
    (apart : c.mode ≠ .outside → Apart type c)
    (failed : compileLine type line rest c = (.error problem, c')) : Adds c c' [] := by
  by_cases mode : c.mode = .outside
  · rw [compileLine_of_outside mode] at failed
    obtain rfl := outsideLine_eq_error (onLine_eq_error failed)
    exact .refl c'
  · by_cases closing : c.mode = .inside ∧ Region.closes line.text = true
    · rw [compileLine_of_closes closing.1 closing.2] at failed
      obtain ⟨words, rfl⟩ := closeBody_eq_error (onLine_eq_error failed)
      exact (leaves_addCode mode words).adds mode
    · have leaves := ((apart mode).leaves mode
        (fun inside => Bool.eq_false_iff.2 fun closes => closing ⟨inside, closes⟩) rest).1
      rw [failed] at leaves
      exact leaves.adds mode

/-- **Lines** add the bodies that they close, whatever they end in. -/
theorem Between.adds_lines {bs : List BlockRecord} {lines : List Line} (h : Between c bs)
    (apart : c.mode ≠ .outside → Apart type c) (last : Nat) :
    Adds c (compileLines type last lines c).2 (closedBodies type c bs lines) := by
  induction lines generalizing c bs last with
  | nil =>
    rw [compileLines, bind_apply, get_apply]
    dsimp only
    split <;> exact .refl c
  | cons line rest ih =>
    rw [compileLines, closedBodies]
    by_cases empty : line.text = []
    · rw [if_neg (not_not_intro empty), if_pos empty]
      exact ih h apart line.number
    · rw [if_pos empty, if_neg empty, bind_apply]
      rcases first : compileLine type line rest c with ⟨problem | ⟨⟩, c₁⟩
      · exact .of_error apart first
      · obtain ⟨adds, apart'⟩ := h.adds apart first
        exact adds.trans (ih (h.advances first).between apart' line.number)

end

/-! ## Sequences of files -/

/-- A file that is to be compiled, with a compiler that is given the program. -/
structure Script where
  path : String
  source : Text
  type : Nat
  compiler : Compiler

namespace Script

variable (s : Script) (p : Program)

/-- The compiler in front of the first line. -/
def start : Compiler := ({ s.compiler with program := p } : Compiler).startFile

/-- The compiler behind the file, be it that the file compiles or fails. -/
def after : Compiler := (compileFile s.path s.source s.type { s.compiler with program := p }).2

/-- What the file is answered with. -/
def answer : Except CompileError Unit :=
  (compileFile s.path s.source s.type { s.compiler with program := p }).1

/-- The bodies that the file closes. -/
def bodies : List BodyRecord :=
  if s.type < typeCapacity then closedBodies s.type (s.start p) [] (Line.ofSource s.source) else []

/-- **What a file adds to a program.** -/
theorem adds : Adds (s.start p) (s.after p) (s.bodies p) := by
  rw [after, bodies, compileFile]
  by_cases known : s.type < typeCapacity
  · rw [if_pos known, if_pos known]
    exact (between_startFile _).adds_lines (fun opened => absurd rfl opened) 0
  · rw [if_neg known, if_neg known]
    exact .refl _

theorem closer_eq {s : Script} {p : Program} {r : BodyRecord} (member : r ∈ s.bodies p) :
    r.closer = .control .stop ∨ r.closer = .control .endFunction := by
  rw [bodies] at member
  split at member
  · exact closer_of_closedBodies member
  · cases member

/-- The files before are left as they are. -/
theorem addedTo : p.AddedTo (s.after p).program s.type := by
  obtain ⟨added, good, program, -⟩ :=
    compileFile_behind s.path s.source s.type { s.compiler with program := p }
  rw [after, program]
  exact good.addedTo s.type

end Script

/-- Adds files to a program, one after the other, be it that they compile or fail. -/
def addScripts (p : Program) (scripts : List Script) : Program :=
  scripts.foldl (fun p s => (s.after p).program) p


/-- What was there before files were added is still there, in front. -/
theorem addScripts_front (p : Program) (scripts : List Script) :
    (∃ more, (addScripts p scripts).code = p.code ++ more) ∧
      ∃ more, (addScripts p scripts).jumpTable = p.jumpTable ++ more := by
  induction scripts generalizing p with
  | nil => exact ⟨⟨#[], Array.append_empty.symm⟩, ⟨#[], Array.append_empty.symm⟩⟩
  | cons s rest ih =>
    obtain ⟨code, jumpTable, -⟩ := s.addedTo p
    obtain ⟨⟨more, code'⟩, ⟨more', jumpTable'⟩⟩ := ih (s.after p).program
    obtain ⟨first, code⟩ := code
    obtain ⟨first', jumpTable⟩ := jumpTable
    refine ⟨⟨first ++ more, ?_⟩, ⟨first' ++ more', ?_⟩⟩
    · rw [addScripts, List.foldl_cons, ← addScripts, code', code, Array.append_assoc]
    · rw [addScripts, List.foldl_cons, ← addScripts, jumpTable', jumpTable, Array.append_assoc]

/-- A body stays as it is when files are added behind it. -/
theorem BodyRecord.Stands.append {r : BodyRecord} {p p' : Program} {is : List Instruction}
    (h : r.Stands p is) (code : ∃ more, p'.code = p.code ++ more)
    (jumpTable : ∃ more, p'.jumpTable = p.jumpTable ++ more) : r.Stands p' is where
  chain := by
    obtain ⟨more, code⟩ := code
    rw [code]
    exact h.chain.mono more
  last := h.last
  room := h.room
  slots := h.slots
  words slot inside := by
    obtain ⟨more, jumpTable⟩ := jumpTable
    have word := h.words slot inside
    rw [List.getElem?_eq_getElem inside] at word ⊢
    obtain ⟨front, word⟩ := Array.getElem?_eq_some_iff.1 word
    rw [jumpTable, Array.getElem?_append_left front, Array.getElem?_eq_getElem front, word]
  slotted := h.slotted
  placed := h.placed
  ranged := h.ranged
  closed := h.closed

/-- A file with an open body has failed. -/
theorem Script.exists_error {s : Script} {p : Program} {e : EntryPoint}
    (opened : (s.after p).openPoint? = some e) : ∃ error, s.answer p = .error error := by
  rw [after, compileFile] at opened
  rw [answer, compileFile]
  by_cases known : s.type < typeCapacity
  · rw [if_pos known] at opened ⊢
    dsimp only at opened ⊢
    rcases ran : compileLines s.type 0 (Line.ofSource s.source)
      ({ s.compiler with program := p } : Compiler).startFile with ⟨problem | ⟨⟩, c⟩
    · exact ⟨_, rfl⟩
    · have outside := ((between_startFile _).lines ran).1
      rw [ran, openPoint?, outside] at opened
      cases opened
  · rw [if_neg known]
    exact ⟨_, rfl⟩

/-- **What stands behind an entry point that a file recorded**: a body that the file closed, read to
its end by the instructions that were there when the file ended, or the body that was open where the
file failed. -/
def Script.Leads (s : Script) (p final : Program) (e : EntryPoint) : Prop :=
  (∃ r ∈ s.bodies p, r.entry = e ∧ (r.closer = .control .stop ∨ r.closer = .control .endFunction) ∧
      ∃ is, r.Resolved (s.after p).program is ∧ r.Resolved final is) ∨
    (s.after p).openPoint? = some e ∧ ∃ error, s.answer p = .error error

/-- **Each entry point leads to a whole body, or to the one that a file had open where it failed.**
Files are added to a program one after the other, and some of them fail. An entry point that is
recorded in the end was there before, or one of the files recorded it. The bodies that this file
closed stand one behind the other, and the entry point is that of one of them, or that of the body
behind them, which was still open when the file failed. -/
theorem addScripts_recorded (p : Program) (scripts : List Script) {place : Place} {e : EntryPoint}
    (recorded : (addScripts p scripts).recorded? place = some e) :
    p.recorded? place = some e ∨
      ∃ before s behind, scripts = before ++ s :: behind ∧
        (addScripts p before).recorded? place ≠ some e ∧
        (s.after (addScripts p before)).program.recorded? place = some e ∧
        Consecutive (addScripts p before).stop (s.bodies (addScripts p before))
          (s.after (addScripts p before)).frontier ∧
        s.Leads (addScripts p before) (addScripts p scripts) e := by
  induction scripts generalizing p with
  | nil => exact .inl recorded
  | cons s rest ih =>
    rcases ih (s.after p).program recorded with made | ⟨before, s', behind, rfl, found⟩
    · by_cases old : p.recorded? place = some e
      · exact .inl old
      · have adds := s.adds p
        refine .inr ⟨[], s, rest, rfl, old, made, adds.consecutive, ?_⟩
        rcases adds.records place e made with old' | opened | ⟨r, member, rfl⟩
        · exact absurd old' old
        · exact .inr ⟨opened, Script.exists_error opened⟩
        · obtain ⟨-, is, stands⟩ := adds.stands r member
          obtain ⟨code, jumpTable⟩ := addScripts_front (s.after p).program rest
          exact .inl ⟨r, member, rfl, Script.closer_eq member, is, stands.resolved,
            (stands.append code jumpTable).resolved⟩
    · exact .inr ⟨s :: before, s', behind, rfl, found⟩

/-- A script that ends in its body. -/
def brokenScript : Script := ⟨"", "subObjectMain".toList, 1, freshCompiler⟩

/-- A script that compiles. -/
def wholeScript : Script := ⟨"", "subObjectDraw\nendsub".toList, 2, freshCompiler⟩

theorem addScripts_recorded_brokenScript : ∃ before s behind,
    [brokenScript, wholeScript] = before ++ s :: behind ∧
    (s.after (addScripts {} before)).program.recorded? (.sub 1 .main) = some ⟨0, 0⟩ ∧
      s.Leads (addScripts {} before) (addScripts {} [brokenScript, wholeScript]) ⟨0, 0⟩ := by
  have recorded : (addScripts {} [brokenScript, wholeScript]).recorded? (.sub 1 .main) =
      some ⟨0, 0⟩ := by decide +kernel
  rcases addScripts_recorded {} _ recorded with old | ⟨before, s, behind, all, -, made, -, led⟩
  · cases old
  · exact ⟨before, s, behind, all, made, led⟩

/-- **Not every entry point leads to a whole body**: a script that ends in its body leaves that body's
entry point. -/
theorem not_forall_recorded_whole : ¬ ∀ (scripts : List Script) (place : Place) (e : EntryPoint),
    (addScripts {} scripts).recorded? place = some e →
      ∃ before s behind, scripts = before ++ s :: behind ∧
        ∃ r ∈ s.bodies (addScripts {} before), r.entry = e := by
  intro whole
  obtain ⟨before, s, behind, all, r, member, entry⟩ :=
    whole [brokenScript] (.sub 1 .main) ⟨0, 0⟩ (by decide +kernel)
  obtain ⟨rfl, rfl, rfl⟩ : before = [] ∧ s = brokenScript ∧ behind = [] := by
    simpa [List.singleton_eq_append_iff] using all
  have none : brokenScript.bodies (addScripts {} []) = [] := by decide +kernel
  rw [none] at member
  cases member

end StageScript
