import StageScript.Proofs.Compiler.Relocation
import StageScript.Proofs.Compiler.Step

/-! # Adding files to programs
A file is compiled behind a program as by itself: what is there before does not matter, and stays.
* **`Compiler.relocates_compileLine`** — every line of a file can be moved;
* **`compileFile_relocates`** — a file adds the same to two programs that know the same names;
* **`compileFile_appends`** — a file changes nothing of a program but the entry points of its own. -/

namespace StageScript

namespace Compiler

open Stepwise

variable {p : Program} {type : Nat} {c₀ : Compiler}

/-! ## Lines of bodies -/

theorem relocates_bindCase (label : Text) :
    Moves p type (Further p c₀) id (bindCase label) (bindCase label) := by
  refine .bind (relocates_innermost ..) fun block => .bind .get fun c => ?_
  refine .bind (.mk_pure _) fun value => ?_
  have range : (c.behind p type).labelRange (block.behind p).slot = c.labelRange block.slot :=
    labelRange_behind ..
  dsimp only [id]
  rw [range, here_behind]
  refine .ite ?_ (.throw _ _)
  have slot := @relocates_setSlot p type c₀ block
    (4 + (value.toInt - (c.labelRange block.slot).min.toInt).toNat) c.here
  rwa [← Nat.add_assoc, ← Nat.add_assoc] at slot

theorem relocates_bindDefault : Moves p type (Further p c₀) id bindDefault bindDefault := by
  refine .bind (relocates_innermost ..) fun block => .bind .get fun c => ?_
  rw [here_behind]
  exact .bind (relocates_setSlot block 2 _) fun _ => relocates_fillCases block.slot _

theorem relocates_emitLine (text : Text) :
    Moves p type (Further p c₀) id (emitLine text) (emitLine text) := by
  unfold emitLine
  split
  · exact relocates_bindCase _
  · exact .ite relocates_bindDefault (relocates_emitCall text)

theorem relocates_openCondition (keyword : ConditionKeyword) :
    Moves p type (Further p c₀) id (openCondition keyword) (openCondition keyword) := by
  cases keyword with
  | ifLine => exact relocates_openBlock ..
  | whileLine =>
    refine .bind .get fun c => ?_
    rw [here_behind]
    exact relocates_openBlock ..

/-- The header of a switch behind a program. -/
theorem relocates_openSwitch :
    Moves p type (Further p c₀) (p.jumpTable.size + ·) openSwitch openSwitch := by
  refine .bind .get fun c => .bind (relocates_openBlock ..) fun _ => ?_
  rw [size_jumpTable_behind]
  refine .bind (.modify (fun c' => ?_) fun _ good => ?_) fun _ => .pure _ _
  · simp only [behind, Body.behind, List.map_append, List.map_cons, List.map_nil]
  · exact ⟨⟨good.typeNames, good.names, good.code, good.jumps⟩, good.entries, good.functions,
      good.mode, good.entry, good.grown⟩

/-- What a line does behind the condition that it may have. -/
theorem relocates_unconditional (text : Text) :
    Moves p type (Further p c₀) (Option.map (p.jumpTable.size + ·))
      (do
        let (text, header?) ← match Rewrite.switch? text (← get).nextSlot with
          | some opened =>
            let header ← openSwitch
            pure (opened, some header)
          | none => pure (text, none)
        emitLine ((Rewrite.assignment? text).getD text)
        return header?)
      (do
        let (text, header?) ← match Rewrite.switch? text (← get).nextSlot with
          | some opened =>
            let header ← openSwitch
            pure (opened, some header)
          | none => pure (text, none)
        emitLine ((Rewrite.assignment? text).getD text)
        return header?) := by
  refine .bind .get fun c => ?_
  rw [nextSlot_behind]
  split
  · next opened _ =>
    refine .bind relocates_openSwitch fun header => ?_
    exact .bind (.pure (Prod.map id (Option.map (p.jumpTable.size + ·))) (opened, some header))
      fun _ => .bind (relocates_emitLine _) fun _ => .pure _ _
  · exact .bind (.pure (Prod.map id (Option.map (p.jumpTable.size + ·))) (text, none))
      fun _ => .bind (relocates_emitLine _) fun _ => .pure _ _

/-- **A line of a body** that neither closes it nor is about a platform. -/
theorem relocates_statement (text : Text) :
    Moves p type (Further p c₀) (Option.map (p.jumpTable.size + ·)) (statement text)
      (statement text) := by
  unfold statement
  refine .bind .get fun c => ?_
  rw [nextSlot_behind]
  split
  · exact .bind (relocates_openCondition _) fun _ => relocates_unconditional _
  · exact relocates_unconditional text

/-! ### Closing lines -/

theorem unresolvedSlot?_behind (c : Compiler) :
    (c.behind p type).unresolvedSlot? = c.unresolvedSlot? := by
  have count : (c.behind p type).program.jumpTable.size - (c.behind p type).body.entry.jump =
      c.program.jumpTable.size - c.body.entry.jump := by
    rw [size_jumpTable_behind]
    exact Nat.add_sub_add_left ..
  have word (k : Nat) : (c.behind p type).jumpWord ((c.behind p type).body.entry.jump + k) =
      c.jumpWord (c.body.entry.jump + k) :=
    (congrArg _ (Nat.add_assoc ..)).trans (jumpWord_behind p type c _)
  have listed (k : Nat) : ((c.behind p type).body.switches.any fun header =>
        (c.behind p type).body.entry.jump + k == header ||
          (c.behind p type).body.entry.jump + k == header + 1) =
      c.body.switches.any fun header =>
        c.body.entry.jump + k == header || c.body.entry.jump + k == header + 1 := by
    show (c.body.switches.map (p.jumpTable.size + ·)).any (fun header =>
      p.jumpTable.size + c.body.entry.jump + k == header ||
        p.jumpTable.size + c.body.entry.jump + k == header + 1) = _
    rw [List.any_map]
    refine List.any_congr rfl fun header => ?_
    rw [Bool.eq_iff_iff]
    simp only [Function.comp_apply, Bool.or_eq_true, beq_iff_eq]
    omega
  rw [unresolvedSlot?, unresolvedSlot?]
  simp only [count, word, listed]

/-- What is kept while a body is compiled is kept of the whole. -/
theorem widened {α β : Type} {move : α → β} {x : Emit α} {x' : Emit β}
    (h : ∀ c, Moves p type (Further p c) move x x') : Moves p type (Sound p) move x x' :=
  .widen h (fun _ => Further.refl) fun _ _ further => further.toSound

/-- What a body is closed by does not let the program grow otherwise. -/
theorem relocates_closeBody (op : Opcode) :
    Moves p type (Sound p) id (closeBody op) (closeBody op) := by
  refine .bind .get fun c => ?_
  rw [blocks_behind]
  cases c.body.blocks with
  | cons block _ => exact .throw _ _
  | nil =>
    refine .bind (widened fun _ => relocates_emit _) fun _ => .bind .get fun c => ?_
    rw [unresolvedSlot?_behind]
    cases c.unresolvedSlot? with
    | some slot => exact .throw _ _
    | none =>
      exact .modify (fun _ => rfl) fun _ good =>
        ⟨good.typeNames, good.names, good.code, good.jumps⟩

/-- What a line of a body does that does not close it. -/
def goesOn (text : Text) : Emit (Option Nat) := do
  match Directive.platform? text with
  | some tags =>
    if !tags.any ((← get).tags.contains ·) then modify fun c => { c with mode := .skipping }
    return none
  | none => if Directive.endsPlatform text then return none else statement text

theorem relocates_goesOn (text : Text) : Moves p type (Further p c₀)
    (Option.map (p.jumpTable.size + ·)) (goesOn text) (goesOn text) := by
  unfold goesOn
  split
  · refine .bind .get fun c => ?_
    rw [tags_behind]
    refine .ite (.bind (.modify (fun _ => rfl) fun _ good => ?_) fun _ => .pure _ none)
      (.pure (Option.map _) none)
    exact ⟨⟨good.typeNames, good.names, good.code, good.jumps⟩, good.entries, good.functions,
      fun _ => nofun, good.entry, good.grown⟩
  · exact .ite (.pure (Option.map _) none) (relocates_statement text)

/-- **A line of a body.** -/
theorem relocates_insideLine (text : Text) :
    Moves p type (Sound p) (Option.map (p.jumpTable.size + ·)) (insideLine text)
      (insideLine text) := by
  have goesOn : Moves p type (Sound p) (Option.map (p.jumpTable.size + ·)) (goesOn text)
      (goesOn text) := widened fun _ => relocates_goesOn text
  exact .ite (.bind (relocates_closeBody _) fun _ => .pure (Option.map _) none)
    (.ite (.bind (relocates_closeBody _) fun _ => .pure (Option.map _) none) goesOn)

/-! ## Lines outside bodies -/

theorem relocates_openBody : Moves p type (Sound p) (·.behind p) openBody openBody := by
  constructor
  intro c good
  refine .inr ⟨?_, good.typeNames, good.names, good.code, good.jumps⟩
  have opened (c : Compiler) : openBody c =
      (.ok ⟨c.program.code.size, c.program.jumpTable.size⟩,
        { c with
          mode := .inside
          body := { entry := ⟨c.program.code.size, c.program.jumpTable.size⟩ } }) := rfl
  rw [opened, opened, size_code_behind, size_jumpTable_behind]
  rfl

theorem Sound.size_le {c : Compiler} (h : Sound p c) :
    p.functions.size ≤ c.program.functions.size := by
  obtain ⟨more, names⟩ := h.names
  have sizes := congrArg Array.size names
  rw [Array.size_append, Program.functionNames, Program.functionNames, Array.size_map,
    Array.size_map] at sizes
  omega

theorem relocates_declareFunction (name : Text) :
    Moves p type (Sound p) id (edit (Program.declareFunction name))
      (edit (Program.declareFunction name)) := by
  constructor
  intro c good
  have index : (c.behind p type).program.functionIndex? name = c.program.functionIndex? name :=
    Program.functionIndex?_behind ..
  have size : (c.behind p type).program.functions.size = c.program.functions.size :=
    Array.size_mapIdx
  have declared := Program.declared_behind c.program p type name good.size_le
  rw [edit, edit, Program.declareFunction, Program.declareFunction, index, size]
  cases c.program.functionIndex? name with
  | some index => exact .inr ⟨rfl, good⟩
  | none =>
    dsimp only
    by_cases room : c.program.functions.size < functionCapacity
    · rw [if_pos room, if_pos room]
      refine .inr ⟨?_, good.typeNames, ?_, good.code, good.jumps⟩
      · exact Prod.ext rfl (congrArg (fun program => { c.behind p type with program }) declared.symm)
      · obtain ⟨more, names⟩ := good.names
        refine ⟨more.push name, ?_⟩
        rw [Program.functionNames] at names ⊢
        dsimp only
        rw [Array.map_push, names, Array.append_push]
    · rw [if_neg room, if_neg room]
      exact .inr ⟨rfl, good⟩

theorem Sound.setEntry {c : Compiler} (h : Sound p c) (sub : SubScript)
    (entry : Option EntryPoint) :
    Sound p { c with program := c.program.setEntry type sub entry } := by
  rw [Program.setEntry]
  split
  · exact ⟨h.typeNames, h.names, h.code, h.jumps⟩
  · exact h

theorem Sound.setFunctionEntry {c : Compiler} (h : Sound p c) (index : Nat)
    (entry : Option EntryPoint) :
    Sound p { c with program := c.program.setFunctionEntry index entry } := by
  obtain ⟨more, names⟩ := h.names
  refine ⟨h.typeNames, ⟨more, ?_⟩, h.code, h.jumps⟩
  rw [← names, Program.functionNames, Program.functionNames, Program.setFunctionEntry]
  refine Array.ext (by simp) fun k _ _ => ?_
  rw [Array.getElem_map, Array.getElem_map, Array.getElem_modify]
  split <;> rfl

/-- **A line outside bodies.** -/
theorem relocates_outsideLine (text : Text) :
    Moves p type (Sound p) id (outsideLine type text) (outsideLine type text) := by
  unfold outsideLine
  split
  · exact .modify (fun _ => rfl) fun _ good => ⟨good.typeNames, good.names, good.code, good.jumps⟩
  · split
    · next sub _ =>
      refine .bind relocates_openBody fun entry => .modify (fun c => ?_) fun c good => ?_
      · exact congrArg (fun program => { c.behind p type with program })
          (Program.setEntry_behind c.program p type sub entry).symm
      · exact good.setEntry sub _
    · split
      · exact .discard (relocates_declareFunction _)
      · refine .bind (relocates_declareFunction _) fun index => .bind relocates_openBody fun entry =>
          .modify (fun c => ?_) fun c good => ?_
        · exact congrArg (fun program => { c.behind p type with program })
            (Program.setFunctionEntry_behind c.program p type index entry).symm
        · exact good.setFunctionEntry index _
      · exact .pure _ _

/-! ## Looking ahead -/

/-- The code or the jump table is full where a line stands. -/
abbrev Problem.isFull (problem : Problem) : Bool := problem.reason.isFull

/-- A step on lines does behind a program what it does by itself. -/
abbrev MovesLines {α β : Type} (p : Program) (type : Nat) (sound : Compiler → Prop) (move : α → β)
    (x : Work α) (x' : Work β) : Prop :=
  Relocates Problem.isFull (behind p type) sound move x x'

theorem relocates_onLine {α β : Type} {sound : Compiler → Prop} {move : α → β} {x : Emit α}
    {x' : Emit β} (h : Moves p type sound move x x') (line : Nat) :
    MovesLines p type sound move (onLine line x) (onLine line x') := by
  constructor
  intro c good
  rw [onLine, onLine]
  rcases h.runs good with ⟨e, c', ran, isFull, good'⟩ | ⟨ran, good'⟩
  · exact .inl ⟨⟨line, e⟩, c', by rw [ran]; rfl, isFull, good'⟩
  · rcases first : x c with ⟨e | a, c'⟩
    all_goals
      rw [first] at ran good'
      exact .inr ⟨by rw [ran]; rfl, good'⟩

theorem relocates_setLabelRange (header : Nat) (range : LabelRange) :
    Moves p type (Further p c₀) id (setLabelRange header range)
      (setLabelRange (p.jumpTable.size + header) range) :=
  .bind (relocates_setJump header _) fun _ => relocates_setJump (header + 1) _

/-- Slots are reserved as far as there is room for them. -/
theorem relocates_reserveRoom (count : Nat) : Moves p type (Further p c₀) id
    (do
      let room := jumpCapacity - (← get).program.jumpTable.size
      reserve (List.replicate (min count room) (-1))
      if room < count then throw (.exhausted .jumpTable))
    (do
      let room := jumpCapacity - (← get).program.jumpTable.size
      reserve (List.replicate (min count room) (-1))
      if room < count then throw (.exhausted .jumpTable)) := by
  constructor
  intro c good
  rw [bind_apply, get_apply, bind_apply, get_apply]
  dsimp only
  rw [size_jumpTable_behind]
  rcases Nat.lt_or_ge (jumpCapacity - (p.jumpTable.size + c.program.jumpTable.size)) count with
    few | many
  · -- what still fits is reserved before the step fails
    rw [Nat.min_eq_right (Nat.le_of_lt few), if_pos few]
    have ends := @reserve_of_room (c.behind p type)
      (List.replicate (jumpCapacity - (p.jumpTable.size + c.program.jumpTable.size)) (-1))
      (Nat.le_of_eq (by rw [List.length_replicate, size_jumpTable_behind]))
    rw [addJumps_behind] at ends
    exact .inl ⟨.exhausted .jumpTable, _, bind_apply_of_ok ends, rfl,
      good.addJumps (Nat.le_of_eq List.length_replicate)⟩
  · rw [Nat.min_eq_left many, Nat.min_eq_left (by omega), if_neg (by omega), if_neg (by omega)]
    exact (Relocates.bind (relocates_reserve _) fun _ => .pure id _).runs good

theorem relocates_reserveCases (header : Nat) (range : LabelRange) :
    Moves p type (Further p c₀) id (reserveCases header range)
      (reserveCases (p.jumpTable.size + header) range) :=
  .bind (relocates_setLabelRange header range.settle) fun _ => relocates_reserveRoom _

theorem relocates_prime (header opening : Nat) (rest : List Line) :
    MovesLines p type (Further p c₀) id (prime header opening rest)
      (prime (p.jumpTable.size + header) opening rest) := by
  refine .bind .get fun c => ?_
  rw [aliases_behind]
  refine .bind (relocates_onLine (relocates_setLabelRange header _) opening) fun _ => ?_
  split
  · exact relocates_onLine (relocates_reserveCases header _) _
  · exact .throw _ _
  · exact .throw _ _

/-! ## Lines of files -/

/-- **A line of a file** is compiled behind a program as by itself. -/
theorem relocates_compileLine (line : Line) (rest : List Line) :
    MovesLines p type (Sound p) id (compileLine type line rest) (compileLine type line rest) := by
  refine .bind .get fun c => ?_
  rw [mode_behind]
  split
  · exact relocates_onLine (relocates_outsideLine line.text) line.number
  · refine .ite (.modify (fun _ => rfl) fun _ good => ?_) (.pure _ _)
    exact ⟨good.typeNames, good.names, good.code, good.jumps⟩
  · refine .bind (relocates_onLine (relocates_insideLine line.text) line.number) fun header? => ?_
    cases header? with
    | none => exact .pure _ _
    | some header =>
      exact .widen (fun _ => relocates_prime header line.number rest) (fun _ => Further.refl)
        fun _ _ further => further.toSound

/-- **The lines of a file** are compiled behind a program as by themselves. -/
theorem relocates_compileLines (last : Nat) (lines : List Line) :
    MovesLines p type (Sound p) id (compileLines type last lines) (compileLines type last lines) := by
  induction lines generalizing last with
  | nil =>
    refine .bind .get fun c => ?_
    rw [mode_behind]
    exact .ite (.throw _ _) (.pure _ _)
  | cons line rest ih =>
    rw [compileLines]
    split
    · exact .bind (relocates_compileLine line rest) fun _ => ih line.number
    · exact ih line.number

/-! ## Files -/

/-- A compiler whose body was another one. -/
def withBody (c : Compiler) (body : Body) : Compiler := { c with body }

/-- Outside bodies it does not matter which body was the last one. -/
theorem outsideLine_withBody (text : Text) (c : Compiler) (body : Body) :
    outsideLine type text (c.withBody body) = outsideLine type text c ∨
      outsideLine type text (c.withBody body) =
          ((outsideLine type text c).1, (outsideLine type text c).2.withBody body) ∧
        (outsideLine type text c).2.mode = c.mode := by
  unfold outsideLine
  cases Directive.alias? text with
  | some a => exact .inr ⟨rfl, rfl⟩
  | none =>
    cases SubScript.ofMarker? text with
    | some sub => exact .inl rfl
    | none =>
      -- a name that becomes known does so in the program alone
      have declared (name : Text) : edit (Program.declareFunction name) (c.withBody body) =
          ((edit (Program.declareFunction name) c).1,
            (edit (Program.declareFunction name) c).2.withBody body) := rfl
      have kept (name : Text) : (edit (Program.declareFunction name) c).2.mode = c.mode := rfl
      cases Directive.function? text with
      | none => exact .inr ⟨rfl, rfl⟩
      | some directive =>
        cases directive with
        | declare name =>
          dsimp only
          rw [discard_apply, discard_apply, declared]
          exact .inr ⟨rfl, kept name⟩
        | define name =>
          have mode := kept name
          dsimp only
          rw [bind_apply, declared, bind_apply]
          rcases made : edit (Program.declareFunction name) c with ⟨e | index, c'⟩
          · rw [made] at mode
            exact .inr ⟨rfl, mode⟩
          · exact .inl rfl

/-- A file does not depend on what was compiled before it but through the program. -/
theorem compileLines_withBody (last : Nat) (lines : List Line) {c : Compiler}
    (outside : c.mode = .outside) (body : Body) :
    (compileLines type last lines (c.withBody body)).1 = (compileLines type last lines c).1 ∧
      (compileLines type last lines (c.withBody body)).2.program =
        (compileLines type last lines c).2.program := by
  induction lines generalizing last c with
  | nil =>
    have ended (c : Compiler) (outside : c.mode = .outside) :
        compileLines type last [] c = (.ok (), c) := by
      rw [compileLines, bind_apply, get_apply]
      dsimp only
      rw [outside]
      rfl
    rw [ended _ outside, ended (c.withBody body) outside]
    exact ⟨rfl, rfl⟩
  | cons line rest ih =>
    rw [compileLines]
    split
    · rw [bind_apply, bind_apply, compileLine_of_outside outside,
        @compileLine_of_outside (c.withBody body) _ _ _ outside, onLine, onLine]
      rcases @outsideLine_withBody type line.text c body with same | ⟨same, mode⟩
      · rw [same]
        exact ⟨rfl, rfl⟩
      · rw [same]
        rcases made : outsideLine type line.text c with ⟨e | ⟨⟩, c'⟩
        · exact ⟨rfl, rfl⟩
        · rw [made] at mode
          exact ih line.number (mode.trans outside)
    · exact ih line.number outside

/-- A compiler at the beginning of a file whose program holds nothing yet. -/
def alone (c : Compiler) : Compiler :=
  { c.startFile with program := c.program.blank, body := {} }

theorem sound_alone (c : Compiler) : Sound c.program c.alone where
  typeNames := rfl
  names := by
    refine ⟨#[], ?_⟩
    rw [Array.append_empty, Program.functionNames, Program.functionNames, alone, Program.blank,
      Array.map_map]
    rfl
  code := Nat.le_max_left ..
  jumps := Nat.le_max_left ..

/-- **A file is compiled behind a program as by itself**, as far as it fits. -/
theorem compileFile_behind (path : String) (source : Text) (type : Nat) (c : Compiler) :
    ∃ added, Sound c.program added ∧
      (compileFile path source type c).2.program = added.program.behind c.program type ∧
      ((∃ e, (compileFile path source type c).1 = .error e ∧ e.reason.isFull = true) ∨
        (compileFile path source type c).1 = (compileFile path source type c.alone).1 ∧
          added = (compileFile path source type c.alone).2) := by
  have alone : c.startFile = (c.alone.behind c.program type).withBody c.startFile.body := by
    rw [behind, alone, Program.blank_behind]
    rfl
  have again : c.alone.startFile = c.alone := rfl
  unfold compileFile
  dsimp only
  by_cases known : type < typeCapacity
  · rw [if_pos known, if_pos known, again, alone]
    have same := @compileLines_withBody type 0 (Line.ofSource source)
      (c.alone.behind c.program type) rfl c.startFile.body
    generalize compileLines type 0 (Line.ofSource source)
      ((c.alone.behind c.program type).withBody c.startFile.body) = result at same
    obtain ⟨answer, c'⟩ := result
    dsimp only at same ⊢
    rcases (@relocates_compileLines c.program type 0 (Line.ofSource source)).runs c.sound_alone with ⟨e, added, ran, isFull, good⟩ | ⟨ran, good⟩
    · rw [ran] at same
      refine ⟨added, good, same.2, .inl ⟨⟨path, e.line, e.reason⟩, ?_, isFull⟩⟩
      rw [same.1]
      rfl
    · rw [ran] at same
      refine ⟨_, good, same.2, .inr ⟨?_, rfl⟩⟩
      rw [same.1]
      rcases compileLines type 0 (Line.ofSource source) c.alone with ⟨e | ⟨⟩, c''⟩ <;> rfl
  · rw [if_neg known, if_neg known]
    exact ⟨c.alone, c.sound_alone, (Program.blank_behind c.program type).symm, .inr ⟨rfl, rfl⟩⟩

end Compiler

open Compiler

/-! ## What files add -/

/-- The code or the jump table was full. -/
def CompileError.isFull (e : CompileError) : Bool := e.reason.isFull

/-- Programs that know the same names look the same to a file. -/
structure Program.SameNames (p p' : Program) : Prop where
  types : p.typeNames = p'.typeNames
  functions : p.functionNames = p'.functionNames

theorem Program.SameNames.blank_eq {p p' : Program} (h : p.SameNames p') : p.blank = p'.blank := by
  have byNames (q : Program) :
      q.blank = { functions := q.functionNames.map (⟨·, none⟩), typeNames := q.typeNames } := by
    rw [Program.blank, functionNames, Array.map_map]
    rfl
  rw [byNames, byNames, h.types, h.functions]

/-- **A file adds the same to any two programs that know the same names.** Where neither is full, it
has the same answer for both, and what it adds stands behind each of them: the same words of code and
of the jump table, and entry points that differ by what was there before only. -/
theorem compileFile_relocates (path : String) (source : Text) (type : Nat) {c c' : Compiler}
    (globals : c.globals = c'.globals) (tags : c.tags = c'.tags)
    (names : c.program.SameNames c'.program)
    (room : ∀ e, (compileFile path source type c).1 = .error e → e.reason.isFull = false)
    (room' : ∀ e, (compileFile path source type c').1 = .error e → e.reason.isFull = false) :
    (compileFile path source type c).1 = (compileFile path source type c').1 ∧
      ∃ added : Program,
        (compileFile path source type c).2.program = added.behind c.program type ∧
          (compileFile path source type c').2.program = added.behind c'.program type := by
  have same : c.alone = c'.alone := by
    rw [alone, alone, names.blank_eq, startFile, startFile, globals, tags]
  obtain ⟨added, -, program, full | ⟨answer, rfl⟩⟩ := compileFile_behind path source type c
  · obtain ⟨e, failed, full⟩ := full
    rw [room e failed] at full
    cases full
  · obtain ⟨added', -, program', full | ⟨answer', rfl⟩⟩ := compileFile_behind path source type c'
    · obtain ⟨e, failed, full⟩ := full
      rw [room' e failed] at full
      cases full
    · rw [← same] at answer' program'
      exact ⟨answer.trans answer'.symm, _, program, program'⟩

/-- A script that fails inside its second body. -/
def halfBuilt : Text :=
  "subObjectMain\nwhile1==1\nloop\nendsub\nsubObjectDraw\nCheckEqual(1,1)\nBogus".toList

/-- A compiler whose program holds something already. -/
def laterCompiler : Compiler :=
  { freshCompiler with program := { code := #[2, 1, 7, 1, 8, 0], jumpTable := #[-1, 5] } }

theorem compileFile_relocates_halfBuilt :
    (∀ c ∈ [freshCompiler, laterCompiler],
      (compileFile "" halfBuilt 1 c).1 = .error ⟨"", 7, .opcodeNotFound "Bogus".toList⟩) ∧
    ∃ added : Program,
      (compileFile "" halfBuilt 1 freshCompiler).2.program = added.behind freshCompiler.program 1 ∧
        (compileFile "" halfBuilt 1 laterCompiler).2.program =
          added.behind laterCompiler.program 1 := by
  have seen : ∀ c ∈ [freshCompiler, laterCompiler],
      Except.refusal? (compileFile "" halfBuilt 1 c).1 =
        some ⟨"", 7, .opcodeNotFound "Bogus".toList⟩ := by
    decide +kernel
  have fails := fun c member => Except.eq_error_of_refusal? (seen c member)
  have room : ∀ c ∈ [freshCompiler, laterCompiler], ∀ e,
      (compileFile "" halfBuilt 1 c).1 = .error e → e.reason.isFull = false := by
    intro c member e failed
    rw [fails c member] at failed
    rw [← Except.error.inj failed]
    rfl
  exact ⟨fails, (@compileFile_relocates "" halfBuilt 1 freshCompiler laterCompiler
    rfl rfl ⟨rfl, rfl⟩ (room _ (by simp)) (room _ (by simp))).2⟩

/-- **What a file of an object type leaves of a program**, and what it adds to. -/
structure Program.AddedTo (p p' : Program) (type : Nat) : Prop where
  /-- The code is still there, in front. -/
  code : ∃ more, p'.code = p.code ++ more
  /-- So is the jump table. -/
  jumpTable : ∃ more, p'.jumpTable = p.jumpTable ++ more
  /-- No type is renamed or becomes known. -/
  typeNames : p'.typeNames = p.typeNames
  /-- Functions keep their numbers. -/
  functionNames : ∃ more, p'.functionNames = p.functionNames ++ more
  /-- Other types keep their sub-scripts. -/
  entries : ∀ t sub, t ≠ type → p'.entryPoint? t sub = p.entryPoint? t sub
  /-- The code fits as before. -/
  codeFits : p.code.size ≤ codeCapacity → p'.code.size ≤ codeCapacity
  /-- So does the jump table. -/
  jumpsFit : p.jumpTable.size ≤ jumpCapacity → p'.jumpTable.size ≤ jumpCapacity

/-- What is put behind a program leaves it as it is. -/
theorem Compiler.Sound.addedTo {p : Program} {added : Compiler} (h : Sound p added) (type : Nat) :
    p.AddedTo (added.program.behind p type) type := by
  have code := h.code
  have jumps := h.jumps
  refine ⟨⟨_, rfl⟩, ⟨_, rfl⟩, h.typeNames, ?_, fun t sub other => ?_, fun fits => ?_, fun fits => ?_⟩
  · rw [Program.functionNames_behind]
    exact h.names
  · rw [Program.entryPoint?_behind, if_neg other]
  · rw [Program.behind, Array.size_append]
    omega
  · rw [Program.behind, Array.size_append]
    omega

/-- **Files only add to programs**, be it that they compile or fail at any line: the code, the jump
table and the names stay where they are, the sub-scripts of other types stay theirs, and nothing
grows beyond what fits. -/
theorem compileFile_appends (path : String) (source : Text) (type : Nat) (c : Compiler) :
    c.program.AddedTo (compileFile path source type c).2.program type := by
  obtain ⟨added, good, program, -⟩ := compileFile_behind path source type c
  rw [program]
  exact good.addedTo type

end StageScript
