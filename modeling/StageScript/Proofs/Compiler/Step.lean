import StageScript.Proofs.Compiler.Line
import StageScript.Proofs.Source.Discipline

/-! # What a line that compiled did, inside and outside bodies, and what a file did
* **`Inside`** — a line of a body: it closed the body, was about a platform, or was any other line;
* **`Outside`** — a line outside bodies: it made a name known or opened a body;
* **`Lined`** — a line of a file: all that a line can have done when it compiles;
* **`compileFile_eq_ok_iff`**, **`exists_of_compileFile_eq_error`** — a file does what its lines do. -/

namespace StageScript

open Stepwise Compiler

/-- A compiler that knows nothing yet. -/
def freshCompiler : Compiler := { program := {}, globals := [], tags := [] }

/-- A script whose loop does not end. -/
def endless : Text := "subObjectMain\nwhile1==1\nloop\nendsub".toList

/-! ## Lines of bodies -/

theorem closeBody_eq_ok {c c' : Compiler} {op : Opcode} (h : closeBody op c = (.ok (), c')) :
    c.body.blocks = [] ∧ c.program.code.size < codeCapacity ∧
      c' = (c.addCode [op.word]).withMode .outside ∧ (c.Fits → c'.Fits) := by
  rw [closeBody, bind_apply, get_apply] at h
  dsimp only at h
  cases blocks : c.body.blocks with
  | cons block rest =>
    rw [blocks] at h
    cases (Prod.mk.inj h).1
  | nil =>
    rw [blocks] at h
    obtain ⟨⟨⟩, c₁, first, rest⟩ := exists_of_bind_eq_ok h
    have room := emit_room first
    obtain ⟨rfl, fits⟩ := emit_eq_ok first
    rw [bind_apply, get_apply] at rest
    dsimp only at rest
    cases slot : (c.addCode [op.word]).unresolvedSlot? with
    | some slot' =>
      rw [slot] at rest
      cases (Prod.mk.inj rest).1
    | none =>
      rw [slot] at rest
      obtain ⟨-, rfl⟩ := Prod.mk.inj rest
      exact ⟨rfl, room, rfl, fun whole => ⟨(fits whole).code, (fits whole).jumps⟩⟩

/-- What a line of a body did. -/
inductive Inside (c : Compiler) (text : Text) : Option Nat → Compiler → Prop
  /-- It closed the body. -/
  | closes {op : Opcode} (bare : c.body.blocks = []) (room : c.program.code.size < codeCapacity)
    (keyword : Text.sameName text "endsub".toList = true ∧ op = .control .stop ∨
      Text.sameName text "endsub".toList = false ∧
        Text.sameName text "endfunction".toList = true ∧ op = .control .endFunction) :
    Inside c text none ((c.addCode [op.word]).withMode .outside)
  /-- It began a platform block. -/
  | platform {named : List Text} (noKeyword : Region.closes text = false)
    (read : Directive.platform? text = some named) :
    Inside c text none (if named.any c.tags.contains then c else c.withMode .skipping)
  /-- It ended a platform block. -/
  | endsPlatform (noKeyword : Region.closes text = false)
    (noPlatform : Directive.platform? text = none)
    (read : Directive.endsPlatform text = true) : Inside c text none c
  /-- It was any other line. -/
  | other {header? : Option Nat} {behind : Compiler} (noKeyword : Region.closes text = false)
    (noPlatform : Directive.platform? text = none) (noEnd : Directive.endsPlatform text = false)
    (stated : Stated c text header? behind) : Inside c text header? behind

theorem inside_of_insideLine {c c' : Compiler} {text : Text} {header? : Option Nat}
    (h : insideLine text c = (.ok header?, c')) :
    Inside c text header? c' ∧ (c.Fits → c'.Fits) := by
  -- The order of the tests is that of the source: keywords, platforms, all other lines.
  unfold insideLine at h
  by_cases endsub : Text.sameName text "endsub".toList = true
  · rw [if_pos endsub] at h
    obtain ⟨⟨⟩, c₁, first, rest⟩ := exists_of_bind_eq_ok h
    obtain ⟨answer, rfl⟩ := Prod.mk.inj rest
    obtain rfl := Except.ok.inj answer
    obtain ⟨bare, room, rfl, fits⟩ := closeBody_eq_ok first
    exact ⟨.closes bare room (.inl ⟨endsub, rfl⟩), fits⟩
  · rw [if_neg endsub] at h
    by_cases endfunction : Text.sameName text "endfunction".toList = true
    · rw [if_pos endfunction] at h
      obtain ⟨⟨⟩, c₁, first, rest⟩ := exists_of_bind_eq_ok h
      obtain ⟨answer, rfl⟩ := Prod.mk.inj rest
      obtain rfl := Except.ok.inj answer
      obtain ⟨bare, room, rfl, fits⟩ := closeBody_eq_ok first
      exact ⟨.closes bare room (.inr ⟨Bool.eq_false_iff.2 endsub, endfunction, rfl⟩), fits⟩
    · rw [if_neg endfunction] at h
      have noKeyword : Region.closes text = false := by
        rw [Region.closes, Bool.eq_false_iff.2 endsub, Bool.eq_false_iff.2 endfunction]
        rfl
      cases platform : Directive.platform? text with
      | some named =>
        rw [platform] at h
        dsimp only at h
        rw [bind_apply, get_apply] at h
        dsimp only at h
        have outcome := Inside.platform (c := c) noKeyword platform
        by_cases compiled : named.any c.tags.contains = true
        · rw [if_pos compiled] at outcome
          rw [if_neg (by rw [compiled]; exact Bool.false_ne_true)] at h
          obtain ⟨answer, rfl⟩ := Prod.mk.inj h
          obtain rfl := Except.ok.inj answer
          exact ⟨outcome, id⟩
        · rw [if_neg compiled] at outcome
          rw [if_pos (by rw [Bool.eq_false_iff.2 compiled]; rfl)] at h
          obtain ⟨answer, rfl⟩ := Prod.mk.inj h
          obtain rfl := Except.ok.inj answer
          exact ⟨outcome, fun whole => ⟨whole.code, whole.jumps⟩⟩
      | none =>
        rw [platform] at h
        dsimp only at h
        by_cases ends : Directive.endsPlatform text = true
        · rw [if_pos ends] at h
          obtain ⟨answer, rfl⟩ := Prod.mk.inj h
          obtain rfl := Except.ok.inj answer
          exact ⟨.endsPlatform noKeyword platform ends, id⟩
        · rw [if_neg ends] at h
          obtain ⟨stated, fits⟩ := stated_of_statement h
          exact ⟨.other noKeyword platform (Bool.eq_false_iff.2 ends) stated, fits⟩

/-! ## Lines outside bodies -/

/-- A compiler that knows a function more. -/
def Compiler.declared (c : Compiler) (name : Text) : Compiler :=
  { c with program := { c.program with functions := c.program.functions.push ⟨name, none⟩ } }

/-- A compiler that has opened a body. -/
def Compiler.begun (c : Compiler) : Compiler :=
  { c with mode := .inside, body := { entry := ⟨c.program.code.size, c.program.jumpTable.size⟩ } }

/-- A compiler whose program is changed. -/
def Compiler.withProgram (c : Compiler) (change : Program → Program) : Compiler :=
  { c with program := change c.program }

theorem declareFunction_eq_ok {c c' : Compiler} {name : Text} {index : Nat}
    (h : edit (Program.declareFunction name) c = (.ok index, c')) :
    c' = c ∨ c' = c.declared name := by
  rw [edit, Program.declareFunction] at h
  cases known : c.program.functionIndex? name with
  | some index' =>
    rw [known] at h
    obtain ⟨-, rfl⟩ := Prod.mk.inj h
    exact .inl rfl
  | none =>
    rw [known] at h
    by_cases room : c.program.functions.size < functionCapacity
    · simp only [if_pos room] at h
      obtain ⟨-, rfl⟩ := Prod.mk.inj h
      exact .inr rfl
    · simp only [if_neg room] at h
      cases (Prod.mk.inj h).1

/-- An entry point that is set is no code. -/
theorem Program.setEntry_eq (p : Program) (type : Nat) (sub : SubScript) (entry : Option EntryPoint) :
    (p.setEntry type sub entry).code = p.code ∧
      (p.setEntry type sub entry).jumpTable = p.jumpTable ∧
        (p.setEntry type sub entry).functions = p.functions := by
  rw [setEntry]
  split <;> exact ⟨rfl, rfl, rfl⟩

/-- What a line outside bodies did. -/
inductive Outside (c : Compiler) (type : Nat) (text : Text) : Compiler → Prop
  | named {a : Alias} (read : Directive.alias? text = some a) :
    Outside c type text { c with aliases := c.aliases ++ [a] }
  | sub {sub : SubScript} (noAlias : Directive.alias? text = none)
    (read : SubScript.ofMarker? text = some sub) : Outside c type text
      (c.begun.withProgram (·.setEntry type sub (some c.begun.body.entry)))
  | declare {name : Text} {behind : Compiler} (noAlias : Directive.alias? text = none)
    (noSub : SubScript.ofMarker? text = none)
    (read : Directive.function? text = some (.declare name))
    (known : behind = c ∨ behind = c.declared name) : Outside c type text behind
  | define {name : Text} {index : Nat} {known : Compiler} (noAlias : Directive.alias? text = none)
    (noSub : SubScript.ofMarker? text = none)
    (read : Directive.function? text = some (.define name))
    (known' : known = c ∨ known = c.declared name) : Outside c type text
      (known.begun.withProgram (·.setFunctionEntry index (some known.begun.body.entry)))
  | none (noAlias : Directive.alias? text = none) (noSub : SubScript.ofMarker? text = none)
    (noFunction : Directive.function? text = none) : Outside c type text c

theorem outside_of_outsideLine {c c' : Compiler} {type : Nat} {text : Text}
    (h : outsideLine type text c = (.ok (), c')) : Outside c type text c' := by
  unfold outsideLine at h
  cases read : Directive.alias? text with
  | some a =>
    rw [read] at h
    obtain ⟨-, rfl⟩ := Prod.mk.inj h
    exact .named read
  | none =>
    rw [read] at h
    dsimp only at h
    cases marker : SubScript.ofMarker? text with
    | some sub =>
      rw [marker] at h
      obtain ⟨-, rfl⟩ := Prod.mk.inj h
      exact .sub read marker
    | none =>
      rw [marker] at h
      dsimp only at h
      cases function : Directive.function? text with
      | none =>
        rw [function] at h
        obtain ⟨-, rfl⟩ := Prod.mk.inj h
        exact .none read marker function
      | some line =>
        rw [function] at h
        cases line with
        | declare name =>
          dsimp only at h
          rw [discard_apply] at h
          rcases eq : edit (Program.declareFunction name) c with ⟨_ | index, c₁⟩
          · rw [eq] at h
            cases (Prod.mk.inj h).1
          · rw [eq] at h
            obtain ⟨-, rfl⟩ := Prod.mk.inj h
            exact .declare read marker function (declareFunction_eq_ok eq)
        | define name =>
          obtain ⟨index, c₁, first, rest⟩ := exists_of_bind_eq_ok h
          obtain ⟨-, rfl⟩ := Prod.mk.inj rest
          exact .define read marker function (declareFunction_eq_ok first)

/-! ## Lines of files -/

section

variable {c c' : Compiler} {type last : Nat} {line : Line} {rest : List Line}

/-- A line outside bodies is looked at as one. -/
theorem compileLine_of_outside (mode : c.mode = .outside) :
    compileLine type line rest c = onLine line.number (outsideLine type line.text) c := by
  rw [compileLine, bind_apply, get_apply]
  dsimp only
  rw [mode]

/-- A line in a block that is left out does nothing but end it. -/
theorem compileLine_of_skipping (mode : c.mode = .skipping) :
    compileLine type line rest c =
      (.ok (), if Directive.endsPlatform line.text then c.withMode .inside else c) := by
  rw [compileLine, bind_apply, get_apply]
  dsimp only
  rw [mode]
  dsimp only
  split <;> rfl

/-- **What a line of a file did** that compiled. -/
inductive Lined (c : Compiler) (type : Nat) (line : Line) (rest : List Line) : Compiler → Prop
  | outside {behind : Compiler} (mode : c.mode = .outside) (did : Outside c type line.text behind) :
    Lined c type line rest behind
  /-- It was left out, and may have been the last one of these. -/
  | skipped (mode : c.mode = .skipping) :
    Lined c type line rest (if Directive.endsPlatform line.text then c.withMode .inside else c)
  | inside {behind : Compiler} (mode : c.mode = .inside) (did : Inside c line.text none behind)
    (fits : c.Fits → behind.Fits) : Lined c type line rest behind
  /-- It opened a switch, and the lines behind it were searched for labels. -/
  | primed {opened : Compiler} {header n : Nat} (mode : c.mode = .inside)
    (did : Inside c line.text (some header) opened)
    (closed : (Priming.scan opened.aliases rest 0 line.number LabelRange.start).ending = .closed n)
    (fits : c.Fits → (opened.primed header
      (Priming.scan opened.aliases rest 0 line.number LabelRange.start).range).Fits) :
    Lined c type line rest (opened.primed header
      (Priming.scan opened.aliases rest 0 line.number LabelRange.start).range)

/-- Every line that compiles did one of these things. -/
theorem lined_of_compileLine (compiled : compileLine type line rest c = (.ok (), c')) :
    Lined c type line rest c' := by
  cases mode : c.mode with
  | outside =>
    rw [compileLine_of_outside mode] at compiled
    exact .outside mode (outside_of_outsideLine (onLine_eq_ok compiled))
  | skipping =>
    rw [compileLine_of_skipping mode] at compiled
    obtain ⟨-, rfl⟩ := Prod.mk.inj compiled
    exact .skipped mode
  | inside =>
    rw [compileLine, bind_apply, get_apply] at compiled
    dsimp only at compiled
    rw [mode] at compiled
    obtain ⟨header?, opened, first, others⟩ := exists_of_bind_eq_ok compiled
    obtain ⟨did, fits⟩ := inside_of_insideLine (onLine_eq_ok first)
    cases header? with
    | none =>
      obtain ⟨-, rfl⟩ := Prod.mk.inj others
      exact .inside mode did fits
    | some header =>
      obtain ⟨⟨n, closed⟩, rfl, fits'⟩ := prime_eq_ok others
      exact .primed mode did closed (fits' ∘ fits)

/-- **A line of an open body** that opens a switch is followed by the look at its labels. -/
theorem inside_of_compileLine (mode : c.mode = .inside)
    (compiled : compileLine type line rest c = (.ok (), c')) :
    Inside c line.text none c' ∨ ∃ header c₁ n, Inside c line.text (some header) c₁ ∧
      (Priming.scan c₁.aliases rest 0 line.number LabelRange.start).ending = .closed n ∧
        c' = c₁.primed header
          (Priming.scan c₁.aliases rest 0 line.number LabelRange.start).range := by
  cases lined_of_compileLine compiled with
  | outside outside => cases mode.symm.trans outside
  | skipped skipping => cases mode.symm.trans skipping
  | inside _ did => exact .inl did
  | primed _ did closed => exact .inr ⟨_, _, _, did, closed, rfl⟩

/-- An empty line is passed over. -/
theorem compileLines_of_empty (empty : line.text = []) :
    compileLines type last (line :: rest) c = compileLines type line.number rest c := by
  rw [compileLines, if_neg (not_not_intro empty)]

/-- A line that is not empty is compiled before the lines behind it. -/
theorem exists_of_compileLines (written : line.text ≠ [])
    (compiled : compileLines type last (line :: rest) c = (.ok (), c')) :
    ∃ c₁, compileLine type line rest c = (.ok (), c₁) ∧
      compileLines type line.number rest c₁ = (.ok (), c') := by
  rw [compileLines, if_pos written] at compiled
  obtain ⟨⟨⟩, c₁, first, others⟩ := exists_of_bind_eq_ok compiled
  exact ⟨c₁, first, others⟩

/-- Lines end outside bodies. -/
theorem eq_of_compileLines_nil (compiled : compileLines type last [] c = (.ok (), c')) :
    c.mode = .outside ∧ c' = c := by
  rw [compileLines, bind_apply, get_apply] at compiled
  dsimp only at compiled
  split at compiled
  · cases (Prod.mk.inj compiled).1
  · next mode => exact ⟨Decidable.not_not.1 mode, (Prod.mk.inj compiled).2.symm⟩

end

/-! ## Files -/

section

variable {c c' : Compiler} {path : String} {source : Text} {type : Nat}

/-- **A file compiles** if its lines do, and there is room for the object type. -/
theorem compileFile_eq_ok_iff :
    compileFile path source type c = (.ok (), c') ↔
      type < typeCapacity ∧
        compileLines type 0 (Line.ofSource source) c.startFile = (.ok (), c') := by
  rw [compileFile]
  by_cases room : type < typeCapacity
  · rw [if_pos room]
    rcases compileLines type 0 (Line.ofSource source) c.startFile with ⟨p | ⟨⟨⟩⟩, c₁⟩
    · constructor
      · intro h
        cases h
      · rintro ⟨-, h⟩
        cases h
    · constructor
      · intro h
        obtain ⟨-, rfl⟩ := Prod.mk.inj h
        exact ⟨room, rfl⟩
      · rintro ⟨-, h⟩
        obtain ⟨-, rfl⟩ := Prod.mk.inj h
        rfl
  · rw [if_neg room]
    constructor
    · intro h
      cases h
    · exact fun h => absurd h.1 room

/-- **A file that does not compile** has a line that does not, or an object type without room. -/
theorem exists_of_compileFile_eq_error {e : CompileError}
    (failed : compileFile path source type c = (.error e, c')) :
    e = ⟨path, 0, .exhausted .objectTypes⟩ ∨
      ∃ p, compileLines type 0 (Line.ofSource source) c.startFile = (.error p, c') ∧
        e = ⟨path, p.line, p.reason⟩ := by
  rw [compileFile] at failed
  by_cases room : type < typeCapacity
  · rw [if_pos room] at failed
    rcases lines : compileLines type 0 (Line.ofSource source) c.startFile with ⟨p | ⟨⟩, c₁⟩
    · rw [lines] at failed
      obtain ⟨reason, rfl⟩ := Prod.mk.inj failed
      exact .inr ⟨p, rfl, (Except.error.inj reason).symm⟩
    · rw [lines] at failed
      cases (Prod.mk.inj failed).1
  · rw [if_neg room] at failed
    exact .inl (Except.error.inj (Prod.mk.inj failed).1).symm

end

end StageScript
