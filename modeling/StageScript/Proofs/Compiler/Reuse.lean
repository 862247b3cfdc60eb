import StageScript.Proofs.Ascent
import StageScript.Proofs.Compiler.Appending

/-! # Using a compiler again
A compiler that goes on with the next file is still in the state in which the last one left it: with
its aliases, in a body or a platform block that was never closed, with open blocks and the headers of
switches. None of this reaches the next file.
* **`Compiler.Configured`** — no step of compilation changes the globals and the tags;
* `Compiler.renewed` — a compiler that knows of nothing but its program and its configuration;
* **`Compiler.compileFile_renewed`** — a file is compiled as by a renewed compiler;
* **`compileAll_eq_compileEach`** — one compiler for all files does what a new one for each does. -/

namespace StageScript

namespace Compiler

open Stepwise

variable {type : Nat}

/-! ## The configuration -/

/-- Two compilers are configured alike. -/
structure Configured (c c' : Compiler) : Prop where
  globals : c'.globals = c.globals
  tags : c'.tags = c.tags

instance : IsPreorder Compiler Configured where
  refl _ := ⟨rfl, rfl⟩
  trans _ _ _ first second :=
    ⟨second.globals.trans first.globals, second.tags.trans first.tags⟩

theorem configured_edit {α : Type} (change : Program.Edit α) : Along Configured (edit change) :=
  fun _ => ⟨rfl, rfl⟩

theorem configured_emit (words : List Word) : Along Configured (emit words) :=
  .forM fun w _ => (configured_edit (Program.pushCode w)).discard

theorem configured_reserve (words : List Word) : Along Configured (reserve words) :=
  .forM fun w _ => (configured_edit (Program.pushJump w)).discard

theorem configured_setJump (slot : Nat) (w : Word) : Along Configured (setJump slot w) :=
  .modify fun _ => ⟨rfl, rfl⟩

theorem configured_openBody : Along Configured openBody := fun _ => ⟨rfl, rfl⟩

theorem configured_openBlock (kind : BlockKind) (words : List Word) :
    Along Configured (openBlock kind words) := by
  refine .bind .get fun _ => (configured_reserve words).bind fun _ => ?_
  exact .modify fun _ => ⟨rfl, rfl⟩

theorem configured_closeBlock : Along Configured closeBlock := .modify fun _ => ⟨rfl, rfl⟩

theorem configured_innermost (kind : BlockKind) (keyword : String) :
    Along Configured (innermost kind keyword) := by
  refine .bind .get fun c => ?_
  cases c.body.blocks with
  | nil => exact .throw _
  | cons block outer => exact .ite (.pure _) (.throw _)

theorem configured_fillCases (header : Nat) (target : Word) :
    Along Configured (fillCases header target) := by
  refine .bind .get fun _ => ?_
  exact .modify fun _ => ⟨rfl, rfl⟩

/-! ## Calls -/

theorem configured_bindBlock (op : Opcode) (block : Block) (target : Word) :
    Along Configured (bindBlock op block target) := by
  have set (slot : Nat) (w : Word) : Along Configured (setJump slot w) := configured_setJump slot w
  unfold bindBlock
  split
  · exact set _ _
  · refine (set _ _).bind fun _ => .bind .get fun c => ?_
    split
    · exact (set _ _).bind fun _ => configured_closeBlock
    · exact configured_closeBlock
  · refine (set _ _).bind fun _ => .bind .get fun c => ?_
    split
    · refine (set _ _).bind fun _ => ?_
      exact (configured_fillCases _ _).bind fun _ => configured_closeBlock
    · exact configured_closeBlock
  · exact (set _ _).bind fun _ => configured_closeBlock
  · exact .pure _

theorem configured_emitOperand (o : Operand) : Along Configured (emitOperand o) := by
  refine .bind .get fun c => (configured_emit _).bind fun _ => ?_
  cases ((c.substitute o).emission).refusal with
  | none => exact .pure _
  | some reason => exact .throw _

theorem configured_emitCall (text : Text) : Along Configured (emitCall text) := by
  have operands : Along Configured ((Call.split text).operands.forM emitOperand) :=
    .forM fun o _ => configured_emitOperand o
  unfold emitCall
  dsimp only
  split
  · exact .throw _
  · next op _ =>
    split
    · exact .throw _
    · split
      · next kind _ =>
        refine ((configured_innermost kind op.name).map some).bind fun block? => ?_
        refine (configured_emit [op.word]).bind fun _ => ?_
        cases block? with
        | none => exact operands
        | some block =>
          refine .bind .get fun c => ?_
          exact (configured_bindBlock op block c.here).bind fun _ => operands
      · exact (configured_emit [op.word]).bind fun _ => operands

/-! ## Lines -/

theorem configured_outsideLine (text : Text) : Along Configured (outsideLine type text) := by
  unfold outsideLine
  split
  · exact .modify fun _ => ⟨rfl, rfl⟩
  · split
    · exact configured_openBody.bind fun _ => .modify fun _ => ⟨rfl, rfl⟩
    · split
      · exact (configured_edit _).discard
      · refine (configured_edit _).bind fun _ => ?_
        exact configured_openBody.bind fun _ => .modify fun _ => ⟨rfl, rfl⟩
      · exact .pure _

theorem configured_closeBody (op : Opcode) : Along Configured (closeBody op) := by
  refine .bind .get fun c => ?_
  cases c.body.blocks with
  | cons block outer => exact .throw _
  | nil =>
    refine (configured_emit [op.word]).bind fun _ => .bind .get fun c => ?_
    cases c.unresolvedSlot? with
    | some slot => exact .throw _
    | none => exact .modify fun _ => ⟨rfl, rfl⟩

theorem configured_openCondition (keyword : ConditionKeyword) :
    Along Configured (openCondition keyword) := by
  cases keyword with
  | ifLine => exact configured_openBlock _ _
  | whileLine => exact .bind .get fun _ => configured_openBlock _ _

theorem configured_openSwitch : Along Configured openSwitch := by
  refine .bind .get fun _ => (configured_openBlock _ _).bind fun _ => ?_
  exact .bind (.modify fun _ => ⟨rfl, rfl⟩) fun _ => .pure _

theorem configured_bindCase (label : Text) : Along Configured (bindCase label) := by
  refine (configured_innermost _ _).bind fun block => .bind .get fun c => ?_
  exact .bind (.mk_pure _) fun value => .ite (configured_setJump _ _) (.throw _)

theorem configured_bindDefault : Along Configured bindDefault := by
  refine (configured_innermost _ _).bind fun block => .bind .get fun c => ?_
  exact (configured_setJump _ _).bind fun _ => configured_fillCases _ _

theorem configured_emitLine (text : Text) : Along Configured (emitLine text) := by
  unfold emitLine
  split
  · exact configured_bindCase _
  · exact .ite configured_bindDefault (configured_emitCall text)

theorem configured_statement (text : Text) : Along Configured (statement text) := by
  have emitted (text : Text) (header? : Option Nat) : Along Configured (do
      emitLine ((Rewrite.assignment? text).getD text)
      return header?) :=
    (configured_emitLine _).bind fun _ => .pure _
  refine .bind .get fun c => ?_
  cases Rewrite.condition? text c.nextSlot
  case' some condition => refine (configured_openCondition condition.keyword).bind fun _ => ?_
  -- what follows the test is the same, but for the text of the line
  all_goals
    simp only [pure_bind]
    refine .bind .get fun c => ?_
    split
    · exact configured_openSwitch.bind fun header => emitted _ (some header)
    · exact emitted _ none

theorem configured_insideLine (text : Text) : Along Configured (insideLine text) := by
  unfold insideLine
  split
  · exact (configured_closeBody _).bind fun _ => .pure _
  · split
    · exact (configured_closeBody _).bind fun _ => .pure _
    · split
      · refine .bind .get fun c => ?_
        exact .ite (.bind (.modify fun _ => ⟨rfl, rfl⟩) fun _ => .pure _) (.pure _)
      · exact .ite (.pure _) (configured_statement text)

/-! ## Files -/

theorem configured_onLine {α : Type} {x : Emit α} (h : Along Configured x) (line : Nat) :
    Along Configured (onLine line x) :=
  h

theorem configured_setLabelRange (header : Nat) (range : LabelRange) :
    Along Configured (setLabelRange header range) :=
  (configured_setJump header range.min).bind fun _ => configured_setJump (header + 1) range.max

theorem configured_reserveCases (header : Nat) (range : LabelRange) :
    Along Configured (reserveCases header range) := by
  refine (configured_setLabelRange header range.settle).bind fun _ => .bind .get fun c => ?_
  exact (configured_reserve _).bind fun _ => .ite (.throw _) (.pure _)

theorem configured_prime (header opening : Nat) (rest : List Line) :
    Along Configured (prime header opening rest) := by
  refine .bind .get fun c => (configured_onLine (configured_setLabelRange _ _) _).bind fun _ => ?_
  split
  · exact configured_onLine (configured_reserveCases _ _) _
  · exact .throw _
  · exact .throw _

theorem configured_compileLine (line : Line) (rest : List Line) :
    Along Configured (compileLine type line rest) := by
  refine .bind .get fun c => ?_
  cases c.mode with
  | outside => exact configured_onLine (configured_outsideLine line.text) line.number
  | skipping => exact .ite (.modify fun _ => ⟨rfl, rfl⟩) (.pure _)
  | inside =>
    refine (configured_onLine (configured_insideLine line.text) line.number).bind fun header? => ?_
    cases header? with
    | none => exact .pure _
    | some header => exact configured_prime header line.number rest

theorem configured_compileLines (last : Nat) (lines : List Line) :
    Along Configured (compileLines type last lines) := by
  induction lines generalizing last with
  | nil => exact .bind .get fun c => .ite (.throw _) (.pure _)
  | cons line rest ih =>
    rw [compileLines]
    split
    · exact (configured_compileLine line rest).bind fun _ => ih line.number
    · exact ih line.number

/-- **Files leave the configuration alone**, be it that they compile or fail. -/
theorem configured_compileFile (path : String) (source : Text) (type : Nat) (c : Compiler) :
    c.Configured (compileFile path source type c).2 := by
  have started : c.Configured c.startFile := ⟨rfl, rfl⟩
  rw [compileFile]
  split
  · exact trans_of Configured started (configured_compileLines 0 (Line.ofSource source) c.startFile)
  · exact started

/-! ## What the last file left -/

/-- A compiler with nothing left of the files before, but for what they added to the program. -/
def renewed (c : Compiler) : Compiler :=
  { program := c.program, globals := c.globals, tags := c.tags }

/-- **A file is compiled as by a renewed compiler**: with the same answer, and into the same program. -/
theorem compileFile_renewed (path : String) (source : Text) (type : Nat) (c : Compiler) :
    (compileFile path source type c).1 = (compileFile path source type c.renewed).1 ∧
      (compileFile path source type c).2.program =
        (compileFile path source type c.renewed).2.program := by
  -- a file begins with the entry point and the switches of the last body, and no more than these
  have start : c.startFile = c.renewed.startFile.withBody c.startFile.body := rfl
  have lines := @compileLines_withBody type 0 (Line.ofSource source) c.renewed.startFile rfl
    c.startFile.body
  rw [compileFile, compileFile, start]
  split
  · have located := congrArg
      (Except.mapError fun p : Problem => (⟨path, p.line, p.reason⟩ : CompileError)) lines.1
    exact ⟨located, lines.2⟩
  · exact ⟨rfl, rfl⟩

end Compiler

/-! ## Sequences of files -/

/-- A source file whose sub-scripts belong to an object type. -/
structure SourceFile where
  path : String
  source : Text
  type : Nat

open Compiler

/-- Compiles files one after the other with one compiler, whatever state each of them leaves it in.
Gives the answer to each file with the program behind it. -/
def compileAll : List SourceFile → Compiler → List (Except CompileError Unit × Program)
  | [], _ => []
  | file :: rest, c =>
    let (answer, c) := compileFile file.path file.source file.type c
    (answer, c.program) :: compileAll rest c

/-- Compiles files one after the other into one program, each of them with a new compiler. -/
def compileEach (globals tags : List Text) :
    List SourceFile → Program → List (Except CompileError Unit × Program)
  | [], _ => []
  | file :: rest, program =>
    let (answer, c) := compileFile file.path file.source file.type { program, globals, tags }
    (answer, c.program) :: compileEach globals tags rest c.program

/-- **One compiler for all files does what a new one for each of them does.** However the files
before have ended, in whatever state, each file has the same answer and leaves the same program. -/
theorem compileAll_eq_compileEach (files : List SourceFile) (c : Compiler) :
    compileAll files c = compileEach c.globals c.tags files c.program := by
  induction files generalizing c with
  | nil => rfl
  | cons file rest ih =>
    obtain ⟨answer, program⟩ := compileFile_renewed file.path file.source file.type c
    have configured := configured_compileFile file.path file.source file.type c
    calc compileAll (file :: rest) c
        = ((compileFile file.path file.source file.type c).1,
            (compileFile file.path file.source file.type c).2.program) ::
          compileAll rest (compileFile file.path file.source file.type c).2 := rfl
      _ = ((compileFile file.path file.source file.type c.renewed).1,
            (compileFile file.path file.source file.type c.renewed).2.program) ::
          compileEach c.globals c.tags rest
            (compileFile file.path file.source file.type c.renewed).2.program := by
        rw [ih, configured.globals, configured.tags, answer, program]

end StageScript
