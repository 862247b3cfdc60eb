import Mathlib.Logic.Relation
import StageScript.Proofs.Compiler.CaseRange
import StageScript.Proofs.Source.Reader

/-! # Lines that are read twice
The lines of a switch are read to find its labels, and then read again to be compiled. Here a file is on
its way through the compiler with a reader, and each step reads one line.
* `Compilation.step` — one step, in which a line is compiled or searched for labels. A search begins where
  a line opened a switch, and at its end the reader goes back to the place behind that line;
* **`Compilation.searchLine_cases`** — what one line does to a search;
* **`Compilation.Searching.exists_run`** — a search does what looking ahead does;
* **`Compilation.exists_of_compileLines`** — so the steps through a file do what compiling its lines does;
* **`search_restores`** — a search changes nothing but the slots of its switch, and leaves the reader where
  it began. -/

namespace StageScript

open Stepwise Compiler Relation

/-- A line that opens a switch is not empty. -/
theorem Directive.ne_nil_of_startsSwitch {text : Text} (starts : startsSwitch text = true) :
    text ≠ [] := by
  rintro rfl
  cases starts

/-! ## Steps -/

/-- What lines are read for. -/
inductive Pass
  /-- They are compiled. -/
  | compiling
  /-- They are searched for the labels of a switch. `depth` counts the switches open inside it, `header`
  is where its slots begin, and `mark` where its lines do. -/
  | searching (depth header : Nat) (mark : Reader.Mark)
  deriving DecidableEq, Repr

/-- A file on its way through the compiler. -/
structure Compilation where
  compiler : Compiler
  reader : Reader
  pass : Pass := .compiling
  deriving DecidableEq

namespace Compilation

/-- Compiles a line, and says where the header of a switch stands if the line opens one. -/
def enterLine (type : Nat) (line : Line) : Work (Option Nat) := do
  match (← get).mode with
  | .outside =>
    onLine line.number (outsideLine type line.text)
    return none
  | .skipping =>
    if Directive.endsPlatform line.text then modify fun c => { c with mode := .inside }
    return none
  | .inside => onLine line.number (insideLine line.text)

/-- Widens the range in the header of a switch by a label. -/
def widen (header : Nat) (label : Text) : Emit Unit := do
  let c ← get
  let value ← ExceptT.mk (pure (labelValue c.aliases label))
  setLabelRange header ((c.labelRange header).add value)

/-- Searches a line for a label of a switch, and counts the switches that are open inside it. Nothing is
given where the switch ends. -/
def searchLine (line : Line) (depth header : Nat) : Work (Option Nat) := do
  if Directive.startsSwitch line.text then return some (depth + 1)
  else if Directive.endsSwitch line.text then
    if depth = 0 then
      onLine line.number (reserveCases header ((← get).labelRange header))
      return none
    else return some (depth - 1)
  else
    if let some label := Directive.caseLabel? line.text then
      if depth = 0 then onLine line.number (widen header label)
    return some depth

/-- Does with a line that was read what it was read for. -/
def perform (type : Nat) (line : Line) (s : Compilation) : Except Problem Unit × Compilation :=
  match s.pass with
  | .compiling =>
    match enterLine type line s.compiler with
    | (.ok none, c) => (.ok (), { s with compiler := c })
    | (.ok (some header), c) =>
      (.ok (), { s with compiler := c, pass := .searching 0 header s.reader.mark })
    | (.error p, c) => (.error p, { s with compiler := c })
  | .searching depth header mark =>
    match searchLine line depth header s.compiler with
    | (.ok (some depth), c) => (.ok (), { s with compiler := c, pass := .searching depth header mark })
    | (.ok none, c) => (.ok (), { compiler := c, reader := s.reader.seek mark })
    | (.error p, c) => (.error p, { s with compiler := c })

/-- Reads a line, and says whether there was one. Where the file ends no body may be open. -/
def step (type : Nat) (s : Compilation) : Except Problem Bool × Compilation :=
  match s.reader.next? with
  | none =>
    (if s.compiler.mode = .outside then .ok false else .error ⟨s.reader.line, .unexpectedEnd⟩, s)
  | some (line, reader) =>
    if line.text = [] then (.ok true, { s with reader })
    else
      let (answer, s) := perform type line { s with reader }
      (answer.map fun _ => true, s)

/-- A step reads a line and leads on. -/
def Turns (type : Nat) (s s' : Compilation) : Prop := step type s = (.ok true, s')

/-- A step of a search reads a line and leads on. -/
def Searches (type : Nat) (s s' : Compilation) : Prop := s.pass ≠ .compiling ∧ Turns type s s'

variable {c c₁ c₂ c' : Compiler} {reader behind : Reader} {line : Line} {rest : List Line}
  {type depth header last : Nat} {s s' : Compilation}

/-- A line that is compiled opens a switch, and then its labels are looked up ahead. -/
theorem compileLine_eq (type : Nat) (line : Line) (rest : List Line) (c : Compiler) :
    compileLine type line rest c =
      match enterLine type line c with
      | (.ok none, c₁) => (.ok (), c₁)
      | (.ok (some header), c₁) => prime header line.number rest c₁
      | (.error p, c₁) => (.error p, c₁) := by
  rw [compileLine, enterLine, bind_apply, get_apply, bind_apply, get_apply]
  dsimp only
  cases c.mode with
  | outside =>
    dsimp only
    rw [bind_apply]
    rcases onLine line.number (outsideLine type line.text) c with ⟨p | ⟨⟨⟩⟩, c₁⟩ <;> rfl
  | skipping =>
    dsimp only
    split <;> rfl
  | inside =>
    dsimp only
    rw [bind_apply]
    rcases onLine line.number (insideLine line.text) c with ⟨p | header | header, c₁⟩ <;> rfl

/-- What is looked up ahead goes into the header of a switch, and slots follow where the search comes to
the end. -/
theorem prime_apply (header opening : Nat) (rest : List Line) (c : Compiler) :
    let priming := Priming.scan c.aliases rest 0 opening LabelRange.start
    prime header opening rest c =
      match priming.ending with
      | .closed n => onLine n (reserveCases header priming.range) (c.ranged header priming.range)
      | .refused n reason => (.error ⟨n, reason⟩, c.ranged header priming.range)
      | .unclosed n => (.error ⟨n, .unexpectedEnd⟩, c.ranged header priming.range) := by
  rw [prime, bind_apply, get_apply]
  dsimp only
  generalize Priming.scan c.aliases rest 0 opening LabelRange.start = priming
  have write : onLine opening (setLabelRange header priming.range) c =
      (.ok (), c.ranged header priming.range) := rfl
  rw [bind_apply_of_ok write]
  cases priming.ending <;> rfl

/-! ## Searches -/

/-- The range in a header that was written there. -/
theorem labelRange_ranged (inside : header + 1 < c.program.jumpTable.size) (range : LabelRange) :
    (c.ranged header range).labelRange header = range := by
  have first : header < c.program.jumpTable.size := Nat.lt_of_succ_lt inside
  simp [labelRange, ranged, setSlot, changeJumps, jumpWord, inside, first]

/-- The range that is in a header may be written there. -/
theorem ranged_labelRange (c : Compiler) (header : Nat) :
    c.ranged header (c.labelRange header) = c := by
  have same (jumps : Array Word) (slot : Nat) : jumps.setIfInBounds slot (jumps.getD slot 0) = jumps := by
    apply Array.ext_getElem?
    intro i
    by_cases here : slot = i
    · subst here
      by_cases inside : slot < jumps.size <;> simp [inside]
    · simp [here]
  simp only [ranged, setSlot, changeJumps, labelRange, jumpWord, same]

/-- What a line is refused for is told with its number. -/
theorem onLine_of_error {α : Type} {number : Nat} {step : Emit α} {reason : CompileReason}
    (h : step c = (.error reason, c')) : onLine number step c = (.error ⟨number, reason⟩, c') := by
  rw [onLine, h]
  rfl

/-- **What one line does to a search**: it goes on with a range in the header, it comes to its end, where
the slots are reserved, or a label is refused. -/
theorem searchLine_cases (line : Line) (depth header : Nat) (c : Compiler)
    (inside : header + 1 < c.program.jumpTable.size) :
    (∃ depth' c', searchLine line depth header c = (.ok (some depth'), c') ∧
        c' = c.ranged header (c'.labelRange header) ∧
        ∀ rest last, Priming.scan c.aliases (line :: rest) depth last (c.labelRange header) =
          Priming.scan c.aliases rest depth' line.number (c'.labelRange header)) ∨
      ((∀ rest last, Priming.scan c.aliases (line :: rest) depth last (c.labelRange header) =
          ⟨c.labelRange header, .closed line.number⟩) ∧
        searchLine line depth header c =
          match onLine line.number (reserveCases header (c.labelRange header)) c with
          | (.ok (), c₁) => (.ok none, c₁)
          | (.error p, c₁) => (.error p, c₁)) ∨
      ∃ reason, searchLine line depth header c = (.error ⟨line.number, reason⟩, c) ∧
        ∀ rest last, Priming.scan c.aliases (line :: rest) depth last (c.labelRange header) =
          ⟨c.labelRange header, .refused line.number reason⟩ := by
  have stays := (ranged_labelRange c header).symm
  cases starts : Directive.startsSwitch line.text with
  | true =>
    left
    refine ⟨depth + 1, c, ?_, stays, fun rest last => (Priming.scan_of_starts starts).1⟩
    simp [searchLine, starts]
  | false =>
    cases ends : Directive.endsSwitch line.text with
    | true =>
      cases depth with
      | zero =>
        right; left
        constructor
        · intro rest last
          simp [Priming.scan, starts, ends]
        · simp only [searchLine, starts, ends, Bool.false_eq_true, if_false, if_true, bind_apply,
            get_apply]
          rcases onLine line.number (reserveCases header (c.labelRange header)) c with
            ⟨p | ⟨⟨⟩⟩, c₁⟩ <;> rfl
      | succ depth =>
        left
        refine ⟨depth, c, ?_, stays, fun rest last => (Priming.scan_of_ends starts ends).1⟩
        simp [searchLine, starts, ends]
    | false =>
      cases read : Directive.caseLabel? line.text with
      | none =>
        left
        have passes : Priming.Passes line.text := ⟨starts, ends, read⟩
        refine ⟨depth, c, ?_, stays, fun rest last => passes.scan_eq⟩
        simp [searchLine, starts, ends, read]
      | some label =>
        cases depth with
        | zero =>
          -- the label counts, if it has a value
          cases known : labelValue c.aliases label with
          | ok value =>
            left
            have widens : widen header label c =
                (.ok (), c.ranged header ((c.labelRange header).add value)) := by
              simp only [widen, bind_apply, get_apply, known]
              rfl
            refine ⟨0, c.ranged header ((c.labelRange header).add value), ?_, ?_, ?_⟩
            · simp [searchLine, starts, ends, read, onLine_of_ok widens, Except.map]
            · rw [labelRange_ranged inside]
            · intro rest last
              simp [Priming.scan, starts, ends, read, known, labelRange_ranged inside]
          | error reason =>
            right; right
            refine ⟨reason, ?_, ?_⟩
            · have refuses : widen header label c = (.error reason, c) := by
                simp only [widen, bind_apply, get_apply, known]
                rfl
              simp [searchLine, starts, ends, read, onLine_of_error refuses, Except.map]
            · intro rest last
              simp [Priming.scan, starts, ends, read, known]
        | succ depth =>
          left
          refine ⟨depth + 1, c, ?_, stays, fun rest last => Priming.scan_of_inside starts ends⟩
          simp [searchLine, starts, ends, read]

/-- A search that is under way: what it has found is in the header, and what it will find lies ahead.
`opened` is the compiler where the search began, and `behind` the reader. -/
structure Searching (opened : Compiler) (behind : Reader) (header depth : Nat) (s : Compilation) : Prop where
  pass : s.pass = .searching depth header behind.mark
  source : s.reader.source = behind.source
  compiler : s.compiler = opened.ranged header (s.compiler.labelRange header)
  scan : Priming.scan opened.aliases behind.lines 0 behind.line LabelRange.start =
    Priming.scan opened.aliases s.reader.lines depth s.reader.line (s.compiler.labelRange header)

/-- A search that has come to its end. -/
structure Searched (opened : Compiler) (behind : Reader) (header : Nat) (s : Compilation) : Prop where
  pass : s.pass = .compiling
  reader : s.reader = behind
  primed : prime header behind.line behind.lines opened = (.ok (), s.compiler)

/-- A last step of a search, which does to the compiler what looking ahead does, and leads back if nothing
is wrong. -/
structure Ends (opened : Compiler) (behind : Reader) (type header : Nat) (s s' : Compilation) : Prop where
  step : step type s = ((prime header behind.line behind.lines opened).1.map fun _ => true, s')
  compiler : s'.compiler = (prime header behind.line behind.lines opened).2
  leadsBack : (prime header behind.line behind.lines opened).1 = .ok () →
    s'.pass = .compiling ∧ s'.reader = behind

/-- The last step of a search where nothing is wrong. -/
theorem Ends.turns {opened : Compiler} (h : Ends opened behind type header s s')
    (primed : prime header behind.line behind.lines opened = (.ok (), c')) :
    Turns type s ⟨c', behind, .compiling⟩ := by
  obtain ⟨pass, reader⟩ := h.leadsBack (congrArg Prod.fst primed)
  have compiler : s'.compiler = c' := h.compiler.trans (congrArg Prod.snd primed)
  have same : s' = ⟨c', behind, .compiling⟩ := by
    cases s'
    simp_all
  rw [Turns, h.step, primed, same]
  rfl

namespace Searching

variable {opened : Compiler}

/-- **One step of a search** leads further, or is the last one. -/
theorem step_cases (h : Searching opened behind header depth s) (type : Nat)
    (mode : opened.mode = .inside) (inside : header + 1 < opened.program.jumpTable.size) :
    (∃ s' depth', step type s = (.ok true, s') ∧ Searching opened behind header depth' s' ∧
        s'.reader.lines.length < s.reader.lines.length) ∨
      ∃ s', Ends opened behind type header s s' := by
  have size := size_ranged opened header (s.compiler.labelRange header)
  have aliases : s.compiler.aliases = opened.aliases := by rw [h.compiler, aliases_ranged]
  rw [← h.compiler] at size
  have primed := prime_apply header behind.line behind.lines opened
  cases reads : s.reader.next? with
  | none =>
    -- the file ends within the switch
    right
    have opened' : s.compiler.mode = .inside := by rw [h.compiler, mode_ranged, mode]
    have found := h.scan
    rw [Reader.lines_of_next?_none reads, Priming.scan] at found
    rw [found] at primed
    dsimp only at primed
    rw [← h.compiler] at primed
    refine ⟨s, ?_, ?_, ?_⟩
    · simp [step, reads, opened', primed, Except.map]
    · rw [primed]
    · rw [primed]
      intro ok
      cases ok
  | some next =>
    obtain ⟨line, reader⟩ := next
    obtain ⟨lines, number, source⟩ := Reader.lines_of_next? reads
    have found := h.scan
    rw [lines] at found
    have fewer : reader.lines.length < s.reader.lines.length := by simp [lines]
    by_cases empty : line.text = []
    · left
      refine ⟨{ s with reader }, depth, by simp [step, reads, empty], ?_, fewer⟩
      refine ⟨h.pass, source.trans h.source, h.compiler, ?_⟩
      rw [found, (Priming.passes_of_empty empty).scan_eq, number]
    have turn : step type s =
        ((perform type line { s with reader }).1.map fun _ => true,
          (perform type line { s with reader }).2) := by
      simp only [step, reads, empty, if_false]
    have line_ := searchLine_cases line depth header s.compiler (size.symm ▸ inside)
    simp only [aliases] at line_
    rcases line_ with ⟨depth', c', searched, ranged, goesOn⟩ | ⟨ends, searched⟩ | ⟨reason, searched, ends⟩
    · left
      refine ⟨⟨c', reader, .searching depth' header behind.mark⟩, depth', ?_, ?_, fewer⟩
      · rw [turn]
        simp only [perform, h.pass, searched]
        rfl
      · refine ⟨rfl, source.trans h.source, ?_, ?_⟩
        · rw [h.compiler, ranged_ranged] at ranged
          exact ranged
        · rw [found, goesOn, number]
    · right
      rw [found, ends] at primed
      dsimp only at primed
      rw [← h.compiler] at primed
      have leadsBack : reader.seek behind.mark = behind := Reader.seek_mark (source.trans h.source)
      cases reserved : onLine line.number
          (reserveCases header (s.compiler.labelRange header)) s.compiler with
      | mk answer c' =>
        rw [reserved] at primed searched
        cases answer with
        | error p =>
          refine ⟨⟨c', reader, s.pass⟩, ?_, ?_, ?_⟩
          · rw [turn, primed]
            simp only [perform, h.pass, searched]
          · rw [primed]
          · rw [primed]
            intro ok
            cases ok
        | ok =>
          refine ⟨⟨c', behind, .compiling⟩, ?_, ?_, fun _ => ⟨rfl, rfl⟩⟩
          · rw [turn, primed]
            simp only [perform, h.pass, searched, leadsBack]
          · rw [primed]
    · right
      rw [found, ends] at primed
      dsimp only at primed
      rw [← h.compiler] at primed
      refine ⟨{ s with reader }, ?_, ?_, ?_⟩
      · rw [turn, primed]
        simp only [perform, h.pass, searched]
      · rw [primed]
      · rw [primed]
        intro ok
        cases ok

/-- A step of a search that goes well keeps it under way, or brings it to its end. -/
theorem of_searches (h : Searching opened behind header depth s) (mode : opened.mode = .inside)
    (inside : header + 1 < opened.program.jumpTable.size) (turn : Searches type s s') :
    (∃ depth', Searching opened behind header depth' s') ∨ Searched opened behind header s' := by
  obtain ⟨-, turn⟩ := turn
  rcases h.step_cases type mode inside with ⟨s₁, depth', steps, goesOn, -⟩ | ⟨s₁, last⟩
  · obtain ⟨-, rfl⟩ := Prod.mk.inj (steps.symm.trans turn)
    exact .inl ⟨depth', goesOn⟩
  · obtain ⟨answer, rfl⟩ := Prod.mk.inj (last.step.symm.trans turn)
    have primes : (prime header behind.line behind.lines opened).1 = .ok () := by
      cases answered : (prime header behind.line behind.lines opened).1 with
      | error p =>
        rw [answered] at answer
        cases answer
      | ok => rfl
    obtain ⟨pass, reader⟩ := last.leadsBack primes
    exact .inr ⟨pass, reader, Prod.ext primes last.compiler.symm⟩

/-- **What a search does**, step after step: it is under way, or it has come to its end. -/
theorem of_reflTransGen (h : Searching opened behind header depth s) (mode : opened.mode = .inside)
    (inside : header + 1 < opened.program.jumpTable.size) (run : ReflTransGen (Searches type) s s') :
    (∃ depth', Searching opened behind header depth' s') ∨ Searched opened behind header s' := by
  induction run with
  | refl => exact .inl ⟨depth, h⟩
  | tail _ turn ih =>
    rcases ih with ⟨depth', goesOn⟩ | ended
    · exact goesOn.of_searches mode inside turn
    · exact absurd ended.pass turn.1

/-- **A search comes to an end**, with what looking ahead does. -/
theorem exists_run (h : Searching opened behind header depth s) (type : Nat)
    (mode : opened.mode = .inside) (inside : header + 1 < opened.program.jumpTable.size) :
    ∃ s₁ s', ReflTransGen (Searches type) s s₁ ∧ s₁.pass ≠ .compiling ∧
      Ends opened behind type header s₁ s' := by
  -- the lines ahead become fewer with each step
  induction fewer : s.reader.lines.length using Nat.strongRecOn generalizing s depth with
  | ind n ih =>
    subst fewer
    have searches : s.pass ≠ .compiling := by
      rw [h.pass]
      exact nofun
    rcases h.step_cases type mode inside with ⟨s₁, depth', steps, goesOn, fewer⟩ | ⟨s', last⟩
    · obtain ⟨s₂, s', run, searches', last⟩ := ih _ fewer goesOn rfl
      exact ⟨s₂, s', .head ⟨searches, steps⟩ run, searches', last⟩
    · exact ⟨s, s', .refl, searches, last⟩

end Searching

/-! ## Files -/

/-- A line that opens a switch stands in an open body. -/
theorem opens_of_enterLine (entered : enterLine type line c = (.ok (some header), c₁)) :
    c.mode = .inside ∧ insideLine line.text c = (.ok (some header), c₁) := by
  rw [enterLine, bind_apply, get_apply] at entered
  dsimp only at entered
  cases mode : c.mode with
  | outside =>
    rw [mode] at entered
    obtain ⟨⟨⟩, c₂, -, rest⟩ := exists_of_bind_eq_ok entered
    cases (Prod.mk.inj rest).1
  | skipping =>
    simp only [mode] at entered
    by_cases ends : Directive.endsPlatform line.text = true
    all_goals
      simp only [ends, Bool.false_eq_true, if_true, if_false] at entered
      cases (Prod.mk.inj entered).1
  | inside =>
    rw [mode] at entered
    exact ⟨rfl, onLine_eq_ok entered⟩

/-- A line that opens a switch begins a search. -/
theorem searching_of_opens {opened : Compiler} (type : Nat) (mode : c.mode = .inside)
    (reads : reader.next? = some (line, behind))
    (opens : insideLine line.text c = (.ok (some header), opened)) :
    Turns type ⟨c, reader, .compiling⟩ ⟨opened, behind, .searching 0 header behind.mark⟩ ∧
      Searching opened behind header 0 ⟨opened, behind, .searching 0 header behind.mark⟩ ∧
      opened.mode = .inside ∧ header + 1 < opened.program.jumpTable.size := by
  have entered : enterLine type line c = (.ok (some header), opened) := by
    rw [enterLine, bind_apply, get_apply]
    dsimp only
    rw [mode]
    exact onLine_of_ok opens
  obtain ⟨starts, rfl, arguments, rfl⟩ := opens_of_insideLine opens
  have written := Directive.ne_nil_of_startsSwitch starts
  have table : (c.openedSwitch.addCode (Instruction.encode (.control .switch)
      arguments)).program.jumpTable = c.program.jumpTable ++
        #[LabelRange.start.min, LabelRange.start.max, -1, 0] := rfl
  have fresh : (c.openedSwitch.addCode (Instruction.encode (.control .switch)
      arguments)).labelRange c.program.jumpTable.size = LabelRange.start := by
    simp [labelRange, jumpWord, table, Array.getD_eq_getD_getElem?]
  refine ⟨?_, ⟨rfl, rfl, (ranged_labelRange ..).symm, ?_⟩, mode, ?_⟩
  · simp [Turns, step, reads, written, perform, entered, Except.map]
  · rw [fresh]
  · simp [table]

/-- **The steps through a file** do what compiling its lines does. -/
theorem exists_of_compileLines (type : Nat) (c : Compiler) (reader : Reader) :
    ∃ s s', ReflTransGen (Turns type) ⟨c, reader, .compiling⟩ s ∧
      step type s = ((compileLines type reader.line reader.lines c).1.map fun _ => false, s') ∧
      s'.compiler = (compileLines type reader.line reader.lines c).2 := by
  induction fewer : reader.lines.length using Nat.strongRecOn generalizing c reader with
  | ind n ih =>
    subst fewer
    cases reads : reader.next? with
    | none =>
      refine ⟨⟨c, reader, .compiling⟩, ⟨c, reader, .compiling⟩, .refl, ?_⟩
      rw [Reader.lines_of_next?_none reads, compileLines, bind_apply, get_apply]
      by_cases closed : c.mode = .outside <;> simp [step, reads, closed, Except.map]
    | some next =>
      obtain ⟨line, behind⟩ := next
      obtain ⟨lines, number, -⟩ := Reader.lines_of_next? reads
      have fewer : behind.lines.length < reader.lines.length := by simp [lines]
      rw [lines, compileLines, number]
      by_cases empty : line.text = []
      · -- an empty line is passed over
        have turn : Turns type ⟨c, reader, .compiling⟩ ⟨c, behind, .compiling⟩ := by
          simp [Turns, step, reads, empty]
        obtain ⟨s, s', run, last⟩ := ih _ fewer c behind rfl
        rw [if_neg (not_not_intro empty)]
        exact ⟨s, s', .head turn run, last⟩
      · rw [if_pos empty, bind_apply, compileLine_eq, number]
        have turn : step type ⟨c, reader, .compiling⟩ =
            ((perform type line ⟨c, behind, .compiling⟩).1.map fun _ => true,
              (perform type line ⟨c, behind, .compiling⟩).2) := by
          simp only [step, reads, empty, if_false]
        rcases entered : enterLine type line c with ⟨p | header?, c₁⟩
        · refine ⟨_, ⟨c₁, behind, .compiling⟩, .refl, ?_, rfl⟩
          rw [turn]
          simp only [perform, entered]
          rfl
        cases header? with
        | none =>
          have goesOn : Turns type ⟨c, reader, .compiling⟩ ⟨c₁, behind, .compiling⟩ := by
            rw [Turns, turn]
            simp only [perform, entered]
            rfl
          obtain ⟨s, s', run, last⟩ := ih _ fewer c₁ behind rfl
          exact ⟨s, s', .head goesOn run, last⟩
        | some header =>
          -- the lines of the switch are searched, and then there are fewer lines to compile
          obtain ⟨mode, opens⟩ := opens_of_enterLine entered
          obtain ⟨begins, searching, mode₁, inside⟩ := searching_of_opens type mode reads opens
          obtain ⟨s₁, s₂, search, -, last⟩ := searching.exists_run type mode₁ inside
          have run : ReflTransGen (Turns type) ⟨c, reader, .compiling⟩ s₁ :=
            .head begins (ReflTransGen.mono (fun _ _ (turn : Searches type _ _) => turn.2) _ _ search)
          dsimp only
          rcases primed : prime header behind.line behind.lines c₁ with ⟨p | ⟨⟨⟩⟩, c₂⟩
          · refine ⟨s₁, s₂, run, ?_, ?_⟩
            · rw [last.step, primed]
              rfl
            · rw [last.compiler, primed]
          · obtain ⟨s, s', run', last'⟩ := ih _ fewer c₂ behind rfl
            exact ⟨s, s', run.trans (.head (last.turns primed) run'), last'⟩

/-- **Compiling a source** is what the steps from its beginning do. -/
theorem exists_of_source (type : Nat) (c : Compiler) (source : Text) :
    ∃ s s', ReflTransGen (Turns type) ⟨c, .ofSource source, .compiling⟩ s ∧
      step type s = ((compileLines type 0 (Line.ofSource source) c).1.map fun _ => false, s') ∧
      s'.compiler = (compileLines type 0 (Line.ofSource source) c).2 := by
  rw [← Reader.lines_ofSource source]
  exact exists_of_compileLines type c (.ofSource source)

end Compilation

/-! ## What a search leaves -/

/-- A compiler that differs from another one in the first two slots of a switch and in slots behind all
others, which have no target. -/
structure Compiler.Reserved (c : Compiler) (header : Nat) (c' : Compiler) : Prop where
  /-- All but the jump table is the same: the code, the functions and the entry points of the program, the
  aliases, the open blocks, and whatever else a compiler has. -/
  rest : { c with program := { c.program with jumpTable := c'.program.jumpTable } } = c'
  /-- The slots that were there keep their words, but for those two. -/
  kept : ∀ slot, slot < c.program.jumpTable.size → slot ≠ header → slot ≠ header + 1 →
    c'.program.jumpTable[slot]? = c.program.jumpTable[slot]?
  /-- No slot is taken away. -/
  size : c.program.jumpTable.size ≤ c'.program.jumpTable.size
  /-- A slot that is added has no target. -/
  added : ∀ slot, c.program.jumpTable.size ≤ slot → slot < c'.program.jumpTable.size →
    c'.program.jumpTable[slot]? = some (-1)

/-- A range in the header of a switch, and slots for its values. -/
theorem Compiler.reserved_ranged (c : Compiler) (header : Nat) (range : LabelRange) (count : Nat) :
    c.Reserved header ((c.ranged header range).addJumps (List.replicate count (-1))) := by
  have size := size_ranged c header range
  have table := BodyTyped.jumpTable_addJumps (c.ranged header range) (List.replicate count (-1))
  refine ⟨rfl, ?_, ?_, ?_⟩
  · intro slot inside other other'
    rw [table, Array.getElem?_append_left (size.symm ▸ inside), BodyTyped.jumpTable_ranged,
      Array.getElem?_setIfInBounds_ne other'.symm, Array.getElem?_setIfInBounds_ne other.symm]
  · rw [size_addJumps, size]
    exact Nat.le_add_right ..
  · intro slot behind inside
    rw [size_addJumps, size, List.length_replicate] at inside
    rw [table, Array.getElem?_append_right (size.symm ▸ behind), size, List.getElem?_toArray,
      List.getElem?_replicate, if_pos (by omega)]

open Compilation in
/-- **A search for labels changes nothing but the slots of its switch, and leaves the reader where it
began.** Let a line of a body open a switch. Then the lines behind it are searched, however many switches
are inside, and as long as this goes on, and where it has come to its end, the compiler is as it was
behind the instruction of the switch, but for the first two slots of the switch; slots are added at the
end only, and have no target. At the end the reader is back behind the line. The search comes to its end
just where the line compiles, and what is compiled next are the lines behind it. -/
theorem search_restores {c opened : Compiler} {reader behind : Reader} {line : Line} {type header : Nat}
    (mode : c.mode = .inside) (reads : reader.next? = some (line, behind))
    (opens : insideLine line.text c = (.ok (some header), opened)) :
    let begun : Compilation := ⟨opened, behind, .searching 0 header behind.mark⟩
    Turns type ⟨c, reader, .compiling⟩ begun ∧
      (∀ s, ReflTransGen (Searches type) begun s →
        opened.Reserved header s.compiler ∧
          (s.pass ≠ .compiling → s.compiler.program.jumpTable.size = opened.program.jumpTable.size) ∧
          (s.pass = .compiling → s.reader = behind ∧
            compileLine type line behind.lines c = (.ok (), s.compiler))) ∧
      ∀ c', compileLine type line behind.lines c = (.ok (), c') →
        ReflTransGen (Searches type) begun ⟨c', behind, .compiling⟩ ∧
          compileLines type reader.line reader.lines c =
            compileLines type behind.line behind.lines c' := by
  intro begun
  obtain ⟨begins, searching, mode₁, inside⟩ := searching_of_opens type mode reads opens
  obtain ⟨lines, number, -⟩ := Reader.lines_of_next? reads
  have compiles : compileLine type line behind.lines c =
      prime header behind.line behind.lines opened := by
    rw [compileLine_of_opens mode opens, number]
  refine ⟨begins, ?_, ?_⟩
  · intro s run
    rcases searching.of_reflTransGen mode₁ inside run with ⟨depth, goesOn⟩ | ended
    -- While the search goes on, no more than the range in the header has changed.
    · have slots := reserved_ranged opened header (s.compiler.labelRange header) 0
      rw [List.replicate_zero, addJumps_nil, ← goesOn.compiler] at slots
      refine ⟨slots, fun _ => ?_, fun pass => ?_⟩
      · rw [goesOn.compiler, size_ranged]
      · rw [goesOn.pass] at pass
        cases pass
    -- At its end the slots of the labels are there, and the line is compiled.
    · obtain ⟨-, primed, -⟩ := prime_eq_ok ended.primed
      refine ⟨?_, fun pass => absurd ended.pass pass, fun _ => ⟨ended.reader, ?_⟩⟩
      · rw [primed, Compiler.primed, ranged_ranged]
        exact reserved_ranged ..
      · rw [compiles, ended.primed]
  · intro c' compiled
    obtain ⟨s₁, s', run, searches, last⟩ := searching.exists_run type mode₁ inside
    have primed : prime header behind.line behind.lines opened = (.ok (), c') := compiles.symm.trans compiled
    have written := Directive.ne_nil_of_startsSwitch (opens_of_insideLine opens).1
    refine ⟨run.tail ⟨searches, last.turns primed⟩, ?_⟩
    rw [lines, compileLines, if_pos written, bind_apply_of_ok compiled, number]

/-- The lines of a switch with another one inside. -/
def twofold : Text :=
  "switchTempValue0\ncase1:\nswitchTempValue1\ncase7:\nendswitch\ncase3:\nendswitch\nendsub".toList

/-- A reader behind the first of these lines. -/
def insideTwofold : Reader := ⟨⟨17, 1⟩, twofold⟩

open Compilation in
theorem search_restores_twofold :
    ∃ c', compileLine 0 switchLine insideTwofold.lines bodyBegun = (.ok (), c') ∧
      ReflTransGen (Searches 0) ⟨switchOpened, insideTwofold, .searching 0 0 ⟨17, 1⟩⟩
        ⟨c', insideTwofold, .compiling⟩ ∧
      switchOpened.Reserved 0 c' := by
  have compiled := Except.eq_of_toOption
    (show (compileLine 0 switchLine insideTwofold.lines bodyBegun).1.toOption = some ()
      by decide +kernel)
  have reads : (Reader.ofSource twofold).next? = some (switchLine, insideTwofold) := by
    decide +kernel
  obtain ⟨-, frames, completes⟩ := @search_restores bodyBegun switchOpened _ _ _ 0 0 rfl reads
    switchLine_opens
  obtain ⟨search, -⟩ := completes _ compiled
  exact ⟨_, compiled, search, (frames _ search).1⟩

end StageScript
