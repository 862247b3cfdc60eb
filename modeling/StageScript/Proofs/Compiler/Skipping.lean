import StageScript.Proofs.Compiler.Binding
import StageScript.Proofs.Compiler.Reuse
import StageScript.Proofs.Compiler.Translation
import StageScript.Proofs.Source.Blanking

/-! # Lines that are left out
A platform block that names no tag of the compiler adds nothing to a program. But the search for the
labels of a switch, which reads ahead, does not know of platform blocks and reads over their lines.
* **`primesAsBlanked`** — whether the search finds the same labels where these lines are empty;
* **`Region.primesAlike_of_hidesNoLabel`** — it does if none of them is about a switch;
* **`compileLines_of_blank`**, **`primesAlike_of_compileLines`** — then, and only then, the lines
  compile into what the blanked lines compile into;
* **`compileFile_of_hidesNoLabel`**, **`compileFile_of_blanked`** — the same for files;
* **`not_all_left_out`** — a closing keyword in a block that is left out breaks this. -/

namespace StageScript

open Stepwise Compiler

/-! ## Labels that are looked up ahead -/

namespace Priming

/-- The range for which a switch gets slots, where the search for its labels comes to its end. -/
def found? (p : Priming) : Option LabelRange :=
  match p.ending with
  | .closed _ => some p.range.settle
  | _ => none

/-- What is found ahead for the switch that a line opens. -/
def labels? (aliases : List Alias) (line : Line) (rest : List Line) : Option LabelRange :=
  (scan aliases rest 0 line.number LabelRange.start).found?

instance (text : Text) : Decidable (Passes text) :=
  decidable_of_iff (Directive.startsSwitch text = false ∧ Directive.endsSwitch text = false ∧
      Directive.caseLabel? text = none)
    ⟨fun h => ⟨h.1, h.2.1, h.2.2⟩, fun h => ⟨h.noStart, h.noEnd, h.noCase⟩⟩

theorem found?_of_closed {p : Priming} {n : Nat} (closed : p.ending = .closed n) :
    p.found? = some p.range.settle := by
  rw [found?, closed]

theorem exists_of_found? {p : Priming} {range : LabelRange} (found : p.found? = some range) :
    (∃ n, p.ending = .closed n) ∧ p.range.settle = range := by
  obtain ⟨labels, ending⟩ := p
  cases ending with
  | closed n => exact ⟨⟨n, rfl⟩, Option.some.inj found⟩
  | refused => cases found
  | unclosed => cases found

end Priming

namespace Region

/-- The aliases behind a line. -/
def aliasesAfter (text : Text) (aliases : List Alias) : Region → List Alias
  | .outside => aliases ++ (Directive.alias? text).toList
  | _ => aliases

/-- Whether a line opens a switch where it stands. -/
def opensSwitch (text : Text) : Region → Bool
  | .body _ => Directive.startsSwitch text
  | _ => false

/-- **Whether lines prime alike** when those that are left out are empty: for every line that opens a
switch, the search for labels finds the same. -/
def primesAlike (tags : List Text) (aliases : List Alias) : Region → List Line → Bool
  | _, [] => true
  | region, line :: rest =>
    (!region.opensSwitch line.text || Priming.labels? aliases line rest =
        Priming.labels? aliases line (blank tags (region.after tags line.text) rest)) &&
      primesAlike tags (region.aliasesAfter line.text aliases) (region.after tags line.text) rest

/-- Whether no line that is left out is about a switch. -/
def hidesNoLabel (tags : List Text) : Region → List Line → Bool
  | _, [] => true
  | region, line :: rest =>
    (!region.leavesOut line.text || Priming.Passes line.text) &&
      hidesNoLabel tags (region.after tags line.text) rest

variable {tags : List Text} {region : Region} {lines : List Line} {aliases : List Alias}

/-- Lines that are not about switches are passed over, be they empty or not. -/
theorem scan_blank {depth last : Nat} {range : LabelRange}
    (hides : region.hidesNoLabel tags lines = true) :
    Priming.scan aliases (region.blank tags lines) depth last range =
      Priming.scan aliases lines depth last range := by
  induction lines generalizing region depth last range with
  | nil => rfl
  | cons line rest ih =>
    rw [hidesNoLabel, Bool.and_eq_true] at hides
    have behind (depth last : Nat) (range : LabelRange) :=
      @ih (region.after tags line.text) depth last range hides.2
    rw [blank]
    cases out : region.leavesOut line.text with
    | true =>
      have passes := hides.1
      rw [out, Bool.not_true, Bool.false_or, decide_eq_true_eq] at passes
      have empty : Priming.Passes ({ line with text := [] } : Line).text :=
        Priming.passes_of_empty rfl
      -- the empty line has kept its number
      rw [if_pos rfl, empty.scan_eq, passes.scan_eq, behind]
    | false =>
      rw [if_neg Bool.false_ne_true]
      simp only [Priming.scan, behind]

theorem primesAlike_of_hidesNoLabel (hides : region.hidesNoLabel tags lines = true) :
    region.primesAlike tags aliases lines = true := by
  induction lines generalizing region aliases with
  | nil => rfl
  | cons line rest ih =>
    rw [hidesNoLabel, Bool.and_eq_true] at hides
    rw [primesAlike, ih hides.2, Priming.labels?, Priming.labels?, scan_blank hides.2]
    simp

end Region

/-- **Whether the labels of every switch of a source** are found as in the blanked source. -/
def primesAsBlanked (tags : List Text) (source : Text) : Bool :=
  Region.outside.primesAlike tags defaultAliases (Line.ofSource source)

/-! ## Where compilers stand -/

/-- What the lines of a region belong to. -/
def Region.mode : Region → Mode
  | .outside => .outside
  | .body _ => .inside
  | .skipped _ => .skipping

/-- A compiler stands in a region of a file, with the aliases of the lines in front. -/
structure Compiler.Within (c : Compiler) (tags : List Text) (region : Region)
    (aliases : List Alias) : Prop where
  mode : c.mode = region.mode
  tags : c.tags = tags
  aliases : c.aliases = aliases

variable {c c' : Compiler} {tags : List Text} {region : Region} {aliases : List Alias} {type last : Nat}
  {line : Line} {rest lines : List Line}

/-- A line outside bodies may open one, and may give a name. -/
theorem mode_of_outside {text : Text} (h : Outside c type text c') (mode : c.mode = .outside) :
    c'.mode = (Region.outside.after tags text).mode ∧
      c'.aliases = c.aliases ++ (Directive.alias? text).toList := by
  rw [Region.after]
  cases h with
  | named read =>
    rw [read]
    exact ⟨mode, rfl⟩
  | sub noAlias read =>
    rw [noAlias, read]
    exact ⟨rfl, (List.append_nil _).symm⟩
  | declare noAlias noSub read known =>
    rw [noAlias, noSub, read]
    obtain rfl | rfl := known
    · exact ⟨mode, (List.append_nil _).symm⟩
    · exact ⟨mode, (List.append_nil _).symm⟩
  | define noAlias noSub read known =>
    rw [noAlias, noSub, read]
    obtain rfl | rfl := known
    · exact ⟨rfl, (List.append_nil _).symm⟩
    · exact ⟨rfl, (List.append_nil _).symm⟩
  | none noAlias noSub noFunction =>
    rw [noAlias, noSub, noFunction]
    exact ⟨mode, (List.append_nil _).symm⟩

/-- A line of a body may close it, or leave out what is behind it. -/
theorem mode_of_inside {text : Text} {header? : Option Nat} {isFunction : Bool}
    (h : Inside c text header? c') (mode : c.mode = .inside) :
    c'.mode = ((Region.body isFunction).after c.tags text).mode ∧ c'.aliases = c.aliases := by
  rw [Region.after]
  cases h with
  | closes bare room keyword =>
    have closes : Region.closes text = true := by
      rw [Region.closes, Bool.or_eq_true]
      exact keyword.imp And.left fun other => other.2.1
    rw [if_pos closes]
    exact ⟨rfl, rfl⟩
  | platform noKeyword read =>
    rw [noKeyword, if_neg Bool.false_ne_true, read]
    dsimp only
    split
    · exact ⟨mode, rfl⟩
    · exact ⟨rfl, rfl⟩
  | endsPlatform noKeyword noPlatform read =>
    rw [noKeyword, if_neg Bool.false_ne_true, noPlatform]
    exact ⟨mode, rfl⟩
  | other noKeyword noPlatform noEnd stated =>
    rw [noKeyword, if_neg Bool.false_ne_true, noPlatform]
    exact ⟨stated.mode_eq.trans mode, stated.agrees.aliases⟩

namespace Compiler.Within

/-- **A line** leads where its region says. -/
theorem after (h : c.Within tags region aliases)
    (compiled : compileLine type line rest c = (.ok (), c')) :
    c'.Within tags (region.after tags line.text) (region.aliasesAfter line.text aliases) := by
  obtain ⟨mode, rfl, rfl⟩ := h
  have kept : c'.tags = c.tags := by
    have configured := @configured_compileLine type line rest c
    rw [compiled] at configured
    exact configured.tags
  cases region with
  | outside =>
    rw [compileLine_of_outside mode] at compiled
    obtain ⟨mode', aliases'⟩ := mode_of_outside (outside_of_outsideLine (onLine_eq_ok compiled)) mode
    exact ⟨mode', kept, aliases'⟩
  | body isFunction =>
    rcases inside_of_compileLine mode compiled with inside | ⟨header, c₁, n, inside, -, rfl⟩
    · obtain ⟨mode', aliases'⟩ := mode_of_inside inside mode
      exact ⟨mode', kept, aliases'⟩
    · obtain ⟨mode', aliases'⟩ := mode_of_inside inside mode
      exact ⟨(mode_primed ..).trans mode', kept, (aliases_primed ..).trans aliases'⟩
  | skipped isFunction =>
    rw [compileLine_of_skipping mode] at compiled
    obtain ⟨-, rfl⟩ := Prod.mk.inj compiled
    rw [Region.after]
    split
    · exact ⟨rfl, rfl, rfl⟩
    · exact ⟨mode, rfl, rfl⟩

/-- An empty line leads no further. -/
theorem after_empty (h : c.Within tags region aliases) {text : Text} (empty : text = []) :
    c.Within tags (region.after tags text) (region.aliasesAfter text aliases) := by
  subst empty
  rw [Region.after_nil]
  cases region with
  | outside => exact ⟨h.mode, h.tags, h.aliases.trans (List.append_nil _).symm⟩
  | body => exact h
  | skipped => exact h

/-- A line that is left out leads no further. -/
theorem after_leavesOut (h : c.Within tags region aliases) {text : Text}
    (out : region.leavesOut text = true) :
    c.Within tags (region.after tags text) (region.aliasesAfter text aliases) := by
  rw [Region.after_of_leavesOut out]
  obtain ⟨isFunction, rfl, -⟩ := Region.exists_of_leavesOut out
  exact h

/-- A body is open in a region of one. -/
theorem mode_ne (h : c.Within tags region aliases) (opened : region ≠ .outside) :
    c.mode ≠ .outside := by
  rw [h.mode]
  cases region with
  | outside => exact absurd rfl opened
  | body => exact nofun
  | skipped => exact nofun

/-- Where lines of a body are compiled the region is one of a body. -/
theorem exists_of_inside (h : c.Within tags region aliases) (mode : c.mode = .inside) :
    ∃ isFunction, region = .body isFunction := by
  have same := h.mode.symm.trans mode
  cases region with
  | outside => cases same
  | body isFunction => exact ⟨isFunction, rfl⟩
  | skipped => cases same

/-- **Lines** end outside bodies. -/
theorem behind_eq (h : c.Within tags region aliases)
    (compiled : compileLines type last lines c = (.ok (), c')) :
    region.behind tags (lines.map (·.text)) = .outside := by
  induction lines generalizing c region aliases last with
  | nil =>
    obtain ⟨mode, -⟩ := eq_of_compileLines_nil compiled
    cases region with
    | outside => rfl
    | body => cases h.mode.symm.trans mode
    | skipped => cases h.mode.symm.trans mode
  | cons line rest ih =>
    by_cases empty : line.text = []
    · rw [compileLines_of_empty empty] at compiled
      exact ih (h.after_empty empty) compiled
    · obtain ⟨c₁, first, others⟩ := exists_of_compileLines empty compiled
      exact ih (h.after first) others

end Compiler.Within

/-! ## What is found ahead -/

/-- A settled range stays as it is. -/
theorem LabelRange.settle_settle (range : LabelRange) : range.settle.settle = range.settle := by
  by_cases turned : range.max < range.min
  · rw [show range.settle = ⟨0, 0⟩ from if_pos turned]
    decide
  · have same : range.settle = range := if_neg turned
    rw [same, same]

namespace Compiler

/-- The header of a switch is written anew. -/
theorem ranged_ranged (c : Compiler) (header : Nat) (range range' : LabelRange) :
    (c.ranged header range).ranged header range' = c.ranged header range' := by
  have table (jumps : Array Word) (a b a' b' : Word) :
      (((jumps.setIfInBounds header a).setIfInBounds (header + 1) b).setIfInBounds header
          a').setIfInBounds (header + 1) b' =
        (jumps.setIfInBounds header a').setIfInBounds (header + 1) b' := by
    rw [Array.setIfInBounds_comm b a' (Nat.succ_ne_self header), Array.setIfInBounds_setIfInBounds,
      Array.setIfInBounds_setIfInBounds]
  simp only [ranged, setSlot, changeJumps, table]

theorem onLine_of_ok {α : Type} {line : Nat} {step : Emit α} {a : α} (h : step c = (.ok a, c')) :
    onLine line step c = (.ok a, c') := by
  rw [onLine, h]
  rfl

/-- The slots for labels do not depend on what is in the header. -/
theorem reserveCases_ranged (c : Compiler) (header : Nat) (range : LabelRange) :
    reserveCases header range (c.ranged header range) = reserveCases header range.settle c := by
  have write (c : Compiler) (range : LabelRange) :
      setLabelRange header range c = (.ok (), c.ranged header range) := rfl
  unfold reserveCases
  dsimp only
  rw [bind_apply_of_ok (write _ _), bind_apply_of_ok (write _ _), ranged_ranged,
    LabelRange.settle_settle]

/-- **The slots for the labels of a switch** are those for what was found ahead. -/
theorem prime_of_closed {header n : Nat}
    (closed : (Priming.scan c.aliases rest 0 last LabelRange.start).ending = .closed n) :
    prime header last rest c = onLine n
      (reserveCases header (Priming.scan c.aliases rest 0 last LabelRange.start).range.settle) c := by
  rw [prime, bind_apply, get_apply]
  dsimp only
  generalize Priming.scan c.aliases rest 0 last LabelRange.start = priming at closed ⊢
  have write : onLine last (setLabelRange header priming.range) c =
      (.ok (), c.ranged header priming.range) := rfl
  rw [bind_apply_of_ok write, closed]
  dsimp only
  rw [onLine, onLine, reserveCases_ranged]

/-- **A line does the same** behind which the same labels are found. -/
theorem compileLine_of_labels {rest' : List Line}
    (compiled : compileLine type line rest c = (.ok (), c'))
    (same : c.mode = .inside → Directive.startsSwitch line.text = true →
      Priming.labels? c.aliases line rest = Priming.labels? c.aliases line rest') :
    compileLine type line rest' c = (.ok (), c') := by
  rw [compileLine, bind_apply, get_apply] at compiled ⊢
  dsimp only at compiled ⊢
  cases mode : c.mode with
  | outside =>
    rw [mode] at compiled
    exact compiled
  | skipping =>
    rw [mode] at compiled
    exact compiled
  | inside =>
    rw [mode] at compiled
    obtain ⟨header?, c₁, first, others⟩ := exists_of_bind_eq_ok compiled
    dsimp only
    rw [bind_apply_of_ok first]
    cases header? with
    | none => exact others
    | some header =>
      obtain ⟨inside, -⟩ := inside_of_insideLine (onLine_eq_ok first)
      have stated : Stated c line.text (some header) c₁ := by
        cases inside
        assumption
      have starts : Directive.startsSwitch line.text = true := by
        cases stated with
        | switch _ rewritten =>
          rw [← Rewrite.isSome_switch? line.text c.nextSlot, rewritten]
          rfl
      -- both searches come to an end, at whatever line, with the same settled range
      obtain ⟨⟨n, closed⟩, -, -⟩ := prime_eq_ok others
      have labels := same mode starts
      rw [← stated.agrees.aliases, Priming.labels?, Priming.labels?,
        Priming.found?_of_closed closed] at labels
      obtain ⟨⟨n', closed'⟩, range⟩ := Priming.exists_of_found? labels.symm
      dsimp only at others ⊢
      rw [prime_of_closed closed] at others
      rw [prime_of_closed closed', range]
      exact onLine_of_ok (onLine_eq_ok others)

end Compiler

/-- A line that is left out is passed over. -/
theorem compileLines_of_leavesOut (within : c.Within tags region aliases)
    (out : region.leavesOut line.text = true) :
    compileLines type last (line :: rest) c = compileLines type line.number rest c := by
  by_cases empty : line.text = []
  · exact compileLines_of_empty empty
  · obtain ⟨isFunction, rfl, goesOn⟩ := Region.exists_of_leavesOut out
    have passed := @compileLine_of_skipping c type line rest within.mode
    rw [goesOn, if_neg Bool.false_ne_true] at passed
    rw [compileLines, if_pos empty, bind_apply_of_ok passed]

/-- **Lines compile into what the blanked lines compile into** where the labels of all switches are
found alike. -/
theorem compileLines_of_blank (within : c.Within tags region aliases)
    (alike : region.primesAlike tags aliases lines = true)
    (compiled : compileLines type last (region.blank tags lines) c = (.ok (), c')) :
    compileLines type last lines c = (.ok (), c') := by
  -- the compiler is the same in front of each line, and so is the region where it stands
  induction lines generalizing c region aliases last with
  | nil => exact compiled
  | cons line rest ih =>
    rw [Region.primesAlike, Bool.and_eq_true, Bool.or_eq_true, decide_eq_true_eq] at alike
    obtain ⟨here, alike⟩ := alike
    rw [Region.blank] at compiled
    by_cases out : region.leavesOut line.text = true
    · rw [if_pos out, compileLines_of_empty rfl] at compiled
      rw [compileLines_of_leavesOut within out]
      exact ih (within.after_leavesOut out) alike compiled
    rw [if_neg out] at compiled
    by_cases empty : line.text = []
    · rw [compileLines_of_empty empty] at compiled ⊢
      exact ih (within.after_empty empty) alike compiled
    · obtain ⟨c₁, first, others⟩ := exists_of_compileLines empty compiled
      have first' : compileLine type line rest c = (.ok (), c₁) := by
        apply compileLine_of_labels first
        intro mode starts
        obtain ⟨isFunction, rfl⟩ := within.exists_of_inside mode
        rw [Region.opensSwitch, starts] at here
        rw [within.aliases]
        exact (here.resolve_left Bool.false_ne_true).symm
      rw [compileLines, if_pos empty, bind_apply_of_ok first']
      exact ih (within.after first) alike others

/-! ## Headers of switches -/

namespace BlockRecord

/-- A block is another one further on: its slots are the same. -/
structure Resumes (b b' : BlockRecord) : Prop where
  kind : b'.kind = b.kind
  slot : b'.slot = b.slot
  range : b'.range = b.range

theorem resumes_past (b : BlockRecord) (op : Opcode) (offset : Nat) : b.Resumes (b.past op offset) := by
  unfold past
  split <;> exact ⟨rfl, rfl, rfl⟩

end BlockRecord

/-- A label or a call keeps the slots of the block that it divides or closes. -/
theorem resumes_saying (c : Compiler) (text : Text) (b : BlockRecord) :
    b.Resumes (c.saying text b) := by
  rw [saying]
  cases Directive.caseLabel? text with
  | some label =>
    dsimp only
    cases labelValue c.aliases label with
    | ok value => exact ⟨rfl, rfl, rfl⟩
    | error reason => exact ⟨rfl, rfl, rfl⟩
  | none =>
    dsimp only
    split
    · exact ⟨rfl, rfl, rfl⟩
    · cases Opcode.lookup? (Call.split text).name with
      | some op => exact b.resumes_past op c.offset
      | none => exact ⟨rfl, rfl, rfl⟩

/-- A change of the innermost block that keeps its slots keeps those of each block. -/
theorem exists_mem_onInnermost {change : BlockRecord → BlockRecord} {bs : List BlockRecord}
    {b : BlockRecord} (keeps : ∀ b : BlockRecord, b.Resumes (change b)) (member : b ∈ bs) :
    ∃ b' ∈ onInnermost change bs, b.Resumes b' := by
  induction bs with
  | nil => cases member
  | cons first earlier ih =>
    rw [onInnermost]
    cases first.closing with
    | none =>
      rcases List.mem_cons.1 member with rfl | behind
      · exact ⟨_, List.mem_cons_self, keeps b⟩
      · exact ⟨b, List.mem_cons_of_mem _ behind, rfl, rfl, rfl⟩
    | some =>
      rcases List.mem_cons.1 member with rfl | behind
      · exact ⟨b, List.mem_cons_self, rfl, rfl, rfl⟩
      · obtain ⟨b', member', resumes⟩ := ih behind
        exact ⟨b', List.mem_cons_of_mem _ member', resumes⟩

/-- **A line keeps the slots** of the blocks that are there. -/
theorem exists_mem_record {bs : List BlockRecord} {b : BlockRecord} (member : b ∈ bs) :
    ∃ b' ∈ c.record line rest bs, b.Resumes b' := by
  have same : b.Resumes b := ⟨rfl, rfl, rfl⟩
  rw [record]
  split
  · exact ⟨b, member, same⟩
  · split
    · exact ⟨b, List.mem_cons_of_mem _ member, same⟩
    · split
      · exact ⟨b, List.mem_cons_of_mem _ member, same⟩
      · exact exists_mem_onInnermost (resumes_saying c _) member

/-- **The header of a switch** of a body that was closed holds the range of its labels. -/
theorem BodyRecord.Stands.labelRange_eq {r : BodyRecord} {is : List Instruction}
    (h : r.Stands c.program is) {b : BlockRecord} (member : b ∈ r.blocks)
    (kind : b.kind = .switchBlock) : c.labelRange (r.entry.jump + b.slot) = b.range := by
  have size : 1 < b.size := by
    rw [BlockRecord.size, kind]
    dsimp only
    omega
  have min := h.word member (Nat.zero_lt_of_lt size)
  have max := h.word member size
  rw [BlockRecord.words_switch kind] at min max
  rw [labelRange, jumpWord, jumpWord, Array.getD_eq_getD_getElem?, Array.getD_eq_getD_getElem?,
    Nat.add_assoc, max]
  rw [Nat.add_zero] at min
  rw [min]
  rfl

/-- **The header of a switch** keeps the range of its labels to the end of the file. -/
theorem Between.labelRange_eq {bs : List BlockRecord} {b : BlockRecord} (h : Between c bs)
    (within : c.Within tags region aliases) (opened : region ≠ .outside)
    (compiled : compileLines type last lines c = (.ok (), c')) (member : b ∈ bs)
    (kind : b.kind = .switchBlock) : c'.labelRange (c.body.entry.jump + b.slot) = b.range := by
  -- as long as the body is open its record has the block, though with further labels
  induction lines generalizing c bs b region aliases last with
  | nil => exact absurd (eq_of_compileLines_nil compiled).1 (within.mode_ne opened)
  | cons line rest ih =>
    by_cases empty : line.text = []
    · rw [compileLines_of_empty empty] at compiled
      exact ih h within opened compiled member kind
    obtain ⟨c₁, first, others⟩ := exists_of_compileLines empty compiled
    have step := h.advances first
    have within₁ := within.after first
    have goesOn {bs' : List BlockRecord} (step : Advances c c₁ ([], bs'))
        (opened₁ : region.after tags line.text ≠ .outside) {b' : BlockRecord} (member' : b' ∈ bs')
        (resumes : b.Resumes b') : c'.labelRange (c.body.entry.jump + b.slot) = b.range := by
      have entry : c.frontier = c₁.frontier := step.consecutive
      rw [frontier_of_open (within.mode_ne opened), frontier_of_open (within₁.mode_ne opened₁)] at entry
      rw [entry, ← resumes.slot, ← resumes.range]
      exact ih step.between within₁ opened₁ others member' (resumes.kind.trans kind)
    rw [told, within.mode] at step
    cases region with
    | outside => exact absurd rfl opened
    | skipped isFunction =>
      refine goesOn step ?_ member ⟨rfl, rfl, rfl⟩
      rw [Region.after]
      split <;> simp
    | body isFunction =>
      dsimp only [Region.mode] at step
      by_cases closes : Region.closes line.text = true
      · -- the body stands from here on, with all its words
        rw [if_pos closes] at step
        obtain ⟨-, behind⟩ := step.between.lines others
        obtain ⟨-, is, stands⟩ := (step.trans behind).stands _ (List.mem_append_left _ List.mem_cons_self)
        exact stands.labelRange_eq member kind
      · rw [if_neg closes] at step
        obtain ⟨b', member', resumes⟩ := @exists_mem_record c line rest bs b member
        refine goesOn step ?_ member' resumes
        rw [Region.after, if_neg closes]
        split
        · split <;> simp
        · simp

/-- **What is found ahead** for a switch is in its header where the file ends. -/
theorem Between.labels?_eq {bs : List BlockRecord} {c₁ : Compiler} (h : Between c bs)
    (within : c.Within tags region aliases) (mode : c.mode = .inside)
    (starts : Directive.startsSwitch line.text = true)
    (first : compileLine type line rest c = (.ok (), c₁))
    (others : compileLines type last rest c₁ = (.ok (), c')) :
    Priming.labels? c.aliases line rest = some (c'.labelRange c.program.jumpTable.size) := by
  have begun := h (by rw [mode]; decide)
  have inner := Directive.inner_of_head?
    (Text.head?_of_isPrefixOf (show "switch".toList.head? = some 's' from rfl) starts) (by decide)
  have opened : region.after tags line.text ≠ .outside := by
    obtain ⟨isFunction, rfl⟩ := within.exists_of_inside mode
    rw [Region.after, inner.stays, if_neg Bool.false_ne_true, inner.noPlatform]
    simp
  have step := h.advances first
  have within₁ := within.after first
  obtain ⟨header, c₂, n, stated, closed, rfl⟩ := exists_of_startsSwitch mode first starts
  rw [told, mode, inner.stays] at step
  dsimp only at step
  rw [if_neg Bool.false_ne_true] at step
  cases stated with
  | switch noTest rewritten =>
    rw [record_of_switch? inner.noPlatform inner.noEnd noTest rewritten] at step
    have range := step.between.labelRange_eq within₁ opened others List.mem_cons_self rfl
    have place : c.body.entry.jump + c.slotNumber = c.program.jumpTable.size :=
      Nat.add_sub_cancel' begun.jump
    rw [Priming.labels?, Priming.found?_of_closed closed, ← place]
    exact congrArg some range.symm

/-- **Only then do lines compile into what the blanked lines compile into**: where both compile and
the jump tables are the same, the labels of all switches are found alike. -/
theorem primesAlike_of_compileLines {bs : List BlockRecord} {c'' : Compiler} (h : Between c bs)
    (within : c.Within tags region aliases)
    (hidden : compileLines type last (region.blank tags lines) c = (.ok (), c'))
    (compiled : compileLines type last lines c = (.ok (), c''))
    (same : c''.program.jumpTable = c'.program.jumpTable) :
    region.primesAlike tags aliases lines = true := by
  induction lines generalizing c bs region aliases last with
  | nil => rfl
  | cons line rest ih =>
    rw [Region.primesAlike, Bool.and_eq_true, Bool.or_eq_true, decide_eq_true_eq]
    rw [Region.blank] at hidden
    by_cases out : region.leavesOut line.text = true
    · rw [if_pos out, compileLines_of_empty rfl] at hidden
      rw [compileLines_of_leavesOut within out] at compiled
      refine ⟨.inl ?_, ih h (within.after_leavesOut out) hidden compiled⟩
      obtain ⟨isFunction, rfl, -⟩ := Region.exists_of_leavesOut out
      rfl
    rw [if_neg out] at hidden
    by_cases empty : line.text = []
    · rw [compileLines_of_empty empty] at hidden compiled
      refine ⟨.inl ?_, ih h (within.after_empty empty) hidden compiled⟩
      rw [empty]
      cases region <;> rfl
    · obtain ⟨c₁, first, others⟩ := exists_of_compileLines empty hidden
      obtain ⟨c₂, first', others'⟩ := exists_of_compileLines empty compiled
      -- a difference in what is found would be left in the header of the switch
      have alike (mode : c.mode = .inside) (starts : Directive.startsSwitch line.text = true) :
          Priming.labels? c.aliases line (Region.blank tags (region.after tags line.text) rest) =
            Priming.labels? c.aliases line rest := by
        rw [h.labels?_eq within mode starts first others,
          h.labels?_eq within mode starts first' others', labelRange, labelRange, jumpWord, jumpWord,
          jumpWord, jumpWord, same]
      obtain rfl : c₁ = c₂ :=
        (Prod.mk.inj ((compileLine_of_labels first alike).symm.trans first')).2
      refine ⟨?_, ih (h.advances first').between (within.after first') others others'⟩
      cases region with
      | outside => exact .inl rfl
      | skipped => exact .inl rfl
      | body =>
        rw [Region.opensSwitch]
        cases starts : Directive.startsSwitch line.text with
        | false => exact .inl rfl
        | true =>
          have labels := alike within.mode starts
          rw [within.aliases] at labels
          exact .inr labels.symm

/-! ## Files -/

theorem within_startFile (c : Compiler) : c.startFile.Within c.tags .outside defaultAliases :=
  ⟨rfl, rfl, rfl⟩

/-- The lines of a blanked source that compiles are all there. -/
theorem ofSource_blanked_of_compileFile {path : String} {source : Text}
    (compiled : compileFile path (blanked c.tags source) type c = (.ok (), c')) :
    Line.ofSource (blanked c.tags source) = Region.outside.blank c.tags (Line.ofSource source) := by
  obtain same | ⟨lines, isFunction, same, left⟩ := ofSource_blanked c.tags source
  · exact same
  · -- a file cannot end in a block that is left out
    have behind := (within_startFile c).behind_eq (compileFile_eq_ok_iff.1 compiled).2
    rw [same, Region.behind_blank, left] at behind
    cases behind

/-- A source compiles into what the blanked source compiles into where all labels are found alike. -/
theorem compileFile_of_primesAsBlanked {path : String} {source : Text}
    (compiled : compileFile path (blanked c.tags source) type c = (.ok (), c'))
    (alike : primesAsBlanked c.tags source = true) : compileFile path source type c = (.ok (), c') := by
  have lines := ofSource_blanked_of_compileFile compiled
  obtain ⟨room, hidden⟩ := compileFile_eq_ok_iff.1 compiled
  rw [lines] at hidden
  exact compileFile_eq_ok_iff.2 ⟨room, compileLines_of_blank (within_startFile c) alike hidden⟩

/-- **Blocks without lines about switches** add nothing when they are left out. -/
theorem compileFile_of_hidesNoLabel {path : String} {source : Text}
    (compiled : compileFile path (blanked c.tags source) type c = (.ok (), c'))
    (hides : Region.outside.hidesNoLabel c.tags (Line.ofSource source) = true) :
    compileFile path source type c = (.ok (), c') :=
  compileFile_of_primesAsBlanked compiled (Region.primesAlike_of_hidesNoLabel hides)

/-- **Platform blocks that are left out add nothing**: a source compiles into what the blanked source
compiles into where the labels of every switch, which are looked up ahead, are found as in the blanked
source. It is only then that the jump tables are the same. -/
theorem compileFile_of_blanked {path : String} {source : Text} {type : Nat} {c c' : Compiler}
    (compiled : compileFile path (blanked c.tags source) type c = (.ok (), c')) :
    (primesAsBlanked c.tags source = true → compileFile path source type c = (.ok (), c')) ∧
      ∀ c'', compileFile path source type c = (.ok (), c'') →
        c''.program.jumpTable = c'.program.jumpTable → primesAsBlanked c.tags source = true := by
  refine ⟨compileFile_of_primesAsBlanked compiled, fun c'' whole same => ?_⟩
  have lines := ofSource_blanked_of_compileFile compiled
  obtain ⟨-, hidden⟩ := compileFile_eq_ok_iff.1 compiled
  obtain ⟨-, whole⟩ := compileFile_eq_ok_iff.1 whole
  rw [lines] at hidden
  exact primesAlike_of_compileLines (between_startFile c) (within_startFile c) hidden whole same

/-- A script with a block that is left out in a switch. The label in the block is between the others. -/
def guarded : Text :=
  ("subObjectMain\nswitchTempValue0\ncase1:\n#platform:Mobile\ncase2:\nBogus\n#endplatform\n" ++
    "TempValue1=4\nbreak\ncase3:\nendswitch\nendsub").toList

theorem compileFile_of_blanked_guarded :
    ∃ c', compileFile "" (blanked freshCompiler.tags guarded) 1 freshCompiler = (.ok (), c') ∧
      compileFile "" guarded 1 freshCompiler = (.ok (), c') := by
  have compiled := Except.eq_of_toOption
    (show (compileFile "" (blanked freshCompiler.tags guarded) 1 freshCompiler).1.toOption = some ()
      by decide +kernel)
  obtain ⟨same, -⟩ := compileFile_of_blanked compiled
  have alike : primesAsBlanked freshCompiler.tags guarded = true := by decide +kernel
  exact ⟨_, compiled, same alike⟩

/-- A script with a block that is left out and holds the closing keyword of a switch. -/
def closedWhereLeftOut : Text :=
  ("subObjectMain\nswitchTempValue0\ncase1:\n#platform:Mobile\nendswitch\n#endplatform\n" ++
    "case5:\nendswitch\nendsub").toList

/-- **A block that is left out** may keep the search for labels from reading to the end of its
switch. -/
theorem not_all_left_out :
    ¬ ∀ (path : String) (source : Text) (type : Nat) (c c' : Compiler),
      compileFile path (blanked c.tags source) type c = (.ok (), c') →
        ∃ c'', compileFile path source type c = (.ok (), c'') ∧
          c''.program.code = c'.program.code ∧ c''.program.jumpTable = c'.program.jumpTable ∧
            c''.program.entries = c'.program.entries := by
  intro all
  have compiled := Except.eq_of_toOption
    (show (compileFile "" (blanked freshCompiler.tags closedWhereLeftOut) 1
      freshCompiler).1.toOption = some () by decide +kernel)
  have refused : Except.refusal? (compileFile "" closedWhereLeftOut 1 freshCompiler).1 =
      some ⟨"", 7, .caseOutOfRange 5 1 1⟩ := by decide +kernel
  obtain ⟨c'', whole, -⟩ := all _ _ _ _ _ compiled
  rw [whole] at refused
  cases refused

end StageScript
