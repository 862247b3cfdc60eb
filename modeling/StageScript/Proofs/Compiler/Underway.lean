import Mathlib.Data.List.Basic
import StageScript.Proofs.Compiler.Binding
import StageScript.Proofs.Compiler.Closure
import StageScript.Proofs.Source.Stripping

/-! # Texts of one line
The lines of a source have neither newlines nor carriage returns left in them, and whatever is taken from
them has none either.
* `Text.IsInline` — a text without them;
* **`Call.base_subset`**, **`Rewrite.assignment?_subset`** — the readers of lines make nothing up;
* `Compiler.Underway` — a compiler that is within a file, and **`Compiler.Underway.orderly`** what is
  known of it;
* **`Compiler.Orderly.isInline_of_meaning?`** — so the texts of a program stay on their lines. -/

namespace StageScript

open Stepwise

/-- Numerals stay on their lines. -/
theorem Text.IsInline.ofNat (n : Nat) : (Numeral.ofNat n).IsInline :=
  of_forall fun _ member =>
    (Numeral.isDigit_of_mem_ofNat member).of_forall (P := fun c => c ≠ '\r' ∧ c ≠ '\n') (by decide)

/-! ## What is read from a line -/

/-- What may be taken over from a character in front of a text. -/
theorem Text.append_subset_append_cons {kept kept' rest : Text} {c : Char} (step : kept' ⊆ c :: kept) :
    kept' ++ rest ⊆ kept ++ c :: rest := by
  intro d member
  rcases List.mem_append.1 member with early | late
  · rcases List.mem_cons.1 (step early) with rfl | old
    · simp
    · exact List.mem_append_left _ old
  · simp [late]

/-- The value of an alias stands in its line. -/
theorem Directive.value_subset {text : Text} {a : Alias} (read : alias? text = some a) :
    a.value ⊆ text := by
  obtain ⟨rest, behind, read⟩ := Option.bind_eq_some_iff.1 read
  have shape : "#alias".toList ++ rest = text := List.append_eq_of_isPrefixOf?_eq_some behind
  dsimp only at read
  split at read
  · next value split_ =>
    split at read
    · cases read
    · obtain rfl := Option.some.inj read
      have inRest : value ⊆ rest := by
        intro c member
        have behind : c ∈ rest.dropWhile (· ≠ ':') := split_ ▸ List.mem_cons_of_mem _ member
        exact (List.dropWhile_sublist _).subset behind
      exact shape ▸ List.subset_append_of_subset_right _ inRest
  · cases read

/-- A character goes to the name or to the index. -/
theorem Operand.Draft.base_push_subset (d : Draft) (c : Char) : (d.push c).base ⊆ c :: d.base := by
  unfold push
  split
  · exact List.subset_cons_self ..
  · exact List.Subset.refl _

/-- The name of an operand that stands alone is taken from its text. -/
theorem Operand.split_base_subset (text : Text) : (split text).base ⊆ text := by
  suffices kept : ∀ d : Draft, (text.foldl splitStep d).base ⊆ d.base ++ text by
    intro c member
    exact kept {} (List.mem_reverse.1 member)
  induction text with
  | nil => exact fun d => List.subset_append_left ..
  | cons c text ih =>
    intro d
    have step : (splitStep d c).base ⊆ c :: d.base := by
      unfold splitStep
      repeat' split
      · exact List.subset_cons_self ..
      · exact List.subset_cons_self ..
      · exact d.base_push_subset c
    exact List.Subset.trans (ih _) (Text.append_subset_append_cons step)

namespace Call

/-- One character closes the list, or goes to the name or the index of an operand, or ends it. -/
theorem readOperands_cons (c : Char) (rest : Text) (quoted : Bool) (draft : Operand.Draft)
    (done : List Operand) :
    readOperands (c :: rest) quoted draft done = closeOperands done draft.finish ∨
      ∃ (quoted' : Bool) (draft' : Operand.Draft) (done' : List Operand),
        readOperands (c :: rest) quoted draft done = readOperands rest quoted' draft' done' ∧
          (done' = done ∧ draft'.base ⊆ c :: draft.base ∨
            done' = draft.finish :: done ∧ draft'.base = []) := by
  have same : draft.base ⊆ c :: draft.base := List.subset_cons_self ..
  cases quoted with
  | true => exact .inr ⟨_, draft.pushBase c, done, rfl, .inl ⟨rfl, List.Subset.refl _⟩⟩
  | false =>
    rw [readOperands]
    split
    · exact .inr ⟨true, draft.pushBase c, done, rfl, .inl ⟨rfl, List.Subset.refl _⟩⟩
    · split
      · exact .inr ⟨false, {}, _, rfl, .inr ⟨rfl, rfl⟩⟩
      · split
        · exact .inl rfl
        · split
          · exact .inr ⟨false, draft.openIndex, done, rfl, .inl ⟨rfl, same⟩⟩
          · split
            · exact .inr ⟨false, draft.closeIndex, done, rfl, .inl ⟨rfl, same⟩⟩
            · exact .inr ⟨false, draft.push c, done, rfl, .inl ⟨rfl, draft.base_push_subset c⟩⟩

/-- An operand that is complete, or the last one. -/
theorem mem_closeOperands {done : List Operand} {last o : Operand} (member : o ∈ closeOperands done last) :
    o ∈ done ∨ o = last := by
  unfold closeOperands at member
  split at member
  · cases member
  · exact (List.mem_cons.1 (List.mem_reverse.1 member)).symm

/-- The names of the operands of a list are taken from its text, but for those that are complete. -/
theorem mem_readOperands {text : Text} {quoted : Bool} {draft : Operand.Draft} {done : List Operand}
    {o : Operand} (member : o ∈ readOperands text quoted draft done) :
    o ∈ done ∨ o.base ⊆ draft.base ++ text := by
  have finish (d : Operand.Draft) (rest : Text) : d.finish.base ⊆ d.base ++ rest :=
    fun c inName => List.mem_append_left _ (List.mem_reverse.1 inName)
  have closed {d : Operand.Draft} {done : List Operand} (rest : Text)
      (last : o ∈ closeOperands done d.finish) : o ∈ done ∨ o.base ⊆ d.base ++ rest := by
    rcases mem_closeOperands last with complete | rfl
    · exact .inl complete
    · exact .inr (finish d rest)
  -- What is read so far stays, and the base that is being read takes no other characters than those
  -- read.
  induction text generalizing quoted draft done with
  | nil => exact closed [] (by cases quoted <;> exact member)
  | cons c rest ih =>
    rcases readOperands_cons c rest quoted draft done with
      closes | ⟨quoted', draft', done', goesOn, ⟨rfl, step⟩ | ⟨rfl, empty⟩⟩
    · exact closed (c :: rest) (closes ▸ member)
    · refine (ih (goesOn ▸ member)).imp_right fun within => ?_
      exact List.Subset.trans within (Text.append_subset_append_cons step)
    · rcases ih (goesOn ▸ member) with complete | within
      · rcases List.mem_cons.1 complete with rfl | earlier
        · exact .inr (finish draft _)
        · exact .inl earlier
      · right
        rw [empty] at within
        exact List.Subset.trans within (Text.append_subset_append_cons (List.nil_subset _))

/-- **The names of the operands of a call** are taken from its text. -/
theorem base_subset {text : Text} {o : Operand} (member : o ∈ (split text).operands) : o.base ⊆ text := by
  have behind : text.dropWhile (· ≠ '(') ⊆ text := (List.dropWhile_sublist _).subset
  unfold split at member
  dsimp only at member
  split at member
  · cases member
  · next rest shape =>
    rw [shape] at behind
    have within := (mem_readOperands member).resolve_left List.not_mem_nil
    exact List.Subset.trans within (List.Subset.trans (List.subset_cons_self ..) behind)

end Call

/-- **The call form of an assignment** has nothing of its own but the name and the marks of a call. -/
theorem Rewrite.isInline_assignment? {text assigned : Text} (inline : text.IsInline)
    (rewritten : assignment? text = some assigned) : assigned.IsInline := by
  obtain ⟨found, find, rfl⟩ := Option.map_eq_some_iff.1 rewritten
  obtain ⟨entry, member, occurs⟩ := Operator.exists_of_find? find
  obtain ⟨meaning, shape⟩ := Operator.eq_of_occurrence? occurs
  have name : ∀ entry ∈ Operator.assignments, Text.IsInline entry.2.name.toList := by decide
  have sides : found.before ⊆ text ∧ found.after ⊆ text := by
    constructor <;> (intro c member; rw [shape]; simp [member])
  have before := inline.of_subset sides.1
  have after := inline.of_subset sides.2
  have operands : Text.IsInline
      (if found.meaning.arity > 1 then found.before ++ ',' :: found.after else found.before) := by
    split
    · exact before.append ((show Text.IsInline [','] by decide).append after)
    · exact before
  have opened : Text.IsInline (found.meaning.name.toList ++ ['(']) :=
    (meaning ▸ name entry member).append (by decide)
  have whole := (opened.append operands).append (show Text.IsInline [')'] by decide)
  simpa using whole

/-! ## What names stand for -/

/-- The content of a quoted text is taken from it. -/
theorem Operand.quoted?_subset {base content : Text} (read : quoted? base = some content) :
    content ⊆ base := by
  unfold quoted? at read
  split at read
  · next rest =>
    obtain rfl := Option.some.inj read
    refine List.Subset.trans ?_ (List.subset_cons_self ..)
    split
    · exact (List.dropLast_sublist _).subset
    · exact List.Subset.refl _
  · cases read

namespace Compiler

variable {c c' : Compiler} {line : Line} {rest : List Line} {type : Nat}

/-- **What is known of a compiler within a file**: its program fits, and its aliases stay on their
lines. -/
structure Orderly (c : Compiler) : Prop where
  fits : c.Fits
  aliases : ∀ a ∈ c.aliases, a.value.IsInline

/-- Aliases of one line put texts of one line in the place of others. -/
theorem isInline_foldl_applyTo {aliases : List Alias} {o : Operand}
    (values : ∀ a ∈ aliases, a.value.IsInline) (inline : o.base.IsInline) :
    (aliases.foldl (fun o a => a.applyTo o) o).base.IsInline := by
  induction aliases generalizing o with
  | nil => exact inline
  | cons a aliases ih =>
    obtain ⟨first, others⟩ := List.forall_mem_cons.1 values
    refine ih others ?_
    show (a.applyTo o).base.IsInline
    rw [Alias.applyTo]
    split
    · exact first.of_subset (Operand.split_base_subset a.value)
    · exact inline

/-- **What an operand of one line stands for** stays on one. -/
theorem Orderly.isInline_substitute (h : c.Orderly) {o : Operand} (inline : o.base.IsInline) :
    (c.substitute o).base.IsInline := by
  have global (o : Operand) (inline : o.base.IsInline) :
      (substituteGlobal c.globals o).base.IsInline := by
    have named : Text.IsInline "Global".toList := by decide
    rw [substituteGlobal]
    split
    · exact named
    · exact inline
  have function (o : Operand) (inline : o.base.IsInline) :
      (substituteFunction c.program o).base.IsInline := by
    rw [substituteFunction]
    split
    · exact .ofNat _
    · exact inline
  have numbered (o : Operand) (inline : o.base.IsInline) :
      (substituteType c.program o).base.IsInline := by
    rw [substituteType]
    split
    · exact .ofNat _
    · exact inline
  exact numbered _ (function _ (global _ (isInline_foldl_applyTo h.aliases inline)))

/-- **The texts of a program** stay on their lines. -/
theorem Orderly.isInline_of_meaning? (h : c.Orderly) {o : Operand} {content : Text}
    (inline : o.base.IsInline) (meant : c.meaning? o = some (.text content)) : content.IsInline := by
  rw [meaning?, Operand.argument?] at meant
  split at meant
  · cases meant
  · split at meant
    · next read =>
      obtain ⟨⟩ := Argument.text.inj (Option.some.inj meant)
      exact (h.isInline_substitute inline).of_subset (Operand.quoted?_subset read)
    · obtain ⟨_, _, element⟩ := Option.bind_eq_some_iff.1 meant
      obtain ⟨_, _, other⟩ := Option.map_eq_some_iff.1 element
      cases other

/-! ## Lines of a file -/

/-- What a line did that compiled. -/
inductive Compiled (c : Compiler) (type : Nat) (text : Text) : Compiler → Prop
  | outside {behind : Compiler} (mode : c.mode = .outside) (did : Outside c type text behind) :
    Compiled c type text behind
  /-- It was left out. -/
  | skipped (mode : c.mode = .skipping) (next : Mode) : Compiled c type text (c.withMode next)
  | inside {behind : Compiler} (mode : c.mode = .inside) (did : Inside c text none behind)
    (fits : c.Fits → behind.Fits) : Compiled c type text behind
  /-- It opened a switch, and the lines behind it were searched for labels. -/
  | primed {behind : Compiler} {header : Nat} (range : LabelRange) (mode : c.mode = .inside)
    (did : Inside c text (some header) behind)
    (fits : c.Fits → (behind.primed header range).Fits) :
    Compiled c type text (behind.primed header range)

theorem compiled_of_compileLine (h : compileLine type line rest c = (.ok (), c')) :
    Compiled c type line.text c' := by
  cases lined_of_compileLine h with
  | outside mode did => exact .outside mode did
  | skipped mode =>
    split
    · exact .skipped mode .inside
    · have skipped := @Compiled.skipped c type line.text mode c.mode
      exact skipped
  | inside mode did fits => exact .inside mode did fits
  | primed mode did _ fits => exact .primed _ mode did fits

/-- A line of a body makes no name known. -/
theorem aliases_of_inside {text : Text} {header? : Option Nat} (h : Inside c text header? c') :
    c'.aliases = c.aliases := by
  cases h with
  | closes => rfl
  | platform => split <;> rfl
  | endsPlatform => rfl
  | other _ _ _ stated => exact stated.agrees.aliases

/-- **A line of a file** keeps a compiler orderly. -/
theorem Orderly.compiled (h : c.Orderly) {text : Text} (inline : text.IsInline)
    (compiled : Compiled c type text c') : c'.Orderly := by
  cases compiled with
  | outside mode did =>
    obtain ⟨code, jumps, -⟩ := effect_of_outside did
    refine ⟨⟨code ▸ h.fits.code, jumps ▸ h.fits.jumps⟩, ?_⟩
    cases did with
    | @named a read =>
      intro b member
      rcases List.mem_append.1 member with old | new
      · exact h.aliases b old
      · obtain rfl := List.mem_singleton.1 new
        exact inline.of_subset (Directive.value_subset read)
    | sub => exact h.aliases
    | declare _ _ _ known => rcases known with rfl | rfl <;> exact h.aliases
    | define _ _ _ known => rcases known with rfl | rfl <;> exact h.aliases
    | none => exact h.aliases
  | skipped => exact ⟨⟨h.fits.code, h.fits.jumps⟩, h.aliases⟩
  | inside mode did fits => exact ⟨fits h.fits, aliases_of_inside did ▸ h.aliases⟩
  | primed range mode did fits =>
    refine ⟨fits h.fits, ?_⟩
    rw [aliases_primed, aliases_of_inside did]
    exact h.aliases

/-- **A compiler within a file**, behind some of its lines. -/
inductive Underway : Compiler → Prop
  | start {c : Compiler} (fits : c.Fits) : Underway c.startFile
  | line {c c' : Compiler} {type number : Nat} {piece : Text} {rest : List Line}
    (underway : Underway c) (single : '\n' ∉ piece)
    (compiled : compileLine type ⟨number, Line.strip piece⟩ rest c = (.ok (), c')) : Underway c'

/-- **A compiler within a file is orderly**: no line takes that away. -/
theorem Underway.orderly (h : c.Underway) : c.Orderly := by
  induction h with
  | start fits =>
    have values : ∀ a ∈ defaultAliases, a.value.IsInline := by decide
    exact ⟨⟨fits.code, fits.jumps⟩, values⟩
  | line _ single compiled ih =>
    exact ih.compiled (Line.isInline_strip single) (compiled_of_compileLine compiled)

end Compiler

end StageScript
