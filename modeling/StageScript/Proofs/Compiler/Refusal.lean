import StageScript.Proofs.Compiler.Line
import StageScript.Proofs.Source.Discipline

/-! # Reasons for which a line does not compile
Only the line that closes a body looks for slots without a target, and only a `case` can fall outside
the range of its switch.
* `Spares` says that a step does not fail for a reason of some kind;
* **`Compiler.spares_statement`**, **`Compiler.spares_outsideLine`** — all other lines fail for other
  reasons than these two. -/

namespace StageScript

/-! ## Steps that spare a reason -/

/-- A step does not fail for the reasons that are meant. -/
structure Spares {ε σ α : Type} (meant : ε → Bool) (x : ExceptT ε (StateM σ) α) : Prop where
  spared : ∀ {s e s'}, x s = (.error e, s') → meant e = false

namespace Spares

open Stepwise

variable {ε σ α β : Type} {meant : ε → Bool}

theorem pure (a : α) : Spares meant (pure a : ExceptT ε (StateM σ) α) := ⟨nofun⟩

theorem throw {e : ε} (h : meant e = false) :
    Spares meant (throw e : ExceptT ε (StateM σ) α) := by
  constructor
  intro s e s' failed
  cases failed
  exact h

theorem bind {x : ExceptT ε (StateM σ) α} {f : α → ExceptT ε (StateM σ) β} (h : Spares meant x)
    (h' : ∀ a, Spares meant (f a)) : Spares meant (x >>= f) := by
  constructor
  intro s e s' failed
  rw [bind_apply] at failed
  rcases first : x s with ⟨e' | a, s₁⟩
  · rw [first] at failed
    obtain ⟨same, -⟩ := Prod.mk.inj failed
    obtain rfl := Except.error.inj same
    exact h.spared first
  · rw [first] at failed
    exact (h' a).spared failed

theorem map (f : α → β) {x : ExceptT ε (StateM σ) α} (h : Spares meant x) :
    Spares meant (f <$> x) := by
  rw [map_eq_pure_bind]
  exact h.bind fun _ => pure _

theorem get : Spares meant (get : ExceptT ε (StateM σ) σ) := ⟨nofun⟩

theorem modify (f : σ → σ) : Spares meant (modify f : ExceptT ε (StateM σ) PUnit) :=
  ⟨nofun⟩

theorem modifyGet (f : σ → α × σ) : Spares meant (modifyGet f : ExceptT ε (StateM σ) α) :=
  ⟨nofun⟩

theorem mk_pure {x : Except ε α} (h : ∀ e, x = .error e → meant e = false) :
    Spares meant (ExceptT.mk (Pure.pure x) : ExceptT ε (StateM σ) α) :=
  ⟨fun failed => h _ (Prod.mk.inj failed).1⟩

theorem forM {f : α → ExceptT ε (StateM σ) PUnit} (h : ∀ a, Spares meant (f a)) (as : List α) :
    Spares meant (as.forM f) := by
  induction as with
  | nil => exact pure _
  | cons a as ih => exact (h a).bind fun _ => ih

theorem ite {c : Prop} [Decidable c] {x y : ExceptT ε (StateM σ) α} (h : Spares meant x)
    (h' : Spares meant y) : Spares meant (if c then x else y) := by
  split
  · exact h
  · exact h'

/-- Sparing some reasons is sparing those of them that are meant. -/
theorem mono {meant' : ε → Bool} {x : ExceptT ε (StateM σ) α} (h : Spares meant x)
    (fewer : ∀ e, meant e = false → meant' e = false) : Spares meant' x :=
  ⟨fun failed => fewer _ (h.spared failed)⟩

end Spares

/-- The reason is a slot without a target. -/
def CompileReason.isUnresolved : CompileReason → Bool
  | .unresolvedSlot _ => true
  | _ => false

/-- The reason is a `case` that falls outside the range of its switch. -/
def CompileReason.isOutside : CompileReason → Bool
  | .caseOutOfRange _ _ _ => true
  | _ => false

/-- The reason is about slots that have been laid out before. -/
def CompileReason.isLayout (reason : CompileReason) : Bool := reason.isUnresolved || reason.isOutside

theorem CompileReason.isUnresolved_of_isLayout {reason : CompileReason}
    (h : reason.isLayout = false) : reason.isUnresolved = false := (Bool.or_eq_false_iff.1 h).1

theorem CompileReason.isOutside_of_isLayout {reason : CompileReason}
    (h : reason.isLayout = false) : reason.isOutside = false := (Bool.or_eq_false_iff.1 h).2

/-! ## Steps of compilation -/

namespace Compiler

open Stepwise

/-- A step that does not fail for what has been laid out before. -/
abbrev Ordinary {α : Type} (step : Emit α) : Prop := Spares CompileReason.isLayout step

theorem spares_edit {α : Type} (change : Program.Edit α) : Ordinary (edit change) := by
  constructor
  intro c e c' failed
  rw [edit] at failed
  obtain ⟨same, -⟩ := Prod.mk.inj failed
  cases answer : (change c.program).1 with
  | ok a =>
    rw [answer] at same
    cases same
  | error reason =>
    rw [answer] at same
    obtain rfl := Except.error.inj same
    rfl

theorem spares_discard {α : Type} {step : Emit α} (h : Ordinary step) : Ordinary (discard step) :=
  h.map _

theorem spares_emit (words : List Word) : Ordinary (emit words) :=
  .forM (fun w => spares_discard (spares_edit (Program.pushCode w))) words

theorem spares_reserve (words : List Word) : Ordinary (reserve words) :=
  .forM (fun w => spares_discard (spares_edit (Program.pushJump w))) words

theorem spares_openBlock (kind : BlockKind) (words : List Word) : Ordinary (openBlock kind words) :=
  Spares.get.bind fun _ => (spares_reserve words).bind fun _ => .modify _

theorem spares_innermost (kind : BlockKind) (keyword : String) :
    Ordinary (innermost kind keyword) := by
  refine Spares.get.bind fun c => ?_
  split
  · exact .ite (.pure _) (.throw rfl)
  · exact .throw rfl

/-! ## Operands and calls -/

theorem isLayout_addressEmission {index : Option Text} {reason : CompileReason}
    (h : (Operand.addressEmission index).refusal = some reason) : reason.isLayout = false := by
  unfold Operand.addressEmission at h
  split at h
  · cases h
  · dsimp only at h
    split at h
    · cases h
    · obtain rfl := Option.some.inj h
      rfl

/-- Operands are refused for their names and indices. -/
theorem isLayout_emission {o : Operand} {reason : CompileReason}
    (h : o.emission.refusal = some reason) : reason.isLayout = false := by
  unfold Operand.emission at h
  split at h
  · cases h
  · split at h
    · cases h
    · unfold Operand.variableEmission at h
      dsimp only at h
      split at h
      · next refusal =>
        obtain rfl := Option.some.inj h
        exact isLayout_addressEmission refusal
      · cases h
      · obtain rfl := Option.some.inj h
        rfl

theorem spares_emitOperand (o : Operand) : Ordinary (emitOperand o) := by
  refine Spares.get.bind fun c => (spares_emit _).bind fun _ => ?_
  split
  · next reason refusal => exact .throw (isLayout_emission refusal)
  · exact .pure _

theorem spares_setJump (slot : Nat) (w : Word) : Ordinary (setJump slot w) := .modify _

theorem spares_fillCases (header : Nat) (target : Word) : Ordinary (fillCases header target) :=
  Spares.get.bind fun _ => .modify _

theorem spares_bindBlock (op : Opcode) (block : Block) (target : Word) :
    Ordinary (bindBlock op block target) := by
  unfold bindBlock
  split
  · exact spares_setJump ..
  · refine (spares_setJump ..).bind fun _ => Spares.get.bind fun c => ?_
    split
    · exact (spares_setJump ..).bind fun _ => .modify _
    · exact .modify _
  · refine (spares_setJump ..).bind fun _ => Spares.get.bind fun c => ?_
    split
    · exact (spares_setJump ..).bind fun _ => (spares_fillCases ..).bind fun _ => .modify _
    · exact .modify _
  · exact (spares_setJump ..).bind fun _ => .modify _
  · exact .pure _

theorem spares_emitCall (text : Text) : Ordinary (emitCall text) := by
  have operands (operands : List Operand) : Ordinary (operands.forM emitOperand) :=
    .forM spares_emitOperand operands
  unfold emitCall
  dsimp only
  split
  · exact .throw rfl
  · split
    · exact .throw rfl
    · split
      · refine ((spares_innermost ..).map _).bind fun block? => (spares_emit _).bind fun _ => ?_
        split
        · exact Spares.get.bind fun c => (spares_bindBlock ..).bind fun _ => operands _
        · exact operands _
      · refine (Spares.pure _).bind fun block? => (spares_emit _).bind fun _ => ?_
        split
        · exact Spares.get.bind fun c => (spares_bindBlock ..).bind fun _ => operands _
        · exact operands _

/-! ## Lines -/

theorem isLayout_labelValue {aliases : List Alias} {label : Text} {reason : CompileReason}
    (h : labelValue aliases label = .error reason) : reason.isLayout = false := by
  unfold labelValue at h
  dsimp only at h
  split at h
  · cases h
  · obtain rfl := Except.error.inj h
    rfl

/-- A `case` may fall outside the range of its switch, but has nothing to do with other slots. -/
theorem spares_bindCase (label : Text) : Spares CompileReason.isUnresolved (bindCase label) := by
  have fewer {α : Type} {step : Emit α} (h : Ordinary step) :
      Spares CompileReason.isUnresolved step := h.mono fun _ => CompileReason.isUnresolved_of_isLayout
  refine (fewer (spares_innermost ..)).bind fun block => Spares.get.bind fun c => ?_
  exact (fewer (Spares.mk_pure fun _ => isLayout_labelValue)).bind fun value =>
    .ite (.modify _) (.throw rfl)

theorem spares_bindDefault : Ordinary bindDefault :=
  (spares_innermost ..).bind fun _ => Spares.get.bind fun _ =>
    (spares_setJump ..).bind fun _ => spares_fillCases ..

theorem spares_openCondition (keyword : ConditionKeyword) : Ordinary (openCondition keyword) := by
  cases keyword with
  | ifLine => exact spares_openBlock ..
  | whileLine => exact Spares.get.bind fun _ => spares_openBlock ..

theorem spares_openSwitch : Ordinary openSwitch :=
  Spares.get.bind fun _ => (spares_openBlock ..).bind fun _ => (Spares.modify _).bind fun _ => .pure _

/-- A line that begins otherwise is no `case`, even where it is brought into call form. -/
theorem caseLabel?_getD_assignment? {text : Text} (h : text.head? ≠ some 'c') :
    Directive.caseLabel? ((Rewrite.assignment? text).getD text) = none := by
  cases assigned : Rewrite.assignment? text with
  | none => exact Directive.caseLabel?_of_head? h
  | some line => exact Directive.caseLabel?_of_head? (head?_of_assignment? assigned).1

section

variable {meant : CompileReason → Bool} {text : Text}
  (fewer : ∀ reason, CompileReason.isLayout reason = false → meant reason = false)
include fewer

/-- A label or a call. -/
theorem spares_emitLine
    (label : ∀ l, Directive.caseLabel? text = some l → Spares meant (bindCase l)) :
    Spares meant (emitLine text) := by
  unfold emitLine
  split
  · next l read => exact label l read
  · exact .ite (spares_bindDefault.mono fewer) ((spares_emitCall text).mono fewer)

/-- What a line does behind the condition that it may have. -/
theorem spares_unconditional (label : ∀ l,
      Directive.caseLabel? ((Rewrite.assignment? text).getD text) = some l →
        Spares meant (bindCase l)) :
    Spares meant (do
      let (text, header?) ← match Rewrite.switch? text (← get).nextSlot with
        | some opened =>
          let header ← openSwitch
          pure (opened, some header)
        | none => pure (text, none)
      emitLine ((Rewrite.assignment? text).getD text)
      return header? : Emit (Option Nat)) := by
  refine Spares.get.bind fun c => ?_
  split
  · next opened rewritten =>
    refine (spares_openSwitch.mono fewer).bind fun header =>
      (spares_emitLine fewer fun l read => ?_).bind fun _ => .pure _
    obtain ⟨rest, rfl, -⟩ := Rewrite.exists_of_switch? rewritten
    have begins : (Rewrite.slotCall "switch" c.nextSlot ++ rest).head? = some 's' :=
      head?_slotCall (by decide) ..
    rw [caseLabel?_getD_assignment? (by rw [begins]; decide)] at read
    cases read
  · exact (spares_emitLine fewer label).bind fun _ => .pure _

/-- **A line of a body** that neither closes it nor is about a platform fails for what has been laid
out before only if it is a `case`. -/
theorem spares_statement (label : ∀ l,
      Directive.caseLabel? ((Rewrite.assignment? text).getD text) = some l →
        Spares meant (bindCase l)) : Spares meant (statement text) := by
  unfold statement
  refine Spares.get.bind fun c => ?_
  split
  · next condition rewritten =>
    refine ((spares_openCondition _).mono fewer).bind fun _ =>
      spares_unconditional fewer fun l read => ?_
    -- the name of a test does not begin like a `case`
    obtain ⟨comparison, rest, shape, -⟩ := Rewrite.exists_of_condition? rewritten
    obtain ⟨letters, others⟩ := exists_of_head?_name condition.keyword comparison
    have begins : condition.text.head? ≠ some 'c' := by
      rw [shape, head?_slotCall letters]
      exact others 'c' (by decide)
    rw [caseLabel?_getD_assignment? begins] at read
    cases read
  · exact spares_unconditional fewer label

end

/-- **A line outside bodies**. -/
theorem spares_outsideLine (type : Nat) (text : Text) : Ordinary (outsideLine type text) := by
  unfold outsideLine
  split
  · exact .modify _
  · split
    · exact (Spares.modifyGet _).bind fun _ => .modify _
    · split
      · exact spares_discard (spares_edit _)
      · exact (spares_edit _).bind fun _ => (Spares.modifyGet _).bind fun _ => .modify _
      · exact .pure _

/-- The line that closes a body does not look at a `case`. -/
theorem spares_closeBody (op : Opcode) : Spares CompileReason.isOutside (closeBody op) := by
  have fewer {α : Type} {step : Emit α} (h : Ordinary step) :
      Spares CompileReason.isOutside step := h.mono fun _ => CompileReason.isOutside_of_isLayout
  refine Spares.get.bind fun c => ?_
  split
  · exact .throw rfl
  · refine (fewer (spares_emit _)).bind fun _ => Spares.get.bind fun c' => ?_
    split
    · exact .throw rfl
    · exact .modify _

/-- **A line of a body** fails for what has been laid out before only if it closes the body or is a
`case`. -/
theorem spares_insideLine {meant : CompileReason → Bool} {text : Text}
    (fewer : ∀ reason, CompileReason.isLayout reason = false → meant reason = false)
    (closing : Region.closes text = true → ∀ op, Spares meant (closeBody op))
    (label : ∀ l, Directive.caseLabel? ((Rewrite.assignment? text).getD text) = some l →
      Spares meant (bindCase l)) : Spares meant (insideLine text) := by
  unfold insideLine
  by_cases endsub : Text.sameName text "endsub".toList = true
  · rw [if_pos endsub]
    exact (closing (by rw [Region.closes, endsub]; rfl) _).bind fun _ => .pure _
  · rw [if_neg endsub]
    by_cases endfunction : Text.sameName text "endfunction".toList = true
    · rw [if_pos endfunction]
      exact (closing (by rw [Region.closes, endfunction, Bool.or_true]) _).bind fun _ => .pure _
    · rw [if_neg endfunction]
      split
      · exact Spares.get.bind fun c => .ite ((Spares.modify _).bind fun _ => .pure _) (.pure _)
      · exact .ite (.pure _) (spares_statement fewer label)

/-! ## Lines of files -/

/-- A step on a line that spares reasons of some kind. -/
abbrev SparesLine {α : Type} (meant : CompileReason → Bool) (work : Work α) : Prop :=
  Spares (fun p : Problem => meant p.reason) work

/-- A step on a line fails for the reason for which the step does. -/
theorem onLine_eq_error {α : Type} {step : Emit α} {number : Nat} {p : Problem} {c c' : Compiler}
    (h : onLine number step c = (.error p, c')) : step c = (.error p.reason, c') := by
  rw [onLine] at h
  rcases answer : step c with ⟨reason | a, c₁⟩
  · rw [answer] at h
    obtain ⟨same, rfl⟩ := Prod.mk.inj h
    obtain rfl := Except.error.inj same
    rfl
  · rw [answer] at h
    cases (Prod.mk.inj h).1

theorem spares_onLine {α : Type} {meant : CompileReason → Bool} {step : Emit α}
    (h : Spares meant step) (number : Nat) : SparesLine meant (onLine number step) :=
  ⟨fun failed => h.spared (onLine_eq_error failed)⟩

/-- Looking ahead is refused for labels. -/
theorem isLayout_scan {aliases : List Alias} {lines : List Line} {depth last line : Nat}
    {range : LabelRange} {reason : CompileReason}
    (h : (Priming.scan aliases lines depth last range).ending = .refused line reason) :
    reason.isLayout = false := by
  fun_induction Priming.scan aliases lines depth last range with
  | case1 => cases h
  | case3 => cases h
  | case6 _ _ _ _ _ _ _ _ _ wrong =>
    obtain ⟨-, rfl⟩ := PrimingEnd.refused.inj h
    exact isLayout_labelValue wrong
  | case2 _ _ _ _ _ _ ih => exact ih h
  | case4 _ _ _ _ _ _ _ ih => exact ih h
  | case5 _ _ _ _ _ _ _ _ _ _ ih => exact ih h
  | case7 _ _ _ _ _ _ _ ih => exact ih h
  | case8 _ _ _ _ _ _ _ _ ih => exact ih h

theorem spares_reserveCases (header : Nat) (range : LabelRange) :
    Ordinary (reserveCases header range) := by
  unfold reserveCases setLabelRange
  refine ((spares_setJump ..).bind fun _ => spares_setJump ..).bind fun _ => Spares.get.bind fun c => ?_
  exact (spares_reserve _).bind fun _ => .ite (.throw rfl) (.pure _)

theorem spares_prime (header opening : Nat) (rest : List Line) :
    SparesLine CompileReason.isLayout (prime header opening rest) := by
  refine Spares.get.bind fun c => (spares_onLine ?_ _).bind fun _ => ?_
  · exact (spares_setJump ..).bind fun _ => spares_setJump ..
  · split
    · exact spares_onLine (spares_reserveCases ..) _
    · next refused => exact .throw (isLayout_scan refused)
    · exact .throw rfl

/-- **A line of a file** fails for what has been laid out before only if it stands in a body and fails
for it there. -/
theorem spares_compileLine {meant : CompileReason → Bool} {type : Nat} {line : Line}
    {rest : List Line} {p : Problem} {c c' : Compiler}
    (fewer : ∀ reason, CompileReason.isLayout reason = false → meant reason = false)
    (inside : c.mode = .inside → ∀ {reason c'},
      insideLine line.text c = (.error reason, c') → meant reason = false)
    (failed : compileLine type line rest c = (.error p, c')) : meant p.reason = false := by
  rw [compileLine, bind_apply, get_apply] at failed
  dsimp only at failed
  cases mode : c.mode with
  | outside =>
    rw [mode] at failed
    exact fewer _ ((spares_onLine (spares_outsideLine type line.text) _).spared failed)
  | skipping =>
    rw [mode] at failed
    have ends : SparesLine meant (if Directive.endsPlatform line.text then
        modify fun c => { c with mode := .inside }
      else return) := .ite (.modify _) (.pure _)
    exact ends.spared failed
  | inside =>
    rw [mode] at failed
    dsimp only at failed
    rcases first : onLine line.number (insideLine line.text) c with ⟨p' | header?, c₁⟩
    · rw [bind_apply_of_error first] at failed
      obtain rfl := Except.error.inj (Prod.mk.inj failed).1
      exact inside mode (onLine_eq_error first)
    · rw [bind_apply_of_ok first] at failed
      cases header? with
      | some header => exact fewer _ ((spares_prime ..).spared failed)
      | none => cases failed

/-- The end of a file fails only for a body that is open. -/
theorem spares_compileLines_nil (type last : Nat) :
    SparesLine CompileReason.isLayout (compileLines type last []) :=
  Spares.get.bind fun _ => .ite (.throw rfl) (.pure _)

end Compiler

end StageScript
