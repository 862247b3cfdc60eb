import StageScript.Proofs.Machine.Local
import StageScript.Proofs.Machine.Operands
import StageScript.Proofs.Program.Typing

/-! # Runs of typed programs
A program whose bodies are typed does not meet the faults of corrupt code.
* **`Stacked`** — the blocks and the calls that are open are those that the typings of the bodies say
  where the run stands in each of them;
* **`safe_step`** — a step keeps this up, or ends the run, or fails for another reason;
* **`safe_runFrom`** — hence no run meets a fault of corrupt code. -/

namespace StageScript

open Stepwise

/-- Whether a fault can only arise from corrupt code: the code cannot be read, a jump has no target,
or a block or a call is closed that is not open. -/
def Fault.isCorruption : Fault → Bool
  | .invalidOpcode _ _ => true
  | .invalidOperandTag _ _ => true
  | .invalidAddressingMode _ _ => true
  | .invalidIndexRegister _ _ => true
  | .unknownVariable _ _ => true
  | .codeOutOfRange _ => true
  | .jumpSlotOutOfRange _ => true
  | .unresolvedJump _ => true
  | .branchStackUnderflow => true
  | .callStackUnderflow => true
  | _ => false

theorem Fault.isCorruption_of_isStrict {fault : Fault} (h : fault.isStrict = true) :
    fault.isCorruption = false := by
  cases fault <;> first | rfl | cases h

/-- The words that stand for the slots of open blocks. -/
def slotWords (blocks : List Nat) : List Word := blocks.map Word.ofNat

/-- The open blocks and the positions in the bodies that are under way, the running one first: each
position stands in a typed body where its blocks are open, and a body that returns has a caller. -/
inductive Stacked (p : Program) : List Word → List Position → Prop
  | nil : Stacked p [] []
  | cons {entry : EntryPoint} {returns : Bool} {t : Typing} {offset : Nat} {blocks : List Nat}
    {outer : List Word} {callers : List Position}
    (typed : p.Typed entry returns t) (at_ : t.At offset blocks)
    (called : returns = true → callers ≠ []) (below : Stacked p outer callers) :
    Stacked p (slotWords blocks ++ outer)
      (⟨entry.code + offset, entry.code, entry.jump⟩ :: callers)

/-- What may come of a step. -/
def SafeStep (p : Program) : Except Fault (Option Position) × Machine → Prop
  | (.ok (some next), m) => Stacked p m.branches (next :: m.calls)
  | (.ok none, _) => True
  | (.error fault, _) => fault.isCorruption = false

/-! ## Jumps -/

theorem Jump.word_of_getElem? {p : Program} {here : Position} {slot k : Nat} {w : Word}
    (small : slot < jumpCapacity) (h : p.jumpTable[here.jumpBase + (slot + k)]? = some w) :
    Jump.word p here (Word.ofNat slot) k = .ok w := by
  rw [jumpCapacity] at small
  have place : ((here.jumpBase : Int) + (Word.ofNat slot).toInt + k) =
      ((here.jumpBase + (slot + k) : Nat) : Int) := by
    rw [Word.toInt_ofNat (by omega)]
    omega
  rw [word, place, if_neg (by omega), Int.toNat_natCast, h]

/-- **A typed slot leads to its target.** -/
theorem Program.Typed.target {p : Program} {entry : EntryPoint} {returns : Bool} {t : Typing}
    {slot k : Nat} {blocks : List Nat} (h : p.Typed entry returns t) (pointer : Nat)
    (small : slot < jumpCapacity) (typed : t.Slot (slot + k) blocks) :
    ∃ target, t.At target blocks ∧
      Jump.target p ⟨pointer, entry.code, entry.jump⟩ (Word.ofNat slot) k =
        .ok ⟨entry.code + target, entry.code, entry.jump⟩ := by
  obtain ⟨target, inside, word, at_⟩ := h.slot typed
  rw [codeCapacity] at inside
  refine ⟨target, at_, ?_⟩
  rw [Jump.target, Except.bind_of_eq_ok (Jump.word_of_getElem? small word)]
  dsimp only
  rw [Word.index?_ofNat (by omega)]
  rfl

/-! ## Control instructions as functions of the machine -/

@[simp] theorem jump_apply (p : Program) (here : Position) (slot : Word) (k : Int) (m : Machine) :
    jump p here slot k m = (Jump.target p here slot k, m) := rfl

theorem pushBranch_apply (slot : Word) (m : Machine) :
    pushBranch slot m =
      if m.branches.length < branchDepthLimit then (.ok (), { m with branches := slot :: m.branches })
      else (.error .branchStackOverflow, m) := by
  rw [pushBranch, bind_apply, get_apply]
  dsimp only
  split <;> rfl

theorem popBranch_apply {slot : Word} {rest : List Word} {m : Machine}
    (h : m.branches = slot :: rest) : popBranch m = (.ok slot, { m with branches := rest }) := by
  rw [popBranch, bind_apply, get_apply]
  dsimp only
  rw [h]
  rfl

theorem returnFromFunction_apply {back : Position} {rest : List Position} {m : Machine}
    (h : m.calls = back :: rest) : returnFromFunction m = (.ok back, { m with calls := rest }) := by
  rw [returnFromFunction, bind_apply, get_apply]
  dsimp only
  rw [h]
  rfl

/-- The word of a test or of a switch is in the first operand register. -/
theorem operand_zero {object : Nat} {w : Word} {rest : List Argument} {m m' : Machine}
    (short : rest.length ≤ 9) (h : loadArguments object (.integer w :: rest) 0 m = (.ok (), m')) :
    m'.registers.operands[0] = w := by
  obtain ⟨-, values, -⟩ := loadArguments_apply object (.integer w :: rest) 0 m
  rw [h] at values
  show m'.registers.operands.get 0 = w
  rw [values rfl, Operands.get_setFrom]
  · rfl
  · rw [List.map_cons, List.length_cons, List.length_map]
    omega

/-! ## Steps -/

section

variable {p : Program} {activation : Activation} {entry : EntryPoint} {returns : Bool} {t : Typing}
  {blocks : List Nat} {outer : List Word} {callers : List Position} {m : Machine} {next : Nat}

/-- Where a run of a body goes on, if nothing else about the machine is of interest. -/
structure Frame (p : Program) (entry : EntryPoint) (returns : Bool) (t : Typing) (blocks : List Nat)
    (outer : List Word) (callers : List Position) (m : Machine) : Prop where
  typed : p.Typed entry returns t
  called : returns = true → callers ≠ []
  below : Stacked p outer callers
  branches : m.branches = slotWords blocks ++ outer
  calls : m.calls = callers

/-- The run may go on at an offset where the blocks are open. -/
theorem Frame.stacked (h : Frame p entry returns t blocks outer callers m) {offset : Nat}
    (at_ : t.At offset blocks) :
    Stacked p m.branches (⟨entry.code + offset, entry.code, entry.jump⟩ :: m.calls) := by
  rw [h.branches, h.calls]
  exact .cons h.typed at_ h.called h.below

/-- Steps on data do not disturb a frame. -/
theorem Frame.of_local {α : Type} {x : Exec α} (h : Frame p entry returns t blocks outer callers m)
    (local_ : x.Local) : Frame p entry returns t blocks outer callers (x m).2 :=
  ⟨h.typed, h.called, h.below, (local_.branches m).trans h.branches,
    (local_.calls m).trans h.calls⟩

/-- Opening a block. -/
theorem Frame.push (h : Frame p entry returns t blocks outer callers m) (slot : Nat) :
    Frame p entry returns t (slot :: blocks) outer callers
      { m with branches := Word.ofNat slot :: m.branches } :=
  ⟨h.typed, h.called, h.below, congrArg (Word.ofNat slot :: ·) h.branches, h.calls⟩

/-- Closing a block. -/
theorem Frame.pop {slot : Nat} (h : Frame p entry returns t (slot :: blocks) outer callers m) :
    popBranch m = (.ok (Word.ofNat slot), { m with branches := slotWords blocks ++ outer }) ∧
      Frame p entry returns t blocks outer callers
        { m with branches := slotWords blocks ++ outer } :=
  ⟨popBranch_apply h.branches, h.typed, h.called, h.below, rfl, h.calls⟩

theorem Frame.safe_jump (h : Frame p entry returns t blocks outer callers m) {slot k pointer : Nat}
    (small : slot < jumpCapacity) (typed : t.Slot (slot + k) blocks) :
    SafeStep p ((some <$> jump p ⟨pointer, entry.code, entry.jump⟩ (Word.ofNat slot) k) m) := by
  obtain ⟨target, at_, eq⟩ := h.typed.target pointer small typed
  rw [map_apply, jump_apply, eq]
  exact h.stacked at_

/-- Closing a block and jumping through one of its slots. -/
theorem Frame.safe_leave {slot k pointer : Nat}
    (h : Frame p entry returns t (slot :: blocks) outer callers m) (small : slot < jumpCapacity)
    (typed : t.Slot (slot + k) blocks) :
    SafeStep p ((do return some (← jump p ⟨pointer, entry.code, entry.jump⟩ (← popBranch) k) :
      Exec (Option Position)) m) := by
  obtain ⟨pop, frame⟩ := h.pop
  rw [bind_apply_of_ok pop]
  exact frame.safe_jump small typed

/-- Closing a block and going on behind. -/
theorem Frame.safe_close {slot : Nat}
    (h : Frame p entry returns t (slot :: blocks) outer callers m) (behind : t.At next blocks) :
    SafeStep p ((do
      discard popBranch
      return some ⟨entry.code + next, entry.code, entry.jump⟩ : Exec (Option Position)) m) := by
  obtain ⟨pop, frame⟩ := h.pop
  rw [bind_apply, discard_apply, pop]
  exact frame.stacked behind

theorem Frame.safe_performIf {comparison : Comparison} {slot : Nat}
    (h : Frame p entry returns t blocks outer callers m) (small : slot < jumpCapacity)
    (operand : m.registers.operands[0] = Word.ofNat slot) (behind : t.At next (slot :: blocks))
    (typed : t.Slot slot (slot :: blocks)) :
    SafeStep p
      ((some <$> comparison.performIf p ⟨entry.code + next, entry.code, entry.jump⟩) m) := by
  rw [map_apply, Comparison.performIf, bind_apply, operands_apply]
  dsimp only
  rw [bind_apply, pushBranch_apply, operand]
  by_cases room : m.branches.length < branchDepthLimit
  · rw [if_pos room]
    dsimp only
    by_cases holds : comparison.holds m.registers.operands[1] m.registers.operands[2] = true
    · rw [if_pos holds]
      exact (h.push slot).stacked behind
    · rw [if_neg holds]
      have := @Frame.safe_jump p entry returns t _ outer callers _ (h.push slot) slot 0
        (entry.code + next) small typed
      rwa [map_apply] at this
  · rw [if_neg room]
    rfl

theorem Frame.safe_performWhile {comparison : Comparison} {slot : Nat}
    (h : Frame p entry returns t blocks outer callers m) (small : slot < jumpCapacity)
    (operand : m.registers.operands[0] = Word.ofNat slot) (behind : t.At next (slot :: blocks))
    (typed : t.Slot (slot + 1) blocks) :
    SafeStep p
      ((some <$> comparison.performWhile p ⟨entry.code + next, entry.code, entry.jump⟩) m) := by
  rw [map_apply, Comparison.performWhile, bind_apply, operands_apply]
  dsimp only
  by_cases holds : comparison.holds m.registers.operands[1] m.registers.operands[2] = true
  · rw [if_pos holds, bind_apply, pushBranch_apply, operand]
    by_cases room : m.branches.length < branchDepthLimit
    · rw [if_pos room]
      exact (h.push slot).stacked behind
    · rw [if_neg room]
      rfl
  · rw [if_neg holds, operand]
    have := @Frame.safe_jump p entry returns t _ outer callers _ h slot 1
      (entry.code + next) small typed
    rwa [map_apply] at this

theorem Frame.safe_performSwitch {slot : Nat} {range : LabelRange} {pointer : Nat}
    (h : Frame p entry returns t blocks outer callers m) (small : slot < jumpCapacity)
    (operand : m.registers.operands[0] = Word.ofNat slot) (header : t.Header slot range)
    (other : t.Slot (slot + 2) (slot :: blocks))
    (cases : ∀ k < range.size, t.Slot (slot + 4 + k) (slot :: blocks)) :
    SafeStep p
      ((some <$> Control.performSwitch p ⟨pointer, entry.code, entry.jump⟩) m) := by
  rw [map_apply, Control.performSwitch, bind_apply, operands_apply]
  dsimp only
  rw [bind_apply, pushBranch_apply, operand]
  by_cases room : m.branches.length < branchDepthLimit
  · rw [if_pos room]
    dsimp only
    obtain ⟨-, order, min, max⟩ := h.typed.header header
    have frame := h.push slot
    have least : Jump.word p ⟨pointer, entry.code, entry.jump⟩ (Word.ofNat slot) 0 = .ok range.min :=
      @Jump.word_of_getElem? p ⟨pointer, entry.code, entry.jump⟩ slot 0 _ small min
    have most : Jump.word p ⟨pointer, entry.code, entry.jump⟩ (Word.ofNat slot) 1 = .ok range.max :=
      @Jump.word_of_getElem? p ⟨pointer, entry.code, entry.jump⟩ slot 1 _ small max
    rw [bind_apply, mk_pure_apply, least]
    dsimp only
    rw [bind_apply, mk_pure_apply, most]
    dsimp only
    generalize m.registers.operands[1] = value
    by_cases outside : (decide (value < range.min) || decide (range.max < value)) = true
    · rw [if_pos outside]
      have := @Frame.safe_jump p entry returns t _ outer callers _ frame slot 2 pointer small other
      rwa [map_apply] at this
    · rw [if_neg outside]
      simp only [Bool.or_eq_true, decide_eq_true_eq, not_or, Int32.lt_iff_toInt_lt] at outside
      rw [Int32.le_iff_toInt_le] at order
      -- a value in the range has a slot of its own
      have inside : (value.toInt - range.min.toInt).toNat < range.size := by
        rw [LabelRange.size]
        omega
      have typed := cases _ inside
      rw [Nat.add_assoc] at typed
      have := @Frame.safe_jump p entry returns t _ outer callers _ frame slot
        (4 + (value.toInt - range.min.toInt).toNat) pointer small typed
      rw [map_apply] at this
      have offset : ((4 + (value.toInt - range.min.toInt).toNat : Nat) : Int) =
          4 + (value.toInt - range.min.toInt) := by
        omega
      rwa [offset] at this
  · rw [if_neg room]
    rfl

/-- Calling a function, which is a typed body. -/
theorem Frame.safe_enter {index : Word} (h : Frame p entry returns t blocks outer callers m)
    (functions : ∀ f ∈ p.functions, ∀ e, f.entry = some e → ∃ t, p.Typed e true t)
    (behind : t.At next blocks) :
    SafeStep p ((do
      return some (← enterFunction p ⟨entry.code + next, entry.code, entry.jump⟩ index) :
        Exec (Option Position)) m) := by
  rw [bind_apply, enterFunction]
  cases known : (index.index?.bind (p.functions[·]?)).bind (·.entry) with
  | none => rfl
  | some e =>
    dsimp only
    rw [bind_apply, get_apply]
    dsimp only
    obtain ⟨f, found, body⟩ := Option.bind_eq_some_iff.1 known
    obtain ⟨k, -, found⟩ := Option.bind_eq_some_iff.1 found
    obtain ⟨t', typed⟩ := functions f (Array.mem_of_getElem? found) e body
    by_cases room : m.calls.length < callDepthLimit
    · rw [if_pos room]
      -- the body begins with no block of its own
      exact @Stacked.cons p e true t' 0 [] _ _ typed typed.start (fun _ => List.cons_ne_nil _ _)
        (h.stacked behind)
    · rw [if_neg room]
      rfl

/-- Returning to a caller. -/
theorem Frame.safe_return (h : Frame p entry true t [] outer callers m) :
    SafeStep p ((some <$> returnFromFunction) m) := by
  have below := h.below
  have branches := h.branches
  have calls := h.calls
  cases callers with
  | nil => exact absurd rfl (h.called rfl)
  | cons back rest =>
    rw [map_apply, returnFromFunction_apply calls]
    show Stacked p m.branches (back :: rest)
    rw [branches]
    exact below

/-- **A control instruction that a typing allows is safe.** -/
theorem Frame.safe_perform {op : Opcode} {arguments : List Argument} {offset : Nat}
    (h : Frame p entry returns t blocks outer callers m) (control : op.isControl = true)
    (functions : ∀ f ∈ p.functions, ∀ e, f.entry = some e → ∃ t, p.Typed e true t)
    (at_ : t.At offset blocks) (allows : t.Allows returns next blocks op arguments)
    (operand : ∀ w rest, arguments = .integer w :: rest → m.registers.operands[0] = w) :
    SafeStep p (op.perform p activation ⟨entry.code + next, entry.code, entry.jump⟩ m) := by
  cases op with
  | ifTest comparison =>
    obtain ⟨slot, rest, shape, small, behind, typed⟩ := allows
    exact h.safe_performIf small (operand _ _ shape) behind typed
  | whileTest comparison =>
    obtain ⟨slot, rest, shape, small, behind, typed⟩ := allows
    exact h.safe_performWhile small (operand _ _ shape) behind typed
  | control op =>
    cases op with
    | stop => trivial
    | elseBranch =>
      obtain ⟨slot, outer', rfl, typed⟩ := allows
      exact h.safe_leave (h.typed.small at_ slot List.mem_cons_self) typed
    | endIf =>
      obtain ⟨slot, outer', rfl, behind⟩ := allows
      exact h.safe_close behind
    | loop =>
      obtain ⟨slot, outer', rfl, typed⟩ := allows
      exact @Frame.safe_leave p entry returns t _ outer callers m slot 0 _ h
        (h.typed.small at_ slot List.mem_cons_self) typed
    | switch =>
      obtain ⟨slot, rest, range, shape, small, header, other, cases⟩ := allows
      exact h.safe_performSwitch small (operand _ _ shape) header other cases
    | leave =>
      obtain ⟨slot, outer', rfl, typed⟩ := allows
      exact h.safe_leave (h.typed.small at_ slot List.mem_cons_self) typed
    | endSwitch =>
      obtain ⟨slot, outer', rfl, behind⟩ := allows
      exact h.safe_close behind
    | callFunction =>
      show SafeStep p ((operands >>= fun o => do
        return some (← enterFunction p ⟨entry.code + next, entry.code, entry.jump⟩ o[0])) m)
      rw [bind_apply, operands_apply]
      exact h.safe_enter functions allows
    | endFunction =>
      obtain ⟨rfl, rfl⟩ := allows
      exact h.safe_return
  | _ => cases control

end

/-- An instruction on data leaves the blocks open that are open. -/
theorem Typing.Allows.at_of_not_isControl {t : Typing} {returns : Bool} {next : Nat}
    {blocks : List Nat} {op : Opcode} {arguments : List Argument}
    (h : t.Allows returns next blocks op arguments) (data : op.isControl = false) :
    t.At next blocks := by
  cases op <;> first | exact h | cases data

/-- A program all of whose bodies are typed; sub-scripts do not return. -/
structure Program.Sound (p : Program) : Prop where
  sub : ∀ {type sub entry}, p.entryPoint? type sub = some entry → ∃ t, p.Typed entry false t
  functions : ∀ f ∈ p.functions, ∀ entry, f.entry = some entry → ∃ t, p.Typed entry true t

variable {p : Program} {m : Machine}

/-- **A step of a typed program is safe.** -/
theorem safe_step (activation : Activation) {here : Position} (sound : p.Sound)
    (h : Stacked p m.branches (here :: m.calls)) : SafeStep p (step p activation here m) := by
  generalize branches : m.branches = open_ at h
  generalize calls : m.calls = callers at h
  cases h with
  | cons typed at_ called below =>
    have frame : Frame p _ _ _ _ _ _ m := ⟨typed, called, below, branches, calls⟩
    obtain ⟨op, arguments, next, stands, allows⟩ := typed.instruction at_
    rw [step_eq_execute stands.decode_eq]
    by_cases control : op.isControl = true
    -- Loading the operands is local, so the frame is still there when control moves.
    · rw [Instruction.execute, bind_apply]
      dsimp only
      have loads := local_loadArguments activation.object arguments 0
      have loaded := frame.of_local loads
      rcases eq : loadArguments activation.object arguments 0 m with ⟨fault | _, m'⟩
      · exact Fault.isCorruption_of_isStrict (loads.strict m fault (congrArg Prod.fst eq))
      · rw [eq] at loaded
        dsimp only
        have safe := @Frame.safe_perform p activation _ _ _ _ _ _ m' next op arguments _ loaded control
          sound.functions at_ allows fun w rest shape => by
            subst shape
            have := stands.many
            have := op.arity_le
            rw [List.length_cons] at *
            exact operand_zero (by omega) eq
        have noResult : op.hasResult = false := by
          cases op <;> first | rfl | cases control
        rw [bind_apply]
        rcases result : op.perform p activation _ m' with ⟨fault | _, m''⟩
        · rw [result] at safe
          exact safe
        · rw [result] at safe
          dsimp only
          rw [noResult, if_neg Bool.false_ne_true]
          exact safe
    -- An instruction on data is local from its first operand to its last.
    · have data : op.isControl = false := Bool.eq_false_iff.2 control
      have behind := allows.at_of_not_isControl data
      rw [Instruction.execute_of_not_isControl data, seqRight_apply]
      generalize acts : Instruction.act activation _ = x
      have local_ : x.Local := acts ▸ Instruction.local_act activation _
      have acted := frame.of_local local_
      rcases result : x m with ⟨fault | _, m'⟩
      · exact Fault.isCorruption_of_isStrict (local_.strict m fault (congrArg Prod.fst result))
      · rw [result] at acted
        exact acted.stacked behind

/-- **No run of a typed program meets a fault of corrupt code.** -/
theorem safe_runFrom (activation : Activation) (sound : p.Sound) {fuel : Nat} {here : Position}
    (h : Stacked p m.branches (here :: m.calls)) {fault : Fault}
    (failed : (runFrom p activation fuel here m).1 = .error fault) : fault.isCorruption = false := by
  induction fuel generalizing here m with
  | zero =>
    obtain rfl := Except.error.inj failed
    rfl
  | succ fuel ih =>
    have safe := @safe_step p { m with steps := m.steps + 1 } activation here sound h
    rw [runFrom, bind_apply] at failed
    simp only [countStep, modify_apply] at failed
    rw [bind_apply] at failed
    rcases eq : step p activation here { m with steps := m.steps + 1 } with ⟨fault' | next?, m'⟩
    · rw [eq] at safe failed
      obtain rfl := Except.error.inj failed
      exact safe
    · rw [eq] at safe failed
      cases next? with
      | none => cases failed
      | some next => exact ih safe failed

/-- **A sub-script of a typed program** runs without a fault of corrupt code, whatever the machine it
starts on. -/
theorem safe_run (sound : p.Sound) {type : Nat} {sub : SubScript} {entry : EntryPoint}
    (recorded : p.entryPoint? type sub = some entry) (activation : Activation) (m : Machine)
    {fault : Fault} (failed : (run p activation entry m).1 = .error fault) :
    fault.isCorruption = false := by
  obtain ⟨t, typed⟩ := sound.sub recorded
  rw [run, bind_apply, modify_apply] at failed
  dsimp only at failed
  rw [bind_apply, get_apply] at failed
  exact safe_runFrom activation sound (@Stacked.cons p entry false t 0 [] _ _ typed typed.start
    nofun .nil) failed

end StageScript
