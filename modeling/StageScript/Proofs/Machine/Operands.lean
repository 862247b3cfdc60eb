import StageScript.Proofs.Machine.Execution
import StageScript.Proofs.Machine.Support

/-! # Loading and storing operands
What the operands of an instruction are worth, and what giving one a value changes.
* **`Machine.SameStore`** — two machines whose places hold the same: loading operands leads from one
  to the other;
* **`loadArguments_apply`** — behind the loads the operand registers hold the values that the operands
  had before;
* **`Argument.Stored`** — giving an operand a value changes its place, if it has one and takes the
  value, and calls the host where the operand is a volume. -/

namespace StageScript

open Indexed Machine

/-! ## What operands are worth -/

namespace Argument

/-- The value of an operand. Where its index is out of range it is zero, as that of a text is. -/
def value (m : Machine) (object : Nat) : Argument → Word
  | .integer w => w
  | .text _ => 0
  | .element v address => (v.read? m (address.index m object)).getD 0

/-- The place that an operand means. Numbers, texts and variables that cannot be written have none. -/
def cell? (m : Machine) (object : Nat) : Argument → Option Cell
  | .element v address => v.cell? m.scene (address.index m object)
  | _ => none

/-- What the place of an operand holds once the operand has been given a value. -/
def keep : Argument → Word → Word
  | .element v _, w => v.keep w
  | _, w => w

/-- Whether an operand takes a value. -/
def accepts : Argument → Word → Bool
  | .element v _, w => v.accepts w
  | _, _ => false

/-- Whether an operand takes back the value that was loaded from it. -/
def takesBack : Argument → Bool
  | .element v _ => v.takesBack
  | _ => true

/-- The calls of the host that giving an operand a value makes. -/
def volumeCalls : Argument → Word → List HostCall
  | .element v _, w => v.volumeCalls w
  | _, _ => []

/-- The text that loading an operand leaves as the script text. -/
def scriptText (before : String) : Argument → String
  | .text content => String.ofList content
  | _ => before

end Argument

/-- **The value of an operand** is what its variable shows of its place. -/
theorem Argument.keep_value {m : Machine} {object : Nat} {argument : Argument} {c : Cell}
    (h : argument.takesBack = true) (hc : argument.cell? m object = some c) :
    argument.keep (argument.value m object) = c.content m := by
  cases argument with
  | integer w => cases hc
  | text content => cases hc
  | element v address =>
    have writable : v.isReadOnly = false := by
      cases readOnly : v.isReadOnly with
      | false => rfl
      | true =>
        rw [cell?, Variable.cell?_of_isReadOnly m.scene _ readOnly] at hc
        cases hc
    rw [cell?] at hc
    rw [value, Variable.read?_eq m _ writable, hc]
    exact Variable.keep_view_content h hc

/-! ## Machines whose places hold the same -/

/-- Two machines that differ in nothing that variables show or hang on. -/
structure Machine.SameStore (m m' : Machine) : Prop where
  scene : m'.scene = m.scene
  types : m'.types = m.types
  tempValues : m'.registers.tempValues = m.registers.tempValues
  checkResult : m'.registers.checkResult = m.registers.checkResult
  arrayPos : m'.registers.arrayPos = m.registers.arrayPos

namespace Machine.SameStore

variable {m m' : Machine}

theorem refl (m : Machine) : SameStore m m := ⟨rfl, rfl, rfl, rfl, rfl⟩

theorem trans {m'' : Machine} (first : SameStore m m') (second : SameStore m' m'') :
    SameStore m m'' where
  scene := second.scene.trans first.scene
  types := second.types.trans first.types
  tempValues := second.tempValues.trans first.tempValues
  checkResult := second.checkResult.trans first.checkResult
  arrayPos := second.arrayPos.trans first.arrayPos

theorem setOperand (m : Machine) (place : Nat) (w : Word) : SameStore m (m.setOperand place w) :=
  ⟨rfl, rfl, rfl, rfl, rfl⟩

theorem typeData (h : SameStore m m') (type : UInt8) : m'.typeData type = m.typeData type := by
  rw [Machine.typeData, h.types, Machine.typeData]

theorem content (h : SameStore m m') (c : Cell) : c.content m' = c.content m := by
  cases c <;> simp only [Cell.content, h.scene, h.tempValues, h.checkResult, h.typeData,
    Registers.index, h.arrayPos]

theorem read? (h : SameStore m m') (v : Variable) (index : Word) :
    v.read? m' index = v.read? m index := by
  cases v <;> simp only [Variable.read?, playerHitbox?, h.scene, h.tempValues, h.checkResult,
    h.typeData, Registers.index, h.arrayPos]

theorem support (h : SameStore m m') (v : Variable) (index : Word) :
    v.support m' index = v.support m index := by
  cases v <;> simp only [Variable.support, h.scene]

theorem index (h : SameStore m m') (object : Nat) (address : Address) :
    address.index m' object = address.index m object := by
  have source (i : IndexSource) : i.value m' = i.value m := by
    cases i with
    | literal w => rfl
    | register r => simp only [IndexSource.value, Registers.index, h.arrayPos]
  cases address <;> simp only [Address.index, source]

theorem value (h : SameStore m m') (object : Nat) (argument : Argument) :
    argument.value m' object = argument.value m object := by
  cases argument with
  | element v address => simp only [Argument.value, h.read?, h.index]
  | _ => rfl

theorem cell? (h : SameStore m m') (object : Nat) (argument : Argument) :
    argument.cell? m' object = argument.cell? m object := by
  cases argument with
  | element v address => simp only [Argument.cell?, h.scene, h.index]
  | _ => rfl

end Machine.SameStore

/-- **The place that an operand means** hangs on the locators only. -/
theorem Argument.cell?_congr {m m' : Machine} (beside : m'.backdrop = m.backdrop)
    (h : ∀ c : Cell, c.isLocator = true → c.content m' = c.content m) (object : Nat)
    (argument : Argument) : argument.cell? m' object = argument.cell? m object := by
  cases argument with
  | element v address =>
    have source (i : IndexSource) : i.value m' = i.value m := by
      cases i with
      | literal w => rfl
      | register r => exact h (.arrayPos r) rfl
    have index : address.index m' object = address.index m object := by
      cases address <;> simp only [Address.index, source]
    rw [cell?, cell?, index, Variable.cell?_congr beside h]
  | _ => rfl

/-- An operand means the place of a register only where it names the register. -/
theorem Argument.cell?_arrayPos {m m' : Machine} {object : Nat} {argument : Argument}
    {register : IndexRegister} (h : argument.cell? m object = some (.arrayPos register)) :
    argument.cell? m' object = some (.arrayPos register) := by
  cases argument with
  | element v address => exact Variable.cell?_eq_arrayPos_iff.2 (Variable.cell?_eq_arrayPos_iff.1 h)
  | _ => cases h

/-! ## Loading -/

/-- **Loading an operand** gives its value. Only out of range, and in strict mode, is it a fault. -/
theorem Argument.load_apply (object : Nat) (argument : Argument) (m : Machine) :
    ∃ r, argument.load object m = (r, { m with scriptText := argument.scriptText m.scriptText }) ∧
      (∀ w, r = .ok w → w = argument.value m object) ∧
      (m.strict = false → r = .ok (argument.value m object)) := by
  cases argument with
  | integer w => exact ⟨.ok w, rfl, fun _ h => (Except.ok.inj h).symm, fun _ => rfl⟩
  | text content => exact ⟨.ok 0, rfl, fun _ h => (Except.ok.inj h).symm, fun _ => rfl⟩
  | element v address =>
    simp only [load, Variable.read, Argument.value, scriptText, Stepwise.bind_apply, Stepwise.get_apply]
    cases v.read? m (address.index m object) with
    | some w => exact ⟨.ok w, rfl, fun _ h => (Except.ok.inj h).symm, fun _ => rfl⟩
    | none =>
      simp only [Stepwise.bind_apply, outOfRange_apply]
      by_cases strict : m.strict = true
      · rw [if_pos strict]
        refine ⟨.error _, rfl, ?_, ?_⟩
        · intro _ h
          cases h
        · intro h
          rw [strict] at h
          cases h
      · rw [if_neg strict]
        exact ⟨.ok 0, rfl, fun _ h => (Except.ok.inj h).symm, fun _ => rfl⟩

/-- The operand registers once values have been put into them from `place` on. -/
def Operands.setFrom (o : Operands) : (place : Nat) → List Word → Operands
  | _, [] => o
  | place, w :: rest => (o.set place w).setFrom (place + 1) rest

theorem Operands.get_setFrom {o : Operands} {place : Nat} {ws : List Word}
    (h : place + ws.length ≤ 10) (k : Nat) :
    (o.setFrom place ws).get k =
      if k < place then o.get k else (ws[k - place]?).getD (o.get k) := by
  induction ws generalizing o place with
  | nil => simp [setFrom]
  | cons w rest ih =>
    rw [List.length_cons] at h
    rw [setFrom, ih (by omega), get_set _ _ _ _ (by omega)]
    by_cases lt : k < place
    · rw [if_pos (by omega), if_pos lt, if_neg (by omega)]
    · rw [if_neg lt]
      obtain rfl | gt := Nat.eq_or_lt_of_not_lt lt
      · simp
      · rw [if_neg (by omega), if_neg (by omega), show k - place = k - (place + 1) + 1 by omega,
          List.getElem?_cons_succ]

/-- The machine behind the loads of operands. -/
structure Machine.Loaded (object : Nat) (arguments : List Argument) (place : Nat)
    (m m' : Machine) : Prop where
  same : SameStore m m'
  history : m'.history = m.history
  strict : m'.strict = m.strict
  random : m'.random = m.random

/-- **Loading operands** puts the values that they have at first into the operand registers. -/
theorem loadArguments_apply (object : Nat) (arguments : List Argument) (place : Nat) (m : Machine) :
    Machine.Loaded object arguments place m (loadArguments object arguments place m).2 ∧
      ((loadArguments object arguments place m).1 = .ok () →
        (loadArguments object arguments place m).2.registers.operands =
          m.registers.operands.setFrom place (arguments.map (·.value m object))) ∧
      (m.strict = false → (loadArguments object arguments place m).1 = .ok ()) := by
  induction arguments generalizing place m with
  | nil => exact ⟨⟨.refl m, rfl, rfl, rfl⟩, fun _ => rfl, fun _ => rfl⟩
  | cons argument rest ih =>
    obtain ⟨r, load, right, lax⟩ := argument.load_apply object m
    cases r with
    | error fault =>
      have run : loadArguments object (argument :: rest) place m = (.error fault, _) :=
        Stepwise.bind_apply_of_error load
      rw [run]
      refine ⟨⟨⟨rfl, rfl, rfl, rfl, rfl⟩, rfl, rfl, rfl⟩, ?_, ?_⟩
      · intro h
        cases h
      · intro h
        cases lax h
    | ok w =>
      obtain rfl := right w rfl
      have run : loadArguments object (argument :: rest) place m =
          loadArguments object rest (place + 1) (Machine.setOperand
            { m with scriptText := argument.scriptText m.scriptText } place
            (argument.value m object)) :=
        Stepwise.bind_apply_of_ok load
      rw [run]
      -- Loading an operand changes no place, so the rest is worth what it was at first.
      have same : SameStore m (Machine.setOperand
          { m with scriptText := argument.scriptText m.scriptText } place
          (argument.value m object)) := ⟨rfl, rfl, rfl, rfl, rfl⟩
      obtain ⟨loaded, values, lax'⟩ := ih (place + 1) _
      refine ⟨⟨same.trans loaded.same, loaded.history, loaded.strict, loaded.random⟩, fun h => ?_,
        lax'⟩
      rw [values h, List.map_cons, Operands.setFrom]
      simp only [same.value]
      rfl

/-! ## Storing -/

/-- The machine behind an operand that has been given a value. -/
structure Argument.Stored (object : Nat) (w : Word) (argument : Argument) (m m' : Machine) : Prop where
  /-- The place of an operand that takes the value holds it, as far as the variable keeps it. -/
  hit : ∀ c, argument.cell? m object = some c → argument.accepts w = true →
    c.content m' = argument.keep w
  /-- All the other places hold what they held. -/
  miss : ∀ c, (argument.cell? m object = some c → argument.accepts w = false) →
    c.content m' = c.content m
  backdrop : m'.backdrop = m.backdrop
  history : m'.history.toList = m.history.toList ++ argument.volumeCalls w

/-- An operand that is no variable takes no value. -/
theorem Argument.Stored.refl {object : Nat} {w : Word} {argument : Argument} (m : Machine)
    (cell : argument.cell? m object = none ∨ argument.accepts w = false)
    (calls : argument.volumeCalls w = []) : Stored object w argument m m where
  hit c hc accepted := by
    obtain none | refused := cell
    · rw [none] at hc
      cases hc
    · rw [refused] at accepted
      cases accepted
  miss c _ := rfl
  backdrop := rfl
  history := by rw [calls, List.append_nil]

/-- **Storing a value** in an operand changes its place and no other. -/
theorem Argument.stored_store (object : Nat) (w : Word) (argument : Argument) (m : Machine) :
    Stored object w argument m (argument.store object w m).2 ∧
      (m.strict = false → (argument.store object w m).1 = .ok ()) := by
  cases argument with
  | integer value => exact ⟨.refl m (.inl rfl) rfl, fun _ => rfl⟩
  | text content => exact ⟨.refl m (.inl rfl) rfl, fun _ => rfl⟩
  | element v address =>
    simp only [store, Variable.write, Stepwise.bind_apply, Stepwise.get_apply]
    cases written : v.write? m (address.index m object) w with
    | some m' =>
      refine ⟨?_, fun _ => rfl⟩
      simp only [Stepwise.set_apply]
      cases readOnly : v.isReadOnly with
      | true =>
        -- A write that is dropped leaves the machine as it is.
        rw [Variable.write?_of_isReadOnly m _ w readOnly] at written
        obtain rfl := Option.some.inj written
        refine .refl m (.inl (Variable.cell?_of_isReadOnly m.scene _ readOnly)) ?_
        cases v <;> first | rfl | cases readOnly
      | false =>
        obtain ⟨c, hc, place⟩ := Variable.written_of_write? readOnly written
        refine ⟨fun c' hc' _ => ?_, fun c' refused => place.other c' fun eq => ?_,
          Variable.backdrop_of_write? written, Variable.history_of_write? written⟩
        · obtain rfl := Option.some.inj (hc.symm.trans hc')
          exact place.content
        · have some := Variable.isSome_write? readOnly m (address.index m object) w
          rw [written, hc] at some
          rw [eq] at refused
          exact absurd (refused hc) (by simpa [accepts] using some.symm)
    | none =>
      simp only [outOfRange_apply]
      refine ⟨.refl m ?_ (Variable.volumeCalls_of_write?_eq_none written), fun lax => by simp [lax]⟩
      have readOnly : v.isReadOnly = false := by
        cases readOnly : v.isReadOnly with
        | false => rfl
        | true =>
          rw [Variable.write?_of_isReadOnly m _ w readOnly] at written
          cases written
      have some := Variable.isSome_write? readOnly m (address.index m object) w
      rw [written] at some
      simp only [cell?, accepts]
      cases hc : v.cell? m.scene (address.index m object) with
      | none => exact .inl rfl
      | some c =>
        rw [hc] at some
        exact .inr (by simpa using some.symm)

end StageScript
