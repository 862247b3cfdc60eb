import StageScript.Proofs.Machine.Operands

/-! # The write phase
Behind an instruction with results every operand is stored, not only the results: a source is given
back the value that was loaded from it.
* **`Opcode.performed_of_hasResult`** — in between, such an instruction changes the registers of its
  results only;
* **`Instruction.Changes`** — the places that the stores can change: those of the results, those of
  sources that do not take back what they show, and those of sources that mean another place by then;
* **`content_storing`** — all the other places hold what they held. -/

namespace StageScript

open Indexed Machine

/-! ## Carrying out an instruction with results -/

/-- How many operands are results: both coordinates of the one that treats two, else the first. -/
def Opcode.resultCount : Opcode → Nat
  | .formula .interpolateXY => 2
  | _ => 1

/-- Whether a call of the host is a command to change what is heard. -/
def HostCall.isAudio : HostCall → Bool
  | .audio _ => true
  | _ => false

/-- The commands so far to change what is heard. -/
def Machine.audio (m : Machine) : List HostCall := m.history.toList.filter HostCall.isAudio

/-- The machine behind an instruction that has only left its results in the operand registers. -/
structure Machine.Performed (results : Nat) (m m' : Machine) : Prop where
  same : SameStore m m'
  sources : ∀ k, results ≤ k → m'.registers.operands.get k = m.registers.operands.get k
  strict : m'.strict = m.strict
  audio : m'.audio = m.audio

namespace Machine.Performed

theorem refl (results : Nat) (m : Machine) : Performed results m m :=
  ⟨.refl m, fun _ _ => rfl, rfl, rfl⟩

theorem setOperand {results : Nat} (m : Machine) {place : Nat} (w : Word) (h : place < results)
    (inside : place < 10) : Performed results m (m.setOperand place w) where
  same := .setOperand m place w
  sources k hk := (Operands.get_set _ _ _ _ inside).trans (if_neg (by omega))
  strict := rfl
  audio := rfl

theorem trans {results : Nat} {m m' m'' : Machine} (first : Performed results m m')
    (second : Performed results m' m'') : Performed results m m'' where
  same := first.same.trans second.same
  sources k hk := (second.sources k hk).trans (first.sources k hk)
  strict := second.strict.trans first.strict
  audio := second.audio.trans first.audio

theorem outOfRange (results : Nat) (m : Machine) (subject : String) (index : Word) :
    Performed results m (StageScript.outOfRange subject index m).2 := by
  rw [outOfRange_apply]
  exact .refl results m

end Machine.Performed

/-- Going on changes nothing. -/
theorem Opcode.goOn_apply (x : Exec Unit) (next : Position) (m : Machine) :
    (x *> perform.goOn next) m = ((x m).1.map fun _ => some next, (x m).2) := by
  rw [Stepwise.seqRight_apply]
  rcases x m with ⟨_ | _, _⟩ <;> rfl

theorem Binary.performed (op : Binary) (m : Machine) : Machine.Performed 1 m (op.perform m).2 := by
  simp only [perform, Stepwise.bind_apply, Stepwise.get_apply]
  split
  · exact .refl 1 m
  · exact .setOperand m _ (by decide) (by decide)

theorem performRandom_performed (m : Machine) : Machine.Performed 1 m (performRandom m).2 := by
  simp only [performRandom, Stepwise.modify_apply]
  split
  · exact .setOperand m _ (by decide) (by decide)
  · exact .setOperand m _ (by decide) (by decide)
  · rename_i bound _ _
    have drawn : Machine.Performed 1 m { m with random := (m.random.below bound).2 } :=
      ⟨⟨rfl, rfl, rfl, rfl, rfl⟩, fun _ _ => rfl, rfl, rfl⟩
    exact drawn.trans (.setOperand _ _ (by decide) (by decide))

theorem Formula.performed (f : Formula) (m : Machine) :
    Machine.Performed (Opcode.formula f).resultCount m (f.perform m).2 where
  same := ⟨rfl, rfl, rfl, rfl, rfl⟩
  sources k hk := by
    simp only [perform, Stepwise.modify_apply, Machine.modifyRegisters, apply]
    cases f
    case interpolateXY =>
      simp only [Opcode.resultCount] at hk
      rw [Operands.get_set _ _ _ _ (by decide), if_neg (by omega),
        Operands.get_set _ _ _ _ (by decide), if_neg (by omega)]
    all_goals
      simp only [Opcode.resultCount] at hk
      rw [Operands.get_set _ _ _ _ (by decide), if_neg (by omega)]
  strict := rfl
  audio := rfl

theorem LayerOp.performed {op : LayerOp} (h : op = .getTile ∨ op = .getTileInfo) (m : Machine) :
    Machine.Performed 1 m (op.perform m).2 := by
  obtain rfl | rfl := h
  · simp only [perform, Stepwise.bind_apply, operands_apply, currentScene_apply]
    cases tile? m.scene m.registers.operands[1] m.registers.operands[2] m.registers.operands[3] with
    | some tile => exact .setOperand m _ (by decide) (by decide)
    | none => exact .outOfRange 1 m _ _
  · simp only [perform, Stepwise.bind_apply, operands_apply, Stepwise.modify_apply]
    -- The question is recorded, but it is no command.
    have asked : Machine.Performed 1 m (m.call (.tileInfo
        m.registers.operands[1] m.registers.operands[2] m.registers.operands[3])) := by
      refine ⟨⟨rfl, rfl, rfl, rfl, rfl⟩, fun _ _ => rfl, rfl, ?_⟩
      simp [Machine.audio, Machine.call, HostCall.isAudio]
    exact asked.trans (.setOperand _ _ (by decide) (by decide))

theorem DrawListOp.performed (m : Machine) :
    Machine.Performed 1 m (DrawListOp.get.perform m).2 := by
  simp only [perform, Stepwise.bind_apply, operands_apply, currentScene_apply]
  cases get? m.scene m.registers.operands[1] m.registers.operands[2] with
  | some e => exact .setOperand m _ (by decide) (by decide)
  | none => exact .outOfRange 1 m _ _

/-- **An instruction with results** only leaves them in the operand registers. -/
theorem Opcode.performed_of_hasResult {op : Opcode} (h : op.hasResult = true) (p : Program)
    (activation : Activation) (next : Position) (m : Machine) :
    Machine.Performed op.resultCount m (op.perform p activation next m).2 := by
  cases op with
  | binary op =>
    rw [perform, goOn_apply]
    exact op.performed m
  | unary op =>
    rw [perform, goOn_apply]
    exact .setOperand m _ Nat.one_pos (by decide)
  | rand =>
    rw [perform, goOn_apply]
    exact performRandom_performed m
  | formula f =>
    rw [perform, goOn_apply]
    exact f.performed m
  | animation op =>
    rw [perform, goOn_apply]
    obtain rfl : op = .getByName := by simpa [hasResult] using h
    exact .setOperand m _ Nat.one_pos (by decide)
  | menu op =>
    rw [perform, goOn_apply]
    obtain rfl : op = .getInfo := by simpa [hasResult] using h
    exact .setOperand m _ Nat.one_pos (by decide)
  | layer op =>
    rw [perform, goOn_apply]
    exact LayerOp.performed (by simpa [hasResult] using h) m
  | drawList op =>
    rw [perform, goOn_apply]
    obtain rfl : op = .get := by simpa [hasResult] using h
    exact DrawListOp.performed m
  | _ => cases h

/-! ## Machines between the stores -/

namespace Instruction

variable (i : Instruction) (p : Program) (activation : Activation) (next : Position) (m : Machine)

/-- Everything that happens before the first operand is stored. -/
def prepare : Exec Unit := do
  loadArguments activation.object i.arguments 0
  discard <| i.opcode.perform p activation next

/-- Everything that happens before the operand at a place is stored. -/
def storing (k : Nat) : Exec Unit :=
  i.prepare p activation next *> storeArguments activation.object (i.arguments.take k) 0

/-- The machine in which the operand at a place is stored. -/
def beforeStore (k : Nat) : Machine := (i.storing p activation next k m).2

/-- The places that the stores of an instruction can change. -/
def Changes (c : Cell) : Prop :=
  ∃ k argument, i.arguments[k]? = some argument ∧
    argument.cell? (i.beforeStore p activation next m k) activation.object = some c ∧
    (k < i.opcode.resultCount ∨ argument.takesBack = false ∨
      argument.cell? m activation.object ≠ some c)

/-- The commands to change what is heard that storing the first operands makes, the operand registers
being these: one for each volume among the operands. -/
def volumeCalls (o : Operands) (count : Nat) : List HostCall :=
  (i.arguments.take count).zipIdx.flatMap fun (argument, k) => argument.volumeCalls (o.get k)

variable {i}

theorem volumeCalls_succ {o : Operands} {k : Nat} {argument : Argument}
    (found : i.arguments[k]? = some argument) :
    i.volumeCalls o (k + 1) = i.volumeCalls o k ++ argument.volumeCalls (o.get k) := by
  obtain ⟨inside, -⟩ := List.getElem?_eq_some_iff.1 found
  simp [volumeCalls, List.take_add_one, found, List.zipIdx_append, Nat.min_eq_left (Nat.le_of_lt inside)]

/-- An instruction with results prepares them, stores its operands and goes on. -/
theorem execute_apply (h : i.opcode.hasResult = true) :
    i.execute p activation next m =
      (i.storing p activation next i.arguments.length *> pure (some next)) m := by
  rw [storing, List.take_length]
  simp only [execute, prepare, h, if_true, Stepwise.bind_apply, Stepwise.seqRight_apply,
    Stepwise.discard_apply]
  rcases loadArguments activation.object i.arguments 0 m with ⟨_ | _, m₁⟩
  · rfl
  · dsimp only
    rcases i.opcode.perform p activation next m₁ with ⟨_ | _, m₂⟩ <;> rfl

/-- Behind an instruction with results is where one more operand would be stored. -/
theorem execute_snd (h : i.opcode.hasResult = true) :
    (i.execute p activation next m).2 =
      i.beforeStore p activation next m i.arguments.length := by
  rw [execute_apply p activation next m h, beforeStore, Stepwise.seqRight_apply]
  rcases i.storing p activation next i.arguments.length m with ⟨_ | _, m₁⟩ <;> rfl

/-- **Before the first store** the places hold what they held, and the operand registers of the
sources the values of the sources. -/
theorem prepare_spec (h : i.opcode.hasResult = true) (few : i.arguments.length ≤ 10) :
    SameStore m (i.prepare p activation next m).2 ∧
      (i.prepare p activation next m).2.audio = m.audio ∧
      (i.prepare p activation next m).2.strict = m.strict ∧
      ((i.prepare p activation next m).1 = .ok () → ∀ k argument, i.opcode.resultCount ≤ k →
        i.arguments[k]? = some argument →
        (i.prepare p activation next m).2.registers.operands.get k =
          argument.value m activation.object) := by
  obtain ⟨loaded, values, -⟩ := loadArguments_apply activation.object i.arguments 0 m
  simp only [prepare, Stepwise.bind_apply, Stepwise.discard_apply]
  rcases load : loadArguments activation.object i.arguments 0 m with ⟨_ | _, m₁⟩
  · rw [load] at loaded
    refine ⟨loaded.same, congrArg (·.toList.filter HostCall.isAudio) loaded.history, loaded.strict, ?_⟩
    intro ok
    cases ok
  · rw [load] at loaded values
    have performed := Opcode.performed_of_hasResult h p activation next m₁
    dsimp only
    refine ⟨loaded.same.trans performed.same,
      performed.audio.trans (congrArg (·.toList.filter HostCall.isAudio) loaded.history),
      performed.strict.trans loaded.strict, fun _ k argument source found => ?_⟩
    have inside : k < i.arguments.length := (List.getElem?_eq_some_iff.1 found).1
    rw [performed.sources k source, values rfl,
      Operands.get_setFrom (by rw [List.length_map]; omega), if_neg (by omega), Nat.sub_zero,
      List.getElem?_map, found]
    rfl

end Instruction

/-- Stores one behind the other. -/
theorem storeArguments_append (object : Nat) (first second : List Argument) (place : Nat) :
    storeArguments object (first ++ second) place =
      (storeArguments object first place *> storeArguments object second (place + first.length)) := by
  induction first generalizing place with
  | nil =>
    funext m
    rw [Stepwise.seqRight_apply]
    rfl
  | cons argument rest ih =>
    funext m
    simp only [List.cons_append, storeArguments, Stepwise.bind_apply, Stepwise.seqRight_apply,
      operands_apply, List.length_cons, ih]
    rcases argument.store object m.registers.operands[place] m with ⟨_ | _, m₁⟩
    · rfl
    · simp only [Nat.add_assoc, Nat.add_comm 1]

namespace Instruction

variable {i : Instruction} (p : Program) (activation : Activation) (next : Position) (m : Machine)

/-- **One more store** is that of the operand at the place. -/
theorem storing_succ {k : Nat} {argument : Argument} (found : i.arguments[k]? = some argument) :
    i.storing p activation next (k + 1) =
      (do
        i.storing p activation next k
        let o ← StageScript.operands
        argument.store activation.object (o.get k)) := by
  obtain ⟨inside, -⟩ := List.getElem?_eq_some_iff.1 found
  funext m
  simp only [storing, List.take_add_one, found, Option.toList, storeArguments_append,
    List.length_take, Nat.min_eq_left (Nat.le_of_lt inside), Stepwise.seqRight_apply, Stepwise.bind_apply,
    Nat.zero_add, operands_apply]
  rcases i.prepare p activation next m with ⟨_ | _, m₁⟩
  · rfl
  · dsimp only
    rcases storeArguments activation.object (i.arguments.take k) 0 m₁ with ⟨_ | _, m₂⟩
    · rfl
    · simp only [storeArguments, Stepwise.bind_apply, operands_apply]
      rcases argument.store activation.object m₂.registers.operands[k] m₂ with ⟨_ | _, m₃⟩ <;> rfl

/-- The first operand is stored once the results are prepared. -/
theorem beforeStore_zero :
    i.beforeStore p activation next m 0 = (i.prepare p activation next m).2 := by
  rw [beforeStore, storing, Stepwise.seqRight_apply]
  rcases i.prepare p activation next m with ⟨_ | _, m₁⟩ <;> rfl

/-- Storing operands changes nothing beside the places. -/
theorem backdrop_beforeStore {k : Nat} (inside : k ≤ i.arguments.length) :
    (i.beforeStore p activation next m k).backdrop =
      (i.prepare p activation next m).2.backdrop := by
  induction k with
  | zero => rw [beforeStore_zero]
  | succ k ih =>
    replace ih := ih (by omega)
    have found := List.getElem?_eq_getElem (show k < i.arguments.length by omega)
    rw [beforeStore] at ih ⊢
    rw [storing_succ p activation next found, Stepwise.bind_apply]
    rcases before : i.storing p activation next k m with ⟨_ | _, m₁⟩
    · rw [before] at ih
      exact ih
    · rw [before] at ih
      simp only [Stepwise.bind_apply, operands_apply]
      exact (Argument.stored_store activation.object _ _ m₁).1.backdrop.trans ih

/-- Where an operand is stored, everything before has gone well. -/
theorem prepare_of_storing {k : Nat} {m₁ : Machine}
    (h : i.storing p activation next k m = (.ok (), m₁)) :
    (i.prepare p activation next m).1 = .ok () := by
  rw [storing, Stepwise.seqRight_apply] at h
  rcases prepared : i.prepare p activation next m with ⟨_ | _, m₂⟩
  · rw [prepared] at h
    exact nomatch congrArg Prod.fst h
  · rfl

/-- **The operand that is stored** is worth, if it is a source, what it was worth at first. -/
theorem operand_of_storing (hasResult : i.opcode.hasResult = true)
    (few : i.arguments.length ≤ 10) {k : Nat} {argument : Argument} {m₁ : Machine}
    (found : i.arguments[k]? = some argument) (source : i.opcode.resultCount ≤ k)
    (h : i.storing p activation next k m = (.ok (), m₁)) :
    m₁.registers.operands.get k = argument.value m activation.object := by
  obtain ⟨-, -, -, values⟩ :=
    prepare_spec p activation next m hasResult few
  have inside : k < i.arguments.length := (List.getElem?_eq_some_iff.1 found).1
  have same := backdrop_beforeStore p activation next m (Nat.le_of_lt inside)
  rw [beforeStore, h] at same
  rw [← values (prepare_of_storing p activation next m h) k argument source found]
  exact congrArg (fun b : Backdrop => b.operands.get k) same

/-- **A place that no store can change** holds at every store what it held at first. -/
theorem content_beforeStore (hasResult : i.opcode.hasResult = true)
    (few : i.arguments.length ≤ 10) {c : Cell} (kept : ¬ i.Changes p activation next m c) {k : Nat}
    (inside : k ≤ i.arguments.length) :
    c.content (i.beforeStore p activation next m k) = c.content m := by
  induction k with
  | zero =>
    obtain ⟨same, -⟩ :=
      prepare_spec p activation next m hasResult few
    rw [beforeStore_zero, same.content]
  | succ k ih =>
    replace ih := ih (by omega)
    have found := List.getElem?_eq_getElem (show k < i.arguments.length by omega)
    generalize i.arguments[k] = argument at found
    -- What the hypothesis says of the operand that is stored here.
    have quiet : argument.cell? (i.beforeStore p activation next m k) activation.object = some c →
        i.opcode.resultCount ≤ k ∧ argument.takesBack = true ∧
          argument.cell? m activation.object = some c := by
      intro hc
      have := fun h => kept ⟨k, argument, found, hc, h⟩
      refine ⟨Nat.le_of_not_lt fun h => this (.inl h), ?_, ?_⟩
      · cases back : argument.takesBack with
        | true => rfl
        | false => exact absurd (.inr (.inl back)) this
      · exact Decidable.byContradiction fun h => this (.inr (.inr h))
    rw [beforeStore] at ih quiet ⊢
    rw [storing_succ p activation next found, Stepwise.bind_apply]
    rcases before : i.storing p activation next k m with ⟨_ | _, m₁⟩
    · rw [before] at ih
      exact ih
    · rw [before] at ih quiet
      simp only [Stepwise.bind_apply, operands_apply]
      have stored := (Argument.stored_store activation.object (m₁.registers.operands.get k)
        argument m₁).1
      by_cases hc : argument.cell? m₁ activation.object = some c
      · obtain ⟨source, back, same⟩ := quiet hc
        cases accepted : argument.accepts (m₁.registers.operands.get k) with
        | false => exact (stored.miss c fun _ => accepted).trans ih
        | true =>
          -- A source that is stored where it was loaded puts back what it found.
          rw [stored.hit c hc accepted,
            operand_of_storing p activation next m hasResult few found source before]
          exact Argument.keep_value back same
      · exact (stored.miss c fun h => absurd h hc).trans ih

/-- All calls of the host that a store makes are commands to change what is heard. -/
theorem filter_volumeCalls (argument : Argument) (w : Word) :
    (argument.volumeCalls w).filter HostCall.isAudio = argument.volumeCalls w := by
  cases argument with
  | element v address => cases v <;> rfl
  | _ => rfl

/-- **The commands that stores make** to change what is heard are one for each volume among the
operands, in their order. Only a fault cuts them short. -/
theorem audio_beforeStore (hasResult : i.opcode.hasResult = true)
    (few : i.arguments.length ≤ 10) {k : Nat} (inside : k ≤ i.arguments.length) :
    ∃ n ≤ k,
      (i.beforeStore p activation next m k).audio =
        m.audio ++ i.volumeCalls (i.prepare p activation next m).2.registers.operands n ∧
      ((i.storing p activation next k m).1 = .ok () → n = k) := by
  induction k with
  | zero =>
    obtain ⟨-, audio, -⟩ := prepare_spec p activation next m hasResult few
    refine ⟨0, Nat.le_refl _, ?_, fun _ => rfl⟩
    rw [beforeStore_zero]
    exact audio.trans (List.append_nil _).symm
  | succ k ih =>
    obtain ⟨n, le, audio, all⟩ := ih (by omega)
    have found := List.getElem?_eq_getElem (show k < i.arguments.length by omega)
    have same := backdrop_beforeStore p activation next m (show k ≤ i.arguments.length by omega)
    rw [beforeStore] at audio same ⊢
    rw [storing_succ p activation next found, Stepwise.bind_apply]
    rcases before : i.storing p activation next k m with ⟨_ | _, m₁⟩
    · rw [before] at audio
      exact ⟨n, by omega, audio, fun ok => nomatch ok⟩
    · rw [before] at audio all same
      obtain rfl := all rfl
      simp only [Stepwise.bind_apply, operands_apply]
      have stored := (Argument.stored_store activation.object (m₁.registers.operands.get n)
        i.arguments[n] m₁).1
      refine ⟨n + 1, Nat.le_refl _, ?_, fun _ => rfl⟩
      rw [Machine.audio, stored.history, List.filter_append, filter_volumeCalls,
        show m₁.history.toList.filter HostCall.isAudio = m₁.audio from rfl, audio,
        List.append_assoc, volumeCalls_succ found,
        show m₁.registers.operands = (i.prepare p activation next m).2.registers.operands from
          congrArg Backdrop.operands same]

end Instruction

/-! ## Steps -/

/-- **What an instruction with results changes.** A variable reads behind a step what it read before it,
unless one of the places that it looks at is that of a result, of a source that does not take back
what it shows, or of a source that means another place when it is stored. What is heard changes by one
command for each volume among the operands, sources or not. -/
theorem step_writeBack {p : Program} {activation : Activation} {here : Position} {m : Machine}
    {i : Instruction} {next : Nat} (decoded : Instruction.decode p.code here.pointer = .ok (i, next))
    (hasResult : i.opcode.hasResult = true) :
    let after := (step p activation here m).2
    (∀ (v : Variable) (index : Word),
      (∀ c ∈ v.support m index,
        ¬ i.Changes p activation { here with pointer := next } m c) →
      v.read? after index = v.read? m index) ∧
    ∃ n ≤ i.arguments.length,
      after.audio = m.audio ++ i.volumeCalls after.registers.operands n ∧
      ((step p activation here m).1.isOk = true → n = i.arguments.length) := by
  intro after
  have few := Instruction.length_le_of_decode decoded
  have behind : after =
      i.beforeStore p activation { here with pointer := next } m i.arguments.length := by
    rw [← Instruction.execute_snd p activation _ m hasResult, ← step_eq_execute decoded]
  have beside := Instruction.backdrop_beforeStore (i := i) p activation
    { here with pointer := next } m (Nat.le_refl _)
  obtain ⟨same, -⟩ := Instruction.prepare_spec p activation { here with pointer := next } m hasResult few
  refine ⟨fun v index kept => ?_, ?_⟩
  · rw [behind, ← same.read? v index]
    refine Variable.read?_congr beside fun c looked => ?_
    rw [same.support] at looked
    rw [same.content, Instruction.content_beforeStore p activation _ m hasResult few (kept c looked)
      (Nat.le_refl _)]
  · obtain ⟨n, le, audio, all⟩ := Instruction.audio_beforeStore p activation
      { here with pointer := next } m hasResult few (Nat.le_refl _)
    rw [← behind] at audio beside
    rw [← show after.registers.operands = (i.prepare p activation _ m).2.registers.operands from
      congrArg Backdrop.operands beside] at audio
    refine ⟨n, le, audio, fun ok => all ?_⟩
    rw [step_eq_execute decoded, Instruction.execute_apply p activation _ m hasResult,
      Stepwise.seqRight_apply] at ok
    rcases stored : i.storing p activation { here with pointer := next } i.arguments.length m
      with ⟨_ | _, m₁⟩
    · rw [stored] at ok
      cases ok
    · rfl

/-- The code of an instruction of two operands, a scratch register and another variable. -/
def instructionOf (op : Binary) (v : Variable) : Program :=
  { code := #[(Opcode.binary op).word, 1, 0, (Variable.temp 0).word, 1, 0, v.word, 0] }

/-- A machine whose players stand one and a half pixels from the edge. -/
def halfPixel : Machine :=
  { scene := { players := Vector.replicate playerCount { xPos := 98304 } }, random := .ofSeed 1 }

theorem step_writeBack_wholeX :
    Instruction.decode (instructionOf .assign (.player .wholeX)).code 0 =
        .ok (⟨0, .binary .assign, [.element (.temp 0) .self, .element (.player .wholeX) .self]⟩, 7) ∧
      (Opcode.binary .assign).hasResult = true ∧
      (Variable.player .yPos).read?
          (step (instructionOf .assign (.player .wholeX)) ⟨0, .main⟩ ⟨0, 0, 0⟩ halfPixel).2 0 =
        (Variable.player .yPos).read? halfPixel 0 := by
  have decoded : Instruction.decode (instructionOf .assign (.player .wholeX)).code 0 =
      .ok (⟨0, .binary .assign, [.element (.temp 0) .self, .element (.player .wholeX) .self]⟩, 7) :=
    Except.eq_ok_of_toOption (by decide +kernel)
  obtain ⟨kept, -⟩ := @step_writeBack (instructionOf .assign (.player .wholeX)) ⟨0, .main⟩ ⟨0, 0, 0⟩
    halfPixel _ 7 decoded rfl
  refine ⟨decoded, rfl, ?_⟩
  apply kept
  -- Neither operand ever means the vertical position, or says which player is active.
  rintro c looked ⟨k, argument, found, place, -⟩
  have operand := List.mem_of_getElem? found
  simp only [List.mem_cons, List.not_mem_nil, or_false] at operand
  obtain rfl | rfl := operand
  · obtain rfl := Option.some.inj place
    simp [Variable.support] at looked
  · obtain rfl := Option.some.inj place
    simp [Variable.support, PlayerField.toPart, PlayerField.part] at looked

/-- **Sources are not only read.** Reading the whole pixels of a position takes its fraction away, and
reading the music's volume sets it. -/
theorem not_only_read :
    (¬ ∀ (p : Program) (activation : Activation) (here : Position) (m : Machine) (i : Instruction)
        (next : Nat) (v : Variable) (index : Word),
      Instruction.decode p.code here.pointer = .ok (i, next) → i.opcode.hasResult = true →
      (∀ c ∈ v.support m index, ∀ k < i.opcode.resultCount, ∀ argument, i.arguments[k]? = some argument →
        argument.cell? m activation.object ≠ some c) →
      v.read? (step p activation here m).2 index = v.read? m index) ∧
    ¬ ∀ (p : Program) (activation : Activation) (here : Position) (m : Machine) (i : Instruction)
        (next : Nat),
      Instruction.decode p.code here.pointer = .ok (i, next) → i.opcode.hasResult = true →
      (∀ k < i.opcode.resultCount, ∀ argument w, i.arguments[k]? = some argument →
        argument.volumeCalls w = []) →
      (step p activation here m).2.audio = m.audio := by
  constructor
  · intro claim
    -- The fraction of the position is a place that no result means.
    have decoded : Instruction.decode (instructionOf .assign (.player .wholeX)).code 0 =
        .ok (⟨0, .binary .assign, [.element (.temp 0) .self, .element (.player .wholeX) .self]⟩, 7) :=
      Except.eq_ok_of_toOption (by decide +kernel)
    have kept := claim (instructionOf .assign (.player .wholeX)) ⟨0, .main⟩ ⟨0, 0, 0⟩ halfPixel _ 7
      (.player .xPos) 0 decoded rfl ?_
    · revert kept
      decide +kernel
    · intro c looked k result argument found place
      obtain rfl : k = 0 := Nat.lt_one_iff.1 result
      obtain rfl := Option.some.inj found
      obtain rfl := Option.some.inj place
      simp [Variable.support] at looked
  · intro claim
    -- The volume is set to what it is, which the host is told.
    have decoded : Instruction.decode (instructionOf .assign .musicVolume).code 0 =
        .ok (⟨0, .binary .assign, [.element (.temp 0) .self, .element .musicVolume .self]⟩, 7) :=
      Except.eq_ok_of_toOption (by decide +kernel)
    have kept := claim (instructionOf .assign .musicVolume) ⟨0, .main⟩ ⟨0, 0, 0⟩ halfPixel _ 7 decoded
      rfl ?_
    · revert kept
      decide +kernel
    · intro k result argument w found
      obtain rfl : k = 0 := Nat.lt_one_iff.1 result
      obtain rfl := Option.some.inj found
      rfl

/-! ## Results of arithmetic -/

/-- Outside strict mode an arithmetic instruction prepares its result and leaves its source as it is. -/
theorem Instruction.prepare_binary (p : Program) (activation : Activation) (next : Position)
    {m : Machine} (lax : m.strict = false) (offset : Nat) (op : Binary) (target source : Argument) :
    let i : Instruction := ⟨offset, .binary op, [target, source]⟩
    ∃ m₀, i.prepare p activation next m = (.ok (), m₀) ∧ SameStore m m₀ ∧ m₀.strict = false ∧
      m₀.registers.operands.get 0 =
        op.apply (target.value m activation.object) (source.value m activation.object) ∧
      m₀.registers.operands.get 1 = source.value m activation.object := by
  intro i
  obtain ⟨loaded, values, ok⟩ := loadArguments_apply activation.object i.arguments 0 m
  rcases load : loadArguments activation.object i.arguments 0 m with ⟨r, m₁⟩
  rw [load] at loaded values ok
  obtain rfl : r = .ok () := ok lax
  have operand (k : Nat) : m₁.registers.operands.get k =
      if k = 0 then target.value m activation.object
      else if k = 1 then source.value m activation.object else m.registers.operands.get k := by
    rw [values rfl, Operands.get_setFrom (by simp [i]), if_neg (by omega)]
    match k with
    | 0 => rfl
    | 1 => rfl
    | k + 2 => simp [i]
  have strict : m₁.strict = false := loaded.strict.trans lax
  have first : m₁.registers.operands[0] = target.value m activation.object := operand 0
  have second : m₁.registers.operands[1] = source.value m activation.object := operand 1
  have performed : op.perform m₁ = (.ok (), m₁.setOperand 0
      (op.apply (target.value m activation.object) (source.value m activation.object))) := by
    simp only [Binary.perform, Stepwise.bind_apply, Stepwise.get_apply, strict, Bool.and_false,
      Bool.false_eq_true, if_false, Stepwise.modify_apply, first, second]
  refine ⟨m₁.setOperand 0
    (op.apply (target.value m activation.object) (source.value m activation.object)), ?_,
    loaded.same.trans (.setOperand m₁ 0 _), strict, ?_, ?_⟩
  · simp only [prepare, Stepwise.bind_apply, load, Stepwise.discard_apply, i, Opcode.perform,
      Opcode.goOn_apply, performed]
    rfl
  · exact (Operands.get_set _ _ _ _ (by decide)).trans (if_pos rfl)
  · exact (Operands.get_set _ _ _ _ (by decide)).trans ((if_neg (by decide)).trans (operand 1))

/-- A store leaves the locators as they are, if it is one of a source where it was loaded, or one into a
place that is no locator. -/
theorem Argument.Stored.locators {object : Nat} {w : Word} {argument : Argument} {m m' : Machine}
    (stored : Stored object w argument m m')
    (h : ∀ c, argument.cell? m object = some c → c.isLocator = true →
      argument.keep w = c.content m) (c : Cell) (locator : c.isLocator = true) :
    c.content m' = c.content m := by
  by_cases hc : argument.cell? m object = some c
  · cases accepted : argument.accepts w with
    | false => exact stored.miss c fun _ => accepted
    | true => exact (stored.hit c hc accepted).trans (h c hc locator)
  · exact stored.miss c fun h => absurd h hc

/-- A store through a variable that stores every word does not make another operand mean its place. -/
theorem Argument.Stored.cell?_eq_iff {object : Nat} {w : Word} {v : Variable} {address : Address}
    {m m' : Machine} {c : Cell} (stored : Stored object w (.element v address) m m')
    (storesAny : v.storesAny = true) (hc : (Argument.element v address).cell? m object = some c)
    (argument : Argument) :
    argument.cell? m' object = some c ↔ argument.cell? m object = some c := by
  cases locator : c.isLocator with
  | true =>
    -- An index register may move other operands, but none of those comes to mean a register.
    obtain ⟨register, rfl⟩ := (Variable.of_isLocator hc locator).2 storesAny
    obtain rfl := Option.some.inj hc
    exact ⟨Argument.cell?_arrayPos, Argument.cell?_arrayPos⟩
  | false =>
    rw [Argument.cell?_congr stored.backdrop]
    refine stored.locators fun c' hc' locator' => ?_
    obtain rfl := Option.some.inj (hc.symm.trans hc')
    rw [locator] at locator'
    cases locator'

/-- **A variable that stores every word keeps its place** while an instruction stores its result there
and puts the source back. -/
theorem cell?_of_stored {object : Nat} {w b : Word} {v : Variable} {address : Address}
    {source : Argument} {m m₁ m₂ : Machine} {c : Cell} {index : Word}
    (storesAny : v.storesAny = true) (hc : v.cell? m.scene index = some c)
    (target : (Argument.element v address).cell? m object = some c)
    (first : Argument.Stored object w (.element v address) m m₁)
    (second : Argument.Stored object b source m₁ m₂) (operand : source.value m object = b) :
    v.cell? m₂.scene index = some c := by
  cases locator : c.isLocator with
  | true =>
    obtain ⟨register, rfl⟩ := (Variable.of_isLocator hc locator).2 storesAny
    exact hc
  | false =>
    have other {c' : Cell} (h : c'.isLocator = true) : c' ≠ c := by
      rintro rfl
      rw [locator] at h
      cases h
    have locators : ∀ c' : Cell, c'.isLocator = true → c'.content m₁ = c'.content m :=
      fun c' h => first.miss c' fun hc' => absurd (Option.some.inj (hc'.symm.trans target)) (other h)
    have same := Argument.cell?_congr first.backdrop locators object source
    rw [Variable.cell?_congr second.backdrop, Variable.cell?_congr first.backdrop locators, hc]
    -- The source is put back where it was loaded, so that it changes no locator.
    refine second.locators fun c' hc' h => ?_
    rw [same] at hc'
    have back : source.takesBack = true := by
      cases source with
      | element v' address' => exact (Variable.of_isLocator hc' h).1
      | _ => rfl
    rw [← operand, Argument.keep_value back hc', locators c' h]

/-- **The result of an arithmetic instruction.** Outside strict mode an instruction whose first operand
is a variable that stores every word leaves there what the operator makes of the two values read before
it, unless the second operand shares the place of the first: then the second operand, which is stored
last, puts its own old value there. -/
theorem step_binary {p : Program} {activation : Activation} {here : Position} {m : Machine}
    {op : Binary} {v : Variable} {address : Address} {source : Argument} {next : Nat} {a b : Word}
    (lax : m.strict = false)
    (decoded : Instruction.decode p.code here.pointer =
      .ok (⟨here.pointer, .binary op, [.element v address, source]⟩, next))
    (storesAny : v.storesAny = true)
    (target : v.read? m (address.index m activation.object) = some a)
    (operand : source.value m activation.object = b) :
    ∃ m', step p activation here m = (.ok (some { here with pointer := next }), m') ∧
      v.read? m' (address.index m activation.object) =
        some (if source.cell? m activation.object =
            (Argument.element v address).cell? m activation.object then source.keep b
          else op.apply a b) := by
  have writable := Variable.isReadOnly_of_storesAny storesAny
  rw [Variable.read?_eq m _ writable] at target
  obtain ⟨c, hc, rfl⟩ := Option.map_eq_some_iff.1 target
  rw [Variable.view_of_storesAny storesAny]
  obtain ⟨m₀, prepared, same, lax₀, result, second⟩ := Instruction.prepare_binary p activation
    { here with pointer := next } lax here.pointer op (.element v address) source
  -- The two stores, and what they leave in the place of the target.
  have place : (Argument.element v address).cell? m activation.object = some c := hc
  have place₀ : (Argument.element v address).cell? m₀ activation.object = some c :=
    (same.cell? _ _).trans place
  obtain ⟨stored₁, ok₁⟩ := Argument.stored_store activation.object (m₀.registers.operands.get 0)
    (.element v address) m₀
  rcases store₁ : (Argument.element v address).store activation.object
    (m₀.registers.operands.get 0) m₀ with ⟨r₁, m₁⟩
  rw [store₁] at stored₁ ok₁
  obtain rfl : r₁ = .ok () := ok₁ lax₀
  have lax₁ : m₁.strict = false := (congrArg Backdrop.strict stored₁.backdrop).trans lax₀
  have second₁ : m₁.registers.operands.get 1 = b :=
    (congrArg (fun d : Backdrop => d.operands.get 1) stored₁.backdrop).trans (second.trans operand)
  obtain ⟨stored₂, ok₂⟩ := Argument.stored_store activation.object (m₁.registers.operands.get 1)
    source m₁
  rcases store₂ : source.store activation.object (m₁.registers.operands.get 1) m₁ with ⟨r₂, m₂⟩
  rw [store₂] at stored₂ ok₂
  obtain rfl : r₂ = .ok () := ok₂ lax₁
  rw [second₁] at stored₂
  have content₁ : c.content m₁ = op.apply (c.content m) b := by
    have : (Argument.element v address).value m activation.object = c.content m := by
      rw [Argument.value, Variable.read?_eq m _ writable, hc, Option.map_some,
        Variable.view_of_storesAny storesAny]
      rfl
    rw [stored₁.hit c place₀ (Variable.accepts_of_storesAny storesAny _), result, this, operand]
    exact Variable.keep_of_storesAny storesAny _
  have shared : source.cell? m₁ activation.object = some c ↔
      source.cell? m activation.object = some c := by
    rw [stored₁.cell?_eq_iff storesAny place₀, same.cell?]
  have content₂ : c.content m₂ =
      if source.cell? m activation.object = some c then source.keep b
      else op.apply (c.content m) b := by
    split
    · rename_i h
      refine stored₂.hit c (shared.2 h) ?_
      cases source with
      | element v' address' => exact Variable.accepts_of_cell? storesAny hc h b
      | _ => cases h
    · rename_i h
      exact (stored₂.miss c fun h' => absurd (shared.1 h') h).trans content₁
  have stores : storeArguments activation.object [.element v address, source] 0 m₀ =
      (.ok (), m₂) := by
    simp only [storeArguments, Stepwise.bind_apply, operands_apply]
    rw [show m₀.registers.operands[0] = m₀.registers.operands.get 0 from rfl, store₁]
    dsimp only
    rw [show m₁.registers.operands[0 + 1] = m₁.registers.operands.get 1 from rfl, store₂]
    rfl
  refine ⟨m₂, ?_, ?_⟩
  · rw [step_eq_execute decoded, Instruction.execute_apply p activation _ m rfl,
      Stepwise.seqRight_apply, Instruction.storing, Stepwise.seqRight_apply, prepared]
    simp only [List.take_length, stores, Stepwise.pure_apply]
  · have kept : v.cell? m₂.scene (address.index m activation.object) = some c := by
      rw [← same.scene] at hc
      exact cell?_of_stored storesAny hc place₀ stored₁ stored₂
        ((same.value _ _).trans operand)
    rw [Variable.read?_eq m₂ _ writable, kept, Option.map_some,
      Variable.view_of_storesAny storesAny, content₂, place]

/-- A machine with two numbers in scratch registers. -/
def threeFour : Machine :=
  { registers := { tempValues := #v[3, 4, 0, 0, 0, 0, 0, 0] }, random := .ofSeed 1 }

theorem step_binary_add :
    ∃ m', step (instructionOf .add (.temp 1)) ⟨0, .main⟩ ⟨0, 0, 0⟩ threeFour =
        (.ok (some ⟨7, 0, 0⟩), m') ∧
      (Variable.temp 0).read? m' 0 = some 7 := by
  have decoded : Instruction.decode (instructionOf .add (.temp 1)).code 0 =
      .ok (⟨0, .binary .add, [.element (.temp 0) .self, .element (.temp 1) .self]⟩, 7) :=
    Except.eq_ok_of_toOption (by decide +kernel)
  exact @step_binary (instructionOf .add (.temp 1)) ⟨0, .main⟩ ⟨0, 0, 0⟩ threeFour .add (.temp 0) .self (.element (.temp 1) .self)
    7 3 4 rfl decoded rfl rfl rfl

/-- **A variable added to itself** keeps its value, for it is stored as the source behind the result. -/
theorem not_doubled :
    ¬ ∀ (p : Program) (activation : Activation) (here : Position) (m : Machine) (op : Binary)
        (v : Variable) (address : Address) (source : Argument) (next : Nat) (a : Word),
      m.strict = false →
      Instruction.decode p.code here.pointer =
        .ok (⟨here.pointer, .binary op, [.element v address, source]⟩, next) →
      v.storesAny = true →
      v.read? m (address.index m activation.object) = some a →
      v.read? (step p activation here m).2 (address.index m activation.object) =
        some (op.apply a (source.value m activation.object)) := by
  intro claim
  have decoded : Instruction.decode (instructionOf .add (.temp 0)).code 0 =
      .ok (⟨0, .binary .add, [.element (.temp 0) .self, .element (.temp 0) .self]⟩, 7) :=
    Except.eq_ok_of_toOption (by decide +kernel)
  have doubled := claim (instructionOf .add (.temp 0)) ⟨0, .main⟩ ⟨0, 0, 0⟩ threeFour .add (.temp 0) .self
    (.element (.temp 0) .self) 7 3 rfl decoded rfl rfl
  revert doubled
  decide +kernel

end StageScript
