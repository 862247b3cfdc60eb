import StageScript.Proofs.Machine.Execution

/-! # Operand registers are scratch
Ten operand registers hold what an instruction works on. They are never cleared, and most instructions
take fewer operands than there are registers, so that words of earlier instructions stand behind them.
* `Operands.Agree` — operand registers that hold the same in front of a place;
* **`Exec.Sees`** — a step that sees the registers in front of a place only;
* **`Opcode.sees_perform`** — an instruction sees as many registers as it has operands. -/

namespace StageScript

/-! ## Operand registers -/

namespace Operands

/-- The first registers hold the same. -/
def Agree (n : Nat) (o o' : Operands) : Prop := ∀ k < n, o'[k] = o[k]

variable {n n' : Nat} {o o' : Operands}

theorem Agree.refl (n : Nat) (o : Operands) : Agree n o o := fun _ _ => rfl

/-- A register in front holds the same. -/
theorem Agree.eq (h : Agree n o o') {k : Nat} (front : k < n) : o'[k] = o[k] := h k front

theorem Agree.mono (h : Agree n o o') (fewer : n' ≤ n) : Agree n' o o' :=
  fun k front => h k (Nat.lt_of_lt_of_le front fewer)

theorem getElem_set (o : Operands) (place k : Nat) (w : Word) :
    (o.set place w)[k] = if place = k ∧ k < 10 then w else o[k] := by
  show (o.words.setIfInBounds place w)[k]?.getD 0 = _
  rw [Vector.getElem?_setIfInBounds]
  by_cases same : place = k
  · subst same
    by_cases front : place < 10
    · simp [front]
    · have beyond : o[place] = 0 := by
        show o.words[place]?.getD 0 = 0
        rw [Vector.getElem?_eq_none (Nat.le_of_not_lt front)]
        rfl
      simp [front, beyond]
  · simp only [same, if_false, false_and]
    rfl

/-- A change of a register, the same on both sides. -/
theorem Agree.set (h : Agree n o o') (place : Nat) (w : Word) :
    Agree n (o.set place w) (o'.set place w) := by
  intro k front
  rw [getElem_set, getElem_set, h k front]

/-- A register that is set no longer holds what was there before. -/
theorem Agree.load (h : Agree n o o') (w : Word) : Agree (n + 1) (o.set n w) (o'.set n w) := by
  intro k front
  rw [getElem_set, getElem_set]
  rcases Nat.lt_or_eq_of_le (Nat.le_of_lt_succ front) with before | rfl
  · rw [h k before]
  · by_cases inside : k < 10
    · rw [if_pos ⟨rfl, inside⟩, if_pos ⟨rfl, inside⟩]
    · -- beyond the last register everything is zero
      have beyond (o : Operands) : o[k] = 0 := by
        show o.words[k]?.getD 0 = 0
        rw [Vector.getElem?_eq_none (Nat.le_of_not_lt inside)]
        rfl
      rw [beyond, beyond]

end Operands

namespace Machine

/-- A machine with other operand registers. -/
def withOperands (m : Machine) (o : Operands) : Machine :=
  m.modifyRegisters fun r => { r with operands := o }

variable (m : Machine) (o : Operands)

@[simp] theorem operands_withOperands : (m.withOperands o).registers.operands = o := rfl

@[simp] theorem scene_withOperands : (m.withOperands o).scene = m.scene := rfl

@[simp] theorem random_withOperands : (m.withOperands o).random = m.random := rfl

@[simp] theorem host_withOperands : (m.withOperands o).host = m.host := rfl

@[simp] theorem history_withOperands : (m.withOperands o).history = m.history := rfl

@[simp] theorem scriptText_withOperands : (m.withOperands o).scriptText = m.scriptText := rfl

@[simp] theorem typeData_withOperands (type : UInt8) :
    (m.withOperands o).typeData type = m.typeData type := rfl

@[simp] theorem objectType_withOperands (object : Nat) :
    (m.withOperands o).objectType object = m.objectType object := rfl

@[simp] theorem modifyScene_withOperands (change : Scene → Scene) :
    (m.withOperands o).modifyScene change = (m.modifyScene change).withOperands o := rfl

@[simp] theorem modifyType_withOperands (type : UInt8) (change : TypeData → TypeData) :
    (m.withOperands o).modifyType type change = (m.modifyType type change).withOperands o := rfl

@[simp] theorem call_withOperands (c : HostCall) :
    (m.withOperands o).call c = (m.call c).withOperands o := rfl

@[simp] theorem answer_withOperands (w : Word) :
    (m.withOperands o).answer w = (m.answer w).withOperands o := rfl

/-- A machine with its own operand registers. -/
theorem withOperands_self : m.withOperands m.registers.operands = m := rfl

end Machine

/-! ## Steps that do not see all registers -/

namespace Exec

open Machine Stepwise

variable {α β : Type} {n k n' : Nat}

/-- **A step sees the first `n` operand registers only**, and makes the first `n'` of them known:
whatever the others hold, it has the same answer and leaves the same machine but for operand registers, of
which the first `n'` hold the same if it succeeds. -/
structure Sees (n n' : Nat) (x : Exec α) : Prop where
  blind : ∀ m o, m.registers.operands.Agree n o → ∃ o',
    x (m.withOperands o) = ((x m).1, (x m).2.withOperands o') ∧
      ∀ a, (x m).1 = .ok a → (x m).2.registers.operands.Agree n' o'

namespace Sees

/-- Fewer registers may be known behind a step. -/
theorem forget {x : Exec α} (h : Sees n n' x) (fewer : k ≤ n') : Sees n k x := by
  constructor
  intro m o agree
  obtain ⟨o', ran, agree'⟩ := h.blind m o agree
  exact ⟨o', ran, fun a succeeds => (agree' a succeeds).mono fewer⟩

/-- A result that is known beforehand. -/
protected theorem mk_pure (x : Except Fault α) : Sees n n (ExceptT.mk (pure x) : Exec α) :=
  ⟨fun _ o agree => ⟨o, rfl, fun _ _ => agree⟩⟩

protected theorem pure (a : α) : Sees n n (pure a : Exec α) := .mk_pure (.ok a)

protected theorem throw (fault : Fault) : Sees n n' (throw fault : Exec α) :=
  ⟨fun _ o _ => ⟨o, rfl, nofun⟩⟩

protected theorem bind {x : Exec α} {f : α → Exec β} (hx : Sees n k x) (hf : ∀ a, Sees k n' (f a)) :
    Sees n n' (x >>= f) := by
  constructor
  intro m o agree
  obtain ⟨o', ran, agree'⟩ := hx.blind m o agree
  rcases first : x m with ⟨fault | a, m'⟩
  · rw [first] at ran
    rw [bind_apply_of_error ran, bind_apply_of_error first]
    exact ⟨o', rfl, nofun⟩
  · rw [first] at ran agree'
    rw [bind_apply_of_ok ran, bind_apply_of_ok first]
    exact (hf a).blind m' o' (agree' a rfl)

protected theorem seqRight {x : Exec α} {y : Exec β} (hx : Sees n k x) (hy : Sees k n' y) :
    Sees n n' (x *> y) :=
  hx.bind fun _ => hy

protected theorem map (f : α → β) {x : Exec α} (hx : Sees n n' x) : Sees n n' (f <$> x) := by
  rw [map_eq_pure_bind]
  exact hx.bind fun a => .pure (f a)

protected theorem discard {x : Exec α} (hx : Sees n n' x) : Sees n n' (discard x) := hx.map _

protected theorem ite {c : Prop} [Decidable c] {x y : Exec α} (hx : Sees n n' x) (hy : Sees n n' y) :
    Sees n n' (if c then x else y) := by
  split
  · exact hx
  · exact hy

/-- A step that looks at the machine first, but at no operand register that it must not see. -/
protected theorem get {f : Machine → Exec α}
    (same : ∀ m o, m.registers.operands.Agree n o → f (m.withOperands o) = f m)
    (hf : ∀ m, Sees n n' (f m)) : Sees n n' (get >>= f) := by
  constructor
  intro m o agree
  show ∃ o', f (m.withOperands o) (m.withOperands o) = _ ∧ _
  rw [same m o agree]
  exact (hf m).blind m o agree

/-- A step that goes by the first operands. -/
protected theorem operands {f : Operands → Exec α} (same : ∀ o o', o.Agree n o' → f o' = f o)
    (hf : ∀ o, Sees n n' (f o)) : Sees n n' (operands >>= f) := by
  constructor
  intro m o agree
  show ∃ o', f o (m.withOperands o) = _ ∧ _
  rw [same _ o agree]
  exact (hf _).blind m o agree

protected theorem currentScene : Sees n n currentScene :=
  ⟨fun _ o agree => ⟨o, rfl, fun _ _ => agree⟩⟩

/-- A change of the machine, which may set operand registers. -/
theorem change {f : Machine → Machine}
    (h : ∀ m o, m.registers.operands.Agree n o → ∃ o',
      f (m.withOperands o) = (f m).withOperands o' ∧ (f m).registers.operands.Agree n' o') :
    Sees n n' (modify f : Exec PUnit) := by
  constructor
  intro m o agree
  obtain ⟨o', changed, agree'⟩ := h m o agree
  exact ⟨o', congrArg (Prod.mk (Except.ok PUnit.unit)) changed, fun _ _ => agree'⟩

/-- A change of the machine that goes by the first operands and leaves all of them. -/
protected theorem modify {f : Machine → Machine}
    (h : ∀ m o, m.registers.operands.Agree n o → f (m.withOperands o) = (f m).withOperands o) :
    Sees n n (modify f : Exec PUnit) := by
  refine change fun m o agree => ⟨o, h m o agree, ?_⟩
  -- the step leaves the operands of `m` too, which is the case of `o` being these
  have left : f m = (f m).withOperands m.registers.operands := h m _ (.refl n _)
  rw [left]
  exact agree

theorem setOperand (place : Nat) (w : Word) : Sees n n (modify (·.setOperand place w) : Exec PUnit) :=
  change fun _ o agree => ⟨o.set place w, rfl, agree.set place w⟩

/-- A register that is loaded is known from then on. -/
theorem load (n : Nat) (w : Word) : Sees n (n + 1) (modify (·.setOperand n w) : Exec PUnit) :=
  change fun _ o agree => ⟨o.set n w, rfl, agree.load w⟩

/-- A result in the first register, which goes by the first operands. -/
theorem leave {f : Machine → Machine} {g : Machine → Word}
    (hf : ∀ m o, m.registers.operands.Agree n o → f (m.withOperands o) = (f m).withOperands o)
    (hg : ∀ m o, m.registers.operands.Agree n o → g (m.withOperands o) = g m) :
    Sees n n (modify fun m => (f m).setOperand 0 (g m) : Exec PUnit) := by
  refine change fun m o agree => ⟨o.set 0 (g m), ?_, ?_⟩
  · rw [hf m o agree, hg m o agree]
    rfl
  · have left : f m = (f m).withOperands m.registers.operands := hf m _ (.refl n _)
    rw [left]
    exact agree.set 0 (g m)

theorem outOfRange (subject : String) (index : Word) : Sees n n (outOfRange subject index) :=
  .get (fun _ _ _ => rfl) fun _ => .ite (.throw _) (.pure _)

/-- A change of the machine that may be out of range. -/
theorem attempt {f : Machine → Option Machine} {i : Machine → Word} {x : Exec PUnit} (subject : String)
    (eq : ∀ m, x m = match f m with
      | some m' => (.ok ⟨⟩, m')
      | none => StageScript.outOfRange subject (i m) m)
    (hf : ∀ m o, m.registers.operands.Agree n o → f (m.withOperands o) = (f m).map (·.withOperands o))
    (same : ∀ m o, m.registers.operands.Agree n o → i (m.withOperands o) = i m) : Sees n n x := by
  constructor
  intro m o agree
  rw [eq, eq, hf m o agree, same m o agree]
  cases found : f m with
  | none => exact (outOfRange subject (i m)).blind m o agree
  | some m' =>
    refine ⟨o, rfl, fun _ _ => ?_⟩
    -- the change leaves the operands of `m` too, which is the case of `o` being these
    have left := hf m _ (.refl n _)
    rw [withOperands_self, found] at left
    rw [Option.some.inj left]
    exact agree

end Sees

end Exec

/-! ## Instructions on data -/

open Exec Machine Operands

theorem Binary.sees_perform (op : Binary) : Sees op.signature.arity op.signature.arity op.perform := by
  have arity : op.signature.arity = 2 := by cases op <;> rfl
  rw [arity]
  refine .get (fun m o agree => ?_) fun m => ?_
  · simp (disch := decide) only [operands_withOperands, agree.eq]
    rfl
  · dsimp only
    split
    · exact .throw _
    · exact .setOperand _ _

theorem Unary.sees_perform (op : Unary) : Sees op.signature.arity op.signature.arity op.perform := by
  have arity : op.signature.arity = 1 := by cases op <;> rfl
  rw [arity]
  refine .leave (fun _ _ _ => rfl) fun m o agree => ?_
  rw [operands_withOperands, agree.eq (by decide)]

theorem Check.sees_perform (op : Check) : Sees op.signature.arity op.signature.arity op.perform := by
  have arity : op.signature.arity = 2 := by cases op <;> rfl
  rw [arity]
  refine .modify fun m o agree => ?_
  simp (disch := decide) only [operands_withOperands, agree.eq]
  rfl

theorem sees_performRandom : Sees 2 2 performRandom := by
  refine .change fun m o agree => ?_
  have left (random : Random) (w : Word) : ({ m.withOperands o with random }).setOperand 0 w =
      (({ m with random } : Machine).setOperand 0 w).withOperands (o.set 0 w) := rfl
  have kept (random : Random) (w : Word) :
      Agree 2 (({ m with random } : Machine).setOperand 0 w).registers.operands (o.set 0 w) :=
    agree.set 0 w
  rw [operands_withOperands, agree.eq (by decide), random_withOperands]
  split
  · exact ⟨o.set 0 0, left m.random 0, kept m.random 0⟩
  · exact ⟨o.set 0 0, left m.random 0, kept m.random 0⟩
  · exact ⟨o.set 0 _, left _ _, kept _ _⟩

theorem Formula.sees_perform (f : Formula) : Sees f.signature.arity f.signature.arity f.perform := by
  have applied (m : Machine) (o : Operands) (g : Operands → Operands) :
      (m.withOperands o).modifyRegisters (fun r => { r with operands := g r.operands }) =
        (m.modifyRegisters fun r => { r with operands := g r.operands }).withOperands (g o) := rfl
  refine .change fun m o agree => ⟨f.apply o, applied m o f.apply, ?_⟩
  have first : f.first o = f.first m.registers.operands := by
    cases f <;> simp (disch := decide) only [first, agree.eq]
  show Agree _ (f.apply m.registers.operands) (f.apply o)
  cases f
  case interpolateXY =>
    -- the only formula with two results
    simp (disch := decide) only [apply, first, agree.eq]
    exact (agree.set 0 _).set 1 _
  all_goals
    simp only [apply, first]
    exact agree.set 0 _

/-! ### Commands to the host -/

theorem Drawing.letters_withOperands (m : Machine) (o : Operands) (object : Nat) (l : Lettering)
    (x : Word) (text : Text) :
    letters (m.withOperands o) object l x text = letters m object l x text := by
  induction text generalizing x with
  | nil => rfl
  | cons c rest ih =>
    rw [letters, ih]
    rfl

/-- What a drawing instruction draws goes by its operands. -/
theorem Drawing.commands_withOperands (op : Drawing) (object : Nat) {m : Machine} {o : Operands}
    (agree : m.registers.operands.Agree op.signature.arity o) :
    op.commands (m.withOperands o) object = op.commands m object := by
  cases op
  case actName =>
    simp (disch := decide) only [commands, title, operands_withOperands, agree.eq]
    exact letters_withOperands ..
  case tintRect | rect | lifeIcon | clearScreen | screenFade =>
    simp (disch := decide) only [commands, operands_withOperands, agree.eq]
  all_goals
    simp (disch := decide) only [commands, digits, operands_withOperands, agree.eq]
    rfl

theorem Drawing.sees_perform (run : Activation) (op : Drawing) :
    Sees op.signature.arity op.signature.arity (op.perform run) := by
  refine .modify fun m o agree => ?_
  rw [op.commands_withOperands run.object agree]
  generalize op.commands m run.object = commands
  clear agree
  induction commands generalizing m with
  | nil => rfl
  | cons c rest ih => rw [List.foldl_cons, call_withOperands, ih, List.foldl_cons]

theorem Palette.sees_perform (op : Palette) :
    Sees op.signature.arity op.signature.arity op.perform := by
  refine .modify fun m o agree => ?_
  have command : op.command o m.scriptText = op.command m.registers.operands m.scriptText := by
    cases op <;> simp (disch := decide) only [command, agree.eq]
  rw [operands_withOperands, scriptText_withOperands, command, call_withOperands]

theorem Audio.sees_perform (op : Audio) :
    Sees op.signature.arity op.signature.arity op.perform := by
  refine .modify fun m o agree => ?_
  have command : op.command o m.scriptText = op.command m.registers.operands m.scriptText := by
    cases op <;> simp (disch := decide) only [command, agree.eq]
  have scene : op.scene o = op.scene m.registers.operands := by
    funext s
    cases op <;> simp (disch := decide) only [scene, agree.eq]
  simp only [operands_withOperands, scriptText_withOperands, command, scene, call_withOperands,
    modifyScene_withOperands]

theorem Platform.sees_perform (op : Platform) :
    Sees op.signature.arity op.signature.arity op.perform := by
  refine .modify fun m o agree => ?_
  cases op
  case readSave =>
    simp only [readSaveFile, host_withOperands, history_withOperands, call_withOperands]
    cases m.host.saved m.history with
    | none => exact answer_withOperands ..
    | some words =>
      dsimp only
      rw [modifyScene_withOperands, answer_withOperands]
  case loadStage => rw [modifyScene_withOperands, call_withOperands]
  case writeSave => rw [writeSaveFile, writeSaveFile, host_withOperands, history_withOperands,
    scene_withOperands, call_withOperands, answer_withOperands]
  all_goals simp (disch := decide) only [command?, operands_withOperands, scriptText_withOperands,
    agree.eq, call_withOperands]

/-! ### What types load -/

theorem Sheet.frameOf_congr {o o' : Operands} {start n : Nat} (agree : o.Agree n o')
    (front : start + 6 ≤ n) : frameOf o' start = frameOf o start := by
  simp (disch := omega) only [frameOf, agree.eq]

theorem Sheet.sees_changeFrame (run : Activation) : Sees 7 7 (changeFrame run) := by
  refine .attempt (i := fun m => m.registers.operands[0]) (f := fun m =>
      let first := (m.typeData (m.objectType run.object)).frameListOffset
      (m.registers.operands[0].index?.filter fun k => first + k < m.scene.spriteFrames.size).map
        fun k => m.modifyScene fun s =>
          { s with spriteFrames :=
              s.spriteFrames.setIfInBounds (first + k) (frameOf m.registers.operands 1) })
    "EditFrame" (fun m => ?_) (fun m o agree => ?_) fun m o agree => agree.eq (by decide)
  · simp only [changeFrame, Stepwise.bind_apply, Stepwise.get_apply]
    cases m.registers.operands[0].index?.filter fun k =>
      (m.typeData (m.objectType run.object)).frameListOffset + k < m.scene.spriteFrames.size <;> rfl
  · have frame : frameOf o 1 = frameOf m.registers.operands 1 := frameOf_congr agree (Nat.le_refl 7)
    simp (disch := decide) only [operands_withOperands, agree.eq, frame, typeData_withOperands,
      objectType_withOperands, scene_withOperands, Option.map_map]
    rfl

theorem Sheet.sees_perform (run : Activation) (op : Sheet) :
    Sees op.signature.arity op.signature.arity (op.perform run) := by
  cases op with
  | load => exact .modify fun _ _ _ => rfl
  | remove => exact .modify fun _ _ _ => rfl
  | addFrame =>
    refine .modify fun m o agree => ?_
    have frame : frameOf o 0 = frameOf m.registers.operands 0 := frameOf_congr agree (Nat.le_refl 6)
    simp only [appendFrame, operands_withOperands, frame, scene_withOperands,
      modifyScene_withOperands, modifyType_withOperands, objectType_withOperands]
    exact (apply_ite (Machine.withOperands · o) _ _ _).symm
  | editFrame => exact sees_changeFrame run

theorem AnimationOp.obtain_withOperands (m : Machine) (path : String) (o : Operands) :
    obtain (m.withOperands o) path = ((obtain m path).1, (obtain m path).2.withOperands o) := by
  simp only [obtain, scene_withOperands, host_withOperands, history_withOperands]
  cases loaded? m.scene path with
  | some k => rfl
  | none => cases m.host.animation m.history path <;> rfl

theorem AnimationOp.sees_perform (run : Activation) (op : AnimationOp) :
    Sees op.signature.arity op.signature.arity (op.perform run) := by
  cases op with
  | load =>
    refine .modify fun m o _ => ?_
    simp only [loadFile, scriptText_withOperands, obtain_withOperands]
    rcases obtain m m.scriptText with ⟨_ | _, _⟩ <;> rfl
  | process =>
    refine .modify fun m o _ => ?_
    have same : file? (m.withOperands o) run = file? m run := rfl
    simp only [advance, same]
    cases file? m run <;> cases Scene.entitySlot? run.object <;> rfl
  | getByName => exact .leave (fun _ _ _ => rfl) fun _ _ _ => rfl

/-! ### Menus -/

theorem MenuOp.sees_change {n : Nat} (subject : String) (number : Word) (f : TextMenu → TextMenu) :
    Sees n n (change subject number f) := by
  unfold change
  split
  · exact .modify fun _ _ _ => rfl
  · exact .outOfRange _ _

theorem MenuOp.sees_editRow {n : Nat} (o : Operands) (text : String) : Sees n n (editRow o text) := by
  refine .bind .currentScene fun s => ?_
  dsimp only
  split
  · exact .modify fun _ _ _ => rfl
  · exact .outOfRange _ _

theorem MenuOp.sees_loadRows : Sees 3 3 (modify loadRows : Exec Unit) := by
  refine .modify fun m o agree => ?_
  simp (disch := decide) only [loadRows, operands_withOperands, agree.eq, host_withOperands,
    history_withOperands, scriptText_withOperands, call_withOperands]
  split
  · exact modifyScene_withOperands ..
  · rfl

theorem MenuOp.sees_perform (op : MenuOp) : Sees op.signature.arity op.signature.arity op.perform := by
  refine .operands (fun o o' agree => ?_) fun o => ?_
  · cases op <;> simp (disch := decide) only [editRow, information, agree.eq]
  · cases op with
    | setup => exact sees_change _ _ _
    | addEntry => exact .get (fun _ _ _ => rfl) fun _ => sees_change _ _ _
    | editEntry => exact .get (fun _ _ _ => rfl) fun m => sees_editRow o m.scriptText
    | loadText => exact sees_loadRows
    | getInfo => exact .leave (fun _ _ _ => rfl) fun _ _ _ => rfl
    | addVersion => exact .bind .currentScene fun _ => sees_change _ _ _

/-! ### Objects and layers -/

theorem ObjectOp.sees_resetSlot {n : Nat} (o : Operands) : Sees n n (resetSlot o) := by
  unfold resetSlot
  split
  · exact .modify fun _ _ _ => rfl
  · exact .outOfRange _ _

theorem ObjectOp.sees_bind {n : Nat} (o : Operands) : Sees n n (ObjectOp.bind o) := by
  unfold ObjectOp.bind
  split
  · exact .modify fun _ _ _ => rfl
  · exact .outOfRange _ _
  · exact .outOfRange _ _

theorem ObjectOp.sees_createTemporary : Sees 4 4 (modify createTemporary : Exec Unit) := by
  refine .modify fun m o agree => ?_
  simp (disch := decide) only [createTemporary, operands_withOperands, agree.eq]
  split
  · rfl
  · rfl

theorem ObjectOp.sees_askPlayer (run : Activation) :
    Sees 5 5 (modify (askPlayer · run) : Exec Unit) := by
  refine .modify fun m o agree => ?_
  simp (disch := decide) only [askPlayer, operands_withOperands, agree.eq]
  rfl

theorem ObjectOp.sees_perform (run : Activation) (op : ObjectOp) :
    Sees op.signature.arity op.signature.arity (op.perform run) := by
  refine .operands (fun o o' agree => ?_) fun o => ?_
  · cases op
    case checkTouch =>
      have touches (t : TouchPoint) : touches o' t = touches o t := by
        simp (disch := decide) only [touches, agree.eq]
      simp only [touching, touches]
    all_goals simp (disch := decide) only [resetSlot, ObjectOp.bind, tileQuery, agree.eq]
  · cases op with
    | reset => exact sees_resetSlot o
    | createTemp => exact sees_createTemporary
    | bindPlayer => exact sees_bind o
    | playerCollision => exact sees_askPlayer run
    | playerTiles => exact .modify fun _ _ _ => rfl
    | playerControl => exact .modify fun _ _ _ => rfl
    | tileCollision => exact .modify fun _ _ _ => rfl
    | tileGrip => exact .modify fun _ _ _ => rfl
    | checkTouch => exact .modify fun _ _ _ => rfl

theorem Space.sees_changeMatrix {n : Nat} (subject : String) (number : Word) (f : Matrix → Matrix) :
    Sees n n (changeMatrix subject number f) := by
  refine .bind .currentScene fun s => ?_
  split
  · exact .modify fun _ _ _ => rfl
  · exact .outOfRange _ _

theorem Space.sees_multiplyBy {n : Nat} (o : Operands) : Sees n n (multiplyBy o) := by
  refine .bind .currentScene fun s => ?_
  dsimp only
  split
  · exact sees_changeMatrix _ _ _
  · exact .outOfRange _ _
  · exact .outOfRange _ _

theorem Space.sees_transformRange {n : Nat} (o : Operands) : Sees n n (transformRange o) := by
  refine .bind .currentScene fun s => ?_
  split
  · exact .modify fun _ _ _ => modifyScene_withOperands ..
  · exact .outOfRange _ _

theorem Space.sees_perform (op : Space) : Sees op.signature.arity op.signature.arity op.perform := by
  refine .operands (fun o o' agree => ?_) fun o => ?_
  · cases op <;> simp (disch := decide) only [matrix?, multiplyBy, transformRange, agree.eq, if_true]
  · split
    · exact sees_changeMatrix _ _ _
    · exact .ite (sees_multiplyBy o) (sees_transformRange o)

theorem LayerOp.sees_setWave {n : Nat} (o : Operands) : Sees n n (setWave o) := by
  unfold setWave
  split
  · exact .pure _
  · refine .bind .currentScene fun s => ?_
    split
    · exact .modify fun _ _ _ => rfl
    · exact .outOfRange _ _

theorem LayerOp.sees_perform (op : LayerOp) : Sees op.signature.arity op.signature.arity op.perform := by
  refine .operands (fun o o' agree => ?_) fun o => ?_
  · cases op
    case setDeformation =>
      have deform (data : Deformation) : deform data o' = deform data o := by
        simp (disch := decide) only [deform, agree.eq]
      simp (disch := decide) only [setWave, deform, agree.eq]
    all_goals simp (disch := decide) only [agree.eq]
  · cases op with
    | setDeformation => exact sees_setWave o
    | getTile =>
      refine .bind .currentScene fun s => ?_
      split
      · exact .setOperand _ _
      · exact .outOfRange _ _
    | setTile =>
      refine .bind .currentScene fun s => ?_
      split
      · exact .modify fun _ _ _ => rfl
      · exact .outOfRange _ _
    | getTileInfo => exact .leave (fun _ _ _ => rfl) fun _ _ _ => rfl
    | copyTile => exact .modify fun _ _ _ => rfl
    | setTileInfo => exact .modify fun _ _ _ => rfl

theorem DrawListOp.sees_leave {n : Nat} (subject : String) (index : Word) (scene? : Option Scene) :
    Sees n n (leave subject index scene?) := by
  cases scene? with
  | some scene => exact .modify fun _ _ _ => rfl
  | none => exact .outOfRange _ _

theorem DrawListOp.sees_perform (op : DrawListOp) :
    Sees op.signature.arity op.signature.arity op.perform := by
  refine .operands (fun o o' agree => ?_) fun o => .bind .currentScene fun s => ?_
  · cases op <;> simp (disch := decide) only [agree.eq]
  · cases op with
    | clear => exact sees_leave _ _ _
    | add => exact sees_leave _ _ _
    | get =>
      dsimp only
      split
      · exact .setOperand _ _
      · exact .outOfRange _ _
    | set => exact sees_leave _ _ _

/-! ## Control instructions -/

section

variable {n : Nat} (p : Program) (next : Position)

theorem sees_pushBranch (slot : Word) : Sees n n (pushBranch slot) := by
  refine .get (fun _ _ _ => rfl) fun m => .ite ?_ (.throw _)
  exact .modify fun _ _ _ => rfl

theorem sees_popBranch : Sees n n popBranch := by
  refine .get (fun _ _ _ => rfl) fun m => ?_
  cases m.branches with
  | nil => exact .throw _
  | cons slot rest => exact .bind (.modify fun _ _ _ => rfl) fun _ => .pure _

theorem sees_jump (slot : Word) (k : Int) : Sees n n (jump p next slot k) := .mk_pure _

theorem Comparison.sees_performIf (comparison : Comparison) :
    Sees comparison.ifSignature.arity comparison.ifSignature.arity (comparison.performIf p next) := by
  have arity : comparison.ifSignature.arity = 3 := by cases comparison <;> rfl
  rw [arity]
  refine .operands (fun o o' agree => ?_) fun o => .bind (sees_pushBranch _) fun _ => ?_
  · simp (disch := decide) only [agree.eq]
  · exact .ite (.pure _) (sees_jump p next _ _)

theorem Comparison.sees_performWhile (comparison : Comparison) :
    Sees comparison.whileSignature.arity comparison.whileSignature.arity
      (comparison.performWhile p next) := by
  have arity : comparison.whileSignature.arity = 3 := by cases comparison <;> rfl
  rw [arity]
  refine .operands (fun o o' agree => ?_) fun o => ?_
  · simp (disch := decide) only [agree.eq]
  · exact .ite (.bind (sees_pushBranch _) fun _ => .pure _) (sees_jump p next _ _)

theorem sees_enterFunction (index : Word) : Sees n n (enterFunction p next index) := by
  unfold enterFunction
  split
  · exact .throw _
  · refine .get (fun _ _ _ => rfl) fun m => .ite ?_ (.throw _)
    exact .bind (.modify fun _ _ _ => rfl) fun _ => .pure _

theorem sees_returnFromFunction : Sees n n returnFromFunction := by
  refine .get (fun _ _ _ => rfl) fun m => ?_
  cases m.calls with
  | nil => exact .throw _
  | cons back rest => exact .bind (.modify fun _ _ _ => rfl) fun _ => .pure _

theorem Control.sees_performSwitch : Sees 2 2 (performSwitch p next) := by
  refine .operands (fun o o' agree => ?_) fun o => .bind (sees_pushBranch _) fun _ => ?_
  · simp (disch := decide) only [agree.eq]
  · refine .bind (.mk_pure _) fun min => .bind (.mk_pure _) fun max => ?_
    exact .ite (sees_jump p next _ _) (sees_jump p next _ _)

theorem Control.sees_perform (op : Control) :
    Sees op.signature.arity op.signature.arity (op.perform p next) := by
  have jumps (k : Int) : Sees 0 0 (do return some (← jump p next (← popBranch) k) : Exec _) :=
    .bind sees_popBranch fun _ => .bind (sees_jump p next _ k) fun _ => .pure _
  have closes : Sees 0 0 (do discard popBranch; return some next : Exec (Option Position)) :=
    .bind (.discard sees_popBranch) fun _ => .pure _
  cases op with
  | stop => exact .pure _
  | elseBranch => exact jumps 1
  | endIf => exact closes
  | loop => exact jumps 0
  | switch => exact .map _ (sees_performSwitch p next)
  | leave => exact jumps 3
  | endSwitch => exact closes
  | callFunction =>
    refine .operands (fun o o' agree => ?_) fun o => ?_
    · simp (disch := decide) only [agree.eq]
    · exact .bind (sees_enterFunction p next _) fun _ => .pure _
  | endFunction => exact .map _ sees_returnFromFunction

end

/-! ## All instructions -/

/-- **An instruction sees as many operand registers as it has operands**, and leaves as many known. -/
theorem Opcode.sees_perform (op : Opcode) (p : Program) (activation : Activation) (next : Position) :
    Sees op.arity op.arity (op.perform p activation next) := by
  cases op with
  | control op => exact op.sees_perform p next
  | ifTest comparison => exact .map _ (comparison.sees_performIf p next)
  | whileTest comparison => exact .map _ (comparison.sees_performWhile p next)
  | binary op => exact .seqRight op.sees_perform (.pure _)
  | unary op => exact .seqRight op.sees_perform (.pure _)
  | check op => exact .seqRight op.sees_perform (.pure _)
  | rand => exact .seqRight sees_performRandom (.pure _)
  | formula op => exact .seqRight op.sees_perform (.pure _)
  | draw op => exact .seqRight (op.sees_perform activation) (.pure _)
  | palette op => exact .seqRight op.sees_perform (.pure _)
  | audio op => exact .seqRight op.sees_perform (.pure _)
  | platform op => exact .seqRight op.sees_perform (.pure _)
  | sheet op => exact .seqRight (op.sees_perform activation) (.pure _)
  | animation op => exact .seqRight (op.sees_perform activation) (.pure _)
  | menu op => exact .seqRight op.sees_perform (.pure _)
  | object op => exact .seqRight (op.sees_perform activation) (.pure _)
  | space op => exact .seqRight op.sees_perform (.pure _)
  | layer op => exact .seqRight op.sees_perform (.pure _)
  | drawList op => exact .seqRight op.sees_perform (.pure _)

end StageScript
