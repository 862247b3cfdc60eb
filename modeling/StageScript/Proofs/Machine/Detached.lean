import StageScript.Proofs.Machine.Execution

/-! # Steps on data
Apart from the control instructions, no instruction looks at what blocks and calls are open, at how many
steps have been counted, or at how many there may be, and strict mode only makes it fail.
* **`Machine.Setting`** — these five parts of a machine;
* **`Exec.Detached`** — a step that leaves them as they are and does the same in another setting, as long as
  strict mode does not make it fail;
* **`Opcode.detached_act`** — every instruction but the control instructions is one, and so is the loading
  and the storing of its operands. -/

namespace StageScript

/-- What surrounds a step on data: the open blocks and calls, the count of steps, and whether the
machine is strict. -/
structure Machine.Surroundings where
  branches : List Word
  calls : List Position
  steps : Nat
  strict : Bool

/-- The surroundings of a step on data, and how many steps there may be. -/
structure Machine.Setting extends Machine.Surroundings where
  limit : Option UInt64

/-- A machine in another setting. -/
def Machine.under (m : Machine) (setting : Machine.Setting) : Machine :=
  { m with
    branches := setting.branches
    calls := setting.calls
    steps := setting.steps
    strict := setting.strict
    stepLimit := setting.limit }

namespace Machine

/-- The setting of a machine. -/
def setting (m : Machine) : Machine.Setting := ⟨⟨m.branches, m.calls, m.steps, m.strict⟩, m.stepLimit⟩

variable (m : Machine) (setting : Machine.Setting)

@[simp] theorem scene_under : (m.under setting).scene = m.scene := rfl

@[simp] theorem registers_under : (m.under setting).registers = m.registers := rfl

@[simp] theorem typeData_under (type : UInt8) :
    (m.under setting).typeData type = m.typeData type := rfl

@[simp] theorem objectType_under (object : Nat) :
    (m.under setting).objectType object = m.objectType object := rfl

@[simp] theorem scriptText_under : (m.under setting).scriptText = m.scriptText := rfl

@[simp] theorem host_under : (m.under setting).host = m.host := rfl

@[simp] theorem history_under : (m.under setting).history = m.history := rfl

@[simp] theorem random_under : (m.under setting).random = m.random := rfl

@[simp] theorem modifyScene_under (change : Scene → Scene) :
    (m.under setting).modifyScene change = (m.modifyScene change).under setting := rfl

@[simp] theorem modifyType_under (type : UInt8) (change : TypeData → TypeData) :
    (m.under setting).modifyType type change = (m.modifyType type change).under setting := rfl

@[simp] theorem call_under (c : HostCall) :
    (m.under setting).call c = (m.call c).under setting := rfl

end Machine

/-- Whether a fault is one of strict mode. -/
def Fault.isStrict : Fault → Bool
  | .indexOutOfRange _ _ => true
  | .divisionByZero => true
  | _ => false

namespace Exec

open Stepwise

variable {α β : Type}

/-- Other surroundings allow a step the answer that it gave: they are as strict as the machine, or
they are not strict and the answer is no fault. -/
def Allowed (m : Machine) (around : Machine.Surroundings) (answer : Except Fault α) : Prop :=
  around.strict = m.strict ∨ around.strict = false ∧ ∃ a, answer = .ok a

/-- **A step on data**: it leaves its setting as it is, does the same in another one that allows it, and fails
for reasons of strict mode only, in strict mode only. -/
structure Detached (x : Exec α) : Prop where
  blind : ∀ m (setting : Machine.Setting), Allowed m setting.toSurroundings (x m).1 →
    x (m.under setting) = ((x m).1, (x m).2.under setting)
  strict : ∀ m fault, (x m).1 = .error fault → fault.isStrict = true
  lax : ∀ m fault, (x m).1 = .error fault → m.strict = true

namespace Detached

/-- A step on data leaves its setting as it is. -/
theorem kept {x : Exec α} (h : Detached x) (m : Machine) : (x m).2 = (x m).2.under m.setting :=
  congrArg Prod.snd (h.blind m m.setting (.inl rfl))

theorem strict_kept {x : Exec α} (h : Detached x) (m : Machine) : (x m).2.strict = m.strict := by
  rw [h.kept m]
  rfl

protected theorem pure (a : α) : Detached (pure a) :=
  ⟨fun _ _ _ => rfl, fun _ _ h => (nomatch h), fun _ _ h => (nomatch h)⟩

protected theorem bind {x : Exec α} {f : α → Exec β} (hx : Detached x) (hf : ∀ a, Detached (f a)) :
    Detached (x >>= f) := by
  refine ⟨fun m setting allowed => ?_, fun m fault eq => ?_, fun m fault eq => ?_⟩
  · have kept := hx.strict_kept m
    rw [bind_apply] at allowed ⊢
    rw [bind_apply]
    rcases first : x m with ⟨fault | a, m'⟩
    · rw [first] at allowed
      -- only a setting that is just as strict allows a fault
      have same := hx.blind m setting
      rw [first] at same
      rw [same (allowed.imp_right fun lax => absurd lax.2 (by rintro ⟨_, ⟨⟩⟩))]
    · rw [first] at allowed kept
      have same := hx.blind m setting
      rw [first] at same
      rw [same (allowed.imp_right fun lax => ⟨lax.1, a, rfl⟩)]
      exact (hf a).blind m' setting (allowed.imp_left fun equal => equal.trans kept.symm)
  · rw [bind_apply] at eq
    rcases first : x m with ⟨fault' | a, m'⟩
    · rw [first] at eq
      obtain rfl := Except.error.inj eq
      exact hx.strict m _ (congrArg Prod.fst first)
    · rw [first] at eq
      exact (hf a).strict m' fault eq
  · have kept := hx.strict_kept m
    rw [bind_apply] at eq
    rcases first : x m with ⟨fault' | a, m'⟩
    · exact hx.lax m fault' (congrArg Prod.fst first)
    · rw [first] at eq kept
      exact kept.symm.trans ((hf a).lax m' fault eq)

/-- A change of the machine that goes on apart from its setting. -/
protected theorem modify {f : Machine → Machine}
    (h : ∀ m setting, f (m.under setting) = (f m).under setting) : Detached (modify f) :=
  ⟨fun m setting _ => congrArg (Prod.mk _) (h m setting), fun _ _ h => (nomatch h),
    fun _ _ h => (nomatch h)⟩

/-- A step that looks at the machine first, but not at its setting. -/
protected theorem get {f : Machine → Exec α} (same : ∀ m setting, f (m.under setting) = f m)
    (hf : ∀ m, Detached (f m)) : Detached (get >>= f) := by
  refine ⟨fun m setting allowed => ?_, fun m fault eq => ?_, fun m fault eq => ?_⟩
  · rw [bind_apply, get_apply, bind_apply, get_apply]
    simp only [same]
    exact (hf m).blind m setting allowed
  · exact (hf m).strict m fault eq
  · exact (hf m).lax m fault eq

/-- A step that changes the machine, which strict mode makes a fault where something is the case. -/
protected theorem failing {P : Machine → Prop} [DecidablePred P] {e : Machine → Fault}
    {f : Machine → Machine} {x : Exec PUnit}
    (eq : ∀ m, x m = if P m ∧ m.strict = true then (.error (e m), m) else (.ok ⟨⟩, f m))
    (strict : ∀ m, (e m).isStrict = true)
    (same : ∀ m setting, (P (m.under setting) ↔ P m) ∧ e (m.under setting) = e m)
    (hf : ∀ m setting, f (m.under setting) = (f m).under setting) : Detached x := by
  refine ⟨fun m setting allowed => ?_, fun m fault' failed => ?_, fun m fault' failed => ?_⟩
  · rw [eq, eq, hf, (same m setting).2]
    rw [eq] at allowed
    by_cases fails : P m ∧ m.strict = true
    · rw [if_pos fails] at allowed ⊢
      have equal : setting.strict = true := by
        rcases allowed with equal | ⟨-, a, no⟩
        · exact equal.trans fails.2
        · cases no
      exact if_pos ⟨(same m setting).1.2 fails.1, equal⟩
    · rw [if_neg fails] at allowed ⊢
      refine if_neg fun ⟨holds, strict⟩ => ?_
      have strict : setting.strict = true := strict
      rcases allowed with equal | ⟨lax, -⟩
      · exact fails ⟨(same m setting).1.1 holds, equal.symm.trans strict⟩
      · exact absurd (strict.symm.trans lax) (by decide)
  · rw [eq] at failed
    split at failed
    · exact Except.error.inj failed ▸ strict m
    · cases failed
  · rw [eq] at failed
    split at failed
    · next fails => exact fails.2
    · cases failed

/-- A change of the machine that may be out of range. -/
protected theorem change {f : Machine → Option Machine} {i : Machine → Word} {x : Exec PUnit}
    (subject : String)
    (eq : ∀ m, x m = match f m with
      | some m' => (.ok ⟨⟩, m')
      | none => StageScript.outOfRange subject (i m) m)
    (hf : ∀ m setting, f (m.under setting) = (f m).map (·.under setting))
    (same : ∀ m setting, i (m.under setting) = i m) : Detached x := by
  refine .failing (P := fun m => f m = none) (e := fun m => .indexOutOfRange subject (i m))
    (f := fun m => (f m).getD m) (fun m => ?_) (fun _ => rfl) (fun m setting => ⟨?_, ?_⟩)
    fun m setting => ?_
  · rw [eq, outOfRange_apply]
    cases f m <;> cases m.strict <;> simp
  · rw [hf, Option.map_eq_none_iff]
  · rw [same]
  · rw [hf]
    cases f m <;> rfl

protected theorem operands : Detached operands :=
  ⟨fun _ _ _ => rfl, fun _ _ h => (nomatch h), fun _ _ h => (nomatch h)⟩

protected theorem currentScene : Detached currentScene :=
  ⟨fun _ _ _ => rfl, fun _ _ h => (nomatch h), fun _ _ h => (nomatch h)⟩

protected theorem outOfRange (subject : String) (index : Word) :
    Detached (StageScript.outOfRange subject index) :=
  .change (f := fun _ => none) (i := fun _ => index) subject (fun _ => rfl) (fun _ _ => rfl)
    fun _ _ => rfl

end Detached

end Exec

/-! ## Instructions -/

open Exec Machine Stepwise

/-- Any change of the registers goes on apart from the setting. -/
theorem detached_modifyRegisters (change : Registers → Registers) :
    (modify (·.modifyRegisters change) : Exec Unit).Detached :=
  .modify fun _ _ => rfl

/-- Any change of the scene goes on apart from the setting. -/
theorem detached_modifyScene (change : Scene → Scene) :
    (modify (·.modifyScene change) : Exec Unit).Detached :=
  .modify fun _ _ => rfl

theorem detached_setOperand (place : Nat) (w : Word) :
    (modify (·.setOperand place w) : Exec Unit).Detached :=
  .modify fun _ _ => rfl

theorem Binary.detached_perform (op : Binary) : op.perform.Detached := by
  refine .failing (P := fun m => (op.divides && m.registers.operands[1] == 0) = true)
    (e := fun _ => .divisionByZero) (f := fun m =>
      m.setOperand 0 (op.apply m.registers.operands[0] m.registers.operands[1]))
    (fun m => ?_) (fun _ => rfl) (fun _ _ => ⟨.rfl, rfl⟩) fun _ _ => rfl
  simp only [perform, bind_apply, get_apply, ← Bool.and_eq_true]
  split <;> rfl

theorem Unary.detached_perform (op : Unary) : op.perform.Detached := .modify fun _ _ => rfl

theorem Check.detached_perform (op : Check) : op.perform.Detached := .modify fun _ _ => rfl

theorem detached_performRandom : performRandom.Detached := by
  refine .modify fun m _ => ?_
  simp only [registers_under, random_under]
  split
  · next h => rw [h]; rfl
  · next h => rw [h]; rfl
  · next bound positive h => simp only [h]; rfl

theorem Formula.detached_perform (f : Formula) : f.perform.Detached := detached_modifyRegisters _

theorem Drawing.letters_under (m : Machine) (setting : Machine.Setting) (object : Nat) (l : Lettering)
    (x : Word) (text : Text) : letters (m.under setting) object l x text = letters m object l x text := by
  induction text generalizing x with
  | nil => rfl
  | cons c rest ih =>
    rw [letters, ih]
    rfl

theorem Drawing.commands_under (m : Machine) (setting : Machine.Setting) (object : Nat) (op : Drawing) :
    op.commands (m.under setting) object = op.commands m object := by
  cases op
  case actName => exact letters_under ..
  all_goals rfl

theorem Drawing.detached_perform (run : Activation) (op : Drawing) : (op.perform run).Detached := by
  refine .modify fun m setting => ?_
  rw [commands_under]
  generalize op.commands m run.object = commands
  induction commands generalizing m with
  | nil => rfl
  | cons c rest ih => rw [List.foldl_cons, call_under, ih, List.foldl_cons]

theorem Palette.detached_perform (op : Palette) : op.perform.Detached := .modify fun _ _ => rfl

theorem Audio.detached_perform (op : Audio) : op.perform.Detached := .modify fun _ _ => rfl

theorem Platform.detached_perform (op : Platform) : op.perform.Detached := by
  refine .modify fun m setting => ?_
  cases op
  case readSave =>
    simp only [readSaveFile, host_under, history_under]
    cases m.host.saved m.history <;> rfl
  all_goals rfl

theorem Sheet.detached_changeFrame (run : Activation) : (changeFrame run).Detached := by
  refine .change (i := fun m => m.registers.operands[0]) (f := fun m =>
      let first := (m.typeData (m.objectType run.object)).frameListOffset
      (m.registers.operands[0].index?.filter fun k => first + k < m.scene.spriteFrames.size).map
        fun k => m.modifyScene fun s =>
          { s with spriteFrames :=
              s.spriteFrames.setIfInBounds (first + k) (frameOf m.registers.operands 1) })
    "EditFrame" (fun m => ?_) (fun m setting => ?_) fun _ _ => rfl
  · simp only [changeFrame, bind_apply, get_apply]
    cases m.registers.operands[0].index?.filter fun k =>
      (m.typeData (m.objectType run.object)).frameListOffset + k < m.scene.spriteFrames.size <;> rfl
  · simp only [registers_under, typeData_under, objectType_under, scene_under, Option.map_map]
    rfl

theorem Sheet.detached_perform (run : Activation) (op : Sheet) : (op.perform run).Detached := by
  cases op with
  | load => exact .modify fun _ _ => rfl
  | remove => exact .modify fun _ _ => rfl
  | addFrame =>
    refine .modify fun m setting => ?_
    simp only [appendFrame, scene_under, registers_under, modifyScene_under, modifyType_under,
      objectType_under]
    exact (apply_ite (Machine.under · setting) _ _ _).symm
  | editFrame => exact detached_changeFrame run

theorem AnimationOp.obtain_under (m : Machine) (path : String) (setting : Machine.Setting) :
    obtain (m.under setting) path = ((obtain m path).1, (obtain m path).2.under setting) := by
  simp only [obtain, scene_under, host_under, history_under]
  cases loaded? m.scene path with
  | some k => rfl
  | none => cases m.host.animation m.history path <;> rfl

theorem AnimationOp.detached_perform (run : Activation) (op : AnimationOp) : (op.perform run).Detached := by
  cases op with
  | load =>
    refine .modify fun m setting => ?_
    simp only [loadFile, scriptText_under, obtain_under]
    rcases obtain m m.scriptText with ⟨_ | _, _⟩ <;> rfl
  | process =>
    refine .modify fun m setting => ?_
    have same : file? (m.under setting) run = file? m run := rfl
    simp only [advance, same]
    cases file? m run <;> cases Scene.entitySlot? run.object <;> rfl
  | getByName => exact .modify fun _ _ => rfl

theorem MenuOp.loadRows_under (m : Machine) (setting : Machine.Setting) :
    loadRows (m.under setting) = (loadRows m).under setting := by
  cases m with
  | mk scene types registers _ _ scriptText random host history _ stepLimit _ =>
    dsimp only [loadRows, under, call, modifyScene]
    cases host.lines history scriptText (decide (registers.operands[2] ≠ 0)) with
    | none => rfl
    | some lines => cases Indexed.position? 2 registers.operands[0] <;> rfl

theorem MenuOp.detached_change (subject : String) (number : Word) (f : TextMenu → TextMenu) :
    (change subject number f).Detached := by
  unfold change
  split
  · exact .modify fun _ _ => rfl
  · exact .outOfRange _ _

theorem MenuOp.detached_perform (op : MenuOp) : op.perform.Detached := by
  refine .bind .operands fun o => ?_
  cases op with
  | setup => exact detached_change _ _ _
  | addEntry => exact .get (fun _ _ => rfl) fun _ => detached_change _ _ _
  | editEntry =>
    refine .get (fun _ _ => rfl) fun m => .bind .currentScene fun s => ?_
    dsimp only
    split
    · exact .modify fun _ _ => rfl
    · exact .outOfRange _ _
  | loadText => exact .modify loadRows_under
  | getInfo => exact .modify fun _ _ => rfl
  | addVersion => exact .bind .currentScene fun _ => detached_change _ _ _

theorem ObjectOp.detached_perform (run : Activation) (op : ObjectOp) : (op.perform run).Detached := by
  refine .bind .operands fun o => ?_
  cases op with
  | reset =>
    show (resetSlot o).Detached
    unfold resetSlot
    split
    · exact detached_modifyScene _
    · exact .outOfRange _ _
  | createTemp =>
    refine .modify fun m setting => ?_
    rw [createTemporary, createTemporary, registers_under]
    split
    · rfl
    · rfl
  | bindPlayer =>
    show (ObjectOp.bind o).Detached
    unfold ObjectOp.bind
    split
    · exact detached_modifyScene _
    · exact .outOfRange _ _
    · exact .outOfRange _ _
  | playerCollision => exact .modify fun _ _ => rfl
  | playerTiles => exact .modify fun _ _ => rfl
  | playerControl => exact .modify fun _ _ => rfl
  | tileCollision => exact .modify fun _ _ => rfl
  | tileGrip => exact .modify fun _ _ => rfl
  | checkTouch => exact .modify fun _ _ => rfl

theorem Space.detached_changeMatrix (subject : String) (number : Word) (f : Matrix → Matrix) :
    (changeMatrix subject number f).Detached := by
  refine .bind .currentScene fun s => ?_
  split
  · exact .modify fun _ _ => rfl
  · exact .outOfRange _ _

theorem Space.detached_perform (op : Space) : op.perform.Detached := by
  refine .bind .operands fun o => ?_
  split
  · exact detached_changeMatrix _ _ _
  · split
    · refine .bind .currentScene fun s => ?_
      dsimp only
      split
      · exact detached_changeMatrix _ _ _
      · exact .outOfRange _ _
      · exact .outOfRange _ _
    · refine .bind .currentScene fun s => ?_
      split
      · exact detached_modifyScene _
      · exact .outOfRange _ _

theorem LayerOp.detached_setWave (o : Operands) : (setWave o).Detached := by
  unfold setWave
  split
  · exact .pure _
  · refine .bind .currentScene fun s => ?_
    split
    · exact .modify fun _ _ => rfl
    · exact .outOfRange _ _

theorem LayerOp.detached_perform (op : LayerOp) : op.perform.Detached := by
  refine .bind .operands fun o => ?_
  cases op with
  | setDeformation => exact detached_setWave o
  | getTile =>
    refine .bind .currentScene fun s => ?_
    split
    · exact detached_setOperand _ _
    · exact .outOfRange _ _
  | setTile =>
    refine .bind .currentScene fun s => ?_
    split
    · exact .modify fun _ _ => rfl
    · exact .outOfRange _ _
  | getTileInfo => exact .modify fun _ _ => rfl
  | copyTile => exact .modify fun _ _ => rfl
  | setTileInfo => exact .modify fun _ _ => rfl

theorem DrawListOp.detached_leave (subject : String) (index : Word) (scene? : Option Scene) :
    (leave subject index scene?).Detached := by
  cases scene? with
  | some scene => exact .modify fun _ _ => rfl
  | none => exact .outOfRange _ _

theorem DrawListOp.detached_perform (op : DrawListOp) : op.perform.Detached := by
  refine .bind .operands fun o => .bind .currentScene fun s => ?_
  cases op with
  | clear => exact detached_leave _ _ _
  | add => exact detached_leave _ _ _
  | get =>
    dsimp only
    split
    · exact detached_setOperand _ _
    · exact .outOfRange _ _
  | set => exact detached_leave _ _ _

/-! ## Operands -/

theorem Variable.detached_read (v : Variable) (index : Word) : (v.read index).Detached := by
  have same (m : Machine) (setting : Machine.Setting) :
      v.read? (m.under setting) index = v.read? m index := by
    cases v <;> rfl
  refine .get (fun m setting => ?_) fun m => ?_
  · rw [same]
  · split
    · exact .pure _
    · exact .bind (.outOfRange _ _) fun _ => .pure _

theorem Variable.write?_under (v : Variable) (m : Machine) (setting : Machine.Setting)
    (index value : Word) :
    v.write? (m.under setting) index value = (v.write? m index value).map (·.under setting) := by
  cases v
  case objectSheet =>
    simp only [write?, scene_under]
    cases slot? index <;> rfl
  case temp | checkResult | arrayPos | musicVolume | effectsVolume | trackVolume => rfl
  all_goals
    -- the others are kept in the scene alone
    simp only [write?, change?, scene_under, Option.map_map]
    rfl

theorem Variable.detached_write (v : Variable) (index value : Word) : (v.write index value).Detached := by
  refine .change (f := fun m => v.write? m index value) (i := fun _ => index) v.name
    (fun m => ?_) (v.write?_under · · index value) fun _ _ => rfl
  simp only [write, bind_apply, get_apply]
  cases v.write? m index value <;> rfl

theorem Address.index_under (address : Address) (m : Machine) (setting : Machine.Setting) (object : Nat) :
    address.index (m.under setting) object = address.index m object := by
  cases address with
  | self => rfl
  | «at» i => cases i <;> rfl
  | ahead i => cases i <;> rfl
  | behind i => cases i <;> rfl

theorem Argument.detached_load (object : Nat) (a : Argument) : (a.load object).Detached := by
  cases a with
  | integer value => exact .pure _
  | text content => exact .bind (.modify fun _ _ => rfl) fun _ => .pure _
  | element v address =>
    refine .get (fun m setting => ?_) fun m => v.detached_read _
    rw [address.index_under]

theorem Argument.detached_store (object : Nat) (value : Word) (a : Argument) :
    (a.store object value).Detached := by
  cases a with
  | integer _ => exact .pure _
  | text _ => exact .pure _
  | element v address =>
    refine .get (fun m setting => ?_) fun m => v.detached_write _ _
    rw [address.index_under]

theorem Argument.detached_use (direction : Direction) (object place : Nat) (a : Argument) :
    (a.use direction object place).Detached := by
  cases direction with
  | load => exact .bind (a.detached_load object) fun _ => detached_setOperand ..
  | store => exact .bind .operands fun _ => a.detached_store object _

theorem detached_loadArguments (object : Nat) (arguments : List Argument) (place : Nat) :
    (loadArguments object arguments place).Detached := by
  induction arguments generalizing place with
  | nil => exact .pure _
  | cons a rest ih =>
    exact .bind (a.detached_load object) fun _ => .bind (detached_setOperand _ _) fun _ => ih _

theorem detached_storeArguments (object : Nat) (arguments : List Argument) (place : Nat) :
    (storeArguments object arguments place).Detached := by
  induction arguments generalizing place with
  | nil => exact .pure _
  | cons a rest ih =>
    exact .bind .operands fun _ => .bind (a.detached_store object _) fun _ => ih _

/-! ## Instructions on data -/

namespace Opcode

/-- Whether an instruction decides where the run goes on. -/
def isControl : Opcode → Bool
  | .control _ => true
  | .ifTest _ => true
  | .whileTest _ => true
  | _ => false

/-- What an instruction on data does, whatever comes behind it. -/
def act (activation : Activation) : Opcode → Exec Unit
  | .control _ => pure ()
  | .ifTest _ => pure ()
  | .whileTest _ => pure ()
  | .binary op => op.perform
  | .unary op => op.perform
  | .check op => op.perform
  | .rand => performRandom
  | .formula op => op.perform
  | .draw op => op.perform activation
  | .palette op => op.perform
  | .audio op => op.perform
  | .platform op => op.perform
  | .sheet op => op.perform activation
  | .animation op => op.perform activation
  | .menu op => op.perform
  | .object op => op.perform activation
  | .space op => op.perform
  | .layer op => op.perform
  | .drawList op => op.perform

/-- An instruction on data goes on behind itself. -/
theorem perform_of_not_isControl {op : Opcode} (h : op.isControl = false) (p : Program)
    (activation : Activation) (next : Position) :
    op.perform p activation next = op.act activation *> pure (some next) := by
  cases op <;> first | rfl | cases h

/-- **What an instruction on data does** is a step on data. -/
theorem detached_act (activation : Activation) (op : Opcode) : (op.act activation).Detached := by
  cases op with
  | control _ => exact .pure _
  | ifTest _ => exact .pure _
  | whileTest _ => exact .pure _
  | binary op => exact op.detached_perform
  | unary op => exact op.detached_perform
  | check op => exact op.detached_perform
  | rand => exact detached_performRandom
  | formula op => exact op.detached_perform
  | draw op => exact op.detached_perform activation
  | palette op => exact op.detached_perform
  | audio op => exact op.detached_perform
  | platform op => exact op.detached_perform
  | sheet op => exact op.detached_perform activation
  | animation op => exact op.detached_perform activation
  | menu op => exact op.detached_perform
  | object op => exact op.detached_perform activation
  | space op => exact op.detached_perform
  | layer op => exact op.detached_perform
  | drawList op => exact op.detached_perform

end Opcode

namespace Instruction

/-- What an instruction on data does from the loading of its operands to their storing. -/
def act (activation : Activation) (i : Instruction) : Exec Unit := do
  loadArguments activation.object i.arguments 0
  i.opcode.act activation
  if i.opcode.hasResult then storeArguments activation.object i.arguments 0

/-- **An instruction on data** is a step on data. -/
theorem detached_act (activation : Activation) (i : Instruction) : (i.act activation).Detached := by
  refine .bind (detached_loadArguments _ _ _) fun _ =>
    .bind (i.opcode.detached_act activation) fun _ => ?_
  split
  · exact detached_storeArguments _ _ _
  · exact .pure _

/-- **An instruction on data goes on behind itself.** -/
theorem execute_of_not_isControl {i : Instruction} (h : i.opcode.isControl = false) (p : Program)
    (activation : Activation) (next : Position) :
    i.execute p activation next = i.act activation *> pure (some next) := by
  funext m
  simp only [execute, act, bind_apply, seqRight_apply, Opcode.perform_of_not_isControl h,
    pure_apply]
  rcases loadArguments activation.object i.arguments 0 m with ⟨_ | _, m₁⟩
  · rfl
  · dsimp only
    rcases i.opcode.act activation m₁ with ⟨_ | _, m₂⟩
    · rfl
    · dsimp only
      split
      · simp only [bind_apply, pure_apply]
      · rfl

end Instruction

end StageScript
