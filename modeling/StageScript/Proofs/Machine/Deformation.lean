import StageScript.Proofs.Machine.Execution
import StageScript.Proofs.Machine.Fetch

/-! # Waves that repeat
An instruction puts a wave into a deformation buffer, and the lines of the buffer then go behind its
first period once more, all at once and as they lie.
* `Deformation.Repeats` — the lines of a buffer are, up to some line, those of the period in front;
* **`LayerOp.repeats_extend`**, **`LayerOp.repeats_extend_iff`** — two periods are always alike, and
  what is behind them only if it was before;
* **`LayerOp.repeats_deform_deform`** — a wave over the first period that is put there twice repeats to
  the end of the buffer;
* **`step_setDeformation`** — what the instruction leaves in the buffer;
* **`not_all_repeat`** — the end of a new buffer does not repeat. -/

namespace StageScript

open Stepwise

/-- Each line behind the first period, up to some line, is as the one a period in front of it. -/
def Deformation.Repeats (data : Deformation) (stop : Nat) : Prop :=
  ∀ line, deformationPeriod ≤ line → line < stop → data[line]? = data[line - deformationPeriod]?

namespace LayerOp

variable {data : Deformation} {o : Operands} {line : Nat}

/-! ## Lines -/

/-- A buffer with a new wave in it, whose other lines are left. -/
def waved (data : Deformation) (o : Operands) : Deformation :=
  if o[3] = 1 then waveFrom data o[1] o[2] (o[4].index?.getD 0) (o[5].index?.getD 0)
  else waveFrom data o[1] o[2] 0 deformationPeriod

theorem deform_eq (data : Deformation) (o : Operands) : deform data o = extend (waved data o) := rfl

theorem getElem?_waveFrom {length width : Word} {start count : Nat} (inside : line < deformationLength) :
    (waveFrom data length width start count)[line]? =
      if start ≤ line ∧ line < start + count then some (wave length width (line - start))
      else data[line]? := by
  rw [Vector.getElem?_eq_getElem inside, Vector.getElem?_eq_getElem inside, waveFrom,
    Vector.getElem_ofFn]
  split <;> rfl

theorem getElem?_extend (inside : line < deformationLength) :
    (extend data)[line]? =
      if deformationPeriod ≤ line then data[line - deformationPeriod]? else data[line]? := by
  rw [Vector.getElem?_eq_getElem inside, Vector.getElem?_eq_getElem inside,
    Vector.getElem?_eq_getElem (Nat.lt_of_le_of_lt (Nat.sub_le ..) inside), extend,
    Vector.getElem_ofFn]
  split <;> rfl

/-- A wave over the first period leaves the lines behind it. -/
theorem getElem?_waved (kind : o[3] ≠ 1) (inside : line < deformationLength) :
    (waved data o)[line]? =
      if line < deformationPeriod then some (wave o[1] o[2] line) else data[line]? := by
  rw [waved, if_neg kind, getElem?_waveFrom inside, Nat.zero_add, Nat.sub_zero]
  simp only [Nat.zero_le, true_and]

/-! ## Periods -/

/-- **Two periods** of a buffer are alike once its lines have been copied. -/
theorem repeats_extend (data : Deformation) : (extend data).Repeats (2 * deformationPeriod) := by
  intro line behind before
  have sizes : deformationPeriod = 0x100 ∧ deformationLength = 0x240 := ⟨rfl, rfl⟩
  rw [getElem?_extend (by omega), if_pos behind, getElem?_extend (by omega), if_neg (by omega)]

/-- **A buffer repeats to its end** once its lines have been copied just where the lines that were
copied did repeat. -/
theorem repeats_extend_iff :
    (extend data).Repeats deformationLength ↔
      data.Repeats (deformationLength - deformationPeriod) := by
  have sizes : deformationPeriod = 0x100 ∧ deformationLength = 0x240 := ⟨rfl, rfl⟩
  constructor
  · intro whole line behind before
    -- the copy of this line stands a period further on, in front of the end
    have copy := whole (line + deformationPeriod) (by omega) (by omega)
    rw [Nat.add_sub_cancel, getElem?_extend (by omega), if_pos (by omega), Nat.add_sub_cancel,
      getElem?_extend (by omega), if_pos behind] at copy
    exact copy
  · intro copied line behind before
    by_cases first : line < 2 * deformationPeriod
    · exact repeats_extend data line behind first
    · have same := copied (line - deformationPeriod) (by omega) (by omega)
      rwa [getElem?_extend before, if_pos behind, getElem?_extend (by omega), if_pos (by omega)]

/-- A wave over the first period repeats to the end of the buffer just where the lines behind the
period were its beginning before. -/
theorem repeats_deform_iff (kind : o[3] ≠ 1) :
    (deform data o).Repeats deformationLength ↔
      ∀ line, line < deformationLength - 2 * deformationPeriod →
        data[deformationPeriod + line]? = some (wave o[1] o[2] line) := by
  have sizes : deformationPeriod = 0x100 ∧ deformationLength = 0x240 := ⟨rfl, rfl⟩
  rw [deform_eq, repeats_extend_iff]
  constructor
  · intro repeats line before
    have same := repeats (deformationPeriod + line) (Nat.le_add_right ..) (by omega)
    rwa [Nat.add_sub_cancel_left, getElem?_waved kind (by omega), if_neg (by omega),
      getElem?_waved kind (by omega), if_pos (by omega)] at same
  · intro held line behind before
    have same := held (line - deformationPeriod) (by omega)
    rw [Nat.add_sub_cancel' behind] at same
    rw [getElem?_waved kind (by omega), if_neg (by omega), getElem?_waved kind (by omega),
      if_pos (by omega), same]

/-- **A wave over the first period that is put there twice** repeats to the end of the buffer. -/
theorem repeats_deform_deform (data : Deformation) (kind : o[3] ≠ 1) :
    (deform (deform data o) o).Repeats deformationLength := by
  have sizes : deformationPeriod = 0x100 ∧ deformationLength = 0x240 := ⟨rfl, rfl⟩
  rw [repeats_deform_iff kind]
  intro line before
  rw [deform_eq, getElem?_extend (by omega), if_pos (by omega), Nat.add_sub_cancel_left,
    getElem?_waved kind (by omega), if_pos (by omega)]

end LayerOp

open LayerOp

/-! ## The instruction -/

/-- A machine with a new wave in one of its buffers. -/
def Machine.waved (m : Machine) (buffer : Fin 4) (o : Operands) : Machine :=
  m.modifyScene fun s =>
    { s with deformation :=
        Indexed.put s.deformation buffer (deform (m.scene.deformation.get buffer) o) }

theorem Machine.deformation_waved (m : Machine) (buffer : Fin 4) (o : Operands) :
    (m.waved buffer o).scene.deformation.get buffer = deform (m.scene.deformation.get buffer) o := by
  rw [waved, modifyScene, Indexed.get_put, if_pos rfl]

/-- A wave with a length, in a buffer that there is, changes the lines of the buffer alone. -/
theorem LayerOp.setWave_apply {m : Machine} {o : Operands} {buffer : Fin 4}
    (known : Indexed.position? 4 o[0] = some buffer) (length : o[1] ≠ 0) :
    setWave o m = (.ok (), m.waved buffer o) := by
  rw [setWave, if_neg length]
  simp only [bind_apply, currentScene_apply, Indexed.update?, known, Option.map_some]
  rfl

section Instruction

variable {p : Program} {activation : Activation} {here : Position} {arguments : List Argument}
  {next : Nat} {m loaded : Machine} {buffer : Fin 4}

/-- The instruction, once its operands are loaded. -/
theorem step_of_setDeformation
    (decoded : Instruction.decode p.code here.pointer =
      .ok (⟨here.pointer, .layer .setDeformation, arguments⟩, next))
    (loads : loadArguments activation.object arguments 0 m = (.ok (), loaded))
    (known : Indexed.position? 4 loaded.registers.operands[0] = some buffer)
    (length : loaded.registers.operands[1] ≠ 0) :
    step p activation here m =
      (.ok (some { here with pointer := next }), loaded.waved buffer loaded.registers.operands) := by
  have performed : Opcode.perform p activation { here with pointer := next } (.layer .setDeformation)
      loaded = (.ok (some { here with pointer := next }),
        loaded.waved buffer loaded.registers.operands) := by
    rw [Opcode.perform, seqRight_apply, perform, bind_apply, operands_apply]
    dsimp only
    rw [setWave_apply known length]
    rfl
  rw [step_eq_execute decoded, Instruction.execute, bind_apply_of_ok loads, bind_apply_of_ok performed]
  rfl

/-- **What putting a wave into a buffer leaves there**, once the operands of the instruction are loaded:
the buffer alone is changed. Behind its first period are the lines as they lay under the wave, so its
first two periods are alike. What is behind them repeats just where the lines that were copied did
repeat; where the wave lies over the first period, just where the lines behind the period were its
beginning before. -/
theorem step_setDeformation
    (decoded : Instruction.decode p.code here.pointer =
      .ok (⟨here.pointer, .layer .setDeformation, arguments⟩, next))
    (loads : loadArguments activation.object arguments 0 m = (.ok (), loaded))
    (known : Indexed.position? 4 loaded.registers.operands[0] = some buffer)
    (length : loaded.registers.operands[1] ≠ 0) :
    let o := loaded.registers.operands
    let held := loaded.scene.deformation.get buffer
    ∃ data : Deformation,
      step p activation here m =
          (.ok (some { here with pointer := next }), loaded.modifyScene fun s =>
            { s with deformation := Indexed.put s.deformation buffer data }) ∧
        (∀ line, line < deformationLength → data[line]? =
          if deformationPeriod ≤ line then (waved held o)[line - deformationPeriod]?
          else (waved held o)[line]?) ∧
        data.Repeats (2 * deformationPeriod) ∧
        (data.Repeats deformationLength ↔
          (waved held o).Repeats (deformationLength - deformationPeriod)) ∧
        (o[3] ≠ 1 → (data.Repeats deformationLength ↔
          ∀ line, line < deformationLength - 2 * deformationPeriod →
            held[deformationPeriod + line]? = some (wave o[1] o[2] line))) :=
  ⟨_, step_of_setDeformation decoded loads known length, fun _ inside => getElem?_extend inside,
    repeats_extend _, repeats_extend_iff, repeats_deform_iff⟩

end Instruction

/-- A program that puts a wave as long as the period into the first buffer. -/
def waving : Program :=
  { code := #[(Opcode.layer .setDeformation).word, 2, 0, 2, 256, 2, 8, 2, 0, 2, 0, 2, 0] }

/-- A machine that has loaded the operands for it. -/
def aboutToWave : Machine := (loadArguments 0 ([0, 256, 8, 0, 0, 0].map .integer) 0 idle).2

theorem waving_loads :
    Instruction.decode waving.code 0 =
        .ok (⟨0, .layer .setDeformation, [0, 256, 8, 0, 0, 0].map .integer⟩, 13) ∧
      loadArguments 0 ([0, 256, 8, 0, 0, 0].map .integer) 0 idle = (.ok (), aboutToWave) :=
  ⟨Except.eq_ok_of_toOption (by decide +kernel), rfl⟩

/-- The lines behind the first period of the buffer are not those of the wave. -/
theorem line_aboutToWave :
    (aboutToWave.scene.deformation.get 0)[0x120]? ≠ some (wave 256 8 0x20) := by
  decide +kernel

theorem step_setDeformation_waving :
    ∃ data : Deformation,
      step waving ⟨0, .main⟩ ⟨0, 0, 0⟩ idle =
          (.ok (some ⟨13, 0, 0⟩), aboutToWave.modifyScene fun s =>
            { s with deformation := Indexed.put s.deformation 0 data }) ∧
        data.Repeats 0x200 ∧ ¬ data.Repeats 0x240 := by
  obtain ⟨decoded, loads⟩ := waving_loads
  obtain ⟨data, stepped, -, twice, -, whole⟩ := @step_setDeformation waving ⟨0, .main⟩ ⟨0, 0, 0⟩ _ 13
    idle aboutToWave 0 decoded loads (by decide) (by decide)
  refine ⟨data, stepped, twice, fun repeats => ?_⟩
  exact line_aboutToWave ((whole (by decide)).1 repeats 0x20 (by decide))

/-- **A wave in a new buffer** does not repeat to the end of the buffer. -/
theorem not_all_repeat :
    ¬ ∀ (p : Program) (activation : Activation) (here : Position) (arguments : List Argument)
        (next : Nat) (m loaded : Machine) (buffer : Fin 4),
      Instruction.decode p.code here.pointer =
        .ok (⟨here.pointer, .layer .setDeformation, arguments⟩, next) →
      loadArguments activation.object arguments 0 m = (.ok (), loaded) →
      Indexed.position? 4 loaded.registers.operands[0] = some buffer →
      loaded.registers.operands[1] ≠ 0 →
      ((step p activation here m).2.scene.deformation.get buffer).Repeats deformationLength := by
  intro all
  obtain ⟨decoded, loads⟩ := waving_loads
  have repeats := all waving ⟨0, .main⟩ ⟨0, 0, 0⟩ _ 13 idle aboutToWave 0 decoded loads (by decide)
    (by decide)
  have named : Indexed.position? 4 aboutToWave.registers.operands[0] = some 0 := by decide
  rw [step_of_setDeformation decoded loads named (by decide), Machine.deformation_waved] at repeats
  exact line_aboutToWave ((repeats_deform_iff (by decide)).1 repeats 0x20 (by decide))

end StageScript
