import StageScript.Proofs.Machine.Evolution
import StageScript.Proofs.Machine.Operands

/-! # Adding frames
Sprite frames are added by one instruction, and each is counted for a type.
* **`Machine.Appends`** — a frame has been added and counted for a type;
* `loads_fetch` — nothing that scripts see changes while an instruction is read;
* **`step_frames`** — an instruction adds no frames, or one to the type of the running object. -/

namespace StageScript

open Machine Stepwise

/-! ## Reading an instruction -/

instance : IsPreorder Machine SameStore where
  refl := SameStore.refl
  trans _ _ _ := SameStore.trans

theorem Argument.loads_use (object place : Nat) (argument : Argument) :
    Along SameStore (argument.use .load object place) := by
  have loads : Along SameStore (argument.load object) := by
    intro m
    obtain ⟨r, loaded, -⟩ := argument.load_apply object m
    rw [loaded]
    exact ⟨rfl, rfl, rfl, rfl, rfl⟩
  exact loads.bind fun value => Along.modify fun m => .setOperand m place value

/-- **Reading an instruction** and loading its operands changes nothing that scripts see. -/
theorem loads_fetch (code : Array Word) (object offset : Nat) :
    Along SameStore (fetch code object offset) := by
  refine Exec.Inherited.along.fetch (fun _ => .mk_pure _) (fun count offset => ?_) offset
  exact Exec.Inherited.along.walkOperands (fun _ => .mk_pure _)
    (fun place a => a.loads_use object place) count 0 offset

/-! ## Instructions -/

/-- **A frame has been added** and counted for a type. -/
structure Machine.Appends (type : UInt8) (m m' : Machine) : Prop where
  frames : m'.scene.spriteFrames.size = m.scene.spriteFrames.size + 1
  count : (m'.typeData type).frameCount = (m.typeData type).frameCount + 1
  others : ∀ other, other ≠ type → (m'.typeData other).frameCount = (m.typeData other).frameCount

theorem Sheet.appendFrame_appends (m : Machine) (run : Activation) :
    m.Steady (appendFrame m run) ∨ m.Appends (m.objectType run.object) (appendFrame m run) := by
  unfold appendFrame
  split
  · refine .inr ⟨Array.size_push .., ?_, fun other ne => ?_⟩
    · exact congrArg TypeData.frameCount ((typeData_modifyType ..).trans (if_pos rfl))
    · exact congrArg TypeData.frameCount ((typeData_modifyType ..).trans (if_neg (Ne.symm ne)))
  · exact .inl (.refl m)

/-- **An instruction adds no frames, or one** to the type that the running object has. -/
theorem step_frames (p : Program) (run : Activation) (here : Position) (m : Machine) :
    m.Steady (step p run here m).2 ∨ m.Appends (m.objectType run.object) (step p run here m).2 := by
  have fetched := (edits_fetch p.code run.object here.pointer m).steady
  have same := loads_fetch p.code run.object here.pointer m
  rcases read : fetch p.code run.object here.pointer m with ⟨fault | i, loaded⟩ <;>
    rw [read] at fetched same
  · rw [step, bind_apply_of_error read]
    exact .inl fetched
  by_cases adds : i.opcode = .sheet .addFrame
  · have stepped : step p run here m =
        (.ok (some { here with pointer := i.next }), Sheet.appendFrame loaded run) := by
      rw [step, bind_apply_of_ok read, adds]
      rfl
    have type : loaded.objectType run.object = m.objectType run.object := by
      rw [objectType, objectType, entity, entity, same.scene]
    rw [stepped]
    rcases Sheet.appendFrame_appends loaded run with steady | appends
    · exact .inl (fetched.trans steady)
    · rw [type] at appends
      exact .inr ⟨appends.frames.trans (congrArg (· + 1) fetched.frames),
        appends.count.trans (congrArg (· + 1) (fetched.counts _)),
        fun other ne => (appends.others other ne).trans (fetched.counts other)⟩
  · refine .inl (trans_of Machine.Steady fetched ?_)
    rw [step, bind_apply_of_ok read]
    refine (Opcode.steady_perform p run _ adds).bind (fun next => ?_) loaded
    split
    · exact (edits_walkOperands _ _ _ _ _ _).steady.bind fun _ => .pure _
    · exact Along.pure _

end StageScript
