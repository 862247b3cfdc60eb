import Mathlib.Logic.Relation
import StageScript.Proofs.Machine.Extent
import StageScript.Proofs.Machine.Parts

/-! # What instructions can do to a machine
An instruction changes a machine in a few ways only, whatever its operands are. What all of these ways keep
is kept by runs.
* **`Scene.Edit`** and **`Machine.Edit`** — the ways;
* **`Variable.edit_write?`** — a write to a variable is one of them;
* **`Opcode.edits_perform`** — an instruction whose operands have been loaded makes such changes one after
  the other, if it is not one of the two that add sprite frames and load animation files;
* **`edits_walkOperands`** and **`edits_fetch`** — so does the loading and the storing of operands. -/

namespace StageScript

open Stepwise

/-- **A change of a scene.** -/
inductive Scene.Edit (s : Scene) : Scene → Prop
  /-- Something changes that is always there once, or is there as often as before. -/
  | rest {s' : Scene} (extent : s'.extent = s.extent) (files : s'.animations = s.animations) : Edit s s'
  /-- A menu changes, with no more rows than fit. -/
  | menu (k : Fin 2) {menu : TextMenu}
      (few : menu.rows.size ≤ max (s.menus.get k).rows.size menuRowCapacity) :
      Edit s { s with menus := Indexed.put s.menus k menu }
  /-- A draw list changes, and is no longer than there are entities. -/
  | list (k : Fin drawListCount) {list : Array Nat}
      (short : list.size ≤ max (s.drawLists.get k).size entityCount) :
      Edit s { s with drawLists := Indexed.put s.drawLists k list }
  /-- The music gets louder or softer. -/
  | volume {volume : Word} (fits : IsVolume volume) : Edit s { s with music := { s.music with volume } }

/-- **A change of a machine.** -/
inductive Machine.Edit (m : Machine) : Machine → Prop
  | scene {scene : Scene} (edit : m.scene.Edit scene) : Edit m { m with scene }
  /-- A type gets a sprite sheet. -/
  | sheet (type : UInt8) (spriteSheet : Word) : Edit m (m.modifyType type fun t => { t with spriteSheet })
  | registers (registers : Registers) : Edit m { m with registers }
  | text (scriptText : String) : Edit m { m with scriptText }
  | random (random : Random) : Edit m { m with random }
  | call (c : HostCall) : Edit m (m.call c)
  /-- A block is opened where there is room, or closed. -/
  | branches {branches : List Word} (fit : branches.length ≤ max m.branches.length branchDepthLimit) :
      Edit m { m with branches }
  /-- A call is opened where there is room, or closed. -/
  | calls {calls : List Position} (fit : calls.length ≤ max m.calls.length callDepthLimit) :
      Edit m { m with calls }
  | steps (steps : Nat) : Edit m { m with steps }

/-- Changes one after the other. -/
abbrev Machine.Edits : Machine → Machine → Prop := Relation.ReflTransGen Machine.Edit

/-- **A step that makes such changes only.** -/
abbrev Exec.Edits {α : Type} (x : Exec α) : Prop := Along Machine.Edits x

namespace Machine

variable {m m' : Machine}

/-- What all changes lead along, a sequence of them leads along. -/
theorem Edits.along {R : Machine → Machine → Prop} [IsPreorder Machine R]
    (edit : ∀ {m m' : Machine}, m.Edit m' → R m m') (edits : m.Edits m') : R m m' := by
  induction edits with
  | refl => exact refl_of R m
  | tail _ last ih => exact trans_of R ih (edit last)

theorem Edits.scene {scene : Scene} (edit : m.scene.Edit scene) : m.Edits { m with scene } :=
  .single (.scene edit)

theorem Edits.registers (registers : Registers) : m.Edits { m with registers } := .single (.registers _)

theorem Edits.call (c : HostCall) : m.Edits (m.call c) := .single (.call c)

end Machine

namespace Exec.Edits

open Machine

theorem outOfRange (subject : String) (index : Word) : (StageScript.outOfRange subject index).Edits := by
  intro m
  rw [outOfRange_apply]

theorem operands : operands.Edits := fun _ => .refl

theorem currentScene : currentScene.Edits := fun _ => .refl

/-- A step that looks at the scene first. -/
theorem currentScene_bind {α : Type} {f : Scene → Exec α} (hf : ∀ m, Machine.Edits m (f m.scene m).2) :
    (StageScript.currentScene >>= f).Edits := hf

/-- A change of the scene. -/
theorem modifyScene {f : Scene → Scene} (edit : ∀ s, Scene.Edit s (f s)) :
    (modify (·.modifyScene f) : Exec Unit).Edits :=
  fun m => .scene (edit m.scene)

/-- A change of the registers. -/
theorem modifyRegisters (f : Registers → Registers) : (modify (·.modifyRegisters f) : Exec Unit).Edits :=
  fun _ => .registers _

theorem setOperand (place : Nat) (w : Word) : (modify (·.setOperand place w) : Exec Unit).Edits :=
  modifyRegisters _

end Exec.Edits

open Exec Machine

/-! ## Variables -/

theorem isVolume_clampVolume (w : Word) : IsVolume (Variable.clampVolume w) := by
  unfold Variable.clampVolume
  split
  · exact ⟨by decide, by decide⟩
  · split
    · exact ⟨by decide, by decide⟩
    · next low high =>
      rw [Int32.lt_iff_toInt_lt] at low high
      constructor
      · rw [Int32.le_iff_toInt_le]
        omega
      · rw [Int32.le_iff_toInt_le]
        omega

/-- A change of something that has no extent, if there is one to make. -/
theorem Scene.Edit.of_map {α : Type} {s s' : Scene} {found : Option α} {change : α → Scene}
    (h : found.map change = some s')
    (same : ∀ a, (change a).extent = s.extent ∧ (change a).animations = s.animations) : s.Edit s' := by
  obtain ⟨a, -, rfl⟩ := Option.map_eq_some_iff.1 h
  exact .rest (same a).1 (same a).2

/-- A write to a variable that is kept in the scene. -/
theorem Variable.edit_writeScene? {v : Variable} {s s' : Scene} {index value : Word}
    (h : v.writeScene? s index value = some s') : s.Edit s' := by
  cases v with
  | global =>
    obtain ⟨i, -, h⟩ := Option.bind_eq_some_iff.1 h
    split at h
    · obtain rfl := Option.some.inj h
      refine .rest ?_ rfl
      simp only [Scene.extent, Array.size_setIfInBounds]
    · cases h
  | drawListSize =>
    obtain ⟨length, -, h⟩ := Option.bind_eq_some_iff.1 h
    split at h
    · next short =>
      obtain ⟨lists, updated, rfl⟩ := Option.map_eq_some_iff.1 h
      obtain ⟨k, -, rfl⟩ := Option.map_eq_some_iff.1 updated
      refine .list k ?_
      rw [size_resize]
      omega
    · cases h
  | menuSelection menu =>
    obtain rfl := Option.some.inj h
    exact .menu menu (Nat.le_max_left ..)
  -- the others write to something that is always there once, or is there as often as before
  | object => exact .of_map h fun _ => ⟨rfl, rfl⟩
  | playerNumber => exact .of_map h fun _ => ⟨rfl, rfl⟩
  | playerFlailing => exact .of_map h fun _ => ⟨rfl, rfl⟩
  | deformation => exact .of_map h fun _ => ⟨rfl, rfl⟩
  | activePlayer => exact .of_map h fun _ => ⟨rfl, rfl⟩
  | tileLayer => exact .of_map h fun _ => ⟨rfl, rfl⟩
  | parallax axis => cases axis <;> exact .of_map h fun _ => ⟨rfl, rfl⟩
  | vertex => exact .of_map h fun _ => ⟨rfl, rfl⟩
  | face => exact .of_map h fun _ => ⟨rfl, rfl⟩
  | saveRam => exact .of_map h fun _ => ⟨rfl, rfl⟩
  | _ =>
    obtain rfl := Option.some.inj h
    exact .rest rfl rfl

/-- **A write to any variable.** -/
theorem Variable.edits_write? {v : Variable} {m m' : Machine} {index value : Word}
    (h : v.write? m index value = some m') : m.Edits m' := by
  -- the volumes are told to the host
  have told {s : Scene} (c : HostCall) (edit : m.scene.Edit s) :
      m.Edits (({ m with scene := s } : Machine).call c) := (Edits.scene edit).tail (.call c)
  cases v
  case objectSheet =>
    obtain ⟨i, -, rfl⟩ := Option.map_eq_some_iff.1 h
    exact .single (.sheet _ _)
  case musicVolume =>
    obtain rfl := Option.some.inj h
    exact told _ (.volume (isVolume_clampVolume value))
  case effectsVolume =>
    obtain rfl := Option.some.inj h
    exact told _ (.rest rfl rfl)
  case trackVolume =>
    obtain rfl := Option.some.inj h
    exact told _ (.rest rfl rfl)
  case temp | checkResult | arrayPos =>
    obtain rfl := Option.some.inj h
    exact Edits.registers _
  all_goals
    -- the others are kept in the scene alone
    change change? m (writeScene? m.scene index value _) = some m' at h
    obtain ⟨scene, written, rfl⟩ := Option.map_eq_some_iff.1 h
    exact Edits.scene (edit_writeScene? written)

theorem Variable.edits_read (v : Variable) (index : Word) : (v.read index).Edits := by
  refine Along.get_bind fun m => ?_
  cases v.read? m index with
  | some value => exact .refl
  | none => exact (Edits.outOfRange v.name index).bind (fun _ => Along.pure 0) m

theorem Variable.edits_write (v : Variable) (index value : Word) : (v.write index value).Edits := by
  refine Along.get_bind fun m => ?_
  cases written : v.write? m index value with
  | some m' => exact edits_write? written
  | none => exact Edits.outOfRange v.name index m

/-! ## Instructions on data -/

theorem Binary.edits_perform (op : Binary) : op.perform.Edits := by
  refine Along.get_bind fun m => ?_
  cases op.divides && m.registers.operands[1] == 0 && m.strict with
  | true => exact .refl
  | false => exact Edits.registers _

theorem edits_performRandom : performRandom.Edits := by
  have drawn (m : Machine) (random : Random) (w : Word) :
      m.Edits (({ m with random } : Machine).setOperand 0 w) :=
    .tail (.single (.random random)) (.registers _)
  refine Along.modify fun m => ?_
  split
  · exact Edits.registers _
  · exact Edits.registers _
  · exact drawn m _ _

theorem Drawing.edits_perform (run : Activation) (op : Drawing) : (op.perform run).Edits := by
  refine Along.modify fun m => ?_
  generalize op.commands m run.object = commands
  -- the host is told one command after the other
  induction commands generalizing m with
  | nil => exact .refl
  | cons c rest ih => exact (Edits.call (.draw c)).trans (ih (m.call (.draw c)))

theorem Audio.edits_perform (op : Audio) : op.perform.Edits := by
  refine Along.modify fun m => ?_
  have edit : m.scene.Edit (op.scene m.registers.operands m.scene) := by
    cases op <;> exact .rest rfl rfl
  exact (Edits.scene edit).tail (.call _)

theorem Platform.edits_perform (op : Platform) : op.perform.Edits := by
  have answered (m : Machine) (w : Word) : m.Edits (m.answer w) := .registers _
  refine Along.modify fun m => ?_
  cases op
  case readSave =>
    show m.Edits (readSaveFile m)
    unfold readSaveFile
    have called : m.Edits (m.call .readSave) := .single (.call _)
    cases m.host.saved m.history with
    | some words =>
      have edit (s : Scene) (saveRam) : s.Edit { s with saveRam } := .rest rfl rfl
      exact (called.tail (.scene (edit _ _))).trans (answered _ 1)
    | none => exact called.trans (answered _ 0)
  case writeSave => exact (Edits.call _).trans (answered _ _)
  case loadStage =>
    have requested : m.scene.Edit { m.scene with stage := { m.scene.stage with loadRequested := true } } :=
      .rest rfl rfl
    exact (Edits.scene requested).tail (.call _)
  all_goals exact Edits.call _

theorem Sheet.edits_changeFrame (run : Activation) : (changeFrame run).Edits := by
  refine Along.get_bind fun m => ?_
  generalize Option.filter _ _ = place?
  cases place? with
  | some k =>
    refine Edits.scene (.rest ?_ rfl)
    simp only [Scene.extent, Array.size_setIfInBounds]
  | none => exact Edits.outOfRange "EditFrame" _ m

/-- **A sheet instruction** that adds no frame. -/
theorem Sheet.edits_perform {op : Sheet} (run : Activation) (other : op ≠ .addFrame) :
    (op.perform run).Edits := by
  cases op with
  | load => exact Along.modify fun m => (Edits.call _).tail (.sheet _ _)
  | remove => exact Along.modify fun m => Edits.call _
  | addFrame => exact absurd rfl other
  | editFrame => exact edits_changeFrame run

/-- **An animation instruction** that loads no file. -/
theorem AnimationOp.edits_perform {op : AnimationOp} (run : Activation) (other : op ≠ .load) :
    (op.perform run).Edits := by
  cases op with
  | load => exact absurd rfl other
  | process =>
    refine Along.modify fun m => ?_
    unfold advance
    split
    · exact Edits.scene (.rest rfl rfl)
    · exact .refl
  | getByName => exact Along.modify fun m => Edits.registers _

theorem TextMenu.size_rows_push_le_max (menu : TextMenu) (row : MenuRow) :
    (menu.push row).rows.size ≤ max menu.rows.size menuRowCapacity := by
  unfold push hasRoom
  split
  · next room =>
    rw [decide_eq_true_eq] at room
    rw [Array.size_push]
    omega
  · exact Nat.le_max_left ..

theorem TextMenu.size_rows_edit?_le_max {menu menu' : TextMenu} {place : Nat} {row : MenuRow}
    (h : menu.edit? place row = some menu') :
    menu'.rows.size ≤ max menu.rows.size menuRowCapacity := by
  unfold edit? at h
  split at h
  · obtain rfl := Option.some.inj h
    rw [Array.size_setIfInBounds]
    exact Nat.le_max_left ..
  · split at h
    · obtain rfl := Option.some.inj h
      exact size_rows_push_le_max menu row
    · cases h

theorem MenuOp.edits_change (subject : String) (number : Word) {f : TextMenu → TextMenu}
    (few : ∀ menu, (f menu).rows.size ≤ max menu.rows.size menuRowCapacity) :
    (change subject number f).Edits := by
  unfold change
  split
  · exact Edits.modifyScene fun s => .menu _ (few _)
  · exact Edits.outOfRange subject number

theorem MenuOp.edits_editRow (o : Operands) (text : String) : (editRow o text).Edits := by
  refine Edits.currentScene_bind fun m => ?_
  generalize edited : (Indexed.position? 2 o[0] >>= _) = scene?
  cases scene? with
  | some scene =>
    obtain ⟨k, -, edited⟩ := Option.bind_eq_some_iff.1 edited
    obtain ⟨place, -, edited⟩ := Option.bind_eq_some_iff.1 edited
    obtain ⟨menu, changed, edited⟩ := Option.bind_eq_some_iff.1 edited
    obtain rfl := Option.some.inj edited
    exact Edits.scene (.menu k (TextMenu.size_rows_edit?_le_max changed))
  | none => exact Edits.outOfRange "EditMenuEntry" o[2] m

theorem MenuOp.edits_loadRows (m : Machine) : m.Edits (loadRows m) := by
  have called : m.Edits (m.call (.loadText m.scriptText (m.registers.operands[2] ≠ 0))) :=
    .single (.call _)
  simp only [loadRows]
  split
  · next lines k _ _ =>
    refine called.tail (.scene (.menu k ?_))
    simp only [List.size_toArray, List.length_map, List.length_take]
    omega
  · exact called

theorem MenuOp.edits_perform (op : MenuOp) : op.perform.Edits := by
  refine Edits.operands.bind fun o => ?_
  cases op with
  | setup => exact edits_change _ _ fun menu => Nat.zero_le _
  | addEntry => exact Along.get_bind fun m => edits_change _ _ (TextMenu.size_rows_push_le_max · _) m
  | editEntry => exact Along.get_bind fun m => edits_editRow o m.scriptText m
  | loadText => exact Along.modify edits_loadRows
  | getInfo => exact Along.modify fun m => Edits.registers _
  | addVersion =>
    exact Edits.currentScene_bind fun m => edits_change _ _ (TextMenu.size_rows_push_le_max · _) m

theorem ObjectOp.edits_perform (run : Activation) (op : ObjectOp) : (op.perform run).Edits := by
  -- a question is asked, and the answer left
  have asked (m : Machine) (answer : Word) (c : HostCall) : m.Edits (ask m answer c) :=
    (Edits.call c).tail (.registers _)
  refine Edits.operands.bind fun o => ?_
  cases op with
  | reset =>
    show (resetSlot o).Edits
    unfold resetSlot
    split
    · exact Edits.modifyScene fun s => .rest rfl rfl
    · exact Edits.outOfRange _ _
  | createTemp =>
    have placed (m : Machine) (slot : Fin entityCount) (change : Entity → Entity) :
        m.Edits (m.modifyScene (·.modifyEntity slot change)) := .scene (.rest rfl rfl)
    refine Along.modify fun m => ?_
    dsimp only [createTemporary]
    split
    · exact (Edits.registers _).trans (placed _ _ _)
    · exact .refl
  | bindPlayer =>
    show (ObjectOp.bind o).Edits
    unfold ObjectOp.bind
    split
    · exact Edits.modifyScene fun s => .rest rfl rfl
    · exact Edits.outOfRange _ _
    · exact Edits.outOfRange _ _
  | playerCollision => exact Along.modify fun m => asked m _ _
  | playerTiles => exact Along.modify fun m => Edits.call _
  | playerControl => exact Along.modify fun m => Edits.call _
  | tileCollision => exact Along.modify fun m => asked m _ _
  | tileGrip => exact Along.modify fun m => asked m _ _
  | checkTouch => exact Along.modify fun m => Edits.registers _

theorem Space.edits_changeMatrix (subject : String) (number : Word) (f : Matrix → Matrix) :
    (changeMatrix subject number f).Edits := by
  refine Edits.currentScene_bind fun m => ?_
  cases Indexed.update? m.scene.space.matrices number f with
  | some matrices => exact Edits.scene (.rest rfl rfl)
  | none => exact Edits.outOfRange subject number m

theorem Space.edits_perform (op : Space) : op.perform.Edits := by
  refine Edits.operands.bind fun o => ?_
  split
  · exact edits_changeMatrix _ _ _
  · split
    · refine Edits.currentScene.bind fun s => ?_
      dsimp only
      split
      · exact edits_changeMatrix _ _ _
      · exact Edits.outOfRange _ _
      · exact Edits.outOfRange _ _
    · refine Edits.currentScene.bind fun s => ?_
      cases Indexed.at? s.space.matrices o[0] with
      | some matrix =>
        have edit (s : Scene) (space : Scene3D) : s.Edit { s with space } := .rest rfl rfl
        exact Edits.modifyScene fun s => edit s _
      | none => exact Edits.outOfRange "TransformVertices" o[0]

theorem LayerOp.edits_setWave (o : Operands) : (setWave o).Edits := by
  unfold setWave
  split
  · exact Along.pure _
  · refine Edits.currentScene_bind fun m => ?_
    cases Indexed.update? m.scene.deformation o[0] (deform · o) with
    | some deformation => exact Edits.scene (.rest rfl rfl)
    | none => exact Edits.outOfRange "SetLayerDeformation" o[0] m

theorem LayerOp.edits_perform (op : LayerOp) : op.perform.Edits := by
  refine Edits.operands.bind fun o => ?_
  cases op with
  | setDeformation => exact edits_setWave o
  | getTile =>
    refine Edits.currentScene.bind fun s => ?_
    split
    · exact Edits.setOperand _ _
    · exact Edits.outOfRange _ _
  | setTile =>
    refine Edits.currentScene_bind fun m => ?_
    cases changed : setTile? m.scene o[1] o[2] o[3] o[0].lowHalf with
    | some scene =>
      obtain ⟨place, -, changed⟩ := Option.bind_eq_some_iff.1 changed
      obtain ⟨layers, -, changed⟩ := Option.bind_eq_some_iff.1 changed
      obtain rfl := Option.some.inj changed
      exact Edits.scene (.rest rfl rfl)
    | none => exact Edits.outOfRange "SetTileLayerEntry" o[1] m
  | getTileInfo => exact Along.modify fun m => (Edits.call _).tail (.registers _)
  | copyTile => exact Along.modify fun m => Edits.call _
  | setTileInfo => exact Along.modify fun m => Edits.call _

/-- A draw list in the place of one, no longer than there are entities. -/
theorem DrawListOp.edit_change? {s s' : Scene} {layer : Word} {f : Array Nat → Option (Array Nat)}
    (short : ∀ list list', f list = some list' → list'.size ≤ max list.size entityCount)
    (h : change? s layer f = some s') : s.Edit s' := by
  obtain ⟨list, found, h⟩ := Option.bind_eq_some_iff.1 h
  obtain ⟨list', changed, h⟩ := Option.bind_eq_some_iff.1 h
  obtain ⟨lists, updated, h⟩ := Option.bind_eq_some_iff.1 h
  obtain rfl := Option.some.inj h
  obtain ⟨k, place, rfl⟩ := Option.map_eq_some_iff.1 updated
  obtain ⟨k', place', rfl⟩ := Option.map_eq_some_iff.1 found
  -- the list that is read and the one that is written are the same
  obtain rfl : k' = k := Option.some.inj (place'.symm.trans place)
  exact .list k' (short _ _ changed)

theorem DrawListOp.edits_leave (subject : String) (index : Word) {m : Machine} {scene? : Option Scene}
    (h : ∀ s', scene? = some s' → m.scene.Edit s') : m.Edits (leave subject index scene? m).2 := by
  cases scene? with
  | some s' => exact Edits.scene (h s' rfl)
  | none => exact Edits.outOfRange subject index m

theorem DrawListOp.edits_perform (op : DrawListOp) : op.perform.Edits := by
  refine Edits.operands.bind fun o => Edits.currentScene_bind fun m => ?_
  cases op with
  | clear =>
    refine edits_leave "ClearDrawList" o[0] fun s' => edit_change? fun list list' same => ?_
    obtain rfl := Option.some.inj same
    exact Nat.zero_le _
  | add =>
    refine edits_leave "AddDrawListEntityRef" o[1] fun s' added => ?_
    obtain ⟨e, -, added⟩ := Option.bind_eq_some_iff.1 added
    refine edit_change? (fun list list' same => ?_) added
    split at same
    · obtain rfl := Option.some.inj same
      rw [Array.size_push]
      omega
    · cases same
  | get =>
    simp only
    cases get? m.scene o[1] o[2] with
    | some e => exact Edits.setOperand _ _ m
    | none => exact Edits.outOfRange "GetDrawListEntityRef" o[2] m
  | set =>
    refine edits_leave "SetDrawListEntityRef" o[2] fun s' put => ?_
    obtain ⟨i, -, put⟩ := Option.bind_eq_some_iff.1 put
    obtain ⟨e, -, put⟩ := Option.bind_eq_some_iff.1 put
    refine edit_change? (fun list list' same => ?_) put
    split at same
    · obtain rfl := Option.some.inj same
      rw [Array.size_setIfInBounds, size_resize]
      omega
    · cases same

/-- **What an instruction on data does**, but for the two that add frames and load files. -/
theorem Opcode.edits_act {op : Opcode} (run : Activation) (noFrame : op ≠ .sheet .addFrame)
    (noFile : op ≠ .animation .load) : (op.act run).Edits := by
  cases op with
  | control _ => exact Along.pure _
  | ifTest _ => exact Along.pure _
  | whileTest _ => exact Along.pure _
  | binary op => exact op.edits_perform
  | unary op => exact Along.modify fun m => Edits.registers _
  | check op => exact Along.modify fun m => Edits.registers _
  | rand => exact edits_performRandom
  | formula op => exact Edits.modifyRegisters _
  | draw op => exact op.edits_perform run
  | palette op => exact Along.modify fun m => Edits.call _
  | audio op => exact op.edits_perform
  | platform op => exact op.edits_perform
  | sheet op => exact Sheet.edits_perform run fun same => noFrame (congrArg Opcode.sheet same)
  | animation op => exact AnimationOp.edits_perform run fun same => noFile (congrArg Opcode.animation same)
  | menu op => exact op.edits_perform
  | object op => exact op.edits_perform run
  | space op => exact op.edits_perform
  | layer op => exact op.edits_perform
  | drawList op => exact op.edits_perform

/-! ## Control instructions -/

theorem edits_pushBranch (slot : Word) : (pushBranch slot).Edits := by
  refine Along.get_bind fun m => ?_
  split
  · next room =>
    refine .single (.branches ?_)
    rw [List.length_cons]
    omega
  · exact .refl

theorem edits_popBranch : popBranch.Edits := by
  refine Along.get_bind fun m => ?_
  cases open_ : m.branches with
  | nil => exact .refl
  | cons slot rest =>
    refine .single (.branches ?_)
    rw [open_, List.length_cons]
    omega

theorem edits_enterFunction (p : Program) (next : Position) (index : Word) :
    (enterFunction p next index).Edits := by
  unfold enterFunction
  split
  · exact Along.throw _
  · refine Along.get_bind fun m => ?_
    split
    · next room =>
      refine .single (.calls ?_)
      rw [List.length_cons]
      omega
    · exact .refl

theorem edits_returnFromFunction : returnFromFunction.Edits := by
  refine Along.get_bind fun m => ?_
  cases open_ : m.calls with
  | nil => exact .refl
  | cons back rest =>
    refine .single (.calls ?_)
    rw [open_, List.length_cons]
    omega

/-- The parts of control instructions. -/
theorem edits_controlParts (p : Program) : ControlParts (fun _ => Exec.Edits) p where
  operands := Edits.operands
  pushBranch := edits_pushBranch
  popBranch := edits_popBranch
  word _ _ _ := .mk_pure _
  jump _ _ _ := .mk_pure _
  enterFunction := edits_enterFunction p
  returnFromFunction := edits_returnFromFunction

/-- **Every instruction** whose operands have been loaded, but for the two that add frames and load files. -/
theorem Opcode.edits_perform {op : Opcode} (p : Program) (run : Activation) (next : Position)
    (noFrame : op ≠ .sheet .addFrame) (noFile : op ≠ .animation .load) : (op.perform p run next).Edits :=
  Inherited.along.perform (edits_controlParts p) next fun _ => edits_act run noFrame noFile

/-! ## Operands -/

theorem Argument.edits_use (direction : Direction) (object place : Nat) (argument : Argument) :
    (argument.use direction object place).Edits := by
  have load : (argument.load object).Edits := by
    cases argument with
    | integer value => exact Along.pure value
    | text content => exact fun m => .single (.text _)
    | element v address => exact Along.get_bind fun m => v.edits_read _ m
  have store (value : Word) : (argument.store object value).Edits := by
    cases argument with
    | integer _ => exact Along.pure _
    | text _ => exact Along.pure _
    | element v address => exact Along.get_bind fun m => v.edits_write _ value m
  cases direction with
  | load => exact load.bind fun value => Edits.setOperand place value
  | store => exact Edits.operands.bind fun o => store o[place]

theorem edits_walkOperands (direction : Direction) (code : Array Word) (object count place offset : Nat) :
    (walkOperands direction code object count place offset).Edits :=
  Inherited.along.walkOperands (fun _ => .mk_pure _) (fun place a => a.edits_use direction object place)
    count place offset

/-- Reading an instruction and loading its operands. -/
theorem edits_fetch (code : Array Word) (object offset : Nat) : (fetch code object offset).Edits :=
  Inherited.along.fetch (fun _ => .mk_pure _) (fun _ _ => edits_walkOperands _ _ _ _ _ _) offset

end StageScript
