import StageScript.Machine.Run
import StageScript.Proofs.Ascent
import StageScript.Proofs.Machine.Execution

/-! # What scripts can make of a machine
The parts of a machine that grow and shrink, what refers to them, and how far a script can change them.
* **`Scene.Evolves`** and **`Machine.Evolves`** — the change is one that scripts can make;
* **`Machine.Steady`** — and it adds no sprite frames;
* **`Exec.Tame`** and **`Exec.Steady`** — steps that make no other changes. -/

namespace StageScript

open Stepwise

/-! ## Scenes -/

/-- What of a scene varies in size, and the volume, which stays in a range. -/
structure Scene.Extent where
  /-- The numbers of rows of the menus. -/
  rows : Fin 2 → Nat
  frames : Nat
  animations : Nat
  globals : Nat
  /-- The lengths of the draw lists. -/
  lists : Fin drawListCount → Nat
  volume : Word

/-- The extent of a scene. -/
def Scene.extent (s : Scene) : Scene.Extent where
  rows k := (s.menus.get k).rows.size
  frames := s.spriteFrames.size
  animations := s.animations.size
  globals := s.globals.size
  lists k := (s.drawLists.get k).size
  volume := s.music.volume

/-- A volume between silence and full. -/
def IsVolume (w : Word) : Prop := 0 ≤ w ∧ w ≤ 100

/-- **What scripts can make of an extent**: nothing gets longer than it may be, unless it was before, and
nothing that is referred to by its number goes away. -/
structure Scene.Extent.Admits (a b : Scene.Extent) : Prop where
  rows : ∀ k, b.rows k ≤ max (a.rows k) menuRowCapacity
  frames : b.frames ≤ max a.frames spriteFrameCapacity
  animations : a.animations ≤ b.animations
  globals : b.globals = a.globals
  lists : ∀ k, b.lists k ≤ max (a.lists k) entityCount
  volume : b.volume = a.volume ∨ IsVolume b.volume

/-- The second scene is one that scripts can make of the first. -/
def Scene.Evolves (s s' : Scene) : Prop := s.extent.Admits s'.extent

namespace Scene

/-- A change that keeps the extent. -/
theorem Evolves.of_extent {s s' : Scene} (h : s'.extent = s.extent) : s.Evolves s' where
  rows _ := h ▸ Nat.le_max_left ..
  frames := h ▸ Nat.le_max_left ..
  animations := h ▸ Nat.le_refl _
  globals := congrArg Extent.globals h
  lists _ := h ▸ Nat.le_max_left ..
  volume := .inl (congrArg Extent.volume h)

theorem Evolves.trans {s s' s'' : Scene} (h : s.Evolves s') (h' : s'.Evolves s'') : s.Evolves s'' where
  rows k := by
    have := h.rows k
    have := h'.rows k
    omega
  frames := by
    have := h.frames
    have := h'.frames
    omega
  animations := Nat.le_trans h.animations h'.animations
  globals := h'.globals.trans h.globals
  lists k := by
    have := h.lists k
    have := h'.lists k
    omega
  volume := by
    rcases h'.volume with same | good
    · rcases h.volume with same' | good
      · exact .inl (same.trans same')
      · exact .inr (same ▸ good)
    · exact .inr good

variable {s : Scene}

theorem evolves_spriteFrames {frames : Array SpriteFrame}
    (few : frames.size ≤ max s.spriteFrames.size spriteFrameCapacity) :
    s.Evolves { s with spriteFrames := frames } :=
  { Evolves.of_extent (s := s) rfl with frames := few }

/-! ### Scenes whose frames stay -/

/-- **The second scene is one that scripts can make of the first** without a sprite frame more or less. -/
structure Steady (s s' : Scene) : Prop where
  evolves : s.Evolves s'
  frames : s'.spriteFrames.size = s.spriteFrames.size

/-- A change that keeps the extent. -/
theorem Steady.of_extent {s s' : Scene} (h : s'.extent = s.extent) : s.Steady s' :=
  ⟨.of_extent h, congrArg Extent.frames h⟩

/-- A menu with other rows, which are no more than fit. -/
theorem steady_menus (k : Fin 2) {menu : TextMenu}
    (few : menu.rows.size ≤ max (s.menus.get k).rows.size menuRowCapacity) :
    s.Steady { s with menus := Indexed.put s.menus k menu } := by
  refine ⟨{ Evolves.of_extent (s := s) rfl with rows := fun j => ?_ }, rfl⟩
  show ((Indexed.put s.menus k menu).get j).rows.size ≤ _
  rw [Indexed.get_put]
  split
  next same =>
    subst same
    exact few
  next => exact Nat.le_max_left ..

/-- A draw list in the place of another, no longer than there are entities. -/
theorem steady_drawLists (k : Fin drawListCount) {list : Array Nat}
    (short : list.size ≤ max (s.drawLists.get k).size entityCount) :
    s.Steady { s with drawLists := Indexed.put s.drawLists k list } := by
  refine ⟨{ Evolves.of_extent (s := s) rfl with lists := fun j => ?_ }, rfl⟩
  show ((Indexed.put s.drawLists k list).get j).size ≤ _
  rw [Indexed.get_put]
  split
  next same =>
    subst same
    exact short
  next => exact Nat.le_max_left ..

theorem steady_animations {animations : Array AnimationFile}
    (more : s.animations.size ≤ animations.size) : s.Steady { s with animations } :=
  ⟨{ Evolves.of_extent (s := s) rfl with animations := more }, rfl⟩

end Scene

/-! ## Machines -/

/-- **The second machine is one that scripts can make of the first.** -/
structure Machine.Evolves (m m' : Machine) : Prop where
  scene : m.scene.Evolves m'.scene
  /-- A type has got another animation file only if there is one of that number. -/
  animation : ∀ type, (m'.typeData type).animation = (m.typeData type).animation ∨
    ∃ k, (m'.typeData type).animation = some k ∧ k < m'.scene.animations.size
  /-- A type's part of the list of sprite frames begins where it did. -/
  offset : ∀ type, (m'.typeData type).frameListOffset = (m.typeData type).frameListOffset
  branches : m'.branches.length ≤ max m.branches.length branchDepthLimit
  calls : m'.calls.length ≤ max m.calls.length callDepthLimit

namespace Machine

/-- A change of nothing that is referred to. -/
theorem Evolves.of_same {m m' : Machine} (scene : m'.scene.extent = m.scene.extent)
    (types : m'.types = m.types) (branches : m'.branches = m.branches) (calls : m'.calls = m.calls) :
    m.Evolves m' where
  scene := .of_extent scene
  animation type := .inl (by rw [typeData, typeData, types])
  offset type := by rw [typeData, typeData, types]
  branches := branches ▸ Nat.le_max_left ..
  calls := calls ▸ Nat.le_max_left ..

theorem Evolves.refl (m : Machine) : m.Evolves m := .of_same rfl rfl rfl rfl

theorem Evolves.trans {m m' m'' : Machine} (h : m.Evolves m') (h' : m'.Evolves m'') :
    m.Evolves m'' where
  scene := h.scene.trans h'.scene
  animation type := by
    rcases h'.animation type with same | known
    · rcases h.animation type with same' | ⟨k, here, known⟩
      · exact .inl (same.trans same')
      -- the first change gave the type a file, and the second took none away
      · exact .inr ⟨k, same.trans here, Nat.lt_of_lt_of_le known h'.scene.animations⟩
    · exact .inr known
  offset type := (h'.offset type).trans (h.offset type)
  branches := by
    have := h.branches
    have := h'.branches
    omega
  calls := by
    have := h.calls
    have := h'.calls
    omega

instance : IsPreorder Machine Machine.Evolves where
  refl := Evolves.refl
  trans _ _ _ := Evolves.trans

variable {m : Machine}

theorem evolves_scene {scene : Scene} (h : m.scene.Evolves scene) : m.Evolves { m with scene } where
  scene := h
  animation _ := .inl rfl
  offset _ := rfl
  branches := Nat.le_max_left ..
  calls := Nat.le_max_left ..

/-- A type with other data: its frames begin where they did, and its animation file is the one that it
was or another one that there is. -/
theorem evolves_modifyType (type : UInt8) {change : TypeData → TypeData}
    (offset : (change (m.typeData type)).frameListOffset = (m.typeData type).frameListOffset)
    (animation : (change (m.typeData type)).animation = (m.typeData type).animation ∨
      ∃ k, (change (m.typeData type)).animation = some k ∧ k < m.scene.animations.size) :
    m.Evolves (m.modifyType type change) := by
  have kept := Evolves.refl m
  refine ⟨kept.scene, fun other => ?_, fun other => ?_, kept.branches, kept.calls⟩
  · rw [typeData_modifyType]
    split
    next same =>
      subst same
      exact animation
    next => exact .inl rfl
  · rw [typeData_modifyType]
    split
    next same =>
      subst same
      exact offset
    next => rfl

/-! ### Machines whose frames stay -/

/-- **The second machine is one that scripts can make of the first** without a sprite frame more or less,
and each type has as many of them as before. -/
structure Steady (m m' : Machine) : Prop extends m.Evolves m' where
  frames : m'.scene.spriteFrames.size = m.scene.spriteFrames.size
  counts : ∀ type, (m'.typeData type).frameCount = (m.typeData type).frameCount

theorem Steady.of_same {m m' : Machine} (scene : m'.scene.extent = m.scene.extent)
    (types : m'.types = m.types) (branches : m'.branches = m.branches) (calls : m'.calls = m.calls) :
    m.Steady m' where
  toEvolves := .of_same scene types branches calls
  frames := congrArg Scene.Extent.frames scene
  counts type := by rw [typeData, typeData, types]

theorem Steady.refl (m : Machine) : m.Steady m := .of_same rfl rfl rfl rfl

theorem Steady.trans {m m' m'' : Machine} (h : m.Steady m') (h' : m'.Steady m'') : m.Steady m'' where
  toEvolves := h.toEvolves.trans h'.toEvolves
  frames := h'.frames.trans h.frames
  counts type := (h'.counts type).trans (h.counts type)

instance : IsPreorder Machine Machine.Steady where
  refl := Steady.refl
  trans _ _ _ := Steady.trans

theorem steady_scene {scene : Scene} (h : m.scene.Steady scene) : m.Steady { m with scene } where
  toEvolves := evolves_scene h.evolves
  frames := h.frames
  counts _ := rfl

/-- A type with other data: its frames are where they were. -/
theorem steady_modifyType (type : UInt8) {change : TypeData → TypeData}
    (offset : (change (m.typeData type)).frameListOffset = (m.typeData type).frameListOffset)
    (count : (change (m.typeData type)).frameCount = (m.typeData type).frameCount)
    (animation : (change (m.typeData type)).animation = (m.typeData type).animation ∨
      ∃ k, (change (m.typeData type)).animation = some k ∧ k < m.scene.animations.size) :
    m.Steady (m.modifyType type change) where
  toEvolves := evolves_modifyType type offset animation
  frames := rfl
  counts other := by
    rw [typeData_modifyType]
    split
    next same =>
      subst same
      exact count
    next => rfl

end Machine

/-! ## Steps -/

/-- **A step that changes a machine only as scripts can.** -/
abbrev Exec.Tame {α : Type} (x : Exec α) : Prop := Along Machine.Evolves x

/-- **A step that adds no frames** besides. -/
abbrev Exec.Steady {α : Type} (x : Exec α) : Prop := Along Machine.Steady x

theorem Exec.Steady.tame {α : Type} {x : Exec α} (h : x.Steady) : x.Tame := fun m => (h m).toEvolves

end StageScript
