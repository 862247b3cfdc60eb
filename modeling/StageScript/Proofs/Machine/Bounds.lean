import StageScript.Machine.Run
import StageScript.Proofs.Stepwise

/-! # Instructions stay inside lists
Some instructions go to elements of lists by number. Here each of them is written out with accesses that
have no result outside of a list. They always have one, and it is what the instruction does.
* `Space.moveEach` moves vertices one after the other, and `LayerOp.copyLines` copies lines so;
* `Sheet.framesBehind`, `TextMenu.editAt` and `DrawListOp.listBehind` put an element somewhere;
* **`Machine.Inside`** — none of these accesses is outside of a list, whatever the operands are;
* **`Machine.inside`** — that is so wherever types begin inside the list of sprite frames. -/

namespace StageScript

open Indexed

/-! ## Accesses by number -/

/-- Puts an element in the place of one that a list has. -/
def Checked.put? {α : Type} (xs : Array α) (i : Nat) (x : α) : Option (Array α) :=
  if i < xs.size then some (xs.setIfInBounds i x) else none

/-- The sum of two positions, which has to be a position itself. -/
def Checked.add? (i k : Nat) : Option Nat := if i + k < UInt64.size then some (i + k) else none

theorem Checked.put?_of_lt {α : Type} {xs : Array α} {i : Nat} (x : α) (h : i < xs.size) :
    put? xs i x = some (xs.setIfInBounds i x) := if_pos h

theorem Indexed.place?_of_lt {n i : Nat} (h : i < n) : place? n i = some ⟨i, h⟩ := dif_pos h

/-! ## Vertices -/

namespace Space

/-- Moves the vertices of the given numbers, one after the other. -/
def moveEach (matrix : Matrix) : List Nat → Scene3D → Option Scene3D
  | [], space => some space
  | i :: rest, space => do
    let k ← place? vertexCapacity i
    moveEach matrix rest
      { space with transformed := put space.transformed k (moved matrix (space.vertices.get k)) }

/-- Other transformed vertices. -/
def withTransformed (space : Scene3D) (transformed : Vector Vertex vertexCapacity) : Scene3D :=
  { space with transformed }

/-- Vertices one behind the other that there are. -/
theorem moveEach_range' (matrix : Matrix) (space : Scene3D) (start count : Nat)
    (fits : count = 0 ∨ start + count ≤ vertexCapacity) :
    moveEach matrix (List.range' start count) space =
      some (transform space matrix start (start + count)) := by
  induction count generalizing space start with
  | zero =>
    have none : (Vector.ofFn fun i : Fin vertexCapacity =>
        if start ≤ i.val ∧ i.val < start + 0 then moved matrix (space.vertices.get i)
        else space.transformed.get i) = space.transformed := by
      ext i h
      rw [Vector.getElem_ofFn, if_neg (by omega)]
      rfl
    rw [transform, none]
    rfl
  | succ count ih =>
    have fits : start + (count + 1) ≤ vertexCapacity := fits.resolve_left (Nat.succ_ne_zero count)
    have known : place? vertexCapacity start = some ⟨start, by omega⟩ := place?_of_lt (by omega)
    rw [List.range'_succ, moveEach, known]
    refine (ih _ (start + 1) (.inr (by omega))).trans (congrArg some (congrArg (withTransformed space) ?_))
    -- the first vertex has been moved, and the others are moved as before
    ext i h
    simp only [Vector.getElem_ofFn, get_put, Fin.mk.injEq]
    by_cases first : start = i
    · subst first
      rw [if_neg (by omega), if_pos rfl, if_pos (by omega)]
    · simp only [if_neg first]
      by_cases inside : start + 1 ≤ i ∧ i < start + 1 + count
      · rw [if_pos inside, if_pos (by omega)]
      · rw [if_neg inside, if_neg (by omega)]

/-- **A range of vertices**, of which those are moved that there are. -/
theorem moveEach_range'_min (matrix : Matrix) (space : Scene3D) (start finish : Nat) :
    moveEach matrix (List.range' start (min finish vertexCapacity - start)) space =
      some (transform space matrix start finish) := by
  rw [moveEach_range' matrix space start _ (by omega)]
  refine congrArg some (congrArg (withTransformed space) ?_)
  ext i h
  simp only [Vector.getElem_ofFn]
  by_cases inside : start ≤ i ∧ i < finish
  · rw [if_pos inside, if_pos (by omega)]
  · rw [if_neg inside, if_neg (by omega)]

end Space

/-! ## Lines -/

namespace LayerOp

/-- Copies the first lines of a buffer to others behind them, as they lie before. -/
def copyLines (data : Deformation) (target : Nat) : (count : Nat) → Option Deformation
  | 0 => some data
  | count + 1 => do
    let copied ← copyLines data target count
    let source ← place? deformationLength count
    let k ← place? deformationLength (target + count)
    return put copied k (data.get source)

theorem copyLines_of_le (data : Deformation) {target count : Nat}
    (fits : target + count ≤ deformationLength) :
    copyLines data target count = some (Vector.ofFn fun i =>
      if target ≤ i.val ∧ i.val < target + count then data[i.val - target] else data.get i) := by
  induction count with
  | zero =>
    refine congrArg some ?_
    ext i h
    rw [Vector.getElem_ofFn, if_neg (by omega)]
    rfl
  | succ count ih =>
    have source : place? deformationLength count = some ⟨count, by omega⟩ := place?_of_lt (by omega)
    have known : place? deformationLength (target + count) = some ⟨target + count, by omega⟩ :=
      place?_of_lt (by omega)
    rw [copyLines, ih (by omega), source, known]
    refine congrArg some ?_
    ext i h
    -- the line behind those that are copied already is the one that is copied now
    rw [put, Vector.getElem_set, Vector.getElem_ofFn, Vector.getElem_ofFn]
    dsimp only
    by_cases last : target + count = i
    · subst last
      rw [if_pos rfl, if_pos (by omega)]
      simp only [Nat.add_sub_cancel_left]
      rfl
    · rw [if_neg last]
      by_cases inside : target ≤ i ∧ i < target + count
      · rw [if_pos inside, if_pos (by omega)]
      · rw [if_neg inside, if_neg (by omega)]

/-- **The lines behind the first period** are copies of those in front. -/
theorem copyLines_eq (data : Deformation) :
    copyLines data deformationPeriod (deformationLength - deformationPeriod) = some (extend data) := by
  rw [copyLines_of_le data (by decide), extend]
  refine congrArg some ?_
  ext i h
  rw [Vector.getElem_ofFn, Vector.getElem_ofFn]
  dsimp only
  by_cases behind : deformationPeriod ≤ i
  · have inside : i < deformationPeriod + (deformationLength - deformationPeriod) := h
    rw [if_pos ⟨behind, inside⟩, if_pos behind]
  · rw [if_neg (by omega), if_neg behind]

end LayerOp

/-! ## Frames, rows and draw lists -/

/-- The frames behind a change of the frame that the operands name, if there is such a frame. -/
def Sheet.framesBehind (m : Machine) (run : Activation) : Option (Option (Array SpriteFrame)) :=
  let o := m.registers.operands
  match o[0].index? with
  | none => some none
  | some k => do
    let place ← Checked.add? (m.typeData (m.objectType run.object)).frameListOffset k
    if place < m.scene.spriteFrames.size then
      some <$> Checked.put? m.scene.spriteFrames place (frameOf o 1)
    else some none

/-- What the instruction does with these frames. -/
def Sheet.leaveFrames (m : Machine) : Option (Array SpriteFrame) → Except Fault Unit × Machine
  | some spriteFrames => (.ok (), m.modifyScene ({ · with spriteFrames }))
  | none => outOfRange "EditFrame" m.registers.operands[0] m

/-- **A change of a frame** where types begin inside the list: the number of the frame is a position. -/
theorem Sheet.exists_framesBehind (m : Machine) (run : Activation)
    (begins : (m.typeData (m.objectType run.object)).frameListOffset ≤ spriteFrameCapacity) :
    ∃ frames?, framesBehind m run = some frames? ∧ changeFrame run m = leaveFrames m frames? := by
  have opened : changeFrame run m =
      leaveFrames m ((m.registers.operands[0].index?.filter fun k =>
        (m.typeData (m.objectType run.object)).frameListOffset + k < m.scene.spriteFrames.size).map
          fun k => m.scene.spriteFrames.setIfInBounds
            ((m.typeData (m.objectType run.object)).frameListOffset + k)
            (frameOf m.registers.operands 1)) := by
    unfold changeFrame
    rw [Stepwise.bind_apply, Stepwise.get_apply]
    dsimp only
    generalize Option.filter _ _ = place?
    cases place? with
    | some k => rfl
    | none => rfl
  rw [opened, framesBehind]
  cases named : m.registers.operands[0].index? with
  | none => exact ⟨none, rfl, rfl⟩
  | some k =>
    have small : k < 2 ^ 31 := by
      unfold Word.index? at named
      split at named
      · cases named
      · have := Option.some.inj named
        have := m.registers.operands[0].toInt_lt
        omega
    -- neither summand is large enough for the sum to be no position
    have position : Checked.add? (m.typeData (m.objectType run.object)).frameListOffset k =
        some ((m.typeData (m.objectType run.object)).frameListOffset + k) :=
      if_pos (by unfold spriteFrameCapacity at begins; unfold UInt64.size; omega)
    dsimp only
    rw [position, Option.bind_eq_bind, Option.bind_some, Option.filter_some]
    by_cases known :
        (m.typeData (m.objectType run.object)).frameListOffset + k < m.scene.spriteFrames.size
    · rw [if_pos known, Checked.put?_of_lt _ known, if_pos (decide_eq_true known)]
      exact ⟨_, rfl, rfl⟩
    · rw [if_neg known, if_neg (by simpa using known)]
      exact ⟨none, rfl, rfl⟩

/-- A menu behind a change of a row, if it has the row or may get it. -/
def TextMenu.editAt (menu : TextMenu) (place : Nat) (row : MenuRow) : Option (Option TextMenu) :=
  if place < menu.rows.size then
    (Checked.put? menu.rows place row).map fun rows => some { menu with rows }
  else if place = menu.rows.size ∧ place < menuRowCapacity then
    some (some { menu with rows := menu.rows.push row })
  else some none

theorem TextMenu.editAt_eq (menu : TextMenu) (place : Nat) (row : MenuRow) :
    menu.editAt place row = some (menu.edit? place row) := by
  unfold editAt edit?
  split
  · next known =>
    rw [Checked.put?_of_lt row known]
    rfl
  · by_cases last : place = menu.rows.size
    · subst last
      unfold push
      -- a row behind the last one is a new one
      by_cases room : menu.rows.size < menuRowCapacity
      · have hasRoom : menu.hasRoom = true := decide_eq_true room
        rw [if_pos ⟨rfl, room⟩, if_pos ⟨rfl, hasRoom⟩, if_pos hasRoom]
      · have full : ¬ menu.hasRoom = true := fun has => room (of_decide_eq_true has)
        rw [if_neg fun both => room both.2, if_neg fun both => full both.2]
    · rw [if_neg fun both => last both.1, if_neg fun both => last both.1]

/-- A draw list behind a change of its entity at a place, for which it grows as far as it has to. -/
def DrawListOp.putAt (list : Array Nat) (i e : Nat) : Option (Array Nat) :=
  if i < entityCount then some ((resize list (max list.size (i + 1))).setIfInBounds i e) else none

/-- The instruction that puts an entity at a place makes this change. -/
theorem DrawListOp.set?_eq (s : Scene) (entity layer place : Word) :
    set? s entity layer place =
      place.index?.bind fun i => entity.index?.bind fun e => change? s layer (putAt · i e) := rfl

/-- A draw list behind such a change, if there is a place like that. -/
def DrawListOp.listBehind (list : Array Nat) (i e : Nat) : Option (Option (Array Nat)) :=
  if i < entityCount then
    some <$> Checked.put? (if list.size ≤ i then resize list (i + 1) else list) i e
  else some none

theorem resize_size (list : Array Nat) : resize list list.size = list := by
  simp [resize]

theorem DrawListOp.listBehind_eq (list : Array Nat) (i e : Nat) :
    listBehind list i e = some (putAt list i e) := by
  unfold listBehind putAt
  split
  · by_cases grows : list.size ≤ i
    · have inside : i < (resize list (i + 1)).size := by
        rw [size_resize]
        omega
      rw [if_pos grows, Checked.put?_of_lt e inside, Nat.max_eq_right (by omega)]
      rfl
    · rw [if_neg grows, Checked.put?_of_lt e (Nat.lt_of_not_le grows), Nat.max_eq_left (by omega),
        resize_size]
      rfl
  · rfl

/-! ## Instructions -/

/-- **No instruction goes to an element outside of a list** in this machine. Vertices are moved one after
the other, the lines of a buffer are copied so, and frames, rows and draw lists get elements at numbers
that they have; tiles and operand registers are gone to by numbers that are small enough. -/
structure Machine.Inside (m : Machine) : Prop where
  vertices : ∀ matrix start finish,
    Space.moveEach matrix (List.range' start (min finish vertexCapacity - start)) m.scene.space =
      some (Space.transform m.scene.space matrix start finish)
  lines : ∀ k o, ∃ data : Deformation, LayerOp.deform (m.scene.deformation.get k) o = LayerOp.extend data ∧
    LayerOp.copyLines data deformationPeriod (deformationLength - deformationPeriod) =
      some (LayerOp.extend data)
  frames : ∀ run, ∃ frames?, Sheet.framesBehind m run = some frames? ∧
    Sheet.changeFrame run m = Sheet.leaveFrames m frames?
  rows : ∀ k place row,
    (m.scene.menus.get k).editAt place row = some ((m.scene.menus.get k).edit? place row)
  lists : ∀ k i e,
    DrawListOp.listBehind (m.scene.drawLists.get k) i e =
      some (DrawListOp.putAt (m.scene.drawLists.get k) i e)
  tiles : ∀ k x y place, TileLayer.index? x y = some place →
    place < (m.scene.tileLayers.get k).tiles.toArray.size
  operands : ∀ (op : Opcode) place, place < op.arity → place < m.registers.operands.words.toArray.size

/-- **Where types begin inside the list of sprite frames**, no instruction goes outside of a list. -/
theorem Machine.inside (m : Machine)
    (begins : ∀ type, (m.typeData type).frameListOffset ≤ spriteFrameCapacity) : m.Inside where
  vertices matrix start finish := Space.moveEach_range'_min matrix m.scene.space start finish
  lines _ _ := ⟨_, rfl, LayerOp.copyLines_eq _⟩
  frames run := Sheet.exists_framesBehind m run (begins _)
  rows k place row := TextMenu.editAt_eq (m.scene.menus.get k) place row
  lists k i e := DrawListOp.listBehind_eq (m.scene.drawLists.get k) i e
  tiles k x y place known := by
    obtain ⟨i, -, known⟩ := Option.bind_eq_some_iff.1 known
    obtain ⟨j, -, known⟩ := Option.bind_eq_some_iff.1 known
    split at known
    · next inside =>
      obtain rfl := Option.some.inj known
      rw [Vector.size_toArray]
      unfold tileLayerSize at inside ⊢
      omega
    · cases known
  operands op place few := by
    have := op.arity_le
    rw [Vector.size_toArray]
    omega

end StageScript
