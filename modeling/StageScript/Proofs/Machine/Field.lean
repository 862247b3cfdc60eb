import StageScript.Scene.Basic

/-! # Fields of records as places
A field is a place for a word, but for the whole pixels of a position, which are a view of it.
* **`FieldKind.keep`** and **`FieldKind.view`** — what a place holds behind a write, and what a field
  shows of it;
* **`EntityField.apart`** and its like — a field is written through no other field than its views. -/

namespace StageScript

/-! ## Keeping and showing -/

/-- What a place holds once a word has been written to a field of the kind. -/
def FieldKind.keep : FieldKind → Word → Word
  | .word, w => w
  | .byte, w => Word.ofByte w.lowByte
  | .whole, w => Word.ofWhole w

/-- What a field of the kind shows of its place. -/
def FieldKind.view : FieldKind → Word → Word
  | .whole, w => w.whole
  | _, w => w

/-- What is read back is what the field shows of what it keeps. -/
theorem FieldKind.view_keep (kind : FieldKind) (w : Word) :
    kind.view (kind.keep w) = kind.normalise w := by
  cases kind <;> rfl

theorem FieldKind.normalise_eq_keep {kind : FieldKind} (h : kind ≠ .whole) (w : Word) :
    kind.normalise w = kind.keep w := by
  cases kind with
  | whole => exact absurd rfl h
  | _ => rfl

theorem FieldKind.view_of_ne {kind : FieldKind} (h : kind ≠ .whole) (w : Word) :
    kind.view w = w := by
  cases kind with
  | whole => exact absurd rfl h
  | _ => rfl

theorem TileLayerField.kind_ne_whole (field : TileLayerField) : field.accessor.kind ≠ .whole := by
  cases field <;> exact fun h => nomatch h

theorem FaceField.kind_ne_whole (field : FaceField) : field.accessor.kind ≠ .whole := by
  cases field <;> exact fun h => nomatch h

/-- Writing one field leaves another one as it is. -/
def Accessor.Apart {σ : Type} (a b : Accessor σ) : Prop := ∀ s w, b.get (a.set s w) = b.get s

/-- The field that holds what a field shows. The whole pixels are a view of the position. -/
def EntityField.part : EntityField → EntityField
  | .wholeX => .xPos
  | .wholeY => .yPos
  | field => field

/-- The field that holds what a field shows. The whole pixels are a view of the position. -/
def PlayerField.part : PlayerField → PlayerField
  | .wholeX => .xPos
  | .wholeY => .yPos
  | field => field

/-- A field of an entity that is no view of another one. -/
abbrev EntityPart := { field : EntityField // field.accessor.kind ≠ .whole }

/-- A field of a player that is no view of another one. -/
abbrev PlayerPart := { field : PlayerField // field.accessor.kind ≠ .whole }

theorem EntityField.kind_part (field : EntityField) : field.part.accessor.kind ≠ .whole := by
  cases field <;> exact fun h => nomatch h

theorem PlayerField.kind_part (field : PlayerField) : field.part.accessor.kind ≠ .whole := by
  cases field <;> exact fun h => nomatch h

/-- The field that holds what a field shows, as a part of the entity. -/
def EntityField.toPart (field : EntityField) : EntityPart := ⟨field.part, field.kind_part⟩

/-- The field that holds what a field shows, as a part of the player. -/
def PlayerField.toPart (field : PlayerField) : PlayerPart := ⟨field.part, field.kind_part⟩

section

-- Comparing two records must not compare what is put into them bit by bit.
attribute [local irreducible] Word.ofWhole Word.lowByte

/-- A part of an entity that is written through no other field than its own. -/
theorem EntityField.apart {f : EntityField} {g : EntityPart} (h : g ≠ f.toPart) :
    f.accessor.Apart g.val.accessor := by
  obtain ⟨g, hg⟩ := g
  replace h : g ≠ f.part := fun e => h (Subtype.ext e)
  intro s w
  cases f <;> cases g <;> first
    | rfl
    | exact absurd rfl h
    | exact absurd rfl hg
    | rename_i k j
      have : k ≠ j := fun e => h (e ▸ rfl)
      simp [accessor, Accessor.word, this]

/-- A part of a player that is written through no other field than its own. -/
theorem PlayerField.apart {f : PlayerField} {g : PlayerPart} (h : g ≠ f.toPart) :
    f.accessor.Apart g.val.accessor := by
  obtain ⟨g, hg⟩ := g
  replace h : g ≠ f.part := fun e => h (Subtype.ext e)
  intro s w
  cases f <;> cases g <;> first
    | rfl
    | exact absurd rfl h
    | exact absurd rfl hg
    | rename_i k j
      have : k ≠ j := fun e => h (e ▸ rfl)
      simp [accessor, Accessor.word, this]

/-- A field of an entity shows its part. -/
theorem EntityField.get_eq (f : EntityField) (e : Entity) :
    f.accessor.get e = f.accessor.kind.view (f.toPart.val.accessor.get e) := by
  cases f <;> rfl

/-- A field of an entity is kept in its part. -/
theorem EntityField.get_part_set (f : EntityField) (e : Entity) (w : Word) :
    f.toPart.val.accessor.get (f.accessor.set e w) = f.accessor.kind.keep w := by
  cases f with
  | value k => simp [toPart, part, accessor, Accessor.word, FieldKind.keep]
  | _ => rfl

/-- A field of a player shows its part. -/
theorem PlayerField.get_eq (f : PlayerField) (p : Player) :
    f.accessor.get p = f.accessor.kind.view (f.toPart.val.accessor.get p) := by
  cases f <;> rfl

/-- A field of a player is kept in its part. -/
theorem PlayerField.get_part_set (f : PlayerField) (p : Player) (w : Word) :
    f.toPart.val.accessor.get (f.accessor.set p w) = f.accessor.kind.keep w := by
  cases f with
  | value k => simp [toPart, part, accessor, Accessor.word, FieldKind.keep]
  | _ => rfl

theorem StageField.apart {f g : StageField} (h : g ≠ f) : f.accessor.Apart g.accessor := by
  intro s w
  cases f <;> cases g <;> first | exact absurd rfl h | rfl

theorem ScreenField.apart {f g : ScreenField} (h : g ≠ f) : f.accessor.Apart g.accessor := by
  intro s w
  cases f <;> cases g <;> first | exact absurd rfl h | rfl

theorem TileLayerField.apart {f g : TileLayerField} (h : g ≠ f) :
    f.accessor.Apart g.accessor := by
  intro s w
  cases f <;> cases g <;> first | exact absurd rfl h | rfl

theorem ParallaxField.apart {f g : ParallaxField} (h : g ≠ f) : f.accessor.Apart g.accessor := by
  intro s w
  cases f <;> cases g <;> first | exact absurd rfl h | rfl

theorem SpaceField.apart {f g : SpaceField} (h : g ≠ f) : f.accessor.Apart g.accessor := by
  intro s w
  cases f <;> cases g <;> first | exact absurd rfl h | rfl

theorem VertexField.apart {f g : VertexField} (h : g ≠ f) : f.accessor.Apart g.accessor := by
  intro s w
  cases f <;> cases g <;> first | exact absurd rfl h | rfl

theorem FaceField.apart {f g : FaceField} (h : g ≠ f) : f.accessor.Apart g.accessor := by
  intro s w
  cases f <;> cases g <;> first | exact absurd rfl h | rfl

theorem EngineField.apart {f g : EngineField} (h : g ≠ f) : f.accessor.Apart g.accessor := by
  intro s w
  cases f <;> cases g <;> first | exact absurd rfl h | rfl

/-! ## What is beside the fields -/

@[simp] theorem PlayerField.entity_set (f : PlayerField) (p : Player) (w : Word) :
    (f.accessor.set p w).entity = p.entity := by
  cases f <;> rfl

@[simp] theorem PlayerField.flailing_set (f : PlayerField) (p : Player) (w : Word) :
    (f.accessor.set p w).flailing = p.flailing := by
  cases f <;> rfl

end

@[simp] theorem PlayerField.get_entity (f : PlayerField) (p : Player) (entity : Fin entityCount) :
    f.accessor.get { p with entity } = f.accessor.get p := by
  cases f <;> rfl

@[simp] theorem PlayerField.get_flailing (f : PlayerField) (p : Player)
    (flailing : Vector UInt8 3) : f.accessor.get { p with flailing } = f.accessor.get p := by
  cases f <;> rfl

@[simp] theorem StageField.activePlayer_set (f : StageField) (s : Stage) (w : Word) :
    (f.accessor.set s w).activePlayer = s.activePlayer := by
  cases f <;> rfl

@[simp] theorem StageField.get_activePlayer (f : StageField) (s : Stage)
    (activePlayer : Fin playerCount) :
    f.accessor.get { s with activePlayer } = f.accessor.get s := by
  cases f <;> rfl

@[simp] theorem SpaceField.vertices_set (f : SpaceField) (s : Scene3D) (w : Word) :
    (f.accessor.set s w).vertices = s.vertices := by
  cases f <;> rfl

@[simp] theorem SpaceField.faces_set (f : SpaceField) (s : Scene3D) (w : Word) :
    (f.accessor.set s w).faces = s.faces := by
  cases f <;> rfl

@[simp] theorem SpaceField.get_vertices (f : SpaceField) (s : Scene3D)
    (vertices : Vector Vertex vertexCapacity) :
    f.accessor.get { s with vertices } = f.accessor.get s := by
  cases f <;> rfl

@[simp] theorem SpaceField.get_faces (f : SpaceField) (s : Scene3D)
    (faces : Vector Face faceCapacity) : f.accessor.get { s with faces } = f.accessor.get s := by
  cases f <;> rfl

@[simp] theorem EngineField.sfxVolume_set (f : EngineField) (s : EngineFlags) (w : Word) :
    (f.accessor.set s w).sfxVolume = s.sfxVolume := by
  cases f <;> rfl

@[simp] theorem EngineField.bgmVolume_set (f : EngineField) (s : EngineFlags) (w : Word) :
    (f.accessor.set s w).bgmVolume = s.bgmVolume := by
  cases f <;> rfl

@[simp] theorem EngineField.get_sfxVolume (f : EngineField) (s : EngineFlags) (sfxVolume : Word) :
    f.accessor.get { s with sfxVolume } = f.accessor.get s := by
  cases f <;> rfl

@[simp] theorem EngineField.get_bgmVolume (f : EngineField) (s : EngineFlags) (bgmVolume : Word) :
    f.accessor.get { s with bgmVolume } = f.accessor.get s := by
  cases f <;> rfl

theorem Buttons.get_set_of_ne {button other : Button} (h : button ≠ other) (b : Buttons)
    (down : Bool) : (b.set button down).get other = b.get other := by
  cases button <;> cases other <;> first | exact absurd rfl h | rfl

@[simp] theorem ScreenField.xSize_set (f : ScreenField) (s : Screen) (w : Word) :
    (f.accessor.set s w).xSize = s.xSize := by
  cases f <;> rfl

@[simp] theorem ScreenField.ySize_set (f : ScreenField) (s : Screen) (w : Word) :
    (f.accessor.set s w).ySize = s.ySize := by
  cases f <;> rfl

end StageScript
