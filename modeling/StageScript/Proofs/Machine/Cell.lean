import StageScript.Machine.Access
import StageScript.Proofs.Machine.Field

/-! # Storage behind variables
Several variables can share one place of the machine: `Object.XPos` and `Object.iXPos` of an entity,
`Player.Rotation` and the rotation of the player's entity, the sheets of two entities of one type.
* **`Cell`** — a place that holds a word, with `Cell.content` as what it holds;
* **`Variable.cell?`** — the place that a variable means at an index, which hangs on the scene only;
* **`Variable.read?_eq`** — reading a variable is looking at its place;
* **`Variable.keep_view_content`** — what a variable shows of its place, it puts back into it. -/

namespace StageScript

/-! ## Places -/

/-- A place of the machine that holds a word scripts can see. -/
inductive Cell
  | temp (k : Fin 8)
  | checkResult
  | arrayPos (register : IndexRegister)
  | global (i : Nat)
  | entity (slot : Fin entityCount) (part : EntityPart)
  /-- The sprite sheet of a type. -/
  | sheet (type : UInt8)
  | player (number : Fin playerCount) (part : PlayerPart)
  /-- The slot of the entity that a player is bound to. -/
  | binding (number : Fin playerCount)
  | flailing (number : Fin playerCount) (sensor : Fin 3)
  | stage (field : StageField)
  | deformation (buffer : Fin 4) (line : Fin deformationLength)
  | activePlayer
  | screen (field : ScreenField)
  /-- The length of a draw list. -/
  | drawListSize (layer : Fin drawListCount)
  | musicVolume
  | currentTrack
  | key (press : Press) (button : Button)
  | menuSelection (menu : Fin 2)
  | tileLayer (layer : Fin tileLayerCount) (field : TileLayerField)
  | parallax (axis : Axis) (line : Fin parallaxCount) (field : ParallaxField)
  | space (field : SpaceField)
  | vertex (number : Fin vertexCapacity) (field : VertexField)
  | face (number : Fin faceCapacity) (field : FaceField)
  | engine (field : EngineField)
  | effectsVolume
  | trackVolume
  | saveRam (i : Fin saveRamSize)
  deriving DecidableEq

/-- What a place holds. Bytes, truth values and numbers of slots are held as the words that scripts
see of them. -/
def Cell.content (m : Machine) : Cell → Word
  | .temp k => m.registers.tempValues.get k
  | .checkResult => m.registers.checkResult
  | .arrayPos register => m.registers.index register
  | .global i => m.scene.globals.getD i 0
  | .entity slot part => part.val.accessor.get (m.scene.entities.get slot)
  | .sheet type => (m.typeData type).spriteSheet
  | .player number part => part.val.accessor.get (m.scene.players.get number)
  | .binding number => Word.ofNat (m.scene.players.get number).entity.val
  | .flailing number sensor => Word.ofByte ((m.scene.players.get number).flailing.get sensor)
  | .stage field => field.accessor.get m.scene.stage
  | .deformation buffer line => (m.scene.deformation.get buffer).get line
  | .activePlayer => Word.ofNat m.scene.stage.activePlayer.val
  | .screen field => field.accessor.get m.scene.screen
  | .drawListSize layer => Word.ofNat (m.scene.drawLists.get layer).size
  | .musicVolume => m.scene.music.volume
  | .currentTrack => m.scene.music.currentTrack
  | .key press button => Word.ofBool ((m.scene.input.get press).get button)
  | .menuSelection menu => (m.scene.menus.get menu).selection1
  | .tileLayer layer field => field.accessor.get (m.scene.tileLayers.get layer)
  | .parallax axis line field => field.accessor.get ((Machine.parallaxLines m.scene axis).get line)
  | .space field => field.accessor.get m.scene.space
  | .vertex number field => field.accessor.get (m.scene.space.vertices.get number)
  | .face number field => field.accessor.get (m.scene.space.faces.get number)
  | .engine field => field.accessor.get m.scene.engine
  | .effectsVolume => m.scene.engine.sfxVolume
  | .trackVolume => m.scene.engine.bgmVolume
  | .saveRam i => m.scene.saveRam.get i

namespace Variable

open Indexed Machine

/-- The place that a variable means at an index. A variable that scripts cannot write has none. -/
def cell? (s : Scene) (index : Word) : Variable → Option Cell
  | .temp k => some (.temp k)
  | .checkResult => some .checkResult
  | .arrayPos register => some (.arrayPos register)
  | .global => (index.index?.filter (· < s.globals.size)).map .global
  | .object field => (slot? index).map (.entity · field.toPart)
  | .objectSheet => (slot? index).map fun i => .sheet (s.entities.get i).typeId
  | .playerEntity field => some (.entity s.activePlayer.entity field.entityField.toPart)
  | .player field => some (.player s.stage.activePlayer field.toPart)
  | .playerNumber => some (.binding s.stage.activePlayer)
  | .playerFlailing => (position? 3 index).map (.flailing s.stage.activePlayer)
  | .stage field => some (.stage field)
  | .deformation buffer => (position? deformationLength index).map (.deformation buffer)
  | .activePlayer => some .activePlayer
  | .screen field => some (.screen field)
  | .drawListSize => (position? drawListCount index).map .drawListSize
  | .musicVolume => some .musicVolume
  | .currentTrack => some .currentTrack
  | .key press button => some (.key press button)
  | .menuSelection menu => some (.menuSelection menu)
  | .tileLayer field => (position? tileLayerCount index).map (.tileLayer · field)
  | .parallax axis field => (position? parallaxCount index).map (.parallax axis · field)
  | .space field => some (.space field)
  | .vertex field => (position? vertexCapacity index).map (.vertex · field)
  | .face field => (position? faceCapacity index).map (.face · field)
  | .engine field => some (.engine field)
  | .effectsVolume => some .effectsVolume
  | .trackVolume => some .trackVolume
  | .saveRam => (position? saveRamSize index).map .saveRam
  | _ => none

/-- How a variable keeps a word. -/
def kind : Variable → FieldKind
  | .object field => field.accessor.kind
  | .playerEntity field => field.entityField.accessor.kind
  | .player field => field.accessor.kind
  | .playerFlailing => .byte
  | .tileLayer field => field.accessor.kind
  | .face field => field.accessor.kind
  | _ => .word

/-- What a place holds once a word has been written through a variable. -/
def keep : Variable → Word → Word
  | .musicVolume, w => clampVolume w
  | .key _ _, w => Word.ofBool (w ≠ 0)
  | v, w => v.kind.keep w

/-- What a variable shows of its place. -/
def view (v : Variable) (w : Word) : Word := v.kind.view w

/-- Whether a variable takes a word as its value, wherever it is written. -/
def accepts : Variable → Word → Bool
  | .playerNumber, w => (slot? w).isSome
  | .activePlayer, w => (position? playerCount w).isSome
  | .drawListSize, w => w.index?.any (· ≤ entityCount)
  | _, _ => true

/-! ## Reading and writing places -/

/-- **Reading a variable is looking at its place.** -/
theorem read?_eq {v : Variable} (m : Machine) (index : Word) (h : v.isReadOnly = false) :
    v.read? m index = (v.cell? m.scene index).map fun c => v.view (c.content m) := by
  cases v
  case object field => simp [read?, cell?, Cell.content, view, kind, field.get_eq, Function.comp_def]
  case playerEntity field =>
    simp [read?, cell?, Cell.content, view, kind, field.entityField.get_eq, Scene.playerEntity]
  case player field => simp [read?, cell?, Cell.content, view, kind, field.get_eq, Scene.activePlayer]
  case tileLayer field =>
    simp [read?, cell?, at?, Cell.content, view, kind, FieldKind.view_of_ne field.kind_ne_whole,
      Function.comp_def]
  case face field =>
    simp [read?, cell?, at?, Cell.content, view, kind, FieldKind.view_of_ne field.kind_ne_whole,
      Function.comp_def]
  case global =>
    simp only [read?, cell?, Option.map_map]
    cases index.index? with
    | none => rfl
    | some i =>
      by_cases lt : i < m.scene.globals.size <;>
        simp [lt, Option.filter, Cell.content, view, kind, FieldKind.view]
  all_goals first
    | cases h; done
    | simp [read?, cell?, at?, Cell.content, view, kind, FieldKind.view, Function.comp_def,
        Scene.activePlayer]

/-- A variable that scripts cannot write drops what is written. -/
theorem write?_of_isReadOnly {v : Variable} (m : Machine) (index w : Word)
    (h : v.isReadOnly = true) : v.write? m index w = some m := by
  cases v <;> first | (cases h; done) | rfl

theorem cell?_of_isReadOnly {v : Variable} (s : Scene) (index : Word) (h : v.isReadOnly = true) :
    v.cell? s index = none := by
  cases v <;> first | (cases h; done) | rfl

/-! ## Writing back -/

/-- Whether a variable takes back what it shows. The whole pixels of a position do not, for they lose
its fraction, and neither does the music's volume, which is cut off at its bounds. -/
def takesBack : Variable → Bool
  | .musicVolume => false
  | v => v.kind ≠ .whole

end Variable

theorem EntityField.keep_get {f : EntityField} (h : f.accessor.kind ≠ .whole) (e : Entity) :
    f.accessor.kind.keep (f.accessor.get e) = f.toPart.val.accessor.get e := by
  cases f <;> first | exact absurd rfl h | rfl | exact congrArg Word.ofByte (Word.lowByte_ofByte _)

theorem PlayerField.keep_get {f : PlayerField} (h : f.accessor.kind ≠ .whole) (p : Player) :
    f.accessor.kind.keep (f.accessor.get p) = f.toPart.val.accessor.get p := by
  cases f <;> first | exact absurd rfl h | rfl | exact congrArg Word.ofByte (Word.lowByte_ofByte _)

theorem TileLayerField.keep_get (f : TileLayerField) (layer : TileLayer) :
    f.accessor.kind.keep (f.accessor.get layer) = f.accessor.get layer := by
  cases f <;> first | rfl | exact congrArg Word.ofByte (Word.lowByte_ofByte _)

theorem FaceField.keep_get (f : FaceField) (face : Face) :
    f.accessor.kind.keep (f.accessor.get face) = f.accessor.get face := by
  cases f <;> first | rfl | exact congrArg Word.ofByte (Word.lowByte_ofByte _)

theorem Word.ofBool_ne_zero (b : Bool) : Word.ofBool (Word.ofBool b ≠ 0) = Word.ofBool b := by
  cases b <;> rfl

/-- **What a variable shows of its place, it puts back into it**, if it takes back what it shows. -/
theorem Variable.keep_view_content {v : Variable} (h : v.takesBack = true) {m : Machine}
    {index : Word} {c : Cell} (hc : v.cell? m.scene index = some c) :
    v.keep (v.view (c.content m)) = c.content m := by
  cases v
  case object f =>
    obtain ⟨i, -, rfl⟩ := Option.map_eq_some_iff.1 hc
    exact (congrArg _ (f.get_eq _).symm).trans (f.keep_get (of_decide_eq_true h) _)
  case playerEntity f =>
    obtain rfl := Option.some.inj hc
    exact (congrArg _ (f.entityField.get_eq _).symm).trans
      (f.entityField.keep_get (of_decide_eq_true h) _)
  case player f =>
    obtain rfl := Option.some.inj hc
    exact (congrArg _ (f.get_eq _).symm).trans (f.keep_get (of_decide_eq_true h) _)
  case playerFlailing =>
    obtain ⟨i, -, rfl⟩ := Option.map_eq_some_iff.1 hc
    exact congrArg Word.ofByte (Word.lowByte_ofByte _)
  case key press button =>
    obtain rfl := Option.some.inj hc
    exact Word.ofBool_ne_zero _
  case tileLayer f =>
    obtain ⟨i, -, rfl⟩ := Option.map_eq_some_iff.1 hc
    rw [view, kind, FieldKind.view_of_ne f.kind_ne_whole]
    exact f.keep_get _
  case face f =>
    obtain ⟨i, -, rfl⟩ := Option.map_eq_some_iff.1 hc
    rw [view, kind, FieldKind.view_of_ne f.kind_ne_whole]
    exact f.keep_get _
  case musicVolume => cases h
  all_goals rfl

end StageScript
