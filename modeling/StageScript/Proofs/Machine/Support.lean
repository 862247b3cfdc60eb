import StageScript.Proofs.Machine.Written

/-! # What variables hang on
Most variables look at one place, but some at several: the active player is said by one, its entity by
another, and whether an entity is out of bounds by those of its position and of the screen.
* **`Variable.read?_congr`** — a reading hangs on the places of **`Variable.support`** only;
* **`Variable.cell?_congr`** — which place a variable means hangs on the locators only. -/

namespace StageScript

/-! ## What a reading looks at -/

namespace Variable

open Indexed Machine

/-- The places that reading a variable looks at: its own, and those that say which one that is. -/
def support (m : Machine) (index : Word) : Variable → List Cell
  | .objectOutOfBounds =>
    (slot? index).elim [] fun i =>
      [.entity i (EntityField.xPos).toPart, .entity i (EntityField.yPos).toPart,
        .screen .xOffset, .screen .yOffset]
  | .objectSheet =>
    (slot? index).elim [] fun i =>
      [.entity i (EntityField.typeId).toPart, .sheet (m.scene.entities.get i).typeId]
  | .playerEntity field =>
    [.activePlayer, .binding m.scene.stage.activePlayer,
      .entity m.scene.activePlayer.entity field.entityField.toPart]
  | .player field => [.activePlayer, .player m.scene.stage.activePlayer field.toPart]
  | .playerNumber => [.activePlayer, .binding m.scene.stage.activePlayer]
  | .playerHitbox _ =>
    [.activePlayer, .binding m.scene.stage.activePlayer,
      .entity m.scene.activePlayer.entity (EntityField.typeId).toPart,
      .entity m.scene.activePlayer.entity (EntityField.animation).toPart,
      .entity m.scene.activePlayer.entity (EntityField.frame).toPart]
  | .playerFlailing =>
    .activePlayer ::
      (position? 3 index).elim [] fun i => [.flailing m.scene.stage.activePlayer i]
  | v => (v.cell? m.scene index).toList

end Variable

theorem Word.ofByte_injective {a b : UInt8} (h : Word.ofByte a = Word.ofByte b) : a = b := by
  rw [← Word.lowByte_ofByte a, h, Word.lowByte_ofByte]

theorem Word.ofNat_injective {a b : Nat} (ha : a < 0x80000000) (hb : b < 0x80000000)
    (h : Word.ofNat a = Word.ofNat b) : a = b := by
  have := congrArg Int32.toInt h
  rw [Word.ofNat, Word.ofNat, Int32.toInt_ofNat_of_lt ha, Int32.toInt_ofNat_of_lt hb] at this
  exact_mod_cast this

namespace Machine

variable {m m' : Machine}

/-- The active player is the one its place says. -/
theorem activePlayer_of_content
    (h : Cell.activePlayer.content m' = Cell.activePlayer.content m) :
    m'.scene.stage.activePlayer = m.scene.stage.activePlayer := by
  apply Fin.ext
  have bound (i : Fin playerCount) : i.val < 0x80000000 := by
    have := i.isLt
    simp only [playerCount] at this
    omega
  exact Word.ofNat_injective (bound _) (bound _) h

/-- The entity of a player is the one its place says. -/
theorem entity_of_content {number : Fin playerCount}
    (h : (Cell.binding number).content m' = (Cell.binding number).content m) :
    (m'.scene.players.get number).entity = (m.scene.players.get number).entity := by
  apply Fin.ext
  have bound (i : Fin entityCount) : i.val < 0x80000000 := by
    have := i.isLt
    simp only [entityCount] at this
    omega
  exact Word.ofNat_injective (bound _) (bound _) h

/-- The entity that scripts mean by the player is said by two places. -/
theorem playerEntity_of_content
    (active : Cell.activePlayer.content m' = Cell.activePlayer.content m)
    (binding : (Cell.binding m.scene.stage.activePlayer).content m' =
      (Cell.binding m.scene.stage.activePlayer).content m) :
    m'.scene.activePlayer.entity = m.scene.activePlayer.entity := by
  rw [Scene.activePlayer, activePlayer_of_content active]
  exact entity_of_content binding

end Machine

namespace Variable

open Indexed Machine

variable {m m' : Machine} {index : Word}

/-- Reading a variable gives the same where it means the same place and that holds the same. -/
theorem read?_congr_of_cell? {v : Variable} (writable : v.isReadOnly = false)
    (cell : v.cell? m'.scene index = v.cell? m.scene index)
    (h : ∀ c, v.cell? m.scene index = some c → c.content m' = c.content m) :
    v.read? m' index = v.read? m index := by
  rw [read?_eq m' _ writable, read?_eq m _ writable, cell]
  cases hc : v.cell? m.scene index with
  | none => rw [Option.map_none, Option.map_none]
  | some c => rw [Option.map_some, Option.map_some, h c hc]

/-- Whether an entity is out of bounds is told by its position and that of the screen. -/
theorem inBounds_congr {i : Fin entityCount} (beside : m'.backdrop = m.backdrop)
    (x : (m'.scene.entities.get i).xPos = (m.scene.entities.get i).xPos)
    (y : (m'.scene.entities.get i).yPos = (m.scene.entities.get i).yPos)
    (left : m'.scene.screen.xOffset = m.scene.screen.xOffset)
    (top : m'.scene.screen.yOffset = m.scene.screen.yOffset) :
    m'.scene.inBounds (m'.scene.entities.get i) = m.scene.inBounds (m.scene.entities.get i) := by
  have width := congrArg Backdrop.width beside
  have height := congrArg Backdrop.height beside
  simp only [Machine.backdrop] at width height
  simp only [Scene.inBounds, Scene.inHorizontalBounds, Scene.inVerticalBounds]
  rw [x, y, left, top, width, height]

/-- The hitbox of the player is told by the type of its entity and by what that entity shows. -/
theorem playerHitbox?_congr (beside : m'.backdrop = m.backdrop)
    (type : m'.scene.playerEntity.typeId = m.scene.playerEntity.typeId)
    (animation : m'.scene.playerEntity.animation = m.scene.playerEntity.animation)
    (frame : m'.scene.playerEntity.frame = m.scene.playerEntity.frame) :
    m'.playerHitbox? = m.playerHitbox? := by
  have file : (m'.typeData m'.scene.playerEntity.typeId).animation =
      (m.typeData m.scene.playerEntity.typeId).animation := by
    rw [type]
    exact congrFun (congrArg Backdrop.animation beside) _
  have files : m'.scene.animations = m.scene.animations := congrArg Backdrop.animations beside
  simp only [playerHitbox?, file, files, animation, frame]

/-- **Reading a variable** gives the same where the places that it looks at hold the same. -/
theorem read?_congr {v : Variable} (beside : m'.backdrop = m.backdrop)
    (h : ∀ c ∈ v.support m index, c.content m' = c.content m) :
    v.read? m' index = v.read? m index := by
  cases v with
  | objectNumber => rfl
  | objectOutOfBounds =>
    simp only [support] at h
    cases hi : slot? index with
    | none => simp only [read?, hi, Option.map_none]
    | some i =>
      simp only [hi, Option.elim, List.mem_cons, List.not_mem_nil, or_false, forall_eq_or_imp,
        forall_eq] at h
      obtain ⟨x, y, left, top⟩ := h
      simp only [read?, hi, Option.map_some, inBounds_congr beside x y left top]
  | playerHitbox edge =>
    simp only [support, List.mem_cons, List.not_mem_nil, or_false, forall_eq_or_imp,
      forall_eq] at h
    obtain ⟨active, binding, type, animation, frame⟩ := h
    have slot := playerEntity_of_content active binding
    have type : m'.scene.playerEntity.typeId = m.scene.playerEntity.typeId := by
      rw [Scene.playerEntity, slot]
      exact Word.ofByte_injective type
    have animation : m'.scene.playerEntity.animation = m.scene.playerEntity.animation := by
      rw [Scene.playerEntity, slot]
      exact Word.ofByte_injective animation
    have frame : m'.scene.playerEntity.frame = m.scene.playerEntity.frame := by
      rw [Scene.playerEntity, slot]
      exact Word.ofByte_injective frame
    simp only [read?, playerHitbox?_congr beside type animation frame]
  | screenWidth => exact congrArg (fun b : Backdrop => some b.width) beside
  | screenHeight => exact congrArg (fun b : Backdrop => some b.height) beside
  | touch field => exact congrArg (fun b : Backdrop => (at? b.touches index).map field.get) beside
  | touchCount =>
    exact congrArg (fun b : Backdrop => some (Word.ofNat (b.touches.toList.countP (·.down)))) beside
  | global =>
    -- How many values there are is no place, so it has to stay the same for itself.
    refine read?_congr_of_cell? rfl ?_ fun c hc => h c (Option.mem_toList.2 hc)
    have count : m'.scene.globals.size = m.scene.globals.size := congrArg Backdrop.globalCount beside
    rw [cell?, cell?, count]
  | objectSheet =>
    simp only [support] at h
    cases hi : slot? index with
    | none => simp only [read?, hi, Option.map_none]
    | some i =>
      simp only [hi, Option.elim, List.mem_cons, List.not_mem_nil, or_false, forall_eq_or_imp,
        forall_eq] at h
      obtain ⟨type, sheet⟩ := h
      have type : (m'.scene.entities.get i).typeId = (m.scene.entities.get i).typeId :=
        Word.ofByte_injective type
      simp only [read?, hi, Option.map_some, type]
      exact congrArg some sheet
  | playerEntity field =>
    simp only [support, List.mem_cons, List.not_mem_nil, or_false, forall_eq_or_imp,
      forall_eq] at h
    obtain ⟨active, binding, place⟩ := h
    refine read?_congr_of_cell? rfl ?_ fun c hc => ?_
    · rw [cell?, cell?, playerEntity_of_content active binding]
    · obtain rfl := Option.some.inj hc
      exact place
  | player field =>
    simp only [support, List.mem_cons, List.not_mem_nil, or_false, forall_eq_or_imp,
      forall_eq] at h
    obtain ⟨active, place⟩ := h
    refine read?_congr_of_cell? rfl ?_ fun c hc => ?_
    · rw [cell?, cell?, activePlayer_of_content active]
    · obtain rfl := Option.some.inj hc
      exact place
  | playerNumber =>
    simp only [support, List.mem_cons, List.not_mem_nil, or_false, forall_eq_or_imp,
      forall_eq] at h
    obtain ⟨active, place⟩ := h
    refine read?_congr_of_cell? rfl ?_ fun c hc => ?_
    · rw [cell?, cell?, activePlayer_of_content active]
    · obtain rfl := Option.some.inj hc
      exact place
  | playerFlailing =>
    simp only [support, List.mem_cons, forall_eq_or_imp] at h
    obtain ⟨active, places⟩ := h
    refine read?_congr_of_cell? rfl ?_ fun c hc => ?_
    · rw [cell?, cell?, activePlayer_of_content active]
    · obtain ⟨i, hi, rfl⟩ := Option.map_eq_some_iff.1 hc
      refine places _ ?_
      rw [hi]
      exact List.mem_singleton.2 rfl
  -- All others mean a place that the index alone tells.
  | _ => exact read?_congr_of_cell? rfl rfl fun c hc => h c (Option.mem_toList.2 hc)

end Variable

/-! ## Which place a variable means -/

/-- Whether a place says which place variables mean: the index registers, the active player and its
entity, and the types of entities. -/
def Cell.isLocator : Cell → Bool
  | .arrayPos _ => true
  | .activePlayer => true
  | .binding _ => true
  | .entity _ part => part.val = .typeId
  | _ => false

namespace Variable

open Indexed Machine

variable {m m' : Machine} {index : Word}

/-- Whether a variable stores every word as it is: it can be written, has no bounds, and is neither a
byte nor the whole pixels of a position. -/
def storesAny : Variable → Bool
  | .musicVolume => false
  | .key _ _ => false
  | .playerNumber => false
  | .activePlayer => false
  | .drawListSize => false
  | v => !v.isReadOnly && v.kind = .word

theorem isReadOnly_of_storesAny {v : Variable} (h : v.storesAny = true) : v.isReadOnly = false := by
  cases v <;> first | rfl | cases h

theorem kind_of_storesAny {v : Variable} (h : v.storesAny = true) : v.kind = .word := by
  cases v <;> first | rfl | cases h | exact of_decide_eq_true h

theorem keep_of_storesAny {v : Variable} (h : v.storesAny = true) (w : Word) : v.keep w = w := by
  have kind := kind_of_storesAny h
  cases v <;> first | cases h; done | rfl | simp only [keep, kind, FieldKind.keep]

theorem accepts_of_storesAny {v : Variable} (h : v.storesAny = true) (w : Word) :
    v.accepts w = true := by
  cases v <;> first | rfl | cases h

theorem view_of_storesAny {v : Variable} (h : v.storesAny = true) (w : Word) : v.view w = w := by
  rw [view, kind_of_storesAny h]
  rfl

/-- **A variable whose place says where others are** takes back what it shows, and of those that store
every word as it is only the index registers are among them. -/
theorem of_isLocator {v : Variable} {c : Cell} {s : Scene} (hc : v.cell? s index = some c)
    (locator : c.isLocator = true) :
    v.takesBack = true ∧ (v.storesAny = true → ∃ register, v = .arrayPos register) := by
  have typeId {field : EntityField} (h : field.part = .typeId) : field = .typeId := by
    cases field <;> first | rfl | cases h
  cases v
  case arrayPos register => exact ⟨rfl, fun _ => ⟨register, rfl⟩⟩
  case activePlayer => exact ⟨rfl, fun h => nomatch h⟩
  case playerNumber => exact ⟨rfl, fun h => nomatch h⟩
  case object field =>
    obtain ⟨i, -, rfl⟩ := Option.map_eq_some_iff.1 hc
    obtain rfl := typeId (of_decide_eq_true locator)
    exact ⟨rfl, fun h => nomatch h⟩
  case playerEntity field =>
    obtain rfl := Option.some.inj hc
    have := typeId (of_decide_eq_true locator)
    cases field <;> first | (cases this; done) | exact ⟨rfl, fun h => nomatch h⟩
  case global | objectSheet | playerFlailing | deformation | drawListSize | tileLayer | parallax
      | vertex | face | saveRam =>
    obtain ⟨i, -, rfl⟩ := Option.map_eq_some_iff.1 hc
    cases locator
  all_goals first | cases hc; done | (obtain rfl := Option.some.inj hc; cases locator)

/-- **The place that a variable means** hangs on the locators only. -/
theorem cell?_congr {v : Variable} (beside : m'.backdrop = m.backdrop)
    (h : ∀ c : Cell, c.isLocator = true → c.content m' = c.content m) :
    v.cell? m'.scene index = v.cell? m.scene index := by
  have active := activePlayer_of_content (h .activePlayer rfl)
  have entity := playerEntity_of_content (h .activePlayer rfl) (h (.binding _) rfl)
  cases v with
  | global =>
    have count : m'.scene.globals.size = m.scene.globals.size := congrArg Backdrop.globalCount beside
    rw [cell?, cell?, count]
  | objectSheet =>
    have type (i : Fin entityCount) :
        (m'.scene.entities.get i).typeId = (m.scene.entities.get i).typeId :=
      Word.ofByte_injective (h (.entity i (EntityField.typeId).toPart) rfl)
    simp only [cell?, type]
  | playerEntity field => rw [cell?, cell?, entity]
  | player field => rw [cell?, cell?, active]
  | playerNumber => rw [cell?, cell?, active]
  | playerFlailing => rw [cell?, cell?, active]
  | _ => rfl

/-- Only a register itself means its place. -/
theorem cell?_eq_arrayPos_iff {v : Variable} {s : Scene} {register : IndexRegister} :
    v.cell? s index = some (.arrayPos register) ↔ v = .arrayPos register := by
  constructor
  · intro h
    cases v
    case arrayPos other => exact congrArg arrayPos (Cell.arrayPos.inj (Option.some.inj h))
    case global | object | objectSheet | playerFlailing | deformation | drawListSize | tileLayer
        | parallax | vertex | face | saveRam =>
      obtain ⟨i, -, eq⟩ := Option.map_eq_some_iff.1 h
      cases eq
    all_goals cases h
  · rintro rfl
    rfl

/-- Where a variable that stores every word has its place, another one with that place has no bounds
either. -/
theorem accepts_of_cell? {v v' : Variable} {s s' : Scene} {index' : Word} {c : Cell}
    (h : v.storesAny = true) (hc : v.cell? s index = some c) (hc' : v'.cell? s' index' = some c)
    (w : Word) : v'.accepts w = true := by
  -- The bounded variables have places of their own, and they do not store every word.
  have places : (∀ number, c ≠ .binding number) ∧ c ≠ .activePlayer ∧
      ∀ layer, c ≠ .drawListSize layer := by
    cases v
    case playerNumber | activePlayer | drawListSize => cases h
    case global | object | objectSheet | playerFlailing | deformation | tileLayer | parallax
        | vertex | face | saveRam =>
      obtain ⟨i, -, rfl⟩ := Option.map_eq_some_iff.1 hc
      exact ⟨fun _ => nofun, nofun, fun _ => nofun⟩
    all_goals first
      | cases hc; done
      | obtain rfl := Option.some.inj hc
        exact ⟨fun _ => nofun, nofun, fun _ => nofun⟩
  cases v'
  case playerNumber => exact absurd (Option.some.inj hc').symm (places.1 _)
  case activePlayer => exact absurd (Option.some.inj hc').symm places.2.1
  case drawListSize =>
    obtain ⟨i, -, rfl⟩ := Option.map_eq_some_iff.1 hc'
    exact absurd rfl (places.2.2 i)
  all_goals rfl

end Variable

end StageScript
