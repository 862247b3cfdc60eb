import StageScript.Proofs.Machine.Cell

/-! # Writing a place
A write through a variable changes the place that the variable means, and nothing else that scripts
can see.
* **`Cell.Written`** — one place has got a word, and the others hold what they held;
* **`Variable.written_of_write?`** — a write that goes through is one of the variable's place;
* **`Variable.backdrop_of_write?`** — it changes nothing beside the places. -/

namespace StageScript

/-- One place has got a word, and all the others hold what they held. -/
structure Cell.Written (c : Cell) (w : Word) (m m' : Machine) : Prop where
  content : c.content m' = w
  other : ∀ c', c' ≠ c → c'.content m' = c'.content m

namespace Cell.Written

/-! ### One place after the other -/

open Indexed Machine

variable (m : Machine) (w : Word)

/-- What a change to one element leaves as it is stays the same in all elements. -/
theorem get_put_of_same {σ β : Type} {n : Nat} {g : σ → β} {f : σ → σ} {i j : Fin n}
    (xs : Vector σ n) (h : i = j → ∀ s, g (f s) = g s) :
    g ((put xs i (f (xs.get i))).get j) = g (xs.get j) := by
  rw [get_put]
  split
  · rename_i eq
    rw [h eq, eq]
  · rfl

theorem temp (k : Fin 8) :
    Written (.temp k) w m
      (m.modifyRegisters fun r => { r with tempValues := put r.tempValues k w }) := by
  refine ⟨?_, fun c ne => ?_⟩
  · simp [Cell.content, modifyRegisters]
  · cases c with
    | temp j =>
      have : k ≠ j := fun eq => ne (congrArg Cell.temp eq.symm)
      simp [Cell.content, modifyRegisters, this]
    | _ => rfl

theorem checkResult : Written .checkResult w m (m.answer w) := by
  refine ⟨rfl, fun c ne => ?_⟩
  cases c with
  | checkResult => exact absurd rfl ne
  | _ => rfl

theorem arrayPos (register : IndexRegister) :
    Written (.arrayPos register) w m (m.modifyRegisters (·.setIndex register w)) := by
  refine ⟨?_, fun c ne => ?_⟩
  · simp [Cell.content, modifyRegisters, Registers.index, Registers.setIndex]
  · cases c with
    | arrayPos other =>
      have : register.slot ≠ other.slot := fun eq => ne (congrArg Cell.arrayPos (by
        cases register <;> cases other <;> first | rfl | exact absurd eq (by decide)))
      simp [Cell.content, modifyRegisters, Registers.index, Registers.setIndex, this]
    | _ => rfl

theorem global {i : Nat} (h : i < m.scene.globals.size) :
    Written (.global i) w m
      (m.modifyScene fun s => { s with globals := s.globals.setIfInBounds i w }) := by
  refine ⟨?_, fun c ne => ?_⟩
  · simp [Cell.content, modifyScene, h]
  · cases c with
    | global j =>
      have : i ≠ j := fun eq => ne (congrArg Cell.global eq.symm)
      simp [Cell.content, modifyScene, this]
    | _ => rfl

theorem entity (i : Fin entityCount) (f : EntityField) :
    Written (.entity i f.toPart) (f.accessor.kind.keep w) m
      (m.modifyScene (·.modifyEntity i (f.accessor.set · w))) := by
  refine ⟨?_, fun c ne => ?_⟩
  · simp only [Cell.content, modifyScene, Scene.entities_modifyEntity, if_true]
    exact f.get_part_set _ _
  · cases c with
    | entity j g =>
      refine get_put_of_same _ fun eq s => EntityField.apart (fun same => ne ?_) s w
      rw [eq, same]
    | _ => rfl

theorem sheet (type : UInt8) :
    Written (.sheet type) w m (m.modifyType type fun t => { t with spriteSheet := w }) := by
  refine ⟨?_, fun c ne => ?_⟩
  · simp only [Cell.content, typeData_modifyType, if_true]
  · cases c with
    | sheet other =>
      have : type ≠ other := fun eq => ne (congrArg Cell.sheet eq.symm)
      simp only [Cell.content, typeData_modifyType, this, if_false]
    | _ => rfl

theorem players_modifyActivePlayer (s : Scene) (j : Fin playerCount) (change : Player → Player) :
    (s.modifyActivePlayer change).players.get j =
      if s.stage.activePlayer = j then change s.activePlayer else s.players.get j :=
  get_put _ _ _ _

/-- What a change of the active player leaves as it is stays the same in all players. -/
theorem players_modifyActivePlayer_of_same {β : Type} {g : Player → β} (s : Scene)
    (j : Fin playerCount) (change : Player → Player)
    (h : s.stage.activePlayer = j → ∀ p, g (change p) = g p) :
    g ((s.modifyActivePlayer change).players.get j) = g (s.players.get j) := by
  rw [players_modifyActivePlayer]
  split
  · rename_i eq
    rw [h eq, ← eq]
    rfl
  · rfl

theorem player (f : PlayerField) :
    Written (.player m.scene.stage.activePlayer f.toPart) (f.accessor.kind.keep w) m
      (m.modifyScene (·.modifyActivePlayer (f.accessor.set · w))) := by
  refine ⟨?_, fun c ne => ?_⟩
  · simp only [Cell.content, modifyScene, players_modifyActivePlayer, if_true]
    exact f.get_part_set _ _
  · cases c with
    | player j g =>
      refine players_modifyActivePlayer_of_same m.scene j (f.accessor.set · w) fun eq p =>
        PlayerField.apart (fun same => ne ?_) p w
      rw [eq, same]
    | binding j =>
      refine congrArg (fun i : Fin entityCount => Word.ofNat i.val) ?_
      exact players_modifyActivePlayer_of_same m.scene j _ fun _ p => f.entity_set p w
    | flailing j k =>
      refine congrArg (fun sensors : Vector UInt8 3 => Word.ofByte (sensors.get k)) ?_
      exact players_modifyActivePlayer_of_same m.scene j _ fun _ p => f.flailing_set p w
    | _ => rfl

theorem binding (i : Fin entityCount) :
    Written (.binding m.scene.stage.activePlayer) (Word.ofNat i.val) m
      (m.modifyScene (·.modifyActivePlayer fun p => { p with entity := i })) := by
  refine ⟨?_, fun c ne => ?_⟩
  · simp only [Cell.content, modifyScene, players_modifyActivePlayer, if_true]
  · cases c with
    | player j g =>
      exact players_modifyActivePlayer_of_same m.scene j _ fun _ p => g.val.get_entity p i
    | binding j =>
      refine congrArg (fun i : Fin entityCount => Word.ofNat i.val) ?_
      exact players_modifyActivePlayer_of_same (g := Player.entity) m.scene j _ fun eq =>
        absurd (congrArg Cell.binding eq.symm) ne
    | flailing j k =>
      refine congrArg (fun sensors : Vector UInt8 3 => Word.ofByte (sensors.get k)) ?_
      exact players_modifyActivePlayer_of_same (g := Player.flailing) m.scene j _ fun _ _ => rfl
    | _ => rfl

theorem flailing (k : Fin 3) :
    Written (.flailing m.scene.stage.activePlayer k) (Word.ofByte w.lowByte) m
      (m.modifyScene fun s =>
        s.modifyActivePlayer fun p =>
          { p with flailing := put s.activePlayer.flailing k w.lowByte }) := by
  refine ⟨?_, fun c ne => ?_⟩
  · simp only [Cell.content, modifyScene, players_modifyActivePlayer, if_true, get_put]
  · cases c with
    | player j g =>
      exact players_modifyActivePlayer_of_same m.scene j _ fun _ p => g.val.get_flailing p _
    | binding j =>
      refine congrArg (fun i : Fin entityCount => Word.ofNat i.val) ?_
      exact players_modifyActivePlayer_of_same (g := Player.entity) m.scene j _ fun _ _ => rfl
    | flailing j k' =>
      -- The place of another player, or another one of the same player.
      simp only [Cell.content, modifyScene, players_modifyActivePlayer]
      split
      · rename_i eq
        have : k ≠ k' := fun same => ne (by rw [eq, same])
        simp only [get_put, this, if_false, Scene.activePlayer, eq]
      · rfl
    | _ => rfl

theorem stage (f : StageField) :
    Written (.stage f) w m
      (m.modifyScene fun s => { s with stage := f.accessor.set s.stage w }) := by
  refine ⟨?_, fun c ne => ?_⟩
  · exact (f.lawful_accessor _ _).trans (by cases f <;> rfl)
  · cases c with
    | stage g => exact StageField.apart (fun same => ne (by rw [same])) _ _
    | activePlayer =>
      exact congrArg (fun i : Fin playerCount => Word.ofNat i.val) (f.activePlayer_set _ w)
    | _ => rfl

theorem activePlayer (i : Fin playerCount) :
    Written .activePlayer (Word.ofNat i.val) m
      (m.modifyScene fun s => { s with stage := { s.stage with activePlayer := i } }) := by
  refine ⟨rfl, fun c ne => ?_⟩
  cases c with
  | stage g => exact g.get_activePlayer _ i
  | activePlayer => exact absurd rfl ne
  | _ => rfl

theorem deformation (buffer : Fin 4) (i : Fin deformationLength) :
    Written (.deformation buffer i) w m
      (m.modifyScene fun s =>
        { s with deformation := put s.deformation buffer (put (s.deformation.get buffer) i w) }) := by
  refine ⟨?_, fun c ne => ?_⟩
  · simp only [Cell.content, modifyScene, get_put, if_true]
  · cases c with
    | deformation other j =>
      simp only [Cell.content, modifyScene, get_put]
      split
      · rename_i eq
        have : i ≠ j := fun same => ne (by rw [eq, same])
        rw [get_put, if_neg this, eq]
      · rfl
    | _ => rfl

theorem screen (f : ScreenField) :
    Written (.screen f) w m
      (m.modifyScene fun s => { s with screen := f.accessor.set s.screen w }) := by
  refine ⟨?_, fun c ne => ?_⟩
  · exact (f.lawful_accessor _ _).trans (by cases f <;> rfl)
  · cases c with
    | screen g => exact ScreenField.apart (fun same => ne (by rw [same])) _ _
    | _ => rfl

theorem drawListSize (i : Fin drawListCount) (length : Nat) :
    Written (.drawListSize i) (Word.ofNat length) m
      (m.modifyScene fun s =>
        { s with drawLists := put s.drawLists i (resize (s.drawLists.get i) length) }) := by
  refine ⟨?_, fun c ne => ?_⟩
  · simp only [Cell.content, modifyScene, get_put, if_true, size_resize]
  · cases c with
    | drawListSize j =>
      have : i ≠ j := fun same => ne (by rw [same])
      simp only [Cell.content, modifyScene, get_put, this, if_false]
    | _ => rfl

theorem musicVolume :
    Written .musicVolume w m
      ((m.modifyScene fun s => { s with music := { s.music with volume := w } }).call
        (.audio (.musicVolume w))) := by
  refine ⟨rfl, fun c ne => ?_⟩
  cases c with
  | musicVolume => exact absurd rfl ne
  | _ => rfl

theorem currentTrack :
    Written .currentTrack w m
      (m.modifyScene fun s => { s with music := { s.music with currentTrack := w } }) := by
  refine ⟨rfl, fun c ne => ?_⟩
  cases c with
  | currentTrack => exact absurd rfl ne
  | _ => rfl

theorem key (press : Press) (button : Button) (down : Bool) :
    Written (.key press button) (Word.ofBool down) m
      (m.modifyScene fun s =>
        { s with input := s.input.set press ((s.input.get press).set button down) }) := by
  refine ⟨?_, fun c ne => ?_⟩
  · cases press <;>
      simp only [Cell.content, modifyScene, Input.get, Input.set, Buttons.get_set]
  · cases c with
    | key other j =>
      cases press <;> cases other
      case held.held | pressed.pressed =>
        have : button ≠ j := fun same => ne (by rw [same])
        simp only [Cell.content, modifyScene, Input.get, Input.set, Buttons.get_set_of_ne this]
      all_goals rfl
    | _ => rfl

theorem menuSelection (menu : Fin 2) :
    Written (.menuSelection menu) w m
      (m.modifyScene fun s =>
        { s with menus := put s.menus menu { s.menus.get menu with selection1 := w } }) := by
  refine ⟨?_, fun c ne => ?_⟩
  · simp only [Cell.content, modifyScene, get_put, if_true]
  · cases c with
    | menuSelection other =>
      have : menu ≠ other := fun same => ne (by rw [same])
      simp only [Cell.content, modifyScene, get_put, this, if_false]
    | _ => rfl

theorem tileLayer (i : Fin tileLayerCount) (f : TileLayerField) :
    Written (.tileLayer i f) (f.accessor.kind.keep w) m
      (m.modifyScene fun s =>
        { s with tileLayers := put s.tileLayers i (f.accessor.set (s.tileLayers.get i) w) }) := by
  refine ⟨?_, fun c ne => ?_⟩
  · simp only [Cell.content, modifyScene, get_put, if_true]
    exact (f.lawful_accessor _ _).trans (FieldKind.normalise_eq_keep f.kind_ne_whole w)
  · cases c with
    | tileLayer j g =>
      refine get_put_of_same (f := (f.accessor.set · w)) _ fun eq s =>
        TileLayerField.apart (fun same => ne ?_) s w
      rw [eq, same]
    | _ => rfl

theorem parallax (axis : Axis) (i : Fin parallaxCount) (f : ParallaxField) :
    Written (.parallax axis i f) w m
      (m.modifyScene fun s =>
        setParallaxLines s axis
          (put (parallaxLines s axis) i (f.accessor.set ((parallaxLines s axis).get i) w))) := by
  have lines : ∀ (s : Scene) (axis other : Axis) lines,
      parallaxLines (setParallaxLines s axis lines) other =
        if axis = other then lines else parallaxLines s other := by
    intro s axis other lines
    cases axis <;> cases other <;> rfl
  refine ⟨?_, fun c ne => ?_⟩
  · simp only [Cell.content, modifyScene, lines, get_put, if_true]
    exact (f.lawful_accessor _ _).trans (by cases f <;> rfl)
  · cases c with
    | parallax other j g =>
      simp only [Cell.content, modifyScene, lines]
      split
      · rename_i eq
        subst eq
        refine get_put_of_same (f := (f.accessor.set · w)) _ fun eq s =>
          ParallaxField.apart (fun same => ne ?_) s w
        rw [eq, same]
      · rfl
    | _ => cases axis <;> rfl

theorem space (f : SpaceField) :
    Written (.space f) w m
      (m.modifyScene fun s => { s with space := f.accessor.set s.space w }) := by
  refine ⟨?_, fun c ne => ?_⟩
  · exact (f.lawful_accessor _ _).trans (by cases f <;> rfl)
  · cases c with
    | space g => exact SpaceField.apart (fun same => ne (by rw [same])) _ _
    | vertex j g => simp only [Cell.content, modifyScene, f.vertices_set]
    | face j g => simp only [Cell.content, modifyScene, f.faces_set]
    | _ => rfl

theorem vertex (i : Fin vertexCapacity) (f : VertexField) :
    Written (.vertex i f) w m
      (m.modifyScene fun s =>
        { s with
          space := { s.space with
            vertices := put s.space.vertices i (f.accessor.set (s.space.vertices.get i) w) } }) := by
  refine ⟨?_, fun c ne => ?_⟩
  · simp only [Cell.content, modifyScene, get_put, if_true]
    exact (f.lawful_accessor _ _).trans (by cases f <;> rfl)
  · cases c with
    | vertex j g =>
      refine get_put_of_same (f := (f.accessor.set · w)) _ fun eq s =>
        VertexField.apart (fun same => ne ?_) s w
      rw [eq, same]
    | space g => exact g.get_vertices _ _
    | _ => rfl

theorem face (i : Fin faceCapacity) (f : FaceField) :
    Written (.face i f) (f.accessor.kind.keep w) m
      (m.modifyScene fun s =>
        { s with
          space := { s.space with
            faces := put s.space.faces i (f.accessor.set (s.space.faces.get i) w) } }) := by
  refine ⟨?_, fun c ne => ?_⟩
  · simp only [Cell.content, modifyScene, get_put, if_true]
    exact (f.lawful_accessor _ _).trans (FieldKind.normalise_eq_keep f.kind_ne_whole w)
  · cases c with
    | face j g =>
      refine get_put_of_same (f := (f.accessor.set · w)) _ fun eq s =>
        FaceField.apart (fun same => ne ?_) s w
      rw [eq, same]
    | space g => exact g.get_faces _ _
    | _ => rfl

theorem engine (f : EngineField) :
    Written (.engine f) w m
      (m.modifyScene fun s => { s with engine := f.accessor.set s.engine w }) := by
  refine ⟨?_, fun c ne => ?_⟩
  · exact (f.lawful_accessor _ _).trans (by cases f <;> rfl)
  · cases c with
    | engine g => exact EngineField.apart (fun same => ne (by rw [same])) _ _
    | effectsVolume => exact f.sfxVolume_set _ w
    | trackVolume => exact f.bgmVolume_set _ w
    | _ => rfl

theorem effectsVolume :
    Written .effectsVolume w m
      ((m.modifyScene fun s => { s with engine := { s.engine with sfxVolume := w } }).call
        (.audio (.sfxVolume w))) := by
  refine ⟨rfl, fun c ne => ?_⟩
  cases c with
  | effectsVolume => exact absurd rfl ne
  | engine g => exact g.get_sfxVolume _ w
  | _ => rfl

theorem trackVolume :
    Written .trackVolume w m
      ((m.modifyScene fun s => { s with engine := { s.engine with bgmVolume := w } }).call
        (.audio (.bgmVolume w))) := by
  refine ⟨rfl, fun c ne => ?_⟩
  cases c with
  | trackVolume => exact absurd rfl ne
  | engine g => exact g.get_bgmVolume _ w
  | _ => rfl

theorem saveRam (i : Fin saveRamSize) :
    Written (.saveRam i) w m (m.modifyScene fun s => { s with saveRam := put s.saveRam i w }) := by
  refine ⟨?_, fun c ne => ?_⟩
  · simp only [Cell.content, modifyScene, get_put, if_true]
  · cases c with
    | saveRam j =>
      have : i ≠ j := fun same => ne (by rw [same])
      simp only [Cell.content, modifyScene, get_put, this, if_false]
    | _ => rfl

end Cell.Written

theorem Indexed.ofNat_of_position? {n : Nat} {w : Word} {i : Fin n}
    (h : Indexed.position? n w = some i) : Word.ofNat i.val = w := by
  obtain ⟨k, hk, place⟩ := Option.bind_eq_some_iff.1 h
  unfold Indexed.place? at place
  split at place
  · obtain rfl := Option.some.inj place
    exact Word.ofNat_of_index? hk
  · cases place

namespace Variable

open Indexed Machine

variable {m m' : Machine} {index w : Word}

/-- A change of one element of a list is one at a position that the index names. -/
theorem exists_of_change?_map {α : Type} {n : Nat} {change : α → Scene} {f : Fin n → α}
    (h : change? m (((position? n index).map f).map change) = some m') :
    ∃ i, position? n index = some i ∧ m' = m.modifyScene fun _ => change (f i) := by
  obtain ⟨s, hs, rfl⟩ := Option.map_eq_some_iff.1 h
  obtain ⟨x, hx, rfl⟩ := Option.map_eq_some_iff.1 hs
  obtain ⟨i, hi, rfl⟩ := Option.map_eq_some_iff.1 hx
  exact ⟨i, hi, rfl⟩

/-- **Writing a variable** changes the place it means, and no other. -/
theorem written_of_write? {v : Variable} (hv : v.isReadOnly = false)
    (h : v.write? m index w = some m') :
    ∃ c, v.cell? m.scene index = some c ∧ c.Written (v.keep w) m m' := by
  cases v with
  | temp k =>
    obtain rfl := Option.some.inj h
    exact ⟨_, rfl, .temp m w k⟩
  | checkResult =>
    obtain rfl := Option.some.inj h
    exact ⟨_, rfl, .checkResult m w⟩
  | arrayPos register =>
    obtain rfl := Option.some.inj h
    exact ⟨_, rfl, .arrayPos m w register⟩
  | global =>
    obtain ⟨s, hs, rfl⟩ := Option.map_eq_some_iff.1 h
    obtain ⟨i, hi, rest⟩ := Option.bind_eq_some_iff.1 hs
    split at rest
    · rename_i lt
      obtain rfl := Option.some.inj rest
      exact ⟨.global i, by simp [cell?, hi, lt, Option.filter], .global m w lt⟩
    · cases rest
  | object field =>
    obtain ⟨s, hs, rfl⟩ := Option.map_eq_some_iff.1 h
    obtain ⟨i, hi, rfl⟩ := Option.map_eq_some_iff.1 hs
    exact ⟨_, by rw [cell?, hi]; rfl, .entity m w i field⟩
  | objectSheet =>
    obtain ⟨i, hi, rfl⟩ := Option.map_eq_some_iff.1 h
    exact ⟨_, by rw [cell?, hi]; rfl, .sheet m w _⟩
  | playerEntity field =>
    obtain rfl := Option.some.inj h
    exact ⟨_, rfl, .entity m w _ field.entityField⟩
  | player field =>
    obtain rfl := Option.some.inj h
    exact ⟨_, rfl, .player m w field⟩
  | playerNumber =>
    obtain ⟨s, hs, rfl⟩ := Option.map_eq_some_iff.1 h
    obtain ⟨i, hi, rfl⟩ := Option.map_eq_some_iff.1 hs
    have := Cell.Written.binding m i
    rw [ofNat_of_position? hi] at this
    exact ⟨_, rfl, this⟩
  | playerFlailing =>
    obtain ⟨i, hi, rfl⟩ := exists_of_change?_map h
    exact ⟨_, by rw [cell?, hi]; rfl, .flailing m w i⟩
  | stage field =>
    obtain rfl := Option.some.inj h
    exact ⟨_, rfl, .stage m w field⟩
  | deformation buffer =>
    obtain ⟨i, hi, rfl⟩ := exists_of_change?_map h
    exact ⟨_, by rw [cell?, hi]; rfl, .deformation m w buffer i⟩
  | activePlayer =>
    obtain ⟨s, hs, rfl⟩ := Option.map_eq_some_iff.1 h
    obtain ⟨i, hi, rfl⟩ := Option.map_eq_some_iff.1 hs
    have := Cell.Written.activePlayer m i
    rw [ofNat_of_position? hi] at this
    exact ⟨_, rfl, this⟩
  | screen field =>
    obtain rfl := Option.some.inj h
    exact ⟨_, rfl, .screen m w field⟩
  | drawListSize =>
    obtain ⟨s, hs, rfl⟩ := Option.map_eq_some_iff.1 h
    obtain ⟨length, hl, rest⟩ := Option.bind_eq_some_iff.1 hs
    split at rest
    · obtain ⟨lists, updated, rfl⟩ := Option.map_eq_some_iff.1 rest
      obtain ⟨i, hi, rfl⟩ := Option.map_eq_some_iff.1 updated
      have := Cell.Written.drawListSize m i length
      rw [Word.ofNat_of_index? hl] at this
      exact ⟨_, by rw [cell?, hi]; rfl, this⟩
    · cases rest
  | musicVolume =>
    obtain rfl := Option.some.inj h
    exact ⟨_, rfl, .musicVolume m (clampVolume w)⟩
  | currentTrack =>
    obtain rfl := Option.some.inj h
    exact ⟨_, rfl, .currentTrack m w⟩
  | key press button =>
    obtain rfl := Option.some.inj h
    exact ⟨_, rfl, .key m press button _⟩
  | menuSelection menu =>
    obtain rfl := Option.some.inj h
    exact ⟨_, rfl, .menuSelection m w menu⟩
  | tileLayer field =>
    obtain ⟨i, hi, rfl⟩ := exists_of_change?_map h
    exact ⟨_, by rw [cell?, hi]; rfl, .tileLayer m w i field⟩
  | parallax axis field =>
    obtain ⟨i, hi, rfl⟩ := exists_of_change?_map h
    exact ⟨_, by rw [cell?, hi]; rfl, .parallax m w axis i field⟩
  | space field =>
    obtain rfl := Option.some.inj h
    exact ⟨_, rfl, .space m w field⟩
  | vertex field =>
    obtain ⟨i, hi, rfl⟩ := exists_of_change?_map h
    exact ⟨_, by rw [cell?, hi]; rfl, .vertex m w i field⟩
  | face field =>
    obtain ⟨i, hi, rfl⟩ := exists_of_change?_map h
    exact ⟨_, by rw [cell?, hi]; rfl, .face m w i field⟩
  | engine field =>
    obtain rfl := Option.some.inj h
    exact ⟨_, rfl, .engine m w field⟩
  | effectsVolume =>
    obtain rfl := Option.some.inj h
    exact ⟨_, rfl, .effectsVolume m w⟩
  | trackVolume =>
    obtain rfl := Option.some.inj h
    exact ⟨_, rfl, .trackVolume m w⟩
  | saveRam =>
    obtain ⟨i, hi, rfl⟩ := exists_of_change?_map h
    exact ⟨_, by rw [cell?, hi]; rfl, .saveRam m w i⟩
  -- What cannot be written means no place.
  | objectNumber => cases hv
  | objectOutOfBounds => cases hv
  | playerHitbox edge => cases hv
  | screenWidth => cases hv
  | screenHeight => cases hv
  | touch field => cases hv
  | touchCount => cases hv

/-! ### Which writes go through -/

/-- **A write goes through** where the variable means a place and takes the word. -/
theorem isSome_write? {v : Variable} (hv : v.isReadOnly = false) (m : Machine) (index w : Word) :
    (v.write? m index w).isSome = ((v.cell? m.scene index).isSome && v.accepts w) := by
  cases v with
  | global =>
    simp only [write?, change?, writeScene?, cell?, accepts, Option.isSome_map, Bool.and_true]
    cases index.index? with
    | none => rfl
    | some i => by_cases lt : i < m.scene.globals.size <;> simp [lt, Option.filter]
  | drawListSize =>
    simp only [write?, change?, writeScene?, cell?, accepts, Option.isSome_map]
    cases w.index? with
    | none => simp
    | some length => by_cases le : length ≤ entityCount <;> simp [le, update?]
  | _ =>
    first
    | (cases hv; done)
    | simp [write?, change?, writeScene?, cell?, accepts, update?]

/-! ### What is beside the places -/

end Variable

/-- What variables show or hang on that no write changes, and what operands and faults hang on. -/
structure Backdrop where
  operands : Operands
  strict : Bool
  touches : Vector TouchPoint 4
  width : Word
  height : Word
  animations : Array AnimationFile
  /-- The number of each type's animation file. -/
  animation : UInt8 → Option Nat
  globalCount : Nat

/-- The backdrop of the places of a machine. -/
def Machine.backdrop (m : Machine) : Backdrop where
  operands := m.registers.operands
  strict := m.strict
  touches := m.scene.touches
  width := m.scene.screen.xSize
  height := m.scene.screen.ySize
  animations := m.scene.animations
  animation type := (m.typeData type).animation
  globalCount := m.scene.globals.size

namespace Variable

open Indexed Machine

variable {m m' : Machine} {index w : Word}

theorem backdrop_of_writeScene? {v : Variable} {s : Scene}
    (h : v.writeScene? m.scene index w = some s) :
    ({ m with scene := s } : Machine).backdrop = m.backdrop := by
  cases v
  -- The globals and the screen hold a count and a size as well, which have to stay.
  case global =>
    obtain ⟨i, -, rest⟩ := Option.bind_eq_some_iff.1 h
    split at rest
    · obtain rfl := Option.some.inj rest
      simp [backdrop, typeData]
    · cases rest
  case screen f =>
    obtain rfl := Option.some.inj h
    simp [backdrop, typeData]
  case drawListSize =>
    obtain ⟨length, -, rest⟩ := Option.bind_eq_some_iff.1 h
    split at rest
    · obtain ⟨lists, -, rfl⟩ := Option.map_eq_some_iff.1 rest
      rfl
    · cases rest
  case parallax axis f =>
    obtain ⟨lines, -, rfl⟩ := Option.map_eq_some_iff.1 h
    cases axis <;> rfl
  all_goals
    simp only [writeScene?, Option.some.injEq, Option.map_eq_some_iff] at h
    first
    | (subst h; rfl)
    | (obtain ⟨_, _, rfl⟩ := h; rfl)

/-- **Writing a variable** changes nothing beside the places. -/
theorem backdrop_of_write? {v : Variable} (h : v.write? m index w = some m') :
    m'.backdrop = m.backdrop := by
  cases v
  case objectSheet =>
    obtain ⟨i, -, rfl⟩ := Option.map_eq_some_iff.1 h
    have (type : UInt8) :
        ((m.modifyType (m.scene.entities.get i).typeId fun t => { t with spriteSheet := w }).typeData
          type).animation = (m.typeData type).animation := by
      rw [typeData_modifyType]
      split
      · rename_i eq
        rw [← eq]
      · rfl
    simp only [backdrop, this]
    rfl
  case temp | checkResult | arrayPos | musicVolume | effectsVolume | trackVolume =>
    obtain rfl := Option.some.inj h
    rfl
  all_goals
    simp only [write?, change?, Option.map_eq_some_iff] at h
    obtain ⟨s, hs, rfl⟩ := h
    exact backdrop_of_writeScene? hs

/-- The calls of the host that a write to a variable makes. Only volumes make one. -/
def volumeCalls : Variable → Word → List HostCall
  | .musicVolume, w => [.audio (.musicVolume (clampVolume w))]
  | .effectsVolume, w => [.audio (.sfxVolume w)]
  | .trackVolume, w => [.audio (.bgmVolume w)]
  | _, _ => []

/-- **Writing a volume** tells the host, and writing another variable does not. -/
theorem history_of_write? {v : Variable} (h : v.write? m index w = some m') :
    m'.history.toList = m.history.toList ++ v.volumeCalls w := by
  cases v
  case musicVolume | effectsVolume | trackVolume =>
    obtain rfl := Option.some.inj h
    exact Array.toList_push ..
  case objectSheet =>
    obtain ⟨i, -, rfl⟩ := Option.map_eq_some_iff.1 h
    exact (List.append_nil _).symm
  case temp | checkResult | arrayPos =>
    obtain rfl := Option.some.inj h
    exact (List.append_nil _).symm
  all_goals
    simp only [write?, change?, Option.map_eq_some_iff] at h
    obtain ⟨s, hs, rfl⟩ := h
    exact (List.append_nil _).symm

/-- A volume is written wherever it is. -/
theorem volumeCalls_of_write?_eq_none {v : Variable} (h : v.write? m index w = none) :
    v.volumeCalls w = [] := by
  cases v
  case musicVolume | effectsVolume | trackVolume => cases h
  all_goals rfl

end Variable

end StageScript
