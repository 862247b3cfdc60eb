import StageScript.Proofs.Engine.DrawLists
import StageScript.Proofs.Engine.Store
import StageScript.Proofs.Machine.Frames

/-! # Slices of the list of sprite frames
Types start up in order, and each begins its part of the list of sprite frames where the list ends. A
frame is counted for the type that the lent slot has when it is added, which the script can change.
* **`Engine.AddsFor`** — each frame that a run adds is for a type, and **`Engine.AddsOwn`** — each that
  the startup of a type adds is its own;
* `Engine.Counted` — what a run adds to the list and to the count of a type, derived from one step;
* **`Engine.Tiled`** — the parts of the registered types tile the list in order;
* **`Engine.setupObjects_slices`** — they do exactly if each type adds its own frames, and the lent slot is
  as it was in any case. -/

namespace StageScript

/-- Where a type's part of the list of sprite frames begins. -/
def Machine.frameStart (m : Machine) (type : Nat) : Nat :=
  (m.typeData (UInt8.ofNat type)).frameListOffset

/-- How many frames are counted for a type. -/
def Machine.frameCount (m : Machine) (type : Nat) : Nat :=
  (m.typeData (UInt8.ofNat type)).frameCount

/-- How many frames there are. -/
def Machine.frameTotal (m : Machine) : Nat := m.scene.spriteFrames.size

namespace Engine

open Machine Stepwise

/-! ## Counts -/

/-- A run adds no more frames to the count of a type than to the list. It adds as many exactly if they are
the type's own, and then it adds none to the counts of others. -/
structure Counted (type : UInt8) (own : Prop) (m m' : Machine) : Prop where
  within : (m'.typeData type).frameCount + m.frameTotal ≤ m'.frameTotal + (m.typeData type).frameCount
  exact : (m'.typeData type).frameCount + m.frameTotal = m'.frameTotal + (m.typeData type).frameCount ↔ own
  others : own → ∀ other, other ≠ type → (m'.typeData other).frameCount = (m.typeData other).frameCount

namespace Counted

variable {type : UInt8} {own own' : Prop} {m m' m'' : Machine}

theorem of_steady (h : m.Steady m') (holds : own) : Counted type own m m' := by
  have total : m'.frameTotal = m.frameTotal := h.frames
  have count := h.counts type
  exact ⟨by omega, iff_of_true (by omega) holds, fun _ other _ => h.counts other⟩

/-- A frame that is added is the type's own if it is added for the type. -/
theorem of_appends {added : UInt8} (h : m.Appends added m') (same : own ↔ added = type) :
    Counted type own m m' := by
  have total : m'.frameTotal = m.frameTotal + 1 := h.frames
  by_cases eq : added = type
  · subst eq
    have count := h.count
    refine ⟨by omega, iff_of_true (by omega) (same.2 rfl), fun _ => h.others⟩
  · have count := h.others type (Ne.symm eq)
    refine ⟨by omega, iff_of_false (by omega) (mt same.1 eq), fun holds => absurd (same.1 holds) eq⟩

theorem trans (first : Counted type own m m') (second : Counted type own' m' m'') :
    Counted type (own ∧ own') m m'' where
  within := by
    have := first.within
    have := second.within
    omega
  exact := by
    have := first.within
    have := second.within
    rw [← first.exact, ← second.exact]
    omega
  others holds other ne := (second.others holds.2 other ne).trans (first.others holds.1 other ne)

theorem congr (h : Counted type own m m') (same : own ↔ own') : Counted type own' m m' :=
  ⟨h.within, h.exact.trans same, fun holds => h.others (same.2 holds)⟩

end Counted

/-! ## Runs -/

/-- The machine behind so many instructions of a run. -/
def behind (activation : Activation) (n : Nat) (here : Position) (g : Engine) : Machine :=
  (midway activation (fun _ => id) n here g).machine

/-- **Each frame that a run adds is for a type**: wherever an instruction adds one, the running object has
the type. -/
def AddsFor (type : UInt8) (activation : Activation) (here : Position) (g : Engine) : Prop :=
  ∀ n, (behind activation (n + 1) here g).frameTotal ≠ (behind activation n here g).frameTotal →
    (behind activation n here g).objectType activation.object = type

section

variable {type : UInt8} {activation : Activation} {here next : Position} {g : Engine} {m : Machine}

theorem behind_succ_of_next
    (stepped : step g.program activation here g.machine.counted = (.ok (some next), m)) (n : Nat) :
    behind activation (n + 1) here g = behind activation n next { g with machine := m } := by
  rw [behind, midway, instruct, stepped]
  rfl

theorem behind_succ_of_end
    (stepped : step g.program activation here g.machine.counted = (.ok none, m)) (n : Nat) :
    behind activation (n + 1) here g = m := by
  rw [behind, midway, instruct, stepped]
  rfl

/-- The first instruction of a run, and the others. -/
theorem addsFor_iff_of_next
    (stepped : step g.program activation here g.machine.counted = (.ok (some next), m)) :
    AddsFor type activation here g ↔
      (m.frameTotal ≠ g.machine.frameTotal → g.machine.objectType activation.object = type) ∧
        AddsFor type activation next { g with machine := m } := by
  constructor
  · intro adds
    refine ⟨fun more => adds 0 ?_, fun n => ?_⟩
    · rwa [behind_succ_of_next stepped]
    · have later := adds (n + 1)
      rwa [behind_succ_of_next stepped, behind_succ_of_next stepped] at later
  · rintro ⟨first, adds⟩ n
    cases n with
    | zero =>
      rw [behind_succ_of_next stepped]
      exact first
    | succ n =>
      rw [behind_succ_of_next stepped, behind_succ_of_next stepped]
      exact adds n

/-- The last instruction of a run. -/
theorem addsFor_iff_of_end
    (stepped : step g.program activation here g.machine.counted = (.ok none, m)) :
    AddsFor type activation here g ↔
      (m.frameTotal ≠ g.machine.frameTotal → g.machine.objectType activation.object = type) := by
  constructor
  · intro adds more
    refine adds 0 ?_
    rwa [behind_succ_of_end stepped]
  · intro last n
    cases n with
    | zero =>
      rw [behind_succ_of_end stepped]
      exact last
    | succ n =>
      rw [behind_succ_of_end stepped, behind_succ_of_end stepped]
      exact fun more => absurd rfl more

theorem counted_step (type : UInt8) (activation : Activation) (here : Position) (g : Engine) :
    Counted type ((step g.program activation here g.machine.counted).2.frameTotal ≠ g.machine.frameTotal →
      g.machine.objectType activation.object = type) g.machine
      (step g.program activation here g.machine.counted).2 := by
  have begun : g.machine.Steady g.machine.counted := .of_same rfl rfl rfl rfl
  rcases step_frames g.program activation here g.machine.counted with steady | appends
  · have still := begun.trans steady
    exact .of_steady still fun more => absurd still.frames more
  · have appended : g.machine.Appends (g.machine.objectType activation.object)
        (step g.program activation here g.machine.counted).2 :=
      ⟨appends.frames, appends.count, appends.others⟩
    refine .of_appends appended ⟨fun own => own ?_, fun same _ => same⟩
    have total : (step g.program activation here g.machine.counted).2.frameTotal =
      g.machine.frameTotal + 1 := appends.frames
    omega

/-- **What a run adds**, from what its instructions add. -/
theorem counted_runFrom {n : Nat} {m' : Machine}
    (ran : runFrom g.program activation n here g.machine = (.ok (), m')) :
    Counted type (AddsFor type activation here g) g.machine m' := by
  induction n generalizing here g with
  | zero => cases (Prod.mk.inj ran).1
  | succ n ih =>
    have first := counted_step type activation here g
    rw [runFrom_succ] at ran
    rcases stepped : step g.program activation here g.machine.counted with ⟨fault | none | next, m⟩ <;>
      rw [stepped] at ran first
    · cases (Prod.mk.inj ran).1
    · obtain rfl := (Prod.mk.inj ran).2
      exact first.congr (addsFor_iff_of_end stepped).symm
    · exact (first.trans (ih (g := { g with machine := m }) ran)).congr (addsFor_iff_of_next stepped).symm

end

/-! ## The startup of a type -/

/-- **Each frame that the startup of a type adds is its own.** -/
def AddsOwn (type : Nat) (g : Engine) : Prop :=
  ∀ entry, g.program.entryPoint? type .startup = some entry →
    AddsFor (UInt8.ofNat type) ⟨scratchSlot.val, .startup⟩ (.ofEntry entry) (lent type g).opened

variable {type : Nat} {g g' : Engine}

/-- A type that has a startup runs it in the slot that is lent to it. -/
theorem setupType_of_entry (byte : type < typeCapacity) {entry : EntryPoint}
    (found : g.program.entryPoint? type .startup = some entry) :
    setupType type g = runBody ⟨scratchSlot.val, .startup⟩ entry (lent type g) := by
  have number : (UInt8.ofNat type).toNat = type := UInt8.toNat_ofNat_of_lt' byte
  have same : (lent type g).entryPoint? scratchSlot.val .startup = some entry := by
    have its : ((lent type g).machine.scene.entities.get scratchSlot).typeId = UInt8.ofNat type := by
      show (Entity.typeId ((Scene.modifyEntity _ scratchSlot _).entities.get scratchSlot)) = _
      rw [Scene.entities_modifyEntity, if_pos rfl]
    show ((lent type g).program.entryPoint?
      ((lent type g).machine.scene.entities.get scratchSlot).typeId.toNat .startup) = _
    rw [its, number]
    exact found
  have runs : ((openFrames type g).program.entryPoint? type .startup).isSome = true := by
    show (g.program.entryPoint? type .startup).isSome = true
    rw [found]
    rfl
  rw [← processScript_of_entry same, setupType]
  simp only [bind_apply, modify_apply, get_apply]
  rw [if_pos runs]
  rfl

/-- One that has none only begins its frames. -/
theorem setupType_of_none (missing : g.program.entryPoint? type .startup = none) :
    setupType type g = (.ok (), openFrames type g) := by
  have rests : ¬ ((openFrames type g).program.entryPoint? type .startup).isSome = true := by
    show ¬ (g.program.entryPoint? type .startup).isSome = true
    rw [missing]
    exact Bool.false_ne_true
  rw [setupType]
  simp only [bind_apply, modify_apply, get_apply]
  rw [if_neg rests]
  rfl

/-- A body that has run to its end leaves the machine that its run comes to. -/
theorem exists_of_runBody_eq_ok {activation : Activation} {entry : EntryPoint}
    (ran : runBody activation entry g = (.ok (), g')) :
    ∃ m, runFrom g.program activation g.machine.budget (.ofEntry entry) g.opened.machine = (.ok (), m) ∧
      g' = { g with machine := m } := by
  rcases whole : run g.program activation entry { g.machine with steps := 0 } with ⟨fault | ⟨⟩, m⟩
  · simp only [runBody, bind_apply, get_apply, whole, set_apply, fail_apply] at ran
    cases (Prod.mk.inj ran).1
  · rw [runBody_of_ok whole] at ran
    exact ⟨m, whole, (Prod.mk.inj ran).2.symm⟩

/-- **What a startup adds**, from where the type's frames begin. -/
theorem counted_setupType (byte : type < typeCapacity) (set : setupType type g = (.ok (), g')) :
    Counted (UInt8.ofNat type) (AddsOwn type g) (openFrames type g).machine g'.machine ∧
      (openFrames type g).Keeps g' := by
  cases found : g.program.entryPoint? type .startup with
  | none =>
    rw [setupType_of_none found] at set
    obtain rfl := (Prod.mk.inj set).2
    refine ⟨.of_steady (.refl _) fun entry known => ?_, refl_of Keeps _⟩
    rw [found] at known
    cases known
  | some entry =>
    rw [setupType_of_entry byte found] at set
    have kept := keeps_runBody ⟨scratchSlot.val, .startup⟩ entry (lent type g)
    rw [set] at kept
    obtain ⟨m, ran, rfl⟩ := exists_of_runBody_eq_ok set
    have counted := @counted_runFrom (UInt8.ofNat type) _ _ (lent type g).opened _ _ ran
    have own : AddsFor (UInt8.ofNat type) ⟨scratchSlot.val, .startup⟩ (.ofEntry entry)
        (lent type g).opened ↔ AddsOwn type g := by
      refine ⟨fun adds entry' known => ?_, fun adds => adds entry found⟩
      obtain rfl := Option.some.inj (found.symm.trans known)
      exact adds
    -- lending the slot and opening the run change no counts
    exact ⟨⟨counted.within, counted.exact.trans own, fun holds => counted.others (own.2 holds)⟩, kept⟩

/-! ## Where frames begin -/

theorem frameStart_of_keeps (h : g.Keeps g') (other : Nat) :
    g'.machine.frameStart other = g.machine.frameStart other := by
  obtain ⟨_, _, _, same⟩ := h.types ⟨(UInt8.ofNat other).toNat, (UInt8.ofNat other).toNat_lt⟩
  show (g'.store.types.get _).frameListOffset = _
  rw [same]
  rfl

theorem frameStart_openFrames : (openFrames type g).machine.frameStart type = g.machine.frameTotal :=
  congrArg TypeData.frameListOffset ((typeData_modifyType ..).trans (if_pos rfl))

theorem frameCount_openFrames : (openFrames type g).machine.frameCount type = 0 :=
  congrArg TypeData.frameCount ((typeData_modifyType ..).trans (if_pos rfl))

theorem typeData_openFrames {other : UInt8} (ne : other ≠ UInt8.ofNat type) :
    (openFrames type g).machine.typeData other = g.machine.typeData other :=
  (typeData_modifyType ..).trans (if_neg (Ne.symm ne))

/-- **The startup of a type**, from the engine that the types in front of it left. -/
theorem setupType_spec (byte : type < typeCapacity) (set : setupType type g = (.ok (), g')) :
    g'.machine.frameStart type = g.machine.frameTotal ∧
      (g.machine.frameTotal + g'.machine.frameCount type = g'.machine.frameTotal ↔ AddsOwn type g) ∧
      ∀ other, UInt8.ofNat other ≠ UInt8.ofNat type →
        g'.machine.frameStart other = g.machine.frameStart other ∧
          (AddsOwn type g → g'.machine.frameCount other = g.machine.frameCount other) := by
  obtain ⟨counted, kept⟩ := counted_setupType byte set
  refine ⟨(frameStart_of_keeps kept type).trans frameStart_openFrames, ?_, fun other ne => ⟨?_, ?_⟩⟩
  · have none : ((openFrames type g).machine.typeData (UInt8.ofNat type)).frameCount = 0 :=
      frameCount_openFrames
    have total : (openFrames type g).machine.frameTotal = g.machine.frameTotal := rfl
    have exact := counted.exact
    rw [none, total, Nat.add_zero] at exact
    rw [← exact, frameCount, Nat.add_comm]
  · rw [frameStart_of_keeps kept, frameStart, typeData_openFrames ne, frameStart]
  · intro own
    rw [frameCount, counted.others own _ ne, typeData_openFrames ne, frameCount]

/-! ## The startups of all types -/

/-- Types add their own frames, one after the other. -/
def AllAddOwn : List Nat → Engine → Prop
  | [], _ => True
  | type :: types, g => AddsOwn type g ∧ AllAddOwn types (setupType type g).2

/-- The parts of types stand one behind the other, from a place in the list of frames to its end. -/
def TilesFrom (m : Machine) : List Nat → (start : Nat) → Prop
  | [], start => start = m.frameTotal
  | type :: types, start =>
    m.frameStart type = start ∧ TilesFrom m types (m.frameStart type + m.frameCount type)

section

variable {types : List Nat}

/-- The startups of other types leave where a type's frames begin, and they leave how many it has if they
add their own. -/
theorem forM_setupType_other (bytes : ∀ type ∈ types, type < typeCapacity)
    (set : types.forM setupType g = (.ok (), g')) {other : Nat} (byte : other < typeCapacity)
    (absent : other ∉ types) :
    g'.machine.frameStart other = g.machine.frameStart other ∧
      (AllAddOwn types g → g'.machine.frameCount other = g.machine.frameCount other) := by
  induction types generalizing g with
  | nil =>
    obtain rfl := (Prod.mk.inj set).2
    exact ⟨rfl, fun _ => rfl⟩
  | cons type types ih =>
    obtain ⟨⟨⟩, g₁, first, rest⟩ := exists_of_bind_eq_ok (f := fun _ => types.forM setupType) set
    rw [List.mem_cons, not_or] at absent
    obtain ⟨here, later⟩ := absent
    have ne : UInt8.ofNat other ≠ UInt8.ofNat type := by
      intro same
      have numbers := congrArg UInt8.toNat same
      rw [UInt8.toNat_ofNat_of_lt' byte,
        UInt8.toNat_ofNat_of_lt' (bytes type List.mem_cons_self)] at numbers
      exact here numbers
    obtain ⟨-, -, others⟩ := setupType_spec (bytes type List.mem_cons_self) first
    obtain ⟨start, count⟩ := others other ne
    obtain ⟨start', count'⟩ := ih (fun t known => bytes t (List.mem_cons_of_mem _ known)) rest later
    refine ⟨start'.trans start, fun own => ?_⟩
    obtain ⟨own, owns⟩ := own
    rw [first] at owns
    exact (count' owns).trans (count own)

theorem program_of_forM_setupType (bytes : ∀ type ∈ types, type < typeCapacity)
    (set : types.forM setupType g = (.ok (), g')) : g'.program = g.program := by
  induction types generalizing g with
  | nil => rw [← (Prod.mk.inj set).2]
  | cons type types ih =>
    obtain ⟨⟨⟩, g₁, first, rest⟩ := exists_of_bind_eq_ok (f := fun _ => types.forM setupType) set
    have kept := (counted_setupType (bytes type List.mem_cons_self) first).2
    exact (ih (fun t known => bytes t (List.mem_cons_of_mem _ known)) rest).trans kept.program

/-- The first type of some begins its frames where the list ends. -/
theorem eq_of_tilesFrom (bytes : ∀ type ∈ types, type < typeCapacity) (apart : types.Nodup)
    (set : types.forM setupType g = (.ok (), g')) {start : Nat}
    (tiles : TilesFrom g'.machine types start) : start = g.machine.frameTotal := by
  cases types with
  | nil =>
    obtain rfl := (Prod.mk.inj set).2
    exact tiles
  | cons type types =>
    obtain ⟨⟨⟩, g₁, first, rest⟩ := exists_of_bind_eq_ok (f := fun _ => types.forM setupType) set
    have byte := bytes type List.mem_cons_self
    obtain ⟨begins, -, -⟩ := setupType_spec byte first
    obtain ⟨kept, -⟩ := forM_setupType_other (fun t known => bytes t (List.mem_cons_of_mem _ known)) rest
      byte (List.nodup_cons.1 apart).1
    rw [← tiles.1, kept, begins]

/-- **Types tile the list behind what was in it** exactly if each adds its own frames. -/
theorem tilesFrom_iff (bytes : ∀ type ∈ types, type < typeCapacity) (apart : types.Nodup)
    (set : types.forM setupType g = (.ok (), g')) :
    TilesFrom g'.machine types g.machine.frameTotal ↔ AllAddOwn types g := by
  induction types generalizing g with
  | nil =>
    obtain rfl := (Prod.mk.inj set).2
    exact iff_of_true rfl trivial
  | cons type types ih =>
    obtain ⟨⟨⟩, g₁, first, rest⟩ := exists_of_bind_eq_ok (f := fun _ => types.forM setupType) set
    obtain ⟨absent, apart⟩ := List.nodup_cons.1 apart
    have byte := bytes type List.mem_cons_self
    replace bytes := fun t known => bytes t (List.mem_cons_of_mem type known)
    obtain ⟨begins, own, -⟩ := setupType_spec byte first
    obtain ⟨start, count⟩ := forM_setupType_other bytes rest byte absent
    have following : AllAddOwn types g₁ ↔ AllAddOwn types (setupType type g).2 := by rw [first]
    constructor
    · rintro ⟨-, tiles⟩
      rw [start, begins] at tiles
      have ends := eq_of_tilesFrom bytes apart rest tiles
      rw [ends] at tiles
      have owns := (ih bytes apart rest).1 tiles
      rw [count owns] at ends
      exact ⟨own.1 ends, following.1 owns⟩
    · rintro ⟨adds, owns⟩
      have owns := following.2 owns
      refine ⟨start.trans begins, ?_⟩
      rw [start, begins, count owns, own.2 adds]
      exact (ih bytes apart rest).2 owns

end

/-! ## The registered types -/

/-- The types that are registered, in order. The first name is that of the empty slot. -/
def registered (g : Engine) : List Nat := List.range' 1 (g.program.typeNames.size - 1)

/-- An engine before the first startup. -/
def unframed (g : Engine) : Engine := g.modifyScene ({ · with spriteFrames := #[] })

/-- **The parts of the registered types tile the list of sprite frames in order**: the first begins where
the list does, each begins where the one in front of it ends, and the last one ends where the list does. -/
structure Tiled (g : Engine) : Prop where
  first : 1 < g.program.typeNames.size → g.machine.frameStart 1 = 0
  next : ∀ type, 1 ≤ type → type + 1 < g.program.typeNames.size →
    g.machine.frameStart type + g.machine.frameCount type = g.machine.frameStart (type + 1)
  last : 1 < g.program.typeNames.size →
    g.machine.frameStart (g.program.typeNames.size - 1) +
      g.machine.frameCount (g.program.typeNames.size - 1) = g.machine.frameTotal

theorem tilesFrom_range' (m : Machine) (type count start : Nat) :
    TilesFrom m (List.range' type (count + 1)) start ↔
      m.frameStart type = start ∧
        (∀ i < count, m.frameStart (type + i) + m.frameCount (type + i) = m.frameStart (type + i + 1)) ∧
        m.frameStart (type + count) + m.frameCount (type + count) = m.frameTotal := by
  induction count generalizing type start with
  | zero => exact and_congr_right fun _ => (and_iff_right fun _ none => absurd none (Nat.not_lt_zero _)).symm
  | succ count ih =>
    rw [List.range'_succ, TilesFrom, ih, and_congr_right_iff]
    intro _
    rw [Nat.add_right_comm type 1 count]
    constructor
    · rintro ⟨second, others, last⟩
      refine ⟨fun i inside => ?_, last⟩
      cases i with
      | zero => exact second.symm
      | succ i =>
        have next := others i (by omega)
        rw [Nat.add_right_comm type 1 i] at next
        exact next
    · rintro ⟨nexts, last⟩
      refine ⟨(nexts 0 (by omega)).symm, fun i inside => ?_, last⟩
      have next := nexts (i + 1) (by omega)
      rw [Nat.add_right_comm type 1 i]
      exact next

theorem tiled_iff (g : Engine) :
    g.Tiled ↔ (g.registered ≠ [] → TilesFrom g.machine g.registered 0) := by
  rw [registered]
  by_cases none : g.program.typeNames.size ≤ 1
  · have empty : g.program.typeNames.size - 1 = 0 := by omega
    rw [empty]
    refine iff_of_true ⟨fun some => ?_, fun type known inside => ?_, fun some => ?_⟩ fun some => absurd rfl some
    · omega
    · omega
    · omega
  · obtain ⟨count, size⟩ : ∃ count, g.program.typeNames.size = count + 2 :=
      ⟨g.program.typeNames.size - 2, by omega⟩
    have some : List.range' 1 (g.program.typeNames.size - 1) ≠ [] := by
      rw [size]
      simp
    rw [forall_prop_of_true some, size]
    show _ ↔ TilesFrom g.machine (List.range' 1 (count + 1)) 0
    rw [tilesFrom_range']
    constructor
    · rintro ⟨first, next, last⟩
      refine ⟨first (by omega), fun i inside => next (1 + i) (by omega) (by omega), ?_⟩
      have last := last (by omega)
      rw [size] at last
      rwa [Nat.add_comm 1 count]
    · rintro ⟨first, next, last⟩
      refine ⟨fun _ => first, fun type known inside => ?_, fun _ => ?_⟩
      · have nexts := next (type - 1) (by omega)
        rwa [Nat.add_sub_cancel' known] at nexts
      · rw [size]
        rwa [Nat.add_comm 1 count] at last

/-- Giving the slot back changes neither the frames nor the types. -/
theorem tiled_modifyEntity (slot : Fin entityCount) (change : Entity → Entity) :
    (g.modifyScene (·.modifyEntity slot change)).Tiled ↔ g.Tiled :=
  ⟨fun h => ⟨h.first, h.next, h.last⟩, fun h => ⟨h.first, h.next, h.last⟩⟩

/-- The types start up one after the other, and the slot is given back behind a failure, too. -/
theorem setupObjects_apply (g : Engine) :
    setupObjects g = ((g.registered.forM setupType g.unframed).1,
      (g.registered.forM setupType g.unframed).2.modifyScene fun s =>
        s.modifyEntity scratchSlot fun _ => g.machine.scene.entities.get scratchSlot) := rfl

/-- **The slices of the list of sprite frames.** Whatever the scripts and the scene are, the slot that is
lent to types is afterwards as it was. If all types start up, their parts of the list tile it in order
exactly if each type adds its own frames: if the script of none of them gives the lent slot another type
and then adds a frame. -/
theorem setupObjects_slices (g : Engine) (few : g.program.typeNames.size ≤ typeCapacity) :
    (setupObjects g).2.machine.scene.entities.get scratchSlot =
        g.machine.scene.entities.get scratchSlot ∧
      ∀ g', setupObjects g = (.ok (), g') → (g'.Tiled ↔ AllAddOwn g.registered g.unframed) := by
  rw [setupObjects_apply]
  constructor
  · show ((Scene.modifyEntity _ scratchSlot _).entities.get scratchSlot) = _
    rw [Scene.entities_modifyEntity, if_pos rfl]
  · intro g' set
    have bytes : ∀ type ∈ g.registered, type < typeCapacity := by
      intro type known
      have inside := List.mem_range'_1.1 known
      omega
    rcases ran : g.registered.forM setupType g.unframed with ⟨fault | ⟨⟩, g₁⟩ <;> rw [ran] at set
    · cases (Prod.mk.inj set).1
    · obtain rfl := (Prod.mk.inj set).2
      have types : g₁.registered = g.registered := by
        rw [registered, program_of_forM_setupType bytes ran]
        rfl
      refine (tiled_modifyEntity scratchSlot _).trans ((tiled_iff g₁).trans ?_)
      rw [types, ← tilesFrom_iff bytes List.nodup_range' ran]
      constructor
      · intro tiles
        cases some : g.registered with
        | nil =>
          -- without types no frames have been added
          rw [some] at ran
          obtain rfl := (Prod.mk.inj ran).2
          rfl
        | cons type types =>
          rw [some] at tiles
          exact tiles (List.cons_ne_nil _ _)
      · exact fun tiles _ => tiles

/-- A program of two types, the first of which runs a body when it starts up. -/
def starting (code : Array Word) : Program where
  code := code
  entries := (Vector.replicate typeCapacity {}).setIfInBounds 1 { startup := some ⟨0, 0⟩ }
  typeNames := #["BlankObject".toList, "Ring".toList, "Spring".toList]

/-- A body that adds a frame. -/
def framing : Program := starting #[56, 2, 0, 2, 0, 2, 1, 2, 1, 2, 0, 2, 0, 0]

/-- A body that makes its entity one of type two before it adds a frame. -/
def swapping : Program := starting #[1, 1, 0, 14, 2, 2, 56, 2, 0, 2, 0, 2, 1, 2, 1, 2, 0, 2, 0, 0]

/-- A startup that succeeds. -/
theorem setupObjects_of_isSome {g : Engine} (ok : (setupObjects g).1.toOption.isSome = true) :
    setupObjects g = (.ok (), (setupObjects g).2) := by
  obtain ⟨⟨⟩, answer⟩ := Option.isSome_iff_exists.1 ok
  exact Prod.ext (Except.eq_ok_of_toOption answer) rfl

theorem setupObjects_slices_framing :
    framing.typeNames.size ≤ typeCapacity ∧ (setupObjects (holding framing)).2.Tiled ∧
      AllAddOwn (holding framing).registered (holding framing).unframed := by
  have few : framing.typeNames.size ≤ typeCapacity := by decide
  have set := setupObjects_of_isSome (g := holding framing) (by decide +kernel)
  have names : (setupObjects (holding framing)).2.program.typeNames.size = 3 := by decide +kernel
  have tiled : (setupObjects (holding framing)).2.Tiled := by
    refine ⟨fun _ => by decide +kernel, fun type known inside => ?_, fun _ => by decide +kernel⟩
    obtain rfl : type = 1 := by omega
    decide +kernel
  exact ⟨few, tiled, ((setupObjects_slices (holding framing) few).2 _ set).1 tiled⟩

/-- **A type whose script makes the lent slot one of another type** loses the frames that it adds then: they
are counted for the other one, which begins its part behind them. -/
theorem not_all_tiled :
    ¬ ∀ g g' : Engine, g.program.typeNames.size ≤ typeCapacity → setupObjects g = (.ok (), g') →
      g'.Tiled := by
  intro all
  have set := setupObjects_of_isSome (g := holding swapping) (by decide +kernel)
  have names : (setupObjects (holding swapping)).2.program.typeNames.size = 3 := by decide +kernel
  have tiled := all _ _ (by decide) set
  have next := tiled.next 1 (Nat.le_refl 1) (by omega)
  exact absurd next (by decide +kernel)

end Engine

end StageScript
