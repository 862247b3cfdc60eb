import StageScript.Proofs.Machine.Execution
import StageScript.Proofs.Machine.Support

/-! # Variables as lenses
What the next reading of a variable gives behind a write to it, and where either is out of range.
* `Variable.Reaches` — an index is in range for a variable, and `Variable.Takes` — a value is;
* `Variable.normalised` — the number that a value is for a variable;
* `Variable.isSome_read?` and `Variable.isSome_write?_iff` — which accesses go through;
* **`Variable.read_write`** — the laws of writing and reading. -/

namespace StageScript

/-! ## Words as numbers -/

namespace Word

/-- The bits of a word, read without a sign. -/
theorem toNat_toUInt32 (w : Word) : (w.toUInt32.toNat : Int) = w.toInt % 4294967296 := by
  have bits : w.toUInt32.toNat = w.toBitVec.toNat := rfl
  have signed : w.toInt = w.toBitVec.toInt := rfl
  rw [bits, signed, BitVec.toInt_eq_toNat_bmod, Int.bmod_def]
  have := w.toBitVec.isLt
  split <;> omega

theorem toInt_ofByte (b : UInt8) : (ofByte b).toInt = b.toNat := by
  have signed : (ofByte b).toInt = b.toUInt32.toBitVec.toInt := rfl
  have bits : b.toUInt32.toBitVec.toNat = b.toNat := UInt8.toNat_toUInt32 b
  have := b.toNat_lt
  rw [signed, BitVec.toInt_eq_toNat_bmod, bits, Int.bmod_eq_of_le (by omega) (by omega)]

theorem toInt_ofByte_lowByte (w : Word) : (ofByte w.lowByte).toInt = w.toInt % 256 := by
  have cut : w.lowByte.toNat = w.toUInt32.toNat % 256 := UInt32.toNat_toUInt8 _
  have bits := w.toNat_toUInt32
  rw [toInt_ofByte, cut]
  omega

theorem toInt_whole (w : Word) : w.whole.toInt = w.toInt / 65536 := by
  have shifted : w.whole.toInt = (w.toBitVec.sshiftRight 16).toInt := rfl
  rw [shifted, BitVec.toInt_sshiftRight, Int.shiftRight_eq_div_pow]
  rfl

theorem toInt_ofWhole (w : Word) : w.ofWhole.toInt = (w.toInt * 65536).bmod 4294967296 := by
  have shifted : w.ofWhole.toInt = (w.toBitVec <<< 16).toInt := rfl
  have bits : (w.toBitVec.toNat : Int) = w.toInt % 4294967296 := w.toNat_toUInt32
  have same : ((w.toBitVec.toNat * 2 ^ 16 : Nat) : Int) % (2 ^ 32 : Nat) =
      w.toInt * 65536 % (2 ^ 32 : Nat) := by omega
  rw [shifted, BitVec.toInt_shiftLeft, Nat.shiftLeft_eq, ← Int.emod_bmod, same]
  exact Int.emod_bmod _ _

theorem toInt_whole_ofWhole (w : Word) : w.ofWhole.whole.toInt = w.toInt.bmod 65536 := by
  rw [toInt_whole, toInt_ofWhole, Int.bmod_def, Int.bmod_def]
  split <;> split <;> omega

theorem toInt_clampVolume (w : Word) :
    (Variable.clampVolume w).toInt = max 0 (min 100 w.toInt) := by
  have hundred : (100 : Word).toInt = 100 := by decide
  rw [Variable.clampVolume]
  by_cases low : w < 0
  · rw [if_pos low, Int32.toInt_zero]
    rw [Int32.lt_iff_toInt_lt, Int32.toInt_zero] at low
    omega
  · rw [if_neg low]
    rw [Int32.lt_iff_toInt_lt, Int32.toInt_zero] at low
    by_cases high : 100 < w
    · rw [if_pos high, hundred]
      rw [Int32.lt_iff_toInt_lt, hundred] at high
      omega
    · rw [if_neg high]
      rw [Int32.lt_iff_toInt_lt, hundred] at high
      omega

/-- A word is a position with a property of positions exactly if it is not negative and its number has
the property. -/
theorem any_index?_iff {w : Word} {p : Nat → Bool} :
    w.index?.any p = true ↔ 0 ≤ w.toInt ∧ p w.toInt.toNat = true := by
  rw [index?]
  split
  · rename_i negative
    exact iff_of_false (by simp) fun h => absurd h.1 (Int.not_le.2 negative)
  · rename_i natural
    rw [Option.any_some, and_iff_right (Int.not_lt.1 natural)]

end Word

theorem Indexed.isSome_position?_iff {n : Nat} {w : Word} :
    (Indexed.position? n w).isSome = true ↔ 0 ≤ w.toInt ∧ w.toInt < n := by
  have places (k : Nat) : (place? n k).isSome = decide (k < n) := by
    rw [place?]
    split <;> simp [*]
  rw [position?, Option.isSome_bind]
  simp only [places, Word.any_index?_iff, decide_eq_true_eq]
  omega

namespace Variable

open Indexed Machine

variable {v : Variable} {m m' : Machine} {index w : Word}

/-! ## Accesses in range -/

/-- How many elements a variable has; without a number it is one thing, whatever the index is. -/
def extent? (s : Scene) : Variable → Option Nat
  | .global => some s.globals.size
  | .objectNumber | .object _ | .objectOutOfBounds | .objectSheet => some entityCount
  | .playerFlailing => some 3
  | .deformation _ => some deformationLength
  | .drawListSize => some drawListCount
  | .touch _ => some 4
  | .tileLayer _ => some tileLayerCount
  | .parallax _ _ => some parallaxCount
  | .vertex _ => some vertexCapacity
  | .face _ => some faceCapacity
  | .saveRam => some saveRamSize
  | _ => none

/-- An index is that of an element. -/
def Reaches (v : Variable) (s : Scene) (index : Word) : Prop :=
  ∀ count, v.extent? s = some count → 0 ≤ index.toInt ∧ index.toInt < count

/-- A value is in range for a variable: the number of an entity or of a player, or the length of a
draw list, where it stands for one. -/
def Takes : Variable → Word → Prop
  | .playerNumber, w => 0 ≤ w.toInt ∧ w.toInt < entityCount
  | .activePlayer, w => 0 ≤ w.toInt ∧ w.toInt < playerCount
  | .drawListSize, w => 0 ≤ w.toInt ∧ w.toInt ≤ entityCount
  | _, _ => True

/-- The number that is read where a value has been written. -/
def normalised : Variable → Word → Int
  | .musicVolume, w => max 0 (min 100 w.toInt)
  | .key _ _, w => if w = 0 then 0 else 1
  | v, w =>
    match v.kind with
    | .word => w.toInt
    | .byte => w.toInt % 256
    | .whole => w.toInt.bmod 65536

theorem reaches_of_extent?_eq_none {s : Scene} (h : v.extent? s = none) : v.Reaches s index := by
  intro count known
  rw [h] at known
  cases known

theorem reaches_iff_of_extent? {s : Scene} {count : Nat} (h : v.extent? s = some count) :
    v.Reaches s index ↔ 0 ≤ index.toInt ∧ index.toInt < count := by
  simp only [Reaches, h, Option.some.injEq, forall_eq']

/-- **A reading goes through** where the index is in range. -/
theorem isSome_read? : (v.read? m index).isSome = true ↔ v.Reaches m.scene index := by
  cases v
  case global =>
    have elements (i : Nat) : (m.scene.globals[i]?).isSome = decide (i < m.scene.globals.size) := by
      by_cases inside : i < m.scene.globals.size <;> simp [inside]
    rw [reaches_iff_of_extent? rfl, read?, Option.isSome_bind]
    simp only [elements, Word.any_index?_iff, decide_eq_true_eq]
    omega
  case objectNumber | object | objectOutOfBounds | objectSheet | playerFlailing | deformation
      | drawListSize | touch | tileLayer | parallax | vertex | face | saveRam =>
    rw [reaches_iff_of_extent? rfl, ← isSome_position?_iff]
    simp [read?, at?, slot?]
  all_goals exact iff_of_true rfl (reaches_of_extent?_eq_none rfl)

theorem accepts_iff : v.accepts w = true ↔ v.Takes w := by
  cases v
  case playerNumber => exact isSome_position?_iff
  case activePlayer => exact isSome_position?_iff
  case drawListSize =>
    rw [accepts, Takes, Word.any_index?_iff, decide_eq_true_eq]
    omega
  all_goals exact iff_of_true rfl trivial

/-- **A write goes through** where the index and the value are in range. -/
theorem isSome_write?_iff (writable : v.isReadOnly = false) :
    (v.write? m index w).isSome = true ↔ v.Reaches m.scene index ∧ v.Takes w := by
  rw [isSome_write? writable, Bool.and_eq_true, accepts_iff, ← isSome_read?, read?_eq m index writable,
    Option.isSome_map]

/-! ## Behind a write -/

/-- **A write leaves the variable where it is**: which place a variable means is said by other places
than its own. -/
theorem cell?_of_written {c : Cell} (hc : v.cell? m.scene index = some c)
    (written : c.Written w m m') (beside : m'.backdrop = m.backdrop) :
    v.cell? m'.scene index = some c := by
  rw [← hc]
  -- A variable that finds its place through another one does not change that one when it is
  -- written.
  cases v with
  | global =>
    have count : m'.scene.globals.size = m.scene.globals.size := congrArg Backdrop.globalCount beside
    rw [cell?, cell?, count]
  | objectSheet =>
    obtain ⟨i, -, rfl⟩ := Option.map_eq_some_iff.1 hc
    have type (j : Fin entityCount) :
        (m'.scene.entities.get j).typeId = (m.scene.entities.get j).typeId :=
      Word.ofByte_injective (written.other (.entity j (EntityField.typeId).toPart) (by simp))
    simp only [cell?, type]
  | playerEntity field =>
    obtain rfl := Option.some.inj hc
    rw [cell?, cell?, playerEntity_of_content (written.other _ (by simp)) (written.other _ (by simp))]
  | player field =>
    obtain rfl := Option.some.inj hc
    rw [cell?, cell?, activePlayer_of_content (written.other _ (by simp))]
  | playerNumber =>
    obtain rfl := Option.some.inj hc
    rw [cell?, cell?, activePlayer_of_content (written.other _ (by simp))]
  | playerFlailing =>
    obtain ⟨i, -, rfl⟩ := Option.map_eq_some_iff.1 hc
    rw [cell?, cell?, activePlayer_of_content (written.other _ (by simp))]
  | _ => rfl

theorem toInt_view_keep (v : Variable) (w : Word) : (v.view (v.keep w)).toInt = v.normalised w := by
  have shown : (v.kind.view (v.kind.keep w)).toInt =
      match v.kind with
      | .word => w.toInt
      | .byte => w.toInt % 256
      | .whole => w.toInt.bmod 65536 := by
    rw [FieldKind.view_keep]
    cases v.kind with
    | word => rfl
    | byte => exact Word.toInt_ofByte_lowByte w
    | whole => exact Word.toInt_whole_ofWhole w
  cases v
  case musicVolume => exact Word.toInt_clampVolume w
  case key =>
    show (Word.ofBool (w ≠ 0)).toInt = if w = 0 then 0 else 1
    by_cases zero : w = 0
    · rw [if_pos zero, zero]
      rfl
    · rw [if_neg zero, decide_eq_true zero]
      rfl
  all_goals exact shown

/-- **Reading behind a write** gives the value as the variable shows it. -/
theorem read?_of_write? (writable : v.isReadOnly = false) (h : v.write? m index w = some m') :
    v.read? m' index = some (v.view (v.keep w)) := by
  obtain ⟨c, hc, written⟩ := written_of_write? writable h
  have still := cell?_of_written hc written (backdrop_of_write? h)
  rw [read?_eq m' index writable, still, Option.map_some, written.content]

/-! ## The steps -/

/-- What an access out of range leads to: a fault in strict mode, and a value otherwise. -/
def missed {α : Type} (v : Variable) (index : Word) (m : Machine) (otherwise : α) : Except Fault α :=
  if m.strict then .error (.indexOutOfRange v.name index) else .ok otherwise

theorem read_of_some (h : v.read? m index = some w) : v.read index m = (.ok w, m) := by
  simp only [read, Stepwise.bind_apply, Stepwise.get_apply, h, Stepwise.pure_apply]

theorem read_of_none (h : v.read? m index = none) : v.read index m = (v.missed index m 0, m) := by
  simp only [read, Stepwise.bind_apply, Stepwise.get_apply, h, outOfRange_apply, missed]
  cases m.strict <;> rfl

theorem write_of_some (h : v.write? m index w = some m') : v.write index w m = (.ok (), m') := by
  simp only [write, Stepwise.bind_apply, Stepwise.get_apply, h, Stepwise.set_apply]

theorem write_of_none (h : v.write? m index w = none) :
    v.write index w m = (v.missed index m (), m) := by
  simp only [write, Stepwise.bind_apply, Stepwise.get_apply, h, outOfRange_apply, missed]

/-- **The laws of variables**, in both modes. Behind a write in range the variable reads as the value
is normalised; a write out of range is missed and changes nothing, and neither does one to a variable
that scripts cannot write; a reading changes nothing, and is missed exactly where its index is out of
range. -/
theorem read_write (v : Variable) (index w : Word) (m : Machine) :
    (v.isReadOnly = false → v.Reaches m.scene index → v.Takes w →
      ∃ m' shown, v.write index w m = (.ok (), m') ∧ v.read index m' = (.ok shown, m') ∧
        shown.toInt = v.normalised w) ∧
      (v.isReadOnly = false → ¬ (v.Reaches m.scene index ∧ v.Takes w) →
        v.write index w m = (v.missed index m (), m)) ∧
      (v.isReadOnly = true → v.write index w m = (.ok (), m)) ∧
      (v.Reaches m.scene index → ∃ shown, v.read index m = (.ok shown, m)) ∧
      (¬ v.Reaches m.scene index → v.read index m = (v.missed index m 0, m)) := by
  refine ⟨fun writable reaches takes => ?_, fun writable missed => ?_, fun readOnly => ?_,
    fun reaches => ?_, fun missed => ?_⟩
  · obtain ⟨m', written⟩ :=
      Option.isSome_iff_exists.1 ((isSome_write?_iff writable).2 ⟨reaches, takes⟩)
    exact ⟨m', _, write_of_some written, read_of_some (read?_of_write? writable written),
      v.toInt_view_keep w⟩
  · exact write_of_none (Option.not_isSome_iff_eq_none.1 fun some =>
      missed ((isSome_write?_iff writable).1 some))
  · exact write_of_some (write?_of_isReadOnly m index w readOnly)
  · obtain ⟨shown, found⟩ := Option.isSome_iff_exists.1 (isSome_read?.2 reaches)
    exact ⟨shown, read_of_some found⟩
  · exact read_of_none (Option.not_isSome_iff_eq_none.1 fun some => missed (isSome_read?.1 some))

theorem read_write_wholeX :
    (∃ m' shown, (Variable.object .wholeX).write 7 40000 idle = (.ok (), m') ∧
      (Variable.object .wholeX).read 7 m' = (.ok shown, m') ∧ shown.toInt = -25536) ∧
      (Variable.object .wholeX).write (-1) 40000 { idle with strict := true } =
        (.error (.indexOutOfRange "Object.iXPos" (-1)), { idle with strict := true }) := by
  refine ⟨?_, ?_⟩
  · obtain ⟨law, -⟩ := read_write (.object .wholeX) 7 40000 idle
    exact law rfl ((reaches_iff_of_extent? rfl).2 (by decide)) trivial
  · obtain ⟨-, missed, -⟩ := read_write (.object .wholeX) (-1) 40000 { idle with strict := true }
    refine missed rfl fun inRange => ?_
    exact absurd ((reaches_iff_of_extent? rfl).1 inRange.1).1 (by decide)

end Variable

end StageScript
