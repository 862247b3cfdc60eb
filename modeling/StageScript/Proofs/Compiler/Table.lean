import StageScript.Proofs.Compiler.Line
import StageScript.Proofs.Program.Typing

/-! # Slots under compilation
While a body is being compiled the slots of its open blocks may still be without a target.
* **`Owed`** — the slots that an open block gives a target when it closes at the latest;
* **`TableTyped`** — every slot of a body has its target or is owed one by an open block;
* **`TableTyped.change`**, **`TableTyped.extend`**, **`TableTyped.close`** — what gives slots their
  targets, what opens a block and what closes one keep this up. -/

namespace StageScript

/-! ## Words -/

theorem Word.ofNat_nonneg {n : Nat} (h : n ≤ codeCapacity) : ¬ Word.ofNat n < 0 := by
  rw [codeCapacity] at h
  have := Word.toInt_ofNat (n := n) (by omega)
  rw [Int32.lt_iff_toInt_lt, this, Int32.toInt_zero]
  omega

theorem Word.ofNat_ne {n : Nat} (h : n ≤ codeCapacity) : Word.ofNat n ≠ -1 := by
  intro same
  apply Word.ofNat_nonneg h
  rw [same]
  decide

theorem Word.ofNat_succ_sub (n : Nat) : Word.ofNat (n + 1) - 1 = Word.ofNat n := by
  rw [Word.ofNat, Word.ofNat, Int32.ofNat_add, Int32.sub_eq_add_neg, Int32.add_assoc]
  rw [show Int32.ofNat 1 + -1 = 0 by decide, Int32.add_zero]

/-! ## Open blocks -/

namespace Typing

/-- The word is the offset of a place at which the blocks are open. -/
def Resolves (t : Typing) (w : Word) (blocks : List Nat) : Prop :=
  ∃ target, target ≤ codeCapacity ∧ w = Word.ofNat target ∧ t.At target blocks

theorem Resolves.mono {t t' : Typing} {w : Word} {blocks : List Nat} (h : t.Resolves w blocks)
    (longer : t.Extends t') : t'.Resolves w blocks := by
  obtain ⟨target, small, same, at_⟩ := h
  exact ⟨target, small, same, longer.at_ at_⟩

theorem Resolves.ne {t : Typing} {w : Word} {blocks : List Nat} (h : t.Resolves w blocks) :
    w ≠ -1 := by
  obtain ⟨target, small, rfl, -⟩ := h
  exact Word.ofNat_ne small

/-- What a typing has to say of the slots of an open block. -/
def HasSlots (t : Typing) (slot : Nat) (outer : List Nat) : BlockKind → Prop
  | .ifBlock => t.Slot slot (slot :: outer) ∧ t.Slot (slot + 1) outer
  | .whileBlock => t.Slot slot outer ∧ t.Slot (slot + 1) outer
  | .switchBlock => ∃ range, t.Header slot range ∧ t.Slot (slot + 2) (slot :: outer) ∧
      t.Slot (slot + 3) outer ∧ ∀ k < range.size, t.Slot (slot + 4 + k) (slot :: outer)

theorem HasSlots.mono {t t' : Typing} {slot : Nat} {outer : List Nat} {kind : BlockKind}
    (h : t.HasSlots slot outer kind) (longer : t.Extends t') : t'.HasSlots slot outer kind := by
  cases kind with
  | ifBlock => exact ⟨longer.slot h.1, longer.slot h.2⟩
  | whileBlock => exact ⟨longer.slot h.1, longer.slot h.2⟩
  | switchBlock =>
    obtain ⟨range, header, other, behind, cases⟩ := h
    exact ⟨range, longer.header header, longer.slot other, longer.slot behind,
      fun k inside => longer.slot (cases k inside)⟩

end Typing

/-- The slots of an `if`: where its test fails, and behind it. -/
def ifSlots (place : Nat) (outer : List Nat) : List (Option (List Nat)) :=
  [some (place :: outer), some outer]

/-- The slots of a `while`: its test, and behind it. -/
def whileSlots (outer : List Nat) : List (Option (List Nat)) := [some outer, some outer]

/-- The slots of a switch: its header, and its cases. -/
def switchSlots (place : Nat) (outer : List Nat) (range : LabelRange) :
    List (Option (List Nat)) :=
  [none, none, some (place :: outer), some outer] ++
    List.replicate range.size (some (place :: outer))

/-- The places of open blocks among the slots of a body. -/
def places (start : Nat) (blocks : List Block) : List Nat := blocks.map fun b => b.slot - start

/-- The open blocks have slots as the typing says, and each of them stands behind the header of every
switch that it is in. -/
def Nested (start : Nat) (t : Typing) : List Block → Prop
  | [] => True
  | b :: outer => start ≤ b.slot ∧ t.HasSlots (b.slot - start) (places start outer) b.kind ∧
      (∀ b' ∈ outer, b'.kind = .switchBlock → b'.slot + 4 ≤ b.slot) ∧ Nested start t outer

theorem Nested.mono {start : Nat} {t t' : Typing} {blocks : List Block} (h : Nested start t blocks)
    (longer : t.Extends t') : Nested start t' blocks := by
  induction blocks with
  | nil => trivial
  | cons b outer ih =>
    obtain ⟨begun, slots, headers, below⟩ := h
    exact ⟨begun, slots.mono longer, headers, ih below⟩

theorem Nested.of_mem {start : Nat} {t : Typing} {blocks : List Block} (h : Nested start t blocks)
    {b : Block} (member : b ∈ blocks) :
    start ≤ b.slot ∧ ∃ outer, t.HasSlots (b.slot - start) outer b.kind := by
  induction blocks with
  | nil => cases member
  | cons top outer ih =>
    obtain ⟨begun, slots, headers, below⟩ := h
    rcases List.mem_cons.1 member with rfl | member
    · exact ⟨begun, _, slots⟩
    · exact ih below member

/-- The slots that an open block, whose own are at `place`, has to give a target before it closes. -/
inductive Owed (jumps : Array Word) (start : Nat) (t : Typing) (place : Nat) :
    BlockKind → Nat → Prop
  | test (missing : jumps[start + place]? = some (-1)) : Owed jumps start t place .ifBlock place
  | endIf : Owed jumps start t place .ifBlock (place + 1)
  | loop : Owed jumps start t place .whileBlock (place + 1)
  | default (missing : jumps[start + (place + 2)]? = some (-1)) :
    Owed jumps start t place .switchBlock (place + 2)
  | endSwitch : Owed jumps start t place .switchBlock (place + 3)
  | case {range : LabelRange} {k : Nat} (header : t.Header place range) (inside : k < range.size)
    (missing : jumps[start + (place + 4 + k)]? = some (-1))
    (noDefault : jumps[start + (place + 2)]? = some (-1)) :
    Owed jumps start t place .switchBlock (place + 4 + k)

/-- What is owed stays owed, as long as the slot has its word, and, if it is the slot of a case without
a target, that for other values has its word too. -/
theorem Owed.mono {jumps jumps' : Array Word} {start place slot : Nat} {t t' : Typing}
    {kind : BlockKind} (owed : Owed jumps start t place kind slot) (longer : t.Extends t')
    (word : jumps'[start + slot]? = jumps[start + slot]?)
    (other : ∀ {range k}, kind = .switchBlock → slot = place + 4 + k → t.Header place range →
      k < range.size → jumps[start + slot]? = some (-1) →
        jumps'[start + (place + 2)]? = jumps[start + (place + 2)]?) :
    Owed jumps' start t' place kind slot := by
  cases owed with
  | test missing => exact .test (word.trans missing)
  | endIf => exact .endIf
  | loop => exact .loop
  | default missing => exact .default (word.trans missing)
  | endSwitch => exact .endSwitch
  | case header inside missing noDefault =>
    exact .case (longer.header header) inside (word.trans missing)
      ((other rfl rfl header inside missing).trans noDefault)

/-! ## The slots of a body -/

/-- The slots of a body that begin at `start` and go on to the end of the jump table, where some
blocks are open: a slot has a target as the typing says, or it is owed one by an open block. -/
structure TableTyped (jumps : Array Word) (start : Nat) (blocks : List Block) (t : Typing) :
    Prop where
  length : start + t.slots.length = jumps.size
  slot : ∀ {slot held}, t.Slot slot held →
    (∃ w, jumps[start + slot]? = some w ∧ t.Resolves w held) ∨
      ∃ b ∈ blocks, Owed jumps start t (b.slot - start) b.kind slot
  header : ∀ {slot range}, t.Header slot range → t.slots[slot]? = some none ∧
    t.slots[slot + 1]? = some none ∧ range.min ≤ range.max ∧
      jumps[start + slot]? = some range.min ∧ jumps[start + (slot + 1)]? = some range.max
  nested : Nested start t blocks

namespace TableTyped

variable {jumps : Array Word} {start : Nat} {blocks : List Block} {t : Typing}

/-- A body without a slot. -/
theorem empty (jumps : Array Word) (places : List (Nat × List Nat)) :
    TableTyped jumps jumps.size [] { places } := by
  refine ⟨Nat.add_zero _, fun {slot held} typed => ?_, fun header => ?_, trivial⟩
  · rw [Typing.Slot, List.getElem?_nil] at typed
    cases typed
  · exact absurd header List.not_mem_nil

/-- A longer typing that says nothing new about slots. -/
theorem of_extends {t' : Typing} (h : TableTyped jumps start blocks t) (longer : t.Extends t')
    (slots : t'.slots = t.slots) (headers : t'.headers = t.headers) :
    TableTyped jumps start blocks t' := by
  have back {slot : Nat} {held : List Nat} (typed : t'.Slot slot held) : t.Slot slot held := by
    rw [Typing.Slot, slots] at typed
    exact typed
  have backHeader {slot : Nat} {range : LabelRange} (header : t'.Header slot range) :
      t.Header slot range := by
    rw [Typing.Header, headers] at header
    exact header
  refine ⟨slots ▸ h.length, fun typed => ?_, fun header => ?_, h.nested.mono longer⟩
  · rcases h.slot (back typed) with ⟨w, word, resolves⟩ | ⟨b, member, owed⟩
    · exact .inl ⟨w, word, resolves.mono longer⟩
    · exact .inr ⟨b, member, owed.mono longer rfl fun _ _ _ _ _ => rfl⟩
  · rw [slots]
    exact h.header (backHeader header)

/-- **Words that are changed** to targets as the typing says keep the slots typed, as long as a switch
whose other values get a target has none left among its cases. -/
theorem change {jumps' : Array Word} (h : TableTyped jumps start blocks t)
    (size : jumps'.size = jumps.size)
    (typed : ∀ {slot held}, t.Slot slot held → jumps'[start + slot]? = jumps[start + slot]? ∨
      ∃ w, jumps'[start + slot]? = some w ∧ t.Resolves w held)
    (untyped : ∀ {slot}, t.slots[slot]? = some none → jumps'[start + slot]? = jumps[start + slot]?)
    (switches : ∀ b ∈ blocks, b.kind = .switchBlock →
      jumps'[start + (b.slot - start + 2)]? = jumps[start + (b.slot - start + 2)]? ∨
        ∀ range k, t.Header (b.slot - start) range → k < range.size →
          jumps'[start + (b.slot - start + 4 + k)]? ≠ some (-1)) :
    TableTyped jumps' start blocks t := by
  refine ⟨h.length.trans size.symm, fun {slot held} slotted => ?_, fun header => ?_, h.nested⟩
  · rcases typed slotted with same | resolved
    · -- The slot has the word that it had: it has its target, or it is owed one as before.
      rcases h.slot slotted with ⟨w, word, resolves⟩ | ⟨b, member, owed⟩
      · exact .inl ⟨w, same.trans word, resolves⟩
      · refine .inr ⟨b, member, owed.mono (.refl t) same fun isSwitch case header inside missing => ?_⟩
        -- A switch whose other values have got a target has none left among its cases.
        refine (switches b member isSwitch).resolve_right fun none => none _ _ header inside ?_
        rw [← case]
        exact same.trans missing
    · exact .inl resolved
  · obtain ⟨first, second, order, min, max⟩ := h.header header
    exact ⟨first, second, order, (untyped first).trans min, (untyped second).trans max⟩

/-- One word that is changed to a target. -/
theorem set (h : TableTyped jumps start blocks t) {slot : Nat} {held : List Nat} {w : Word}
    (typed : t.Slot slot held) (resolves : t.Resolves w held)
    (switches : ∀ b ∈ blocks, b.kind = .switchBlock → b.slot - start + 2 ≠ slot) :
    TableTyped (jumps.setIfInBounds (start + slot) w) start blocks t := by
  have other {k : Nat} (ne : k ≠ slot) :
      (jumps.setIfInBounds (start + slot) w)[start + k]? = jumps[start + k]? :=
    Array.getElem?_setIfInBounds_ne (by omega)
  refine h.change Array.size_setIfInBounds (fun {k held'} typed' => ?_) (fun {k} untyped => ?_)
    (fun b member kind => .inl (other (switches b member kind)))
  · by_cases same : k = slot
    · subst same
      obtain rfl := Option.some.inj (Option.some.inj (typed.symm.trans typed'))
      obtain ⟨inside, -⟩ := List.getElem?_eq_some_iff.1 typed
      have := h.length
      exact .inr ⟨w, Array.getElem?_setIfInBounds_self_of_lt (by omega), resolves⟩
    · exact .inl (other same)
  · apply other
    rintro rfl
    rw [typed] at untyped
    cases untyped

/-- **A block that closes** when none of its slots is without a target. -/
theorem close {b : Block} (h : TableTyped jumps start (b :: blocks) t)
    (done : ∀ {slot held}, Owed jumps start t (b.slot - start) b.kind slot → t.Slot slot held →
      ∃ w, jumps[start + slot]? = some w ∧ t.Resolves w held) :
    TableTyped jumps start blocks t := by
  refine ⟨h.length, fun typed => ?_, h.header, h.nested.2.2.2⟩
  rcases h.slot typed with resolved | ⟨b', member, owed⟩
  · exact .inl resolved
  · rcases List.mem_cons.1 member with rfl | member
    · exact .inl (done owed typed)
    · exact .inr ⟨b', member, owed⟩

/-- **A block that is opened** with slots that have their targets or are its own to give one. -/
theorem extend {t' : Typing} {kind : BlockKind} (h : TableTyped jumps start blocks t)
    (news : List Word) (more : List (Option (List Nat))) (longer : t.Extends t')
    (slots : t'.slots = t.slots ++ more)
    (many : news.length = more.length)
    (fresh : ∀ {k held}, more[k]? = some (some held) →
      (∃ w, news[k]? = some w ∧ t'.Resolves w held) ∨
        Owed (jumps ++ news.toArray) start t' (jumps.size - start) kind (jumps.size - start + k))
    (headers : ∀ {slot range}, t'.Header slot range → t.Header slot range ∨
      slot = jumps.size - start ∧ more[0]? = some none ∧ more[1]? = some none ∧
        range.min ≤ range.max ∧ news[0]? = some range.min ∧ news[1]? = some range.max)
    (shape : t'.HasSlots (jumps.size - start) (places start blocks) kind) :
    TableTyped (jumps ++ news.toArray) start (⟨kind, jumps.size⟩ :: blocks) t' := by
  have length := h.length
  have old {k : Nat} (inside : k < t.slots.length) :
      (jumps ++ news.toArray)[start + k]? = jumps[start + k]? :=
    Array.getElem?_append_left (by omega)
  have new (k : Nat) : (jumps ++ news.toArray)[start + (jumps.size - start + k)]? = news[k]? := by
    rw [Array.getElem?_append_right (by omega), List.getElem?_toArray]
    congr 1
    omega
  have newSlot (k : Nat) : t'.slots[jumps.size - start + k]? = more[k]? := by
    rw [slots, List.getElem?_append_right (by omega)]
    congr 1
    omega
  have lt_of_some {k : Nat} {a : Option (List Nat)} (slotted : t.slots[k]? = some a) :
      k < t.slots.length := (List.getElem?_eq_some_iff.1 slotted).1
  refine ⟨?_, fun {slot held} typed => ?_, fun {slot range} header => ?_, ?_⟩
  · rw [slots, List.length_append, Array.size_append, @List.size_toArray _ news]
    omega
  · by_cases inside : slot < t.slots.length
    · -- A slot from before: other blocks owe what they owed.
      have typed' : t.Slot slot held := by
        rw [Typing.Slot, slots, List.getElem?_append_left inside] at typed
        exact typed
      rcases h.slot typed' with ⟨w, word, resolves⟩ | ⟨b, member, owed⟩
      · exact .inl ⟨w, (old inside).trans word, resolves.mono longer⟩
      · refine .inr ⟨b, List.mem_cons_of_mem _ member, ?_⟩
        exact owed.mono longer (old inside) fun _ case _ _ _ => old (by omega)
    · -- A slot of the block that is opened.
      obtain ⟨k, rfl⟩ : ∃ k, slot = jumps.size - start + k := ⟨slot - t.slots.length, by omega⟩
      rw [Typing.Slot, newSlot] at typed
      rcases fresh typed with ⟨w, word, resolves⟩ | owed
      · exact .inl ⟨w, (new k).trans word, resolves⟩
      · exact .inr ⟨_, List.mem_cons_self, owed⟩
  · rcases headers header with known | ⟨rfl, first, second, order, min, max⟩
    · obtain ⟨first, second, order, min, max⟩ := h.header known
      have one := lt_of_some first
      have two := lt_of_some second
      rw [slots, List.getElem?_append_left one, List.getElem?_append_left two, old one, old two]
      exact ⟨first, second, order, min, max⟩
    · have zero : jumps.size - start = jumps.size - start + 0 := rfl
      exact ⟨(newSlot 0).trans first, (newSlot 1).trans second, order, (new 0).trans min,
        (new 1).trans max⟩
  · -- The block stands behind all slots from before, so behind the headers of switches too.
    have begun : start ≤ jumps.size := by omega
    refine ⟨begun, shape, fun b member isSwitch => ?_, h.nested.mono longer⟩
    obtain ⟨begun, outer, slotsOf⟩ := h.nested.of_mem member
    rw [isSwitch] at slotsOf
    obtain ⟨range, -, -, behind, -⟩ := slotsOf
    have := lt_of_some behind
    show b.slot + 4 ≤ jumps.size
    omega

theorem length_eq (h : TableTyped jumps start blocks t) :
    t.slots.length = jumps.size - start := by
  have := h.length
  omega

/-- The first words behind a jump table. -/
theorem getElem?_append (h : TableTyped jumps start blocks t) (news : List Word) (k : Nat) :
    (jumps ++ news.toArray)[start + (jumps.size - start + k)]? = news[k]? := by
  have := h.length
  rw [Array.getElem?_append_right (by omega), List.getElem?_toArray]
  congr 1
  omega

theorem openIf (h : TableTyped jumps start blocks t) :
    TableTyped (jumps ++ #[-1, 0]) start (⟨.ifBlock, jumps.size⟩ :: blocks)
      (t.addSlots (ifSlots (jumps.size - start) (places start blocks))) := by
  refine h.extend [-1, 0] _ (t.addSlots_extends _) rfl rfl (fun {k held} typed => ?_) .inl
    ⟨Typing.slot_addSlots h.length_eq (k := 0) rfl, Typing.slot_addSlots h.length_eq (k := 1) rfl⟩
  right
  match k with
  | 0 => exact .test (h.getElem?_append [-1, 0] 0)
  | 1 => exact .endIf
  | k + 2 => cases typed

theorem openWhile (h : TableTyped jumps start blocks t) {w : Word}
    (test : t.Resolves w (places start blocks)) :
    TableTyped (jumps ++ #[w, 0]) start (⟨.whileBlock, jumps.size⟩ :: blocks)
      (t.addSlots (whileSlots (places start blocks))) := by
  refine h.extend [w, 0] _ (t.addSlots_extends _) rfl rfl (fun {k held} typed => ?_) .inl
    ⟨Typing.slot_addSlots h.length_eq (k := 0) rfl, Typing.slot_addSlots h.length_eq (k := 1) rfl⟩
  match k with
  | 0 =>
    obtain rfl := Option.some.inj (Option.some.inj typed)
    exact .inl ⟨w, rfl, test.mono (t.addSlots_extends _)⟩
  | 1 => exact .inr .loop
  | k + 2 => cases typed

theorem openSwitch (h : TableTyped jumps start blocks t) {range : LabelRange}
    (order : range.min ≤ range.max) :
    TableTyped
      (jumps ++ ([range.min, range.max, -1, 0] ++ List.replicate range.size (-1)).toArray) start
      (⟨.switchBlock, jumps.size⟩ :: blocks)
      ((t.addSlots (switchSlots (jumps.size - start) (places start blocks) range)).addHeader
        (jumps.size - start) range) := by
  have longer : t.Extends ((t.addSlots (switchSlots (jumps.size - start) (places start blocks)
      range)).addHeader (jumps.size - start) range) :=
    (t.addSlots_extends _).trans (Typing.addHeader_extends ..)
  have header : ((t.addSlots (switchSlots (jumps.size - start) (places start blocks)
      range)).addHeader (jumps.size - start) range).Header (jumps.size - start) range :=
    List.mem_cons_self
  have caseSlot {k : Nat} (inside : k < range.size) :
      (switchSlots (jumps.size - start) (places start blocks) range)[4 + k]? =
        some (some ((jumps.size - start) :: places start blocks)) := by
    rw [switchSlots, List.getElem?_append_right (by simp), List.getElem?_replicate]
    simpa using inside
  refine h.extend _ (switchSlots (jumps.size - start) (places start blocks) range) longer rfl ?_
    (fun {k held} typed => ?_) (fun {slot range'} known => ?_)
    ⟨range, header, Typing.slot_addSlots h.length_eq (k := 2) rfl,
      Typing.slot_addSlots h.length_eq (k := 3) rfl, fun k inside => ?_⟩
  · rw [switchSlots, List.length_append, List.length_append, List.length_replicate,
      List.length_replicate]
    rfl
  · right
    match k with
    | 0 => cases typed
    | 1 => cases typed
    | 2 => exact .default (h.getElem?_append _ 2)
    | 3 => exact .endSwitch
    | k + 4 =>
      have inside : k < range.size := by
        rw [switchSlots, List.getElem?_append_right (by simp), List.getElem?_replicate] at typed
        by_cases inside : k < range.size
        · exact inside
        · simp [inside] at typed
      rw [show jumps.size - start + (k + 4) = jumps.size - start + 4 + k by omega]
      refine .case header inside ?_ (h.getElem?_append _ 2)
      rw [Nat.add_assoc, h.getElem?_append, List.getElem?_append_right (by simp),
        List.getElem?_replicate]
      simpa using inside
  · rcases List.mem_cons.1 known with same | known
    · obtain ⟨rfl, rfl⟩ := Prod.mk.inj same
      exact .inr ⟨rfl, rfl, rfl, order, rfl, rfl⟩
    · exact .inl known
  · have := Typing.slot_addSlots h.length_eq (caseSlot inside)
    rw [← Nat.add_assoc] at this
    exact this

/-! ### Blocks that close -/

variable {c : Compiler} {place : Nat}

theorem getElem?_of_jumpWord_ne {slot : Nat} (h : c.jumpWord slot ≠ -1) :
    c.program.jumpTable[slot]? ≠ some (-1) := by
  intro word
  apply h
  rw [Compiler.jumpWord, Array.getD_eq_getD_getElem?, word]
  rfl

/-- The slots of the innermost block. -/
theorem hasSlots {kind : BlockKind}
    (h : TableTyped jumps start (⟨kind, start + place⟩ :: blocks) t) :
    t.HasSlots place (places start blocks) kind := by
  have slots := h.nested.2.1
  rwa [show start + place - start = place by omega] at slots

/-- The innermost block stands behind the headers of the switches that it is in. -/
theorem header_le {kind : BlockKind} (h : TableTyped jumps start (⟨kind, start + place⟩ :: blocks) t)
    {b : Block} (member : b ∈ blocks) (isSwitch : b.kind = .switchBlock) :
    b.slot - start + 4 ≤ place := by
  have : b.slot + 4 ≤ start + place := h.nested.2.2.1 b member isSwitch
  have := (h.nested.2.2.2.of_mem member).1
  omega

/-- A slot of the innermost block that gets a target, unless it is that of a switch for other
values. -/
theorem setOwn {kind : BlockKind} (h : TableTyped jumps start (⟨kind, start + place⟩ :: blocks) t)
    {k : Nat} {held : List Nat} {w : Word} (typed : t.Slot (place + k) held)
    (resolves : t.Resolves w held) (other : kind = .switchBlock → k ≠ 2) :
    TableTyped (jumps.setIfInBounds (start + (place + k)) w) start
      (⟨kind, start + place⟩ :: blocks) t := by
  refine h.set typed resolves fun b member isSwitch => ?_
  rcases List.mem_cons.1 member with rfl | member
  · have := other isSwitch
    show start + place - start + 2 ≠ place + k
    omega
  · have := h.header_le member isSwitch
    omega

/-- A slot with a type has a word. -/
theorem lt_size (h : TableTyped jumps start blocks t) {slot : Nat} {held : List Nat}
    (typed : t.Slot slot held) : start + slot < jumps.size := by
  have := h.length
  obtain ⟨inside, -⟩ := List.getElem?_eq_some_iff.1 typed
  omega

theorem closeIf (h : TableTyped c.program.jumpTable start (⟨.ifBlock, start + place⟩ :: blocks) t)
    (behind : t.Resolves c.here (places start blocks))
    (closing : t.Resolves (c.here - 1) (place :: places start blocks)) :
    TableTyped (c.bound ⟨.ifBlock, start + place⟩ (.control .endIf)).program.jumpTable start blocks
      t := by
  obtain ⟨test, last⟩ := h.hasSlots
  have ended := h.setOwn last behind (absurd · (by decide))
  have endWord := Array.getElem?_setIfInBounds_self_of_lt (a := c.here) (h.lt_size last)
  rw [Compiler.bound]
  by_cases missing : (c.setSlot (start + place + 1) c.here).jumpWord (start + place) = -1
  · rw [if_pos missing]
    -- There was no `else`, so the test that fails leads to the end as well.
    have both := ended.setOwn (k := 0) test closing (absurd · (by decide))
    refine both.close fun {slot held} owed typed => ?_
    rw [show start + place - start = place by omega] at owed
    cases owed with
    | test =>
      obtain rfl := Option.some.inj (Option.some.inj (test.symm.trans typed))
      exact ⟨_, Array.getElem?_setIfInBounds_self_of_lt (ended.lt_size test), closing⟩
    | endIf =>
      obtain rfl := Option.some.inj (Option.some.inj (last.symm.trans typed))
      refine ⟨_, ?_, behind⟩
      exact (Array.getElem?_setIfInBounds_ne (by omega)).trans endWord
  · rw [if_neg missing]
    refine ended.close fun {slot held} owed typed => ?_
    rw [show start + place - start = place by omega] at owed
    cases owed with
    | test word => exact absurd word (getElem?_of_jumpWord_ne missing)
    | endIf =>
      obtain rfl := Option.some.inj (Option.some.inj (last.symm.trans typed))
      exact ⟨_, endWord, behind⟩

theorem closeWhile
    (h : TableTyped c.program.jumpTable start (⟨.whileBlock, start + place⟩ :: blocks) t)
    (behind : t.Resolves c.here (places start blocks)) :
    TableTyped (c.bound ⟨.whileBlock, start + place⟩ (.control .loop)).program.jumpTable start blocks
      t := by
  obtain ⟨test, last⟩ := h.hasSlots
  refine (h.setOwn last behind nofun).close fun {slot held} owed typed => ?_
  rw [show start + place - start = place by omega] at owed
  cases owed with
  | loop =>
    obtain rfl := Option.some.inj (Option.some.inj (last.symm.trans typed))
    exact ⟨_, Array.getElem?_setIfInBounds_self_of_lt (h.lt_size last), behind⟩

/-- The range in the header of a switch is that of its labels. -/
theorem labelRange_eq (h : TableTyped c.program.jumpTable start blocks t) {slot : Nat}
    {range : LabelRange} (header : t.Header slot range) : c.labelRange (start + slot) = range := by
  obtain ⟨-, -, -, min, max⟩ := h.header header
  rw [← Nat.add_assoc] at max
  rw [Compiler.labelRange, Compiler.jumpWord, Compiler.jumpWord, Array.getD_eq_getD_getElem?, min,
    Array.getD_eq_getD_getElem?, max]
  rfl

/-- **The cases of a switch that are filled** all have targets, and the slot for other values has
one. -/
theorem fill (h : TableTyped c.program.jumpTable start (⟨.switchBlock, start + place⟩ :: blocks) t)
    {w : Word} (resolves : t.Resolves w (place :: places start blocks)) :
    TableTyped ((c.setSlot (start + place + 2) w).filled (start + place) w).program.jumpTable start
        (⟨.switchBlock, start + place⟩ :: blocks) t ∧
      ((c.setSlot (start + place + 2) w).filled (start + place) w).program.jumpTable[
        start + (place + 2)]? = some w ∧
      ((c.setSlot (start + place + 2) w).filled (start + place) w).program.jumpTable[
        start + (place + 3)]? = c.program.jumpTable[start + (place + 3)]? := by
  obtain ⟨range, header, other, behind, cases⟩ := h.hasSlots
  -- the header is in front of the slots that change
  have rangeEq : (c.setSlot (start + place + 2) w).labelRange (start + place) = range := by
    obtain ⟨-, -, -, min, max⟩ := h.header header
    rw [Compiler.labelRange, Compiler.jumpWord, Compiler.jumpWord, Compiler.setSlot,
      Compiler.changeJumps, Array.getD_eq_getD_getElem?, Array.getD_eq_getD_getElem?,
      Array.getElem?_setIfInBounds_ne (by omega), Array.getElem?_setIfInBounds_ne (by omega), min,
      Nat.add_assoc, max]
    rfl
  obtain ⟨jumps, table, word⟩ : ∃ jumps : Array Word,
      ((c.setSlot (start + place + 2) w).filled (start + place) w).program.jumpTable = jumps ∧
        ∀ k, jumps[start + k]? =
          if start + place + 4 ≤ start + k ∧ start + k < start + place + 4 + range.size then
            (c.program.jumpTable.setIfInBounds (start + place + 2) w)[start + k]?.map
              fun old => if old < 0 then w else old
          else (c.program.jumpTable.setIfInBounds (start + place + 2) w)[start + k]? := by
    refine ⟨_, rfl, fun k => ?_⟩
    rw [← rangeEq]
    exact Compiler.getElem?_foldl_modify ..
  have size : ((c.setSlot (start + place + 2) w).filled (start + place) w).program.jumpTable.size =
      c.program.jumpTable.size :=
    (Compiler.size_filled ..).trans (Compiler.size_setSlot ..)
  rw [table] at size ⊢
  have outside {k : Nat} (out : ¬ (place + 4 ≤ k ∧ k < place + 4 + range.size))
      (ne : k ≠ place + 2) : jumps[start + k]? = c.program.jumpTable[start + k]? :=
    (word k).trans ((if_neg (by omega)).trans (Array.getElem?_setIfInBounds_ne (by omega)))
  have otherWord := (word (place + 2)).trans ((if_neg (by omega)).trans
    (Array.getElem?_setIfInBounds_self_of_lt (a := w) (h.lt_size other)))
  have caseWord {k : Nat} (inside : k < range.size) : ∃ old,
      c.program.jumpTable[start + (place + 4 + k)]? = some old ∧
        jumps[start + (place + 4 + k)]? = some (if old < 0 then w else old) := by
    have lt := h.lt_size (cases k inside)
    refine ⟨_, Array.getElem?_eq_getElem lt, ?_⟩
    refine (word (place + 4 + k)).trans ((if_pos (by omega)).trans ?_)
    rw [Array.getElem?_setIfInBounds_ne (by omega), Array.getElem?_eq_getElem lt]
    rfl
  refine ⟨h.change size (fun {slot held} typed => ?_) (fun {slot} untyped => ?_)
    (fun b member isSwitch => ?_), otherWord, outside (by omega) (by omega)⟩
  · by_cases inside : place + 4 ≤ slot ∧ slot < place + 4 + range.size
    · -- A case: it is filled if it had no target, and stays as it is otherwise.
      obtain ⟨k, rfl⟩ : ∃ k, slot = place + 4 + k := ⟨slot - (place + 4), by omega⟩
      obtain ⟨old, before, after⟩ := caseWord (k := k) (by omega)
      obtain rfl := Option.some.inj (Option.some.inj ((cases k (by omega)).symm.trans typed))
      by_cases missing : old < 0
      · rw [if_pos missing] at after
        exact .inr ⟨w, after, resolves⟩
      · rw [if_neg missing] at after
        exact .inl (after.trans before.symm)
    · by_cases same : slot = place + 2
      · subst same
        obtain rfl := Option.some.inj (Option.some.inj (other.symm.trans typed))
        exact .inr ⟨w, otherWord, resolves⟩
      · exact .inl (outside inside same)
  · apply outside
    · intro inside
      have := cases (slot - (place + 4)) (by omega)
      rw [show place + 4 + (slot - (place + 4)) = slot by omega, Typing.Slot, untyped] at this
      cases this
    · rintro rfl
      rw [Typing.Slot, untyped] at other
      cases other
  · rcases List.mem_cons.1 member with rfl | member
    · -- In the switch itself no case is left without a target.
      right
      intro range' k header' inside missing
      dsimp only at header' missing
      rw [show start + place - start = place by omega] at header' missing
      obtain rfl : range = range' := (h.labelRange_eq header).symm.trans (h.labelRange_eq header')
      obtain ⟨old, -, after⟩ := caseWord inside
      rw [missing] at after
      have same := Option.some.inj after
      by_cases negative : old < 0
      · rw [if_pos negative] at same
        exact resolves.ne same.symm
      · rw [if_neg negative] at same
        exact negative (same ▸ by decide)
    · have := h.header_le member isSwitch
      exact .inl (outside (by omega) (by omega))

theorem closeSwitch
    (h : TableTyped c.program.jumpTable start (⟨.switchBlock, start + place⟩ :: blocks) t)
    (behind : t.Resolves c.here (places start blocks))
    (closing : t.Resolves (c.here - 1) (place :: places start blocks)) :
    TableTyped (c.bound ⟨.switchBlock, start + place⟩ (.control .endSwitch)).program.jumpTable start
      blocks t := by
  obtain ⟨range, header, other, last, cases⟩ := h.hasSlots
  have ended : TableTyped (c.setSlot (start + place + 3) c.here).program.jumpTable start
      (⟨.switchBlock, start + place⟩ :: blocks) t := h.setOwn last behind nofun
  have lastWord : (c.setSlot (start + place + 3) c.here).program.jumpTable[start + (place + 3)]? =
      some c.here := Array.getElem?_setIfInBounds_self_of_lt (h.lt_size last)
  rw [Compiler.bound]
  by_cases missing :
      (c.setSlot (start + place + 3) c.here).jumpWord (start + place + 2) = -1
  · rw [if_pos missing]
    -- There was no label for other values, so these and the cases left out lead to the end.
    obtain ⟨filled, otherWord, same⟩ := ended.fill closing
    refine filled.close fun {slot held} owed typed => ?_
    rw [show start + place - start = place by omega] at owed
    cases owed with
    | default word =>
      obtain rfl := Option.some.inj (Option.some.inj (other.symm.trans typed))
      exact ⟨_, otherWord, closing⟩
    | endSwitch =>
      obtain rfl := Option.some.inj (Option.some.inj (last.symm.trans typed))
      exact ⟨_, same.trans lastWord, behind⟩
    | case _ _ _ noDefault =>
      exact absurd (Option.some.inj (otherWord.symm.trans noDefault)) closing.ne
  · rw [if_neg missing]
    refine ended.close fun {slot held} owed typed => ?_
    rw [show start + place - start = place by omega] at owed
    cases owed with
    | default word => exact absurd word (getElem?_of_jumpWord_ne missing)
    | endSwitch =>
      obtain rfl := Option.some.inj (Option.some.inj (last.symm.trans typed))
      exact ⟨_, lastWord, behind⟩
    | case _ _ _ noDefault => exact absurd noDefault (getElem?_of_jumpWord_ne missing)

end TableTyped

end StageScript
