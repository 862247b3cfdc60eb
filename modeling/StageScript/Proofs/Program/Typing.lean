import StageScript.Compiler.Switch
import StageScript.Proofs.Program.Reading

/-! # Bodies whose blocks fit together
A body of code is typed by the blocks that are open at each of its instructions and at the target of
each of its jump slots.
* **`Typing.Allows`** — what the typing has to say of an instruction for its blocks to fit;
* **`Program.Typed`** — a body all of whose instructions and slots fit a typing;
* **`Program.Typed.mono`** — additions to a program leave its bodies typed. -/

namespace StageScript

/-- Which blocks are open where in a body. A block is named by the place of its first slot among the
slots of the body, and offsets are counted from the body's beginning. -/
structure Typing where
  /-- The offsets at which instructions begin, with the blocks open there, innermost first. -/
  places : List (Nat × List Nat) := []
  /-- For each slot that holds a target, the blocks open at that target. -/
  slots : List (Option (List Nat)) := []
  /-- The headers of switches, with the ranges of their labels. -/
  headers : List (Nat × LabelRange) := []

namespace Typing

/-- The blocks are open at the offset. -/
def At (t : Typing) (offset : Nat) (blocks : List Nat) : Prop := (offset, blocks) ∈ t.places

/-- The blocks are open at the target of the slot. -/
def Slot (t : Typing) (slot : Nat) (blocks : List Nat) : Prop := t.slots[slot]? = some (some blocks)

/-- A switch has its header at the slot. -/
def Header (t : Typing) (slot : Nat) (range : LabelRange) : Prop := (slot, range) ∈ t.headers

/-- What a typing has to say of an instruction where some blocks are open, `next` being the offset
behind it, in a body that may return to a caller or may not. -/
def Allows (t : Typing) (returns : Bool) (next : Nat) (blocks : List Nat) :
    Opcode → List Argument → Prop
  | .ifTest _, arguments => ∃ slot rest, arguments = .integer (Word.ofNat slot) :: rest ∧
      slot < jumpCapacity ∧ t.At next (slot :: blocks) ∧ t.Slot slot (slot :: blocks)
  | .whileTest _, arguments => ∃ slot rest, arguments = .integer (Word.ofNat slot) :: rest ∧
      slot < jumpCapacity ∧ t.At next (slot :: blocks) ∧ t.Slot (slot + 1) blocks
  | .control .switch, arguments => ∃ slot rest range,
      arguments = .integer (Word.ofNat slot) :: rest ∧ slot < jumpCapacity ∧ t.Header slot range ∧
        t.Slot (slot + 2) (slot :: blocks) ∧
        ∀ k < range.size, t.Slot (slot + 4 + k) (slot :: blocks)
  | .control .elseBranch, _ => ∃ slot outer, blocks = slot :: outer ∧ t.Slot (slot + 1) outer
  | .control .endIf, _ => ∃ slot outer, blocks = slot :: outer ∧ t.At next outer
  | .control .loop, _ => ∃ slot outer, blocks = slot :: outer ∧ t.Slot slot outer
  | .control .leave, _ => ∃ slot outer, blocks = slot :: outer ∧ t.Slot (slot + 3) outer
  | .control .endSwitch, _ => ∃ slot outer, blocks = slot :: outer ∧ t.At next outer
  | .control .callFunction, _ => t.At next blocks
  | .control .endFunction, _ => returns = true ∧ blocks = []
  | .control .stop, _ => True
  | _, _ => t.At next blocks

/-- A typing that says all that another one says. -/
structure Extends (t t' : Typing) : Prop where
  at_ : ∀ {offset blocks}, t.At offset blocks → t'.At offset blocks
  slot : ∀ {slot blocks}, t.Slot slot blocks → t'.Slot slot blocks
  header : ∀ {slot range}, t.Header slot range → t'.Header slot range

/-- What a typing says of an instruction, every longer one says too. -/
theorem Allows.mono {t t' : Typing} {returns : Bool} {next : Nat} {blocks : List Nat} {op : Opcode}
    {arguments : List Argument} (longer : t.Extends t')
    (h : t.Allows returns next blocks op arguments) :
    t'.Allows returns next blocks op arguments := by
  cases op with
  | ifTest _ =>
    obtain ⟨slot, rest, shape, small, behind, target⟩ := h
    exact ⟨slot, rest, shape, small, longer.at_ behind, longer.slot target⟩
  | whileTest _ =>
    obtain ⟨slot, rest, shape, small, behind, target⟩ := h
    exact ⟨slot, rest, shape, small, longer.at_ behind, longer.slot target⟩
  | control op =>
    cases op with
    | stop => trivial
    | elseBranch =>
      obtain ⟨slot, outer, shape, target⟩ := h
      exact ⟨slot, outer, shape, longer.slot target⟩
    | endIf =>
      obtain ⟨slot, outer, shape, behind⟩ := h
      exact ⟨slot, outer, shape, longer.at_ behind⟩
    | loop =>
      obtain ⟨slot, outer, shape, target⟩ := h
      exact ⟨slot, outer, shape, longer.slot target⟩
    | switch =>
      obtain ⟨slot, rest, range, shape, small, header, other, cases⟩ := h
      exact ⟨slot, rest, range, shape, small, longer.header header, longer.slot other,
        fun k inside => longer.slot (cases k inside)⟩
    | leave =>
      obtain ⟨slot, outer, shape, target⟩ := h
      exact ⟨slot, outer, shape, longer.slot target⟩
    | endSwitch =>
      obtain ⟨slot, outer, shape, behind⟩ := h
      exact ⟨slot, outer, shape, longer.at_ behind⟩
    | callFunction => exact longer.at_ h
    | endFunction => exact h
  | _ => exact longer.at_ h

/-! ## Longer typings -/

/-- A typing with an offset more. -/
def addPlace (t : Typing) (offset : Nat) (blocks : List Nat) : Typing :=
  { t with places := (offset, blocks) :: t.places }

/-- A typing with more slots. -/
def addSlots (t : Typing) (slots : List (Option (List Nat))) : Typing :=
  { t with slots := t.slots ++ slots }

/-- A typing with the header of a switch more. -/
def addHeader (t : Typing) (slot : Nat) (range : LabelRange) : Typing :=
  { t with headers := (slot, range) :: t.headers }

theorem addPlace_extends (t : Typing) (offset : Nat) (blocks : List Nat) :
    t.Extends (t.addPlace offset blocks) :=
  ⟨List.mem_cons_of_mem _, id, id⟩

theorem addSlots_extends (t : Typing) (slots : List (Option (List Nat))) :
    t.Extends (t.addSlots slots) := by
  refine ⟨id, fun {slot blocks} h => ?_, id⟩
  obtain ⟨inside, -⟩ := List.getElem?_eq_some_iff.1 h
  exact (List.getElem?_append_left inside).trans h

theorem slot_addSlots {t : Typing} {slots : List (Option (List Nat))} {n k : Nat} {blocks : List Nat}
    (length : t.slots.length = n) (h : slots[k]? = some (some blocks)) :
    (t.addSlots slots).Slot (n + k) blocks := by
  subst length
  rw [Slot, addSlots, List.getElem?_append_right (Nat.le_add_right ..), Nat.add_sub_cancel_left]
  exact h

theorem addHeader_extends (t : Typing) (slot : Nat) (range : LabelRange) :
    t.Extends (t.addHeader slot range) :=
  ⟨id, id, List.mem_cons_of_mem _⟩

theorem Extends.refl (t : Typing) : t.Extends t := ⟨id, id, id⟩

theorem Extends.trans {t t' t'' : Typing} (h : t.Extends t') (h' : t'.Extends t'') : t.Extends t'' :=
  ⟨h'.at_ ∘ h.at_, h'.slot ∘ h.slot, h'.header ∘ h.header⟩

end Typing

namespace Program

/-- **A body whose blocks fit together**: every instruction at which the typing says that blocks are
open can be read and is allowed there, and every slot of a target holds an offset at which the blocks
that it has to have are open. -/
structure Typed (p : Program) (entry : EntryPoint) (returns : Bool) (t : Typing) : Prop where
  start : t.At 0 []
  small : ∀ {offset blocks}, t.At offset blocks → ∀ slot ∈ blocks, slot < jumpCapacity
  instruction : ∀ {offset blocks}, t.At offset blocks → ∃ op arguments next,
    Instruction.Stands p.code (entry.code + offset) op arguments (entry.code + next) ∧
      t.Allows returns next blocks op arguments
  slot : ∀ {slot blocks}, t.Slot slot blocks → ∃ target, target ≤ codeCapacity ∧
    p.jumpTable[entry.jump + slot]? = some (Word.ofNat target) ∧ t.At target blocks
  header : ∀ {slot range}, t.Header slot range → slot + 1 < t.slots.length ∧
    range.min ≤ range.max ∧ p.jumpTable[entry.jump + slot]? = some range.min ∧
      p.jumpTable[entry.jump + (slot + 1)]? = some range.max

/-- **Additions to a program leave its bodies typed**, as long as they keep the slots of the body. -/
theorem Typed.mono {p p' : Program} {entry : EntryPoint} {returns : Bool} {t : Typing}
    (h : p.Typed entry returns t) (code : ∃ more, p'.code = p.code ++ more)
    (jumps : ∀ k < entry.jump + t.slots.length, p'.jumpTable[k]? = p.jumpTable[k]?) :
    p'.Typed entry returns t := by
  obtain ⟨more, code⟩ := code
  refine ⟨h.start, h.small, fun at_ => ?_, fun {slot blocks} typed => ?_, fun header => ?_⟩
  · obtain ⟨op, arguments, next, stands, allows⟩ := h.instruction at_
    exact ⟨op, arguments, next, code ▸ stands.mono more, allows⟩
  · obtain ⟨target, small, word, at_⟩ := h.slot typed
    obtain ⟨inside, -⟩ := List.getElem?_eq_some_iff.1 typed
    exact ⟨target, small, (jumps _ (by omega)).trans word, at_⟩
  · obtain ⟨inside, order, min, max⟩ := h.header header
    exact ⟨inside, order, (jumps _ (by omega)).trans min, (jumps _ (by omega)).trans max⟩

end Program

end StageScript
