import StageScript.Proofs.Compiler.Closure
import StageScript.Proofs.Compiler.Names

/-! # Jump slots in the call form
The lines that open a block name its first slot by a numeral, which goes through the names of the file
like any other operand.
* **`Between.knows`** — a line that compiles forgets no name;
* **`named_of_lines`** — so a numeral that is no name where the file ends is none at any line of it;
* **`compileFile_names_slots`** — the first operand of the instruction that opens a block is its first
  slot, unless the numeral of the slot is a name. -/

namespace StageScript

open Stepwise Compiler

variable {c c' : Compiler} {bs : List BlockRecord} {line : Line} {rest : List Line}

/-! ## Names of a file -/

/-- A line of a body forgets no name. -/
theorem Begun.knows {header? : Option Nat} (h : Begun c bs) (inside : Inside c line.text header? c') :
    c'.Knows c := by
  cases inside with
  | closes => exact ⟨List.Subset.refl _, rfl, fun f member => ⟨f, member, rfl⟩⟩
  | platform =>
    split
    · exact .refl c
    · exact ⟨List.Subset.refl _, rfl, fun f member => ⟨f, member, rfl⟩⟩
  | endsPlatform => exact .refl c
  | other _ _ _ stated => exact (stated.grows h.jump h.slots).knows

/-- Looking ahead forgets no name. -/
theorem Begun.knows_primed {header : Nat} (h : Begun c bs)
    (inside : Inside c line.text (some header) c') (range : LabelRange) :
    (c'.primed header range).Knows c := by
  cases inside with
  | other _ _ _ stated =>
    have grows := stated.grows h.jump h.slots
    have header_le : c.body.entry.jump ≤ header := by
      cases stated
      exact h.jump
    exact (grows.primed (Nat.le_trans h.jump stated.size_le) header_le range).knows

/-- **A line that compiles** forgets no name. -/
theorem Between.knows {type : Nat} (h : Between c bs)
    (compiled : compileLine type line rest c = (.ok (), c')) : c'.Knows c := by
  cases lined_of_compileLine compiled with
  | outside _ did => exact did.knows
  | skipped =>
    split
    · exact ⟨List.Subset.refl _, rfl, fun f member => ⟨f, member, rfl⟩⟩
    · exact .refl c
  | inside mode did => exact (h (by rw [mode]; decide)).knows did
  | primed mode did => exact (h (by rw [mode]; decide)).knows_primed did _

/-- **Lines that compile** forget no name. -/
theorem Between.knows_lines {type last : Nat} {lines : List Line} (h : Between c bs)
    (compiled : compileLines type last lines c = (.ok (), c')) : c'.Knows c := by
  induction lines generalizing c bs last with
  | nil =>
    obtain ⟨-, rfl⟩ := eq_of_compileLines_nil compiled
    exact .refl c'
  | cons line rest ih =>
    by_cases empty : line.text = []
    · rw [compileLines_of_empty empty] at compiled
      exact ih h compiled
    · obtain ⟨c₁, first, others⟩ := exists_of_compileLines empty compiled
      exact (ih (h.advances first).between others).trans (h.knows first)

/-! ## Numerals of slots -/

/-- The numeral of the first slot of a block has stood for itself, as far as it is no name of a
compiler. -/
def BlockRecord.Named (b : BlockRecord) (final : Compiler) : Prop :=
  final.Unnamed (Numeral.ofNat b.slot) → b.plain = true

variable {final : Compiler}

/-- What is said about a block changes neither its slot nor the numeral. -/
theorem named_of_onInnermost {change : BlockRecord → BlockRecord}
    (kept : ∀ b, (change b).slot = b.slot ∧ (change b).plain = b.plain)
    (named : ∀ b ∈ bs, b.Named final) : ∀ b ∈ onInnermost change bs, b.Named final := by
  induction bs with
  | nil => exact named
  | cons first earlier ih =>
    have behind := ih fun b member => named b (List.mem_cons_of_mem _ member)
    have front := named first List.mem_cons_self
    intro b member
    rw [onInnermost] at member
    split at member
    · rcases List.mem_cons.1 member with rfl | old
      · rw [BlockRecord.Named, (kept first).1, (kept first).2]
        exact front
      · exact named b (List.mem_cons_of_mem _ old)
    · rcases List.mem_cons.1 member with rfl | old
      · exact front
      · exact behind b old

theorem saying_kept (c : Compiler) (text : Text) (b : BlockRecord) :
    (c.saying text b).slot = b.slot ∧ (c.saying text b).plain = b.plain := by
  have past (op : Opcode) : (b.past op c.offset).slot = b.slot ∧
      (b.past op c.offset).plain = b.plain := by
    unfold BlockRecord.past
    split <;> exact ⟨rfl, rfl⟩
  rw [saying]
  cases Directive.caseLabel? text with
  | some label =>
    dsimp only
    cases labelValue c.aliases label <;> exact ⟨rfl, rfl⟩
  | none =>
    dsimp only
    split
    · exact ⟨rfl, rfl⟩
    · cases Opcode.lookup? (Call.split text).name with
      | some op => exact past op
      | none => exact ⟨rfl, rfl⟩

/-- The numeral of the next slot stands for itself where it is no name. -/
theorem namesSlot_of_unnamed (h : c.Unnamed (Numeral.ofNat c.slotNumber)) : c.NamesSlot := by
  rw [NamesSlot, meaning?, h.substitute_ofNat, Operand.argument?, Numeral.parse?_ofNat]

/-- **A line of a body** opens a block whose numeral stands for itself, or none. -/
theorem named_of_record (knows : final.Knows c) (named : ∀ b ∈ bs, b.Named final) :
    ∀ b ∈ c.record line rest bs, b.Named final := by
  -- the numeral of a block that the line opens is that of the next slot
  have opened {b : BlockRecord} (slot : b.slot = c.slotNumber) (plain : b.plain = c.NamesSlot) :
      b.Named final := by
    intro unnamed
    rw [slot] at unnamed
    have stands : c.NamesSlot := namesSlot_of_unnamed (knows.unnamed unnamed)
    exact plain.mpr stands
  unfold record
  split
  · exact named
  · split
    · exact List.forall_mem_cons.2 ⟨opened rfl (decide_eq_true_eq), named⟩
    · split
      · exact List.forall_mem_cons.2 ⟨opened rfl (decide_eq_true_eq), named⟩
      · exact named_of_onInnermost (saying_kept c _) named

/-- **The blocks of the bodies of lines that compile** are named by numerals that stand for themselves,
as far as they are no names where the lines end. -/
theorem named_of_lines {type last : Nat} {lines : List Line} (h : Between c bs)
    (compiled : compileLines type last lines c = (.ok (), c')) (named : ∀ b ∈ bs, b.Named c') :
    ∀ r ∈ bodies type c bs lines, ∀ b ∈ r.blocks, b.Named c' := by
  induction lines generalizing c bs last with
  | nil => exact List.forall_mem_nil _
  | cons line rest ih =>
    have knows := h.knows_lines compiled
    rw [bodies]
    by_cases empty : line.text = []
    · rw [compileLines_of_empty empty] at compiled
      rw [if_pos empty]
      exact ih h compiled named
    · obtain ⟨c₁, first, others⟩ := exists_of_compileLines empty compiled
      rw [if_neg empty, first]
      have told : (∀ r ∈ (c.told c₁ line rest bs).1, ∀ b ∈ r.blocks, b.Named c') ∧
          ∀ b ∈ (c.told c₁ line rest bs).2, b.Named c' := by
        unfold Compiler.told
        split
        · exact ⟨List.forall_mem_nil _, List.forall_mem_nil _⟩
        · exact ⟨List.forall_mem_nil _, named⟩
        · split
          · exact ⟨List.forall_mem_singleton.2 named, List.forall_mem_nil _⟩
          · exact ⟨List.forall_mem_nil _, named_of_record knows named⟩
      intro r member
      rcases List.mem_append.1 member with new | later
      · exact told.1 r new
      · exact ih (h.advances first).between others told.2 r later

/-! ## Files -/

/-- **Jump slots are safe from names that are no numerals.** In a file that compiles, the instruction
that opens a block takes the block's first slot, counted from the first one of the body, as its first
operand, unless an alias of the file, a global or a function has the numeral of that slot as its
name. -/
theorem compileFile_names_slots {path : String} {source : Text} {type : Nat}
    (compiled : compileFile path source type c = (.ok (), c')) :
    ∀ r ∈ c.fileBodies source type, ∃ is, r.Resolved c'.program is ∧
      ∀ b ∈ r.blocks, c'.Unnamed (Numeral.ofNat b.slot) →
        ∃ i ∈ is, i.offset = r.entry.code + b.opened ∧ i.opcode.opens? = some b.kind ∧
          ∃ more, i.arguments = .integer (Word.ofNat b.slot) :: more := by
  intro r member
  obtain ⟨is, stands⟩ := (stands_of_compileFile compiled).2 r member
  have resolved := stands.resolved
  refine ⟨is, resolved, fun b inside unnamed => ?_⟩
  have named : b.Named c' := named_of_lines (between_startFile c) (compileFile_eq_ok_iff.1 compiled).2
    (List.forall_mem_nil _) r member b inside
  obtain ⟨i, at_, offset, opens, slots⟩ := resolved.opening b inside
  exact ⟨i, at_, offset, opens, slots (named unnamed)⟩

theorem compileFile_names_slots_endless :
    ∃ c', compileFile "" endless 1 freshCompiler = (.ok (), c') ∧
      (freshCompiler.fileBodies endless 1).map (·.blocks.map (·.slot)) = [[0]] ∧
        c'.Unnamed (Numeral.ofNat 0) ∧
          ∀ r ∈ freshCompiler.fileBodies endless 1, ∃ is, r.Resolved c'.program is ∧
            ∀ b ∈ r.blocks, c'.Unnamed (Numeral.ofNat b.slot) →
              ∃ i ∈ is, i.offset = r.entry.code + b.opened ∧ i.opcode.opens? = some b.kind ∧
                ∃ more, i.arguments = .integer (Word.ofNat b.slot) :: more := by
  have succeeds : (compileFile "" endless 1 freshCompiler).1.toOption = some () := by decide +kernel
  have unnamed : (compileFile "" endless 1 freshCompiler).2.Unnamed (Numeral.ofNat 0) := by
    refine ⟨?_, ?_, ?_⟩ <;> decide +kernel
  exact ⟨_, Except.eq_of_toOption succeeds, by decide +kernel, unnamed,
    compileFile_names_slots (Except.eq_of_toOption succeeds)⟩

/-- A script with an alias for the numeral of the slot of its block. -/
def renumbered : Text := "#alias0:9\nsubObjectMain\nif1==1\nendif\nendsub".toList

/-- **A name that is a numeral may take the place of a jump slot.** -/
theorem not_all_slots : ¬ ∀ (source : Text) (type : Nat) (c c' : Compiler),
    compileFile "" source type c = (.ok (), c') →
      ∀ r ∈ c.fileBodies source type, ∀ b ∈ r.blocks, ∀ i next,
        Instruction.decode c'.program.code (r.entry.code + b.opened) = .ok (i, next) →
          ∃ more, i.arguments = .integer (Word.ofNat b.slot) :: more := by
  intro all
  have succeeds : (compileFile "" renumbered 1 freshCompiler).1.toOption = some () := by
    decide +kernel
  have bodies : freshCompiler.fileBodies renumbered 1 =
      [⟨⟨0, 0⟩, ⟨9, 2⟩, .control .stop, [⟨.ifBlock, 0, 0, false, ⟨0, 0⟩, [], some 7⟩]⟩] := by
    decide +kernel
  have read : Instruction.decode (compileFile "" renumbered 1 freshCompiler).2.program.code 0 =
      .ok (⟨0, .ifTest .equal, [.integer 9, .integer 1, .integer 1]⟩, 7) :=
    Except.eq_ok_of_toOption (by decide +kernel)
  have slots := all renumbered 1 freshCompiler _ (Except.eq_of_toOption succeeds)
  rw [bodies] at slots
  obtain ⟨more, same⟩ := slots _ List.mem_cons_self _ List.mem_cons_self _ _ read
  have nine : (9 : Word) = 0 := Argument.integer.inj (List.cons.inj same).1
  exact absurd nine (by decide)

end StageScript
