import StageScript.Proofs.Compiler.Line

/-! # What a body leaves alone
While a body is compiled the program only grows: its code is added to, its jump table changes behind
the beginning of the body only, and no name gets another meaning.
* **`Compiler.Grows`** — one compiler is another one further on in the same body;
* **`Compiler.Stated.grows`**, **`Compiler.Grows.primed`** — this is what every line of a body does. -/

namespace StageScript

namespace Compiler

/-- The second compiler is the first one further on in the same body. -/
structure Grows (c c' : Compiler) : Prop where
  entry : c'.body.entry = c.body.entry
  aliases : c'.aliases = c.aliases
  globals : c'.globals = c.globals
  tags : c'.tags = c.tags
  mode : c'.mode = c.mode
  entries : c'.program.entries = c.program.entries
  functions : c'.program.functions = c.program.functions
  typeNames : c'.program.typeNames = c.program.typeNames
  code : ∃ more, c'.program.code = c.program.code ++ more
  jumps : ∀ k < c.body.entry.jump, c'.program.jumpTable[k]? = c.program.jumpTable[k]?

variable {c c' c'' : Compiler}

theorem Grows.refl (c : Compiler) : c.Grows c :=
  ⟨rfl, rfl, rfl, rfl, rfl, rfl, rfl, rfl, ⟨#[], Array.append_empty.symm⟩, fun _ _ => rfl⟩

theorem Grows.trans (h : c.Grows c') (h' : c'.Grows c'') : c.Grows c'' := by
  obtain ⟨more, code⟩ := h.code
  obtain ⟨more', code'⟩ := h'.code
  refine ⟨h'.entry.trans h.entry, h'.aliases.trans h.aliases, h'.globals.trans h.globals,
    h'.tags.trans h.tags, h'.mode.trans h.mode, h'.entries.trans h.entries, h'.functions.trans h.functions,
    h'.typeNames.trans h.typeNames, ⟨more ++ more', ?_⟩, fun k front => ?_⟩
  · rw [code', code, Array.append_assoc]
  · rw [h'.jumps k (h.entry ▸ front), h.jumps k front]

/-- Names mean the same further on. -/
theorem Grows.substitute_eq (h : c.Grows c') : c'.substitute = c.substitute := by
  funext o
  rw [substitute, substitute, h.aliases, h.globals, substituteFunction, substituteFunction,
    Program.functionIndex?, Program.functionIndex?, h.functions, substituteType, substituteType,
    Program.typeIndex?, Program.typeIndex?, h.typeNames]

theorem Grows.keepsNumerals (h : c.Grows c') (keeps : c.KeepsNumerals) : c'.KeepsNumerals := by
  intro n
  rw [h.substitute_eq]
  exact keeps n

/-! ## Effects -/

theorem Grows.addCode (h : c.Grows c') (words : List Word) : c.Grows (c'.addCode words) :=
  h.trans ⟨rfl, rfl, rfl, rfl, rfl, rfl, rfl, rfl, ⟨_, rfl⟩, fun _ _ => rfl⟩

theorem Grows.closed (h : c.Grows c') : c.Grows c'.closed :=
  h.trans ⟨rfl, rfl, rfl, rfl, rfl, rfl, rfl, rfl, ⟨#[], Array.append_empty.symm⟩, fun _ _ => rfl⟩

theorem Grows.addJumps (h : c.Grows c') (begun : c.body.entry.jump ≤ c'.program.jumpTable.size)
    (words : List Word) : c.Grows (c'.addJumps words) := by
  refine h.trans ⟨rfl, rfl, rfl, rfl, rfl, rfl, rfl, rfl, ⟨#[], Array.append_empty.symm⟩, fun k front => ?_⟩
  rw [h.entry] at front
  exact Array.getElem?_append_left (by omega)

theorem Grows.opened (h : c.Grows c') (begun : c.body.entry.jump ≤ c'.program.jumpTable.size)
    (kind : BlockKind) (words : List Word) : c.Grows (c'.opened kind words) :=
  (h.addJumps begun words).trans
    ⟨rfl, rfl, rfl, rfl, rfl, rfl, rfl, rfl, ⟨#[], Array.append_empty.symm⟩, fun _ _ => rfl⟩

theorem Grows.setSlot (h : c.Grows c') {slot : Nat} (inside : c.body.entry.jump ≤ slot) (w : Word) :
    c.Grows (c'.setSlot slot w) := by
  refine h.trans ⟨rfl, rfl, rfl, rfl, rfl, rfl, rfl, rfl, ⟨#[], Array.append_empty.symm⟩, fun k front => ?_⟩
  rw [h.entry] at front
  exact Array.getElem?_setIfInBounds_ne (by omega)

theorem Grows.filled (h : c.Grows c') {header : Nat} (inside : c.body.entry.jump ≤ header)
    (w : Word) : c.Grows (c'.filled header w) := by
  refine h.trans ⟨rfl, rfl, rfl, rfl, rfl, rfl, rfl, rfl, ⟨#[], Array.append_empty.symm⟩, fun k front => ?_⟩
  rw [h.entry] at front
  exact (getElem?_foldl_modify ..).trans (if_neg (by omega))

theorem Grows.bound (h : c.Grows c') {block : Block} (inside : c.body.entry.jump ≤ block.slot)
    (op : Opcode) : c.Grows (c'.bound block op) := by
  have ended (k : Nat) (w : Word) : c.Grows (c'.setSlot (block.slot + k) w) :=
    h.setSlot (by omega) w
  unfold Compiler.bound
  split
  · exact h.setSlot inside _
  · dsimp only
    split
    · exact ((ended 1 _).setSlot inside _).closed
    · exact (ended 1 _).closed
  · dsimp only
    split
    · exact (((ended 3 _).setSlot (Nat.le_add_right_of_le inside) _).filled inside _).closed
    · exact (ended 3 _).closed
  · exact (ended 1 _).closed
  · exact h

/-! ## Lines -/

section

variable {text : Text} (begun : c.body.entry.jump ≤ c.program.jumpTable.size)
  (inside : ∀ block ∈ c.body.blocks, c.body.entry.jump ≤ block.slot)

include inside

theorem Called.grows (h : Called c text c') : c.Grows c' := by
  cases h with
  | plain => exact (Grows.refl c).addCode _
  | block _ _ _ _ innermost =>
    have first := inside _ (innermost ▸ List.mem_cons_self)
    exact ((Grows.refl c).addCode _).bound first _

theorem Labelled.grows (h : Labelled c text c') : c.Grows c' := by
  cases h with
  | case _ innermost =>
    have first := inside _ (innermost ▸ List.mem_cons_self)
    exact (Grows.refl c).setSlot (by omega) _
  | default _ _ innermost =>
    have first := inside _ (innermost ▸ List.mem_cons_self)
    exact ((Grows.refl c).setSlot (by omega) _).filled first _

include begun

/-- **A line of a body** only lets the program grow. -/
theorem Stated.grows {header? : Option Nat} (h : Stated c text header? c') : c.Grows c' := by
  cases h with
  | test => exact ((Grows.refl c).opened begun _ _).addCode _
  | switch =>
    have opened := (Grows.refl c).opened begun .switchBlock
      [LabelRange.start.min, LabelRange.start.max, -1, 0]
    have listed : c.Grows c.openedSwitch := opened.trans
      ⟨rfl, rfl, rfl, rfl, rfl, rfl, rfl, rfl, ⟨#[], Array.append_empty.symm⟩, fun _ _ => rfl⟩
    exact listed.addCode _
  | label _ _ label => exact label.grows inside
  | call _ _ _ _ call => exact call.grows inside

end

/-! ## Slots of open blocks -/

theorem size_addJumps (c : Compiler) (words : List Word) :
    (c.addJumps words).program.jumpTable.size = c.program.jumpTable.size + words.length := by
  rw [addJumps, Array.size_append, @List.size_toArray _ words]

/-- The blocks that are open behind an instruction were open in front of it. -/
theorem mem_of_bound {op : Opcode} {block b : Block} (h : b ∈ (c.bound block op).body.blocks) :
    b ∈ c.body.blocks := by
  unfold Compiler.bound at h
  split at h
  · exact h
  · refine List.mem_of_mem_tail ?_
    dsimp only at h
    split at h <;> exact h
  · refine List.mem_of_mem_tail ?_
    dsimp only at h
    split at h <;> exact h
  · exact List.mem_of_mem_tail h
  · exact h

/-- A line of a body does not shorten the jump table. -/
theorem Stated.size_le {text : Text} {header? : Option Nat} (h : Stated c text header? c') :
    c.program.jumpTable.size ≤ c'.program.jumpTable.size := by
  cases h with
  | test => exact Nat.le_trans (Nat.le_add_right ..) (Nat.le_of_eq (size_addJumps ..).symm)
  | switch => exact Nat.le_trans (Nat.le_add_right ..) (Nat.le_of_eq (size_addJumps ..).symm)
  | label _ _ label =>
    cases label with
    | case => exact Nat.le_of_eq (size_setSlot ..).symm
    | default => exact Nat.le_of_eq ((size_filled ..).trans (size_setSlot ..)).symm
  | call _ _ _ _ call =>
    cases call with
    | plain => exact Nat.le_refl _
    | block => exact Nat.le_of_eq (size_bound (c.addCode _) ..).symm

/-- A block that a line of a body opens has its slots at the end of the jump table. -/
theorem Stated.slot_eq {text : Text} {header? : Option Nat} (h : Stated c text header? c')
    {b : Block} (member : b ∈ c'.body.blocks) :
    b ∈ c.body.blocks ∨ b.slot = c.program.jumpTable.size := by
  cases h with
  | test => exact (List.mem_cons.1 member).symm.imp_right fun same => congrArg Block.slot same
  | switch => exact (List.mem_cons.1 member).symm.imp_right fun same => congrArg Block.slot same
  | label _ _ label => cases label <;> exact .inl member
  | call _ _ _ _ call =>
    cases call with
    | plain => exact .inl member
    | block => exact .inl (@mem_of_bound (c.addCode _) _ _ _ member)

/-! ## Looking ahead -/

section

variable (c : Compiler) (words : List Word) (header : Nat) (range : LabelRange)

theorem code_addJumps : (c.addJumps words).program.code = c.program.code := rfl

theorem body_addJumps : (c.addJumps words).body = c.body := rfl

theorem mode_addJumps : (c.addJumps words).mode = c.mode := rfl

theorem aliases_addJumps : (c.addJumps words).aliases = c.aliases := rfl

theorem code_ranged : (c.ranged header range).program.code = c.program.code := rfl

theorem body_ranged : (c.ranged header range).body = c.body := rfl

theorem mode_ranged : (c.ranged header range).mode = c.mode := rfl

theorem aliases_ranged : (c.ranged header range).aliases = c.aliases := rfl

end

theorem Grows.ranged (h : c.Grows c') {header : Nat} (inside : c.body.entry.jump ≤ header)
    (range : LabelRange) : c.Grows (c'.ranged header range) :=
  (h.setSlot inside _).setSlot (Nat.le_add_right_of_le inside) _

/-- **Looking ahead** only lets the program grow. -/
theorem Grows.primed (h : c.Grows c') {header : Nat}
    (begun : c.body.entry.jump ≤ c'.program.jumpTable.size) (inside : c.body.entry.jump ≤ header)
    (range : LabelRange) : c.Grows (c'.primed header range) := by
  refine ((h.ranged inside range).ranged inside range.settle).addJumps ?_ _
  rw [size_ranged, size_ranged]
  exact begun

theorem code_primed (c : Compiler) (header : Nat) (range : LabelRange) :
    (c.primed header range).program.code = c.program.code := by
  rw [primed, code_addJumps, code_ranged, code_ranged]

theorem body_primed (c : Compiler) (header : Nat) (range : LabelRange) :
    (c.primed header range).body = c.body := by
  rw [primed, body_addJumps, body_ranged, body_ranged]

theorem mode_primed (c : Compiler) (header : Nat) (range : LabelRange) :
    (c.primed header range).mode = c.mode := by
  rw [primed, mode_addJumps, mode_ranged, mode_ranged]

theorem aliases_primed (c : Compiler) (header : Nat) (range : LabelRange) :
    (c.primed header range).aliases = c.aliases := by
  rw [primed, aliases_addJumps, aliases_ranged, aliases_ranged]

/-- A switch whose labels have been looked up has its slots at the end of the jump table. -/
theorem size_primed (c : Compiler) (header : Nat) (range : LabelRange) :
    (c.primed header range).program.jumpTable.size =
      c.program.jumpTable.size + range.settle.size := by
  rw [primed, size_addJumps, size_ranged, size_ranged, List.length_replicate]

end Compiler

end StageScript
