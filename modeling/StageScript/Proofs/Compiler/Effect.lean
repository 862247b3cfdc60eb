import StageScript.Compiler.File
import StageScript.Proofs.Stepwise

/-! # What a successful step of compilation did
Steps of compilation fail without undoing what they did. Where a step succeeds, what it did to the
compiler is a plain function of it.
* `Compiler.addCode`, `Compiler.addJumps` and `Compiler.changeJumps` are those functions;
* **`Compiler.emit_eq_ok`**, **`Compiler.reserve_eq_ok`** — words that were added are all there, and
  the program still fits. -/

namespace StageScript

namespace Compiler

open Stepwise

variable {c c' : Compiler}

/-! ## Additions -/

/-- A compiler with more words in the code. -/
def addCode (c : Compiler) (words : List Word) : Compiler :=
  { c with program := { c.program with code := c.program.code ++ words.toArray } }

/-- A compiler with more words in the jump table. -/
def addJumps (c : Compiler) (words : List Word) : Compiler :=
  { c with program := { c.program with jumpTable := c.program.jumpTable ++ words.toArray } }

/-- A compiler whose jump table is changed. -/
def changeJumps (c : Compiler) (change : Array Word → Array Word) : Compiler :=
  { c with program := { c.program with jumpTable := change c.program.jumpTable } }

/-- Whether the code and the jump table are no greater than they may be. -/
structure Fits (c : Compiler) : Prop where
  code : c.program.code.size ≤ codeCapacity
  jumps : c.program.jumpTable.size ≤ jumpCapacity

theorem addCode_nil (c : Compiler) : c.addCode [] = c := by
  simp [addCode]

theorem addCode_addCode (c : Compiler) (words more : List Word) :
    (c.addCode words).addCode more = c.addCode (words ++ more) := by
  simp [addCode]

theorem addJumps_nil (c : Compiler) : c.addJumps [] = c := by
  simp [addJumps]

theorem addJumps_addJumps (c : Compiler) (words more : List Word) :
    (c.addJumps words).addJumps more = c.addJumps (words ++ more) := by
  simp [addJumps]

theorem pushCode_of_room {w : Word} (room : c.program.code.size < codeCapacity) :
    discard (edit (Program.pushCode w)) c = (.ok (), c.addCode [w]) := by
  rw [discard_apply, edit, Program.pushCode, if_pos room, addCode, ← Array.push_eq_append]
  rfl

theorem pushJump_of_room {w : Word} (room : c.program.jumpTable.size < jumpCapacity) :
    discard (edit (Program.pushJump w)) c = (.ok (), c.addJumps [w]) := by
  rw [discard_apply, edit, Program.pushJump, if_pos room, addJumps, ← Array.push_eq_append]
  rfl

theorem pushCode_eq_ok {w : Word} (h : discard (edit (Program.pushCode w)) c = (.ok (), c')) :
    c' = c.addCode [w] ∧ c.program.code.size < codeCapacity := by
  rw [discard_apply, edit, Program.pushCode] at h
  by_cases room : c.program.code.size < codeCapacity
  · rw [if_pos room] at h
    obtain ⟨-, rfl⟩ := Prod.mk.inj h
    refine ⟨?_, room⟩
    simp [addCode]
  · rw [if_neg room] at h
    cases (Prod.mk.inj h).1

theorem pushJump_eq_ok {w : Word} (h : discard (edit (Program.pushJump w)) c = (.ok (), c')) :
    c' = c.addJumps [w] ∧ c.program.jumpTable.size < jumpCapacity := by
  rw [discard_apply, edit, Program.pushJump] at h
  by_cases room : c.program.jumpTable.size < jumpCapacity
  · rw [if_pos room] at h
    obtain ⟨-, rfl⟩ := Prod.mk.inj h
    refine ⟨?_, room⟩
    simp [addJumps]
  · rw [if_neg room] at h
    cases (Prod.mk.inj h).1

/-- **Words that were added to the code** are all there. -/
theorem emit_eq_ok {words : List Word} (h : emit words c = (.ok (), c')) :
    c' = c.addCode words ∧ (c.Fits → c'.Fits) := by
  induction words generalizing c with
  | nil =>
    obtain ⟨-, rfl⟩ := Prod.mk.inj h
    exact ⟨(addCode_nil c).symm, id⟩
  | cons w words ih =>
    obtain ⟨⟨⟩, c₁, first, rest⟩ := exists_of_bind_eq_ok h
    obtain ⟨rfl, room⟩ := pushCode_eq_ok first
    obtain ⟨rfl, fits⟩ := ih rest
    refine ⟨addCode_addCode c [w] words, fun whole => fits ⟨?_, whole.jumps⟩⟩
    rw [addCode, Array.size_append]
    exact room

/-- Words are added to the code as far as there is room for them. -/
theorem emit_apply (words : List Word) (c : Compiler) :
    emit words c =
      if words.length ≤ codeCapacity - c.program.code.size then (.ok (), c.addCode words)
      else (.error (.exhausted .code),
        c.addCode (words.take (codeCapacity - c.program.code.size))) := by
  induction words generalizing c with
  | nil =>
    rw [List.length_nil, if_pos (Nat.zero_le _), addCode_nil]
    rfl
  | cons w words ih =>
    have size : (c.addCode [w]).program.code.size = c.program.code.size + 1 := by
      rw [addCode, Array.size_append]
      rfl
    have step : emit (w :: words) c =
        (do discard (edit (Program.pushCode w)); emit words : Emit Unit) c := rfl
    -- Words are pushed one by one, so those that have room are there when the next one has none.
    by_cases room : c.program.code.size < codeCapacity
    · have rest : codeCapacity - c.program.code.size =
          codeCapacity - (c.program.code.size + 1) + 1 := by omega
      rw [step, bind_apply, pushCode_of_room room]
      dsimp only
      rw [ih, size, addCode_addCode, addCode_addCode, List.singleton_append, List.singleton_append,
        List.length_cons, rest, List.take_succ_cons]
      simp only [Nat.add_le_add_iff_right]
    · have full : codeCapacity - c.program.code.size = 0 := by omega
      have first : discard (edit (Program.pushCode w)) c = (.error (.exhausted .code), c) := by
        rw [discard_apply, edit, Program.pushCode, if_neg room]
        rfl
      rw [step, bind_apply, first, full, List.length_cons, if_neg (Nat.not_succ_le_zero _),
        List.take_zero, addCode_nil]

/-- **Words that were added to the jump table** are all there. -/
theorem reserve_eq_ok {words : List Word} (h : reserve words c = (.ok (), c')) :
    c' = c.addJumps words ∧ (c.Fits → c'.Fits) := by
  induction words generalizing c with
  | nil =>
    obtain ⟨-, rfl⟩ := Prod.mk.inj h
    exact ⟨(addJumps_nil c).symm, id⟩
  | cons w words ih =>
    obtain ⟨⟨⟩, c₁, first, rest⟩ := exists_of_bind_eq_ok h
    obtain ⟨rfl, room⟩ := pushJump_eq_ok first
    obtain ⟨rfl, fits⟩ := ih rest
    refine ⟨addJumps_addJumps c [w] words, fun whole => fits ⟨whole.code, ?_⟩⟩
    rw [addJumps, Array.size_append]
    exact room

/-- Words are added to the jump table where there is room for them. -/
theorem reserve_of_room {words : List Word}
    (room : words.length ≤ jumpCapacity - c.program.jumpTable.size) :
    reserve words c = (.ok (), c.addJumps words) := by
  induction words generalizing c with
  | nil =>
    rw [addJumps_nil]
    rfl
  | cons w words ih =>
    rw [List.length_cons] at room
    have size : (c.addJumps [w]).program.jumpTable.size = c.program.jumpTable.size + 1 := by
      rw [addJumps, Array.size_append]
      rfl
    have rest := ih (c := c.addJumps [w]) (by omega)
    rw [addJumps_addJumps, List.singleton_append] at rest
    exact (bind_apply_of_ok (pushJump_of_room (by omega))).trans rest

/-- Where a word was added to the code there was room for it. -/
theorem emit_room {w : Word} {words : List Word} (h : emit (w :: words) c = (.ok (), c')) :
    c.program.code.size < codeCapacity :=
  have ⟨_, _, first, _⟩ := exists_of_bind_eq_ok h
  (pushCode_eq_ok first).2

/-- Where a word was added to the jump table there was room for it. -/
theorem reserve_room {w : Word} {words : List Word} (h : reserve (w :: words) c = (.ok (), c')) :
    c.program.jumpTable.size < jumpCapacity :=
  have ⟨_, _, first, _⟩ := exists_of_bind_eq_ok h
  (pushJump_eq_ok first).2

/-! ## Blocks -/

/-- A compiler with one word of the jump table changed. -/
def setSlot (c : Compiler) (slot : Nat) (w : Word) : Compiler :=
  c.changeJumps (·.setIfInBounds slot w)

/-- A compiler with a block more, whose slots are at the end of the jump table. -/
def opened (c : Compiler) (kind : BlockKind) (words : List Word) : Compiler :=
  { c.addJumps words with
    body := { c.body with blocks := ⟨kind, c.program.jumpTable.size⟩ :: c.body.blocks } }

/-- A compiler without its innermost block. -/
def closed (c : Compiler) : Compiler :=
  { c with body := { c.body with blocks := c.body.blocks.tail } }

/-- A compiler that goes on in another mode. -/
def withMode (c : Compiler) (mode : Mode) : Compiler := { c with mode }

@[simp] theorem modifyJumps_apply (change : Array Word → Array Word) (c : Compiler) :
    modifyJumps change c = (.ok (), c.changeJumps change) := rfl

@[simp] theorem setJump_apply (slot : Nat) (w : Word) (c : Compiler) :
    setJump slot w c = (.ok (), c.setSlot slot w) := rfl

@[simp] theorem closeBlock_apply (c : Compiler) : closeBlock c = (.ok (), c.closed) := rfl

theorem openBlock_eq_ok {kind : BlockKind} {words : List Word}
    (h : openBlock kind words c = (.ok (), c')) :
    c' = c.opened kind words ∧ (c.Fits → c'.Fits) := by
  rw [openBlock, bind_apply, get_apply] at h
  obtain ⟨⟨⟩, c₁, first, rest⟩ := exists_of_bind_eq_ok h
  obtain ⟨rfl, fits⟩ := reserve_eq_ok first
  obtain ⟨-, rfl⟩ := Prod.mk.inj rest
  exact ⟨rfl, fun whole => ⟨(fits whole).code, (fits whole).jumps⟩⟩

theorem openBlock_room {kind : BlockKind} {w : Word} {words : List Word}
    (h : openBlock kind (w :: words) c = (.ok (), c')) : c.program.jumpTable.size < jumpCapacity := by
  rw [openBlock, bind_apply, get_apply] at h
  obtain ⟨⟨⟩, c₁, first, -⟩ := exists_of_bind_eq_ok h
  exact reserve_room first

/-- The block that has to be innermost is. -/
theorem innermost_eq_ok {kind : BlockKind} {keyword : String} {block : Block}
    (h : innermost kind keyword c = (.ok block, c')) :
    c' = c ∧ block.kind = kind ∧ ∃ rest, c.body.blocks = block :: rest := by
  rw [innermost, bind_apply, get_apply] at h
  dsimp only at h
  cases blocks : c.body.blocks with
  | nil =>
    rw [blocks] at h
    cases (Prod.mk.inj h).1
  | cons top rest =>
    rw [blocks] at h
    dsimp only at h
    by_cases same : top.kind = kind
    · rw [if_pos same] at h
      obtain ⟨answer, rfl⟩ := Prod.mk.inj h
      obtain rfl := Except.ok.inj answer
      exact ⟨rfl, same, rest, rfl⟩
    · rw [if_neg same] at h
      cases (Prod.mk.inj h).1

/-! ## Cases -/

/-- A change of a run of words, one after the other, changes each of them. -/
theorem getElem?_foldl_modify (jumps : Array Word) (start count : Nat) (f : Word → Word) (i : Nat) :
    ((List.range count).foldl (fun jumps k => jumps.modify (start + k) f) jumps)[i]? =
      if start ≤ i ∧ i < start + count then jumps[i]?.map f else jumps[i]? := by
  induction count with
  | zero => rw [if_neg (by omega)]; rfl
  | succ count ih =>
    rw [List.range_succ, List.foldl_append, List.foldl_cons, List.foldl_nil, Array.getElem?_modify, ih]
    by_cases last : start + count = i
    · rw [if_pos last, if_neg (by omega), if_pos (by omega)]
    · rw [if_neg last]
      by_cases inside : start ≤ i ∧ i < start + count
      · rw [if_pos inside, if_pos (by omega)]
      · rw [if_neg inside, if_neg (by omega)]

theorem size_foldl_modify (jumps : Array Word) (start count : Nat) (f : Word → Word) :
    ((List.range count).foldl (fun jumps k => jumps.modify (start + k) f) jumps).size =
      jumps.size := by
  induction count with
  | zero => rfl
  | succ count ih =>
    rw [List.range_succ, List.foldl_append, List.foldl_cons, List.foldl_nil, Array.size_modify, ih]

/-- A compiler whose open cases of a switch have got a target. -/
def filled (c : Compiler) (header : Nat) (target : Word) : Compiler :=
  c.changeJumps fun jumps =>
    (List.range (c.labelRange header).size).foldl (fun jumps k =>
      jumps.modify (header + 4 + k) fun w => if w < 0 then target else w) jumps

@[simp] theorem code_setSlot (c : Compiler) (slot : Nat) (w : Word) :
    (c.setSlot slot w).program.code = c.program.code := rfl

@[simp] theorem body_setSlot (c : Compiler) (slot : Nat) (w : Word) :
    (c.setSlot slot w).body = c.body := rfl

@[simp] theorem code_filled (c : Compiler) (header : Nat) (target : Word) :
    (c.filled header target).program.code = c.program.code := rfl

@[simp] theorem body_filled (c : Compiler) (header : Nat) (target : Word) :
    (c.filled header target).body = c.body := rfl

@[simp] theorem fillCases_apply (header : Nat) (target : Word) (c : Compiler) :
    fillCases header target c = (.ok (), c.filled header target) := rfl

end Compiler

end StageScript
