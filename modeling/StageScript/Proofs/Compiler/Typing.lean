import StageScript.Proofs.Program.Typing

/-! # Bodies under compilation
While a body is being compiled its code ends at the next instruction.
* **`CodeTyped`** — the instructions of a body up to its end fit a typing;
* **`CodeTyped.add`** — a further instruction that the typing allows keeps this up. -/

namespace StageScript

/-- The instructions of a body that begins at `start` and goes on to the end of the code, where the
blocks `here` are open. -/
structure CodeTyped (code : Array Word) (start : Nat) (returns : Bool) (t : Typing)
    (here : List Nat) : Prop where
  begun : start ≤ code.size
  first : t.At 0 []
  inside : ∀ {offset blocks}, t.At offset blocks → offset ≤ code.size - start
  last : t.At (code.size - start) here
  only : ∀ {blocks}, t.At (code.size - start) blocks → blocks = here
  small : ∀ {offset blocks}, t.At offset blocks → ∀ slot ∈ blocks, slot < jumpCapacity
  instruction : ∀ {offset blocks}, t.At offset blocks → offset < code.size - start →
    ∃ op arguments next, Instruction.Stands code (start + offset) op arguments (start + next) ∧
      t.Allows returns next blocks op arguments

namespace CodeTyped

variable {code : Array Word} {start : Nat} {returns : Bool} {t : Typing} {here : List Nat}

/-- A body without an instruction. -/
theorem empty (code : Array Word) (returns : Bool) :
    CodeTyped code code.size returns { places := [(0, [])] } [] := by
  have only {offset : Nat} {blocks : List Nat}
      (h : Typing.At { places := [(0, [])] } offset blocks) : offset = 0 ∧ blocks = [] :=
    Prod.mk.inj (List.mem_singleton.1 h)
  refine ⟨Nat.le_refl _, List.mem_cons_self, fun h => ?_, ?_, fun h => (only h).2, fun h => ?_,
    fun h lt => ?_⟩
  · rw [(only h).1]
    exact Nat.zero_le _
  · rw [Nat.sub_self]
    exact List.mem_cons_self
  · rw [(only h).2]
    exact List.forall_mem_nil _
  · rw [(only h).1, Nat.sub_self] at lt
    exact absurd lt (Nat.lt_irrefl 0)

/-- A longer typing that says nothing new about places. -/
theorem of_extends {t' : Typing} (h : CodeTyped code start returns t here) (longer : t.Extends t')
    (same : t'.places = t.places) : CodeTyped code start returns t' here := by
  have back {offset : Nat} {blocks : List Nat} (h : t'.At offset blocks) : t.At offset blocks := by
    rw [Typing.At, same] at h
    exact h
  refine ⟨h.begun, longer.at_ h.first, fun at_ => h.inside (back at_), longer.at_ h.last,
    fun at_ => h.only (back at_), fun at_ => h.small (back at_), fun at_ lt => ?_⟩
  obtain ⟨op, arguments, next, stands, allows⟩ := h.instruction (back at_) lt
  exact ⟨op, arguments, next, stands, allows.mono longer⟩

/-- **A further instruction** that the typing allows, with the blocks that are open behind it. -/
theorem add {op : Opcode} {arguments : List Argument} {behind : List Nat}
    (h : CodeTyped code start returns t here) (known : op ∈ Opcode.all)
    (many : arguments.length = op.arity) (readable : ∀ a ∈ arguments, a.Readable)
    (small : ∀ slot ∈ behind, slot < jumpCapacity)
    (allows : (t.addPlace (code.size - start + (Instruction.encode op arguments).length)
      behind).Allows returns (code.size - start + (Instruction.encode op arguments).length) here op
        arguments) :
    CodeTyped (code ++ (Instruction.encode op arguments).toArray) start returns
      (t.addPlace (code.size - start + (Instruction.encode op arguments).length) behind) behind := by
  have some : 0 < (Instruction.encode op arguments).length := Nat.succ_pos _
  have begun := h.begun
  have size : (code ++ (Instruction.encode op arguments).toArray).size - start =
      code.size - start + (Instruction.encode op arguments).length := by
    rw [Array.size_append, @List.size_toArray _ (Instruction.encode op arguments)]
    omega
  have longer := t.addPlace_extends
    (code.size - start + (Instruction.encode op arguments).length) behind
  have stands : Instruction.Stands (code ++ (Instruction.encode op arguments).toArray)
      (start + (code.size - start)) op arguments
      (start + (code.size - start + (Instruction.encode op arguments).length)) := by
    refine ⟨?_, known, many, readable, by omega⟩
    rw [show start + (code.size - start) = code.size by omega]
    exact Holds.of_append ..
  -- The only new place is the one behind the instruction; all others are in front of it.
  refine ⟨?_, longer.at_ h.first, ?_, ?_, ?_, ?_, ?_⟩
  · rw [Array.size_append]
    omega
  · intro offset blocks at_
    rw [size]
    rcases List.mem_cons.1 at_ with new | old
    · obtain ⟨rfl, rfl⟩ := Prod.mk.inj new
      exact Nat.le_refl _
    · have := h.inside old
      omega
  · rw [size]
    exact List.mem_cons_self
  · intro blocks at_
    rw [size] at at_
    rcases List.mem_cons.1 at_ with new | old
    · exact (Prod.mk.inj new).2
    · have := h.inside old
      omega
  · intro offset blocks at_
    rcases List.mem_cons.1 at_ with new | old
    · obtain ⟨rfl, rfl⟩ := Prod.mk.inj new
      exact small
    · exact h.small old
  · intro offset blocks at_ lt
    rw [size] at lt
    rcases List.mem_cons.1 at_ with new | old
    · obtain ⟨rfl, rfl⟩ := Prod.mk.inj new
      omega
    -- What stands at a place is the new instruction or one from before.
    · by_cases last : offset = code.size - start
      · subst last
        obtain rfl := h.only old
        exact ⟨op, arguments, _, stands, allows⟩
      · have := h.inside old
        obtain ⟨op', arguments', next, stands', allows'⟩ := h.instruction old (by omega)
        exact ⟨op', arguments', next, stands'.mono _, allows'.mono longer⟩

end CodeTyped

end StageScript
