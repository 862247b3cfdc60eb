import StageScript.Proofs.Program.Reading

/-! # Instructions one behind the other
* **`Decodes`** — reading instruction after instruction leads from one offset to another;
* **`Chain`** — instructions stand one behind the other in code, and go on standing there when more
  code is added. -/

namespace StageScript

/-- **Reading instruction after instruction** leads from the first offset to the second one. -/
inductive Decodes (code : Array Word) : Nat → List Instruction → Nat → Prop
  | nil (offset : Nat) : Decodes code offset [] offset
  | cons {offset middle stop : Nat} {i : Instruction} {others : List Instruction}
    (first : Instruction.decode code offset = .ok (i, middle))
    (rest : Decodes code middle others stop) : Decodes code offset (i :: others) stop

/-- Instructions that stand one behind the other, from the first offset to the second one. -/
inductive Chain (code : Array Word) : Nat → List Instruction → Nat → Prop
  | nil (offset : Nat) : Chain code offset [] offset
  | cons {offset middle stop : Nat} {op : Opcode} {arguments : List Argument}
    {others : List Instruction} (first : Instruction.Stands code offset op arguments middle)
    (rest : Chain code middle others stop) : Chain code offset (⟨offset, op, arguments⟩ :: others) stop

namespace Chain

variable {code : Array Word} {start middle stop : Nat} {is : List Instruction}

theorem decodes (h : Chain code start is stop) : Decodes code start is stop := by
  induction h with
  | nil offset => exact .nil offset
  | cons first _ ih => exact .cons first.decode_eq ih

/-- Each instruction of a chain can be read where it stands. -/
theorem exists_decode (h : Chain code start is stop) {i : Instruction} (member : i ∈ is) :
    ∃ next, Instruction.decode code i.offset = .ok (i, next) := by
  induction h with
  | nil => cases member
  | cons first _ ih =>
    rcases List.mem_cons.1 member with rfl | behind
    · exact ⟨_, first.decode_eq⟩
    · exact ih behind

/-- More code behind a chain leaves it as it is. -/
theorem mono (h : Chain code start is stop) (more : Array Word) :
    Chain (code ++ more) start is stop := by
  induction h with
  | nil offset => exact .nil offset
  | cons first _ ih => exact .cons (first.mono more) ih

theorem snoc {op : Opcode} {arguments : List Argument} (h : Chain code start is middle)
    (last : Instruction.Stands code middle op arguments stop) :
    Chain code start (is ++ [⟨middle, op, arguments⟩]) stop := by
  induction h with
  | nil offset => exact .cons last (.nil _)
  | cons first _ ih => exact .cons first (ih last)

theorem lt_of_stands {offset next : Nat} {op : Opcode}
    {arguments : List Argument} (h : Instruction.Stands code offset op arguments next) :
    offset < next := by
  have := h.behind
  rw [Instruction.encode, List.length_cons] at this
  omega

theorem le (h : Chain code start is stop) : start ≤ stop := by
  induction h with
  | nil => exact Nat.le_refl _
  | cons first _ ih =>
    have := lt_of_stands first
    omega

/-- The instructions of a chain are between its ends. -/
theorem bounds (h : Chain code start is stop) : ∀ i ∈ is, start ≤ i.offset ∧ i.offset < stop := by
  induction h with
  | nil => exact List.forall_mem_nil _
  | cons first rest ih =>
    have := lt_of_stands first
    have := rest.le
    refine List.forall_mem_cons.2 ⟨⟨Nat.le_refl _, by dsimp only; omega⟩, fun i member => ?_⟩
    have := ih i member
    omega

/-- **An instruction that is added** at the end of the code stands behind the others. -/
theorem add {op : Opcode} {arguments : List Argument} (h : Chain code start is code.size)
    (known : op ∈ Opcode.all) (many : arguments.length = op.arity)
    (readable : ∀ a ∈ arguments, a.Readable) :
    Chain (code ++ (Instruction.encode op arguments).toArray) start
      (is ++ [⟨code.size, op, arguments⟩])
      (code ++ (Instruction.encode op arguments).toArray).size := by
  exact (h.mono _).snoc ⟨Holds.of_append .., known, many, readable, Array.size_append⟩

end Chain

end StageScript
