import StageScript.Proofs.Compiler.Dispatch
import StageScript.Proofs.Machine.Statement

/-! # Where statements stand
A statement is laid out as instructions one behind the other, and a block in it has a record that says
where its slots lead.
* `Statement.length` — how many words a statement takes in code;
* **`Statement.Sits`** — a statement stands at an offset of a body;
* **`Statement.Sits.entered`** — a switch is entered where its record says. -/

namespace StageScript

open Stepwise

namespace Statement

/-! ## Layout -/

/-- How many words an instruction takes. -/
def width (op : Opcode) (arguments : List Argument) : Nat := (Instruction.encode op arguments).length

/-- **How many words a statement takes in code.** Labels take none. -/
def length : Statement → Nat
  | skip => 0
  | seq first rest => first.length + rest.length
  | act op arguments => width op arguments
  | call function => width (.control .callFunction) [function]
  | branch block comparison a b yes divided no =>
    width (.ifTest comparison) (testArguments block a b) + yes.length +
      (if divided then 1 + no.length else 0) + 1
  | loop block comparison a b body =>
    width (.whileTest comparison) (testArguments block a b) + body.length + 1
  | switch block a body => width (.control .switch) (switchArguments block a) + body.length + 1
  | case _ => 0
  | fallback => 0
  | leave => 1

/-- The labels of a statement at an offset that are not in a block inside it, latest first. -/
def marks (offset : Nat) : Statement → List Mark
  | seq first rest => marks (offset + first.length) rest ++ marks offset first
  | case value => [⟨some value, offset⟩]
  | fallback => [⟨none, offset⟩]
  | skip => []
  | act _ _ => []
  | call _ => []
  | branch .. => []
  | loop .. => []
  | switch .. => []
  | leave => []

/-- A block of a body that is closed. -/
def HasBlock (bs : List BlockRecord) (kind : BlockKind) (slot opened : Nat) (marks : List Mark)
    (closing : Nat) : Prop :=
  ∃ b ∈ bs, b.kind = kind ∧ b.slot = slot ∧ b.opened = opened ∧ b.marks = marks ∧
    b.closing = some closing

/-- **A statement stands at an offset** of a body that begins at `base`: its instructions are among
those of the body and its blocks among the blocks of the body. `around` is the number of the switch
around it, if it is directly in one. -/
def Sits (is : List Instruction) (bs : List BlockRecord) (base : Nat) :
    Option Nat → Nat → Statement → Prop
  | _, _, skip => True
  | around, offset, seq first rest =>
    first.Sits is bs base around offset ∧ rest.Sits is bs base around (offset + first.length)
  | _, offset, act op arguments => op.isControl = false ∧ ⟨base + offset, op, arguments⟩ ∈ is
  | _, offset, call function => ⟨base + offset, .control .callFunction, [function]⟩ ∈ is
  | _, offset, branch block comparison a b yes divided no =>
    let first := offset + width (.ifTest comparison) (testArguments block a b)
    let middle := first + yes.length
    ⟨base + offset, .ifTest comparison, testArguments block a b⟩ ∈ is ∧
      yes.Sits is bs base none first ∧
      if divided then
        ⟨base + middle, .control .elseBranch, []⟩ ∈ is ∧
          no.Sits is bs base none (middle + 1) ∧
          ⟨base + (middle + 1 + no.length), .control .endIf, []⟩ ∈ is ∧
          HasBlock bs .ifBlock block offset [⟨none, middle + 1⟩] (middle + 1 + no.length)
      else
        no = skip ∧ ⟨base + middle, .control .endIf, []⟩ ∈ is ∧
          HasBlock bs .ifBlock block offset [] middle
  | _, offset, loop block comparison a b body =>
    let first := offset + width (.whileTest comparison) (testArguments block a b)
    ⟨base + offset, .whileTest comparison, testArguments block a b⟩ ∈ is ∧
      body.Sits is bs base none first ∧
      ⟨base + (first + body.length), .control .loop, []⟩ ∈ is ∧
      HasBlock bs .whileBlock block offset [] (first + body.length)
  | _, offset, switch block a body =>
    let first := offset + width (.control .switch) (switchArguments block a)
    ⟨base + offset, .control .switch, switchArguments block a⟩ ∈ is ∧
      body.fallbacks ≤ 1 ∧ body.Sits is bs base (some block) first ∧
      ⟨base + (first + body.length), .control .endSwitch, []⟩ ∈ is ∧
      HasBlock bs .switchBlock block offset (body.marks first) (first + body.length)
  | _, _, case _ => True
  | _, _, fallback => True
  | around, offset, leave => around.isSome ∧ ⟨base + offset, .control .leave, []⟩ ∈ is

/-! ## Statements behind labels -/

variable {is : List Instruction} {bs : List BlockRecord} {base : Nat} {around : Option Nat}
  {offset : Nat}

/-- What stands behind a label stands at the offset of the label, and to the end. -/
structure Follows (is : List Instruction) (bs : List BlockRecord) (base : Nat) (around : Option Nat)
    (stop place : Nat) (s : Statement) : Prop where
  sits : s.Sits is bs base around place
  ends : place + s.length = stop

theorem Follows.seq {place middle : Nat} {s rest : Statement}
    (h : Follows is bs base around middle place s) (behind : rest.Sits is bs base around middle) :
    Follows is bs base around (middle + rest.length) place (s.seq rest) := by
  obtain ⟨sits, rfl⟩ := h
  exact ⟨⟨sits, behind⟩, by rw [length, Nat.add_assoc]⟩

/-- A label of what stands behind comes before the labels in front of it. -/
theorem Follows.or {middle : Nat} {first rest : Option Nat} {s s' : Option Statement}
    {behind : Statement} (earlier : Option.Rel (Follows is bs base around middle) first s)
    (later : Option.Rel (Follows is bs base around (middle + behind.length)) rest s')
    (sits : behind.Sits is bs base around middle) :
    Option.Rel (Follows is bs base around (middle + behind.length)) (rest.or first)
      (s'.or (s.map (Statement.seq · behind))) := by
  cases later with
  | some follows => exact .some follows
  | none =>
    cases earlier with
    | some follows => exact .some (follows.seq sits)
    | none => exact .none

/-- **What stands behind the last label of a value** stands where the latest mark of the value is. -/
theorem lastCase?_marks (value : Word) {s : Statement} (sits : s.Sits is bs base around offset) :
    Option.Rel (Follows is bs base around (offset + s.length)) (lastCase? value (s.marks offset))
      (behindCase value s) := by
  induction s generalizing offset with
  | seq first rest ihFirst ihRest =>
    have found : lastCase? value ((first.seq rest).marks offset) =
        (lastCase? value (rest.marks (offset + first.length))).or
          (lastCase? value (first.marks offset)) := by
      rw [marks, lastCase?, lastCase?, lastCase?, List.find?_append, Option.map_or]
    rw [found, behindCase, length, ← Nat.add_assoc]
    exact Follows.or (ihFirst sits.1) (ihRest sits.2) sits.2
  | case w =>
    rw [behindCase, marks, lastCase?, List.find?_singleton]
    by_cases same : w = value
    · rw [if_pos same, if_pos (by simpa using same)]
      exact .some ⟨trivial, rfl⟩
    · rw [if_neg same, if_neg (by simpa using same)]
      exact .none
  | _ => exact .none

/-- What stands behind the last label for all other values stands where the latest such mark is. -/
theorem elseOffset?_marks {s : Statement} (sits : s.Sits is bs base around offset) :
    Option.Rel (Follows is bs base around (offset + s.length)) (elseOffset? (s.marks offset))
      (behindFallback s) := by
  induction s generalizing offset with
  | seq first rest ihFirst ihRest =>
    have found : elseOffset? ((first.seq rest).marks offset) =
        (elseOffset? (rest.marks (offset + first.length))).or (elseOffset? (first.marks offset)) := by
      rw [marks, elseOffset?, elseOffset?, elseOffset?, List.find?_append, Option.map_or]
    rw [found, behindFallback, length, ← Nat.add_assoc]
    exact Follows.or (ihFirst sits.1) (ihRest sits.2) sits.2
  | fallback => exact .some ⟨trivial, rfl⟩
  | _ => exact .none

/-- There are as many marks without a value as labels for all other values. -/
theorem countP_marks (s : Statement) (offset : Nat) :
    (s.marks offset).countP (·.value.isNone) = s.fallbacks := by
  induction s generalizing offset with
  | seq first rest ihFirst ihRest =>
    rw [marks, List.countP_append, ihFirst, ihRest, fallbacks, Nat.add_comm]
  | _ => rfl

/-- **A switch is entered where its record says.** -/
theorem Sits.entered {body : Statement} (sits : body.Sits is bs base around offset)
    (once : body.fallbacks ≤ 1) {b : BlockRecord} (marks : b.marks = body.marks offset)
    (closing : b.closing = some (offset + body.length)) (value : Word) :
    ∃ place, b.destination value = some place ∧
      Follows is bs base around (offset + body.length) place (body.entered value) := by
  have one : firstElse? (body.marks offset) = elseOffset? (body.marks offset) :=
    firstElse?_eq (by rw [countP_marks]; exact once)
  rw [BlockRecord.destination, marks, closing, one, ite_self, Statement.entered]
  have valued := lastCase?_marks value sits
  have others := elseOffset?_marks sits
  generalize lastCase? value (body.marks offset) = place, behindCase value body = s at valued ⊢
  generalize elseOffset? (body.marks offset) = place', behindFallback body = s' at others ⊢
  -- the labels of the value come first, then the others, then the end
  cases valued with
  | some follows => exact ⟨_, rfl, follows⟩
  | none =>
    cases others with
    | some follows => exact ⟨_, rfl, follows⟩
    | none => exact ⟨offset + body.length, rfl, trivial, rfl⟩

end Statement

end StageScript
