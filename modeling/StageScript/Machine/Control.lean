import StageScript.Machine.Basic
import StageScript.Opcode.Basic

/-! # Control instructions
Where a run goes on. A body's targets are in its jump slots, as offsets from its beginning.
* `Jump.word` and `Jump.target` read a jump slot;
* `Control.perform` and the two tests give the next position, or none where the run ends. -/

namespace StageScript

namespace Jump

/-- The word in a jump slot of the running body, counted from `slot`. -/
def word (p : Program) (here : Position) (slot : Word) (k : Int) : Except Fault Word :=
  let place : Int := here.jumpBase + slot.toInt + k
  if place < 0 then .error (.jumpSlotOutOfRange place)
  else
    match p.jumpTable[place.toNat]? with
    | some w => .ok w
    | none => .error (.jumpSlotOutOfRange place)

/-- The position that a jump slot of the running body leads to. -/
def target (p : Program) (here : Position) (slot : Word) (k : Int) : Except Fault Position := do
  let w ← word p here slot k
  match w.index? with
  | some offset => return { here with pointer := here.codeBase + offset }
  | none => throw (.unresolvedJump (here.jumpBase + slot.toInt + k).toNat)

end Jump

/-- Opens a block, remembering its jump slot. -/
def pushBranch (slot : Word) : Exec Unit := do
  if (← get).branches.length < branchDepthLimit then
    modify fun m => { m with branches := slot :: m.branches }
  else throw .branchStackOverflow

/-- Closes the innermost block and gives its jump slot. -/
def popBranch : Exec Word := do
  match (← get).branches with
  | slot :: rest =>
    modify fun m => { m with branches := rest }
    return slot
  | [] => throw .branchStackUnderflow

/-- Reads a jump slot as a step. -/
def jump (p : Program) (here : Position) (slot : Word) (k : Int) : Exec Position :=
  ExceptT.mk (pure (Jump.target p here slot k))

namespace Comparison

/-- Tests the condition of an `if`. Its block is opened either way; where the test fails the run goes
on in the first slot's target. -/
def performIf (comparison : Comparison) (p : Program) (next : Position) : Exec Position := do
  let o ← operands
  pushBranch o[0]
  if comparison.holds o[1] o[2] then return next else jump p next o[0] 0

/-- Tests the condition of a `while`. Its block is opened only if the test holds; else the run goes on
in the second slot's target. -/
def performWhile (comparison : Comparison) (p : Program) (next : Position) : Exec Position := do
  let o ← operands
  if comparison.holds o[1] o[2] then
    pushBranch o[0]
    return next
  else jump p next o[0] 1

end Comparison

/-- Calls a function, remembering where to go on. -/
def enterFunction (p : Program) (next : Position) (index : Word) : Exec Position := do
  match (index.index?.bind (p.functions[·]?)).bind (·.entry) with
  | none => throw (.undefinedFunction index)
  | some entry =>
    if (← get).calls.length < callDepthLimit then
      modify fun m => { m with calls := next :: m.calls }
      return .ofEntry entry
    else throw .callStackOverflow

/-- Goes back to where the innermost call was made. -/
def returnFromFunction : Exec Position := do
  match (← get).calls with
  | back :: rest =>
    modify fun m => { m with calls := rest }
    return back
  | [] => throw .callStackUnderflow

namespace Control

/-- Enters a switch. A value outside the range of the labels goes to the third slot's target, another
one to that of its own slot. -/
def performSwitch (p : Program) (next : Position) : Exec Position := do
  let o ← operands
  let slot := o[0]
  let value := o[1]
  pushBranch slot
  let min ← ExceptT.mk (pure (Jump.word p next slot 0))
  let max ← ExceptT.mk (pure (Jump.word p next slot 1))
  if value < min || max < value then jump p next slot 2
  else jump p next slot (4 + (value.toInt - min.toInt))

/-- Carries out a control instruction, `next` being the position behind it. There is no further
position where the sub-script ends. -/
def perform (p : Program) (next : Position) : Control → Exec (Option Position)
  | .stop => return none
  | .elseBranch => do return some (← jump p next (← popBranch) 1)
  | .endIf => do
    discard popBranch
    return some next
  | .loop => do return some (← jump p next (← popBranch) 0)
  | .switch => some <$> performSwitch p next
  | .leave => do return some (← jump p next (← popBranch) 3)
  | .endSwitch => do
    discard popBranch
    return some next
  | .callFunction => do return some (← enterFunction p next (← operands)[0])
  | .endFunction => some <$> returnFromFunction

end Control

end StageScript
