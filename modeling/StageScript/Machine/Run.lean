import StageScript.Machine.Animation
import StageScript.Machine.Arithmetic
import StageScript.Machine.Command
import StageScript.Machine.Control
import StageScript.Machine.DrawList
import StageScript.Machine.Drawing
import StageScript.Machine.Layer
import StageScript.Machine.Menu
import StageScript.Machine.Object
import StageScript.Machine.Operand
import StageScript.Machine.Sheet
import StageScript.Machine.Space

/-! # Runs
* `Opcode.perform` carries out an instruction whose operands have been loaded;
* `step` is one instruction, from its opcode to the position of the next;
* `run` goes from step to step until the sub-script ends or the step limit is reached. -/

namespace StageScript

namespace Opcode

/-- Whether an instruction has results, so that its operands are stored behind it. -/
def hasResult : Opcode → Bool
  | .binary _ => true
  | .unary _ => true
  | .rand => true
  | .formula _ => true
  | .animation op => op = .getByName
  | .menu op => op = .getInfo
  | .layer op => op = .getTile || op = .getTileInfo
  | .drawList op => op = .get
  | _ => false

/-- Carries out an instruction, `next` being the position behind it, and gives the position where
the run goes on, if it does. -/
def perform (p : Program) (activation : Activation) (next : Position) :
    Opcode → Exec (Option Position)
  | .control op => op.perform p next
  | .ifTest comparison => some <$> comparison.performIf p next
  | .whileTest comparison => some <$> comparison.performWhile p next
  | .binary op => op.perform *> goOn
  | .unary op => op.perform *> goOn
  | .check op => op.perform *> goOn
  | .rand => performRandom *> goOn
  | .formula op => op.perform *> goOn
  | .draw op => op.perform activation *> goOn
  | .palette op => op.perform *> goOn
  | .audio op => op.perform *> goOn
  | .platform op => op.perform *> goOn
  | .sheet op => op.perform activation *> goOn
  | .animation op => op.perform activation *> goOn
  | .menu op => op.perform *> goOn
  | .object op => op.perform activation *> goOn
  | .space op => op.perform *> goOn
  | .layer op => op.perform *> goOn
  | .drawList op => op.perform *> goOn
where
  /-- The run goes on behind the instruction. -/
  goOn : Exec (Option Position) := pure (some next)

end Opcode

/-- Executes the instruction at a position and gives the position of the next, unless the sub-script
has ended. -/
def step (p : Program) (activation : Activation) (here : Position) : Exec (Option Position) := do
  let i ← fetch p.code activation.object here.pointer
  let next ← i.opcode.perform p activation { here with pointer := i.next }
  if i.opcode.hasResult then
    let pointer ← walkOperands .store p.code activation.object i.opcode.arity 0 i.first
    return some { here with pointer }
  else return next

/-- Counts a step. -/
def countStep : Exec Unit := modify fun m => { m with steps := m.steps + 1 }

/-- Executes instructions until the sub-script ends, but `fuel` at most. -/
def runFrom (p : Program) (activation : Activation) : (fuel : Nat) → Position → Exec Unit
  | 0, _ => do
    countStep
    throw (.stepLimitExceeded (← get).budget)
  | fuel + 1, here => do
    countStep
    match ← step p activation here with
    | some next => runFrom p activation fuel next
    | none => return

/-- Runs a body from its entry point, with no blocks and no calls open. -/
def run (p : Program) (activation : Activation) (entry : EntryPoint) : Exec Unit := do
  modify ({ · with branches := [], calls := [] })
  let m ← get
  runFrom p activation (m.budget - m.steps) (.ofEntry entry)

end StageScript
