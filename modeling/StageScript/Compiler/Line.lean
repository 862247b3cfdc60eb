import StageScript.Compiler.Operand
import StageScript.Compiler.Switch
import StageScript.Source.Call
import StageScript.Source.Rewrite

/-! # Compiling one line
* `Compiler.outsideLine` compiles a line outside bodies: aliases, functions and markers;
* `Compiler.insideLine` compiles a line of a body, and says where the header of a switch stands if
  the line opens one. -/

namespace StageScript

namespace Compiler

/-! ## Lines outside bodies -/

/-- Changes the entry points of the program. -/
def modifyProgram (change : Program → Program) : Emit Unit :=
  modify fun c => { c with program := change c.program }

/-- Compiles a line outside bodies for an object type. Lines of no known form are passed over. -/
def outsideLine (type : Nat) (text : Text) : Emit Unit := do
  match Directive.alias? text with
  | some a => modify fun c => { c with aliases := c.aliases ++ [a] }
  | none =>
    match SubScript.ofMarker? text with
    | some sub =>
      let entry ← openBody
      modifyProgram (·.setEntry type sub (some entry))
    | none =>
      match Directive.function? text with
      | some (.declare name) => discard (edit (Program.declareFunction name))
      | some (.define name) =>
        let index ← edit (Program.declareFunction name)
        let entry ← openBody
        modifyProgram (·.setFunctionEntry index (some entry))
      | none => return

/-! ## Calls -/

/-- The block that an opcode closes or divides. -/
def governedBlock : Opcode → Option BlockKind
  | .control .elseBranch => some .ifBlock
  | .control .endIf => some .ifBlock
  | .control .loop => some .whileBlock
  | .control .leave => some .switchBlock
  | .control .endSwitch => some .switchBlock
  | _ => none

/-- Gives a block the targets that an opcode determines, `target` being the offset behind it.
A target that is still missing when the block closes becomes the closing opcode itself. -/
def bindBlock (op : Opcode) (block : Block) (target : Word) : Emit Unit := do
  match op with
  | .control .elseBranch => setJump block.slot target
  | .control .endIf =>
    setJump (block.slot + 1) target
    if (← get).jumpWord block.slot = -1 then setJump block.slot (target - 1)
    closeBlock
  | .control .endSwitch =>
    setJump (block.slot + 3) target
    if (← get).jumpWord (block.slot + 2) = -1 then
      setJump (block.slot + 2) (target - 1)
      fillCases block.slot (target - 1)
    closeBlock
  | .control .loop =>
    setJump (block.slot + 1) target
    closeBlock
  | _ => return

/-- Compiles a line in call form. -/
def emitCall (text : Text) : Emit Unit := do
  let call := Call.split text
  match Opcode.lookup? call.name with
  | none => throw (.opcodeNotFound call.name)
  | some op =>
    if call.operands.length ≠ op.arity then
      throw (.arityMismatch op.name op.arity call.operands.length)
    let block? ← match governedBlock op with
      | some kind => some <$> innermost kind op.name
      | none => pure none
    emit [op.word]
    match block? with
    | some block => bindBlock op block (← get).here
    | none => pure ()
    call.operands.forM emitOperand

/-! ## Lines of bodies -/

/-- A jump slot of the open body that has no target, by its place from the body's first slot. The
range in the header of a switch is not looked at. -/
def unresolvedSlot? (c : Compiler) : Option Nat :=
  let start := c.body.entry.jump
  (List.range (c.program.jumpTable.size - start)).find? fun k =>
    !(c.body.switches.any fun header => start + k == header || start + k == header + 1)
      && c.jumpWord (start + k) == -1

/-- Closes the open body with an opcode. -/
def closeBody (op : Opcode) : Emit Unit := do
  match (← get).body.blocks with
  | block :: _ => throw (.unclosedBlock block.kind.keyword)
  | [] =>
    emit [op.word]
    match (← get).unresolvedSlot? with
    | some slot => throw (.unresolvedSlot slot)
    | none => modify fun c => { c with mode := .outside }

/-- Opens the block of a line that tests a condition. Where an `if` goes on when its test fails is
not known yet; a `while` comes back to its test. -/
def openCondition : ConditionKeyword → Emit Unit
  | .ifLine => openBlock .ifBlock [-1, 0]
  | .whileLine => do openBlock .whileBlock [(← get).here, 0]

/-- Opens a switch and gives the place of its header. -/
def openSwitch : Emit Nat := do
  let header := (← get).program.jumpTable.size
  openBlock .switchBlock [LabelRange.start.min, LabelRange.start.max, -1, 0]
  modify fun c => { c with body := { c.body with switches := c.body.switches ++ [header] } }
  return header

/-- Compiles a label or a call. -/
def emitLine (text : Text) : Emit Unit :=
  match Directive.caseLabel? text with
  | some label => bindCase label
  | none => if Directive.isDefault text then bindDefault else emitCall text

/-- Brings a line into call form and compiles it. Blocks are opened on the way. -/
def statement (text : Text) : Emit (Option Nat) := do
  let text ← match Rewrite.condition? text (← get).nextSlot with
    | some condition =>
      openCondition condition.keyword
      pure condition.text
    | none => pure text
  let (text, header?) ← match Rewrite.switch? text (← get).nextSlot with
    | some opened =>
      let header ← openSwitch
      pure (opened, some header)
    | none => pure (text, none)
  emitLine ((Rewrite.assignment? text).getD text)
  return header?

/-- Compiles a line of a body. -/
def insideLine (text : Text) : Emit (Option Nat) := do
  if Text.sameName text "endsub".toList then
    closeBody (.control .stop)
    return none
  else if Text.sameName text "endfunction".toList then
    closeBody (.control .endFunction)
    return none
  else
    match Directive.platform? text with
    | some tags =>
      if !tags.any ((← get).tags.contains ·) then modify fun c => { c with mode := .skipping }
      return none
    | none => if Directive.endsPlatform text then return none else statement text

end Compiler

end StageScript
