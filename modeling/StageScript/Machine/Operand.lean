import StageScript.Machine.Access
import StageScript.Program.Instruction

/-! # Operands of a running instruction
Before an instruction is carried out its operands are loaded into the operand registers, one after
the other; behind an instruction with results they are stored from there again. Both are a walk over
the words of the operands, which are looked at anew each time.
* `elementIndex` reads an address and gives the element that it means at the moment;
* `walkOperands` walks over operands in one of the two directions and gives the offset behind them;
* `fetch` reads the opcode of an instruction and loads its operands. -/

namespace StageScript

/-- What a walk over operands does: it loads the operand registers or stores out of them. -/
inductive Direction
  | load
  | store
  deriving DecidableEq, Repr

/-- The word at an offset, with the offset behind it. -/
def nextWord (code : Array Word) (offset : Nat) : Exec (Word × Nat) :=
  match code[offset]? with
  | some w => return (w, offset + 1)
  | none => throw (.codeOutOfRange offset)

/-- The value of the index register of a number. -/
def indexRegister? (m : Machine) (number : Word) : Option Word :=
  number.index?.bind (m.registers.arrayPos[·]?)

/-- The index whose source and value stand at an offset, with the offset behind them: the value
itself, or what the register of that number holds. Faults name `start`, where the operand begins. -/
def indexAt (code : Array Word) (start offset : Nat) : Exec (Word × Nat) := do
  let (source, offset) ← nextWord code offset
  let (value, offset) ← nextWord code offset
  if source = 0 then return (value, offset)
  else if source = 1 then
    match indexRegister? (← get) value with
    | some index => return (index, offset)
    | none => throw (.invalidIndexRegister start value)
  else throw (.invalidAddressingMode start source)

/-- The element that the address at an offset means at the moment, with the offset behind the
address; `object` is the slot of the running object. Faults name `start`, where the operand begins. -/
def elementIndex (code : Array Word) (object start offset : Nat) : Exec (Word × Nat) := do
  let (w, offset) ← nextWord code offset
  match AddressMode.ofWord? w with
  | none => throw (.invalidAddressingMode start w)
  | some .self => return (Word.ofNat object, offset)
  | some mode =>
    let (index, offset) ← indexAt code start offset
    match mode with
    | .ahead => return (Word.ofNat object + index, offset)
    | .behind => return (Word.ofNat object - index, offset)
    | _ => return (index, offset)

/-- Walks over the operand at an offset, which belongs to the operand register at `place`, and gives
the offset behind it. The value of a text is zero; the text itself becomes the script text. Only
variables take a value. -/
def walkOperand (direction : Direction) (code : Array Word) (object place start : Nat) : Exec Nat := do
  let (tag, offset) ← nextWord code start
  if tag = Argument.integerTag then
    let (value, offset) ← nextWord code offset
    if direction = .load then modify (·.setOperand place value)
    return offset
  else if tag = Argument.textTag then
    let (w, offset) ← nextWord code offset
    match w.index? with
    | none => throw (.invalidOperandTag start Argument.textTag)
    | some length =>
      let next := offset + PackedText.wordCount length
      if code.size < next then throw (.codeOutOfRange next)
      if direction = .load then
        let content := PackedText.unpack (code.extract offset next).toList length
        modify ({ · with scriptText := String.ofList content })
        modify (·.setOperand place 0)
      return next
  else if tag = Argument.variableTag then
    let (index, offset) ← elementIndex code object start offset
    let (id, offset) ← nextWord code offset
    match Variable.ofWord? id with
    | none => throw (.unknownVariable start id)
    | some v =>
      match direction with
      | .load =>
        let value ← v.read index
        modify (·.setOperand place value)
      | .store => v.write index (← operands)[place]
      return offset
  else throw (.invalidOperandTag start tag)

/-- Walks over so many operands, which belong to the operand registers from `place` on, and gives the
offset behind the last. -/
def walkOperands (direction : Direction) (code : Array Word) (object : Nat) :
    (count place offset : Nat) → Exec Nat
  | 0, _, offset => return offset
  | count + 1, place, offset => do
    let next ← walkOperand direction code object place offset
    walkOperands direction code object count (place + 1) next

/-- What there is to know of an instruction whose operands have been loaded. -/
structure Fetched where
  /-- What the instruction does. -/
  opcode : Opcode
  /-- Where its operands begin. -/
  first : Nat
  /-- The offset behind its operands. -/
  next : Nat
  deriving DecidableEq, Repr

/-- Reads the opcode at an offset and loads the operands behind it. -/
def fetch (code : Array Word) (object offset : Nat) : Exec Fetched := do
  let (id, first) ← nextWord code offset
  match Opcode.ofWord? id with
  | none => throw (.invalidOpcode offset id)
  | some opcode =>
    let next ← walkOperands .load code object opcode.arity 0 first
    return { opcode, first, next }

end StageScript
