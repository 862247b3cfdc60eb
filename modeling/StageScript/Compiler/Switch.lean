import StageScript.Compiler.Basic
import StageScript.Source.Line

/-! # Switches
A switch has a header of four jump slots (the least and the greatest label, the target of every other
value, and the target behind the switch) and a slot for each value between the two labels. When a
switch is opened its labels are looked up ahead, so that the slots can be reserved before the body of
the switch is compiled.
* `Priming.scan` looks the labels up;
* `Compiler.prime` reserves the slots;
* `Compiler.bindCase` and `Compiler.bindDefault` give labels their targets. -/

namespace StageScript

/-! ## Labels -/

namespace Alias

/-- The text that a label stands for once every alias of the file has been looked at in turn. -/
def resolve (aliases : List Alias) (label : Text) : Text :=
  aliases.foldl (fun text a => if Text.sameName text a.name then a.value else text) label

end Alias

/-- The value of a label, or its resolved text if that is no integer. -/
def labelValue (aliases : List Alias) (label : Text) : Except CompileReason Word :=
  let resolved := Alias.resolve aliases label
  match Numeral.parse? resolved with
  | some value => .ok value
  | none => .error (.malformedInteger resolved)

/-- The least and the greatest label of a switch. -/
structure LabelRange where
  min : Word
  max : Word
  deriving DecidableEq, Repr

namespace LabelRange

/-- The range before any label is known, which is turned around. -/
def start : LabelRange := ⟨0x10000, -0x10000⟩

/-- Widens a range by a label. -/
def add (range : LabelRange) (value : Word) : LabelRange :=
  ⟨if value < range.min then value else range.min, if range.max < value then value else range.max⟩

/-- How many slots a range needs. -/
def size (range : LabelRange) : Nat := (range.max.toInt - range.min.toInt).natAbs + 1

/-- The range for which slots are reserved: without a label, that of the value zero. -/
def settle (range : LabelRange) : LabelRange := if range.max < range.min then ⟨0, 0⟩ else range

end LabelRange

/-! ## Looking ahead -/

/-- How looking ahead ends. -/
inductive PrimingEnd
  /-- At the line that closes the switch. -/
  | closed (line : Nat)
  /-- At a label that is no integer. -/
  | refused (line : Nat) (reason : CompileReason)
  /-- At the end of the file, whose last line is given. -/
  | unclosed (line : Nat)
  deriving DecidableEq, Repr

/-- The labels found ahead. -/
structure Priming where
  /-- The range of the labels in front of the end. -/
  range : LabelRange
  ending : PrimingEnd
  deriving DecidableEq, Repr

namespace Priming

/-- Looks at the lines behind a switch. `depth` counts the switches open inside it, whose labels do
not count, and `last` is the number of the line before. -/
def scan (aliases : List Alias) : List Line → (depth last : Nat) → LabelRange → Priming
  | [], _, last, range => ⟨range, .unclosed last⟩
  | line :: rest, depth, _, range =>
    if Directive.startsSwitch line.text then scan aliases rest (depth + 1) line.number range
    else if Directive.endsSwitch line.text then
      match depth with
      | 0 => ⟨range, .closed line.number⟩
      | depth + 1 => scan aliases rest depth line.number range
    else if depth = 0 then
      match Directive.caseLabel? line.text with
      | some label =>
        match labelValue aliases label with
        | .ok value => scan aliases rest depth line.number (range.add value)
        | .error reason => ⟨range, .refused line.number reason⟩
      | none => scan aliases rest depth line.number range
    else scan aliases rest depth line.number range

end Priming

namespace Compiler

/-- The range in the header of a switch. -/
def labelRange (c : Compiler) (header : Nat) : LabelRange :=
  ⟨c.jumpWord header, c.jumpWord (header + 1)⟩

/-- Changes the range in the header of a switch. -/
def setLabelRange (header : Nat) (range : LabelRange) : Emit Unit := do
  setJump header range.min
  setJump (header + 1) range.max

/-- Reserves a slot for each value of a settled range, as many as fit. -/
def reserveCases (header : Nat) (range : LabelRange) : Emit Unit := do
  let range := range.settle
  setLabelRange header range
  let room := jumpCapacity - (← get).program.jumpTable.size
  reserve (List.replicate (min range.size room) (-1))
  if room < range.size then throw (.exhausted .jumpTable)

/-! ## Targets -/

/-- Gives every case slot of a switch that has no target yet the target of the default label. -/
def fillCases (header : Nat) (target : Word) : Emit Unit := do
  let count := ((← get).labelRange header).size
  modifyJumps fun jumps =>
    (List.range count).foldl (fun jumps k =>
      jumps.modify (header + 4 + k) fun w => if w < 0 then target else w) jumps

/-- Gives a case label of the innermost switch its target. -/
def bindCase (label : Text) : Emit Unit := do
  let block ← innermost .switchBlock "case"
  let c ← get
  let value ← ExceptT.mk (pure (labelValue c.aliases label))
  let range := c.labelRange block.slot
  let offset := value.toInt - range.min.toInt
  if 0 ≤ offset && offset < range.size then setJump (block.slot + 4 + offset.toNat) c.here
  else throw (.caseOutOfRange value range.min range.max)

/-- Gives the default label of the innermost switch its target. -/
def bindDefault : Emit Unit := do
  let block ← innermost .switchBlock "default"
  let target := (← get).here
  setJump (block.slot + 2) target
  fillCases block.slot target

end Compiler

end StageScript
