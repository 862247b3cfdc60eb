import StageScript.Compiler.Error
import StageScript.Source.Directive

/-! # The state of compilation
A compiler adds files to a program, one line after the other.
* `Compiler` holds the program, what the current file has defined, and the body that is open;
* `Emit` is a step that may add to the program and may fail; what was added before a failure
  stays. -/

namespace StageScript

/-- The aliases that every file starts with. -/
def defaultAliases : List Alias :=
  [("true", "1"), ("false", "0"), ("FX_SCALE", "0"), ("FX_ROTATE", "1"), ("FX_ROTOZOOM", "2"),
    ("FX_INK", "3"), ("FX_FLIP", "5"), ("PRESENTATION_STAGE", "0"), ("REGULAR_STAGE", "1"),
    ("BONUS_STAGE", "2"), ("SPECIAL_STAGE", "3"), ("MENU_1", "0"), ("MENU_2", "1"),
    ("C_TOUCH", "0"), ("C_BOX", "1"), ("C_BOX2", "2"), ("C_PLATFORM", "3"), ("MAT_WORLD", "0"),
    ("MAT_VIEW", "1"), ("MAT_TEMP", "2"), ("FACING_LEFT", "1"), ("FACING_RIGHT", "0"),
    ("STAGE_PAUSED", "2"), ("STAGE_RUNNING", "1"), ("RESET_GAME", "2"), ("RETRO_WIN", "0"),
    ("RETRO_OSX", "1"), ("RETRO_XBOX_360", "2"), ("RETRO_PS3", "3"), ("RETRO_iOS", "4"),
    ("RETRO_ANDROID", "5"), ("RETRO_WP7", "6")].map
    fun (name, value) => ⟨name.toList, value.toList⟩

/-- The kinds of blocks in a body. -/
inductive BlockKind
  | ifBlock
  | whileBlock
  | switchBlock
  deriving DecidableEq, Repr

/-- The keyword that opens a block. -/
def BlockKind.keyword : BlockKind → String
  | .ifBlock => "if"
  | .whileBlock => "while"
  | .switchBlock => "switch"

/-- A block that is open. -/
structure Block where
  kind : BlockKind
  /-- Where the block's slots begin in the jump table. -/
  slot : Nat
  deriving DecidableEq, Repr

/-- What the next line belongs to. -/
inductive Mode
  /-- No body is open. -/
  | outside
  /-- A body is open. -/
  | inside
  /-- A body is open, and a platform block in it is left out. -/
  | skipping
  deriving DecidableEq, Repr

/-- The body that is open, or the last one that was. -/
structure Body where
  /-- Where the body begins. -/
  entry : EntryPoint := ⟨0, 0⟩
  /-- The open blocks, innermost first. -/
  blocks : List Block := []
  /-- Where the slots of the body's switches begin in the jump table. -/
  switches : List Nat := []
  deriving DecidableEq, Repr

/-- A compiler between two lines. -/
structure Compiler where
  /-- The program that is added to. -/
  program : Program
  /-- The names of the globals, in the order of their slots. -/
  globals : List Text
  /-- The tags that a platform block has to name to be compiled. -/
  tags : List Text
  /-- The aliases of the current file. -/
  aliases : List Alias := defaultAliases
  mode : Mode := .outside
  body : Body := {}
  deriving DecidableEq

/-- A step of compilation. -/
abbrev Emit := ExceptT CompileReason (StateM Compiler)

namespace Compiler

/-- Makes an addition to the program. -/
def edit {α : Type} (change : Program.Edit α) : Emit α := fun c =>
  let (answer, program) := change c.program
  (answer.mapError .exhausted, { c with program })

/-- Adds words to the code, as many as fit. -/
def emit (words : List Word) : Emit Unit := words.forM fun w => discard (edit (Program.pushCode w))

/-- Adds words to the jump table, as many as fit. -/
def reserve (words : List Word) : Emit Unit := words.forM fun w => discard (edit (Program.pushJump w))

/-- Changes words of the jump table. -/
def modifyJumps (change : Array Word → Array Word) : Emit Unit :=
  modify fun c => { c with program := { c.program with jumpTable := change c.program.jumpTable } }

/-- Changes one word of the jump table. -/
def setJump (slot : Nat) (w : Word) : Emit Unit := modifyJumps (·.setIfInBounds slot w)

/-- A word of the jump table. -/
def jumpWord (c : Compiler) (slot : Nat) : Word := c.program.jumpTable.getD slot 0

/-- The next instruction's offset from the beginning of the body. -/
def here (c : Compiler) : Word := Word.ofNat (c.program.code.size - c.body.entry.code)

/-- The next jump slot's place from the beginning of the body's slots. -/
def nextSlot (c : Compiler) : Word := Word.ofNat (c.program.jumpTable.size - c.body.entry.jump)

/-- Opens a body at the end of the program. -/
def openBody : Emit EntryPoint :=
  modifyGet fun c =>
    let entry : EntryPoint := ⟨c.program.code.size, c.program.jumpTable.size⟩
    (entry, { c with mode := .inside, body := { entry } })

/-- Opens a block at the end of the jump table, whose first words are given. -/
def openBlock (kind : BlockKind) (words : List Word) : Emit Unit := do
  let slot := (← get).program.jumpTable.size
  reserve words
  modify fun c => { c with body := { c.body with blocks := ⟨kind, slot⟩ :: c.body.blocks } }

/-- Closes the innermost block. -/
def closeBlock : Emit Unit :=
  modify fun c => { c with body := { c.body with blocks := c.body.blocks.tail } }

/-- The innermost block, which has to be of the kind that the keyword belongs to. -/
def innermost (kind : BlockKind) (keyword : String) : Emit Block := do
  match (← get).body.blocks with
  | block :: _ => if block.kind = kind then return block else throw (.unmatchedKeyword keyword)
  | [] => throw (.unmatchedKeyword keyword)

end Compiler

end StageScript
