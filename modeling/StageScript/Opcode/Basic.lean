import StageScript.Opcode.Family
import StageScript.Text.Basic

/-! # Opcodes
The instruction set.
* `Opcode.signature` gives each opcode its script name and operand count;
* `Opcode.all` lists them in the order of their numbers in compiled code;
* `Opcode.lookup?` finds an opcode by its script name. -/

namespace StageScript

/-- An opcode, by family. -/
inductive Opcode
  | binary (op : Binary)
  | unary (op : Unary)
  | check (op : Check)
  /-- Opens an `if`. -/
  | ifTest (comparison : Comparison)
  /-- Opens a `while`, and is reached again before each round. -/
  | whileTest (comparison : Comparison)
  | control (op : Control)
  /-- A random number below a bound. -/
  | rand
  | formula (op : Formula)
  | draw (op : Drawing)
  | palette (op : Palette)
  | audio (op : Audio)
  | platform (op : Platform)
  | sheet (op : Sheet)
  | animation (op : AnimationOp)
  | menu (op : MenuOp)
  | object (op : ObjectOp)
  | space (op : Space)
  | layer (op : LayerOp)
  | drawList (op : DrawListOp)
  deriving DecidableEq, Repr

namespace Opcode

/-- The script name and operand count of an opcode. -/
def signature : Opcode → Signature
  | .binary op => op.signature
  | .unary op => op.signature
  | .check op => op.signature
  | .ifTest comparison => comparison.ifSignature
  | .whileTest comparison => comparison.whileSignature
  | .control op => op.signature
  | .rand => ⟨"Rand", 2⟩
  | .formula op => op.signature
  | .draw op => op.signature
  | .palette op => op.signature
  | .audio op => op.signature
  | .platform op => op.signature
  | .sheet op => op.signature
  | .animation op => op.signature
  | .menu op => op.signature
  | .object op => op.signature
  | .space op => op.signature
  | .layer op => op.signature
  | .drawList op => op.signature

/-- An opcode's name in scripts. -/
def name (op : Opcode) : String := op.signature.name

/-- How many operands follow an opcode. -/
def arity (op : Opcode) : Nat := op.signature.arity

/-- Every opcode, in the order of the numbers that compiled code holds. -/
def all : Array Opcode := #[
  .control .stop, .binary .assign, .binary .add, .binary .sub, .unary .inc, .unary .dec,
  .binary .mul, .binary .div, .binary .shiftRight, .binary .shiftLeft, .binary .and, .binary .or,
  .binary .xor, .binary .mod, .unary .flipSign, .check .equal, .check .greater, .check .lower,
  .check .notEqual, .ifTest .equal, .ifTest .greater, .ifTest .greaterOrEqual, .ifTest .lower,
  .ifTest .lowerOrEqual, .ifTest .notEqual, .control .elseBranch, .control .endIf,
  .whileTest .equal, .whileTest .greater, .whileTest .greaterOrEqual, .whileTest .lower,
  .whileTest .lowerOrEqual, .whileTest .notEqual, .control .loop, .control .switch,
  .control .leave, .control .endSwitch, .rand, .formula .sin, .formula .cos, .formula .sin256,
  .formula .cos256, .formula .sinChange, .formula .cosChange, .formula .aTan2,
  .formula .interpolate, .formula .interpolateXY, .sheet .load, .sheet .remove, .draw .sprite,
  .draw .spriteXY, .draw .spriteScreenXY, .draw .tintRect, .draw .numbers, .draw .actName,
  .draw .lifeIcon, .sheet .addFrame, .sheet .editFrame, .palette .load, .palette .rotate,
  .draw .screenFade, .palette .setActive, .palette .setFade, .palette .copy, .draw .clearScreen,
  .draw .spriteFX, .draw .spriteScreenFX, .animation .load, .menu .setup, .menu .addEntry,
  .menu .editEntry, .platform .loadStage, .draw .rect, .object .reset, .object .playerCollision,
  .object .createTemp, .object .bindPlayer, .object .playerTiles, .object .playerControl,
  .animation .process, .draw .objectAnimation, .draw .playerAnimation, .audio .setMusicTrack,
  .audio .playMusic, .audio .stopMusic, .audio .playSfx, .audio .stopSfx,
  .audio .setSfxAttributes, .object .tileCollision, .object .tileGrip, .platform .loadVideo,
  .platform .nextVideoFrame, .audio .playStageSfx, .audio .stopStageSfx, .unary .not,
  .draw .scene3D, .space .setIdentity, .space .multiply, .space .translate, .space .scale,
  .space .rotateX, .space .rotateY, .space .rotateZ, .space .rotateXYZ, .space .transformVertices,
  .control .callFunction, .control .endFunction, .layer .setDeformation, .object .checkTouch,
  .layer .getTile, .layer .setTile, .formula .getBit, .formula .setBit, .audio .pauseMusic,
  .audio .resumeMusic, .drawList .clear, .drawList .add, .drawList .get, .drawList .set,
  .layer .getTileInfo, .layer .copyTile, .layer .setTileInfo, .animation .getByName,
  .platform .readSave, .platform .writeSave, .platform .loadFont, .menu .loadText, .draw .text,
  .menu .getInfo, .menu .addVersion, .platform .setAchievement, .platform .setLeaderboard,
  .platform .loadOnlineMenu, .platform .engineCallback, .platform .hapticEffect]

/-- The word that stands for an opcode in compiled code. -/
def word (op : Opcode) : Word := Word.ofNat (all.idxOf op)

/-- The opcode that a word of compiled code stands for. -/
def ofWord? (w : Word) : Option Opcode := w.index?.bind (all[·]?)

/-- The opcodes that can be called by name, with their names. The opcode that ends a sub-script
cannot: only the closing line of a body emits it. -/
def callable : List (Text × Opcode) :=
  (all.toList.filter (· ≠ .control .stop)).map fun op => (op.name.toList, op)

/-- The opcode of a name, without regard to ASCII case. -/
def lookup? (name : Text) : Option Opcode :=
  (callable.find? fun entry => Text.sameName entry.1 name).map (·.2)

/-- There are 135 opcodes. -/
theorem size_all : all.size = 135 := by decide +kernel

/-- No opcode takes more than eight operands. -/
theorem arity_le (op : Opcode) : op.arity ≤ 8 := by
  cases op <;> first | (rename_i op; cases op <;> decide) | decide

end Opcode

end StageScript
