import StageScript.Text.Basic

/-! # Operands
An operand is a name with an optional index in brackets, `Object[+1].XPos`. The brackets may stand
anywhere in the name; the name is what stands outside them.
* `Operand.split` reads one operand;
* `Operand.Draft` is an operand that is still being read, shared with the reader of calls. -/

namespace StageScript

/-- One argument of a call: its name and the text between its brackets, which is never empty. -/
structure Operand where
  /-- The text outside the brackets. -/
  base : Text := []
  /-- The text inside the brackets, if there is any. -/
  index : Option Text := none
  deriving DecidableEq, Repr

namespace Operand

/-- An operand that is being read. Both texts are held latest character first. -/
structure Draft where
  /-- The name so far. -/
  base : Text := []
  /-- The index so far, from the first opening bracket on. -/
  index : Option Text := none
  /-- Whether a bracket is open. -/
  inIndex : Bool := false

namespace Draft

/-- Adds a character to the name. -/
def pushBase (d : Draft) (c : Char) : Draft := { d with base := c :: d.base }

/-- Adds a character to the part that is being read. -/
def push (d : Draft) (c : Char) : Draft :=
  if d.inIndex then { d with index := some (c :: d.index.getD []) } else d.pushBase c

/-- Opens a bracket; a second bracket goes on with the same index. -/
def openIndex (d : Draft) : Draft := { d with index := some (d.index.getD []), inIndex := true }

/-- Closes a bracket. -/
def closeIndex (d : Draft) : Draft := { d with inIndex := false }

/-- The operand read; empty brackets count as none. -/
def finish (d : Draft) : Operand where
  base := d.base.reverse
  index := (d.index.filter (!·.isEmpty)).map List.reverse

@[simp] theorem finish_default : finish {} = {} := rfl

end Draft

/-- Reads one character of a lone operand. A bracket that is already open keeps further opening
brackets in its index, and a closing bracket outside an index belongs to the name. -/
def splitStep (d : Draft) (c : Char) : Draft :=
  if c = '[' && !d.inIndex then d.openIndex
  else if c = ']' && d.inIndex then d.closeIndex
  else d.push c

/-- Splits `Name[index]rest` into the name `Namerest` and the index. -/
def split (text : Text) : Operand := (text.foldl splitStep {}).finish

@[simp] theorem split_nil : split [] = {} := rfl

end Operand

end StageScript
