import StageScript.Machine.Basic
import StageScript.Opcode.Basic
import StageScript.Text.Utf8

/-! # Menu instructions
`MenuOp.change` applies a change to a menu, `MenuOp.information` answers questions about one, and
`MenuOp.perform` carries out an instruction. -/

namespace StageScript

namespace MenuOp

open Indexed

/-- Changes the menu of a number; the subject is named where there is no such menu. -/
def change (subject : String) (number : Word) (f : TextMenu → TextMenu) : Exec Unit :=
  match position? 2 number with
  | some k => modify fun m => m.modifyScene fun s => { s with menus := put s.menus k (f (s.menus.get k)) }
  | none => outOfRange subject number

/-- Changes a row of a menu, or adds it behind the last one. -/
def editRow (o : Operands) (text : String) : Exec Unit := do
  let s ← currentScene
  let edited := do
    let k ← position? 2 o[0]
    let menu ← (s.menus.get k).edit? (← o[2].index?) ⟨text, o[3] ≠ 0⟩
    return { s with menus := put s.menus k menu }
  match edited with
  | some scene => modify ({ · with scene })
  | none => outOfRange "EditMenuEntry" o[2]

/-- Fills a menu with the lines of a text file, as far as they fit. Nothing happens where the host
does not have the file, or where there is no such menu. -/
def loadRows (m : Machine) : Machine :=
  let o := m.registers.operands
  let mapCode := o[2] ≠ 0
  let answer := m.host.lines m.history m.scriptText mapCode
  let m := m.call (.loadText m.scriptText mapCode)
  match answer, position? 2 o[0] with
  | some lines, some k =>
    let rows := ((lines.take menuRowCapacity).map fun text => (⟨text, false⟩ : MenuRow)).toArray
    m.modifyScene fun s => { s with menus := put s.menus k { s.menus.get k with rows } }
  | _, _ => m

/-- The byte at a word of a row's text. -/
def byteAt? (row : MenuRow) (place : Word) : Option Word :=
  place.index?.bind fun k => ((Utf8.encode row.text.toList)[k]?).map Word.ofByte

/-- An answer about a menu: of kind 0 a byte of a row, of kind 1 the length of a row in bytes, of kind
2 the number of rows. What does not exist is zero. -/
def information (s : Scene) (o : Operands) : Word :=
  match position? 2 o[1] with
  | none => 0
  | some k =>
    let menu := s.menus.get k
    let row? := o[3].index?.bind (menu.rows[·]?)
    match o[2].toInt with
    | 0 => (row?.bind (byteAt? · o[4])).getD 0
    | 1 => row?.elim 0 fun row => Word.ofNat (Utf8.size row.text.toList)
    | 2 => Word.ofNat menu.rows.size
    | _ => 0

/-- Carries out a menu instruction. -/
def perform (op : MenuOp) : Exec Unit := do
  let o ← operands
  match op with
  | .setup =>
    change "SetupMenu" o[0] fun _ => { visibleRows := o[1], selectionCount := o[2], alignment := o[3] }
  | .addEntry =>
    let text := (← get).scriptText
    change "AddMenuEntry" o[0] (·.push ⟨text, o[2] ≠ 0⟩)
  | .editEntry => editRow o (← get).scriptText
  | .loadText => modify loadRows
  | .getInfo => modify fun m => m.setOperand 0 (information m.scene o)
  | .addVersion =>
    let version := (← currentScene).engine.version
    change "GetVersionNumber" o[0] (·.push ⟨version, o[1] ≠ 0⟩)

end MenuOp

end StageScript
