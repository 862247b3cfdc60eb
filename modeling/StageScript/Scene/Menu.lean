import StageScript.Word

/-! # Text menus
A menu is a list of rows, some of them highlighted, with what the host needs to lay it out. -/

namespace StageScript

/-- The most rows of a menu. -/
def menuRowCapacity : Nat := 0x200

/-- A row of a menu. -/
structure MenuRow where
  text : String := ""
  highlighted : Bool := false
  deriving DecidableEq, Repr

/-- A menu. -/
structure TextMenu where
  rows : Array MenuRow := #[]
  visibleRows : Word := 0
  selectionCount : Word := 0
  alignment : Word := 0
  selection1 : Word := 0
  selection2 : Word := 0
  deriving DecidableEq, Repr

namespace TextMenu

/-- Whether a menu has room for another row. -/
def hasRoom (m : TextMenu) : Bool := m.rows.size < menuRowCapacity

/-- Adds a row at the end; a full menu stays as it is. -/
def push (m : TextMenu) (row : MenuRow) : TextMenu :=
  if m.hasRoom then { m with rows := m.rows.push row } else m

/-- Changes a row, or adds it right behind the last one. -/
def edit? (m : TextMenu) (place : Nat) (row : MenuRow) : Option TextMenu :=
  if place < m.rows.size then some { m with rows := m.rows.setIfInBounds place row }
  else if place = m.rows.size ∧ m.hasRoom then some (m.push row)
  else none

/-- A menu keeps within its capacity when a row is added. -/
theorem size_rows_push_le {m : TextMenu} (row : MenuRow) (h : m.rows.size ≤ menuRowCapacity) :
    (m.push row).rows.size ≤ menuRowCapacity := by
  unfold push hasRoom
  split
  · rename_i room
    simp only [decide_eq_true_eq] at room
    simp only [Array.size_push]
    omega
  · exact h

end TextMenu

end StageScript
