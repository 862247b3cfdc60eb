import StageScript.Word

/-! # Positions in lists of a fixed length
A list of a fixed length is read and changed at positions that lie in it.
* `Indexed.place?` and `Indexed.position?` are the positions that numbers and words name;
* `Indexed.put` changes the element at a position;
* `Indexed.at?` and `Indexed.update?` read and change the element that a word names. -/

namespace StageScript

namespace Indexed

variable {α : Type} {n : Nat}

/-- The position that a number names. -/
def place? (n number : Nat) : Option (Fin n) := if h : number < n then some ⟨number, h⟩ else none

/-- The position that a word names. -/
def position? (n : Nat) (index : Word) : Option (Fin n) := index.index?.bind (place? n)

/-- Puts an element at a position. -/
def put (xs : Vector α n) (i : Fin n) (x : α) : Vector α n := xs.set i.val x i.isLt

/-- The element that a word names. -/
def at? (xs : Vector α n) (index : Word) : Option α := (position? n index).map xs.get

/-- Changes the element that a word names. -/
def update? (xs : Vector α n) (index : Word) (change : α → α) : Option (Vector α n) :=
  (position? n index).map fun i => put xs i (change (xs.get i))

theorem get_eq_getElem (xs : Vector α n) (i : Fin n) : xs.get i = xs[i.val] := rfl

@[simp] theorem get_ofFn (f : Fin n → α) (i : Fin n) : (Vector.ofFn f).get i = f i := by
  simp [get_eq_getElem]

/-- Only the element at the position changes. -/
@[simp] theorem get_put (xs : Vector α n) (i j : Fin n) (x : α) :
    (put xs i x).get j = if i = j then x else xs.get j := by
  simp only [put, get_eq_getElem, Vector.getElem_set, Fin.ext_iff]

/-- Changing and reading the same element. -/
theorem at?_update? {xs ys : Vector α n} {index : Word} {change : α → α}
    (h : update? xs index change = some ys) : at? ys index = (at? xs index).map change := by
  obtain ⟨i, hi, rfl⟩ := Option.map_eq_some_iff.1 h
  simp [at?, hi]

end Indexed

end StageScript
