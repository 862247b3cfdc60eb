import Mathlib.Data.List.Forall2
import StageScript.Proofs.Source.OperandForm

/-! # Calls read as they are written
An operand with an index may have its brackets anywhere in the name, and whatever stands between quotes
belongs to the operand.
* `Operand.Renders` — the texts by which an operand may be written;
* `Call.render` — a name with the texts of operands, put together as a call;
* **`Call.readOperands_render`** — the operands of a list are read one after another;
* **`Call.split_render`** — a call is split into the name and the operands that were written. -/

namespace StageScript

/-! ## Operands -/

/-- **The texts by which an operand may be written.** Plain characters are all but quotes, commas,
closing parentheses and brackets. -/
inductive Operand.Renders : Operand → Text → Prop
  /-- A name or a number stands for itself. -/
  | bare {base : Text} (written : base ≠ []) (plain : ∀ c ∈ base, Call.IsPlain c) :
      Renders { base } base
  /-- Between quotes every other character may stand. -/
  | quoted {content : Text} (noQuote : '"' ∉ content) :
      Renders { base := OperandForm.quote content } (OperandForm.quote content)
  /-- The brackets of an index stand behind the name, in front of it or in it. -/
  | indexed {front index back : Text} (written : front ++ back ≠ []) (indexed : index ≠ [])
      (plainName : ∀ c ∈ front ++ back, Call.IsPlain c) (plainIndex : ∀ c ∈ index, Call.IsPlain c) :
      Renders { base := front ++ back, index := some index } (front ++ '[' :: (index ++ ']' :: back))

namespace Operand.Renders

variable {o : Operand} {text : Text}

/-- **An operand is read from each of its texts**, in front of a comma and at the end of a call. -/
theorem reads (h : Renders o text) : Call.Reads text o := by
  cases h with
  | bare _ plain => exact Call.reads_plain plain
  | quoted noQuote => exact Call.reads_quote noQuote
  | indexed _ some_ plainName plainIndex =>
    apply Call.reads_index some_ _ plainIndex
    · intro c member
      exact plainName c (List.mem_append_right _ member)
    · intro c member
      exact plainName c (List.mem_append_left _ member)

/-- What is written is not the operand without any text, which a call leaves out. -/
theorem ne_empty (h : Renders o text) : o ≠ {} := by
  cases h with
  | bare written =>
    intro empty
    exact written (congrArg Operand.base empty)
  | quoted =>
    intro empty
    exact List.cons_ne_nil _ _ (congrArg Operand.base empty)
  | indexed written =>
    intro empty
    exact written (congrArg Operand.base empty)

end Operand.Renders

/-! ## Calls -/

namespace Call

/-- A call with the texts of its operands. -/
def render (name : Text) (operands : List Text) : Text :=
  name ++ '(' :: ([','].intercalate operands ++ [')'])

/-- The last operand of a list is kept if there is anything of it. -/
theorem closeOperands_of_ne {o : Operand} (done : List Operand) (written : o ≠ {}) :
    closeOperands done o = done.reverse ++ [o] := by
  have kept : (done.isEmpty && o == {}) ≠ true := by simp [written]
  rw [closeOperands, if_neg kept, List.reverse_cons]

/-- **The operands of a list are read one after another**, behind those that are complete. -/
theorem readOperands_render {operands : List Operand} {texts : List Text} (some_ : operands ≠ [])
    (rendered : List.Forall₂ Operand.Renders operands texts) (done : List Operand) :
    readOperands ([','].intercalate texts ++ [')']) false {} done = done.reverse ++ operands := by
  induction rendered generalizing done with
  | nil => exact absurd rfl some_
  | @cons o text operands texts first others ih =>
    cases others with
    | nil =>
      -- the parenthesis ends the last operand
      rw [List.intercalate_singleton, first.reads.closing, closeOperands_of_ne done first.ne_empty]
    | cons second others =>
      -- a comma ends each operand in front of it
      rw [List.intercalate_cons_cons, List.append_assoc, List.append_assoc, List.singleton_append,
        first.reads.comma, ih (List.cons_ne_nil _ _), List.reverse_cons, List.append_assoc,
        List.singleton_append]

/-- **A call is read as it was written**: splitting it gives back its name and its operands, however each
of them was written. -/
theorem split_render {name : Text} {operands : List Operand} {texts : List Text}
    (noParenthesis : '(' ∉ name) (rendered : List.Forall₂ Operand.Renders operands texts) :
    split (render name texts) = ⟨name, operands⟩ := by
  rw [render, split_eq noParenthesis]
  congr 1
  cases rendered with
  | nil => rfl
  | cons first others => exact readOperands_render (List.cons_ne_nil _ _) (.cons first others) []

theorem split_render_bracketed :
    split "LoadVideo(\"a,b(c)[d].ogv\",Object[(+1].XPos,-5)".toList =
      ⟨"LoadVideo".toList, [{ base := "\"a,b(c)[d].ogv\"".toList },
        { base := "Object.XPos".toList, index := some "(+1".toList }, { base := "-5".toList }]⟩ := by
  have plain {text : Text} (all : text.all (decide <| IsPlain ·) = true) : ∀ c ∈ text, IsPlain c :=
    Text.forall_mem_of_all all
  have written : render "LoadVideo".toList
      ["\"a,b(c)[d].ogv\"".toList, "Object[(+1].XPos".toList, "-5".toList] =
        "LoadVideo(\"a,b(c)[d].ogv\",Object[(+1].XPos,-5)".toList := by decide
  rw [← written]
  apply split_render
  · decide
  · refine .cons ?_ (.cons ?_ (.cons ?_ .nil))
    · exact @Operand.Renders.quoted "a,b(c)[d].ogv".toList (by decide)
    · exact @Operand.Renders.indexed "Object".toList "(+1".toList ".XPos".toList (by decide)
        (by decide) (plain (by decide)) (plain (by decide))
    · exact .bare (by decide) (plain (by decide))

end Call

end StageScript
