import StageScript.Source.Operand

/-! # Calls
Every instruction line is brought into the form `Name(operand,operand)` before it is compiled.
* `Call.split` reads that form; commas, brackets and parentheses inside quotes separate nothing,
  and text behind the closing parenthesis is not looked at. -/

namespace StageScript

/-- A name and its operands. -/
structure Call where
  /-- The text in front of the opening parenthesis. -/
  name : Text
  /-- The operands in order. -/
  operands : List Operand := []
  deriving DecidableEq, Repr

namespace Call

/-- Closes an operand list. A list without a comma and without any text has no operand. -/
def closeOperands (done : List Operand) (last : Operand) : List Operand :=
  if done.isEmpty && last == {} then [] else (last :: done).reverse

/-- Reads operands up to the closing parenthesis or the end of the text. `done` holds those that are
complete, latest first. -/
def readOperands : Text → (quoted : Bool) → Operand.Draft → (done : List Operand) → List Operand
  | [], _, draft, done => closeOperands done draft.finish
  | c :: rest, true, draft, done => readOperands rest (c ≠ '"') (draft.pushBase c) done
  | c :: rest, false, draft, done =>
    if c = '"' then readOperands rest true (draft.pushBase c) done
    else if c = ',' then readOperands rest false {} (draft.finish :: done)
    else if c = ')' then closeOperands done draft.finish
    else if c = '[' then readOperands rest false draft.openIndex done
    else if c = ']' then readOperands rest false draft.closeIndex done
    else readOperands rest false (draft.push c) done

/-- Splits a line into its name and operands. -/
def split (text : Text) : Call where
  name := text.takeWhile (· ≠ '(')
  operands :=
    match text.dropWhile (· ≠ '(') with
    | [] => []
    | _ :: rest => readOperands rest false {} []

/-- A text without an opening parenthesis is a name without operands. -/
theorem split_of_not_mem {text : Text} (h : '(' ∉ text) : split text = ⟨text, []⟩ := by
  have shape : text.takeWhile (· ≠ '(') = text ∧ text.dropWhile (· ≠ '(') = [] := by
    induction text with
    | nil => simp
    | cons c rest ih =>
      simp only [List.mem_cons, not_or] at h
      simpa [Ne.symm h.1] using ih h.2
  simp only [split, shape.1, shape.2]

end Call

end StageScript
