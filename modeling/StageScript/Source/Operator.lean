import StageScript.Opcode.Basic

/-! # Infix operators
The tokens of comparisons and assignments.
* `Operator.comparisons` and `Operator.assignments` are the two tables;
* `Operator.find?` looks for the tokens of a table outside quoted strings. A later entry found
  anywhere in the line overrides an earlier one, so that `>=` wins over `>`. -/

namespace StageScript

namespace Operator

/-- The comparison tokens, in the order in which a later one overrides an earlier one. -/
def comparisons : List (String × Comparison) := [
  ("==", .equal), (">", .greater), (">=", .greaterOrEqual), ("<", .lower), ("<=", .lowerOrEqual),
  ("!=", .notEqual)]

/-- The assignment tokens, in the order in which a later one overrides an earlier one. -/
def assignments : List (String × Opcode) := [
  ("=", .binary .assign), ("+=", .binary .add), ("-=", .binary .sub), ("++", .unary .inc),
  ("--", .unary .dec), ("*=", .binary .mul), ("/=", .binary .div), (">>=", .binary .shiftRight),
  ("<<=", .binary .shiftLeft), ("&=", .binary .and), ("|=", .binary .or), ("^=", .binary .xor),
  ("%=", .binary .mod)]

/-- An operator found in a line. -/
structure Match (α : Type) where
  /-- What the token means. -/
  meaning : α
  /-- The text in front of the token. -/
  before : Text
  /-- The token's characters. -/
  token : Text
  /-- The text behind the token. -/
  after : Text
  deriving DecidableEq, Repr

/-- The first place of one token. -/
def occurrence? {α : Type} (text : Text) (entry : String × α) : Option (Match α) :=
  let token := entry.1.toList
  (Text.cutAt? token text).map fun (before, rest) => ⟨entry.2, before, token, rest.drop token.length⟩

/-- The match of the last entry of a table whose token occurs in the line. -/
def find? {α : Type} (table : List (String × α)) (text : Text) : Option (Match α) :=
  table.foldl (fun found entry => (occurrence? text entry).or found) none

/-- A table finds nothing exactly when none of its tokens occurs. -/
theorem find?_eq_none_iff {α : Type} {table : List (String × α)} {text : Text} :
    find? table text = none ↔ ∀ entry ∈ table, occurrence? text entry = none := by
  suffices h : ∀ start : Option (Match α),
      table.foldl (fun found entry => (occurrence? text entry).or found) start = none ↔
        start = none ∧ ∀ entry ∈ table, occurrence? text entry = none by
    rw [find?, h none]; simp
  induction table with
  | nil => simp
  | cons entry table ih =>
    intro start
    simp only [List.foldl_cons, ih, Option.or_eq_none_iff, List.mem_cons, forall_eq_or_imp]
    constructor
    · rintro ⟨⟨a, b⟩, c⟩; exact ⟨b, a, c⟩
    · rintro ⟨b, a, c⟩; exact ⟨⟨a, b⟩, c⟩

end Operator

end StageScript
