import StageScript.Json.Basic

/-! # Records in JSON
A record is an object whose entries are named fields, or an array of its fields in order.
* `Json.record?` gives the values of a record's fields;
* `Json.optional?` and `Json.required?` read one of them. -/

namespace StageScript

namespace Json

/-- The value that entries give for a name, as long as only one does. -/
def field? (entries : List (Option String × Json)) (name : String) : Option (Option Json) :=
  match entries.filter fun entry => entry.1 == some name with
  | [] => some none
  | [entry] => some (some entry.2)
  | _ => none

/-- The values of a record's fields, in the order of their names. Entries of other names do not
matter, but every name has to be text and no field may be given twice. An array may leave out the
last fields. -/
def record? (names : List String) : Json → Option (List (Option Json))
  | .object entries =>
    if entries.all (·.1.isSome) then names.mapM (field? entries) else none
  | .array items =>
    if items.length ≤ names.length then
      some (items.map some ++ List.replicate (names.length - items.length) none)
    else none
  | _ => none

/-- Reads a field that may be missing. -/
def optional? {α : Type} (read : Json → Option α) (missing : α) (fields : List (Option Json))
    (place : Nat) : Option α :=
  match fields[place]? with
  | some (some value) => read value
  | _ => some missing

/-- Reads a field that has to be there. -/
def required? {α : Type} (read : Json → Option α) (fields : List (Option Json)) (place : Nat) :
    Option α :=
  fields[place]?.join.bind read

/-- Reads an array of values of one type. -/
def listOf? {α : Type} (read : Json → Option α) (value : Json) : Option (List α) :=
  value.array?.bind (·.mapM read)

end Json

end StageScript
