import Mathlib.Data.List.Induction
import StageScript.Proofs.Program.File
import StageScript.Proofs.Source.Numeral

/-! # The tables of a growing program
A program grows by words of code, words of the jump table, functions and types, in any order. A table that is
full refuses more and leaves the program as it is.
* **`Program.Adds`** — what an addition does, and `Program.adding` what a sequence of them leaves;
* **`Program.registered`** — the names of the types that are registered then, as they were spelled;
* **`Program.nameTables_adding`** — functions and types are found by the numbers that were given out for
  their names, in any spelling, and no table holds more than it can. -/

namespace StageScript

/-- Whether two labels of types are equal up to spaces and the case of ASCII letters. -/
def Text.sameLabel (a b : Text) : Bool := sameName (withoutSpaces a) (withoutSpaces b)

namespace Program

/-- A table has no room left. -/
def Full (p : Program) : Exhausted → Prop
  | .code => codeCapacity ≤ p.code.size
  | .jumpTable => jumpCapacity ≤ p.jumpTable.size
  | .functions => functionCapacity ≤ p.functions.size
  | .objectTypes => typeCapacity ≤ p.typeNames.size

/-! ## Additions -/

/-- Something that is added to a program. -/
inductive Addition
  | code (w : Word)
  | jump (w : Word)
  | function (name : Text)
  | type (name : Text)

namespace Addition

/-- Adds it. -/
def edit : Addition → Edit Nat
  | code w => pushCode w
  | jump w => pushJump w
  | function name => declareFunction name
  | type name => registerType name

/-- The table that it goes to. -/
def table : Addition → Exhausted
  | code _ => .code
  | jump _ => .jumpTable
  | function _ => .functions
  | type _ => .objectTypes

/-- The name of a type. -/
def typeName? : Addition → Option Text
  | type name => some name
  | _ => none

end Addition

variable {p : Program} {addition : Addition} {name spelling : Text} {index : Nat}

/-- **What an addition does**: it is given a number and the program gets one thing more, or none if it is a
function that is known; or its table is full. -/
inductive Adds (p : Program) : Addition → Except Exhausted Nat → Program → Prop
  | code {w : Word} (room : p.code.size < codeCapacity) :
      Adds p (.code w) (.ok p.code.size) { p with code := p.code.push w }
  | jump {w : Word} (room : p.jumpTable.size < jumpCapacity) :
      Adds p (.jump w) (.ok p.jumpTable.size) { p with jumpTable := p.jumpTable.push w }
  | known {name : Text} {index : Nat} (found : p.functionIndex? name = some index) :
      Adds p (.function name) (.ok index) p
  | function {name : Text} (new : p.functionIndex? name = none) (room : p.functions.size < functionCapacity) :
      Adds p (.function name) (.ok p.functions.size) { p with functions := p.functions.push ⟨name, none⟩ }
  | type {name : Text} (room : p.typeNames.size < typeCapacity) :
      Adds p (.type name) (.ok p.typeNames.size)
        { p with typeNames := p.typeNames.push (Text.withoutSpaces name) }
  | refused {addition : Addition} (full : p.Full addition.table) :
      Adds p addition (.error addition.table) p

theorem adds_edit (p : Program) (addition : Addition) :
    p.Adds addition (addition.edit p).1 (addition.edit p).2 := by
  cases addition with
  | code w =>
    by_cases room : p.code.size < codeCapacity
    · simp only [Addition.edit, pushCode, if_pos room]
      exact .code room
    · simp only [Addition.edit, pushCode, if_neg room]
      exact @Adds.refused p (.code w) (Nat.le_of_not_lt room)
  | jump w =>
    by_cases room : p.jumpTable.size < jumpCapacity
    · simp only [Addition.edit, pushJump, if_pos room]
      exact .jump room
    · simp only [Addition.edit, pushJump, if_neg room]
      exact @Adds.refused p (.jump w) (Nat.le_of_not_lt room)
  | function name =>
    cases known : p.functionIndex? name with
    | some index =>
      simp only [Addition.edit, declareFunction, known]
      exact .known known
    | none =>
      by_cases room : p.functions.size < functionCapacity
      · simp only [Addition.edit, declareFunction, known, if_pos room]
        exact .function known room
      · simp only [Addition.edit, declareFunction, known, if_neg room]
        exact @Adds.refused p (.function name) (Nat.le_of_not_lt room)
  | type name =>
    by_cases room : p.typeNames.size < typeCapacity
    · simp only [Addition.edit, registerType, if_pos room]
      exact .type room
    · simp only [Addition.edit, registerType, if_neg room]
      exact @Adds.refused p (.type name) (Nat.le_of_not_lt room)

/-- What a sequence of additions leaves of a program, whether they succeed or are refused. -/
def adding (p : Program) (additions : List Addition) : Program :=
  additions.foldl (fun p addition => (addition.edit p).2) p

@[simp] theorem adding_nil (p : Program) : p.adding [] = p := rfl

theorem adding_append (p : Program) (additions more : List Addition) :
    p.adding (additions ++ more) = (p.adding additions).adding more := List.foldl_append

theorem adding_concat (p : Program) (additions : List Addition) (addition : Addition) :
    p.adding (additions ++ [addition]) = (addition.edit (p.adding additions)).2 :=
  adding_append p additions [addition]

/-- **What each addition keeps**, sequences keep. -/
theorem adding_induction {P : Program → Prop} (begins : P p) (additions : List Addition)
    (keeps : ∀ {p addition answer q}, Adds p addition answer q → P p → P q) : P (p.adding additions) := by
  induction additions using List.reverseRecOn with
  | nil => exact begins
  | append_singleton additions addition ih =>
    rw [adding_concat]
    exact keeps (adds_edit _ addition) ih

/-! ## Room -/

/-- No table gets more than it can hold. -/
theorem Adds.roomy {answer : Except Exhausted Nat} {q : Program} (adds : p.Adds addition answer q)
    (h : p.Roomy) : q.Roomy := by
  cases adds with
  | code room => exact { h with code := Nat.le_trans (Nat.le_of_eq (Array.size_push _)) room }
  | jump room => exact { h with jumpTable := Nat.le_trans (Nat.le_of_eq (Array.size_push _)) room }
  | function _ room => exact { h with functions := Nat.le_trans (Nat.le_of_eq (Array.size_push _)) room }
  | type room => exact { h with types := Nat.le_trans (Nat.le_of_eq (Array.size_push _)) room }
  | known | refused => exact h

/-! ## Functions -/

/-- **Functions have different names**, also up to the case of letters. -/
def Distinct (p : Program) : Prop :=
  p.functions.toList.Pairwise fun f g => Text.sameName f.name g.name = false

theorem distinct_empty : Distinct {} := List.Pairwise.nil

theorem Adds.distinct {answer : Except Exhausted Nat} {q : Program} (adds : p.Adds addition answer q)
    (h : p.Distinct) : q.Distinct := by
  cases adds with
  | function new =>
    -- its name was looked up first, so that no function has it
    have other := Array.findIdx?_eq_none_iff.1 new
    rw [Distinct, Array.toList_push]
    refine List.pairwise_append.2 ⟨h, List.pairwise_singleton _ _, fun f member g last => ?_⟩
    obtain rfl := List.mem_singleton.1 last
    exact other f (Array.mem_toList_iff.1 member)
  | code | jump | known | type | refused => exact h

/-- A function is found by any spelling of its name. -/
theorem functionIndex?_congr (same : Text.sameName name spelling = true) (p : Program) :
    p.functionIndex? spelling = p.functionIndex? name := by
  simp only [functionIndex?, Text.sameName_congr same]

/-- The number of a function never changes. -/
theorem Adds.functionIndex?_eq {answer : Except Exhausted Nat} {q : Program}
    (adds : p.Adds addition answer q) (found : p.functionIndex? name = some index) :
    q.functionIndex? name = some index := by
  cases adds with
  | function =>
    rw [functionIndex?, Array.findIdx?_push, ← functionIndex?, found, Option.some_or]
  | code | jump | known | type | refused => exact found

/-- A declared function has the number that was given out. -/
theorem Adds.functionIndex?_of_ok {q : Program} (adds : p.Adds (.function name) (.ok index) q) :
    q.functionIndex? name = some index := by
  cases adds with
  | known found => exact found
  | function new =>
    rw [functionIndex?, Array.findIdx?_push, ← functionIndex?, new, Text.sameName_refl, if_pos rfl,
      Option.none_or]

/-! ## Types -/

/-- The name of another type stands at the end, if there is room. -/
theorem Adds.typeNames {answer : Except Exhausted Nat} {q : Program} (adds : p.Adds addition answer q) :
    q.typeNames.toList =
      if p.typeNames.toList.length < typeCapacity then
        p.typeNames.toList ++ addition.typeName?.toList.map Text.withoutSpaces
      else p.typeNames.toList := by
  cases adds with
  | code | jump | known | function => simp [Addition.typeName?]
  | type room =>
    rw [Array.length_toList, if_pos room, Array.toList_push]
    rfl
  | refused full =>
    cases addition with
    | code | jump | function => simp [Addition.typeName?]
    | type => rw [Array.length_toList, if_neg (Nat.not_lt_of_le full)]

/-- The labels that types are to be registered by, with that of the empty slot in front. -/
def labels (additions : List Addition) : List Text :=
  "BlankObject".toList :: additions.filterMap Addition.typeName?

/-- **The types that are registered** behind a sequence of additions, in the order of their numbers, by their
labels as they were spelled: as many as there is room for. -/
def registered (additions : List Addition) : List Text := (labels additions).take typeCapacity

theorem labels_append (additions more : List Addition) :
    labels (additions ++ more) = labels additions ++ more.filterMap Addition.typeName? := by
  rw [labels, labels, List.filterMap_append, List.cons_append]

/-- As long as there is room, all labels are those of types. -/
theorem registered_eq {additions : List Addition} (room : (registered additions).length < typeCapacity) :
    registered additions = labels additions := by
  rw [registered, List.length_take] at room
  exact List.take_of_length_le (by omega)

/-- Another type is registered if there is room. -/
theorem registered_concat (additions : List Addition) (addition : Addition) :
    registered (additions ++ [addition]) =
      if (registered additions).length < typeCapacity then registered additions ++ addition.typeName?.toList
      else registered additions := by
  have one : [addition].filterMap Addition.typeName? = addition.typeName?.toList := by
    cases h : addition.typeName? <;> simp [h]
  have short : addition.typeName?.toList.length ≤ 1 := by cases addition.typeName? <;> simp
  split
  · next room =>
    have all := registered_eq room
    rw [all] at room
    rw [registered, labels_append, one, all]
    exact List.take_of_length_le (by rw [List.length_append]; omega)
  · next full =>
    -- what stands behind the last label that is registered makes no difference
    have long : typeCapacity ≤ (labels additions).length := by
      rw [registered, List.length_take] at full
      omega
    rw [registered, labels_append, List.take_append_of_le_length long, registered]

/-- **The names of types** are the labels without their spaces. -/
theorem typeNames_adding (additions : List Addition) :
    (adding {} additions).typeNames.toList = (registered additions).map Text.withoutSpaces := by
  induction additions using List.reverseRecOn with
  | nil => decide
  | append_singleton additions addition ih =>
    rw [adding_concat, registered_concat, (adds_edit _ addition).typeNames, ih, List.length_map]
    split
    · rw [List.map_append]
    · rfl

/-- A type is found by the first label that is the same. -/
theorem typeIndex?_adding (additions : List Addition) (label : Text) :
    (adding {} additions).typeIndex? label =
      (registered additions).findIdx? fun name => Text.sameLabel name label := by
  rw [typeIndex?, ← (adding {} additions).typeNames.toArray_toList, List.findIdx?_toArray,
    typeNames_adding, List.findIdx?_map]
  rfl

/-- A type that is registered has its label at the number that was given out. -/
theorem getElem?_registered {done : List Addition} {q : Program} (rest : List Addition)
    (adds : (adding {} done).Adds (.type name) (.ok index) q) :
    (registered (done ++ .type name :: rest))[index]? = some name := by
  obtain ⟨room, rfl⟩ : (adding {} done).typeNames.size < typeCapacity ∧
      index = (adding {} done).typeNames.size := by
    cases adds with
    | type room => exact ⟨room, rfl⟩
  rw [← Array.length_toList, typeNames_adding, List.length_map] at room ⊢
  have all := registered_eq room
  rw [all] at room ⊢
  rw [registered, labels_append, List.getElem?_take_of_lt room,
    List.getElem?_append_right (Nat.le_refl _), Nat.sub_self]
  rfl

/-! ## All tables -/

/-- **What holds of the tables of a program** behind a sequence of additions. -/
structure NameTables (additions : List Addition) (p : Program) : Prop where
  distinct : p.Distinct
  /-- The number that a declaration gave out for a function is that of every spelling of its name, and
  declarations to come give out the same. -/
  declared : ∀ done name rest index, additions = done ++ .function name :: rest →
    (declareFunction name (adding {} done)).1 = .ok index →
      ∀ spelling, Text.sameName name spelling = true →
        p.functionIndex? spelling = some index ∧ declareFunction spelling p = (.ok index, p)
  /-- The number that was given out for a type is where its label stands. -/
  given : ∀ done name rest index, additions = done ++ .type name :: rest →
    (registerType name (adding {} done)).1 = .ok index → (registered additions)[index]? = some name
  /-- A type is found by every spelling of its label, and has the number of the first one. -/
  typeIndex : ∀ label index, p.typeIndex? label = some index ↔
    (∃ name, (registered additions)[index]? = some name ∧ Text.sameLabel name label = true) ∧
      ∀ earlier name, earlier < index → (registered additions)[earlier]? = some name →
        Text.sameLabel name label = false
  room : p.Roomy
  /-- An addition is refused only if its table is full, and leaves the program as it is. -/
  refused : ∀ (addition : Addition) table, (addition.edit p).1 = .error table →
    table = addition.table ∧ p.Full table ∧ (addition.edit p).2 = p

theorem roomy_empty : Roomy {} where
  code := Nat.zero_le _
  jumpTable := Nat.zero_le _
  functions := Nat.zero_le _
  types := by decide

/-- **The tables stay in order**, whatever is added to a new program. -/
theorem nameTables_adding (additions : List Addition) : NameTables additions (adding {} additions) where
  distinct := adding_induction (P := Distinct) distinct_empty additions Adds.distinct
  declared := by
    intro done name rest index split answer spelling same
    have declared : (declareFunction name (adding {} done)).2.functionIndex? name = some index := by
      have adds := adds_edit (adding {} done) (.function name)
      rw [Addition.edit, answer] at adds
      exact adds.functionIndex?_of_ok
    -- What is found right behind the addition is found behind all that follow.
    have later : (adding {} additions).functionIndex? name = some index := by
      rw [split, adding_append]
      exact adding_induction (P := fun p => p.functionIndex? name = some index) declared rest
        fun adds => adds.functionIndex?_eq
    rw [← functionIndex?_congr same] at later
    exact ⟨later, declareFunction_of_functionIndex? later⟩
  given := by
    rintro done name rest index rfl answer
    have adds := adds_edit (adding {} done) (.type name)
    rw [Addition.edit, answer] at adds
    exact getElem?_registered rest adds
  typeIndex := by
    intro label index
    rw [typeIndex?_adding, List.findIdx?_eq_some_iff_getElem]
    constructor
    · rintro ⟨inside, same, first⟩
      refine ⟨⟨_, List.getElem?_eq_getElem inside, same⟩, fun earlier name before here => ?_⟩
      obtain ⟨-, rfl⟩ := List.getElem?_eq_some_iff.1 here
      exact Bool.eq_false_iff.2 (first earlier before)
    · rintro ⟨⟨name, here, same⟩, first⟩
      obtain ⟨inside, rfl⟩ := List.getElem?_eq_some_iff.1 here
      refine ⟨inside, same, fun earlier before => Bool.eq_false_iff.1 ?_⟩
      exact first earlier _ before (List.getElem?_eq_getElem _)
  room := adding_induction (P := Roomy) roomy_empty additions Adds.roomy
  refused := by
    intro addition table answer
    have adds := adds_edit (adding {} additions) addition
    rw [answer] at adds
    generalize (addition.edit (adding {} additions)).2 = q at adds ⊢
    cases adds with
    | refused full => exact ⟨rfl, full, rfl⟩

/-- A function and a type, looked up in other spellings. -/
theorem nameTables_adding_shield :
    let p := adding {} [.function "Spawn".toList, .type "Blue Shield".toList, .type "BLUESHIELD".toList]
    p.functionIndex? "SPAWN".toList = some 0 ∧ p.typeIndex? "blue shield".toList = some 1 := by
  intro p
  have tables := nameTables_adding
    [.function "Spawn".toList, .type "Blue Shield".toList, .type "BLUESHIELD".toList]
  have declared : (declareFunction "Spawn".toList (adding {} [])).1 = .ok 0 := by
    simp [declareFunction, functionIndex?, functionCapacity]
  have function := tables.declared [] "Spawn".toList _ 0 rfl declared "SPAWN".toList (by decide)
  refine ⟨function.1, (tables.typeIndex _ _).2 ⟨⟨"Blue Shield".toList, rfl, by decide⟩, ?_⟩⟩
  intro earlier name before here
  obtain rfl : earlier = 0 := by omega
  obtain rfl : name = "BlankObject".toList := (Option.some.inj here).symm
  decide

end Program

end StageScript
