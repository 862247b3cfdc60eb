import StageScript.Proofs.Compiler.Step
import StageScript.Proofs.Compiler.Growth

/-! # What names stand for
An operand goes through the names of the file before it means anything.
* **`Compiler.Unnamed`** — no name of a compiler is a given text;
* **`Compiler.Unnamed.substitute_eq`** — an operand of such a text keeps it, unless it asks for the
  number of a type;
* **`Compiler.Knows`** — one compiler knows the names of another one, as it does further on in a file. -/

namespace StageScript

open Stepwise

namespace Compiler

variable {c c' : Compiler} {text : Text}

/-! ## Texts that are no names -/

/-- No alias, no global and no function of a compiler has the text as its name. -/
structure Unnamed (c : Compiler) (text : Text) : Prop where
  aliases : ∀ a ∈ c.aliases, Text.sameName a.name text = false
  globals : ∀ name ∈ c.globals, Text.sameName name text = false
  functions : ∀ f ∈ c.program.functions, Text.sameName f.name text = false

/-- Aliases of other names leave an operand as it is. -/
theorem foldl_applyTo_eq {aliases : List Alias} {o : Operand}
    (other : ∀ a ∈ aliases, Text.sameName a.name o.base = false) :
    aliases.foldl (fun o a => a.applyTo o) o = o := by
  induction aliases with
  | nil => rfl
  | cons a rest ih =>
    have different : Text.sameName o.base a.name = false := by
      rw [Text.sameName_comm]
      exact other a List.mem_cons_self
    have kept : a.applyTo o = o := by
      rw [Alias.applyTo, different, if_neg Bool.false_ne_true]
    rw [List.foldl_cons, kept]
    exact ih fun a member => other a (List.mem_cons_of_mem _ member)

theorem substituteGlobal_eq {o : Operand}
    (other : ∀ name ∈ c.globals, Text.sameName name o.base = false) :
    substituteGlobal c.globals o = o := by
  have none_ : c.globals.findIdx? (fun name => Text.sameName name o.base) = none :=
    List.findIdx?_eq_none_iff.2 other
  rw [substituteGlobal, none_]

theorem substituteFunction_eq {o : Operand}
    (other : ∀ f ∈ c.program.functions, Text.sameName f.name o.base = false) :
    substituteFunction c.program o = o := by
  have none_ : c.program.functionIndex? o.base = none := Array.findIdx?_eq_none_iff.2 other
  rw [substituteFunction, none_]

theorem substituteType_eq {p : Program} {o : Operand}
    (other : Text.sameName o.base "TypeName".toList = false) : substituteType p o = o := by
  rw [substituteType, other, if_neg Bool.false_ne_true]

/-- **An operand whose text is no name** keeps it, unless it asks for the number of a type. -/
theorem Unnamed.substitute_eq {o : Operand} (h : c.Unnamed o.base) :
    c.substitute o = substituteType c.program o := by
  rw [substitute, foldl_applyTo_eq h.aliases, substituteGlobal_eq h.globals,
    substituteFunction_eq h.functions]

/-- No numeral asks for the number of a type. -/
theorem sameName_ofNat_typeName (n : Nat) :
    Text.sameName (Numeral.ofNat n) "TypeName".toList = false := by
  rw [Text.sameName_comm, ← Bool.not_eq_true]
  intro same
  have spelled := Numeral.eq_of_sameName_ofNat same
  have read : Numeral.natural? "TypeName".toList = none := by decide +kernel
  rw [spelled, Numeral.natural?_ofNat] at read
  cases read

/-- **A numeral that is no name** stands for itself. -/
theorem Unnamed.substitute_ofNat {n : Nat} (h : c.Unnamed (Numeral.ofNat n)) :
    c.substitute ⟨Numeral.ofNat n, none⟩ = ⟨Numeral.ofNat n, none⟩ :=
  h.substitute_eq.trans (substituteType_eq (sameName_ofNat_typeName n))

/-! ## Names that are known further on -/

/-- A compiler knows every name that another one knows. -/
structure Knows (c' c : Compiler) : Prop where
  aliases : c.aliases ⊆ c'.aliases
  globals : c'.globals = c.globals
  functions : ∀ f ∈ c.program.functions, ∃ f' ∈ c'.program.functions, f'.name = f.name

theorem Knows.refl (c : Compiler) : c.Knows c where
  aliases := List.Subset.refl _
  globals := rfl
  functions f member := ⟨f, member, rfl⟩

theorem Knows.trans {c'' : Compiler} (h' : c''.Knows c') (h : c'.Knows c) : c''.Knows c where
  aliases := List.Subset.trans h.aliases h'.aliases
  globals := h'.globals.trans h.globals
  functions f member := by
    obtain ⟨f', member', same⟩ := h.functions f member
    obtain ⟨f'', member'', same'⟩ := h'.functions f' member'
    exact ⟨f'', member'', same'.trans same⟩

/-- What is no name further on was none before. -/
theorem Knows.unnamed (h : c'.Knows c) (unnamed : c'.Unnamed text) : c.Unnamed text where
  aliases a member := unnamed.aliases a (h.aliases member)
  globals name member := unnamed.globals name (h.globals ▸ member)
  functions f member := by
    obtain ⟨f', member', same⟩ := h.functions f member
    exact same ▸ unnamed.functions f' member'

theorem Grows.knows (h : c.Grows c') : c'.Knows c where
  aliases := h.aliases ▸ List.Subset.refl _
  globals := h.globals
  functions f member := ⟨f, h.functions ▸ member, rfl⟩

theorem knows_declared (c : Compiler) (name : Text) : (c.declared name).Knows c where
  aliases := List.Subset.refl _
  globals := rfl
  functions f member := ⟨f, Array.mem_push_of_mem _ member, rfl⟩

/-- An entry point of a function does not rename it. -/
theorem exists_setFunctionEntry {p : Program} {index : Nat} {entry : Option EntryPoint}
    {f : Function} (member : f ∈ p.functions) :
    ∃ f' ∈ (p.setFunctionEntry index entry).functions, f'.name = f.name := by
  obtain ⟨i, inside, rfl⟩ := Array.mem_iff_getElem.1 member
  have inside_ : i < (p.setFunctionEntry index entry).functions.size := by
    rw [Program.setFunctionEntry, Array.size_modify]
    exact inside
  refine ⟨(p.setFunctionEntry index entry).functions[i], Array.getElem_mem _, ?_⟩
  simp only [Program.setFunctionEntry, Array.getElem_modify]
  split <;> rfl

end Compiler

open Compiler

/-- **A line outside bodies** forgets no name. -/
theorem Outside.knows {c c' : Compiler} {type : Nat} {text : Text} (h : Outside c type text c') : c'.Knows c := by
  have knows_of {known : Compiler} {name : Text} (same : known = c ∨ known = c.declared name) :
      known.Knows c := by
    rcases same with rfl | rfl
    · exact .refl _
    · exact knows_declared c name
  cases h with
  | named => exact ⟨List.subset_append_left .., rfl, fun f member => ⟨f, member, rfl⟩⟩
  | sub =>
    obtain ⟨-, -, functions⟩ := Program.setEntry_eq c.begun.program type _ (some c.begun.body.entry)
    exact ⟨List.Subset.refl _, rfl, fun f member => ⟨f, functions ▸ member, rfl⟩⟩
  | declare _ _ _ known => exact knows_of known
  | @define name index known _ _ _ same =>
    have begun : (known.begun.withProgram
        (·.setFunctionEntry index (some known.begun.body.entry))).Knows known :=
      ⟨List.Subset.refl _, rfl, fun f member => exists_setFunctionEntry member⟩
    exact begun.trans (knows_of same)
  | none => exact .refl _

end StageScript
