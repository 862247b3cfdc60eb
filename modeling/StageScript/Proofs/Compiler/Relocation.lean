import StageScript.Compiler.File
import StageScript.Proofs.Compiler.Effect

/-! # Compiling behind another program
A step of compilation does the same wherever the code and the jump table end in front of it.
* `Relocates` — a step does at another place what it does here, as long as everything fits;
* **`Program.behind`**, **`Compiler.behind`** — what is added, put behind a program;
* **`Compiler.relocates_emitCall`** — a call is compiled behind a program as by itself. -/

namespace StageScript

/-! ## Steps that can be moved -/

/-- **A step does the same at another place.** `place` puts a state there and `move` an answer; the
step may end early there because something is full. The states are `sound` all the while. -/
structure Relocates {ε σ α β : Type} (full : ε → Bool) (place : σ → σ) (sound : σ → Prop)
    (move : α → β) (x : ExceptT ε (StateM σ) α) (x' : ExceptT ε (StateM σ) β) : Prop where
  runs : ∀ {s}, sound s →
    (∃ e s', x' (place s) = (.error e, place s') ∧ full e = true ∧ sound s') ∨
      x' (place s) = ((x s).1.map move, place (x s).2) ∧ sound (x s).2

namespace Relocates

open Stepwise

variable {ε σ α β γ δ : Type} {full : ε → Bool} {place : σ → σ} {sound : σ → Prop}

theorem pure (move : α → β) (a : α) :
    Relocates full place sound move (pure a) (pure (move a)) :=
  ⟨fun good => .inr ⟨rfl, good⟩⟩

theorem throw (move : α → β) (e : ε) :
    Relocates full place sound move (throw e) (throw e) :=
  ⟨fun good => .inr ⟨rfl, good⟩⟩

/-- Steps one after the other. -/
theorem bind {move : α → β} {move' : γ → δ} {x : ExceptT ε (StateM σ) α}
    {x' : ExceptT ε (StateM σ) β} {f : α → ExceptT ε (StateM σ) γ}
    {f' : β → ExceptT ε (StateM σ) δ} (h : Relocates full place sound move x x')
    (h' : ∀ a, Relocates full place sound move' (f a) (f' (move a))) :
    Relocates full place sound move' (x >>= f) (x' >>= f') := by
  constructor
  intro s good
  rcases h.runs good with ⟨e, s', ran, isFull, good'⟩ | ⟨ran, good'⟩
  · exact .inl ⟨e, s', bind_apply_of_error ran, isFull, good'⟩
  · rcases first : x s with ⟨e | a, s₁⟩
    · rw [first] at ran good'
      rw [bind_apply_of_error ran, bind_apply_of_error first]
      exact .inr ⟨rfl, good'⟩
    · rw [first] at ran good'
      rw [bind_apply_of_ok ran, bind_apply_of_ok first]
      exact (h' a).runs good'

theorem map {move : α → β} {move' : γ → δ} {f : α → γ} {f' : β → δ} {x : ExceptT ε (StateM σ) α}
    {x' : ExceptT ε (StateM σ) β} (h : Relocates full place sound move x x')
    (same : ∀ a, f' (move a) = move' (f a)) :
    Relocates full place sound move' (f <$> x) (f' <$> x') := by
  rw [map_eq_pure_bind, map_eq_pure_bind]
  refine h.bind fun a => ?_
  rw [same]
  exact pure move' (f a)

theorem discard {move : α → β} {x : ExceptT ε (StateM σ) α} {x' : ExceptT ε (StateM σ) β}
    (h : Relocates full place sound move x x') :
    Relocates full place sound id (discard x) (discard x') :=
  h.map fun _ => rfl

theorem get : Relocates full place sound place (get : ExceptT ε (StateM σ) σ) get :=
  ⟨fun good => .inr ⟨rfl, good⟩⟩

theorem modify {f f' : σ → σ} (same : ∀ s, f' (place s) = place (f s))
    (kept : ∀ s, sound s → sound (f s)) :
    Relocates full place sound id (modify f : ExceptT ε (StateM σ) PUnit) (modify f') := by
  constructor
  intro s good
  refine .inr ⟨?_, kept s good⟩
  rw [modify_apply, modify_apply, same]
  rfl

theorem mk_pure (x : Except ε α) :
    Relocates full place sound id (ExceptT.mk (Pure.pure x)) (ExceptT.mk (Pure.pure x)) := by
  constructor
  intro s good
  refine .inr ⟨?_, good⟩
  rw [mk_pure_apply, mk_pure_apply]
  cases x <;> rfl

theorem ite {c : Prop} [Decidable c] {move : α → β} {x y : ExceptT ε (StateM σ) α}
    {x' y' : ExceptT ε (StateM σ) β} (h : Relocates full place sound move x x')
    (h' : Relocates full place sound move y y') :
    Relocates full place sound move (if c then x else y) (if c then x' else y') := by
  split
  · exact h
  · exact h'

theorem forM {f f' : α → ExceptT ε (StateM σ) PUnit}
    (h : ∀ a, Relocates full place sound id (f a) (f' a)) (as : List α) :
    Relocates full place sound id (as.forM f) (as.forM f') := by
  induction as with
  | nil => exact pure id _
  | cons a as ih => exact (h a).bind fun _ => ih

/-- A step that is sound in a narrower sense from every state on is sound. -/
theorem widen {narrow : σ → σ → Prop} {move : α → β} {x : ExceptT ε (StateM σ) α}
    {x' : ExceptT ε (StateM σ) β} (h : ∀ s, Relocates full place (narrow s) move x x')
    (refl : ∀ s, sound s → narrow s s) (wider : ∀ s s', narrow s s' → sound s') :
    Relocates full place sound move x x' := by
  constructor
  intro s good
  rcases (h s).runs (refl s good) with ⟨e, s', ran, isFull, good'⟩ | ⟨ran, good'⟩
  · exact .inl ⟨e, s', ran, isFull, wider s s' good'⟩
  · exact .inr ⟨ran, wider s _ good'⟩

end Relocates

/-- The reason is that the code or the jump table is full. -/
def CompileReason.isFull : CompileReason → Bool
  | .exhausted .code => true
  | .exhausted .jumpTable => true
  | _ => false

/-! ## Programs behind programs -/

/-- An entry point of what stands behind a program. -/
def EntryPoint.behind (e : EntryPoint) (p : Program) : EntryPoint :=
  ⟨p.code.size + e.code, p.jumpTable.size + e.jump⟩

/-- The entry point that is recorded last: one of what stands behind a program, if there is one. -/
def EntryPoint.latest (p : Program) (added old : Option EntryPoint) : Option EntryPoint :=
  (added.map (·.behind p)).or old

/-- The entry points of a type, some of which are recorded anew. -/
def Entries.behind (added old : Entries) (p : Program) : Entries where
  main := EntryPoint.latest p added.main old.main
  playerInteraction := EntryPoint.latest p added.playerInteraction old.playerInteraction
  draw := EntryPoint.latest p added.draw old.draw
  startup := EntryPoint.latest p added.startup old.startup

theorem Entries.get_behind (added old : Entries) (p : Program) (sub : SubScript) :
    (added.behind old p).get sub = EntryPoint.latest p (added.get sub) (old.get sub) := by
  cases sub <;> rfl

theorem Entries.behind_set (added old : Entries) (p : Program) (sub : SubScript) (e : EntryPoint) :
    (added.set sub (some e)).behind old p = (added.behind old p).set sub (some (e.behind p)) := by
  cases sub <;> rfl

namespace Program

/-- The old entry point of a function, if it was known. -/
def functionPoint? (p : Program) (index : Nat) : Option EntryPoint :=
  p.functions[index]?.bind (·.entry)

/-- **What is added, put behind a program.** The code and the jump table stand behind those of the
program; the sub-scripts that are added belong to one object type; sub-scripts and functions that get
a body have it behind the program, and all others keep theirs. The names are those that are known
at the end. -/
def behind (added p : Program) (type : Nat) : Program where
  code := p.code ++ added.code
  jumpTable := p.jumpTable ++ added.jumpTable
  entries := Vector.ofFn fun t =>
    if t.val = type then added.entries[t].behind p.entries[t] p else p.entries[t]
  functions := added.functions.mapIdx fun k f =>
    { f with entry := EntryPoint.latest p f.entry (p.functionPoint? k) }
  typeNames := added.typeNames

/-- A program with the same names that holds nothing. -/
def blank (p : Program) : Program where
  functions := p.functions.map ({ · with entry := none })
  typeNames := p.typeNames

variable (added p : Program) (type : Nat)

/-- The names of the functions, in the order of their numbers. -/
def functionNames (p : Program) : Array Text := p.functions.map (·.name)

/-- A function has the number of its name. -/
theorem functionIndex?_eq (name : Text) :
    p.functionIndex? name = p.functionNames.findIdx? fun n => Text.sameName n name := by
  rw [functionIndex?, functionNames, Array.findIdx?_map]
  rfl

/-- Nothing put behind a program. -/
theorem blank_behind : p.blank.behind p type = p := by
  have functions : (p.blank.behind p type).functions = p.functions := by
    refine Array.ext (by simp [behind, blank]) fun k small small' => ?_
    have known : p.functions[k]? = some p.functions[k] := Array.getElem?_eq_getElem small'
    simp [behind, blank, EntryPoint.latest, functionPoint?, known]
  have entries : (p.blank.behind p type).entries = p.entries := by
    refine Vector.ext fun t small => ?_
    simp [behind, blank, Entries.behind, EntryPoint.latest]
  calc p.blank.behind p type
    _ = ⟨p.code ++ #[], p.jumpTable ++ #[], (p.blank.behind p type).entries,
          (p.blank.behind p type).functions, p.typeNames⟩ := rfl
    _ = p := by rw [functions, entries, Array.append_empty, Array.append_empty]

/-- The names of functions are those known at the end. -/
theorem functionNames_behind : (added.behind p type).functionNames = added.functionNames := by
  refine Array.ext (by simp [functionNames, behind]) fun k small small' => ?_
  simp [functionNames, behind]

theorem functionIndex?_behind (name : Text) :
    (added.behind p type).functionIndex? name = added.functionIndex? name := by
  rw [functionIndex?_eq, functionIndex?_eq, functionNames_behind]

theorem entryPoint?_behind (t : Nat) (sub : SubScript) :
    (added.behind p type).entryPoint? t sub =
      if t = type then EntryPoint.latest p (added.entryPoint? t sub) (p.entryPoint? t sub)
      else p.entryPoint? t sub := by
  rw [entryPoint?, entryPoint?, entryPoint?, behind, Vector.getElem?_ofFn]
  by_cases known : t < typeCapacity
  · rw [dif_pos known, Vector.getElem?_eq_getElem known, Vector.getElem?_eq_getElem known]
    dsimp only [Option.bind_some]
    split
    · exact Entries.get_behind ..
    · rfl
  · rw [dif_neg known, Vector.getElem?_eq_none (Nat.le_of_not_lt known),
      Vector.getElem?_eq_none (Nat.le_of_not_lt known)]
    exact (ite_self _).symm

/-- The entry point of a sub-script that is added. -/
theorem setEntry_behind (sub : SubScript) (e : EntryPoint) :
    (added.setEntry type sub (some e)).behind p type =
      (added.behind p type).setEntry type sub (some (e.behind p)) := by
  by_cases known : type < typeCapacity
  · have entries : ((added.setEntry type sub (some e)).behind p type).entries =
        ((added.behind p type).setEntry type sub (some (e.behind p))).entries := by
      refine Vector.ext fun t small => ?_
      by_cases same : t = type
      · subst same
        simp [behind, setEntry, known, Entries.behind_set]
      · simp [behind, setEntry, known, same, Ne.symm same]
    have shown : (added.setEntry type sub (some e)).behind p type =
        { added.behind p type with
          entries := ((added.setEntry type sub (some e)).behind p type).entries } := by
      rw [setEntry, dif_pos known]
      rfl
    rw [shown, entries, setEntry, dif_pos known]
  · rw [setEntry, dif_neg known, setEntry, dif_neg known]

/-- The entry point of a function that gets a body. -/
theorem setFunctionEntry_behind (index : Nat) (e : EntryPoint) :
    (added.setFunctionEntry index (some e)).behind p type =
      (added.behind p type).setFunctionEntry index (some (e.behind p)) := by
  have functions : ((added.setFunctionEntry index (some e)).behind p type).functions =
      ((added.behind p type).setFunctionEntry index (some (e.behind p))).functions := by
    refine Array.ext (by simp [behind, setFunctionEntry]) fun k small small' => ?_
    simp [behind, setFunctionEntry, Array.getElem_modify]
    split <;> simp [EntryPoint.latest]
  exact congrArg (fun functions => { added.behind p type with functions }) functions

/-- A function that becomes known behind all those of a program. -/
theorem declared_behind (name : Text) (all : p.functions.size ≤ added.functions.size) :
    { added with functions := added.functions.push ⟨name, none⟩ }.behind p type =
      { added.behind p type with functions := (added.behind p type).functions.push ⟨name, none⟩ } := by
  have unknown : p.functionPoint? added.functions.size = none := by
    rw [functionPoint?, Array.getElem?_eq_none all]
    rfl
  have functions : (added.functions.push ⟨name, none⟩).mapIdx (fun k f =>
        { f with entry := EntryPoint.latest p f.entry (p.functionPoint? k) }) =
      (added.behind p type).functions.push ⟨name, none⟩ := by
    rw [Array.mapIdx_push, unknown]
    rfl
  exact congrArg (fun functions => { added.behind p type with functions }) functions

end Program

/-! ## Compilers behind programs -/

/-- A block of a body behind a program. -/
def Block.behind (block : Block) (p : Program) : Block :=
  { block with slot := p.jumpTable.size + block.slot }

/-- A body behind a program. -/
def Body.behind (body : Body) (p : Program) : Body where
  entry := body.entry.behind p
  blocks := body.blocks.map (·.behind p)
  switches := body.switches.map (p.jumpTable.size + ·)

namespace Compiler

open Stepwise

/-- **A compiler that adds its program behind another one.** -/
def behind (p : Program) (type : Nat) (c : Compiler) : Compiler :=
  { c with program := c.program.behind p type, body := c.body.behind p }

section

variable (p : Program) (type : Nat) (c : Compiler)

@[simp] theorem aliases_behind : (c.behind p type).aliases = c.aliases := rfl

@[simp] theorem tags_behind : (c.behind p type).tags = c.tags := rfl

@[simp] theorem mode_behind : (c.behind p type).mode = c.mode := rfl

@[simp] theorem blocks_behind :
    (c.behind p type).body.blocks = c.body.blocks.map (·.behind p) := rfl

@[simp] theorem size_code_behind :
    (c.behind p type).program.code.size = p.code.size + c.program.code.size := Array.size_append

@[simp] theorem size_jumpTable_behind :
    (c.behind p type).program.jumpTable.size = p.jumpTable.size + c.program.jumpTable.size :=
  Array.size_append

@[simp] theorem here_behind : (c.behind p type).here = c.here := by
  have same : p.code.size + c.program.code.size - (p.code.size + c.body.entry.code) =
      c.program.code.size - c.body.entry.code := Nat.add_sub_add_left ..
  rw [here, size_code_behind]
  exact congrArg Word.ofNat same

@[simp] theorem nextSlot_behind : (c.behind p type).nextSlot = c.nextSlot := by
  have same : p.jumpTable.size + c.program.jumpTable.size - (p.jumpTable.size + c.body.entry.jump) =
      c.program.jumpTable.size - c.body.entry.jump := Nat.add_sub_add_left ..
  rw [nextSlot, size_jumpTable_behind]
  exact congrArg Word.ofNat same

@[simp] theorem jumpWord_behind (slot : Nat) :
    (c.behind p type).jumpWord (p.jumpTable.size + slot) = c.jumpWord slot := by
  show (p.jumpTable ++ c.program.jumpTable).getD _ 0 = c.program.jumpTable.getD slot 0
  rw [Array.getD_eq_getD_getElem?, Array.getD_eq_getD_getElem?,
    Array.getElem?_append_right (Nat.le_add_right ..), Nat.add_sub_cancel_left]

@[simp] theorem labelRange_behind (header : Nat) :
    (c.behind p type).labelRange (p.jumpTable.size + header) = c.labelRange header := by
  rw [labelRange, jumpWord_behind, Nat.add_assoc, jumpWord_behind]
  rfl

@[simp] theorem substitute_behind : (c.behind p type).substitute = c.substitute := by
  funext o
  rw [substitute, substitute, substituteFunction, substituteFunction, behind,
    Program.functionIndex?_behind]
  rfl

end

/-! ## What is kept of what is added -/

/-- What is added behind a program keeps its names and what fits into it. -/
structure Sound (p : Program) (c : Compiler) : Prop where
  typeNames : c.program.typeNames = p.typeNames
  names : ∃ more, c.program.functionNames = p.functionNames ++ more
  code : p.code.size + c.program.code.size ≤ max p.code.size codeCapacity
  jumps : p.jumpTable.size + c.program.jumpTable.size ≤ max p.jumpTable.size jumpCapacity

/-- What is kept besides while a body is compiled. -/
structure Further (p : Program) (c c' : Compiler) : Prop extends Sound p c' where
  entries : c'.program.entries = c.program.entries
  functions : c'.program.functions = c.program.functions
  mode : c.mode ≠ .outside → c'.mode ≠ .outside
  entry : c'.body.entry = c.body.entry
  grown : ∃ more, c'.program.code = c.program.code ++ more

variable {p : Program} {type : Nat} {c₀ : Compiler}

/-- A step of compilation does behind a program what it does by itself. -/
abbrev Moves {α β : Type} (p : Program) (type : Nat) (sound : Compiler → Prop) (move : α → β)
    (x : Emit α) (x' : Emit β) : Prop :=
  Relocates CompileReason.isFull (behind p type) sound move x x'

/-! ## Additions -/

section

variable (p type)

theorem addCode_behind (c : Compiler) (words : List Word) :
    (c.behind p type).addCode words = (c.addCode words).behind p type := by
  simp only [addCode, behind, Program.behind, Array.append_assoc]

theorem addJumps_behind (c : Compiler) (words : List Word) :
    (c.behind p type).addJumps words = (c.addJumps words).behind p type := by
  simp only [addJumps, behind, Program.behind, Array.append_assoc]

end

theorem Further.refl {c : Compiler} (h : Sound p c) : Further p c c :=
  ⟨h, rfl, rfl, id, rfl, #[], Array.append_empty.symm⟩

theorem Further.addCode {c : Compiler} (h : Further p c₀ c) {w : Word}
    (room : p.code.size + c.program.code.size < codeCapacity) : Further p c₀ (c.addCode [w]) := by
  have more : (c.addCode [w]).program.code.size = c.program.code.size + 1 := Array.size_append
  refine ⟨⟨h.typeNames, h.names, ?_, h.jumps⟩, h.entries, h.functions, h.mode, h.entry, ?_⟩
  · rw [more]
    omega
  · obtain ⟨words, grown⟩ := h.grown
    exact ⟨words ++ #[w], by rw [← Array.append_assoc, ← grown]; rfl⟩

theorem Further.addJumps {c : Compiler} (h : Further p c₀ c) {words : List Word}
    (room : words.length ≤ jumpCapacity - (p.jumpTable.size + c.program.jumpTable.size)) :
    Further p c₀ (c.addJumps words) := by
  have fits := h.jumps
  have more : (c.addJumps words).program.jumpTable.size =
      c.program.jumpTable.size + words.length := Array.size_append
  refine ⟨⟨h.typeNames, h.names, h.code, ?_⟩, h.entries, h.functions, h.mode, h.entry, h.grown⟩
  rw [more]
  omega

theorem relocates_pushCode (w : Word) : Moves p type (Further p c₀) id
    (discard (edit (Program.pushCode w))) (discard (edit (Program.pushCode w))) := by
  constructor
  intro c good
  by_cases room : p.code.size + c.program.code.size < codeCapacity
  · have room' : (c.behind p type).program.code.size < codeCapacity := by rwa [size_code_behind]
    rw [pushCode_of_room room', pushCode_of_room (by omega), addCode_behind]
    exact .inr ⟨rfl, good.addCode room⟩
  · refine .inl ⟨.exhausted .code, c, ?_, rfl, good⟩
    rw [discard_apply, edit, Program.pushCode, size_code_behind, if_neg room]
    rfl

theorem relocates_pushJump (w : Word) : Moves p type (Further p c₀) id
    (discard (edit (Program.pushJump w))) (discard (edit (Program.pushJump w))) := by
  constructor
  intro c good
  by_cases room : p.jumpTable.size + c.program.jumpTable.size < jumpCapacity
  · have room' : (c.behind p type).program.jumpTable.size < jumpCapacity := by
      rwa [size_jumpTable_behind]
    rw [pushJump_of_room room', pushJump_of_room (by omega), addJumps_behind]
    exact .inr ⟨rfl, good.addJumps (by simp only [List.length_singleton]; omega)⟩
  · refine .inl ⟨.exhausted .jumpTable, c, ?_, rfl, good⟩
    rw [discard_apply, edit, Program.pushJump, size_jumpTable_behind, if_neg room]
    rfl

theorem relocates_emit (words : List Word) :
    Moves p type (Further p c₀) id (emit words) (emit words) :=
  .forM relocates_pushCode words

theorem relocates_reserve (words : List Word) :
    Moves p type (Further p c₀) id (reserve words) (reserve words) :=
  .forM relocates_pushJump words

/-! ## Changes of the jump table -/

/-- A change of what is added to the jump table. -/
theorem relocates_modifyJumps {change change' : Array Word → Array Word}
    (same : ∀ jumps, change' (p.jumpTable ++ jumps) = p.jumpTable ++ change jumps)
    (size : ∀ jumps, (change jumps).size = jumps.size) :
    Moves p type (Further p c₀) id (modifyJumps change) (modifyJumps change') := by
  refine .modify (fun c => ?_) fun c good => ?_
  · simp only [behind, Program.behind, same]
  · refine ⟨⟨good.typeNames, good.names, good.code, ?_⟩, good.entries, good.functions, good.mode,
      good.entry, good.grown⟩
    dsimp only
    rw [size]
    exact good.jumps

theorem relocates_setJump (slot : Nat) (w : Word) :
    Moves p type (Further p c₀) id (setJump slot w) (setJump (p.jumpTable.size + slot) w) := by
  refine relocates_modifyJumps (fun jumps => ?_) fun jumps => Array.size_setIfInBounds
  rw [Array.setIfInBounds_append_right (Nat.le_add_right ..), Nat.add_sub_cancel_left]

theorem relocates_fillCases (header : Nat) (target : Word) :
    Moves p type (Further p c₀) id (fillCases header target)
      (fillCases (p.jumpTable.size + header) target) := by
  refine .bind .get fun c => ?_
  rw [labelRange_behind]
  refine relocates_modifyJumps (fun jumps => ?_) fun jumps => size_foldl_modify ..
  refine Array.ext_getElem? fun i => ?_
  rw [getElem?_foldl_modify]
  rcases Nat.lt_or_ge i p.jumpTable.size with front | behind
  · rw [if_neg (by omega), Array.getElem?_append_left front, Array.getElem?_append_left front]
  · have moved : (p.jumpTable.size + header + 4 ≤ i ∧
        i < p.jumpTable.size + header + 4 + (c.labelRange header).size) ↔
        header + 4 ≤ i - p.jumpTable.size ∧
          i - p.jumpTable.size < header + 4 + (c.labelRange header).size := by omega
    rw [Array.getElem?_append_right behind, Array.getElem?_append_right behind,
      getElem?_foldl_modify]
    simp only [moved]

/-! ## Blocks -/

theorem relocates_openBlock (kind : BlockKind) (words : List Word) :
    Moves p type (Further p c₀) id (openBlock kind words) (openBlock kind words) := by
  refine .bind .get fun c => .bind (relocates_reserve words) fun _ => .modify (fun c' => ?_) fun _ good => ?_
  · rw [size_jumpTable_behind]
    rfl
  · exact ⟨⟨good.typeNames, good.names, good.code, good.jumps⟩, good.entries, good.functions, good.mode,
      good.entry, good.grown⟩

theorem relocates_closeBlock : Moves p type (Further p c₀) id closeBlock closeBlock := by
  refine .modify (fun c => ?_) fun _ good => ?_
  · simp only [behind, Body.behind, List.map_tail]
  · exact ⟨⟨good.typeNames, good.names, good.code, good.jumps⟩, good.entries, good.functions, good.mode,
      good.entry, good.grown⟩

theorem relocates_innermost (kind : BlockKind) (keyword : String) :
    Moves p type (Further p c₀) (·.behind p) (innermost kind keyword) (innermost kind keyword) := by
  refine .bind .get fun c => ?_
  rw [blocks_behind]
  cases c.body.blocks with
  | nil => exact .throw _ _
  | cons block _ => exact .ite (.pure _ block) (.throw _ _)

/-! ## Calls -/

theorem relocates_emitOperand (o : Operand) :
    Moves p type (Further p c₀) id (emitOperand o) (emitOperand o) := by
  refine .bind .get fun c => ?_
  rw [substitute_behind]
  refine .bind (relocates_emit _) fun _ => ?_
  split
  · exact .throw _ _
  · exact .pure _ _

/-- A slot of a block that stands behind another one. -/
theorem relocates_setSlot (block : Block) (k : Nat) (w : Word) :
    Moves p type (Further p c₀) id (setJump (block.slot + k) w)
      (setJump ((block.behind p).slot + k) w) := by
  have moved : (block.behind p).slot + k = p.jumpTable.size + (block.slot + k) := Nat.add_assoc ..
  rw [moved]
  exact relocates_setJump ..

theorem relocates_bindBlock (op : Opcode) (block : Block) (target : Word) :
    Moves p type (Further p c₀) id (bindBlock op block target)
      (bindBlock op (block.behind p) target) := by
  have word (c : Compiler) (k : Nat) :
      (c.behind p type).jumpWord ((block.behind p).slot + k) = c.jumpWord (block.slot + k) := by
    rw [Block.behind, Nat.add_assoc, jumpWord_behind]
  -- The slots of the block have moved with the block, so the words that are tested are the same.
  unfold bindBlock
  split
  · exact relocates_setSlot block 0 target
  · refine .bind (relocates_setSlot block 1 target) fun _ => .bind .get fun c => ?_
    rw [show (c.behind p type).jumpWord (block.behind p).slot = _ from word c 0, Nat.add_zero]
    split
    · exact .bind (relocates_setSlot block 0 _) fun _ => relocates_closeBlock
    · exact relocates_closeBlock
  · refine .bind (relocates_setSlot block 3 target) fun _ => .bind .get fun c => ?_
    rw [word]
    split
    · exact .bind (relocates_setSlot block 2 _) fun _ =>
        .bind (relocates_fillCases block.slot _) fun _ => relocates_closeBlock
    · exact relocates_closeBlock
  · exact .bind (relocates_setSlot block 1 target) fun _ => relocates_closeBlock
  · exact .pure _ _

theorem relocates_emitCall (text : Text) :
    Moves p type (Further p c₀) id (emitCall text) (emitCall text) := by
  have operands (operands : List Operand) :
      Moves p type (Further p c₀) id (operands.forM emitOperand) (operands.forM emitOperand) :=
    .forM relocates_emitOperand operands
  unfold emitCall
  dsimp only
  split
  · exact .throw _ _
  · next op _ =>
    split
    · exact .throw _ _
    · split
      · next kind _ =>
        rw [bind_map_left]
        refine .bind (relocates_innermost kind op.name) fun block =>
          .bind (relocates_emit _) fun _ => .bind .get fun c => ?_
        -- A target is counted from the entry point of the body, which has moved by as much as the
        -- code.
        rw [here_behind]
        exact .bind (relocates_bindBlock op block c.here) fun _ => operands _
      · rw [pure_bind]
        exact .bind (relocates_emit _) fun _ => operands _

end Compiler

end StageScript
