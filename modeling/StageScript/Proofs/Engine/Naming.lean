import StageScript.Proofs.Engine.Turn
import StageScript.Proofs.Program.File

/-! # Names do not matter to running scripts
A program keeps the names of its functions and types, which scripts are compiled with. Nothing that runs looks
at them: bodies are found by numbers.
* `Program.EqualButNames` — programs that differ by the spelling of names;
* **`step_eq_of_names`** and **`run_eq_of_names`** — each instruction does the same in both, and so do runs;
* **`Engine.Nameless`** — a command that does the same whatever the names are, and keeps the program;
* `Engine.Action`, `Engine.transcript` — what can be seen of a game that runs;
* **`Engine.transcript_ignores_names`** — it does not depend on names, so that a program that was written to a
  file and read again runs as before. -/

namespace StageScript

/-! ## Programs -/

/-- **Two programs are equal but for the spelling of names.** -/
structure Program.EqualButNames (p q : Program) : Prop where
  code : q.code = p.code
  jumpTable : q.jumpTable = p.jumpTable
  entries : ∀ type sub, q.entryPoint? type sub = p.entryPoint? type sub
  /-- The functions have the same bodies, in the same order. -/
  functions : q.functions.toList.map (·.entry) = p.functions.toList.map (·.entry)
  /-- As many types are registered. -/
  types : q.typeNames.size = p.typeNames.size

namespace Program.EqualButNames

variable {p q : Program}

theorem refl (p : Program) : p.EqualButNames p := ⟨rfl, rfl, fun _ _ => rfl, rfl, rfl⟩

/-- Functions are called by their numbers. -/
theorem entry_eq (h : p.EqualButNames q) (k : Nat) :
    (q.functions[k]?).bind (·.entry) = (p.functions[k]?).bind (·.entry) := by
  have listed (r : Program) :
      (r.functions[k]?).bind (·.entry) = ((r.functions.toList.map (·.entry))[k]?).join := by
    rw [List.getElem?_map, Array.getElem?_toList]
    cases r.functions[k]? <;> rfl
  rw [listed, listed, h.functions]

/-! ## Instructions and runs -/

theorem jumpWord_eq (h : p.EqualButNames q) (here : Position) (slot : Word) (k : Int) :
    Jump.word q here slot k = Jump.word p here slot k := by
  rw [Jump.word, Jump.word, h.jumpTable]

theorem jump_eq (h : p.EqualButNames q) : jump q = jump p := by
  funext here slot k
  rw [jump, jump, Jump.target, Jump.target, h.jumpWord_eq]

theorem enterFunction_eq (h : p.EqualButNames q) : enterFunction q = enterFunction p := by
  funext next index
  have body : (index.index?.bind (q.functions[·]?)).bind (·.entry) =
      (index.index?.bind (p.functions[·]?)).bind (·.entry) := by
    cases index.index? with
    | none => rfl
    | some k => exact h.entry_eq k
  rw [enterFunction, enterFunction, body]

theorem perform_eq (h : p.EqualButNames q) (op : Opcode) (activation : Activation) (next : Position) :
    op.perform q activation next = op.perform p activation next := by
  cases op with
  | control op =>
    have switch : Control.performSwitch q next = Control.performSwitch p next := by
      simp only [Control.performSwitch, h.jumpWord_eq, h.jump_eq]
    cases op <;> simp only [Opcode.perform, Control.perform, h.jump_eq, h.enterFunction_eq, switch]
  | ifTest comparison =>
    simp only [Opcode.perform, Comparison.performIf, h.jump_eq]
  | whileTest comparison =>
    simp only [Opcode.perform, Comparison.performWhile, h.jump_eq]
  -- no other instruction looks at the program
  | _ => rfl

end Program.EqualButNames

variable {p q : Program}

/-- **Each instruction does the same** in programs that are equal but for names, in any machine. -/
theorem step_eq_of_names (h : p.EqualButNames q) : step q = step p := by
  funext activation here
  simp only [step, h.code, h.perform_eq]

theorem runFrom_eq_of_names (h : p.EqualButNames q) : runFrom q = runFrom p := by
  funext activation fuel
  induction fuel with
  | zero => rfl
  | succ fuel ih =>
    funext here
    rw [runFrom, runFrom, step_eq_of_names h, ih]

/-- **Runs do the same** in programs that are equal but for names. -/
theorem run_eq_of_names (h : p.EqualButNames q) : run q = run p := by
  funext activation entry
  rw [run, run, runFrom_eq_of_names h]

namespace Engine

open Stepwise

/-! ## Commands -/

/-- An engine with another program. -/
def withProgram (g : Engine) (program : Program) : Engine := { g with program }

/-- **A command does the same whatever the names are**, and it keeps the program. -/
structure Nameless {α : Type} (x : Act α) : Prop where
  blind : ∀ g q, g.program.EqualButNames q → x (g.withProgram q) = ((x g).1, (x g).2.withProgram q)

namespace Nameless

variable {α β : Type}

/-- Such a command keeps the program. -/
theorem kept {x : Act α} (h : Nameless x) (g : Engine) : (x g).2.program = g.program := by
  -- with its own program the engine is left with its own program
  have same : (x g).2 = (x g).2.withProgram g.program :=
    congrArg Prod.snd (h.blind g g.program (.refl _))
  rw [same]
  rfl

protected theorem pure (a : α) : Nameless (pure a) := ⟨fun _ _ _ => rfl⟩

protected theorem bind {x : Act α} {f : α → Act β} (hx : Nameless x) (hf : ∀ a, Nameless (f a)) :
    Nameless (x >>= f) := by
  constructor
  intro g q same
  have first := hx.blind g q same
  have kept := hx.kept g
  rcases ran : x g with ⟨e | a, g'⟩
  · rw [ran] at first
    rw [bind_apply_of_error first, bind_apply_of_error ran]
  · rw [ran] at first kept
    rw [bind_apply_of_ok first, bind_apply_of_ok ran]
    exact (hf a).blind g' q (kept ▸ same)

/-- A change that goes on beside the program. -/
protected theorem modify {f : Engine → Engine} (h : ∀ g q, f (g.withProgram q) = (f g).withProgram q) :
    Nameless (modify f : Act PUnit) :=
  ⟨fun g q _ => congrArg (Prod.mk (Except.ok PUnit.unit)) (h g q)⟩

/-- A command that looks at the engine first, but not at names. -/
protected theorem get {f : Engine → Act α}
    (same : ∀ g q, g.program.EqualButNames q → f (g.withProgram q) = f g) (hf : ∀ g, Nameless (f g)) :
    Nameless (get >>= f) := by
  constructor
  intro g q equal
  show f (g.withProgram q) (g.withProgram q) = _
  rw [same g q equal]
  exact (hf g).blind g q equal

protected theorem ite {c : Prop} [Decidable c] {x y : Act α} (hx : Nameless x) (hy : Nameless y) :
    Nameless (if c then x else y) := by
  split
  · exact hx
  · exact hy

/-- The same command for each member of a list. -/
protected theorem forM {f : α → Act PUnit} (each : ∀ a, Nameless (f a)) (xs : List α) :
    Nameless (xs.forM f) := by
  induction xs with
  | nil => exact .pure _
  | cons a xs ih => exact (each a).bind fun _ => ih

end Nameless

/-! ## The work of a frame -/

/-- **A run of a body.** -/
theorem nameless_runBody (activation : Activation) (entry : EntryPoint) :
    Nameless (runBody activation entry) := by
  constructor
  intro g q same
  have ran : run q activation entry = run g.program activation entry := by rw [run_eq_of_names same]
  simp only [runBody, bind_apply, get_apply, withProgram, ran]
  rcases run g.program activation entry { g.machine with steps := 0 } with ⟨fault | ⟨⟩, m⟩ <;> rfl

theorem nameless_processScript (object : Nat) (sub : SubScript) : Nameless (processScript object sub) := by
  refine .get (fun g q same => ?_) fun g => ?_
  · have found : (g.withProgram q).entryPoint? object sub = g.entryPoint? object sub := by
      rw [entryPoint?, entryPoint?]
      cases Scene.entitySlot? object with
      | none => rfl
      | some slot => exact same.entries _ sub
    rw [found]
  · cases g.entryPoint? object sub with
    | none => exact .pure _
    | some entry => exact nameless_runBody _ entry

theorem nameless_setupType (type : Nat) : Nameless (setupType type) := by
  refine .bind (.modify fun _ _ => rfl) fun _ => .get (fun g q same => ?_) fun g => ?_
  · dsimp only [withProgram]
    rw [same.entries]
  · exact .ite (.bind (.modify fun _ _ => rfl) fun _ => nameless_processScript _ _) (.pure _)

theorem nameless_setupTypes : Nameless setupTypes := by
  refine .get (fun g q same => ?_) fun g => .forM nameless_setupType _
  dsimp only [withProgram]
  rw [same.types]

theorem nameless_setupObjects : Nameless setupObjects := by
  constructor
  intro g q same
  have types := nameless_setupTypes.blind (g.modifyScene ({ · with spriteFrames := #[] })) q same
  have begun (change : Scene → Scene) :
      (g.withProgram q).modifyScene change = (g.modifyScene change).withProgram q := rfl
  unfold setupObjects
  dsimp only
  rw [begun, types]
  rfl

theorem nameless_processObject (slot : Fin entityCount) : Nameless (processObject slot) := by
  refine .get (fun _ _ _ => rfl) fun g => .ite (.ite ?_ (.pure _)) (.ite ?_ (.pure _))
  · exact (nameless_processScript _ _).bind fun _ => .modify fun _ _ => rfl
  · exact .modify fun _ _ => rfl

theorem nameless_processObjects : Nameless processObjects :=
  .bind (.modify fun _ _ => rfl) fun _ => .forM nameless_processObject _

theorem nameless_drawObject (object : Nat) : Nameless (drawObject object) :=
  .get (fun _ _ _ => rfl) fun _ => .ite (nameless_processScript _ _) (.pure _)

theorem nameless_drawLayer (layer : Nat) : Nameless (drawLayer layer) := by
  refine .get (fun _ _ _ => rfl) fun g => ?_
  cases g.machine.scene.drawLists[layer]? with
  | none => exact .pure _
  | some list => exact .forM nameless_drawObject _

theorem nameless_runFrame : Nameless runFrame :=
  nameless_processObjects.bind fun _ => .forM nameless_drawLayer _

/-! ## What can be seen of a game -/

/-- What a game does with an engine whose program is loaded. -/
inductive Action
  | setupObjects
  | processScript (object : Nat) (sub : SubScript)
  | processPlayerInteraction (object : Nat)
  | processObjects
  | drawLayer (layer : Nat)
  | runFrame
  /-- A change that the game makes itself, between the others. -/
  | change (f : Machine → Machine)

/-- Carries out an action. -/
def Action.act : Action → Act Unit
  | setupObjects => Engine.setupObjects
  | processScript object sub => Engine.processScript object sub
  | processPlayerInteraction object => Engine.processPlayerInteraction object
  | processObjects => Engine.processObjects
  | drawLayer layer => Engine.drawLayer layer
  | runFrame => Engine.runFrame
  | change f => modify (·.modifyMachine f)

theorem Action.nameless_act (action : Action) : Nameless action.act := by
  cases action with
  | setupObjects => exact nameless_setupObjects
  | processScript object sub => exact nameless_processScript object sub
  | processPlayerInteraction object => exact nameless_processScript object .playerInteraction
  | processObjects => exact nameless_processObjects
  | drawLayer layer => exact nameless_drawLayer layer
  | runFrame => exact nameless_runFrame
  | change f => exact .modify fun _ _ => rfl

/-- **What can be seen of a game**: behind each action its answer, the machine with the scene, the registers and
all calls of the host, and what is told of failures. -/
def transcript : List Action → Engine → List (Except EngineError Unit × Machine × Option String)
  | [], _ => []
  | action :: rest, g =>
    let (answer, g) := action.act g
    (answer, g.machine, g.error) :: transcript rest g

/-- The names in a program cannot be seen. -/
theorem transcript_withProgram (actions : List Action) (g : Engine) {q : Program}
    (same : g.program.EqualButNames q) : transcript actions (g.withProgram q) = transcript actions g := by
  induction actions generalizing g with
  | nil => rfl
  | cons action rest ih =>
    have first := action.nameless_act.blind g q same
    have kept := action.nameless_act.kept g
    rw [transcript, transcript, first]
    dsimp only
    rw [ih (action.act g).2 (kept ▸ same)]
    rfl

end Engine

/-! ## Files -/

/-- A file can hold the whole program: its tables are not too long, its entry points are those of registered
types and functions, they lie inside the tables, and none of them is at the offset for missing bodies. -/
structure Program.Storable (p : Program) : Prop where
  room : p.Roomy
  types : ∀ type sub, ∀ e ∈ p.entryPoint? type sub, e.Inside ∧ e.code ≠ 0x3FFFF ∧ type < p.typeNames.size
  functions : ∀ f ∈ p.functions, ∀ e ∈ f.entry, e.Inside ∧ e.code ≠ 0x3FFFF

namespace Bytecode

/-- **A program that is read from its file** is the one that was written, but for names. -/
theorem equalButNames_reread (h : p.Storable) (target : Program)
    (types : target.typeNames.size = p.typeNames.size) : p.EqualButNames (reread p target) where
  code := by simp only [reread]
  jumpTable := by simp only [reread]
  entries type sub := by
    rw [entryPoint?_reread target (fun type sub e member => (h.types type sub e member).2.2)]
    exact kept_eq fun e member => (h.types type sub e member).2.1
  functions := by
    simp only [reread, map_entry_named]
    refine List.map_congr_left fun f member => ?_
    exact kept_eq fun e here => (h.functions f (Array.mem_toList_iff.1 member) e here).2
  types := by simp only [reread, types]

/-- The functions of a program that is read from a file are called by their numbers. -/
theorem names_reread (p target : Program) :
    (reread p target).functions.toList.map (·.name) =
      (List.range p.functions.size).map functionName := by
  simp only [reread]
  apply List.ext_getElem
  · simp
  · intro k inside _
    simp

end Bytecode

/-- **Names cannot be seen in a game that runs.** In programs that are equal but for the spelling of names each
instruction does the same, in any machine; and engines that have these programs and are otherwise the same answer
every sequence of actions alike, leaving the same scenes, registers and calls of the host behind each of them. A
program that was written to a file and read again is such a program: its functions are called by their
numbers. -/
theorem Engine.transcript_ignores_names (p : Program) :
    (∀ q, p.EqualButNames q → (∀ activation here, step q activation here = step p activation here) ∧
      ∀ g actions, transcript actions (withProgram g q) = transcript actions (withProgram g p)) ∧
    (p.Storable → ∀ more target, target.typeNames.size = p.typeNames.size → ∃ p',
      Bytecode.decode (Bytecode.encode p ++ more) target = .ok p' ∧
      p'.functions.toList.map (·.name) = (List.range p.functions.size).map Bytecode.functionName ∧
      ∀ g actions, transcript actions (withProgram g p') = transcript actions (withProgram g p)) := by
  have seen {q : Program} (same : p.EqualButNames q) (g : Engine) (actions : List Action) :
      transcript actions (withProgram g q) = transcript actions (withProgram g p) :=
    transcript_withProgram actions (withProgram g p) same
  refine ⟨fun q same => ⟨fun activation here => ?_, seen same⟩, fun stored more target types => ?_⟩
  · rw [step_eq_of_names same]
  · have read := Bytecode.reads_readProgram stored.room
      (fun type sub e member => (stored.types type sub e member).1)
      (fun f member e here => (stored.functions f member e here).1) target
    exact ⟨Bytecode.reread p target, Bytecode.decode_append read more,
      Bytecode.names_reread p target, seen (Bytecode.equalButNames_reread stored target types)⟩

/-- A program with one type and one function, which are spelled in some way: the main sub-script calls the
function, which counts in `TempValue0`. -/
def callingProgram (function type : String) : Program :=
  { Bytecode.ringProgram
      #[(Opcode.control .callFunction).word, 2, 0, (Opcode.control .stop).word,
        (Opcode.unary .inc).word, 1, 0, 0, (Opcode.control .endFunction).word]
      #[] { main := some ⟨0, 0⟩ } #[⟨function.toList, some ⟨4, 0⟩⟩] with
    typeNames := #["BlankObject".toList, type.toList] }

theorem entryPoint?_callingProgram (function type : String) (k : Nat) (sub : SubScript) :
    (callingProgram function type).entryPoint? k sub =
      if k = 1 then ({ main := some ⟨0, 0⟩ } : Entries).get sub else none :=
  Bytecode.entryPoint?_ringProgram #[] #[] _ #[] k sub

theorem storable_callingProgram (function type : String) : (callingProgram function type).Storable where
  room := by
    refine ⟨?_, ?_, ?_, ?_⟩
    · show 9 ≤ codeCapacity
      decide
    · show 0 ≤ jumpCapacity
      decide
    · show 1 ≤ functionCapacity
      decide
    · show 2 ≤ typeCapacity
      decide
  types k sub e member := by
    rw [entryPoint?_callingProgram] at member
    split at member
    · next one =>
      subst one
      have main : e = ⟨0, 0⟩ := by cases sub <;> simp_all [Entries.get]
      subst main
      exact ⟨⟨by decide, by decide⟩, by decide, Nat.lt_succ_self 1⟩
    · cases member
  functions f member e here := by
    simp only [callingProgram, Bytecode.ringProgram, List.mem_toArray, List.mem_singleton] at member
    subst member
    obtain rfl := Option.some.inj here
    exact ⟨⟨by decide, by decide⟩, by decide⟩

theorem Engine.transcript_ignores_names_calling :
    (∀ g actions, transcript actions (withProgram g (callingProgram "Function0" "Spring")) =
      transcript actions (withProgram g (callingProgram "Bump" "Ring"))) ∧
    ∃ p', Bytecode.decode (Bytecode.encode (callingProgram "Bump" "Ring") ++ [0])
        (callingProgram "" "Ring") = .ok p' ∧
      p'.functions.toList.map (·.name) = ["Function0".toList] ∧
      ∀ g actions, transcript actions (withProgram g p') =
        transcript actions (withProgram g (callingProgram "Bump" "Ring")) := by
  obtain ⟨spelled, stored⟩ := transcript_ignores_names (callingProgram "Bump" "Ring")
  have same : (callingProgram "Bump" "Ring").EqualButNames (callingProgram "Function0" "Spring") :=
    ⟨rfl, rfl, fun k sub => by rw [entryPoint?_callingProgram, entryPoint?_callingProgram], rfl, rfl⟩
  obtain ⟨p', read, names, seen⟩ := stored (storable_callingProgram "Bump" "Ring") [0]
    (callingProgram "" "Ring") rfl
  exact ⟨(spelled _ same).2, p', read, names.trans (by decide +kernel), seen⟩

end StageScript
