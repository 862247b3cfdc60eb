import Mathlib.Data.List.DropRight
import Mathlib.Data.List.Induction
import StageScript.Proofs.Engine.Naming
import StageScript.Proofs.Engine.Session

/-! # What is told of failures
An engine tells of one failure: the first one since failures were last forgotten. Commands are made of other
commands, and each failure is told where it comes up, so that none is told twice or in other words.
* **`Engine.Tells`** — a command that fails is told of by what it fails for, unless an earlier failure is, and
  one that succeeds leaves what is told;
* **`Engine.Session`** — a sequence of demands with the answers to them;
* **`Engine.error_session`** — what is told behind a session is its first failure since the last reset. -/

namespace StageScript

namespace Engine

open Stepwise

/-! ## Commands -/

/-- What is told of failures behind an answer. -/
def told {α : Type} (error : Option String) (answer : Except EngineError α) : Option String :=
  error.or ((Except.refusal? answer).map EngineError.message)

/-- **A command tells of its failure** and of nothing else. -/
def Tells {α : Type} (x : Act α) : Prop := ∀ g, (x g).2.error = told g.error (x g).1

namespace Tells

variable {α β : Type}

protected theorem pure (a : α) : Tells (pure a) := fun _ => Option.or_none.symm

protected theorem fail (e : EngineError) : Tells (Engine.fail e : Act α) := by
  intro g
  show some (g.error.getD e.message) = g.error.or (some e.message)
  cases g.error <;> rfl

/-- A command goes on only where the first part has left what is told. -/
protected theorem bind {x : Act α} {f : α → Act β} (hx : Tells x) (hf : ∀ a, Tells (f a)) :
    Tells (x >>= f) := by
  intro g
  have first := hx g
  rcases ran : x g with ⟨e | a, g'⟩ <;> rw [ran] at first
  · rw [bind_apply_of_error ran]
    exact first
  · -- the second part finds what was told before the first
    have left : g'.error = g.error := first.trans Option.or_none
    rw [bind_apply_of_ok ran, hf a g', left]

/-- A change that is no failure. -/
protected theorem modify {f : Engine → Engine} (h : ∀ g, (f g).error = g.error) :
    Tells (modify f : Act PUnit) := fun g => (h g).trans Option.or_none.symm

/-- A command that looks at the engine first. -/
protected theorem get {f : Engine → Act α} (h : ∀ g, Tells (f g)) : Tells (get >>= f) := fun g => h g g

protected theorem ite {c : Prop} [Decidable c] {x y : Act α} (hx : Tells x) (hy : Tells y) :
    Tells (if c then x else y) := by
  split
  · exact hx
  · exact hy

/-- The same command for each member of a list, up to the first failure. -/
protected theorem forM {f : α → Act PUnit} (each : ∀ a, Tells (f a)) (xs : List α) :
    Tells (xs.forM f) := by
  induction xs with
  | nil => exact .pure _
  | cons a xs ih => exact (each a).bind fun _ => ih

end Tells

/-! ### Loading -/

theorem tells_registerType (entry : ObjectEntry) : Tells (registerType entry) := by
  intro g
  rw [registerType, bind_apply, get_apply]
  rcases registered : Program.registerType entry.name.toList g.program with ⟨table | index, program⟩
  · dsimp only
    rw [registered]
    exact Tells.fail (α := Unit) (.compile ⟨entry.script, 0, .exhausted table⟩) { g with program }
  · dsimp only
    rw [registered]
    exact Tells.pure () { g with program }

theorem tells_registerTypes : Tells registerTypes := .get fun g => .forM tells_registerType g.config.objects

theorem tells_compileSource (path : Path) (source : Text) (type : Nat) :
    Tells (compileSource path source type) := by
  intro g
  rcases ran : Compiler.compileFile path source type (compiler g.config g.program) with ⟨e | ⟨⟩, c⟩
  · rw [compileSource_of_error ran]
    exact Tells.fail (α := Unit) (.compile e) g
  · rw [compileSource_of_ok ran]
    exact Tells.pure () g

theorem tells_loadScript (files : Files) (entry : ObjectEntry) (type : Nat) :
    Tells (loadScript files entry type) := by
  refine .get fun g => ?_
  dsimp only
  split
  · exact tells_compileSource entry.script _ type
  · exact .fail _

theorem tells_clear : Tells (modify clearScriptData : Act PUnit) := .modify fun _ => rfl

theorem tells_loadScripts (files : Files) : Tells (loadScripts files) := by
  refine tells_clear.bind fun _ => tells_registerTypes.bind fun _ => .get fun g => ?_
  refine .forM (fun object => ?_) g.config.objects.zipIdx
  obtain ⟨entry, k⟩ := object
  exact tells_loadScript files entry (k + 1)

theorem tells_loadBytecode (files : Files) (path : Path) : Tells (loadBytecode files path) := by
  refine tells_clear.bind fun _ => tells_registerTypes.bind fun _ => ?_
  cases files.read path with
  | error error => exact .fail _
  | ok bytes =>
    refine .get fun g => ?_
    cases Bytecode.decode bytes g.program with
    | ok program => exact .modify fun _ => rfl
    | error error => exact .fail _

/-! ### Scripts -/

theorem tells_runBody (activation : Activation) (entry : EntryPoint) : Tells (runBody activation entry) := by
  intro g
  rcases ran : run g.program activation entry { g.machine with steps := 0 } with ⟨fault | ⟨⟩, m⟩
  · simp only [runBody, bind_apply, get_apply, ran, set_apply]
    exact Tells.fail (α := Unit) (.runtime fault) g
  · rw [runBody_of_ok ran]
    exact Tells.pure () g

theorem tells_processScript (object : Nat) (sub : SubScript) : Tells (processScript object sub) := by
  refine .get fun g => ?_
  cases g.entryPoint? object sub with
  | some entry => exact tells_runBody ⟨object, sub⟩ entry
  | none => exact .pure ()

theorem tells_setupType (type : Nat) : Tells (setupType type) := by
  refine .bind (.modify fun _ => rfl) fun _ => .get fun g => .ite ?_ (.pure ())
  exact .bind (.modify fun _ => rfl) fun _ => tells_processScript scratchSlot.val .startup

/-- The slot that was lent is given back, also behind a failure, which is told already. -/
theorem tells_setupObjects : Tells setupObjects := by
  have types : Tells setupTypes := .get fun _ => .forM tells_setupType _
  exact fun g => types (g.modifyScene ({ · with spriteFrames := #[] }))

theorem tells_processObject (slot : Fin entityCount) : Tells (processObject slot) := by
  refine .get fun g => .ite (.ite ?_ (.pure ())) (.ite (.modify fun _ => rfl) (.pure ()))
  exact (tells_processScript slot.val .main).bind fun _ => .modify fun _ => rfl

theorem tells_processObjects : Tells processObjects :=
  .bind (.modify fun _ => rfl) fun _ => .forM tells_processObject _

theorem tells_drawLayer (layer : Nat) : Tells (drawLayer layer) := by
  have object (object : Nat) : Tells (drawObject object) :=
    .get fun _ => .ite (tells_processScript object .draw) (.pure ())
  refine .get fun g => ?_
  cases g.machine.scene.drawLists[layer]? with
  | some list => exact .forM object list.toList
  | none => exact .pure ()

theorem tells_runFrame : Tells runFrame :=
  tells_processObjects.bind fun _ => .forM tells_drawLayer _

/-! ## Sessions -/

theorem Action.tells_act (action : Action) : Tells action.act := by
  cases action with
  | setupObjects => exact tells_setupObjects
  | processScript object sub => exact tells_processScript object sub
  | processPlayerInteraction object => exact tells_processScript object .playerInteraction
  | processObjects => exact tells_processObjects
  | drawLayer layer => exact tells_drawLayer layer
  | runFrame => exact tells_runFrame
  | change f => exact .modify fun _ => rfl

/-- What a game asks of an engine: to load a program, to do something with it, or to forget failures. -/
inductive Demand
  | registerTypes
  | compileSource (path : Path) (source : Text) (type : Nat)
  | loadScripts (files : Files)
  | loadBytecode (files : Files) (path : Path)
  | play (action : Action)
  | resetError

namespace Demand

/-- Does what is asked. -/
def act : Demand → Act Unit
  | .registerTypes => Engine.registerTypes
  | .compileSource path source type => Engine.compileSource path source type
  | .loadScripts files => Engine.loadScripts files
  | .loadBytecode files path => Engine.loadBytecode files path
  | .play action => action.act
  | .resetError => modify Engine.resetError

/-- Whether failures are forgotten. -/
def isReset : Demand → Bool
  | .resetError => true
  | _ => false

/-- **What is told behind a demand**: nothing where failures are forgotten, otherwise what was told before or
else what the demand fails for. -/
theorem error_act (demand : Demand) (g : Engine) :
    (demand.act g).2.error =
      if demand.isReset = true then none else told g.error (demand.act g).1 := by
  cases demand with
  | registerTypes => exact tells_registerTypes g
  | compileSource path source type => exact tells_compileSource path source type g
  | loadScripts files => exact tells_loadScripts files g
  | loadBytecode files path => exact tells_loadBytecode files path g
  | play action => exact action.tells_act g
  | resetError => rfl

end Demand

/-- A demand with the answer to it. -/
structure Reply where
  demand : Demand
  answer : Except EngineError Unit

/-- An engine with the replies it has given, the first one first. -/
structure Session where
  replies : List Reply
  engine : Engine

/-- Another demand in a session. -/
def Session.ask (s : Session) (demand : Demand) : Session :=
  let left := demand.act s.engine
  ⟨s.replies ++ [⟨demand, left.1⟩], left.2⟩

/-- **A session** is a sequence of demands to an engine. Each may fail, and the next goes on with what it
left. -/
def session (g : Engine) (demands : List Demand) : Session := demands.foldl Session.ask ⟨[], g⟩

/-- The replies since failures were last forgotten, or since the beginning. -/
def Session.recent (s : Session) : List Reply := s.replies.rtakeWhile fun reply => !reply.demand.isReset

/-- The wording of what a reply fails for. -/
def Reply.failure? (reply : Reply) : Option String := (Except.refusal? reply.answer).map EngineError.message

@[simp] theorem session_nil (g : Engine) : g.session [] = ⟨[], g⟩ := rfl

theorem session_concat (g : Engine) (demands : List Demand) (demand : Demand) :
    g.session (demands ++ [demand]) = (g.session demands).ask demand := List.foldl_concat ..

/-- Every demand has its reply. -/
theorem map_demand_session (g : Engine) (demands : List Demand) :
    (g.session demands).replies.map (·.demand) = demands := by
  induction demands using List.reverseRecOn with
  | nil => rfl
  | append_singleton demands demand ih =>
    rw [session_concat, Session.ask, List.map_append, ih]
    rfl

theorem recent_ask (s : Session) (demand : Demand) :
    (s.ask demand).recent =
      if demand.isReset = true then [] else s.recent ++ [⟨demand, (demand.act s.engine).1⟩] := by
  rw [Session.recent, Session.ask, List.rtakeWhile_concat]
  cases demand.isReset <;> rfl

/-- **The first failure is told** and kept. -/
theorem error_eq_findSome? {g : Engine} (fresh : g.error = none) (demands : List Demand) :
    (g.session demands).engine.error = (g.session demands).recent.findSome? Reply.failure? := by
  -- from the end, as it is the last demand that may forget what the ones before it have left
  induction demands using List.reverseRecOn with
  | nil => exact fresh
  | append_singleton demands demand ih =>
    rw [session_concat, recent_ask]
    show (demand.act (g.session demands).engine).2.error = _
    rw [demand.error_act]
    split
    · rfl
    · rw [List.findSome?_append, ← ih, List.findSome?_singleton]
      rfl

theorem Reply.failure?_eq_none_iff {reply : Reply} : reply.failure? = none ↔ reply.answer = .ok () := by
  obtain ⟨demand, e | ⟨⟩⟩ := reply
  · simp [failure?, Except.refusal?]
  · simp [failure?, Except.refusal?]

theorem Reply.failure?_eq_some_iff {reply : Reply} {text : String} :
    reply.failure? = some text ↔ ∃ e, reply.answer = .error e ∧ e.message = text := by
  obtain ⟨demand, e | ⟨⟩⟩ := reply
  · simp [failure?, Except.refusal?]
  · simp [failure?, Except.refusal?]

/-- **Failures stick.** An engine is started and gets any sequence of demands, each of which is answered.
Behind them it tells of no failure exactly if none of the demands has failed since failures were last
forgotten, or since the start; and what it tells otherwise is the wording of what the first of those failed
for. -/
theorem error_session (config : Config) (host : Host) (entropy : UInt64) (demands : List Demand) :
    let s := (start config host entropy).session demands
    s.replies.map (·.demand) = demands ∧
    (s.engine.error = none ↔ ∀ reply ∈ s.recent, reply.answer = .ok ()) ∧
    ∀ text, s.engine.error = some text ↔
      ∃ before reply behind e, s.recent = before ++ reply :: behind ∧
        (∀ earlier ∈ before, earlier.answer = .ok ()) ∧ reply.answer = .error e ∧ e.message = text := by
  intro s
  have first : s.engine.error = s.recent.findSome? Reply.failure? := error_eq_findSome? rfl demands
  refine ⟨map_demand_session _ demands, ?_, fun text => ?_⟩
  · rw [first, List.findSome?_eq_none_iff]
    exact forall₂_congr fun reply _ => Reply.failure?_eq_none_iff
  · rw [first, List.findSome?_eq_some_iff]
    constructor
    · rintro ⟨before, reply, behind, split, failed, fine⟩
      obtain ⟨e, answer, wording⟩ := Reply.failure?_eq_some_iff.1 failed
      exact ⟨before, reply, behind, e, split,
        fun earlier member => Reply.failure?_eq_none_iff.1 (fine earlier member), answer, wording⟩
    · rintro ⟨before, reply, behind, e, split, fine, answer, wording⟩
      exact ⟨before, reply, behind, split, Reply.failure?_eq_some_iff.2 ⟨e, answer, wording⟩,
        fun earlier member => Reply.failure?_eq_none_iff.2 (fine earlier member)⟩

/-- A file that is missing is told of until failures are forgotten. -/
theorem error_session_missing :
    ((start {} {} 1).session [.loadBytecode .empty "Scripts.bin", .registerTypes]).engine.error =
      some "LoadError: IOError: No such file or directory (os error 2)" ∧
    ((start {} {} 1).session
      [.loadBytecode .empty "Scripts.bin", .resetError, .registerTypes]).engine.error = none := by
  constructor
  · refine ((error_session {} {} 1 _).2.2 _).2
      ⟨[], ⟨.loadBytecode .empty "Scripts.bin", .error (.unreadable .notFound)⟩,
        [⟨.registerTypes, .ok ()⟩], .unreadable .notFound, rfl, List.forall_mem_nil _, rfl, by decide⟩
  · refine ((error_session {} {} 1 _).2.1).2 (List.forall_mem_singleton.2 ?_)
    rfl

end Engine

end StageScript
