import StageScript.Engine.Load
import StageScript.Proofs.Compiler.Appending
import StageScript.Proofs.Engine.Turn
import StageScript.Proofs.Program.Format

/-! # Sessions
A session is a sequence of commands to an engine. Each of them may fail, and the next goes on with what it
left.
* **`Engine.Command`** — the commands, and `Engine.after` what a sequence of them leaves;
* **`Engine.Elementary`** — the changes that commands are made of lead along a relation;
* **`Engine.Command.along`** — then whole commands do, as far as the turns of entities do;
* **`Engine.Command.Begins`** — the engines in which scripts begin to run while a command is carried out. -/

namespace StageScript

namespace Engine

open Stepwise

/-! ## Commands -/

/-- A command to an engine. -/
inductive Command
  | registerTypes
  | compileSource (path : Path) (source : Text) (type : Nat)
  | loadScripts (files : Files)
  | loadBytecode (files : Files) (path : Path)
  | clearScriptData
  | setupObjects
  | processScript (object : Nat) (sub : SubScript)
  | processObjects
  | drawLayer (layer : Nat)
  | runFrame
  | resetError
  | limitSteps (limit : Option UInt64)

/-- What a command leaves of an engine, whether it succeeds or fails. -/
def Command.perform : Command → Engine → Engine
  | registerTypes, g => (Engine.registerTypes g).2
  | compileSource path source type, g => (Engine.compileSource path source type g).2
  | loadScripts files, g => (Engine.loadScripts files g).2
  | loadBytecode files path, g => (Engine.loadBytecode files path g).2
  | clearScriptData, g => g.clearScriptData
  | setupObjects, g => (Engine.setupObjects g).2
  | processScript object sub, g => (Engine.processScript object sub g).2
  | processObjects, g => (Engine.processObjects g).2
  | drawLayer layer, g => (Engine.drawLayer layer g).2
  | runFrame, g => (Engine.runFrame g).2
  | resetError, g => g.resetError
  | limitSteps stepLimit, g => g.modifyMachine ({ · with stepLimit })

/-- What a sequence of commands leaves of an engine. -/
def after (g : Engine) (commands : List Command) : Engine :=
  commands.foldl (fun g command => command.perform g) g

@[simp] theorem after_nil (g : Engine) : g.after [] = g := rfl

@[simp] theorem after_append (g : Engine) (commands more : List Command) :
    g.after (commands ++ more) = (g.after commands).after more :=
  List.foldl_append

@[simp] theorem after_singleton (g : Engine) (command : Command) :
    g.after [command] = command.perform g := rfl

/-- **What each command keeps**, sequences keep. -/
theorem after_induction {P : Engine → Prop} {g : Engine} (begins : P g) {commands : List Command}
    (keeps : ∀ done command rest, commands = done ++ command :: rest → P (g.after done) →
      P (command.perform (g.after done))) : P (g.after commands) := by
  suffices ∀ rest done, commands = done ++ rest → P (g.after done) → P (g.after (done ++ rest)) from
    this commands [] rfl begins
  -- the induction is on the commands that are left; those that are done are the prefix in `keeps`
  intro rest
  induction rest with
  | nil =>
    intro done _ holds
    rwa [List.append_nil]
  | cons command rest ih =>
    intro done split holds
    have next := keeps done command rest split holds
    rw [← after_singleton, ← after_append] at next
    have whole := ih (done ++ [command]) (by rw [split, List.append_assoc]; rfl) next
    rwa [List.append_assoc] at whole

/-! ## Loading -/

section

variable {path : Path} {source : Text} {type : Nat} {g : Engine} {c : Compiler}

/-- A script that compiles is added to the program. -/
theorem compileSource_of_ok
    (compiled : Compiler.compileFile path source type (compiler g.config g.program) = (.ok (), c)) :
    compileSource path source type g = (.ok (), { g with program := c.program }) := by
  simp only [compileSource, bind_apply, get_apply, compiled, set_apply, pure_apply]

/-- Of one that does not, what was added before the failure stays. -/
theorem compileSource_of_error {e : CompileError}
    (failed : Compiler.compileFile path source type (compiler g.config g.program) = (.error e, c)) :
    compileSource path source type g = (.error (.compile e),
      { g with program := c.program, error := some (g.error.getD (EngineError.compile e).message) }) := by
  simp only [compileSource, bind_apply, get_apply, failed, set_apply, fail_apply]

end

/-- Decoding leaves the names of types. -/
theorem typeNames_decode {bytes : List UInt8} {p q : Program} (decoded : Bytecode.decode bytes p = .ok q) :
    q.typeNames = p.typeNames := by
  rcases read : Bytecode.readProgram p ⟨0, bytes⟩ with e | ⟨q', c⟩
  · rw [Bytecode.decode, StateT.run, read] at decoded
    cases decoded
  · obtain ⟨front, ⟨f, -, rfl⟩, -⟩ := (Bytecode.parses_readProgram p ⟨0, bytes⟩).taken q' c read
    rw [Bytecode.decode, StateT.run, read] at decoded
    rw [← Except.ok.inj decoded]
    rfl

/-! ## Elementary changes -/

/-- **The changes that commands are made of** lead along a relation: another program, in which no type too
many is registered; what is told of failures; forgetting everything; a machine that scripts can make; and
the beginning of a type's frames. -/
structure Elementary (R : Engine → Engine → Prop) : Prop where
  program : ∀ g program,
    (g.program.typeNames.size ≤ typeCapacity → program.typeNames.size ≤ typeCapacity) →
      R g { g with program }
  error : ∀ g error, R g { g with error }
  clear : ∀ g, R g g.clearScriptData
  machine : ∀ g machine, g.machine.Evolves machine → R g { g with machine }
  frames : ∀ g type, R g (openFrames type g)

namespace Elementary

variable {R : Engine → Engine → Prop}

/-- A change of the scene that scripts can make. -/
theorem scene (h : Elementary R) (g : Engine) {change : Scene → Scene}
    (evolves : g.machine.scene.Evolves (change g.machine.scene)) : R g (g.modifyScene change) :=
  h.machine g _ (Machine.evolves_scene evolves)

theorem fail {α : Type} (h : Elementary R) (e : EngineError) : Along R (Engine.fail e : Act α) :=
  fun g => h.error g _

variable [IsPreorder Engine R]

/-! ### Loading -/

theorem registerType (h : Elementary R) (entry : ObjectEntry) : Along R (registerType entry) := by
  refine Along.get_bind fun g => ?_
  have few : ∀ answer program, Program.registerType entry.name.toList g.program = (answer, program) →
      g.program.typeNames.size ≤ typeCapacity → program.typeNames.size ≤ typeCapacity := by
    intro answer program registered fits
    unfold Program.registerType at registered
    split at registered
    · next room =>
      obtain rfl := (Prod.mk.inj registered).2
      rw [Array.size_push]
      exact room
    · exact (Prod.mk.inj registered).2 ▸ fits
  rcases registered : Program.registerType entry.name.toList g.program with ⟨table | _, program⟩
  · exact trans_of R (h.program g program (few _ _ registered)) (h.error _ _)
  · exact h.program g program (few _ _ registered)

theorem registerTypes (h : Elementary R) : Along R registerTypes := by
  refine Along.get_bind fun g => ?_
  have each : Along R (g.config.objects.forM Engine.registerType) := Along.forM fun entry _ => h.registerType entry
  exact each g

theorem compileSource (h : Elementary R) (path : Path) (source : Text) (type : Nat) :
    Along R (compileSource path source type) := by
  intro g
  -- what a file adds leaves the names of types
  obtain ⟨added, good, program, -⟩ :=
    Compiler.compileFile_behind path source type (compiler g.config g.program)
  have names := (good.addedTo type).typeNames
  rw [← program] at names
  rcases ran : Compiler.compileFile path source type (compiler g.config g.program) with ⟨e | ⟨⟩, c⟩ <;>
    rw [ran] at names
  · rw [compileSource_of_error ran]
    exact trans_of R (h.program g c.program fun fits => by rwa [names]) (h.error _ _)
  · rw [compileSource_of_ok ran]
    exact h.program g c.program fun fits => by rwa [names]

theorem loadScript (h : Elementary R) (files : Files) (entry : ObjectEntry) (type : Nat) :
    Along R (loadScript files entry type) := by
  refine Along.get_bind fun g => ?_
  cases files.readText (g.config.scriptPath entry.script) with
  | ok source => exact h.compileSource entry.script source type g
  | error error => exact h.error g _

theorem loadScripts (h : Elementary R) (files : Files) : Along R (loadScripts files) :=
  (Along.modify h.clear).bind fun _ => h.registerTypes.bind fun _ =>
    Along.get_bind fun g => Along.forM (fun entry _ => h.loadScript files entry.1 (entry.2 + 1)) g

theorem loadBytecode (h : Elementary R) (files : Files) (path : Path) :
    Along R (loadBytecode files path) := by
  refine (Along.modify h.clear).bind fun _ => h.registerTypes.bind fun _ => ?_
  cases files.read path with
  | error error => exact h.fail _
  | ok bytes =>
    refine Along.get_bind fun g => ?_
    cases decoded : Bytecode.decode bytes g.program with
    | ok program => exact h.program g program fun fits => by rwa [typeNames_decode decoded]
    | error error => exact h.error g _

/-! ### Scripts -/

theorem processScript (h : Elementary R) (object : Nat) (sub : SubScript) :
    Along R (processScript object sub) := by
  refine along_processScript fun g entry _ => ?_
  obtain ⟨machine, error, left, evolves⟩ := exists_runBody_evolves ⟨object, sub⟩ entry g
  rw [left]
  exact trans_of R (h.machine g machine evolves) (h.error _ error)

theorem setupType (h : Elementary R) (type : Nat) : Along R (setupType type) := by
  refine (Along.modify fun g => h.frames g type).bind fun _ => Along.get_bind fun g => ?_
  refine Along.ite ?_ (.pure ()) g
  exact (Along.modify fun g => h.scene g (.of_extent rfl)).bind fun _ => h.processScript _ _

theorem setupObjects (h : Elementary R) : Along R setupObjects := by
  have types : Along R setupTypes :=
    Along.get_bind fun g => Along.forM (fun type _ => h.setupType type) g
  intro g
  have empty : R g (g.modifyScene ({ · with spriteFrames := #[] })) :=
    h.scene g (Scene.evolves_spriteFrames (Nat.zero_le _))
  -- the slot that was lent is given back, also behind a failure
  exact trans_of R (trans_of R empty (types _)) (h.scene _ (.of_extent rfl))

theorem drawLayer (h : Elementary R) (layer : Nat) : Along R (drawLayer layer) :=
  along_drawLayer (fun object => h.processScript object .draw) layer

end Elementary

/-- Whether entities get their turns in a command. -/
def Command.takesTurns : Command → Bool
  | processObjects => true
  | runFrame => true
  | _ => false

/-- **Commands lead along a preorder** if the changes do that they are made of, and the turns of
entities. -/
theorem Command.along {R : Engine → Engine → Prop} [IsPreorder Engine R] (h : Elementary R) {g : Engine}
    (command : Command) (turns : command.takesTurns = true → R g (Engine.processObjects g).2) :
    R g (command.perform g) := by
  cases command with
  | registerTypes => exact h.registerTypes g
  | compileSource path source type => exact h.compileSource path source type g
  | loadScripts files => exact h.loadScripts files g
  | loadBytecode files path => exact h.loadBytecode files path g
  | clearScriptData => exact h.clear g
  | setupObjects => exact h.setupObjects g
  | processScript object sub => exact h.processScript object sub g
  | processObjects => exact turns rfl
  | drawLayer layer => exact h.drawLayer layer g
  | runFrame =>
    have draws : Along R ((List.range drawListCount).forM Engine.drawLayer) :=
      Along.forM fun layer _ => h.drawLayer layer
    exact Along.bind_of (turns rfl) fun _ => draws
  | resetError => exact h.error g none
  | limitSteps stepLimit => exact h.machine g _ (.of_same rfl rfl rfl rfl)

/-! ## Where scripts begin -/

/-- An engine before the startup sub-script of a type: a slot is lent to the type, and its frames begin. -/
def lent (type : Nat) (g : Engine) : Engine :=
  (openFrames type g).modifyScene fun s =>
    s.modifyEntity scratchSlot fun e => { e with typeId := UInt8.ofNat type }

/-- **The engines in which scripts begin to run** while a command is carried out: each behind what was done
for the types, entities or layers in front, all of it or up to the first failure. -/
inductive Command.Begins : Command → Engine → Engine → Prop
  | script (object : Nat) (sub : SubScript) (g : Engine) : Begins (.processScript object sub) g g
  | startup (k type : Nat) (g : Engine) :
      Begins .setupObjects g (lent type (((List.range' 1 (g.program.typeNames.size - 1)).take k).forM setupType
        (g.modifyScene ({ · with spriteFrames := #[] }))).2)
  | turn (k : Nat) (g : Engine) :
      Begins .processObjects g (((List.finRange entityCount).take k).forM processObject g.emptied).2
  | draw (k layer : Nat) (list : Array Nat) (g : Engine) (found : g.machine.scene.drawLists[layer]? = some list) :
      Begins (.drawLayer layer) g ((list.toList.take k).forM drawObject g).2
  | turnInFrame {g g' : Engine} (turn : Begins .processObjects g g') : Begins .runFrame g g'
  | drawInFrame {k layer : Nat} {g g' : Engine}
      (draw : Begins (.drawLayer layer)
        (((List.range drawListCount).take k).forM Engine.drawLayer (Engine.processObjects g).2).2 g') :
      Begins .runFrame g g'

/-- **To where scripts begin**, engines lead along the same preorders. -/
theorem Command.Begins.along {R : Engine → Engine → Prop} [IsPreorder Engine R] (h : Elementary R)
    (empty : ∀ g, R g g.emptied) (turn : ∀ slot, Along R (processObject slot)) {command : Command}
    {g g' : Engine} (begins : command.Begins g g') : R g g' := by
  induction begins with
  | script => exact refl_of R _
  | startup k type g =>
    have bare : R g (g.modifyScene ({ · with spriteFrames := #[] })) :=
      h.scene g (Scene.evolves_spriteFrames (Nat.zero_le _))
    have types : Along R (((List.range' 1 (g.program.typeNames.size - 1)).take k).forM Engine.setupType) :=
      Along.forM fun type _ => h.setupType type
    exact trans_of R (trans_of R bare (types _)) (trans_of R (h.frames _ type) (h.scene _ (.of_extent rfl)))
  | turn k g =>
    have turns : Along R (((List.finRange entityCount).take k).forM processObject) :=
      Along.forM fun slot _ => turn slot
    exact trans_of R (empty g) (turns _)
  | draw k layer list g =>
    have draws : Along R ((list.toList.take k).forM drawObject) :=
      Along.forM fun object _ => along_drawObject (fun object => h.processScript object .draw) object
    exact draws g
  | turnInFrame _ reached => exact reached
  | @drawInFrame k layer g _ _ reached =>
    have layers : Along R (((List.range drawListCount).take k).forM Engine.drawLayer) :=
      Along.forM fun layer _ => h.drawLayer layer
    exact trans_of R (along_processObjects empty turn g) (trans_of R (layers _) reached)

end Engine

end StageScript
