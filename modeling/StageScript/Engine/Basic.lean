import StageScript.Compiler.File
import StageScript.Config
import StageScript.Machine.Run
import StageScript.Program.Bytecode

/-! # Engines
An engine is a configuration, a program and a machine that runs it.
* `EngineError` is why a command fails, and `EngineError.message` the wording;
* `Engine.Act` is a command that may fail; `Engine.fail` keeps the first failure in mind until
  `Engine.resetError`. -/

namespace StageScript

/-- Why a command of an engine fails. -/
inductive EngineError
  /-- A script does not compile. -/
  | compile (error : CompileError)
  /-- A script stops on a fault. -/
  | runtime (fault : Fault)
  /-- A bytecode file cannot be read. -/
  | unreadable (error : FileError)
  /-- A bytecode file holds no program. -/
  | malformed (error : Bytecode.Malformed)
  /-- A script cannot be read. -/
  | missingScript (path : Path) (error : FileError)
  deriving DecidableEq, Repr

/-- The wording of an engine error. -/
def EngineError.message : EngineError → String
  | .compile error => error.message
  | .runtime fault => "RuntimeError: " ++ fault.message
  | .unreadable error => "LoadError: IOError: " ++ error.message
  | .malformed error => "LoadError: " ++ error.message
  | .missingScript path error => "FileNotFoundError: " ++ path ++ ": " ++ error.message

/-- A game engine. -/
structure Engine where
  config : Config
  program : Program := {}
  machine : Machine
  /-- The wording of the first failure that has not been reset. -/
  error : Option String := none

namespace Engine

/-- The scene at the beginning. -/
def startScene (config : Config) : Scene where
  screen := Screen.ofSize config.screenWidth config.screenHeight
  engine := { version := config.engineVersion }
  globals := (config.globals.map (·.value)).toArray

/-- An engine at the beginning. Where the configuration has no seed, `entropy` is taken for it. -/
def start (config : Config) (host : Host) (entropy : UInt64) : Engine where
  config
  machine :=
    { scene := startScene config
      random := Random.ofSeed (config.seed.getD entropy)
      host
      strict := config.strictBounds }

/-- A command of an engine. What it changed before a failure stays changed. -/
abbrev Act := ExceptT EngineError (StateM Engine)

/-- Fails. Only the first failure is kept in mind. -/
def fail {α : Type} (e : EngineError) : Act α := do
  modify fun g => { g with error := some (g.error.getD e.message) }
  throw e

/-- Forgets failures. -/
def resetError (g : Engine) : Engine := { g with error := none }

/-- Changes the machine. -/
def modifyMachine (g : Engine) (change : Machine → Machine) : Engine :=
  { g with machine := change g.machine }

/-- Changes the scene. -/
def modifyScene (g : Engine) (change : Scene → Scene) : Engine :=
  g.modifyMachine (·.modifyScene change)

/-- Forgets the program, what types have loaded, sprite frames and animations. -/
def clearScriptData (g : Engine) : Engine :=
  { g with
    program := {}
    machine :=
      { g.machine with
        types := Vector.replicate typeCapacity {}
        scene := { g.machine.scene with spriteFrames := #[], animations := #[] } } }

end Engine

end StageScript
