import StageScript.CommandLine.Request
import StageScript.Engine.Frame
import StageScript.Engine.Load
import StageScript.Host.Files
import StageScript.Program.Listing
import StageScript.Scene.Record

/-! # Outcomes
* `Outcome` is what a command line leads to: text to print, or a file to write;
* `Command.outcome` gives the outcome of a command, and `Command.consulted` the files that it depends
  on. -/

namespace StageScript

/-- What a command line leads to. -/
inductive Outcome
  /-- A text is printed. -/
  | print (text : String)
  /-- A file is written, if need be with the directories that it lies in, and then a text is printed. -/
  | write (path : Path) (bytes : List UInt8) (makesDirectories : Bool) (report : String)
  /-- The command fails. -/
  | failure (message : String)
  /-- The command line makes no sense. -/
  | misuse
  deriving DecidableEq, Repr

/-- What surrounds a command. -/
structure Surroundings where
  environment : Environment := {}
  files : Files
  /-- The seed of random numbers where the configuration has none. -/
  entropy : UInt64 := 0

namespace Surroundings

/-- Loads a configuration. -/
def loadConfig (s : Surroundings) (path : Path) : Except ConfigError Config :=
  Config.load s.environment s.files path

end Surroundings

namespace Command

/-! ## Compiling -/

/-- What is said about a compiled program. -/
def compileReport (p : Program) (output : Path) : String :=
  "Compiled " ++ Numeral.showNat (p.typeNames.size - 1) ++ " object type(s), "
    ++ Numeral.showNat p.code.size ++ " code words, " ++ Numeral.showNat p.jumpTable.size
    ++ " jump words into " ++ output ++ "\n"

/-- The outcome of compiling. -/
def compileOutcome (s : Surroundings) (config : Config) (output : Path) : Outcome :=
  match Engine.loadScripts s.files (Engine.start config (Host.ofFiles s.files none) s.entropy) with
  | (.ok (), g) =>
    .write output (Bytecode.encode g.program) false (compileReport g.program output)
  | (.error e, _) => .failure e.message

/-! ## Running -/

/-- Puts an active entity of each registered type into the first slots, in order. -/
def placeEntities (g : Engine) : Engine :=
  let types := g.program.typeNames.size - 1
  g.modifyScene fun s =>
    { s with
      entities := Vector.ofFn fun slot =>
        if slot.val < types then
          { s.entities.get slot with typeId := UInt8.ofNat (slot.val + 1), priority := 1 }
        else s.entities.get slot }

/-- Runs frames. -/
def runFrames : Nat → Engine.Act Unit
  | 0 => return
  | frames + 1 => do
    Engine.runFrame
    runFrames frames

/-- Loads the scripts, lets the types start up and runs frames. -/
def play (files : Files) (frames : Nat) : Engine.Act Unit := do
  Engine.loadScripts files
  Engine.setupObjects
  modify placeEntities
  runFrames frames

/-- The directory of animations and texts: the one that is asked for, or that of the scripts. -/
def dataDirectory (config : Config) (asked : Option Path) : Option Path :=
  asked <|> config.scriptsDirectory.parent?

/-- The engine behind a run, with the answer of the run. -/
def played (s : Surroundings) (config : Config) (frames : Nat) (maxSteps : Option UInt64)
    (directory : Option Path) : Except EngineError Unit × Engine :=
  let g := Engine.start config (Host.ofFiles s.files directory) s.entropy
  play s.files frames (g.modifyMachine fun m => { m with stepLimit := maxSteps })

/-- The entities in play as records. -/
def entityRecords (s : Scene) : List Json :=
  (s.entities.toList.zipIdx.filter fun (e, _) => e.typeId ≠ 0).map fun (e, slot) =>
    .ofFields (("slot", .ofNat slot) :: e.toFields)

/-- The outcome of running. -/
def runOutcome (answer : Except EngineError Unit × Engine) : Outcome :=
  match answer with
  | (.ok (), g) => .print ((Json.array (entityRecords g.machine.scene)).pretty ++ "\n")
  | (.error e, _) => .failure e.message

/-! ## Files -/

/-- The outcome of listing a bytecode file. -/
def dumpOutcome (s : Surroundings) (bytecode : Path) : Outcome :=
  match s.files.read bytecode with
  | .error e => .failure (EngineError.unreadable e).message
  | .ok bytes =>
    match Bytecode.decode bytes {} with
    | .error e => .failure (EngineError.malformed e).message
    | .ok p =>
      match Listing.program p with
      | .error fault => .failure (EngineError.runtime fault).message
      | .ok listing => .print listing

/-- The outcome of making a configuration file. A file that is there is left alone. -/
def initOutcome (s : Surroundings) (path : Path) : Outcome :=
  if s.files.exists? path then
    .print ("Configuration already exists at: " ++ path ++ "\nRemove the file to reinitialize.\n")
  else
    .write path (Utf8.encode (Config.standard s.environment).text.toList) true
      ("Initialized new configuration at: " ++ path ++ "\n")

/-! ## Commands -/

/-- The outcome of a command that begins with its configuration. -/
def withConfig (s : Surroundings) (path : Path) (rest : Config → Outcome) : Outcome :=
  match s.loadConfig path with
  | .ok config => rest config
  | .error e => .failure e.message

/-- The outcome of a command. -/
def outcome (s : Surroundings) : Command → Outcome
  | .compile path output => withConfig s path (compileOutcome s · output)
  | .run path frames maxSteps directory => withConfig s path fun config =>
      runOutcome (played s config frames maxSteps (dataDirectory config directory))
  | .dump bytecode => dumpOutcome s bytecode
  | .initConfig path => initOutcome s path
  | .showConfig path => withConfig s path fun config => .print (config.text ++ "\n")

/-- The scripts of a configuration. -/
def scriptPaths (config : Config) : List Path :=
  config.objects.map fun entry => config.scriptPath entry.script

/-- The files that the outcome of a command depends on, as far as the files at hand show. -/
def consulted (s : Surroundings) : Command → List Path
  | .compile path _ => path :: (s.loadConfig path).toOption.elim [] scriptPaths
  | .run path frames maxSteps directory =>
    path :: (s.loadConfig path).toOption.elim [] fun config =>
      let directory := dataDirectory config directory
      let (_, g) := played s config frames maxSteps directory
      scriptPaths config ++ Host.dataPaths directory g.machine.history
  | .dump bytecode => [bytecode]
  | .initConfig path => [path]
  | .showConfig path => [path]

end Command

namespace Request

/-- What is printed about the use of the program. -/
def usage : String :=
  "Usage: <compile CONFIG [-o OUTPUT] | run CONFIG [--frames N] [--max-steps N] [--data-dir DIR]\n"
    ++ "       | dump BYTECODE | config init PATH | config show PATH> [-v]\n"

/-- The program's name and version. -/
def versionLine : String := "retro-script 0.1.0\n"

/-- The outcome of a request. -/
def outcome (s : Surroundings) : Request → Outcome
  | .command c => c.outcome s
  | .help => .print usage
  | .version => .print versionLine
  | .misuse => .misuse

/-- The files that the outcome of a request depends on, as far as the files at hand show. -/
def consulted (s : Surroundings) : Request → List Path
  | .command c => c.consulted s
  | _ => []

end Request

end StageScript
