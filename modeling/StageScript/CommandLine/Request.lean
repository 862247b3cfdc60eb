import StageScript.File.Path
import StageScript.Text.Numeral

/-! # Requests
What a user asks for on the command line.
* `CommandLine.scan` sorts arguments into options and plain arguments;
* `Request.ofArguments` reads a whole command line. -/

namespace StageScript

/-- A command. -/
inductive Command
  /-- Compiles the configured scripts into a bytecode file. -/
  | compile (config output : Path)
  /-- Runs frames and shows the entities. -/
  | run (config : Path) (frames : Nat) (maxSteps : Option UInt64) (dataDirectory : Option Path)
  /-- Lists a bytecode file. -/
  | dump (bytecode : Path)
  /-- Writes a configuration file with defaults. -/
  | initConfig (path : Path)
  /-- Shows a configuration with its defaults. -/
  | showConfig (path : Path)
  deriving DecidableEq, Repr

/-- What a command line asks for. -/
inductive Request
  | command (command : Command)
  /-- The usage is to be shown. -/
  | help
  /-- The version is to be shown. -/
  | version
  /-- The command line makes no sense. -/
  | misuse
  deriving DecidableEq, Repr

namespace CommandLine

/-! ## Options -/

/-- What an option does. -/
inductive OptionKind
  /-- It stands alone. -/
  | flag
  /-- It takes a value, which has to be acceptable. -/
  | value (accepts : String → Bool)
  /-- It turns the command line into another request. -/
  | ask (request : Request)

/-- An option. -/
structure OptionForm where
  /-- The name behind two dashes. -/
  long : String
  /-- The letter behind one dash. -/
  short : Option Char
  kind : OptionKind

/-- The arguments of a command. -/
structure Given where
  /-- The options by their long names, with their values. -/
  options : List (String × String) := []
  /-- The plain arguments. -/
  plain : List String := []

namespace Given

/-- The value of an option. -/
def value? (g : Given) (name : String) : Option String := g.options.lookup name

/-- Adds an option, which may be given only once. -/
def add (g : Given) (option : OptionForm) (value : String) : Except Request Given :=
  if (g.value? option.long).isSome then .error .misuse
  else .ok { g with options := g.options ++ [(option.long, value)] }

/-- Adds an option with its value. -/
def addValue (g : Given) (option : OptionForm) (value : String) : Except Request Given :=
  match option.kind with
  | .value accepts => if accepts value then g.add option value else .error .misuse
  | _ => .error .misuse

/-- Adds a plain argument, which may not be empty, if there is room for another one. -/
def addPlain (g : Given) (room : Nat) (argument : String) : Except Request Given :=
  if g.plain.length < room && !argument.isEmpty then .ok { g with plain := g.plain ++ [argument] }
  else .error .misuse

end Given

/-! ## Scanning -/

/-- Whether an argument can only be an option. -/
def isOption (argument : String) : Bool :=
  match argument.toList with
  | '-' :: _ :: _ => true
  | _ => false

/-- Reads the letters behind one dash. An option that still waits for its value is given beside the
arguments. -/
def scanLetters (forms : List OptionForm) : Text → Given → Except Request (Given × Option OptionForm)
  | [], g => .ok (g, none)
  | c :: rest, g => do
    match forms.find? (·.short == some c) with
    | none => throw .misuse
    | some form =>
      match form.kind with
      | .ask request => throw request
      | .flag => scanLetters forms rest (← g.add form "")
      | .value _ =>
        match rest with
        | [] => return (g, some form)
        | '=' :: value => return (← g.addValue form (String.ofList value), none)
        | value => return (← g.addValue form (String.ofList value), none)

/-- Reads an option behind two dashes. An option that still waits for its value is given beside the
arguments. -/
def scanName (forms : List OptionForm) (text : Text) (g : Given) :
    Except Request (Given × Option OptionForm) := do
  let name := String.ofList (text.takeWhile (· ≠ '='))
  match forms.find? (·.long == name), text.dropWhile (· ≠ '=') with
  | none, _ => throw .misuse
  | some form, [] =>
    match form.kind with
    | .ask request => throw request
    | .flag => return (← g.add form "", none)
    | .value _ => return (g, some form)
  | some form, _ :: value => return (← g.addValue form (String.ofList value), none)

/-- Reads an argument that begins with a dash. -/
def scanOption (forms : List OptionForm) (argument : String) (g : Given) :
    Except Request (Given × Option OptionForm) :=
  match argument.toList with
  | '-' :: '-' :: name => scanName forms name g
  | '-' :: letters => scanLetters forms letters g
  | _ => .error .misuse

/-- Sorts arguments into options and at most `room` plain ones. Behind two dashes all arguments are
plain. -/
def scan (forms : List OptionForm) (room : Nat) : (waiting : Option OptionForm) → List String →
    Given → Except Request Given
  | none, [], g => .ok g
  | some _, [], _ => .error .misuse
  | some form, argument :: rest, g => do
    if isOption argument then throw .misuse
    scan forms room none rest (← g.addValue form argument)
  | none, argument :: rest, g => do
    if argument = "--" then rest.foldlM (·.addPlain room) g
    else if isOption argument then
      let (g, waiting) ← scanOption forms argument g
      scan forms room waiting rest g
    else scan forms room none rest (← g.addPlain room argument)

/-- Reads the options in front of a command's name, and gives the name with the arguments behind
it. -/
def scanFront (forms : List OptionForm) : List String → Given → Except Request (String × List String)
  | [], _ => .error .misuse
  | argument :: rest, g => do
    if argument = "--" then throw .misuse
    else if isOption argument then
      match ← scanOption forms argument g with
      | (g, none) => scanFront forms rest g
      | (_, some _) => throw .misuse
    else return (argument, rest)

/-! ## Values -/

/-- A number of frames, as a 32-bit one. A sign is allowed as long as the number is not negative. -/
def frames? (text : String) : Option Nat :=
  let value? :=
    match text.toList with
    | '-' :: digits => (Numeral.natural? digits).filter (· = 0)
    | '+' :: digits => Numeral.natural? digits
    | digits => Numeral.natural? digits
  value?.filter (· < 0x100000000)

/-- A number of steps, as a 64-bit one. -/
def steps? (text : String) : Option Nat :=
  let value? :=
    match text.toList with
    | '+' :: digits => Numeral.natural? digits
    | digits => Numeral.natural? digits
  value?.filter (· < 0x10000000000000000)

/-- An option whose value is a path. -/
def pathOption (long : String) (short : Option Char) : OptionForm :=
  ⟨long, short, .value fun text => !text.isEmpty⟩

/-- The option for more messages, which every command has. -/
def verbose : OptionForm := ⟨"verbose", some 'v', .flag⟩

/-- The option for the usage, which every command has. -/
def help : OptionForm := ⟨"help", some 'h', .ask .help⟩

/-- The option for the version. -/
def version : OptionForm := ⟨"version", some 'V', .ask .version⟩

/-! ## Commands -/

/-- Reads the arguments of a command with one plain argument. -/
def scanOne (forms : List OptionForm) (arguments : List String) : Except Request (Given × String) := do
  let g ← scan (verbose :: help :: forms) 1 none arguments {}
  match g.plain with
  | [argument] => return (g, argument)
  | _ => throw .misuse

/-- Reads the arguments of the command that compiles. -/
def compileCommand (arguments : List String) : Except Request Command := do
  let (g, config) ← scanOne [pathOption "output" (some 'o')] arguments
  return .compile config ((g.value? "output").getD "Scripts.bin")

/-- Reads the arguments of the command that runs frames. -/
def runCommand (arguments : List String) : Except Request Command := do
  let forms := [⟨"frames", none, .value fun text => (frames? text).isSome⟩,
    ⟨"max-steps", none, .value fun text => (steps? text).isSome⟩, pathOption "data-dir" none]
  let (g, config) ← scanOne forms arguments
  let frames := ((g.value? "frames").bind frames?).getD 1
  let maxSteps := ((g.value? "max-steps").bind steps?).map UInt64.ofNat
  return .run config frames maxSteps (g.value? "data-dir")

/-- Whether names lead to a command, so that its usage can be shown. -/
def isKnown : List String → Bool
  | [] => true
  | ["config", name] => ["init", "show", "help"].contains name
  | [name] => ["compile", "run", "dump", "config", "help"].contains name
  | _ => false

/-- Reads the command on configurations that is asked for. -/
def configCommand (arguments : List String) : Except Request Command := do
  let (name, rest) ← scanFront [verbose, help] arguments {}
  match name with
  | "init" => return .initConfig (← scanOne [] rest).2
  | "show" => return .showConfig (← scanOne [] rest).2
  | "help" => throw (if isKnown ("config" :: rest) then .help else .misuse)
  | _ => throw .misuse

/-- Reads the command that is asked for. -/
def readCommand (arguments : List String) : Except Request Command := do
  let (name, rest) ← scanFront [verbose, help, version] arguments {}
  match name with
  | "compile" => compileCommand rest
  | "run" => runCommand rest
  | "dump" => return .dump (← scanOne [] rest).2
  | "config" => configCommand rest
  | "help" => throw (if isKnown rest then .help else .misuse)
  | _ => throw .misuse

end CommandLine

/-- Reads a command line. -/
def Request.ofArguments (arguments : List String) : Request :=
  match CommandLine.readCommand arguments with
  | .ok found => .command found
  | .error request => request

end StageScript
