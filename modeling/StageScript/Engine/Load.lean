import StageScript.Engine.Basic

/-! # Loading programs
* `Engine.registerTypes` makes the configured object types known, from type one on;
* `Engine.compileSource` adds a script to the program;
* `Engine.loadScripts` and `Engine.loadBytecode` replace the program by the configured scripts or by
  a bytecode file. -/

namespace StageScript

namespace Engine

/-- Registers the type of a configured object. -/
def registerType (entry : ObjectEntry) : Act Unit := do
  let g ← get
  let (answer, program) := Program.registerType entry.name.toList g.program
  set { g with program }
  match answer with
  | .ok _ => return
  | .error table => fail (.compile ⟨entry.script, 0, .exhausted table⟩)

/-- Registers the types of the configured objects. -/
def registerTypes : Act Unit := do (← get).config.objects.forM registerType

/-- The compiler that goes on with a program. -/
def compiler (config : Config) (program : Program) : Compiler where
  program
  globals := config.globalNames.map String.toList
  tags := config.platform.toList.map String.toList

/-- Compiles a script, whose sub-scripts belong to an object type. -/
def compileSource (path : Path) (source : Text) (type : Nat) : Act Unit := do
  let ⟨config, program, machine, error⟩ ← get
  let (answer, c) := Compiler.compileFile path source type (compiler config program)
  set (⟨config, c.program, machine, error⟩ : Engine)
  match answer with
  | .ok () => return
  | .error e => fail (.compile e)

/-- Compiles the script of a configured object. -/
def loadScript (files : Files) (entry : ObjectEntry) (type : Nat) : Act Unit := do
  let path := (← get).config.scriptPath entry.script
  match files.readText path with
  | .ok source => compileSource entry.script source type
  | .error error => fail (.missingScript path error)

/-- Replaces the program by the scripts of the configured objects. -/
def loadScripts (files : Files) : Act Unit := do
  modify clearScriptData
  registerTypes
  (← get).config.objects.zipIdx.forM fun (entry, k) => loadScript files entry (k + 1)

/-- Replaces the program by a bytecode file. The names of types are those of the configured
objects. -/
def loadBytecode (files : Files) (path : Path) : Act Unit := do
  modify clearScriptData
  registerTypes
  match files.read path with
  | .error error => fail (.unreadable error)
  | .ok bytes =>
    match Bytecode.decode bytes (← get).program with
    | .ok program => modify ({ · with program })
    | .error error => fail (.malformed error)

end Engine

end StageScript
