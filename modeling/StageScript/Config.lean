import StageScript.File.Basic
import StageScript.Json.Printer
import StageScript.Json.Reader
import StageScript.Json.Record

/-! # Configurations
What a game is made of: its scripts, globals and object types, and how it is to run.
* `Config.ofJson?` and `Config.toJson` are its form in files, where a missing field has its default;
* `Config.load` reads a file. A relative scripts directory is seen from the file's own directory. -/

namespace StageScript

/-- The settings of the environment, as far as they are set. -/
structure Environment where
  platform : Option String := none
  scriptsDirectory : Option String := none

/-- The build tags that platform lines of scripts can name. -/
structure PlatformTags where
  platform : String := "Standard"
  renderType : String := "SW_Rendering"
  haptics : String := "No_Haptics"
  releaseType : String := "Use_Standalone"
  deriving DecidableEq, Repr

/-- A global of the configuration. -/
structure GlobalVariable where
  name : String
  value : Word := 0
  deriving DecidableEq, Repr

/-- An object type and its script. -/
structure ObjectEntry where
  name : String
  /-- The script's path in the scripts directory. -/
  script : Path
  deriving DecidableEq, Repr

/-- A configuration. -/
structure Config where
  scriptsDirectory : Path := "./Data/Scripts"
  platform : PlatformTags := {}
  globals : List GlobalVariable := []
  /-- The object types, from type one on. -/
  objects : List ObjectEntry := []
  screenWidth : Word := 424
  screenHeight : Word := 240
  /-- Whether scripts run in strict mode. -/
  strictBounds : Bool := false
  /-- The seed of random numbers; without one they are not repeatable. -/
  seed : Option UInt64 := none
  engineVersion : String := "1.0.0"
  deriving DecidableEq, Repr

/-! ## Tags -/

namespace PlatformTags

/-- The tags that are set. -/
def toList (tags : PlatformTags) : List String :=
  [tags.platform, tags.renderType, tags.haptics, tags.releaseType]

/-- Whether a tag is set. Here the case of letters matters. -/
def has (tags : PlatformTags) (tag : String) : Bool := tags.toList.contains tag

/-- The tags of an environment where no configuration sets them. -/
def standard (env : Environment) : PlatformTags :=
  { platform := env.platform.getD "Standard" }

/-- Reads tags. -/
def ofJson? (env : Environment) (value : Json) : Option PlatformTags := do
  let fields ← value.record? ["platform", "render_type", "haptics", "release_type"]
  let missing := standard env
  return {
    platform := ← Json.optional? Json.string? missing.platform fields 0
    renderType := ← Json.optional? Json.string? missing.renderType fields 1
    haptics := ← Json.optional? Json.string? missing.haptics fields 2
    releaseType := ← Json.optional? Json.string? missing.releaseType fields 3 }

/-- Tags as a record. -/
def toJson (tags : PlatformTags) : Json :=
  .ofFields [("platform", .ofString tags.platform), ("render_type", .ofString tags.renderType),
    ("haptics", .ofString tags.haptics), ("release_type", .ofString tags.releaseType)]

end PlatformTags

/-! ## Entries -/

/-- Reads a global, which has to have a name. -/
def GlobalVariable.ofJson? (value : Json) : Option GlobalVariable := do
  let fields ← value.record? ["name", "value"]
  return {
    name := ← Json.required? Json.string? fields 0
    value := ← Json.optional? Json.word? 0 fields 1 }

/-- A global as a record. -/
def GlobalVariable.toJson (g : GlobalVariable) : Json :=
  .ofFields [("name", .ofString g.name), ("value", .ofWord g.value)]

/-- Reads an object type, which has to have a name and a script. -/
def ObjectEntry.ofJson? (value : Json) : Option ObjectEntry := do
  let fields ← value.record? ["name", "script"]
  return {
    name := ← Json.required? Json.string? fields 0
    script := ← Json.required? Json.string? fields 1 }

/-- An object type as a record. -/
def ObjectEntry.toJson (entry : ObjectEntry) : Json :=
  .ofFields [("name", .ofString entry.name), ("script", .ofString entry.script)]

/-! ## Configurations -/

namespace Config

/-- The configuration of an environment where no file sets anything. -/
def standard (env : Environment) : Config where
  scriptsDirectory := env.scriptsDirectory.getD "./Data/Scripts"
  platform := PlatformTags.standard env

/-- Reads a seed, of which there may be none. -/
def seed? : Json → Option (Option UInt64)
  | .null => some none
  | value => value.natural?.map fun n => some (UInt64.ofNat n)

/-- Reads a configuration. -/
def ofJson? (env : Environment) (value : Json) : Option Config := do
  let fields ← value.record? ["scripts_dir", "platform", "globals", "objects", "screen_width",
    "screen_height", "strict_bounds", "rng_seed", "engine_version"]
  let missing := standard env
  return {
    scriptsDirectory := ← Json.optional? Json.string? missing.scriptsDirectory fields 0
    platform := ← Json.optional? (PlatformTags.ofJson? env) missing.platform fields 1
    globals := ← Json.optional? (Json.listOf? GlobalVariable.ofJson?) [] fields 2
    objects := ← Json.optional? (Json.listOf? ObjectEntry.ofJson?) [] fields 3
    screenWidth := ← Json.optional? Json.word? missing.screenWidth fields 4
    screenHeight := ← Json.optional? Json.word? missing.screenHeight fields 5
    strictBounds := ← Json.optional? Json.bool? false fields 6
    seed := ← Json.optional? seed? none fields 7
    engineVersion := ← Json.optional? Json.string? missing.engineVersion fields 8 }

/-- A configuration as a record. -/
def toJson (c : Config) : Json :=
  .ofFields [("scripts_dir", .ofString c.scriptsDirectory), ("platform", c.platform.toJson),
    ("globals", .array (c.globals.map GlobalVariable.toJson)),
    ("objects", .array (c.objects.map ObjectEntry.toJson)),
    ("screen_width", .ofWord c.screenWidth), ("screen_height", .ofWord c.screenHeight),
    ("strict_bounds", .bool c.strictBounds),
    ("rng_seed", c.seed.elim .null fun seed => .ofNat seed.toNat),
    ("engine_version", .ofString c.engineVersion)]

/-- The text of a configuration file. -/
def text (c : Config) : String := c.toJson.pretty

/-- The names of the globals. -/
def globalNames (c : Config) : List String := c.globals.map (·.name)

/-- The path of a script. -/
def scriptPath (c : Config) (script : Path) : Path := Path.join c.scriptsDirectory script

end Config

/-! ## Files -/

/-- Why a configuration cannot be loaded. -/
inductive ConfigError
  /-- The file cannot be read. -/
  | unreadable (error : FileError)
  /-- The file holds no configuration. -/
  | malformed
  deriving DecidableEq, Repr

/-- The wording of a configuration error. -/
def ConfigError.message : ConfigError → String
  | .unreadable error => "ConfigError: IOError: " ++ error.message
  | .malformed => "ConfigError: JsonError: not a configuration"

namespace Config

/-- A configuration as seen from the directory of its file. -/
def locate (c : Config) (path : Path) : Config :=
  match path.parent? with
  | some directory => { c with scriptsDirectory := directory.join c.scriptsDirectory }
  | none => c

/-- Loads a configuration. -/
def load (env : Environment) (files : Files) (path : Path) : Except ConfigError Config :=
  match files.readText path with
  | .error error => .error (.unreadable error)
  | .ok text =>
    match (Json.parse? text).bind (ofJson? env) with
    | some c => .ok (c.locate path)
    | none => .error .malformed

end Config

end StageScript
