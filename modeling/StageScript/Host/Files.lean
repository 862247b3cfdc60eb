import StageScript.File.Basic
import StageScript.Host
import StageScript.Json.Reader

/-! # A host with files
`Host.ofFiles` takes animations and texts from a directory; everything else is as without a host,
except that sprite sheets are numbered. `Host.dataPaths` are the files that calls ask for. -/

namespace StageScript

namespace Host

/-- Reads a file of the data directory as text. -/
def dataText? (files : Files) (directory : Option Path) (path : Path) : Option Text :=
  directory.bind fun d => (files.readText (Path.join d path)).toOption

/-- The animations of a JSON file, which take the path that they were asked for by. -/
def dataAnimation? (files : Files) (directory : Option Path) (path : Path) : Option AnimationFile := do
  let file ← AnimationFile.ofJson? (← Json.parse? (← dataText? files directory path))
  return { file with path }

/-- The host that takes animations and texts from the files of a directory. -/
def ofFiles (files : Files) (directory : Option Path) : Host where
  sheet := numberSheet
  animation _ path := dataAnimation? files directory path
  lines _ path _ :=
    (dataText? files directory path).map fun text => (Files.lines text).map String.ofList

/-- The file of the data directory that a call asks for. -/
def dataPath? (directory : Path) : HostCall → Option Path
  | .loadAnimation path => some (directory.join path)
  | .loadText path _ => some (directory.join path)
  | _ => none

/-- The files of the data directory that calls ask for. -/
def dataPaths (directory : Option Path) (history : History) : List Path :=
  directory.elim [] fun d => history.toList.filterMap (dataPath? d)

end Host

end StageScript
