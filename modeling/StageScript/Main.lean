import StageScript.CommandLine.Outcome

/-! # The command line program
Reads the files that a command depends on, carries the command out, and writes what comes of it. -/

namespace StageScript

namespace Main

/-- A system error as the cause that the library knows. -/
def fileError : IO.Error → FileError
  | .noFileOrDirectory .. => .notFound
  | .inappropriateType .. => .isDirectory
  | error => .other (toString error)

/-- Reads a file of the system. -/
def readFile (path : Path) : IO (Except FileError (List UInt8)) := do
  try return .ok (← IO.FS.readBinFile path).toList
  catch error => return .error (fileError error)

/-- The files that have been read. A file that has not been read is not there. -/
def known (found : List (Path × Except FileError (List UInt8))) : Files :=
  ⟨fun path => (found.lookup path).getD (.error .notFound)⟩

/-- Reads the files that a request depends on, until no further ones turn up. -/
partial def gather (request : Request) (s : Surroundings)
    (found : List (Path × Except FileError (List UInt8))) : IO Surroundings := do
  let s := { s with files := known found }
  let wanted := (request.consulted s).filter fun path => (found.lookup path).isNone
  match wanted.eraseDups with
  | [] => return s
  | paths =>
    let further ← paths.mapM fun path => return (path, ← readFile path)
    gather request s (found ++ further)

/-- Writes a file. -/
def writeFile (path : Path) (bytes : List UInt8) (makesDirectories : Bool) : IO Unit := do
  if makesDirectories then
    match path.parent?.filter (· ≠ "") with
    | some directory => IO.FS.createDirAll directory
    | none => pure ()
  IO.FS.writeBinFile path bytes.toByteArray

/-- Carries out an outcome and gives the exit code. -/
def settle : Outcome → IO UInt32
  | .print text => do
    IO.print text
    return 0
  | .write path bytes makesDirectories report => do
    try writeFile path bytes makesDirectories
    catch _ => return 1
    IO.print report
    return 0
  | .failure message => do
    IO.eprintln message
    return 1
  | .misuse => do
    IO.eprint Request.usage
    return 2

end Main

end StageScript

open StageScript in
/-- The program. -/
def main (arguments : List String) : IO UInt32 := do
  let request := Request.ofArguments arguments
  let environment : Environment :=
    { platform := ← IO.getEnv "RETRO_PLATFORM"
      scriptsDirectory := ← IO.getEnv "RETRO_SCRIPTS_DIR" }
  let entropy := (← IO.getRandomBytes 8).toList.foldl (fun n b => n * 0x100 + b.toUInt64) 0
  let s ← Main.gather request { environment, files := .empty, entropy } []
  Main.settle (request.outcome s)
