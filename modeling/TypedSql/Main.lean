import TypedSql.Command.Run

/-!
# The program

Runs the command line on the files of the disk.
-/

namespace TypedSql

/-- The error of the operating system. -/
def FileError.ofIO : IO.Error → FileError
  | .noFileOrDirectory .. => .notFound
  | .inappropriateType _ 20 _ => .notDirectory
  | .inappropriateType _ _ _ => .isDirectory
  | .invalidArgument _ 36 _ => .nameTooLong
  | e => .other (toString e)

/-- The result of an action on a path, or the error of the operating system. -/
def Files.attempt {α : Type} (path : String) (action : IO α) : IO (Except FileError α) := do
  match checkPath path with
  | .error e => return .error e
  | .ok () =>
      match ← action.toBaseIO with
      | .ok a => return .ok a
      | .error e => return .error (.ofIO e)

/-- The files of the disk, where relative paths are seen from the working directory. -/
def Files.ofDisk : IO (Files IO) := do
  let here ← IO.currentDir
  let kind (path : String) : IO (Option IO.FS.FileType) := do
    match ← Files.attempt path (here / path).metadata with
    | .ok found => return some found.type
    | .error _ => return none
  return {
    isDirectory := fun path => return (← kind path) == some .dir
    isFile := fun path => return (← kind path) == some .file
    list := fun path => Files.attempt path do
      return ((← (here / path).readDir).toList.map (·.fileName))
    read := fun path => do
      match ← Files.attempt path (IO.FS.readBinFile (here / path)) with
      | .error e => return .error e
      | .ok bytes =>
          match String.fromUTF8? bytes with
          | some text => return .ok text
          | none => return .error (.other "stream did not contain valid UTF-8")
    write := fun path text => Files.attempt path (IO.FS.writeFile (here / path) text) }

end TypedSql

/-- Runs the program: its output, its messages and its status. -/
def main (args : List String) : IO UInt32 := do
  let files ← TypedSql.Files.ofDisk
  let output ← IO.getStdout
  let outcome ← TypedSql.runProgram files (← output.isTty) (toString (← IO.currentDir)) args
  for line in outcome.output do
    output.putStrLn line
  for line in outcome.messages do
    IO.eprintln line
  return outcome.status.toUInt32
