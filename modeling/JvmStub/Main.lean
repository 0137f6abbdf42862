/-
`Main.lean` -- the command line.

The words of the command line are read, the command runs on the disk, and what
it shows and why it failed go to the two output streams.
-/
import JvmStub.Command.Run

set_option autoImplicit false

namespace JvmStub

/-- What the disk's refusal is called. -/
def diskError : IO.Error → FileError
  | .noFileOrDirectory .. => .notFound
  | .alreadyExists .. => .alreadyExists
  | .permissionDenied _ code _ => .other "Permission denied" code.toNat
  | .inappropriateType _ 20 _ => .notADirectory
  | .inappropriateType _ 21 _ => .isADirectory
  | .invalidArgument _ 36 _ => .nameTooLong
  | .otherError code details => .other details code.toNat
  | e => .other (toString e) 5

/-- Runs a step on the disk. -/
def onDisk {α : Type} (step : IO α) : IO (Except FileError α) := do
  match ← step.toBaseIO with
  | .ok x => return .ok x
  | .error e => return .error (diskError e)

/-- The folder that a path leads through, `none` where it leads through none. -/
def parentFolder? (path : String) : Option String :=
  let isSlash (c : Char) : Bool := c == '/'
  let names := path.toList.reverse.dropWhile isSlash
  let parent := ((names.dropWhile fun c => !isSlash c).dropWhile isSlash).reverse
  if parent.isEmpty then none else some (String.ofList parent)

/-- The disk as a file system. -/
def disk : FileSystem IO where
  read path := onDisk do return (← IO.FS.readBinFile path).toList
  makeFolders path := onDisk do
    match parentFolder? path with
    | some folder => IO.FS.createDirAll folder
    | none => pure ()
  write path bytes := onDisk (IO.FS.writeBinFile path (ByteArray.mk bytes.toArray))

/-- How the command is called. -/
def usage : String :=
  "Usage: stub IN -o OUT [--error-class NAME] [--no-verify]\n       dump IN\n"

end JvmStub

/-- Runs the command that the words ask for. -/
def main (words : List String) : IO UInt32 := do
  match JvmStub.Command.parse? words with
  | none =>
    (← IO.getStderr).putStr JvmStub.usage
    return 2
  | some command =>
    let outcome ← command.run JvmStub.disk
    (← IO.getStdout).putStr outcome.shown
    match outcome.failure with
    | some report => (← IO.getStderr).putStr report.text
    | none => pure ()
    return outcome.status
