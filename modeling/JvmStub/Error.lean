/-
`Error.lean` -- everything that can stop a run.

Each area has errors of its own; here they are brought together, with the area
named in front of the message. An error that came about through another one has
it as its cause, and `causes` lists the messages of all of them, outermost
first.
-/
import JvmStub.Assembly.Error
import JvmStub.Check.Fault
import JvmStub.Config
import JvmStub.Stub.Error

set_option autoImplicit false

namespace JvmStub

/-- A refusal of the file system. -/
inductive FileError where
  /-- Nothing stands at the path. -/
  | notFound
  /-- Something stands where a folder was to be made. -/
  | alreadyExists
  /-- A path leads through a file. -/
  | notADirectory
  /-- The path is that of a folder. -/
  | isADirectory
  /-- A name or a whole path is longer than the system takes. -/
  | nameTooLong
  /-- A name holds the character that ends a name. -/
  | nulInName
  /-- Any other refusal, by its wording and its number. -/
  | other (text : String) (code : Nat)
  deriving DecidableEq, Repr

namespace FileError

/-- The wording of a refusal that has a number. -/
def numbered (text : String) (code : Nat) : String :=
  text ++ " (os error " ++ toString code ++ ")"

/-- The wording of a refusal. -/
def message : FileError → String
  | notFound => numbered "No such file or directory" 2
  | alreadyExists => numbered "File exists" 17
  | notADirectory => numbered "Not a directory" 20
  | isADirectory => numbered "Is a directory" 21
  | nameTooLong => numbered "File name too long" 36
  | nulInName => "file name contained an unexpected NUL byte"
  | other text code => numbered text code

end FileError

/-- What can stop a run, by area. -/
inductive Error where
  | file (error : FileError)
  | read (error : ReadError)
  | write (error : WriteError)
  | descriptor (error : DescriptorError)
  | stub (error : StubError)
  | check (fault : ClassFault)
  | config (error : ConfigError)
  deriving DecidableEq, Repr

/-! ## Causes -/

/-- The messages behind a read error. -/
def ReadError.causes : ReadError → List String
  | pool error => [error.message]
  | _ => []

/-- The messages behind a refusal of a class under construction. -/
def WriteError.causes : WriteError → List String
  | pool error => [error.message]
  | _ => []

/-- The messages behind a refusal to stub. -/
def StubError.causes : StubError → List String
  | descriptor _ source => [source.message]
  | _ => []

/-- The messages behind a method fault. -/
def MethodFault.causes : MethodFault → List String
  | invalidDescriptor source => [source.message]
  | _ => []

/-- The messages behind a class fault. -/
def ClassFault.causes : ClassFault → List String
  | pool fault => [fault.message]
  | method _ fault => fault.message :: fault.causes
  | _ => []

namespace Error

/-- The wording of an error, with its area in front. -/
def message : Error → String
  | file error => "IO error: " ++ error.message
  | read error => "Class read error: " ++ error.message
  | write error => "Class write error: " ++ error.message
  | descriptor error => "Descriptor error: " ++ error.message
  | stub error => "Stub error: " ++ error.message
  | check fault => "ClassFile verify failed: " ++ fault.message
  | config error => "Configuration error: " ++ error.message

/-- The messages of the errors behind an error, outermost first. -/
def causes : Error → List String
  | file error => [error.message]
  | read error => error.message :: error.causes
  | write error => error.message :: error.causes
  | descriptor error => [error.message]
  | stub error => error.message :: error.causes
  | check fault => fault.message :: fault.causes
  | config _ => []

/-- Whether the input is to blame and not the output. -/
def isInputError : Error → Bool
  | read _ | descriptor _ | stub _ => true
  | _ => false

end Error

end JvmStub
