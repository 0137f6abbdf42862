/-
`Run.lean` -- running a command.

Stubbing reads the input, and writes the output only when there is one, so a
failed run leaves the output as it was. Listing shows a line for the class and
one for each method, and the lines before a failure are shown all the same.
-/
import JvmStub.Command.Arguments
import JvmStub.Command.Files
import JvmStub.Command.Report
import JvmStub.Stub.Pipeline

set_option autoImplicit false

namespace JvmStub

/-- What a command shows, and why it failed if it did. -/
structure Outcome where
  shown : String := ""
  failure : Option Report := none
  deriving DecidableEq, Repr

/-- The status that a command ends with. -/
def Outcome.status (outcome : Outcome) : UInt32 := if outcome.failure.isSome then 1 else 0

/-! ## Stubbing a file -/

/-- Lets a refusal of the file system stop a run. -/
def accessing {m : Type → Type} [Monad m] {α : Type} (access : m (Except FileError α)) :
    ExceptT Error m α := do
  match ← access with
  | .ok x => return x
  | .error e => throw (.file e)

/-- Reads a class, and writes it with stubs for bodies. The folders on the way to the output
are made where they are missing. -/
def stubFile {m : Type → Type} [Monad m] (files : FileSystem m) (config : Config)
    (input output : String) : ExceptT Error m Unit := do
  let bytes ← accessing (files.read input)
  let stubbed ← ExceptT.mk (pure (stubClass config bytes))
  accessing (files.makeFolders output)
  accessing (files.write output stubbed)

/-- The settings that a command line asks for. -/
def commandConfig (errorClass : Option String) (verify : Bool) : Except ConfigError Config :=
  let config : Config := { verify := verify }
  match errorClass with
  | none => .ok config
  | some name => config.withExceptionClass name

/-- Runs the command that stubs a file. -/
def runStub {m : Type → Type} [Monad m] (files : FileSystem m) (input output : String)
    (errorClass : Option String) (verify : Bool) : m Outcome := do
  match commandConfig errorClass verify with
  | .error e => return { failure := some (.ofError (.config e)) }
  | .ok config =>
    match ← (stubFile files config input output).run with
    | .ok () => return {}
    | .error e => return { failure := some (.ofErrorIn ("failed to stub " ++ input) e) }

/-! ## Listing methods -/

/-- What a listing says of the body of a method. A body that cannot be read stops the listing,
also where the method should have none. -/
def bodyNote (pool : ConstantPool) (m : Member) : Except ReadError String := do
  match m.access.isBodiless, ← m.code? pool with
  | true, _ => return "no body"
  | false, some code =>
    let length := code.bytecode.length
    let maxStack := code.maxStack
    return s!"code {length} bytes, max_stack={maxStack}"
  | false, none => return "missing code"

/-- Lets a pool lookup stop a listing. -/
def listed {α : Type} (found : Except PoolError α) : Except Report α :=
  found.mapError fun e => ⟨e.message, []⟩

/-- The line of a method. -/
def methodLine (pool : ConstantPool) (m : Member) : Except Report String := do
  let name ← listed (pool.utf8 m.nameSlot)
  let descriptor ← listed (pool.utf8 m.descriptorSlot)
  let category ← (returnCategory descriptor).mapError fun e => ⟨e.message, []⟩
  let note ← (bodyNote pool m).mapError .ofReadError
  return "  0x" ++ Text.hexPadded 4 m.access.toNat ++ " " ++ name ++ descriptor ++ " -> " ++
    category.text ++ " [" ++ note ++ "]\n"

/-- Shows the lines of methods behind those already shown, up to the first that fails. -/
def listMethods (pool : ConstantPool) (shown : String) : List Member → Outcome
  | [] => { shown := shown }
  | m :: rest =>
    match methodLine pool m with
    | .ok line => listMethods pool (shown ++ line) rest
    | .error report => { shown := shown, failure := some report }

/-- Shows a class and its methods. -/
def listClass (bytes : Bytes) : Outcome :=
  match ClassFile.decode bytes with
  | .error e => { failure := some (.ofReadError e) }
  | .ok cf =>
    match cf.name with
    | .error e => { failure := some (.ofReadError (.pool e)) }
    | .ok name => listMethods cf.pool ("class " ++ name ++ "\n") cf.methods.toList

/-- Runs the command that lists methods. -/
def runDump {m : Type → Type} [Monad m] (files : FileSystem m) (input : String) : m Outcome := do
  match ← files.read input with
  | .error e => return { failure := some ⟨"cannot read " ++ input, [e.message]⟩ }
  | .ok bytes => return listClass bytes

/-- Runs a command. -/
def Command.run {m : Type → Type} [Monad m] (files : FileSystem m) : Command → m Outcome
  | .stub input output errorClass verify => runStub files input output errorClass verify
  | .dump input => runDump files input

end JvmStub
