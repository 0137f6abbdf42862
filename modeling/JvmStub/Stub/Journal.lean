/-
`Journal.lean` -- what a stubbing run says about itself.

A run leaves a record when it has read the class, when it starts to tell it, when
the stubbing stage meets the header, when it has given a method its stub or left
it alone, and when it checks the result. The records say how far the run came:
they stop where it stops.

The records of the stage come from a stage of their own that stands behind it. A
declaration reaches that stage when the method could be stubbed, and the record
is written once the sink behind has accepted the declaration.
-/
import JvmStub.Stub.Pipeline

set_option autoImplicit false

namespace JvmStub

/-- How much detail a record has. -/
inductive Level where
  | debug | trace
  deriving DecidableEq, Repr

/-- The part of a run that a record comes from. -/
inductive Component where
  | run | replay | stubbing | check
  deriving DecidableEq, Repr

/-- A record of a run. -/
structure Record where
  level : Level
  component : Component
  message : String
  deriving DecidableEq, Repr

namespace Record

/-- The class has been read. -/
def classRead (name : String) (length : Nat) : Record :=
  ⟨.debug, .run, s!"read class {name} ({length} bytes)"⟩

/-- The class is about to be told. -/
def replayStarted (name : String) (fields methods : Nat) : Record :=
  ⟨.debug, .replay, s!"reading class {name} ({fields} fields, {methods} methods)"⟩

/-- The header has reached the stubbing stage. -/
def stubbingStarted (name exceptionClass : String) : Record :=
  ⟨.debug, .stubbing, s!"stubbing methods of {name} (constructors throw {exceptionClass})"⟩

/-- A method has no body and is left alone. -/
def methodKept (name descriptor : String) : Record :=
  ⟨.trace, .stubbing, s!"{name}{descriptor}: bodiless, forwarded as is"⟩

/-- A method is being given its stub. -/
def methodStubbed (name descriptor : String) (body : StubBody) : Record :=
  let count := body.instructions.length
  let maxStack := body.maxStack
  let maxLocals := body.maxLocals
  ⟨.trace, .stubbing, s!"{name}{descriptor}: stubbed with {count} instructions, " ++
    s!"max_stack={maxStack} max_locals={maxLocals}"⟩

/-- The result is about to be checked. -/
def checkStarted (cf : ClassFile) : Record :=
  let name := match cf.name with
    | .ok name => name
    | .error _ => "<unnamed>"
  let methods := cf.methods.size
  ⟨.debug, .check, s!"verifying {name} ({methods} methods)"⟩

end Record

/-- The record of a method that has been declared; one that cannot be stubbed leaves none. -/
def methodRecord? (exceptionClass : String) (decl : MethodDecl) : Option Record :=
  match stubBody decl exceptionClass with
  | .error _ => none
  | .ok none => some (.methodKept decl.name decl.descriptor)
  | .ok (some body) => some (.methodStubbed decl.name decl.descriptor body)

namespace ClassSink

variable {σ : Type}

/-- Runs a step of a sink beside a journal. -/
def beside {α : Type} (step : SinkM σ α) : SinkM (Array Record × σ) α := fun (journal, s) =>
  let (result, s) := step s
  (result, (journal, s))

/-- The stage behind the stubbing stage that keeps its journal. -/
def journaling (exceptionClass : String) (next : ClassSink σ) : ClassSink (Array Record × σ) where
  Method := next.Method
  header h := do
    modify fun (journal, s) => (journal.push (.stubbingStarted h.name exceptionClass), s)
    beside (next.header h)
  field f := beside (next.field f)
  method decl := do
    let opened ← beside (next.method decl)
    modify fun (journal, s) => (journal ++ (methodRecord? exceptionClass decl).toList, s)
    return opened
  inMethod e := fun (m, journal, s) =>
    let (result, (m, s)) := next.inMethod e (m, s)
    (result, (m, journal, s))
  classAttribute a := beside (next.classAttribute a)
  finish := beside next.finish

end ClassSink

/-- The records of a run from the class file it has read. -/
def classJournal (config : Config) (cf : ClassFile) : List Record :=
  match cf.header with
  | .error _ => []
  | .ok h =>
    let sink := (ClassAssembly.sink.journaling config.exceptionClass).stubbing config.exceptionClass
    let (outcome, (journal, assembly)) := cf.replay true sink (#[], ClassAssembly.ofPool cf.pool)
    let checked :=
      match outcome, assembly.result with
      | .ok (), .ok stubbed => if config.verify then [Record.checkStarted stubbed] else []
      | _, _ => []
    [.replayStarted h.name cf.fields.size cf.methods.size] ++ journal.toList ++ checked

/-- The records of a run. A class whose name cannot be found leaves none. -/
def stubJournal (config : Config) (bytes : Bytes) : List Record :=
  match ClassFile.decode bytes with
  | .error _ => []
  | .ok cf =>
    match cf.name with
    | .error _ => []
    | .ok name => .classRead name bytes.length :: classJournal config cf

end JvmStub
