/-
`Sink.lean` -- whatever a class can be told to.

A sink receives the pieces of a class one at a time and may refuse any of them.
It keeps its state through a refusal, so what it did before it refused stays
done. To receive a method is to give out a handle for the events inside the
method; such events can be sent only with the handle, and the handle is forgotten
when the sender is done with it, whether the method was finished or not.

A stage is a sink that passes on what it receives to another one. Stages keep no
state between members, so a stage on a sink with state `σ` is again a sink with
state `σ`.
-/
import JvmStub.Error
import JvmStub.Event.Basic

set_option autoImplicit false

namespace JvmStub

/-- A step of a sink with state `σ`. The state outlives a failure. -/
abbrev SinkM (σ : Type) := ExceptT Error (StateM σ)

/-- A receiver of class events with state `σ`. -/
structure ClassSink (σ : Type) where
  /-- What the sink keeps while a method is open. -/
  Method : Type
  header : ClassHeader → SinkM σ Unit
  field : FieldDecl → SinkM σ Unit
  method : MethodDecl → SinkM σ Method
  inMethod : MethodEvent → SinkM (Method × σ) Unit
  classAttribute : Attribute → SinkM σ Unit
  finish : SinkM σ Unit

/-- What a sink answers to a piece of a class; to a method it answers with the failure to
open it or with one answer for each event inside it. -/
inductive Answer where
  | piece (result : Except Error Unit)
  | method (result : Except Error (Array (Except Error Unit)))

namespace ClassSink

variable {σ : Type}

/-! ## Sending -/

/-- Runs steps on an open method and gives the method back; what the steps did to the sink's
own state stays also when they fail. -/
def within (sink : ClassSink σ) (m : sink.Method) (steps : SinkM (sink.Method × σ) Unit) :
    SinkM σ sink.Method := fun s =>
  match steps (m, s) with
  | (.ok (), (m, s)) => (.ok m, s)
  | (.error e, (_, s)) => (.error e, s)

/-- Sends method events up to the first that is refused. -/
def sendMethodEvents (sink : ClassSink σ) (events : List MethodEvent) :
    SinkM (sink.Method × σ) Unit :=
  forM events sink.inMethod

/-- Sends all events of a method, also those after a refusal. -/
def answersInMethod (sink : ClassSink σ) (events : List MethodEvent) (m : sink.Method) (s : σ) :
    Array (Except Error Unit) × (sink.Method × σ) :=
  events.foldl (fun (answers, state) e =>
    let (answer, state) := sink.inMethod e state
    (answers.push answer, state)) (#[], (m, s))

/-- Sends a piece of a class. -/
def answer (sink : ClassSink σ) (e : ClassEvent) (s : σ) : Answer × σ :=
  match e with
  | .header h =>
    let (result, s) := sink.header h s
    (.piece result, s)
  | .field f =>
    let (result, s) := sink.field f s
    (.piece result, s)
  | .method decl events =>
    match sink.method decl s with
    | (.error e, s) => (.method (.error e), s)
    | (.ok m, s) =>
      let (answers, (_, s)) := sink.answersInMethod events m s
      (.method (.ok answers), s)
  | .attribute a =>
    let (result, s) := sink.classAttribute a s
    (.piece result, s)
  | .finish =>
    let (result, s) := sink.finish s
    (.piece result, s)

/-- Sends all pieces of a class, also those after a refusal. -/
def answers (sink : ClassSink σ) (events : List ClassEvent) (s : σ) : Array Answer × σ :=
  events.foldl (fun (answers, s) e =>
    let (answer, s) := sink.answer e s
    (answers.push answer, s)) (#[], s)

/-! ## Simple sinks -/

/-- The sink that accepts everything and keeps nothing. -/
def discard : ClassSink Unit where
  Method := Unit
  header _ := pure ()
  field _ := pure ()
  method _ := pure ()
  inMethod _ := pure ()
  classAttribute _ := pure ()
  finish := pure ()

/-- The sink that accepts everything and keeps it in order. -/
def recorder : ClassSink (Array Event) where
  Method := Unit
  header h := modify (·.push (.header h))
  field f := modify (·.push (.field f))
  method m := modify (·.push (.method m))
  inMethod e := modify fun (m, events) => (m, events.push (.inMethod e))
  classAttribute a := modify (·.push (.attribute a))
  finish := modify (·.push .finish)

/-- The stage that passes on every event as it is. -/
def forwarding (next : ClassSink σ) : ClassSink σ where
  Method := next.Method
  header h := next.header h
  field f := next.field f
  method m := next.method m
  inMethod e := next.inMethod e
  classAttribute a := next.classAttribute a
  finish := next.finish

end ClassSink

end JvmStub
