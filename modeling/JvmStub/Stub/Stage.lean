/-
`Stage.lean` -- the stage that replaces bodies.

The stage passes on everything but bodies. When a method is declared, it decides
on the stub first, so that a method that cannot be stubbed reaches nothing
behind the stage; it then passes the declaration on and sends the stub's body at
once. Whatever body comes afterwards is dropped. A method without a body is
passed on untouched.
-/
import JvmStub.Event.Sink
import JvmStub.Stub.Body

set_option autoImplicit false

namespace JvmStub

/-- An open method behind the stage, and whether the stage has given it a body. -/
structure StubbedMethod (μ : Type) where
  replaced : Bool
  next : μ

/-- Whether an event tells part of a body. -/
def MethodEvent.isBodyPart : MethodEvent → Bool
  | .beginBody | .instruction _ | .endBody .. | .body _ => true
  | .attribute _ | .finish => false

namespace ClassSink

variable {σ : Type}

/-- Passes on the declaration of a method, and its stub where it has one. -/
def openStubbed (exceptionClass : String) (next : ClassSink σ) (decl : MethodDecl) :
    SinkM σ (StubbedMethod next.Method) := do
  match stubBody decl exceptionClass with
  | .error e => throw (.stub e)
  | .ok none => return ⟨false, ← next.method decl⟩
  | .ok (some body) =>
    let opened ← next.method decl
    return ⟨true, ← next.within opened (next.sendMethodEvents body.events)⟩

/-- Passes on an event inside a method, unless it tells part of a body that was replaced. -/
def inStubbed (next : ClassSink σ) (e : MethodEvent) :
    SinkM (StubbedMethod next.Method × σ) Unit := fun (m, s) =>
  if m.replaced && e.isBodyPart then (.ok (), (m, s))
  else
    let (result, (opened, s)) := next.inMethod e (m.next, s)
    (result, (⟨m.replaced, opened⟩, s))

/-- The stage that gives every method with a body a stub; constructors throw the class. -/
def stubbing (exceptionClass : String) (next : ClassSink σ) : ClassSink σ where
  Method := StubbedMethod next.Method
  header h := next.header h
  field f := next.field f
  method := openStubbed exceptionClass next
  inMethod := inStubbed next
  classAttribute a := next.classAttribute a
  finish := next.finish

end ClassSink

end JvmStub
