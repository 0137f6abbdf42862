/-
`Chain.lean` -- stages one behind the other.

A chain is a list of stages in front of a last sink; the first of the list is
the first to see an event. Whatever reaches the last sink has passed them all.
-/
import JvmStub.Stub.Stage

set_option autoImplicit false

namespace JvmStub

/-- A stage of a chain. -/
inductive Stage where
  /-- Passes on everything as it is. -/
  | forwarding
  /-- Replaces bodies; constructors throw the class. -/
  | stubbing (exceptionClass : String)
  deriving DecidableEq, Repr

namespace ClassSink

variable {σ : Type}

/-- The sink behind a single stage. -/
def behind (stage : Stage) (next : ClassSink σ) : ClassSink σ :=
  match stage with
  | .forwarding => next.forwarding
  | .stubbing exceptionClass => next.stubbing exceptionClass

/-- The sink behind a chain of stages, the outermost first. -/
def chained (stages : List Stage) (last : ClassSink σ) : ClassSink σ := stages.foldr behind last

end ClassSink

end JvmStub
