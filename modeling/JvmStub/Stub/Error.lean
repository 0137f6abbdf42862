/-
`Error.lean` -- methods that cannot be given a stub.

A stub needs the method's descriptor, so one that cannot be read stops the work.
Constructors return nothing and have a receiver; one that says otherwise is
refused rather than given a body that no machine would accept.
-/
import JvmStub.Descriptor.Parser

set_option autoImplicit false

namespace JvmStub

/-- Why a method cannot be given a stub. -/
inductive StubError where
  | descriptor (method : String) (source : DescriptorError)
  | constructorReturnsValue (method type : String)
  | staticConstructor (method type : String)
  deriving DecidableEq, Repr

/-- The wording of a refusal. -/
def StubError.message : StubError → String
  | descriptor method source => s!"Cannot stub {method}: " ++ source.message
  | constructorReturnsValue method type => s!"Constructor {method}{type} must return void"
  | staticConstructor method type => s!"Constructor {method}{type} must not be static"

end JvmStub
