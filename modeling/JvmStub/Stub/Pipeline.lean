/-
`Pipeline.lean` -- from the bytes of a class to the bytes of its stub.

The class is read, told without its bodies through the stubbing stage to an
assembly that starts with the class's own pool, checked if the settings say so,
and written.
-/
import JvmStub.Assembly.Method
import JvmStub.Check.Class
import JvmStub.Event.Replay
import JvmStub.Stub.Stage

set_option autoImplicit false

namespace JvmStub

/-- Tells a class file to an assembly that grows its pool, with stubs for bodies. The assembly
is given back with the outcome, whatever it is. -/
def assembleStub (exceptionClass : String) (cf : ClassFile) :
    Except Error Unit × ClassAssembly :=
  cf.replay true (ClassAssembly.sink.stubbing exceptionClass) (ClassAssembly.ofPool cf.pool)

/-- The class file with stubs for bodies. -/
def stubbedClass (exceptionClass : String) (cf : ClassFile) : Except Error ClassFile := do
  let (outcome, assembly) := assembleStub exceptionClass cf
  outcome
  assembly.result.mapError .write

/-- The class file with stubs for bodies, checked if the settings say so. -/
def checkedStub (config : Config) (cf : ClassFile) : Except Error ClassFile := do
  let stubbed ← stubbedClass config.exceptionClass cf
  if config.verify then stubbed.check.mapError .check
  return stubbed

/-- The bytes of a class with stubs for bodies. -/
def stubClass (config : Config) (bytes : Bytes) : Except Error Bytes := do
  let cf ← (ClassFile.decode bytes).mapError .read
  return (← checkedStub config cf).encode

end JvmStub
