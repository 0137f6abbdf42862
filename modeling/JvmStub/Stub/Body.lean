/-
`Body.lean` -- the body that a stub has.

An abstract or native method has no body and gets none. A constructor throws a
new instance of the configured class, which frees it from having to run the
constructor of its superclass. Any other method pushes the zero of its result's
category and returns it. A body declares as many local variables as the
arguments take, although it reads none of them.
-/
import JvmStub.Event.Basic
import JvmStub.Stub.Error

set_option autoImplicit false

namespace JvmStub

/-- The name of constructors. -/
def constructorName : String := "<init>"

/-- The descriptor of a method that takes nothing and gives nothing back. -/
def noArgumentsDescriptor : String := "()V"

/-- The instructions of a stub and the sizes of its frame. -/
structure StubBody where
  instructions : List Instruction
  maxStack : UInt16
  maxLocals : UInt16
  deriving DecidableEq, Repr

/-- The instruction that pushes the zero of a category; there is none for no result. -/
def Category.zero? : Category → Option Opcode
  | void => none
  | int => some .iconst0
  | long => some .lconst0
  | float => some .fconst0
  | double => some .dconst0
  | reference => some .aconstNull

namespace StubBody

/-- The body that throws a new instance of a class. The instance and its copy are on the stack
when its constructor is called. -/
def throwing (exceptionClass : String) (maxLocals : UInt16) : StubBody where
  instructions :=
    [.onClass Opcode.new.code exceptionClass,
     .simple Opcode.dup.code,
     .onMethod Opcode.invokespecial.code exceptionClass constructorName noArgumentsDescriptor false,
     .simple Opcode.athrow.code]
  maxStack := 2
  maxLocals := maxLocals

/-- The body that returns the zero of a category. -/
def returningZero (category : Category) (maxLocals : UInt16) : StubBody where
  instructions :=
    (category.zero?.toList ++ [category.returnOpcode]).map fun op => .simple op.code
  maxStack := UInt16.ofNat category.stackSize
  maxLocals := maxLocals

/-- The events that tell the body. -/
def events (body : StubBody) : List MethodEvent :=
  [.beginBody] ++ body.instructions.map .instruction ++ [.endBody body.maxStack body.maxLocals]

end StubBody

/-- The stub of a method, `none` where the method has no body. It depends on the modifiers, the
name and the descriptor alone. -/
def stubBody (decl : MethodDecl) (exceptionClass : String) : Except StubError (Option StubBody) := do
  if decl.access.isBodiless then return none
  -- a constructor has its descriptor read too, and a fault in it comes first
  let descriptor ← (MethodDescriptor.parse decl.descriptor).mapError (.descriptor decl.name)
  let maxLocals := descriptor.argumentSlotCount decl.access.isStatic
  if decl.name = constructorName then
    if descriptor.result ≠ .void then
      throw (.constructorReturnsValue decl.name decl.descriptor)
    if decl.access.isStatic then throw (.staticConstructor decl.name decl.descriptor)
    return some (.throwing exceptionClass maxLocals)
  else return some (.returningZero descriptor.result.category maxLocals)

end JvmStub
