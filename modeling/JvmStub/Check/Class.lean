/-
`Class.lean` -- the check of a class file.

The parts are checked in order and the first fault is reported: the constant
pool, the class itself, its superclass, and its methods one by one. Only a class
may go without a superclass; an interface has one too.
-/
import JvmStub.Check.Method
import JvmStub.Check.Pool

set_option autoImplicit false

namespace JvmStub

namespace Check

/-- Whether a slot holds a class, whatever its name. -/
def isClassAt (pool : ConstantPool) (slot : Slot) : Bool :=
  match pool.get slot with
  | .ok c => c.isClass
  | .error _ => false

/-- Checks the slot of the class itself. -/
def thisClass (cf : ClassFile) : Except ClassFault Unit :=
  if isClassAt cf.pool cf.thisClass then .ok () else .error (.invalidThisClass cf.thisClass)

/-- Checks the slot of the superclass. -/
def superClass (cf : ClassFile) : Except ClassFault Unit :=
  if (!cf.access.isInterface && cf.superClass == 0) || isClassAt cf.pool cf.superClass then .ok ()
  else .error (.invalidSuperClass cf.superClass)

end Check

/-- Checks a class file. -/
def ClassFile.check (cf : ClassFile) : Except ClassFault Unit := do
  (Check.pool cf).mapError .pool
  Check.thisClass cf
  Check.superClass cf
  forM cf.methods.toList fun m =>
    (Check.method cf m).mapError (.method (cf.displayName m))

end JvmStub
