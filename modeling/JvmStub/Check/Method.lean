/-
`Method.lean` -- the check of a method.

The modifiers come first: at most one visibility, none that an interface or an
abstract method cannot have, and no strict abstract method in the versions that
forbid it. Then the method's name and descriptor have to be there, and it has to
have a body exactly when it is neither abstract nor native. The body's local
variables have to hold the arguments, and the body itself is checked last.
-/
import JvmStub.Check.Code

set_option autoImplicit false

namespace JvmStub

namespace AccessFlags

/-- Whether at most one visibility is set. -/
def hasOneVisibility (flags : AccessFlags) : Bool :=
  [flags.isPublic, flags.isProtected, flags.isPrivate].count true ≤ 1

/-- Whether no modifier is set that a method of an interface cannot have. -/
def fitsInterface (flags : AccessFlags) : Bool :=
  !(flags.isProtected || flags.isFinal || flags.isSynchronized || flags.isNative)

/-- Whether no modifier is set that an abstract method cannot have. -/
def fitsAbstract (flags : AccessFlags) : Bool :=
  !(flags.isPrivate || flags.isStatic || flags.isFinal || flags.isSynchronized || flags.isNative)

/-- Whether the modifiers can stand together on a method of this class. -/
def areValidFor (flags : AccessFlags) (cf : ClassFile) : Bool :=
  flags.hasOneVisibility &&
    (!cf.access.isInterface || flags.fitsInterface) &&
    (!flags.isAbstract || flags.fitsAbstract) &&
    !(flags.isAbstract && flags.isStrict && 46 ≤ cf.major && cf.major ≤ 60)

end AccessFlags

namespace Check

/-- The text in a slot of a method under check. -/
def textAt (pool : ConstantPool) (slot : Slot) : Except MethodFault String :=
  (pool.utf8 slot).mapError (slotFault slot)

/-- The only `Code` attribute of a method, if it has one. -/
def onlyCode? (pool : ConstantPool) (m : Member) : Except MethodFault (Option Attribute) :=
  match m.codeAttributes pool with
  | [] => .ok none
  | [a] => .ok (some a)
  | _ => .error .duplicateCode

/-- Checks a method of a class. -/
def method (cf : ClassFile) (m : Member) : Except MethodFault Unit := do
  if !m.access.areValidFor cf then throw (.invalidAccess m.access)
  let _ ← textAt cf.pool m.nameSlot
  let descriptor ← parsedDescriptor (← textAt cf.pool m.descriptorSlot)
  match m.access.isBodiless, ← onlyCode? cf.pool m with
  | true, none => return
  | true, some _ => throw .forbiddenCode
  | false, none => throw .missingCode
  | false, some a =>
    let code ← (Code.decode a.info).mapError .malformedCode
    let required := descriptor.argumentSlotCount m.access.isStatic
    if code.maxLocals < required then throw (.localsTooSmall code.maxLocals required)
    body cf.pool descriptor.result.category code

end Check

end JvmStub
