/-
`Fault.lean` -- what the check of a class can find.

A fault lies in the constant pool, in the header of the class, or in one of its
methods; a fault of a method is told together with the method's name.
-/
import JvmStub.ClassFile.Decoder
import JvmStub.Descriptor.Parser

set_option autoImplicit false

namespace JvmStub

/-- A fault in the constant pool. -/
inductive PoolFault where
  /-- A constant refers to a slot that holds no constant. -/
  | invalidIndex (slot : Slot)
  /-- A constant refers to a constant of the wrong kind. -/
  | invalidKind (slot : Slot)
  /-- A wide constant without its second slot. -/
  | missingShadow (slot : Slot)
  /-- A second slot without a wide constant before it. -/
  | strayShadow (slot : Slot)
  /-- A dynamic constant in a class without bootstrap methods. -/
  | bootstrapMethodsMissing
  deriving DecidableEq, Repr

/-- The wording of a pool fault. -/
def PoolFault.message : PoolFault → String
  | invalidIndex slot => s!"Invalid constant pool index {slot}"
  | invalidKind slot => s!"Invalid constant pool index type {slot}"
  | missingShadow slot => s!"Wide constant at {slot} is not followed by an unusable slot"
  | strayShadow slot => s!"Unusable slot {slot} does not follow a long or double"
  | bootstrapMethodsMissing => "BootstrapMethods attribute not defined"

/-- A fault in a method. -/
inductive MethodFault where
  | invalidIndex (slot : Slot)
  | invalidKind (slot : Slot)
  | invalidAccess (access : AccessFlags)
  | invalidDescriptor (source : DescriptorError)
  | missingCode
  | forbiddenCode
  | duplicateCode
  | malformedCode (error : ReadError)
  | localsTooSmall (maxLocals required : UInt16)
  | emptyCode
  | truncatedInstruction (pc : Nat)
  | stackUnderflow (pc : Nat)
  | stackOverflow (pc depth : Nat) (maxStack : UInt16)
  | terminatorNotLast (pc : Nat)
  | fallsOffEnd
  | returnMismatch (expected found : Opcode)
  deriving DecidableEq, Repr

/-- The wording of a method fault. -/
def MethodFault.message : MethodFault → String
  | invalidIndex slot => s!"Invalid constant pool index {slot}"
  | invalidKind slot => s!"Invalid constant pool index type {slot}"
  | invalidAccess access => "Invalid method access flags: 0x" ++ Text.hexPadded 4 access.toNat
  | invalidDescriptor source => "Invalid descriptor: " ++ source.message
  | missingCode => "Method must have Code attribute unless abstract or native"
  | forbiddenCode => "Abstract or native method must not have Code attribute"
  | duplicateCode => "Duplicate method attribute: Code"
  | malformedCode error => "Malformed Code attribute: " ++ error.message
  | localsTooSmall maxLocals required =>
    s!"max_locals {maxLocals} cannot hold the {required} argument slots"
  | emptyCode => "Empty method body"
  | truncatedInstruction pc => s!"Instruction at pc {pc} runs past the end of the code"
  | stackUnderflow pc => s!"Operand stack underflow at pc {pc}"
  | stackOverflow pc depth maxStack =>
    s!"Operand stack depth {depth} at pc {pc} exceeds max_stack {maxStack}"
  | terminatorNotLast pc => s!"Unreachable code after terminator at pc {pc}"
  | fallsOffEnd => "Execution falls off the end of the code"
  | returnMismatch expected found =>
    "Return opcode does not match descriptor: expected " ++ expected.mnemonic ++ ", found " ++
      found.mnemonic

/-- A fault in a class. -/
inductive ClassFault where
  | invalidThisClass (slot : Slot)
  | invalidSuperClass (slot : Slot)
  | pool (fault : PoolFault)
  | method (name : String) (fault : MethodFault)
  deriving DecidableEq, Repr

/-- The wording of a class fault. -/
def ClassFault.message : ClassFault → String
  | invalidThisClass slot => s!"Invalid this_class index {slot}"
  | invalidSuperClass slot => s!"Invalid super_class index {slot}"
  | pool fault => "Constant pool: " ++ fault.message
  | method name fault => s!"Method {name}: " ++ fault.message

end JvmStub
