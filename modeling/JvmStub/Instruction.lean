/-
`Instruction.lean` -- instructions that name what they refer to.

An instruction in a class file refers to classes and methods by slots of the
constant pool. Before it is written it carries the names themselves. The opcode
stays a byte, because an instruction may be one that this library does not name.
-/
set_option autoImplicit false

namespace JvmStub

/-- An instruction with its operands spelled out. -/
inductive Instruction where
  /-- An opcode that takes no operands. -/
  | simple (opcode : UInt8)
  /-- An opcode that takes a class. -/
  | onClass (opcode : UInt8) (className : String)
  /-- An opcode that takes a method, owned by an interface or by a class. -/
  | onMethod (opcode : UInt8) (owner name descriptor : String) (ofInterface : Bool)
  deriving DecidableEq, Repr

/-- The byte of the instruction's opcode. -/
def Instruction.opcode : Instruction → UInt8
  | .simple opcode | .onClass opcode _ | .onMethod opcode _ _ _ _ => opcode

end JvmStub
