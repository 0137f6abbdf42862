/-
`Code.lean` -- the check of a body that runs straight through.

A body whose instructions are all known and that catches nothing runs from its
first instruction to its last. It is taken apart into instructions, and then
each instruction's effect on the depth of the operand stack is followed. The
depth may not fall below what an instruction takes nor rise above what the body
declares, control may not run past the last instruction nor end before it, and
the result has to be of the category that the method gives back.

A body with handlers, or with an instruction that this library does not name, is
not followed: nothing is said against it, unless it ends inside an instruction
before the unnamed one.
-/
import JvmStub.Check.Fault
import JvmStub.ClassFile.Decode

set_option autoImplicit false

namespace JvmStub

/-- An instruction in its place: where it starts, and its operand bytes. -/
structure PlacedInstruction where
  pc : Nat
  opcode : Opcode
  operands : Bytes
  deriving DecidableEq, Repr

namespace Check

/-- Takes the bytes from `pc` on apart, onto the reversed instructions before them. The result
is `none` when an instruction is not named. -/
def placedOnto (placed : List PlacedInstruction) (pc : Nat) (bytes : Bytes) :
    Except MethodFault (Option (List PlacedInstruction)) :=
  match bytes with
  | [] => .ok (some placed.reverse)
  | byte :: rest =>
    match Opcode.ofCode? byte with
    | none => .ok none
    | some opcode =>
      let operands := rest.take opcode.operandCount
      -- the operands of the last instruction may be missing in part
      if operands.length < opcode.operandCount then .error (.truncatedInstruction pc)
      else
        placedOnto (⟨pc, opcode, operands⟩ :: placed) (pc + 1 + opcode.operandCount)
          (rest.drop opcode.operandCount)
termination_by bytes.length
decreasing_by simp only [List.length_drop, List.length_cons]; omega

/-- The instructions of a body, `none` when one of them is not named. -/
def placed? (bytecode : Bytes) : Except MethodFault (Option (List PlacedInstruction)) :=
  placedOnto [] 0 bytecode

/-- What a failed lookup of `slot` means for a method. -/
def slotFault (slot : Slot) : PoolError → MethodFault
  | .unexpectedEntry .. => .invalidKind slot
  | _ => .invalidIndex slot

/-- Reads a method descriptor for a method under check. -/
def parsedDescriptor (text : String) : Except MethodFault MethodDescriptor :=
  (MethodDescriptor.parse text).mapError .invalidDescriptor

/-- The units that an invocation takes from the stack and puts on it. -/
def invocationEffect (pool : ConstantPool) (i : PlacedInstruction) :
    Except MethodFault (Nat × Nat) := do
  let slot := UInt16.ofNat (Bytes.number (i.operands.take 2))
  let invoked ← (pool.memberRef slot).mapError (slotFault slot)
  let descriptor ← parsedDescriptor invoked.descriptor
  let receiver := if i.opcode = .invokestatic then 0 else 1
  return (descriptor.parameterSlotCount.toNat + receiver, descriptor.result.category.stackSize)

/-- The units that an instruction takes from the stack and puts on it. -/
def stackEffect (pool : ConstantPool) (i : PlacedInstruction) : Except MethodFault (Nat × Nat) :=
  match i.opcode with
  | .nop | .vreturn => .ok (0, 0)
  | .aconstNull | .iconstM1 | .iconst0 | .iconst1 | .iconst2 | .iconst3 | .iconst4 | .iconst5
  | .fconst0 | .fconst1 | .fconst2 | .bipush | .sipush | .new => .ok (0, 1)
  | .lconst0 | .lconst1 | .dconst0 | .dconst1 => .ok (0, 2)
  | .pop | .ireturn | .freturn | .areturn | .athrow => .ok (1, 0)
  | .pop2 | .lreturn | .dreturn => .ok (2, 0)
  | .dup => .ok (1, 2)
  | .checkcast | .instanceof => .ok (1, 1)
  | .invokevirtual | .invokespecial | .invokestatic | .invokeinterface => invocationEffect pool i

/-- The depth of the stack behind an instruction. -/
def depthAfter (pool : ConstantPool) (maxStack : UInt16) (depth : Nat) (i : PlacedInstruction) :
    Except MethodFault Nat := do
  let (popped, pushed) ← stackEffect pool i
  if depth < popped then throw (.stackUnderflow i.pc)
  let depth := depth - popped + pushed
  if maxStack.toNat < depth then throw (.stackOverflow i.pc depth maxStack)
  return depth

/-- Checks the last instruction against the result of the method. -/
def resultMatches (result : Category) (last : Opcode) : Except MethodFault Unit :=
  if last = .athrow ∨ last = result.returnOpcode then .ok ()
  else .error (.returnMismatch result.returnOpcode last)

/-- Follows instructions from a depth of the stack to the end of the body. -/
def followed (pool : ConstantPool) (result : Category) (maxStack : UInt16) :
    (depth : Nat) → List PlacedInstruction → Except MethodFault Unit
  | _, [] => .error .fallsOffEnd
  | depth, i :: rest => do
    let depth ← depthAfter pool maxStack depth i
    if i.opcode.isTerminator then
      if rest.isEmpty then resultMatches result i.opcode else .error (.terminatorNotLast i.pc)
    else followed pool result maxStack depth rest

/-- Checks the body of a method that gives back `result`. -/
def body (pool : ConstantPool) (result : Category) (code : Code) : Except MethodFault Unit := do
  if code.bytecode.isEmpty then throw .emptyCode
  -- a handler is entered from elsewhere, with a stack of its own
  if !code.handlers.isEmpty then return
  match ← placed? code.bytecode with
  | none => return
  | some instructions => followed pool result code.maxStack 0 instructions

end Check

end JvmStub
