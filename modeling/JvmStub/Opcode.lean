/-
`Opcode.lean` -- the instructions that stub bodies use and that bodies are
checked against.

The virtual machine has some two hundred instructions. This library names
thirty-five of them: those that push a constant, drop or copy one, return,
throw, invoke a method, or name a class. Each has one byte, a mnemonic and a
fixed number of operand bytes, and the byte tells it apart from the others. Any
other byte is an opcode this library does not name.
-/
set_option autoImplicit false

namespace JvmStub

/-- The instructions that this library names. -/
inductive Opcode where
  | nop
  | aconstNull
  | iconstM1 | iconst0 | iconst1 | iconst2 | iconst3 | iconst4 | iconst5
  | lconst0 | lconst1
  | fconst0 | fconst1 | fconst2
  | dconst0 | dconst1
  | bipush | sipush
  | pop | pop2 | dup
  | ireturn | lreturn | freturn | dreturn | areturn | vreturn
  | invokevirtual | invokespecial | invokestatic | invokeinterface
  | new | athrow | checkcast | instanceof
  deriving DecidableEq, Repr

namespace Opcode

/-- Every named instruction, in the order of their bytes. -/
def all : List Opcode :=
  [nop, aconstNull, iconstM1, iconst0, iconst1, iconst2, iconst3, iconst4, iconst5, lconst0,
    lconst1, fconst0, fconst1, fconst2, dconst0, dconst1, bipush, sipush, pop, pop2, dup, ireturn,
    lreturn, freturn, dreturn, areturn, vreturn, invokevirtual, invokespecial, invokestatic,
    invokeinterface, new, athrow, checkcast, instanceof]

/-- The byte of an instruction. -/
def code : Opcode → UInt8
  | nop => 0x00
  | aconstNull => 0x01
  | iconstM1 => 0x02
  | iconst0 => 0x03
  | iconst1 => 0x04
  | iconst2 => 0x05
  | iconst3 => 0x06
  | iconst4 => 0x07
  | iconst5 => 0x08
  | lconst0 => 0x09
  | lconst1 => 0x0A
  | fconst0 => 0x0B
  | fconst1 => 0x0C
  | fconst2 => 0x0D
  | dconst0 => 0x0E
  | dconst1 => 0x0F
  | bipush => 0x10
  | sipush => 0x11
  | pop => 0x57
  | pop2 => 0x58
  | dup => 0x59
  | ireturn => 0xAC
  | lreturn => 0xAD
  | freturn => 0xAE
  | dreturn => 0xAF
  | areturn => 0xB0
  | vreturn => 0xB1
  | invokevirtual => 0xB6
  | invokespecial => 0xB7
  | invokestatic => 0xB8
  | invokeinterface => 0xB9
  | new => 0xBB
  | athrow => 0xBF
  | checkcast => 0xC0
  | instanceof => 0xC1

/-- The instruction with this byte, `none` when this library does not name it. -/
def ofCode? (byte : UInt8) : Option Opcode := all.find? fun op => op.code == byte

/-- The mnemonic of an instruction. -/
def mnemonic : Opcode → String
  | nop => "NOP"
  | aconstNull => "ACONST_NULL"
  | iconstM1 => "ICONST_M1"
  | iconst0 => "ICONST_0"
  | iconst1 => "ICONST_1"
  | iconst2 => "ICONST_2"
  | iconst3 => "ICONST_3"
  | iconst4 => "ICONST_4"
  | iconst5 => "ICONST_5"
  | lconst0 => "LCONST_0"
  | lconst1 => "LCONST_1"
  | fconst0 => "FCONST_0"
  | fconst1 => "FCONST_1"
  | fconst2 => "FCONST_2"
  | dconst0 => "DCONST_0"
  | dconst1 => "DCONST_1"
  | bipush => "BIPUSH"
  | sipush => "SIPUSH"
  | pop => "POP"
  | pop2 => "POP2"
  | dup => "DUP"
  | ireturn => "IRETURN"
  | lreturn => "LRETURN"
  | freturn => "FRETURN"
  | dreturn => "DRETURN"
  | areturn => "ARETURN"
  | vreturn => "RETURN"
  | invokevirtual => "INVOKEVIRTUAL"
  | invokespecial => "INVOKESPECIAL"
  | invokestatic => "INVOKESTATIC"
  | invokeinterface => "INVOKEINTERFACE"
  | new => "NEW"
  | athrow => "ATHROW"
  | checkcast => "CHECKCAST"
  | instanceof => "INSTANCEOF"

/-- The number of operand bytes that follow the opcode. -/
def operandCount : Opcode → Nat
  | bipush => 1
  | sipush | invokevirtual | invokespecial | invokestatic | new | checkcast | instanceof => 2
  | invokeinterface => 4
  | _ => 0

/-- The instructions after which control never reaches the next one. -/
def isTerminator : Opcode → Bool
  | ireturn | lreturn | freturn | dreturn | areturn | vreturn | athrow => true
  | _ => false

/-! ## The byte identifies the instruction -/

@[simp] theorem ofCode?_code (op : Opcode) : ofCode? op.code = some op := by
  cases op <;> decide

/-- A byte that names an instruction is its code. -/
theorem code_of_ofCode? {byte : UInt8} {op : Opcode} (h : ofCode? byte = some op) :
    op.code = byte := by
  have found := List.find?_some h
  exact eq_of_beq found

end Opcode

/-- What a message calls the opcode with this byte. -/
def opcodeName (byte : UInt8) : String :=
  match Opcode.ofCode? byte with
  | some op => op.mnemonic
  | none => "UNKNOWN"

end JvmStub
