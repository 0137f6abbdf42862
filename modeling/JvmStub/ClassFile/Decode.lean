/-
`Decode.lean` -- the class file that bytes spell.

The tables are read in the order in which the class file has them, and the first
fault met is the one reported. Nothing is resolved here: a slot that a table
holds may lead nowhere. A payload is taken as it is; the decoders of the three
payloads that this library knows are at the end.
-/
import JvmStub.ClassFile.Decoder
import JvmStub.Text.ModifiedUtf8

set_option autoImplicit false

namespace JvmStub

open Decoder

/-- The constant of the slot `slot`. -/
def decodeConstant (slot : Slot) : Decoder Constant := do
  let tag ← u1
  match tag.toNat with
  | 1 =>
    let length ← u2
    let encoded ← take length.toNat
    match ModifiedUtf8.decode encoded with
    | some text => return .utf8 text
    | none => throw (.malformedText slot)
  | 3 => return .integer (← u4).toInt32
  | 4 => return .float (← u4)
  | 5 => return .long (← u8).toInt64
  | 6 => return .double (← u8)
  | 7 => return .classRef (← u2)
  | 8 => return .string (← u2)
  | 9 => return .fieldRef (← u2) (← u2)
  | 10 => return .methodRef (← u2) (← u2)
  | 11 => return .interfaceMethodRef (← u2) (← u2)
  | 12 => return .nameAndType (← u2) (← u2)
  | 15 => return .methodHandle (← u1) (← u2)
  | 16 => return .methodType (← u2)
  | 17 => return .dynamic (← u2) (← u2)
  | 18 => return .invokeDynamic (← u2) (← u2)
  | 19 => return .moduleRef (← u2)
  | 20 => return .packageRef (← u2)
  | _ => throw (.unknownTag tag slot)

/-- Reads the constants of the `count` slots behind those already read. A wide constant fills
the slot behind it too, even where the count ends between the two. -/
def decodeConstantsOnto (read : Array Constant) : (count : Nat) → Decoder (Array Constant)
  | 0 => pure read
  | count + 1 => do
    let c ← decodeConstant (ConstantPool.slotAt read.size)
    if c.isWide then
      match count with
      -- the count ends inside the constant; its second slot comes all the same
      | 0 => pure ((read.push c).push .unusable)
      | count + 1 => decodeConstantsOnto ((read.push c).push .unusable) count
    else decodeConstantsOnto (read.push c) count

/-- The constant pool: a number one above that of its slots, and their constants. -/
def decodePool : Decoder ConstantPool := do
  let count ← u2
  -- a number of zero is taken as one is: there are no slots
  return ⟨← decodeConstantsOnto #[] (count.toNat - 1)⟩

/-- An attribute. -/
def decodeAttribute : Decoder Attribute := do
  let nameSlot ← u2
  let length ← u4
  return ⟨nameSlot, ← take length.toNat⟩

/-- A field or method. -/
def decodeMember : Decoder Member := do
  let access ← u2
  let nameSlot ← u2
  let descriptorSlot ← u2
  return ⟨access, nameSlot, descriptorSlot, ← table decodeAttribute⟩

/-- A class file. -/
def decodeClassFile : Decoder ClassFile := do
  let magic ← u4
  if magic ≠ classMagic then throw (.badMagic magic)
  let minor ← u2
  let major ← u2
  let pool ← decodePool
  let access ← u2
  let thisClass ← u2
  let superClass ← u2
  let interfaces ← table u2
  let fields ← table decodeMember
  let methods ← table decodeMember
  let attributes ← table decodeAttribute
  return { magic, minor, major, pool, access, thisClass, superClass, interfaces, fields, methods,
           attributes }

/-- The class file that the bytes spell. -/
def ClassFile.decode (bytes : Bytes) : Except ReadError ClassFile :=
  runAll decodeClassFile .trailingBytes bytes

/-! ## Payloads -/

/-- An exception handler. -/
def decodeHandler : Decoder ExceptionHandler := do
  let start ← u2
  let stop ← u2
  let handler ← u2
  return ⟨start, stop, handler, ← u2⟩

/-- A body. -/
def decodeCode : Decoder Code := do
  let maxStack ← u2
  let maxLocals ← u2
  let length ← u4
  let bytecode ← take length.toNat
  let handlers ← table decodeHandler
  let attributes ← table decodeAttribute
  return { maxStack, maxLocals, bytecode, handlers, attributes }

/-- The body that the payload of a `Code` attribute holds. -/
def Code.decode (info : Bytes) : Except ReadError Code :=
  runAll decodeCode (fun count => .malformedAttribute .code (.unreadBytes count)) info

/-- The classes that the payload of an `Exceptions` attribute lists. -/
def decodeExceptions (info : Bytes) : Except ReadError (Array Slot) :=
  runAll (table u2) (fun count => .malformedAttribute .exceptions (.unreadBytes count)) info

/-- The text that the payload of a `Signature` attribute names. -/
def decodeSignature (info : Bytes) : Except ReadError Slot :=
  if info.length = 2 then .ok (UInt16.ofNat (Bytes.number info))
  else .error (.malformedAttribute .signature (.wrongLength 2 info.length))

/-- The body of a method, `none` when it has no `Code` attribute. -/
def Member.code? (pool : ConstantPool) (m : Member) : Except ReadError (Option Code) :=
  match (m.codeAttributes pool).head? with
  | none => .ok none
  | some a => (Code.decode a.info).map some

end JvmStub
