/-
`Encode.lean` -- the bytes of a class file.

Every table is a count and then its entries, every payload a length and then its
bytes. A count or length that does not fit its field is cut to the field, and
the entries are written all the same; whoever builds a class file sees to it that
the counts fit.
-/
import JvmStub.ClassFile.Basic
import JvmStub.Text.ModifiedUtf8

set_option autoImplicit false

namespace JvmStub

open Bytes

/-- The byte that tells the kinds of constant apart; the second slot of a wide constant
has no bytes at all. -/
def Constant.tag? : Constant → Option UInt8
  | utf8 _ => some 1
  | integer _ => some 3
  | float _ => some 4
  | long _ => some 5
  | double _ => some 6
  | classRef _ => some 7
  | string _ => some 8
  | fieldRef .. => some 9
  | methodRef .. => some 10
  | interfaceMethodRef .. => some 11
  | nameAndType .. => some 12
  | methodHandle .. => some 15
  | methodType _ => some 16
  | dynamic .. => some 17
  | invokeDynamic .. => some 18
  | moduleRef _ => some 19
  | packageRef _ => some 20
  | unusable => none

/-- The bytes of a constant behind its tag. -/
def Constant.body : Constant → Bytes
  | utf8 text =>
    let encoded := ModifiedUtf8.encode text
    count2 encoded.length ++ encoded
  | integer value => u4 value.toUInt32
  | float bits => u4 bits
  | long value => u8 value.toUInt64
  | double bits => u8 bits
  | classRef slot | string slot | methodType slot | moduleRef slot | packageRef slot => u2 slot
  | fieldRef first second | methodRef first second | interfaceMethodRef first second
  | nameAndType first second | dynamic first second | invokeDynamic first second =>
    u2 first ++ u2 second
  | methodHandle kind member => kind :: u2 member
  | unusable => []

/-- The bytes of a constant. -/
def Constant.encode (c : Constant) : Bytes := c.tag?.toList ++ c.body

/-- The bytes of a pool: one more than the number of its slots, then its constants. -/
def ConstantPool.encode (pool : ConstantPool) : Bytes :=
  count2 (pool.size + 1) ++ pool.constants.toList.flatMap Constant.encode

/-- The bytes of an attribute. -/
def Attribute.encode (a : Attribute) : Bytes :=
  u2 a.nameSlot ++ (count4 a.info.length ++ a.info)

/-- The bytes of a table of attributes. -/
def encodeAttributes (attributes : Array Attribute) : Bytes :=
  count2 attributes.size ++ attributes.toList.flatMap Attribute.encode

/-- The bytes of a field or method. -/
def Member.encode (m : Member) : Bytes :=
  u2 m.access ++ (u2 m.nameSlot ++ (u2 m.descriptorSlot ++ encodeAttributes m.attributes))

/-- The bytes of a table of slots. -/
def encodeSlots (slots : Array Slot) : Bytes :=
  count2 slots.size ++ slots.toList.flatMap u2

/-- The bytes of a table of fields or methods. -/
def encodeMembers (members : Array Member) : Bytes :=
  count2 members.size ++ members.toList.flatMap Member.encode

/-- The bytes of an exception handler. -/
def ExceptionHandler.encode (h : ExceptionHandler) : Bytes :=
  u2 h.start ++ (u2 h.stop ++ (u2 h.handler ++ u2 h.catchType))

/-- The payload of a `Code` attribute. -/
def Code.encode (code : Code) : Bytes :=
  u2 code.maxStack ++ (u2 code.maxLocals ++ (count4 code.bytecode.length ++ (code.bytecode ++
    (count2 code.handlers.size ++ (code.handlers.toList.flatMap ExceptionHandler.encode ++
      encodeAttributes code.attributes)))))

/-- The payload of an `Exceptions` attribute. -/
def encodeExceptions (classes : Array Slot) : Bytes := encodeSlots classes

/-- The payload of a `Signature` attribute. -/
def encodeSignature (signature : Slot) : Bytes := u2 signature

/-- The bytes of a class file. -/
def ClassFile.encode (cf : ClassFile) : Bytes :=
  u4 cf.magic ++ (u2 cf.minor ++ (u2 cf.major ++ (cf.pool.encode ++
    (u2 cf.access ++ (u2 cf.thisClass ++ (u2 cf.superClass ++ (encodeSlots cf.interfaces ++
      (encodeMembers cf.fields ++ (encodeMembers cf.methods ++
        encodeAttributes cf.attributes)))))))))

end JvmStub
