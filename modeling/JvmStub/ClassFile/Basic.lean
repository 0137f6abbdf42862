/-
`Basic.lean` -- the class file.

A class file is its version, its constant pool, its own header, and tables of
fields, methods and attributes. An attribute is a name and a payload. Payloads
are kept as bytes, because their references into the pool stay valid as long as
the pool only grows. Three attributes of methods are taken apart: `Code` holds
the body, `Exceptions` lists the declared exceptions and `Signature` the generic
type.
-/
import JvmStub.AccessFlags
import JvmStub.Bytes
import JvmStub.Pool.Basic

set_option autoImplicit false

namespace JvmStub

/-- The attributes whose meaning this library knows. -/
inductive AttributeName where
  | code | exceptions | signature | bootstrapMethods
  deriving DecidableEq, Repr

/-- The name of an attribute as the class file spells it. -/
def AttributeName.text : AttributeName → String
  | code => "Code"
  | exceptions => "Exceptions"
  | signature => "Signature"
  | bootstrapMethods => "BootstrapMethods"

/-- An attribute: the slot of its name, and its payload. -/
structure Attribute where
  nameSlot : Slot
  info : Bytes
  deriving DecidableEq, Repr

/-- A field or a method: its modifiers, the slots of its name and descriptor, and its
attributes. -/
structure Member where
  access : AccessFlags
  nameSlot : Slot
  descriptorSlot : Slot
  attributes : Array Attribute
  deriving DecidableEq, Repr

/-- A range of a body in which a thrown exception is caught. -/
structure ExceptionHandler where
  start : UInt16
  stop : UInt16
  handler : UInt16
  catchType : Slot
  deriving DecidableEq, Repr

/-- The body of a method, the payload of its `Code` attribute. -/
structure Code where
  maxStack : UInt16
  maxLocals : UInt16
  bytecode : Bytes
  handlers : Array ExceptionHandler
  attributes : Array Attribute
  deriving DecidableEq, Repr

/-- A class or interface as a class file holds it. -/
structure ClassFile where
  magic : UInt32
  minor : UInt16
  major : UInt16
  pool : ConstantPool
  access : AccessFlags
  thisClass : Slot
  superClass : Slot
  interfaces : Array Slot
  fields : Array Member
  methods : Array Member
  attributes : Array Attribute
  deriving DecidableEq, Repr

/-- The first four bytes of every class file. -/
def classMagic : UInt32 := 0xCAFEBABE

/-- The text of an attribute's name. -/
def Attribute.name (pool : ConstantPool) (a : Attribute) : Except PoolError String :=
  pool.utf8 a.nameSlot

/-- Whether an attribute has this name. -/
def Attribute.isNamed (pool : ConstantPool) (name : AttributeName) (a : Attribute) : Bool :=
  pool.holdsUtf8 a.nameSlot name.text

/-- The `Code` attributes of a method, in their order. -/
def Member.codeAttributes (pool : ConstantPool) (m : Member) : List Attribute :=
  m.attributes.toList.filter (Attribute.isNamed pool .code)

namespace ClassFile

/-- A class file of Java 8 with empty tables. -/
def empty : ClassFile where
  magic := classMagic
  minor := 0
  major := 52
  pool := .empty
  access := 0
  thisClass := 0
  superClass := 0
  interfaces := #[]
  fields := #[]
  methods := #[]
  attributes := #[]

/-- The internal name of the class. -/
def name (cf : ClassFile) : Except PoolError String := cf.pool.className cf.thisClass

/-- The position of the first method with this name and descriptor. -/
def methodIndex? (cf : ClassFile) (name descriptor : String) : Option Nat :=
  cf.methods.findIdx? fun m =>
    cf.pool.holdsUtf8 m.nameSlot name && cf.pool.holdsUtf8 m.descriptorSlot descriptor

/-- A method's name and descriptor, or their slots where the pool does not hold both. -/
def displayName (cf : ClassFile) (m : Member) : String :=
  match cf.pool.utf8 m.nameSlot, cf.pool.utf8 m.descriptorSlot with
  | .ok name, .ok descriptor => name ++ descriptor
  | _, _ =>
    let name := m.nameSlot
    let descriptor := m.descriptorSlot
    s!"#{name}:#{descriptor}"

end ClassFile

end JvmStub
