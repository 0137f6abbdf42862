/-
`Constant.lean` -- the entries of a constant pool.

An entry is a text, a number, or a reference to other entries by their slots.
Floating-point numbers are kept as their bits: two entries are the same constant
exactly when the class file writes them the same way. A long or a double takes
two slots, and the second of them holds no constant of its own; `unusable` stands
there.
-/
set_option autoImplicit false

namespace JvmStub

/-- The position of an entry in the pool, counted from one. Zero is no position. -/
abbrev Slot := UInt16

/-- An entry of the constant pool. -/
inductive Constant where
  | utf8 (text : String)
  | integer (value : Int32)
  | float (bits : UInt32)
  | long (value : Int64)
  | double (bits : UInt64)
  | classRef (name : Slot)
  | string (text : Slot)
  | fieldRef (owner nameAndType : Slot)
  | methodRef (owner nameAndType : Slot)
  | interfaceMethodRef (owner nameAndType : Slot)
  | nameAndType (name descriptor : Slot)
  | methodHandle (kind : UInt8) (member : Slot)
  | methodType (descriptor : Slot)
  | dynamic (bootstrap nameAndType : Slot)
  | invokeDynamic (bootstrap nameAndType : Slot)
  | moduleRef (name : Slot)
  | packageRef (name : Slot)
  /-- The second slot of a long or a double. -/
  | unusable
  deriving DecidableEq, Repr

namespace Constant

/-- A constant that takes two slots. -/
def isWide : Constant → Bool
  | long _ | double _ => true
  | _ => false

/-- The number of slots that a constant takes. -/
def width (c : Constant) : Nat := if c.isWide then 2 else 1

end Constant

end JvmStub
