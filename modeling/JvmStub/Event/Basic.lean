/-
`Basic.lean` -- a class as a sequence of events.

A class can be told piece by piece: its header, its fields, its methods, its
attributes, and that it is finished. A method is told piece by piece too, between
its declaration and its end. Pieces carry names rather than slots. Where they
were read from a class file, they also remember the slots that the names had
there, so that a pool grown from the same one can put them back in place.

`ClassEvent` is what one sends, a method together with its events. `Event` is
what one observes, one step after the other.
-/
import JvmStub.ClassFile.Basic
import JvmStub.Instruction

set_option autoImplicit false

namespace JvmStub

/-- The slots that the names of a header were read from. The superclass is zero where there
is none. -/
structure HeaderSlots where
  thisClass : Slot
  superClass : Slot
  interfaces : List Slot
  deriving DecidableEq, Repr

/-- The slots that the names of a field or method were read from. -/
structure MemberSlots where
  name : Slot
  descriptor : Slot
  signature : Option Slot := none
  exceptions : List Slot := []
  deriving DecidableEq, Repr

/-- What a class says of itself before its members. -/
structure ClassHeader where
  minor : UInt16
  major : UInt16
  access : AccessFlags
  name : String
  superName : Option String
  interfaces : List String
  slots : Option HeaderSlots
  deriving DecidableEq, Repr

/-- A field with all its attributes. -/
structure FieldDecl where
  access : AccessFlags
  name : String
  descriptor : String
  attributes : Array Attribute
  slots : Option MemberSlots
  deriving DecidableEq, Repr

/-- A method as it is declared, before its attributes and its body. -/
structure MethodDecl where
  access : AccessFlags
  name : String
  descriptor : String
  signature : Option String
  exceptions : List String
  slots : Option MemberSlots
  deriving DecidableEq, Repr

/-- What comes between the declaration of a method and that of the next member. -/
inductive MethodEvent where
  /-- An attribute that is neither the body nor part of the declaration. -/
  | attribute (a : Attribute)
  /-- The start of a body that is told instruction by instruction. -/
  | beginBody
  | instruction (i : Instruction)
  /-- The end of such a body, with the sizes of its frame. -/
  | endBody (maxStack maxLocals : UInt16)
  /-- A whole body at once, its references belonging to the pool it was read with. -/
  | body (code : Code)
  | finish
  deriving DecidableEq, Repr

/-- A piece of a class. A method is told together with its events. -/
inductive ClassEvent where
  | header (h : ClassHeader)
  | field (f : FieldDecl)
  | method (m : MethodDecl) (events : List MethodEvent)
  | attribute (a : Attribute)
  | finish
  deriving DecidableEq, Repr

/-- One observed step. -/
inductive Event where
  | header (h : ClassHeader)
  | field (f : FieldDecl)
  | method (m : MethodDecl)
  | inMethod (e : MethodEvent)
  | attribute (a : Attribute)
  | finish
  deriving DecidableEq, Repr

end JvmStub
