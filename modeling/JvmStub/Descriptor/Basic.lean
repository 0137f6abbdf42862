/-
`Basic.lean` -- the types that descriptors spell.

A field type is a base type below some number of array levels; a method has the
types of its parameters and either a type or nothing as its result. Each type
has one spelling, `text`, and takes one or two units of the stack or of the
local variables. What a return instruction can tell apart of a result is its
category: the five integral types are one, and so are all references.

The units of a method's arguments have a true sum, which properties speak of, and a
count in sixteen bits, which is what every part of the program works with. The two
agree as long as the sum fits.
-/
import JvmStub.Opcode

set_option autoImplicit false

namespace JvmStub

/-- A type that is not an array. An object type carries its class's internal name. -/
inductive BaseType where
  | boolean | byte | char | short | int | long | float | double
  | object (name : String)
  deriving DecidableEq, Repr

/-- A type of values: a base type below `dimensions` array levels. -/
structure FieldType where
  dimensions : Nat
  base : BaseType
  deriving DecidableEq, Repr

/-- What a method gives back. -/
inductive ReturnType where
  | void
  | value (type : FieldType)
  deriving DecidableEq, Repr

/-- What the return instructions can tell apart of a result. -/
inductive Category where
  | void | int | long | float | double | reference
  deriving DecidableEq, Repr

/-- The types of a method's parameters and result. -/
structure MethodDescriptor where
  parameters : List FieldType
  result : ReturnType
  deriving DecidableEq, Repr

/-! ## Spelling -/

/-- The spelling of a base type. -/
def BaseType.text : BaseType → String
  | .boolean => "Z"
  | .byte => "B"
  | .char => "C"
  | .short => "S"
  | .int => "I"
  | .long => "J"
  | .float => "F"
  | .double => "D"
  | .object name => "L" ++ name ++ ";"

/-- The spelling of a field type: a bracket for each array level, then the base type. -/
def FieldType.text (type : FieldType) : String :=
  String.ofList (List.replicate type.dimensions '[') ++ type.base.text

/-- The spelling of a result. -/
def ReturnType.text : ReturnType → String
  | .void => "V"
  | .value type => type.text

/-- The spelling of a method descriptor. -/
def MethodDescriptor.text (descriptor : MethodDescriptor) : String :=
  "(" ++ String.join (descriptor.parameters.map FieldType.text) ++ ")" ++ descriptor.result.text

/-! ## Sizes and categories -/

/-- The units that a value takes on the stack or in the local variables. -/
def FieldType.slotSize : FieldType → Nat
  | ⟨0, .long⟩ | ⟨0, .double⟩ => 2
  | _ => 1

/-- The category of a value. -/
def FieldType.category : FieldType → Category
  | ⟨0, .boolean⟩ | ⟨0, .byte⟩ | ⟨0, .char⟩ | ⟨0, .short⟩ | ⟨0, .int⟩ => .int
  | ⟨0, .long⟩ => .long
  | ⟨0, .float⟩ => .float
  | ⟨0, .double⟩ => .double
  | _ => .reference

/-- The category of a result. -/
def ReturnType.category : ReturnType → Category
  | .void => .void
  | .value type => type.category

namespace Category

/-- The units that a returned value takes on the stack. -/
def stackSize : Category → Nat
  | void => 0
  | int | float | reference => 1
  | long | double => 2

/-- The one return instruction for this category. -/
def returnOpcode : Category → Opcode
  | void => .vreturn
  | int => .ireturn
  | long => .lreturn
  | float => .freturn
  | double => .dreturn
  | reference => .areturn

/-- The name of the category. -/
def text : Category → String
  | void => "void"
  | int => "int"
  | long => "long"
  | float => "float"
  | double => "double"
  | reference => "reference"

end Category

namespace MethodDescriptor

/-- The units that the parameters take, without the receiver. -/
def parameterSlots (descriptor : MethodDescriptor) : Nat :=
  descriptor.parameters.foldl (fun slots type => slots + type.slotSize) 0

/-- The local variables that the arguments take on entry; an instance method has its receiver in
front of them. -/
def argumentSlots (descriptor : MethodDescriptor) (static : Bool) : Nat :=
  descriptor.parameterSlots + if static then 0 else 1

/-- The units of the parameters as they are counted: in sixteen bits, where the sum wraps. -/
def parameterSlotCount (descriptor : MethodDescriptor) : UInt16 :=
  descriptor.parameters.foldl (fun count type => count + UInt16.ofNat type.slotSize) 0

/-- The local variables of the arguments as they are counted, in sixteen bits as well. -/
def argumentSlotCount (descriptor : MethodDescriptor) (static : Bool) : UInt16 :=
  descriptor.parameterSlotCount + if static then 0 else 1

variable {descriptor : MethodDescriptor} {static : Bool}

/-- What is counted is the true sum, cut to sixteen bits. -/
theorem parameterSlotCount_eq (descriptor : MethodDescriptor) :
    descriptor.parameterSlotCount = UInt16.ofNat descriptor.parameterSlots :=
  List.foldl_hom UInt16.ofNat fun slots type => (UInt16.ofNat_add slots type.slotSize).symm

/-- With the receiver it is the true sum, cut to sixteen bits, as well. -/
theorem argumentSlotCount_eq (descriptor : MethodDescriptor) (static : Bool) :
    descriptor.argumentSlotCount static = UInt16.ofNat (descriptor.argumentSlots static) := by
  rw [argumentSlotCount, argumentSlots, parameterSlotCount_eq, UInt16.ofNat_add]
  cases static <;> rfl

/-- Up to 65535 units nothing is cut. -/
theorem toNat_parameterSlotCount (h : descriptor.parameterSlots ≤ 65535) :
    descriptor.parameterSlotCount.toNat = descriptor.parameterSlots := by
  rw [parameterSlotCount_eq, UInt16.toNat_ofNat_of_lt' (Nat.lt_succ_of_le h)]

theorem toNat_argumentSlotCount (h : descriptor.argumentSlots static ≤ 65535) :
    (descriptor.argumentSlotCount static).toNat = descriptor.argumentSlots static := by
  rw [argumentSlotCount_eq, UInt16.toNat_ofNat_of_lt' (Nat.lt_succ_of_le h)]

end MethodDescriptor

end JvmStub
