/-
`Pool.lean` -- the check of a constant pool.

Two things are checked, one after the other: that the second slots stand exactly
behind the wide constants, and that each reference leads to a constant of the
kind it needs. Only the next constant on the way is looked at; since every slot
is looked at, the ways to the end are covered too. A dynamic constant also needs
the class to have bootstrap methods.
-/
import JvmStub.Check.Fault

set_option autoImplicit false

namespace JvmStub

namespace Constant

/-- A text. -/
def isUtf8 : Constant → Bool
  | utf8 _ => true
  | _ => false

/-- A class. -/
def isClass : Constant → Bool
  | classRef _ => true
  | _ => false

/-- A name and descriptor. -/
def isNameAndType : Constant → Bool
  | nameAndType .. => true
  | _ => false

/-- A field or method of a class or interface. -/
def isMember : Constant → Bool
  | fieldRef .. | methodRef .. | interfaceMethodRef .. => true
  | _ => false

/-- The slots that a constant refers to, each with the kind of constant it needs there. -/
def references : Constant → List (Slot × (Constant → Bool))
  | classRef slot | string slot | methodType slot | moduleRef slot | packageRef slot =>
    [(slot, isUtf8)]
  | fieldRef owner member | methodRef owner member | interfaceMethodRef owner member =>
    [(owner, isClass), (member, isNameAndType)]
  | nameAndType name descriptor => [(name, isUtf8), (descriptor, isUtf8)]
  | methodHandle _ member => [(member, isMember)]
  | dynamic _ member | invokeDynamic _ member => [(member, isNameAndType)]
  | _ => []

/-- A constant that is computed by a bootstrap method. -/
def isDynamic : Constant → Bool
  | dynamic .. | invokeDynamic .. => true
  | _ => false

end Constant

namespace Check

/-- Checks the second slots from `slot` on; `wide` is the wide constant just before, if any. -/
def shadowSlots : (wide : Option Slot) → (slot : Nat) → List Constant → Except PoolFault Unit
  | none, _, [] => .ok ()
  | some wide, _, [] => .error (.missingShadow wide)
  | some wide, slot, c :: rest =>
    if c = .unusable then shadowSlots none (slot + 1) rest else .error (.missingShadow wide)
  | none, slot, c :: rest =>
    if c = .unusable then .error (.strayShadow (UInt16.ofNat slot))
    else if c.isWide then shadowSlots (some (UInt16.ofNat slot)) (slot + 1) rest
    else shadowSlots none (slot + 1) rest

/-- Checks one reference of the constant in `slot`. -/
def reference (pool : ConstantPool) (slot target : Slot) (isExpected : Constant → Bool) :
    Except PoolFault Unit :=
  match pool.get target with
  | .ok c => if isExpected c then .ok () else .error (.invalidKind slot)
  | .error _ => .error (.invalidIndex slot)

/-- Checks the constant in `slot`. -/
def constant (pool : ConstantPool) (hasBootstrap : Bool) (slot : Slot) (c : Constant) :
    Except PoolFault Unit := do
  if c.isDynamic && !hasBootstrap then throw .bootstrapMethodsMissing
  forM c.references fun (target, isExpected) => reference pool slot target isExpected

/-- Checks the constants from `slot` on. -/
def constants (pool : ConstantPool) (hasBootstrap : Bool) :
    (slot : Nat) → List Constant → Except PoolFault Unit
  | _, [] => .ok ()
  | slot, c :: rest => do
    constant pool hasBootstrap (UInt16.ofNat slot) c
    constants pool hasBootstrap (slot + 1) rest

/-- Checks the constant pool of a class. -/
def pool (cf : ClassFile) : Except PoolFault Unit := do
  let hasBootstrap := cf.attributes.any (Attribute.isNamed cf.pool .bootstrapMethods)
  shadowSlots none 1 cf.pool.constants.toList
  constants cf.pool hasBootstrap 1 cf.pool.constants.toList

end Check

end JvmStub
