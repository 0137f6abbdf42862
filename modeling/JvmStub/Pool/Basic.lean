/-
`Basic.lean` -- the constant pool and what its slots resolve to.

A pool is the sequence of its slots; slot `i` is the entry at position `i - 1`.
A lookup follows references from slot to slot until it has the texts that they
stand for, and reports the first slot at which it cannot go on: a slot that
holds no constant, or one that holds a constant of another kind.
-/
import JvmStub.Pool.Constant

set_option autoImplicit false

namespace JvmStub

/-- The kinds of entry that a lookup asks for. -/
inductive EntryKind where
  | utf8 | classRef | nameAndType | memberRef
  deriving DecidableEq, Repr

/-- What a message calls a kind of entry. -/
def EntryKind.text : EntryKind → String
  | utf8 => "Utf8"
  | classRef => "Class"
  | nameAndType => "NameAndType"
  | memberRef => "member reference"

/-- What can go wrong in a constant pool. -/
inductive PoolError where
  | outOfSpace
  | invalidIndex (slot : Slot)
  | unexpectedEntry (slot : Slot) (expected : EntryKind)
  deriving DecidableEq, Repr

/-- The wording of a pool error. -/
def PoolError.message : PoolError → String
  | outOfSpace => "Constant pool is out of space"
  | invalidIndex slot => s!"Invalid constant pool index: {slot}"
  | unexpectedEntry slot expected =>
    s!"Constant pool entry {slot} is not a " ++ expected.text

/-- The constants of a class, slot by slot from slot one. -/
structure ConstantPool where
  constants : Array Constant
  deriving DecidableEq, Repr

/-- A member of a class: its owner, its name and its descriptor. -/
structure MemberRef where
  owner : String
  name : String
  descriptor : String
  deriving DecidableEq, Repr

namespace ConstantPool

/-- A pool without constants. -/
def empty : ConstantPool := ⟨#[]⟩

/-- The number of slots. -/
def size (pool : ConstantPool) : Nat := pool.constants.size

/-- The slot at position `position`. -/
def slotAt (position : Nat) : Slot := UInt16.ofNat (position + 1)

/-- The constant in a slot. -/
def get (pool : ConstantPool) (slot : Slot) : Except PoolError Constant :=
  if slot = 0 then .error (.invalidIndex slot)
  else
    match pool.constants[slot.toNat - 1]? with
    | none | some .unusable => .error (.invalidIndex slot)
    | some c => .ok c

/-- The text in a slot. -/
def utf8 (pool : ConstantPool) (slot : Slot) : Except PoolError String := do
  match ← pool.get slot with
  | .utf8 text => .ok text
  | _ => .error (.unexpectedEntry slot .utf8)

/-- The internal name of the class in a slot. -/
def className (pool : ConstantPool) (slot : Slot) : Except PoolError String := do
  match ← pool.get slot with
  | .classRef name => pool.utf8 name
  | _ => .error (.unexpectedEntry slot .classRef)

/-- The name and the descriptor in a slot. -/
def nameAndType (pool : ConstantPool) (slot : Slot) : Except PoolError (String × String) := do
  match ← pool.get slot with
  | .nameAndType name descriptor => return (← pool.utf8 name, ← pool.utf8 descriptor)
  | _ => .error (.unexpectedEntry slot .nameAndType)

/-- The field or method in a slot. -/
def memberRef (pool : ConstantPool) (slot : Slot) : Except PoolError MemberRef := do
  match ← pool.get slot with
  | .fieldRef owner member | .methodRef owner member | .interfaceMethodRef owner member =>
    let owner ← pool.className owner
    let (name, descriptor) ← pool.nameAndType member
    return ⟨owner, name, descriptor⟩
  | _ => .error (.unexpectedEntry slot .memberRef)

/-- Whether a slot holds the text. -/
def holdsUtf8 (pool : ConstantPool) (slot : Slot) (text : String) : Bool :=
  match pool.utf8 slot with
  | .ok found => found == text
  | .error _ => false

/-- Whether a slot holds the class of that name. -/
def holdsClass (pool : ConstantPool) (slot : Slot) (name : String) : Bool :=
  match pool.className slot with
  | .ok found => found == name
  | .error _ => false

end ConstantPool

end JvmStub
