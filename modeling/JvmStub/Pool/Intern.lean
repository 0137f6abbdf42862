/-
`Intern.lean` -- putting constants into a pool.

A pool only grows at its end, so a slot once given out keeps its constant. A
constant that the pool already holds is not added again: the request is answered
with the lowest slot that holds it. Numbers are the exception, because nothing
ever asks for one twice; each request adds one.

A class file counts slots in sixteen bits and counts one more than there are, so
a pool refuses to grow beyond 65534 slots. A request that adds several constants
and is refused midway leaves behind those it had added.
-/
import JvmStub.Pool.Basic

set_option autoImplicit false

namespace JvmStub

/-- A computation that grows a pool. What it added stays, also when it fails. -/
abbrev PoolM := ExceptT PoolError (StateM ConstantPool)

namespace ConstantPool

/-- The largest number of slots that a pool can grow to. -/
def maxSize : Nat := 65534

/-- The lowest slot that holds the constant. -/
def find? (pool : ConstantPool) (c : Constant) : Option Slot :=
  (pool.constants.findIdx? (· == c)).map slotAt

/-- The pool with a constant at its end; a wide one is followed by its second slot. -/
def append (pool : ConstantPool) (c : Constant) : ConstantPool :=
  if c.isWide then ⟨(pool.constants.push c).push .unusable⟩ else ⟨pool.constants.push c⟩

end ConstantPool

namespace PoolM

open ConstantPool

/-- Adds a constant at the end and gives its slot. -/
def push (c : Constant) : PoolM Slot := fun pool =>
  -- a wide constant needs room for both of its slots
  if maxSize < pool.size + c.width then (.error .outOfSpace, pool)
  else (.ok (slotAt pool.size), pool.append c)

/-- The lowest slot that holds the constant, which is added where there is none. -/
def intern (c : Constant) : PoolM Slot := fun pool =>
  match pool.find? c with
  | some slot => (.ok slot, pool)
  | none => push c pool

/-- The slot of a text. -/
def addUtf8 (text : String) : PoolM Slot := intern (.utf8 text)

/-- The slot of a class. -/
def addClass (name : String) : PoolM Slot := do
  intern (.classRef (← addUtf8 name))

/-- The slot of a string constant. -/
def addString (text : String) : PoolM Slot := do
  intern (.string (← addUtf8 text))

/-- The slot of a name and descriptor. -/
def addNameAndType (name descriptor : String) : PoolM Slot := do
  let name ← addUtf8 name
  let descriptor ← addUtf8 descriptor
  intern (.nameAndType name descriptor)

/-- The slot of a method that a class owns. -/
def addMethodRef (owner name descriptor : String) : PoolM Slot := do
  let owner ← addClass owner
  let member ← addNameAndType name descriptor
  intern (.methodRef owner member)

/-- The slot of a method that an interface owns. -/
def addInterfaceMethodRef (owner name descriptor : String) : PoolM Slot := do
  let owner ← addClass owner
  let member ← addNameAndType name descriptor
  intern (.interfaceMethodRef owner member)

/-- A new slot for an integer. -/
def addInteger (value : Int32) : PoolM Slot := push (.integer value)

/-- A new slot for a long. -/
def addLong (value : Int64) : PoolM Slot := push (.long value)

/-- The slot `hint` where it holds the text, and otherwise the slot that `addUtf8` gives.
A pool may hold a text twice, and the hint keeps a member on the copy that it was read from. -/
def utf8At (hint : Option Slot) (text : String) : PoolM Slot := fun pool =>
  match hint with
  | some slot => if pool.holdsUtf8 slot text then (.ok slot, pool) else addUtf8 text pool
  | none => addUtf8 text pool

/-- The slot `hint` where it holds the class, and otherwise the slot that `addClass` gives. -/
def classAt (hint : Option Slot) (name : String) : PoolM Slot := fun pool =>
  match hint with
  | some slot => if pool.holdsClass slot name then (.ok slot, pool) else addClass name pool
  | none => addClass name pool

/-- The slots of several classes, onto those already given out; a hint belongs to the class
at its own position. -/
def classesOnto (given : Array Slot) : List Slot → List String → PoolM (Array Slot)
  | _, [] => pure given
  | hints, name :: names => do
    let slot ← classAt hints.head? name
    classesOnto (given.push slot) hints.tail names

/-- The slots of several classes, in their order. -/
def classesAt (hints : List Slot) (names : List String) : PoolM (Array Slot) :=
  classesOnto #[] hints names

end PoolM

end JvmStub
