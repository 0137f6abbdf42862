/-
`Indexed.lean` -- a pool that keeps its lookups.

Passing over the slots of a pool to find a constant takes longer the larger the
pool is. An indexed pool carries tables beside its slots, one for each kind of
constant that is asked for often, from what identifies a constant of that kind to
the lowest slot that holds it. String constants are few and are still looked for
slot by slot; numbers are never looked for.

The tables say nothing that the slots do not say. They are entered as constants are
appended, or all at once when a pool has been read.
-/
import JvmStub.Pool.Intern

set_option autoImplicit false

namespace JvmStub

/-! ## Tables -/

/-- Slots by what identifies the constants in them. -/
structure SlotTable (κ : Type) where
  entries : List (κ × Slot)
  deriving Repr

namespace SlotTable

variable {κ : Type} [BEq κ]

/-- A table without entries. -/
def empty : SlotTable κ := ⟨[]⟩

/-- The slot that was entered for the key. -/
def find? (table : SlotTable κ) (key : κ) : Option Slot := table.entries.lookup key

/-- The table with a slot for the key; a key that has a slot keeps it. -/
def enter (table : SlotTable κ) (key : κ) (slot : Slot) : SlotTable κ :=
  match table.find? key with
  | some _ => table
  | none => ⟨(key, slot) :: table.entries⟩

end SlotTable

/-! ## Pools with tables -/

/-- A pool, and where its constants are found. -/
structure IndexedPool where
  pool : ConstantPool
  texts : SlotTable String
  classes : SlotTable Slot
  nameAndTypes : SlotTable (Slot × Slot)
  methodRefs : SlotTable (Slot × Slot)
  interfaceMethodRefs : SlotTable (Slot × Slot)
  deriving Repr

namespace IndexedPool

/-- A pool whose tables are still to be entered. -/
def bare (pool : ConstantPool) : IndexedPool := ⟨pool, .empty, .empty, .empty, .empty, .empty⟩

/-- Enters the constant that stands in a slot. -/
def remember (p : IndexedPool) (slot : Slot) : Constant → IndexedPool
  | .utf8 text => { p with texts := p.texts.enter text slot }
  | .classRef name => { p with classes := p.classes.enter name slot }
  | .nameAndType name descriptor =>
    { p with nameAndTypes := p.nameAndTypes.enter (name, descriptor) slot }
  | .methodRef owner named => { p with methodRefs := p.methodRefs.enter (owner, named) slot }
  | .interfaceMethodRef owner named =>
    { p with interfaceMethodRefs := p.interfaceMethodRefs.enter (owner, named) slot }
  | _ => p

/-- Enters constants by their positions, one after the other. -/
def rememberAll (p : IndexedPool) : List (Constant × Nat) → IndexedPool
  | [] => p
  | (c, position) :: rest => (p.remember (ConstantPool.slotAt position) c).rememberAll rest

/-- The pool with its tables, entered from its lowest slot to its highest. -/
def ofPool (pool : ConstantPool) : IndexedPool :=
  (bare pool).rememberAll pool.constants.toList.zipIdx

/-- The lowest slot that holds the constant: by a table where there is one for its kind. -/
def find? (p : IndexedPool) : Constant → Option Slot
  | .utf8 text => p.texts.find? text
  | .classRef name => p.classes.find? name
  | .nameAndType name descriptor => p.nameAndTypes.find? (name, descriptor)
  | .methodRef owner named => p.methodRefs.find? (owner, named)
  | .interfaceMethodRef owner named => p.interfaceMethodRefs.find? (owner, named)
  | c => p.pool.find? c

/-- The pool with a constant at its end, which is entered. -/
def append (p : IndexedPool) (c : Constant) : IndexedPool :=
  let slot := ConstantPool.slotAt p.pool.size
  { p with pool := p.pool.append c }.remember slot c

end IndexedPool

/-! ## Requests -/

/-- A computation that grows an indexed pool. What it added stays, also when it fails. -/
abbrev IndexedPoolM := ExceptT PoolError (StateM IndexedPool)

namespace IndexedPoolM

open ConstantPool

/-- Adds a constant at the end and gives its slot. -/
def push (c : Constant) : IndexedPoolM Slot := fun p =>
  if maxSize < p.pool.size + c.width then (.error .outOfSpace, p)
  else (.ok (slotAt p.pool.size), p.append c)

/-- The lowest slot that holds the constant, which is added where there is none. -/
def intern (c : Constant) : IndexedPoolM Slot := fun p =>
  match p.find? c with
  | some slot => (.ok slot, p)
  | none => push c p

/-- The slot of a text. -/
def addUtf8 (text : String) : IndexedPoolM Slot := intern (.utf8 text)

/-- The slot of a class. -/
def addClass (name : String) : IndexedPoolM Slot := do
  intern (.classRef (← addUtf8 name))

/-- The slot of a string constant. -/
def addString (text : String) : IndexedPoolM Slot := do
  intern (.string (← addUtf8 text))

/-- The slot of a name and descriptor. -/
def addNameAndType (name descriptor : String) : IndexedPoolM Slot := do
  let name ← addUtf8 name
  let descriptor ← addUtf8 descriptor
  intern (.nameAndType name descriptor)

/-- The slot of a method that a class owns. -/
def addMethodRef (owner name descriptor : String) : IndexedPoolM Slot := do
  let owner ← addClass owner
  let member ← addNameAndType name descriptor
  intern (.methodRef owner member)

/-- The slot of a method that an interface owns. -/
def addInterfaceMethodRef (owner name descriptor : String) : IndexedPoolM Slot := do
  let owner ← addClass owner
  let member ← addNameAndType name descriptor
  intern (.interfaceMethodRef owner member)

/-- The slot `hint` where it holds the text, and otherwise the slot that `addUtf8` gives. -/
def utf8At (hint : Option Slot) (text : String) : IndexedPoolM Slot := fun p =>
  match hint with
  | some slot => if p.pool.holdsUtf8 slot text then (.ok slot, p) else addUtf8 text p
  | none => addUtf8 text p

/-- The slot `hint` where it holds the class, and otherwise the slot that `addClass` gives. -/
def classAt (hint : Option Slot) (name : String) : IndexedPoolM Slot := fun p =>
  match hint with
  | some slot => if p.pool.holdsClass slot name then (.ok slot, p) else addClass name p
  | none => addClass name p

end IndexedPoolM

/-! ## Calls -/

/-- A call on a pool. -/
inductive PoolCall where
  | utf8 (text : String)
  | classRef (name : String)
  | string (text : String)
  | nameAndType (name descriptor : String)
  | methodRef (owner name descriptor : String)
  | interfaceMethodRef (owner name descriptor : String)
  | integer (value : Int32)
  | long (value : Int64)
  | utf8At (hint : Option Slot) (text : String)
  | classAt (hint : Option Slot) (name : String)
  deriving DecidableEq, Repr

namespace PoolCall

/-- What the call asks of an indexed pool. -/
def perform : PoolCall → IndexedPoolM Slot
  | utf8 text => IndexedPoolM.addUtf8 text
  | classRef name => IndexedPoolM.addClass name
  | string text => IndexedPoolM.addString text
  | nameAndType name descriptor => IndexedPoolM.addNameAndType name descriptor
  | methodRef owner name descriptor => IndexedPoolM.addMethodRef owner name descriptor
  | interfaceMethodRef owner name descriptor =>
    IndexedPoolM.addInterfaceMethodRef owner name descriptor
  | integer value => IndexedPoolM.push (.integer value)
  | long value => IndexedPoolM.push (.long value)
  | utf8At hint text => IndexedPoolM.utf8At hint text
  | classAt hint name => IndexedPoolM.classAt hint name

/-- What the call asks of a pool. -/
def request : PoolCall → PoolM Slot
  | utf8 text => PoolM.addUtf8 text
  | classRef name => PoolM.addClass name
  | string text => PoolM.addString text
  | nameAndType name descriptor => PoolM.addNameAndType name descriptor
  | methodRef owner name descriptor => PoolM.addMethodRef owner name descriptor
  | interfaceMethodRef owner name descriptor => PoolM.addInterfaceMethodRef owner name descriptor
  | integer value => PoolM.addInteger value
  | long value => PoolM.addLong value
  | utf8At hint text => PoolM.utf8At hint text
  | classAt hint name => PoolM.classAt hint name

end PoolCall

/-- The pool after several calls, those that fail included. -/
def IndexedPool.after (p : IndexedPool) (calls : List PoolCall) : IndexedPool :=
  calls.foldl (fun p call => (call.perform p).2) p

end JvmStub
