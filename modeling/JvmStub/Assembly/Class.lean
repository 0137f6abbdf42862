/-
`Class.lean` -- a class file under construction.

An assembly receives the events of a class and puts them into a class file. It
may start from the pool of another class file; that pool only grows, so payloads
that refer to it stay valid. Names go back to the slots that their events
remember, where these still hold them, and are interned otherwise.

The first event has to be the header, and nothing comes after the end. A header
may come again and replaces the one before. Every table is kept within what its
two-byte count can say.
-/
import JvmStub.ClassFile.Encode
import JvmStub.Event.Sink
import JvmStub.Pool.Intern

set_option autoImplicit false

namespace JvmStub

/-- A class file under construction, whether its header has come, and whether it is
finished. -/
structure ClassAssembly where
  classFile : ClassFile
  headerSeen : Bool
  ended : Bool
  deriving DecidableEq, Repr

/-- The largest count of a two-byte field. -/
def maxCount : Nat := 65535

/-- Refuses a table that its count cannot express. -/
def checkCount {σ : Type} (table : TableName) (count : Nat) : SinkM σ Unit :=
  if maxCount < count then throw (.write (.tooMany table count)) else pure ()

namespace ClassAssembly

/-- A class under construction that starts with the constants of a pool. -/
def ofPool (pool : ConstantPool) : ClassAssembly where
  classFile := { ClassFile.empty with pool }
  headerSeen := false
  ended := false

/-- A class under construction that starts with nothing. -/
def empty : ClassAssembly := ofPool .empty

/-- Applies a change to the class file. -/
def update (change : ClassFile → ClassFile) : SinkM ClassAssembly Unit :=
  modify fun a => { a with classFile := change a.classFile }

/-- Grows the pool of a class under construction. -/
def growing {α : Type} (request : PoolM α) : SinkM ClassAssembly α := fun a =>
  let (result, pool) := request a.classFile.pool
  (result.mapError fun e => .write (.pool e), { a with classFile := { a.classFile with pool } })

/-- What a refusal calls the class. -/
def target (a : ClassAssembly) : String :=
  match a.classFile.name with
  | .ok name => name
  | .error _ => "<class>"

/-- Refuses an event that comes after the end or before the header. -/
def checkOpen (event : EventName) : SinkM ClassAssembly Unit := do
  let a ← get
  if a.ended then throw (.write (.afterEnd event a.target))
  if !a.headerSeen then throw (.write .missingHeader)

/-- Receives the header. What was set before a refusal stays set. -/
def header (h : ClassHeader) : SinkM ClassAssembly Unit := do
  if (← get).ended then throw (.write (.afterEnd .header h.name))
  -- each part is put in place at once, so those before a refusal are kept
  update fun cf => { cf with minor := h.minor, major := h.major, access := h.access }
  let thisClass ← growing (PoolM.classAt (h.slots.map (·.thisClass)) h.name)
  update fun cf => { cf with thisClass }
  let superClass ←
    match h.superName with
    | some name => growing (PoolM.classAt (h.slots.map (·.superClass)) name)
    | none => pure 0
  update fun cf => { cf with superClass }
  checkCount .interfaces h.interfaces.length
  let hints := (h.slots.map (·.interfaces)).getD []
  let interfaces ← growing (PoolM.classesAt hints h.interfaces)
  update fun cf => { cf with interfaces }
  modify fun a => { a with headerSeen := true }

/-- Receives a field. -/
def field (f : FieldDecl) : SinkM ClassAssembly Unit := do
  checkOpen .field
  checkCount .fields ((← get).classFile.fields.size + 1)
  let nameSlot ← growing (PoolM.utf8At (f.slots.map (·.name)) f.name)
  let descriptorSlot ← growing (PoolM.utf8At (f.slots.map (·.descriptor)) f.descriptor)
  let member : Member := ⟨f.access, nameSlot, descriptorSlot, f.attributes⟩
  update fun cf => { cf with fields := cf.fields.push member }

/-- Receives an attribute of the class. -/
def classAttribute (a : Attribute) : SinkM ClassAssembly Unit := do
  checkOpen .attribute
  update fun cf => { cf with attributes := cf.attributes.push a }

/-- Receives the end. The class counts as finished even when its header is missing. -/
def finish : SinkM ClassAssembly Unit := do
  let a ← get
  if a.ended then throw (.write (.afterEnd .finish a.target))
  -- refused below or not, the class is finished from here on
  set { a with ended := true }
  if !a.headerSeen then throw (.write .missingHeader)

/-- The class file built so far; there is none before the header. -/
def result (a : ClassAssembly) : Except WriteError ClassFile :=
  if a.headerSeen then .ok a.classFile else .error .missingHeader

/-- The bytes of the class file built so far. -/
def bytes (a : ClassAssembly) : Except WriteError Bytes := a.result.map ClassFile.encode

end ClassAssembly

end JvmStub
