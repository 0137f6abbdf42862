/-
`Replay.lean` -- telling a class file to a sink.

A class file is told in the order in which it was written: header, fields,
methods, attributes, end. Slots are resolved to names just before the piece that
needs them is sent, so a slot that leads nowhere stops the replay there, and a
refusal by the sink stops it too. Nothing is sent after either.

Three attributes of a method are not sent as attributes. `Signature` and
`Exceptions` become part of the declaration, and `Code` is sent as a whole body,
unless bodies are to be left out.
-/
import JvmStub.ClassFile.Decode
import JvmStub.Event.Sink

set_option autoImplicit false

namespace JvmStub

/-- Lets a pool lookup fail as a read error. -/
def resolve {α : Type} (found : Except PoolError α) : Except ReadError α := found.mapError .pool

/-- Lets a read error stop a replay. -/
def reading {α σ : Type} (found : Except ReadError α) : SinkM σ α := fun s =>
  (found.mapError .read, s)

/-- The attributes of a method, told apart. A text is kept with the slot it was read from. -/
structure MethodParts where
  code : Option Attribute := none
  signature : Option (String × Slot) := none
  exceptions : Option (List (String × Slot)) := none
  others : Array Attribute := #[]
  deriving DecidableEq, Repr

/-- Refuses an attribute that was already there. -/
def refuseSecond (name : AttributeName) (seen : Bool) : Except ReadError Unit :=
  if seen then .error (.malformedAttribute name .declaredTwice) else .ok ()

/-- Adds an attribute to those already told apart. A second `Signature` is refused only after
its text is found, a second `Exceptions` before its classes are looked up. -/
def MethodParts.add (pool : ConstantPool) (parts : MethodParts) (a : Attribute) :
    Except ReadError MethodParts := do
  let name ← resolve (a.name pool)
  if name = AttributeName.code.text then
    refuseSecond .code parts.code.isSome
    return { parts with code := some a }
  else if name = AttributeName.signature.text then
    let slot ← decodeSignature a.info
    let text ← resolve (pool.utf8 slot)
    refuseSecond .signature parts.signature.isSome
    return { parts with signature := some (text, slot) }
  else if name = AttributeName.exceptions.text then
    refuseSecond .exceptions parts.exceptions.isSome
    let slots ← decodeExceptions a.info
    let classes ← slots.toList.mapM fun slot => return (← resolve (pool.className slot), slot)
    return { parts with exceptions := some classes }
  else return { parts with others := parts.others.push a }

/-- The attributes of a method, told apart. -/
def Member.parts (pool : ConstantPool) (m : Member) : Except ReadError MethodParts :=
  m.attributes.toList.foldlM (MethodParts.add pool) {}

namespace ClassFile

variable {σ : Type}

/-- The header with its names resolved. -/
def header (cf : ClassFile) : Except ReadError ClassHeader := do
  let name ← resolve (cf.pool.className cf.thisClass)
  let superName ←
    if cf.superClass = 0 then pure none
    else some <$> resolve (cf.pool.className cf.superClass)
  let interfaces ← cf.interfaces.toList.mapM fun slot => resolve (cf.pool.className slot)
  return { minor := cf.minor, major := cf.major, access := cf.access, name, superName, interfaces,
           slots := some ⟨cf.thisClass, cf.superClass, cf.interfaces.toList⟩ }

/-- A field with its names resolved. -/
def fieldDecl (cf : ClassFile) (f : Member) : Except ReadError FieldDecl := do
  let name ← resolve (cf.pool.utf8 f.nameSlot)
  let descriptor ← resolve (cf.pool.utf8 f.descriptorSlot)
  return { access := f.access, name, descriptor, attributes := f.attributes,
           slots := some { name := f.nameSlot, descriptor := f.descriptorSlot } }

/-- The declaration of a method whose attributes are told apart. -/
def methodDecl (cf : ClassFile) (m : Member) (parts : MethodParts) :
    Except ReadError MethodDecl := do
  let name ← resolve (cf.pool.utf8 m.nameSlot)
  let descriptor ← resolve (cf.pool.utf8 m.descriptorSlot)
  let exceptions := parts.exceptions.getD []
  return { access := m.access, name, descriptor, signature := parts.signature.map (·.1),
           exceptions := exceptions.map (·.1),
           slots := some { name := m.nameSlot, descriptor := m.descriptorSlot,
                           signature := parts.signature.map (·.2),
                           exceptions := exceptions.map (·.2) } }

/-- Tells what is inside a method. -/
def replayParts (skipCode : Bool) (sink : ClassSink σ) (parts : MethodParts) :
    SinkM (sink.Method × σ) Unit := do
  forM parts.others.toList fun a => sink.inMethod (.attribute a)
  match parts.code with
  | some a =>
    if !skipCode then
      let code ← reading (Code.decode a.info)
      sink.inMethod (.body code)
  | none => pure ()
  sink.inMethod .finish

/-- Tells a method. -/
def replayMethod (cf : ClassFile) (skipCode : Bool) (sink : ClassSink σ) (m : Member) :
    SinkM σ Unit := do
  let parts ← reading (m.parts cf.pool)
  let decl ← reading (cf.methodDecl m parts)
  let opened ← sink.method decl
  let _ ← sink.within opened (replayParts skipCode sink parts)

/-- Tells a class file to a sink, with the bodies of methods or without. -/
def replay (cf : ClassFile) (skipCode : Bool) (sink : ClassSink σ) : SinkM σ Unit := do
  sink.header (← reading cf.header)
  forM cf.fields.toList fun f => do sink.field (← reading (cf.fieldDecl f))
  forM cf.methods.toList (cf.replayMethod skipCode sink)
  forM cf.attributes.toList sink.classAttribute
  sink.finish

end ClassFile

end JvmStub
