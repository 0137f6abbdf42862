/-
`Method.lean` -- a method under construction.

A method is put together from its declaration, its attributes and at most one
body, and joins the class when it is finished. Its attributes then stand in a
fixed order: the body, the declared exceptions, the generic signature, and the
others as they came.

A body is told instruction by instruction or comes whole. Names in instructions
are interned as the instructions come. A method that is dropped before its end
leaves no method behind, only the constants it had interned.
-/
import JvmStub.Assembly.Class
import JvmStub.Descriptor.Parser

set_option autoImplicit false

namespace JvmStub

/-- How far the body of a method has come. -/
inductive BodyState where
  | absent
  /-- The bytes of the instructions so far. -/
  | opened (bytecode : Array UInt8)
  | complete (code : Code)
  deriving DecidableEq, Repr

/-- A method under construction. -/
structure MethodAssembly where
  access : AccessFlags
  name : String
  nameSlot : Slot
  descriptorSlot : Slot
  /-- The attributes that stand for the declaration. -/
  leading : Array Attribute
  /-- The attributes received as such. -/
  forwarded : Array Attribute
  body : BodyState
  ended : Bool
  deriving DecidableEq, Repr

/-- The largest number of bytes in a body. -/
def maxCodeLength : Nat := 65535

/-- A step inside a method, which may touch the class around it. -/
abbrev MethodM := SinkM (MethodAssembly × ClassAssembly)

namespace MethodAssembly

/-- The attribute that lists the declared exceptions; there is none for an empty list. -/
def exceptionsAttribute (hints : List Slot) (classes : List String) :
    SinkM ClassAssembly (Array Attribute) := do
  if classes.isEmpty then return #[]
  let slots ← ClassAssembly.growing (PoolM.classesAt hints classes)
  let nameSlot ← ClassAssembly.growing (PoolM.addUtf8 AttributeName.exceptions.text)
  return #[⟨nameSlot, encodeExceptions slots⟩]

/-- The attribute that holds the generic signature. -/
def signatureAttribute (hint : Option Slot) (signature : Option String) :
    SinkM ClassAssembly (Array Attribute) := do
  match signature with
  | none => return #[]
  | some text =>
    let slot ← ClassAssembly.growing (PoolM.utf8At hint text)
    let nameSlot ← ClassAssembly.growing (PoolM.addUtf8 AttributeName.signature.text)
    return #[⟨nameSlot, encodeSignature slot⟩]

/-- Receives the declaration of a method. -/
def begin (decl : MethodDecl) : SinkM ClassAssembly MethodAssembly := do
  ClassAssembly.checkOpen .method
  checkCount .methods ((← get).classFile.methods.size + 1)
  let nameSlot ← ClassAssembly.growing (PoolM.utf8At (decl.slots.map (·.name)) decl.name)
  let descriptorSlot ←
    ClassAssembly.growing (PoolM.utf8At (decl.slots.map (·.descriptor)) decl.descriptor)
  let hints := (decl.slots.map (·.exceptions)).getD []
  let exceptions ← exceptionsAttribute hints decl.exceptions
  let signature ← signatureAttribute (decl.slots.bind (·.signature)) decl.signature
  return { access := decl.access, name := decl.name, nameSlot, descriptorSlot,
           leading := exceptions ++ signature, forwarded := #[], body := .absent, ended := false }

/-- Applies a change to the method. -/
def update (change : MethodAssembly → MethodAssembly) : MethodM Unit :=
  modify fun (m, c) => (change m, c)

/-- Runs a step on the class around the method. -/
def onClass {α : Type} (step : SinkM ClassAssembly α) : MethodM α := fun (m, c) =>
  let (result, c) := step c
  (result, (m, c))

/-- Grows the pool of the class around the method. -/
def growing {α : Type} (request : PoolM α) : MethodM α := onClass (ClassAssembly.growing request)

/-- Refuses an event that comes after the method's end. -/
def checkOpen (event : EventName) : MethodM Unit := do
  let (m, _) ← get
  if m.ended then throw (.write (.afterEnd event m.name))

/-- Refuses a body where there is one already, open or complete. -/
def checkNoBody : MethodM Unit := do
  let (m, _) ← get
  match m.body with
  | .absent => pure ()
  | _ => throw (.write (.duplicateCode m.name))

/-- The method with more bytes at the end of its open body. -/
def append (bytes : Bytes) (m : MethodAssembly) : MethodAssembly :=
  match m with
  | { body := .opened bytecode, access, name, nameSlot, descriptorSlot, leading, forwarded, ended } =>
    { body := .opened (bytecode ++ bytes), access, name, nameSlot, descriptorSlot, leading,
      forwarded, ended }
  | m => m

/-- Writes an instruction into the open body. The operands of an interface call are its slot,
the units that its arguments and its receiver take, and a zero. -/
def write (i : Instruction) : MethodM Unit := do
  match i with
  | .simple opcode => update (append [opcode])
  | .onClass opcode className =>
    let slot ← growing (PoolM.addClass className)
    update (append (opcode :: Bytes.u2 slot))
  | .onMethod opcode owner name descriptor ofInterface =>
    let slot ← growing
      (if ofInterface then PoolM.addInterfaceMethodRef owner name descriptor
       else PoolM.addMethodRef owner name descriptor)
    update (append (opcode :: Bytes.u2 slot))
    if opcode = Opcode.invokeinterface.code then
      match MethodDescriptor.parse descriptor with
      | .ok parsed => update (append [(parsed.parameterSlotCount + 1).toUInt8, 0])
      | .error e => throw (.descriptor e)

/-- Receives an attribute. -/
def receiveAttribute (a : Attribute) : MethodM Unit := do
  checkOpen .attribute
  update fun m => { m with forwarded := m.forwarded.push a }

/-- Opens a body. -/
def beginBody : MethodM Unit := do
  checkOpen .beginBody
  checkNoBody
  update fun m => { m with body := .opened #[] }

/-- Receives an instruction. -/
def instruction (i : Instruction) : MethodM Unit := do
  checkOpen .instruction
  let (m, _) ← get
  match m.body with
  | .opened _ => write i
  | _ => throw (.write (.noOpenBody .instruction m.name))

/-- Closes the open body. One that is too long is lost. -/
def endBody (maxStack maxLocals : UInt16) : MethodM Unit := do
  checkOpen .endBody
  let (m, _) ← get
  match m.body with
  | .opened bytecode =>
    if maxCodeLength < bytecode.size then
      update fun m => { m with body := .absent }
      throw (.write (.codeTooLong m.name bytecode.size))
    else
      let code : Code := ⟨maxStack, maxLocals, bytecode.toList, #[], #[]⟩
      update fun m => { m with body := .complete code }
  | _ => throw (.write (.noOpenBody .endBody m.name))

/-- Receives a whole body. -/
def receiveBody (code : Code) : MethodM Unit := do
  checkOpen .body
  checkNoBody
  update fun m => { m with body := .complete code }

/-- The attribute that holds the body. -/
def codeAttribute (name : String) (body : BodyState) : MethodM (Array Attribute) := do
  match body with
  | .absent => return #[]
  | .opened _ => throw (.write (.unclosedBody name))
  | .complete code =>
    let nameSlot ← growing (PoolM.addUtf8 AttributeName.code.text)
    return #[⟨nameSlot, code.encode⟩]

/-- Receives the end, and puts the method into the class. A method whose end is refused counts
as finished too. -/
def finish : MethodM Unit := do
  checkOpen .finish
  let (m, _) ← get
  -- before anything can be refused, so that a method cannot be finished twice
  update fun m => { m with ended := true }
  let code ← codeAttribute m.name m.body
  let attributes := code ++ m.leading ++ m.forwarded
  checkCount .methodAttributes attributes.size
  let member : Member := ⟨m.access, m.nameSlot, m.descriptorSlot, attributes⟩
  onClass (ClassAssembly.update fun cf => { cf with methods := cf.methods.push member })

/-- Receives what is inside a method. -/
def receive : MethodEvent → MethodM Unit
  | .attribute a => receiveAttribute a
  | .beginBody => beginBody
  | .instruction i => instruction i
  | .endBody maxStack maxLocals => endBody maxStack maxLocals
  | .body code => receiveBody code
  | .finish => finish

end MethodAssembly

/-- The sink that builds a class file. -/
def ClassAssembly.sink : ClassSink ClassAssembly where
  Method := MethodAssembly
  header := ClassAssembly.header
  field := ClassAssembly.field
  method := MethodAssembly.begin
  inMethod := MethodAssembly.receive
  classAttribute := ClassAssembly.classAttribute
  finish := ClassAssembly.finish

end JvmStub
