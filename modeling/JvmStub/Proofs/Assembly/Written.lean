/-
`Written.lean` -- the bytes of an assembled class, table by table.

A table in a class file is a two-byte count and the entries behind it, and nothing in
the file says that the two agree. `WrittenClass` is a file seen that way: what comes in
front of its tables, and then the tables, each with the count that its two bytes hold
and with the entries that stand behind them, down to the tables inside payloads. That
its `bytes` are those of the file fixes the counts; `Shows` fixes the entries, from what
the class was told.

The step that carries the file is `honest_of_iff`: a table goes out with the number of
its entries cut to sixteen bits, so its count is right exactly when they are 65535 at
most. Everything else finds the tables, from the payload of an attribute up to the class.
-/
import JvmStub.Proofs.Assembly.ClassRuns
import JvmStub.Proofs.ClassFile.Reading

set_option autoImplicit false

namespace JvmStub

open Bytes

/-! ## A file as tables -/

/-- A table in a file: the count that its first two bytes hold, and the entries behind it. -/
structure WrittenTable (α : Type) where
  count : UInt16
  entries : List α

namespace WrittenTable

variable {α : Type}

/-- The bytes of a table, from those of an entry. -/
def bytes (entry : α → Bytes) (table : WrittenTable α) : Bytes :=
  u2 table.count ++ table.entries.flatMap entry

/-- The count of a table beside the number of its entries. -/
def sizes (table : WrittenTable α) : UInt16 × Nat := (table.count, table.entries.length)

/-- The table of some entries, their number cut to sixteen bits. -/
def of (entries : List α) : WrittenTable α := ⟨UInt16.ofNat entries.length, entries⟩

end WrittenTable

/-- What an attribute holds: bytes as they came, the declared exceptions of a method, or its body.
-/
inductive WrittenPayload where
  | raw (payload : Bytes)
  | exceptions (classes : WrittenTable Slot)
  | code (maxStack maxLocals : UInt16) (bytecode : Bytes) (handlers : WrittenTable ExceptionHandler)
      (attributes : WrittenTable Attribute)

/-- An attribute in a file. -/
structure WrittenAttribute where
  nameSlot : Slot
  payload : WrittenPayload

/-- A field or method in a file. -/
structure WrittenMember where
  access : AccessFlags
  nameSlot : Slot
  descriptorSlot : Slot
  attributes : WrittenTable WrittenAttribute

/-- A class in a file: the bytes in front of its tables, and its tables. -/
structure WrittenClass where
  front : Bytes
  interfaces : WrittenTable Slot
  fields : WrittenTable WrittenMember
  methods : WrittenTable WrittenMember
  attributes : WrittenTable WrittenAttribute

/-! ## Its bytes -/

/-- A name, the length of the payload in four bytes, and the payload. -/
def attributeBytes (nameSlot : Slot) (payload : Bytes) : Bytes :=
  u2 nameSlot ++ (count4 payload.length ++ payload)

/-- The range of an exception handler, its place, and the class that it catches. -/
def handlerBytes (handler : ExceptionHandler) : Bytes :=
  u2 handler.start ++ (u2 handler.stop ++ (u2 handler.handler ++ u2 handler.catchType))

/-- The bytes of a payload. -/
def WrittenPayload.bytes : WrittenPayload → Bytes
  | raw payload => payload
  | exceptions classes => classes.bytes u2
  | code maxStack maxLocals bytecode handlers attributes =>
    u2 maxStack ++ (u2 maxLocals ++ (count4 bytecode.length ++ (bytecode ++
      (handlers.bytes handlerBytes ++ attributes.bytes fun a => attributeBytes a.nameSlot a.info))))

/-- The bytes of an attribute. -/
def WrittenAttribute.bytes (a : WrittenAttribute) : Bytes :=
  attributeBytes a.nameSlot a.payload.bytes

/-- The bytes of a field or method. -/
def WrittenMember.bytes (m : WrittenMember) : Bytes :=
  u2 m.access ++ (u2 m.nameSlot ++ (u2 m.descriptorSlot ++
    m.attributes.bytes WrittenAttribute.bytes))

/-- The bytes of the file. -/
def WrittenClass.bytes (w : WrittenClass) : Bytes :=
  w.front ++ (w.interfaces.bytes u2 ++ (w.fields.bytes WrittenMember.bytes ++
    (w.methods.bytes WrittenMember.bytes ++ w.attributes.bytes WrittenAttribute.bytes)))

/-! ## Its tables -/

/-- The tables inside a payload. -/
def WrittenPayload.tables : WrittenPayload → List (UInt16 × Nat)
  | raw _ => []
  | exceptions classes => [classes.sizes]
  | code _ _ _ handlers attributes => [handlers.sizes, attributes.sizes]

/-- A table of attributes and the tables inside them. -/
def WrittenTable.attributeTables (table : WrittenTable WrittenAttribute) : List (UInt16 × Nat) :=
  table.sizes :: table.entries.flatMap fun a => a.payload.tables

/-- All tables of the file. -/
def WrittenClass.tables (w : WrittenClass) : List (UInt16 × Nat) :=
  [w.interfaces.sizes, w.fields.sizes, w.methods.sizes] ++
    ((w.fields.entries ++ w.methods.entries).flatMap fun m => m.attributes.attributeTables) ++
      w.attributes.attributeTables

/-- Each count is the number of entries behind it. -/
def Honest (tables : List (UInt16 × Nat)) : Prop := ∀ t ∈ tables, t.1.toNat = t.2

/-! ## What stands in them -/

/-- The attribute with a payload that is not looked into. -/
def Attribute.written (a : Attribute) : WrittenAttribute := ⟨a.nameSlot, .raw a.info⟩

/-- The attributes hold the body, if there is one. -/
def ShowsBody (pool : ConstantPool) (code : Option Code) (attributes : List WrittenAttribute) :
    Prop :=
  List.Forall₂ (fun a code => pool.utf8 a.nameSlot = .ok "Code" ∧ ∃ handlers attributes,
      a.payload = .code code.maxStack code.maxLocals code.bytecode handlers attributes ∧
        handlers.entries = code.handlers.toList ∧ attributes.entries = code.attributes.toList)
    attributes code.toList

/-- The attributes list the declared exceptions. Nothing stands for an empty list. -/
def ShowsExceptions (pool : ConstantPool) (classes : List String)
    (attributes : List WrittenAttribute) : Prop :=
  List.Forall₂ (fun a classes => pool.utf8 a.nameSlot = .ok "Exceptions" ∧ ∃ slots,
      a.payload = .exceptions slots ∧
        List.Forall₂ (fun slot name => pool.className slot = .ok name) slots.entries classes)
    attributes (if classes.isEmpty then [] else [classes])

/-- The field in the file is the one that was told. -/
structure WrittenMember.ShowsField (pool : ConstantPool) (w : WrittenMember) (d : FieldDecl) :
    Prop where
  access : w.access = d.access
  name : pool.utf8 w.nameSlot = .ok d.name
  descriptor : pool.utf8 w.descriptorSlot = .ok d.descriptor
  attributes : w.attributes.entries = d.attributes.toList.map Attribute.written

/-- The method in the file is the one that was told, with its body and its declared exceptions in
front of the attributes that it accepted. -/
structure WrittenMember.ShowsMethod (pool : ConstantPool) (w : WrittenMember) (t : TakenMethod) :
    Prop where
  access : w.access = t.decl.access
  name : pool.utf8 w.nameSlot = .ok t.decl.name
  descriptor : pool.utf8 w.descriptorSlot = .ok t.decl.descriptor
  attributes : ∃ (code : Option Code) (body exceptions : List WrittenAttribute)
      (signature : List Attribute),
    w.attributes.entries = body ++ exceptions ++ (signature ++ t.attributes).map Attribute.written ∧
      t.Tells pool ((code.map BodyState.complete).getD .absent) ∧ ShowsBody pool code body ∧
        ShowsExceptions pool t.decl.exceptions exceptions ∧
          HoldsSignature pool t.decl.signature signature

/-- The tables of the file have the entries that the class has accepted, each in its place and no
others, and the class file's own header stands in front of them. -/
structure WrittenClass.Shows (cf : ClassFile) (t : Taken) (w : WrittenClass) : Prop where
  front : w.front = u4 classMagic ++ (u2 cf.minor ++ (u2 cf.major ++ (cf.pool.encode ++
    (u2 cf.access ++ (u2 cf.thisClass ++ u2 cf.superClass)))))
  interfaces : w.interfaces.entries = cf.interfaces.toList
  fields : List.Forall₂ (WrittenMember.ShowsField cf.pool) w.fields.entries t.fields
  methods : List.Forall₂ (WrittenMember.ShowsMethod cf.pool) w.methods.entries t.methods
  attributes : w.attributes.entries = t.attributes.map Attribute.written

/-! ## Counts that are cut -/

section

variable {α : Type}

/-- The two bytes of a count hold it cut to sixteen bits. -/
theorem u2_ofNat (n : Nat) : u2 (UInt16.ofNat n) = count2 n := by
  rw [u2, UInt16.toNat_ofNat', count2]
  exact bigEndian_mod 2 n

/-- A table that goes out is its count, cut where it has to be, and all entries. -/
theorem WrittenTable.bytes_of (entry : α → Bytes) (entries : List α) :
    (WrittenTable.of entries).bytes entry = count2 entries.length ++ entries.flatMap entry := by
  rw [bytes, of, u2_ofNat]

/-- The count of a table that goes out is right exactly when it has not been cut. -/
theorem honest_of_iff (entries : List α) :
    (WrittenTable.of entries).sizes.1.toNat = (WrittenTable.of entries).sizes.2 ↔
      entries.length ≤ maxCount := by
  change (UInt16.ofNat entries.length).toNat = entries.length ↔ _
  rw [UInt16.toNat_ofNat', maxCount]
  omega

end

theorem honest_cons {t : UInt16 × Nat} {tables : List (UInt16 × Nat)} :
    Honest (t :: tables) ↔ t.1.toNat = t.2 ∧ Honest tables := List.forall_mem_cons

theorem honest_append {tables more : List (UInt16 × Nat)} :
    Honest (tables ++ more) ↔ Honest tables ∧ Honest more := List.forall_mem_append

theorem honest_nil : Honest [] := List.forall_mem_nil _

/-- The counts inside the entries of a table are right when those of each entry are. -/
theorem honest_flatMap {α : Type} {xs : List α} {tables : α → List (UInt16 × Nat)} :
    Honest (xs.flatMap tables) ↔ ∀ x ∈ xs, Honest (tables x) := by
  simp only [Honest, List.mem_flatMap, forall_exists_index, and_imp]
  exact ⟨fun h x hx t ht => h t x hx ht, fun h t x hx ht => h x hx t ht⟩

/-! ## Payloads -/

/-- The attribute, its payload as bytes. -/
def WrittenAttribute.flat (a : WrittenAttribute) : Attribute := ⟨a.nameSlot, a.payload.bytes⟩

@[simp] theorem Attribute.flat_written (a : Attribute) : a.written.flat = a := rfl

/-- The payload of a body as it goes out. -/
def Code.written (code : Code) : WrittenPayload :=
  .code code.maxStack code.maxLocals code.bytecode (.of code.handlers.toList)
    (.of code.attributes.toList)

/-- A body as tables has the bytes of the body. -/
theorem Code.bytes_written (code : Code) : code.written.bytes = code.encode := by
  simp only [written, WrittenPayload.bytes, WrittenTable.bytes_of, encode, encodeAttributes,
    List.append_assoc, Array.length_toList]
  rfl

/-- A table of slots goes out as it is. -/
theorem encodeSlots_eq_written (slots : Array Slot) :
    encodeSlots slots = (WrittenTable.of slots.toList).bytes u2 := by
  rw [WrittenTable.bytes_of, Array.length_toList, encodeSlots]

/-- A table of attributes goes out with their payloads, whatever these are seen as. -/
theorem encodeAttributes_eq_written {attributes : Array Attribute} {ws : List WrittenAttribute}
    (h : attributes.toList = ws.map WrittenAttribute.flat) :
    encodeAttributes attributes = (WrittenTable.of ws).bytes WrittenAttribute.bytes := by
  have hsize : attributes.size = ws.length := by
    rw [← Array.length_toList, h, List.length_map]
  rw [encodeAttributes, h, hsize, List.flatMap_map, WrittenTable.bytes_of]
  rfl

@[simp] theorem map_flat_map_written (attributes : List Attribute) :
    (attributes.map Attribute.written).map WrittenAttribute.flat = attributes := by
  rw [List.map_map]
  exact List.map_id _

/-- Payloads that are not looked into have no tables. -/
theorem honest_written (attributes : List Attribute) :
    Honest ((attributes.map Attribute.written).flatMap fun a => a.payload.tables) := by
  simp [honest_flatMap, Attribute.written, WrittenPayload.tables, honest_nil]

variable {pool : ConstantPool} {attributes : List Attribute}

/-- A body goes out with its two tables. -/
theorem HoldsBody.written {code : Option Code} (h : HoldsBody pool code attributes) :
    ∃ ws, attributes = ws.map WrittenAttribute.flat ∧ ShowsBody pool code ws ∧
      (Honest (ws.flatMap fun a => a.payload.tables) ↔
        ∀ c ∈ code, c.handlers.size ≤ maxCount ∧ c.attributes.size ≤ maxCount) := by
  cases code with
  | none =>
    cases h
    exact ⟨[], rfl, .nil, by simp [honest_nil]⟩
  | some code =>
    obtain ⟨a, rfl, hname, hinfo⟩ := eq_singleton_of_forall₂ h
    refine ⟨[⟨a.nameSlot, code.written⟩], ?_,
      .cons ⟨isNamed_iff.mp hname, _, _, rfl, rfl, rfl⟩ .nil, ?_⟩
    · rw [List.map_singleton, WrittenAttribute.flat, code.bytes_written, ← hinfo]
    · simp [Code.written, WrittenPayload.tables, honest_cons, honest_of_iff, honest_nil]

/-- The declared exceptions go out as one table, unless there are none. -/
theorem HoldsExceptions.written {classes : List String}
    (h : HoldsExceptions pool classes attributes) :
    ∃ ws, attributes = ws.map WrittenAttribute.flat ∧ ShowsExceptions pool classes ws ∧
      (Honest (ws.flatMap fun a => a.payload.tables) ↔ classes.length ≤ maxCount) := by
  unfold HoldsExceptions at h
  unfold ShowsExceptions
  by_cases hempty : classes.isEmpty = true
  · rw [if_pos hempty] at h ⊢
    cases h
    refine ⟨[], rfl, .nil, ?_⟩
    simp [honest_nil, List.isEmpty_iff.mp hempty]
  · rw [if_neg hempty] at h ⊢
    obtain ⟨a, rfl, hname, slots, hinfo, hslots⟩ := eq_singleton_of_forall₂ h
    refine ⟨[⟨a.nameSlot, .exceptions (.of slots.toList)⟩], ?_,
      .cons ⟨isNamed_iff.mp hname, _, rfl, hslots⟩ .nil, ?_⟩
    · have hbytes : encodeExceptions slots = (WrittenPayload.exceptions (.of slots.toList)).bytes :=
        encodeSlots_eq_written slots
      rw [List.map_singleton, WrittenAttribute.flat, ← hbytes, ← hinfo]
    · simp [WrittenPayload.tables, honest_cons, honest_of_iff, honest_nil, ← hslots.length_eq]

/-! ## Members -/

/-- A member goes out with its attributes, whatever their payloads are seen as. -/
theorem Member.encode_eq_written {m : Member} {ws : List WrittenAttribute}
    (h : m.attributes.toList = ws.map WrittenAttribute.flat) :
    m.encode = WrittenMember.bytes ⟨m.access, m.nameSlot, m.descriptorSlot, .of ws⟩ := by
  rw [encode, encodeAttributes_eq_written h, WrittenMember.bytes]

/-- A field that is held goes out with the attributes that were declared, and its count is right
exactly when these fit it. -/
theorem HoldsField.written {f : Member} {d : FieldDecl} (h : HoldsField pool f d) :
    ∃ w : WrittenMember, f.encode = w.bytes ∧ w.ShowsField pool d ∧
      (Honest w.attributes.attributeTables ↔ d.attributes.size ≤ maxCount) := by
  have hflat : f.attributes.toList =
      (d.attributes.toList.map Attribute.written).map WrittenAttribute.flat := by
    rw [map_flat_map_written, h.attributes]
  refine ⟨_, f.encode_eq_written hflat, ⟨h.access, h.name, h.descriptor, rfl⟩, ?_⟩
  rw [WrittenTable.attributeTables, honest_cons, honest_of_iff, List.length_map, Array.length_toList]
  exact and_iff_left (honest_written _)

/-- The tables of a method that are taken as they come can be counted: those of its declared
exceptions, and the two inside a whole body. -/
structure TakenMethod.UncheckedFit (t : TakenMethod) : Prop where
  exceptions : t.decl.exceptions.length ≤ maxCount
  handlers : ∀ code, .body code ∈ t.accepted → code.handlers.size ≤ maxCount
  attributes : ∀ code, .body code ∈ t.accepted → code.attributes.size ≤ maxCount

/-- The tables inside the body that a method ends up with are those of the whole body that it has
accepted, or else they are empty. -/
theorem TakenMethod.Tells.forall_tables {t : TakenMethod} {code : Option Code}
    (h : t.Tells pool ((code.map BodyState.complete).getD .absent)) :
    (∀ c ∈ code, c.handlers.size ≤ maxCount ∧ c.attributes.size ≤ maxCount) ↔
      ∀ c, .body c ∈ t.accepted → c.handlers.size ≤ maxCount ∧ c.attributes.size ≤ maxCount := by
  have hmem : ∀ c, .body c ∈ t.accepted ↔ c ∈ t.accepted.filterMap MethodEvent.body? := by
    intro c
    rw [List.mem_filterMap]
    refine ⟨fun hc => ⟨_, hc, rfl⟩, fun ⟨e, he, hbody⟩ => ?_⟩
    cases e with
    | body code =>
      cases hbody
      exact he
    | _ => cases hbody
  have htables := h.tables
  simp only [hmem]
  cases code with
  | none =>
    have hnone : t.accepted.filterMap MethodEvent.body? = [] := htables
    simp [hnone]
  | some code =>
    -- the body was sent as a whole, with its tables, or built of instructions, without any
    rcases htables with hone | ⟨hnone, hhandlers, hattributes⟩
    · simp [hone]
    · simp [hnone, hhandlers, hattributes]

/-- A method goes out with all its tables, and they are right exactly when those that are not
checked fit: the table of its attributes is checked. -/
theorem HoldsMethod.written {m : Member} {t : TakenMethod} (h : HoldsMethod pool m t) :
    ∃ w : WrittenMember, m.encode = w.bytes ∧ w.ShowsMethod pool t ∧
      (Honest w.attributes.attributeTables ↔ t.UncheckedFit) := by
  obtain ⟨code, hhas, htells⟩ := h
  obtain ⟨body, exceptions, signature, hattributes, hbody, hexceptions, hsignature⟩ :=
    hhas.attributes
  obtain ⟨bodies, rfl, hshowsBody, hbodies⟩ := hbody.written
  obtain ⟨lists, rfl, hshowsExceptions, hlists⟩ := hexceptions.written
  have hflat : m.attributes.toList = (bodies ++ lists ++
      (signature ++ t.attributes).map Attribute.written).map WrittenAttribute.flat := by
    rw [hattributes, List.map_append, List.map_append, map_flat_map_written,
      List.append_assoc _ signature]
  -- the attributes of a method have been counted, so this table is right in any case
  have hcount := hhas.count
  rw [← Array.length_toList, hflat, List.length_map] at hcount
  refine ⟨_, m.encode_eq_written hflat, ⟨hhas.access, hhas.name, hhas.descriptor, code, bodies, lists,
    signature, rfl, htells, hshowsBody, hshowsExceptions, hsignature⟩, ?_⟩
  rw [WrittenTable.attributeTables, honest_cons, honest_of_iff, WrittenTable.of, List.flatMap_append,
    List.flatMap_append, honest_append, honest_append, hbodies, hlists, htells.forall_tables]
  constructor
  · rintro ⟨-, ⟨hcode, hclasses⟩, -⟩
    exact ⟨hclasses, fun c hc => (hcode c hc).1, fun c hc => (hcode c hc).2⟩
  · intro hfit
    exact ⟨hcount, ⟨fun c hc => ⟨hfit.handlers c hc, hfit.attributes c hc⟩, hfit.exceptions⟩,
      honest_written _⟩

/-! ## The class -/

/-- The tables of a class that are taken as they come can be counted: its attributes, those of each
field, and those of its methods that are not checked. -/
structure Taken.UncheckedFit (t : Taken) : Prop where
  attributes : t.attributes.length ≤ maxCount
  fieldAttributes : ∀ d ∈ t.fields, d.attributes.size ≤ maxCount
  methods : ∀ m ∈ t.methods, m.UncheckedFit

/-- A table of members goes out as their bytes, whatever these are seen as. -/
theorem encodeMembers_eq_written {members : Array Member} {ws : List WrittenMember}
    (h : List.Forall₂ (fun m w => m.encode = w.bytes) members.toList ws) :
    encodeMembers members = (WrittenTable.of ws).bytes WrittenMember.bytes := by
  have hbytes : members.toList.map Member.encode = ws.map WrittenMember.bytes :=
    map_eq_of_forall₂ (fun _ _ hm => hm) h
  rw [encodeMembers, WrittenTable.bytes_of, ← Array.length_toList, h.length_eq, List.flatMap_def,
    hbytes, ← List.flatMap_def]

/-- Properties that go together along two lists hold of all of one when they hold of all of the
other. -/
theorem forall_mem_iff_of_forall₂ {α β : Type} {P : α → Prop} {Q : β → Prop} {xs : List α}
    {ys : List β} (h : List.Forall₂ (fun x y => P x ↔ Q y) xs ys) :
    (∀ x ∈ xs, P x) ↔ ∀ y ∈ ys, Q y := by
  induction h with
  | nil => simp
  | cons hfirst _ ih => rw [List.forall_mem_cons, List.forall_mem_cons, hfirst, ih]

/-- Of a class whose interfaces, fields and methods can be counted, the tables in its members and
the table of its attributes are left to be counted. -/
theorem honest_tables_iff {front : Bytes} {interfaces : List Slot}
    {fields methods : List WrittenMember} {attributes : List Attribute}
    (hinterfaces : interfaces.length ≤ maxCount) (hfields : fields.length ≤ maxCount)
    (hmethods : methods.length ≤ maxCount) :
    Honest (WrittenClass.tables ⟨front, .of interfaces, .of fields, .of methods,
        .of (attributes.map Attribute.written)⟩) ↔
      (∀ f ∈ fields, Honest f.attributes.attributeTables) ∧
        (∀ m ∈ methods, Honest m.attributes.attributeTables) ∧ attributes.length ≤ maxCount := by
  have hfront : Honest [(WrittenTable.of interfaces).sizes, (WrittenTable.of fields).sizes,
      (WrittenTable.of methods).sizes] := by
    simp only [honest_cons, honest_of_iff]
    exact ⟨hinterfaces, hfields, hmethods, honest_nil⟩
  have hattributes : Honest (WrittenTable.of (attributes.map Attribute.written)).attributeTables ↔
      attributes.length ≤ maxCount := by
    rw [WrittenTable.attributeTables, honest_cons, honest_of_iff, List.length_map]
    exact and_iff_left (honest_written _)
  rw [WrittenClass.tables, honest_append, honest_append, hattributes, honest_flatMap,
    List.forall_mem_append, and_iff_right hfront, and_assoc]
  rfl

/-- A class goes out with all its tables, and their counts are right exactly when those that are not
checked fit. -/
theorem Holds.written {texts : String → Prop} {start : ConstantPool} {a : ClassAssembly} {t : Taken}
    (h : Holds texts start a t) :
    ∃ w : WrittenClass, a.classFile.encode = w.bytes ∧ w.Shows a.classFile t ∧
      (Honest w.tables ↔ t.UncheckedFit) := by
  obtain ⟨fields, hfieldBytes, hfields⟩ := exists_forall₂ (h.fields.imp fun _ _ hf => hf.written)
  obtain ⟨methods, hmethodBytes, hmethods⟩ := exists_forall₂ (h.methods.imp fun _ _ hm => hm.written)
  -- the tables are those of the class file, each with the count that it is written with
  let w : WrittenClass :=
    { front := u4 classMagic ++ (u2 a.classFile.minor ++ (u2 a.classFile.major ++
        (a.classFile.pool.encode ++ (u2 a.classFile.access ++ (u2 a.classFile.thisClass ++
          u2 a.classFile.superClass)))))
      interfaces := .of a.classFile.interfaces.toList
      fields := .of fields
      methods := .of methods
      attributes := .of (t.attributes.map Attribute.written) }
  have hattributes : a.classFile.attributes.toList =
      (t.attributes.map Attribute.written).map WrittenAttribute.flat := by
    rw [map_flat_map_written, h.attributes]
  refine ⟨w, ?_, ⟨rfl, rfl, (hfields.imp fun _ _ hf => hf.1).flip,
    (hmethods.imp fun _ _ hm => hm.1).flip, rfl⟩, ?_⟩
  · rw [ClassFile.encode, encodeSlots_eq_written, encodeMembers_eq_written hfieldBytes,
      encodeMembers_eq_written hmethodBytes, encodeAttributes_eq_written hattributes, h.magic]
    simp only [w, WrittenClass.bytes, List.append_assoc]
  · have hinterfaces := h.interfaceCount
    have hfieldCount := h.fieldCount
    have hmethodCount := h.methodCount
    rw [← Array.length_toList] at hinterfaces
    rw [← Array.length_toList, hfieldBytes.length_eq] at hfieldCount
    rw [← Array.length_toList, hmethodBytes.length_eq] at hmethodCount
    rw [honest_tables_iff hinterfaces hfieldCount hmethodCount,
      ← forall_mem_iff_of_forall₂ (hfields.imp fun _ _ hf => hf.2.symm),
      ← forall_mem_iff_of_forall₂ (hmethods.imp fun _ _ hm => hm.2.symm)]
    exact ⟨fun hfit => ⟨hfit.2.2, hfit.1, hfit.2.1⟩,
      fun hfit => ⟨hfit.fieldAttributes, hfit.methods, hfit.attributes⟩⟩

end JvmStub
