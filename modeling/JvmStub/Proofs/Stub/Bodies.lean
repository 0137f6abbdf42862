/-
`Bodies.lean` -- the body that every method ends up with.

After a class has been stubbed, a method without a body has no `Code` attribute
and every other method has exactly one, in front of its other attributes, with
the body that was meant for it. The slots in that body are those of the final
pool: they were given out while the pool was still growing, and they still lead
to the class that is thrown and to its constructor.

A body declares as many local variables as the arguments take. That number is
kept in sixteen bits, so methods whose arguments take more are left out here.
-/
import JvmStub.Proofs.Stub.Attributes

set_option autoImplicit false

namespace JvmStub

open ConstantPool

/-! ## What a stub is -/

/-- The bytecode that throws a new instance of a class. -/
def throwingBytecode (thrown constructor : Slot) : Bytes :=
  (Opcode.new.code :: Bytes.u2 thrown) ++ [Opcode.dup.code] ++
    (Opcode.invokespecial.code :: Bytes.u2 constructor) ++ [Opcode.athrow.code]

/-- The bytecode that returns the zero of a category. -/
def zeroBytecode (category : Category) : Bytes :=
  (category.zero?.toList ++ [category.returnOpcode]).map Opcode.code

/-- The body throws a new instance of the class. -/
def Code.Throws (exceptionClass : String) (pool : ConstantPool) (code : Code) : Prop :=
  code.maxStack = 2 ∧ ∃ thrown constructor,
    code.bytecode = throwingBytecode thrown constructor ∧
      pool.className thrown = .ok exceptionClass ∧
        pool.memberRef constructor =
          .ok ⟨exceptionClass, constructorName, noArgumentsDescriptor⟩

/-- The body returns the zero of the category. -/
def Code.ReturnsZero (category : Category) (code : Code) : Prop :=
  code.maxStack.toNat = category.stackSize ∧ code.bytecode = zeroBytecode category

/-- The body is the stub of a method with this name and descriptor. -/
structure Code.IsStub (exceptionClass : String) (pool : ConstantPool) (name : String)
    (descriptor : MethodDescriptor) (static : Bool) (code : Code) : Prop where
  handlers : code.handlers = #[]
  attributes : code.attributes = #[]
  /-- Two local variables for each `long` or `double`, one for any other parameter, and one for the
  instance. -/
  maxLocals : code.maxLocals.toNat =
    (descriptor.parameters.map fun type =>
      if type = ⟨0, .long⟩ ∨ type = ⟨0, .double⟩ then 2 else 1).sum + if static then 0 else 1
  instructions :
    if name = constructorName then code.Throws exceptionClass pool
    else code.ReturnsZero descriptor.result.category

/-- The units of a value are two for a `long` or a `double`, and one otherwise. -/
theorem FieldType.slotSize_eq (type : FieldType) :
    type.slotSize = if type = ⟨0, .long⟩ ∨ type = ⟨0, .double⟩ then 2 else 1 := by
  obtain ⟨dimensions, base⟩ := type
  cases dimensions <;> cases base <;> simp [FieldType.slotSize]

/-- The arguments take the local variables that a stub declares. -/
theorem MethodDescriptor.argumentSlots_eq (descriptor : MethodDescriptor) (static : Bool) :
    descriptor.argumentSlots static =
      (descriptor.parameters.map fun type =>
        if type = ⟨0, .long⟩ ∨ type = ⟨0, .double⟩ then 2 else 1).sum + if static then 0 else 1 := by
  simp only [argumentSlots, parameterSlots, ← FieldType.slotSize_eq, List.sum_eq_foldl,
    List.foldl_map]

/-- A stub declares the local variables that are counted for it. -/
theorem Code.IsStub.maxLocals_eq {exceptionClass name : String} {pool : ConstantPool}
    {descriptor : MethodDescriptor} {static : Bool} {code : Code}
    (h : code.IsStub exceptionClass pool name descriptor static) :
    code.maxLocals = descriptor.argumentSlotCount static := by
  rw [MethodDescriptor.argumentSlotCount_eq, MethodDescriptor.argumentSlots_eq, ← h.maxLocals,
    UInt16.ofNat_toNat]

/-- The method has exactly one `Code` attribute, in front of the others, and its payload is the
stub that the method's name and descriptor ask for. -/
def Member.HasStub (exceptionClass : String) (pool : ConstantPool) (m : Member) : Prop :=
  ∃ a others code name text descriptor,
    m.attributes.toList = a :: others ∧ m.codeAttributes pool = [a] ∧
      Code.decode a.info = .ok code ∧
        pool.utf8 m.nameSlot = .ok name ∧ pool.utf8 m.descriptorSlot = .ok text ∧
          MethodDescriptor.parse text = .ok descriptor ∧
            code.IsStub exceptionClass pool name descriptor m.access.isStatic

/-- The arguments of each method, with its receiver, take no more local variables than a body can
declare. -/
def ClassFile.ArgumentsFit (cf : ClassFile) : Prop :=
  ∀ m ∈ cf.methods.toList, ∀ text descriptor, cf.pool.utf8 m.descriptorSlot = .ok text →
    MethodDescriptor.parse text = .ok descriptor →
      descriptor.argumentSlots m.access.isStatic ≤ 65535

/-- Whether the arguments of a method fit; a method without a descriptor has none. -/
def Member.argumentsFit (pool : ConstantPool) (m : Member) : Bool :=
  match pool.utf8 m.descriptorSlot with
  | .error _ => true
  | .ok text =>
    match MethodDescriptor.parse text with
    | .error _ => true
    | .ok descriptor => descriptor.argumentSlots m.access.isStatic ≤ 65535

/-- Whether arguments fit can be computed, method by method. -/
theorem argumentsFit_iff {cf : ClassFile} :
    cf.ArgumentsFit ↔ ∀ m ∈ cf.methods.toList, m.argumentsFit cf.pool = true := by
  refine forall₂_congr fun m _ => ?_
  unfold Member.argumentsFit
  cases htext : cf.pool.utf8 m.descriptorSlot with
  | error e => simp
  | ok text =>
    dsimp only
    cases hparse : MethodDescriptor.parse text with
    | error e =>
      refine ⟨fun _ => rfl, fun _ text' descriptor htext' hparse' => ?_⟩
      cases htext'
      cases hparse.symm.trans hparse'
    | ok descriptor =>
      dsimp only
      rw [decide_eq_true_iff]
      refine ⟨fun h => h text descriptor rfl hparse, fun h text' descriptor' htext' hparse' => ?_⟩
      cases htext'
      cases hparse.symm.trans hparse'
      exact h

instance (cf : ClassFile) : Decidable cf.ArgumentsFit :=
  decidable_of_iff' _ argumentsFit_iff

/-! ## The bytes of a stub -/

variable {pool later : ConstantPool} {exceptionClass : String} {bytes : Bytes}

/-- The bytes of a throwing stub, whose slots resolve to the class and its constructor. -/
theorem throws_of_requestAll {maxLocals : UInt16} (hn : pool.Numbered)
    (h : requestAll (StubBody.throwing exceptionClass maxLocals).instructions pool =
      (.ok bytes, pool)) :
    ((StubBody.throwing exceptionClass maxLocals).code bytes).Throws exceptionClass pool := by
  -- four instructions, of which the first and the third ask for a slot
  obtain ⟨first, mid₁, rest₁, hfirst, hrest₁, rfl⟩ := requestAll_cons_eq_ok.mp h
  obtain ⟨second, mid₂, rest₂, hsecond, hrest₂, rfl⟩ := requestAll_cons_eq_ok.mp hrest₁
  obtain ⟨third, mid₃, rest₃, hthird, hrest₃, rfl⟩ := requestAll_cons_eq_ok.mp hrest₂
  obtain ⟨thrown, mid, hthrown, hnew⟩ := bind_eq_ok.mp hfirst
  obtain ⟨constructor, mid', hconstructor, hinvoke⟩ := bind_eq_ok.mp hthird
  cases hnew
  cases hsecond
  cases hinvoke
  cases hrest₃
  have hgrow := (PoolM.interns_addMember ⟨_, _, _⟩ false).growsInto hconstructor
  have hmid := Nat.le_trans hgrow.size_le hn
  refine ⟨rfl, thrown, constructor, rfl, ?_, ?_⟩
  · exact hgrow.className (PoolM.className_of_addClass hmid hthrown)
  · have hmember : pool.HoldsMember constructor
        ⟨exceptionClass, constructorName, noArgumentsDescriptor⟩ false :=
      PoolM.holdsMember_of_addMember hn hconstructor
    exact hmember.memberRef

/-- Instructions without operands ask for nothing. -/
theorem requestAll_simple (ops : List Opcode) :
    requestAll (ops.map fun op => .simple op.code) pool = (.ok (ops.map Opcode.code), pool) := by
  induction ops with
  | nil => rfl
  | cons op ops ih =>
    have hfirst : (Instruction.simple op.code).request pool = (.ok [op.code], pool) := rfl
    rw [List.map_cons, requestAll, bind_of_ok hfirst, bind_of_ok ih]
    rfl

/-- Instructions that push a zero and return it have no slots, so their bytes are known. -/
theorem returnsZero_of_requestAll {category : Category} {maxLocals : UInt16}
    (h : requestAll (StubBody.returningZero category maxLocals).instructions pool =
      (.ok bytes, pool)) :
    ((StubBody.returningZero category maxLocals).code bytes).ReturnsZero category := by
  cases (requestAll_simple _).symm.trans h
  refine ⟨?_, rfl⟩
  cases category <;> rfl

/-! ## One method -/

variable {cf : ClassFile} {m member : Member} {decl : MethodDecl}

/-- The stub that is decided on for a method comes to the body that the method should have. -/
theorem isStub_of_requestAll {body : StubBody} {descriptor : MethodDescriptor}
    (hstub : stubBody decl exceptionClass = .ok (some body))
    (hparse : MethodDescriptor.parse decl.descriptor = .ok descriptor)
    (hslots : descriptor.argumentSlots decl.access.isStatic ≤ 65535) (hn : pool.Numbered)
    (hbytes : requestAll body.instructions pool = (.ok bytes, pool)) :
    (body.code bytes).IsStub exceptionClass pool decl.name descriptor decl.access.isStatic := by
  have hbodiless : decl.access.isBodiless = false := by
    have hsome := isSome_of_stubBody hstub
    simpa using hsome
  -- this is where too many arguments would be cut
  have hlocals := (MethodDescriptor.toNat_argumentSlotCount hslots).trans
    (descriptor.argumentSlots_eq decl.access.isStatic)
  obtain ⟨found, hfound, hcases⟩ := (stubBody_eq_ok hbodiless).mp hstub
  cases hparse.symm.trans hfound
  by_cases hname : decl.name = constructorName
  · rw [if_pos hname] at hcases
    obtain ⟨-, -, heq⟩ := hcases
    cases heq
    refine ⟨rfl, rfl, hlocals, ?_⟩
    rw [if_pos hname]
    exact throws_of_requestAll hn hbytes
  · rw [if_neg hname] at hcases
    cases hcases
    refine ⟨rfl, rfl, hlocals, ?_⟩
    rw [if_neg hname]
    exact returnsZero_of_requestAll hbytes

/-- A settled step leaves a method without a body alone and gives any other its stub. -/
theorem StubStep.hasStub (h : StubStep exceptionClass cf later m later member)
    (hg : cf.pool.GrowsInto later) (hn : later.Numbered) (hfit : cf.ArgumentsFit)
    (hm : m ∈ cf.methods.toList) :
    (member.access.isBodiless = true → member.codeAttributes later = []) ∧
      (member.access.isBodiless = false → member.HasStub exceptionClass later) := by
  obtain ⟨hparts, hdecl, hstub, hcode, hcount⟩ := h
  rename_i parts decl stub code
  obtain ⟨hname, hdescriptor, -⟩ := methodDecl_eq_ok.mp hdecl
  have haccess := access_of_methodDecl hdecl
  have hsome := isSome_of_methodDecl hdecl hstub
  cases stub with
  | none =>
    have hbodiless : m.access.isBodiless = true := by simpa using hsome
    have hagain := describe_withCode hparts hg hn none (by simp)
    rw [code_of_no_stub hcode]
    refine ⟨fun _ => ?_, fun habs => ?_⟩
    · exact hagain.code
    · rw [hbodiless] at habs
      cases habs
  | some body =>
    have hbodiless : m.access.isBodiless = false := by simpa using hsome
    obtain ⟨bytes, slot, hbytes, hslot, rfl⟩ := code_of_settled hcode
    have hnamed : ∀ a ∈ (some (⟨slot, (body.code bytes).encode⟩ : Attribute)).toList,
        a.isNamed later .code = true := by
      rw [Option.toList_some, List.forall_mem_singleton]
      exact isNamed_iff.mpr (PoolM.utf8_of_addUtf8 hn hslot)
    have hagain := describe_withCode hparts hg hn _ hnamed
    refine ⟨fun habs => ?_, fun _ => ?_⟩
    · rw [hbodiless] at habs
      cases habs
    · have hbodiless' : decl.access.isBodiless = false := haccess ▸ hbodiless
      obtain ⟨descriptor, hparse, -⟩ := (stubBody_eq_ok hbodiless').mp hstub
      have hslots : descriptor.argumentSlots decl.access.isStatic ≤ 65535 := by
        rw [haccess]
        exact hfit m hm _ _ hdescriptor hparse
      have hisStub := isStub_of_requestAll hstub hparse hslots hn hbytes
      rw [haccess] at hisStub
      refine ⟨_, _, body.code bytes, decl.name, decl.descriptor, descriptor, rfl, hagain.code,
        Code.decode_eq_ok.mpr ⟨?_, rfl⟩, hg.utf8 hname, hg.utf8 hdescriptor, hparse, hisStub⟩
      -- four instructions of three bytes at most: the lengths fit their fields
      have hlen := length_of_requestAll hbytes
      have hshort := (plain_of_stubBody hstub).short
      refine ⟨?_, Nat.zero_le _, Nat.zero_le _, by simp [StubBody.code]⟩
      change bytes.length < 2 ^ 32
      omega

/-! ## All methods -/

/-- In a stubbed class every method with a body has its stub, and the others have no body. -/
theorem hasStub_of_stubbedClass {stubbed : ClassFile} (hfits : cf.Fits) (hfit : cf.ArgumentsFit)
    (h : stubbedClass exceptionClass cf = .ok stubbed) :
    ∀ m ∈ stubbed.methods.toList,
      (m.access.isBodiless = true → m.codeAttributes stubbed.pool = []) ∧
        (m.access.isBodiless = false → m.HasStub exceptionClass stubbed.pool) := by
  obtain ⟨-, last, members, hrun, rfl⟩ := (stubbedClass_eq_ok hfits).mp h
  have hg := hrun.growsInto
  have hn := hrun.numbered hfits.numbered
  have hsettled := hrun.settled (GrowsInto.refl last)
  intro member hmember
  obtain ⟨m, hm, hstep⟩ := exists_of_forall₂_mem hsettled (by simpa using hmember)
  exact hstep.hasStub hg hn hfit hm

/-- Whatever was read and stubbed, every method of the class file behind the bytes that come out
has exactly the body that its modifiers, its name and its descriptor ask for. -/
theorem hasStub_of_stubClass {config : Config} {bytes out : Bytes}
    (hfit : ∀ original, ClassFile.decode bytes = .ok original → original.ArgumentsFit)
    (h : stubClass config bytes = .ok out) :
    ∃ original stubbed, ClassFile.decode bytes = .ok original ∧
      checkedStub config original = .ok stubbed ∧ out = stubbed.encode ∧
        ∀ m ∈ stubbed.methods.toList,
          (m.access.isBodiless = true → m.codeAttributes stubbed.pool = []) ∧
            (m.access.isBodiless = false → m.HasStub config.exceptionClass stubbed.pool) := by
  obtain ⟨original, stubbed, hdecode, hchecked, hout⟩ := stubClass_eq_ok.mp h
  obtain ⟨hstubbed, -⟩ := checkedStub_eq_ok.mp hchecked
  have hall := hasStub_of_stubbedClass (ClassFile.fits_of_decode hdecode) (hfit original hdecode)
    hstubbed
  exact ⟨original, stubbed, hdecode, hchecked, hout, hall⟩

/-- A class whose methods have parameters: a constructor that takes a long, a static method of two
doubles, an instance method of an integer, a long and an object, and an abstract method. -/
def argumentsClass : ClassFile where
  magic := classMagic
  minor := 0
  major := 52
  pool :=
    ⟨#[.utf8 "Box", .classRef 1, .utf8 "<init>", .utf8 "(J)V", .utf8 "mean", .utf8 "(DD)D",
      .utf8 "put", .utf8 "(IJLBox;)V"]⟩
  access := 0x0421
  thisClass := 2
  superClass := 2
  interfaces := #[]
  fields := #[]
  methods :=
    #[⟨0x0001, 3, 4, #[]⟩, ⟨0x0009, 5, 6, #[]⟩, ⟨0x0001, 7, 8, #[]⟩, ⟨0x0401, 5, 8, #[]⟩]
  attributes := #[]

/-- The class with stubs, which declare three, four and five local variables. -/
def argumentsStub : ClassFile :=
  { argumentsClass with
    pool :=
      ⟨argumentsClass.pool.constants ++ #[.utf8 "java/lang/Error", .classRef 9, .utf8 "()V",
        .nameAndType 3 11, .methodRef 10 12, .utf8 "Code"]⟩
    methods :=
      #[⟨0x0001, 3, 4, #[⟨14, Code.encode ⟨2, 3, [187, 0, 10, 89, 183, 0, 13, 191], #[], #[]⟩⟩]⟩,
        ⟨0x0009, 5, 6, #[⟨14, Code.encode ⟨2, 4, [14, 175], #[], #[]⟩⟩]⟩,
        ⟨0x0001, 7, 8, #[⟨14, Code.encode ⟨0, 5, [177], #[], #[]⟩⟩]⟩, ⟨0x0401, 5, 8, #[]⟩] }

/-- A class whose methods take longs, doubles and references. -/
theorem hasStub_of_stubClass_arguments :
    (∀ original, ClassFile.decode argumentsClass.encode = .ok original → original.ArgumentsFit) ∧
      stubClass {} argumentsClass.encode = .ok argumentsStub.encode ∧
        ∃ original stubbed, ClassFile.decode argumentsClass.encode = .ok original ∧
          checkedStub {} original = .ok stubbed ∧ argumentsStub.encode = stubbed.encode ∧
            ∀ m ∈ stubbed.methods.toList,
              (m.access.isBodiless = true → m.codeAttributes stubbed.pool = []) ∧
                (m.access.isBodiless = false → m.HasStub "java/lang/Error" stubbed.pool) := by
  have hdecode : ClassFile.decode argumentsClass.encode = .ok argumentsClass := by decide +kernel
  have hfit : ∀ original, ClassFile.decode argumentsClass.encode = .ok original →
      original.ArgumentsFit := by
    intro original h
    cases hdecode.symm.trans h
    decide +kernel
  have hstub : stubClass {} argumentsClass.encode = .ok argumentsStub.encode := by decide +kernel
  exact ⟨hfit, hstub, hasStub_of_stubClass hfit hstub⟩

end JvmStub
