/-
`Run.lean` -- a class file, told through the stubbing stage.

The methods of a class are stubbed one after the other, each with the pool that
the one before it left: `StubRun` chains their steps. The main statement says
that a class file that fits its fields is stubbed exactly when its names can be
found and there is such a run, and that only the pool and the methods change.
-/
import JvmStub.Proofs.Stub.Methods

set_option autoImplicit false

namespace JvmStub

open ClassAssembly ConstantPool

variable {exceptionClass : String} {cf : ClassFile} {pool mid later : ConstantPool}
  {methods members : List Member} {m member : Member}

/-! ## What a step asks of the pool -/

theorem interns_codeRequest (code : Option Code) : PoolM.Interns (codeRequest code) := by
  cases code with
  | none => exact .pure _
  | some code => exact (PoolM.interns_addUtf8 _).bind fun _ => .pure _

/-- A stub asks for what its instructions name. -/
theorem interns_bodyRequest (stub : Option StubBody) : PoolM.Interns (bodyRequest stub) := by
  cases stub with
  | none => exact .pure _
  | some body => exact (interns_requestAll _).bind fun _ => .pure _

/-- A stubbed method asks for its body and then for the name of the attribute. -/
theorem interns_stubRequest (stub : Option StubBody) : PoolM.Interns (stubRequest stub) :=
  (interns_bodyRequest stub).bind interns_codeRequest

/-- A step grows the pool. -/
theorem StubStep.growsInto (h : StubStep exceptionClass cf pool m later member) :
    pool.GrowsInto later := by
  obtain ⟨-, -, -, hcode, -⟩ := h
  exact (interns_stubRequest _).growsInto hcode

/-- The names of a method that is stubbed can be found. -/
theorem StubStep.named (h : StubStep exceptionClass cf pool m later member) :
    ∃ name text, cf.pool.utf8 m.nameSlot = .ok name ∧
      cf.pool.utf8 m.descriptorSlot = .ok text := by
  obtain ⟨-, hdecl, -, -, -⟩ := h
  obtain ⟨hname, htext, -⟩ := methodDecl_eq_ok.mp hdecl
  exact ⟨_, _, hname, htext⟩

/-! ## All methods -/

/-- The methods of a class file, stubbed one after the other with a pool that grows. -/
inductive StubRun (exceptionClass : String) (cf : ClassFile) :
    ConstantPool → List Member → ConstantPool → List Member → Prop
  | nil (pool : ConstantPool) : StubRun exceptionClass cf pool [] pool []
  | cons {pool mid later : ConstantPool} {m member : Member} {methods members : List Member}
      (hstep : StubStep exceptionClass cf pool m mid member)
      (hrest : StubRun exceptionClass cf mid methods later members) :
      StubRun exceptionClass cf pool (m :: methods) later (member :: members)

theorem StubRun.growsInto (h : StubRun exceptionClass cf pool methods later members) :
    pool.GrowsInto later := by
  induction h with
  | nil pool => exact GrowsInto.refl pool
  | cons hstep _ ih => exact hstep.growsInto.trans ih

theorem StubRun.length_eq (h : StubRun exceptionClass cf pool methods later members) :
    methods.length = members.length := by
  induction h with
  | nil => rfl
  | cons _ _ ih => rw [List.length_cons, List.length_cons, ih]

/-- A step is settled: with any later pool it adds nothing and comes to the same method. -/
theorem StubStep.settled {last : ConstantPool}
    (h : StubStep exceptionClass cf pool m later member) (hg : later.GrowsInto last) :
    StubStep exceptionClass cf last m last member := by
  obtain ⟨hparts, hdecl, hstub, hcode, hcount⟩ := h
  exact .intro hparts hdecl hstub ((interns_stubRequest _).again hcode hg) hcount

/-- So each method of a run can be read off the final pool. -/
theorem StubRun.settled {last : ConstantPool}
    (h : StubRun exceptionClass cf pool methods later members) (hg : later.GrowsInto last) :
    List.Forall₂ (fun m member => StubStep exceptionClass cf last m last member) methods
      members := by
  induction h with
  | nil => exact .nil
  | cons hstep hrest ih => exact .cons (hstep.settled (hrest.growsInto.trans hg)) (ih hg)

/-- Steps that are all settled are a run that leaves the pool alone. -/
theorem stubRun_of_settled
    (h : List.Forall₂ (fun m member => StubStep exceptionClass cf pool m pool member) methods
      members) : StubRun exceptionClass cf pool methods pool members := by
  induction h with
  | nil => exact .nil pool
  | cons hstep _ ih => exact .cons hstep ih

/-- A method without a stub asks for nothing. -/
theorem code_of_no_stub {code : List Attribute} (h : stubRequest none pool = (.ok code, later)) :
    code = [] := by
  cases h
  rfl

/-- The attribute that a settled stub comes to. -/
theorem code_of_settled {body : StubBody} {code : List Attribute}
    (h : stubRequest (some body) pool = (.ok code, pool)) :
    ∃ bytes slot, requestAll body.instructions pool = (.ok bytes, pool) ∧
      PoolM.addUtf8 AttributeName.code.text pool = (.ok slot, pool) ∧
        code = [⟨slot, (body.code bytes).encode⟩] := by
  obtain ⟨found, mid, hbody, hattribute⟩ := bind_eq_ok.mp h
  obtain ⟨bytes, mid', hbytes, h⟩ := bind_eq_ok.mp hbody
  cases h
  obtain ⟨slot, last, hslot, h⟩ := bind_eq_ok.mp hattribute
  cases h
  -- the pool grew on the way and is back where it started, so it never grew
  have hgrow := (interns_requestAll _).growsInto hbytes
  have hgrow' := (PoolM.interns_addUtf8 _).growsInto hslot
  have hsame := hgrow.antisymm hgrow'
  subst hsame
  exact ⟨bytes, slot, hbytes, hslot, rfl⟩

/-- A stub comes to one attribute. -/
theorem length_of_stubRequest {stub : Option StubBody} {code : List Attribute}
    (h : stubRequest stub pool = (.ok code, later)) : code.length = stub.isSome.toNat := by
  cases stub with
  | none =>
    rw [code_of_no_stub h]
    rfl
  | some body =>
    obtain ⟨found, mid, hbody, h⟩ := bind_eq_ok.mp h
    obtain ⟨bytes, mid', -, hfound⟩ := bind_eq_ok.mp hbody
    cases hfound
    obtain ⟨slot, last, -, h⟩ := bind_eq_ok.mp h
    cases h
    rfl

/-- Telling all methods through the stage succeeds exactly with a run. -/
theorem replayMethods_eq_ok {a after : ClassAssembly} (ha : a.Open)
    (hg : cf.pool.GrowsInto a.classFile.pool)
    (hcount : a.classFile.methods.size + methods.length ≤ maxCount) :
    forM methods (cf.replayMethod true (sink.stubbing exceptionClass)) a = (.ok (), after) ↔
      ∃ pool members, StubRun exceptionClass cf a.classFile.pool methods pool members ∧
        after = (a.withPool pool).withMethods members.toArray := by
  -- the pool and the table grow with each method, so the induction is over all assemblies
  induction methods generalizing a with
  | nil =>
    constructor
    · intro h
      cases h
      exact ⟨_, [], .nil _, by simp [withMethods]⟩
    · rintro ⟨pool, members, hrun, rfl⟩
      cases hrun
      simp [List.forM_nil, withMethods]
  | cons m methods ih =>
    rw [List.length_cons] at hcount
    rw [List.forM_cons, bind_eq_ok]
    constructor
    · rintro ⟨⟨⟩, a', hfirst, hrest⟩
      obtain ⟨mid, member, hstep, rfl⟩ := (replayMethod_eq_ok ha hg (by omega)).mp hfirst
      have hroom : ((a.withPool mid).withMethod member).classFile.methods.size + methods.length ≤
          maxCount := by
        simp only [withMethod, withPool, Array.size_push]
        omega
      obtain ⟨pool, members, hrun, rfl⟩ :=
        (ih (a := (a.withPool mid).withMethod member) ha (hg.trans hstep.growsInto) hroom).mp hrest
      exact ⟨pool, member :: members, .cons hstep hrun, by simp [withMethods, withMethod, withPool]⟩
    · rintro ⟨pool, members, hrun, rfl⟩
      cases hrun with
      | @cons _ mid _ _ member _ members hstep hrun =>
        have hroom : ((a.withPool mid).withMethod member).classFile.methods.size +
            methods.length ≤ maxCount := by
          simp only [withMethod, withPool, Array.size_push]
          omega
        refine ⟨⟨⟩, (a.withPool mid).withMethod member,
          (replayMethod_eq_ok ha hg (by omega)).mpr ⟨mid, member, hstep, rfl⟩, ?_⟩
        refine (ih (a := (a.withPool mid).withMethod member) ha (hg.trans hstep.growsInto)
          hroom).mpr ⟨pool, members, hrun, ?_⟩
        simp [withMethods, withMethod, withPool]

/-! ## The class file -/

/-- In front of an assembly, the stage still builds a class file. -/
theorem buildsClass_stubbing (exceptionClass : String) :
    (sink.stubbing exceptionClass).BuildsClass := ⟨rfl, rfl, rfl, rfl⟩

/-- A class file that fits is told through the stage exactly when its names can be found and its
methods can be stubbed; the assembly then holds it with the pool and the methods of the run. -/
theorem replay_eq_ok (hfits : cf.Fits) {after : ClassAssembly} :
    cf.replay true (sink.stubbing exceptionClass) (ofPool cf.pool) = (.ok (), after) ↔
      cf.Resolves ∧ ∃ pool members,
        StubRun exceptionClass cf cf.pool cf.methods.toList pool members ∧
          after = ⟨{ cf with pool, methods := members.toArray }, true, true⟩ :=
  replay_eq_ok_of (buildsClass_stubbing exceptionClass) hfits fun _ =>
    replayMethods_eq_ok (open_headed cf) (GrowsInto.refl cf.pool) (methods_headed_le hfits)

/-- The class file with stubs for bodies: only the pool and the methods are others. -/
theorem stubbedClass_eq_ok (hfits : cf.Fits) {stubbed : ClassFile} :
    stubbedClass exceptionClass cf = .ok stubbed ↔
      cf.Resolves ∧ ∃ pool members,
        StubRun exceptionClass cf cf.pool cf.methods.toList pool members ∧
          stubbed = { cf with pool, methods := members.toArray } := by
  unfold stubbedClass assembleStub
  cases hreplay : cf.replay true (sink.stubbing exceptionClass) (ofPool cf.pool) with
  | mk outcome assembly =>
    constructor
    · intro h
      obtain ⟨⟨⟩, houtcome, h⟩ := except_bind_eq_ok.mp h
      rw [houtcome] at hreplay
      obtain ⟨hresolves, pool, members, hrun, rfl⟩ := (replay_eq_ok hfits).mp hreplay
      cases h
      exact ⟨hresolves, pool, members, hrun, rfl⟩
    · rintro ⟨hresolves, pool, members, hrun, rfl⟩
      -- the run that is claimed is the run that was made
      cases hreplay.symm.trans
        ((replay_eq_ok hfits).mpr ⟨hresolves, pool, members, hrun, rfl⟩)
      rfl

/-! ## The whole way -/

/-- A stub is checked only where the settings say so. -/
theorem checkedStub_eq_ok {config : Config} {stubbed : ClassFile} :
    checkedStub config cf = .ok stubbed ↔ stubbedClass config.exceptionClass cf = .ok stubbed ∧
      (config.verify = true → stubbed.check = .ok ()) := by
  unfold checkedStub
  rw [except_bind_eq_ok]
  cases hverify : config.verify with
  | false =>
    constructor
    · rintro ⟨found, hfound, h⟩
      cases h
      exact ⟨hfound, by simp⟩
    · rintro ⟨hstubbed, -⟩
      exact ⟨stubbed, hstubbed, rfl⟩
  | true =>
    constructor
    · rintro ⟨found, hfound, h⟩
      obtain ⟨⟨⟩, hcheck, h⟩ := except_bind_eq_ok.mp h
      cases h
      exact ⟨hfound, fun _ => mapError_eq_ok.mp hcheck⟩
    · rintro ⟨hstubbed, hcheck⟩
      exact ⟨stubbed, hstubbed,
        except_bind_eq_ok.mpr ⟨⟨⟩, mapError_eq_ok.mpr (hcheck rfl), rfl⟩⟩

/-- There is no stub where none can be made, or where a fault is found with the one that was. -/
theorem checkedStub_eq_error {config : Config} {e : Error} :
    checkedStub config cf = .error e ↔ stubbedClass config.exceptionClass cf = .error e ∨
      ∃ stubbed fault, stubbedClass config.exceptionClass cf = .ok stubbed ∧
        config.verify = true ∧ stubbed.check = .error fault ∧ e = .check fault := by
  unfold checkedStub
  rw [except_bind_eq_error]
  refine or_congr_right (exists_congr fun stubbed => ?_)
  cases hverify : config.verify with
  | false =>
    constructor
    · rintro ⟨-, h⟩
      cases h
    · rintro ⟨fault, -, h, -⟩
      cases h
  | true =>
    constructor
    · rintro ⟨hstubbed, h⟩
      rcases except_bind_eq_error.mp h with hfailed | ⟨⟨⟩, -, h⟩
      · obtain ⟨fault, hcheck, rfl⟩ := mapError_eq_error.mp hfailed
        exact ⟨fault, hstubbed, rfl, hcheck, rfl⟩
      · cases h
    · rintro ⟨fault, hstubbed, -, hcheck, rfl⟩
      exact ⟨hstubbed,
        except_bind_eq_error.mpr (.inl (mapError_eq_error.mpr ⟨fault, hcheck, rfl⟩))⟩

/-- The bytes of a stub are those of a class file, made from the one that was read. -/
theorem stubClass_eq_ok {config : Config} {bytes out : Bytes} :
    stubClass config bytes = .ok out ↔ ∃ original stubbed,
      ClassFile.decode bytes = .ok original ∧ checkedStub config original = .ok stubbed ∧
        out = stubbed.encode := by
  unfold stubClass
  constructor
  · intro h
    obtain ⟨original, hdecode, h⟩ := except_bind_eq_ok.mp h
    obtain ⟨stubbed, hstubbed, h⟩ := except_bind_eq_ok.mp h
    cases h
    exact ⟨original, stubbed, mapError_eq_ok.mp hdecode, hstubbed, rfl⟩
  · rintro ⟨original, stubbed, hdecode, hstubbed, rfl⟩
    refine except_bind_eq_ok.mpr ⟨original, mapError_eq_ok.mpr hdecode, ?_⟩
    exact except_bind_eq_ok.mpr ⟨stubbed, hstubbed, rfl⟩

/-- There are no bytes where the class cannot be read, or where there is no stub of it. -/
theorem stubClass_eq_error {config : Config} {bytes : Bytes} {e : Error} :
    stubClass config bytes = .error e ↔
      (∃ r, ClassFile.decode bytes = .error r ∧ e = .read r) ∨
        ∃ original, ClassFile.decode bytes = .ok original ∧
          checkedStub config original = .error e := by
  unfold stubClass
  rw [except_bind_eq_error, mapError_eq_error]
  refine or_congr ?_ (exists_congr fun original => ?_)
  · exact exists_congr fun r => and_congr_right fun _ => eq_comm
  · rw [mapError_eq_ok, except_bind_eq_error]
    refine and_congr_right fun _ => ⟨?_, .inl⟩
    rintro (h | ⟨stubbed, -, h⟩)
    · exact h
    · cases h

/-! ## A small class

Its methods are a constructor that declares an exception, a static method that returns a long, and
an abstract method. -/

/-- A class with one method of each kind of stub. -/
def exampleClass : ClassFile where
  magic := classMagic
  minor := 0
  major := 52
  pool :=
    ⟨#[.utf8 "List", .classRef 1, .utf8 "<init>", .utf8 "()V", .utf8 "size", .utf8 "()J",
      .utf8 "Exceptions"]⟩
  access := 0x0421
  thisClass := 2
  superClass := 2
  interfaces := #[]
  fields := #[]
  methods :=
    #[⟨0x0001, 3, 4, #[⟨7, encodeExceptions #[2]⟩]⟩, ⟨0x0009, 5, 6, #[]⟩, ⟨0x0401, 5, 4, #[]⟩]
  attributes := #[]

/-- The class with stubs for bodies. -/
def exampleStub : ClassFile where
  magic := classMagic
  minor := 0
  major := 52
  pool :=
    ⟨#[.utf8 "List", .classRef 1, .utf8 "<init>", .utf8 "()V", .utf8 "size", .utf8 "()J",
      .utf8 "Exceptions", .utf8 "java/lang/Error", .classRef 8, .nameAndType 3 4, .methodRef 9 10,
      .utf8 "Code"]⟩
  access := 0x0421
  thisClass := 2
  superClass := 2
  interfaces := #[]
  fields := #[]
  methods :=
    #[⟨0x0001, 3, 4, #[⟨12, Code.encode ⟨2, 1, [187, 0, 9, 89, 183, 0, 11, 191], #[], #[]⟩⟩,
        ⟨7, encodeExceptions #[2]⟩]⟩,
      ⟨0x0009, 5, 6, #[⟨12, Code.encode ⟨2, 0, [9, 173], #[], #[]⟩⟩]⟩, ⟨0x0401, 5, 4, #[]⟩]
  attributes := #[]

theorem decode_exampleClass : ClassFile.decode exampleClass.encode = .ok exampleClass := by
  decide +kernel

/-- The stub of the example is this class file. -/
theorem stubClass_exampleClass :
    stubClass {} exampleClass.encode = .ok exampleStub.encode := by decide +kernel

end JvmStub
