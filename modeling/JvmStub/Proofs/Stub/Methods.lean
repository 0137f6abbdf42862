/-
`Methods.lean` -- a method of a class file, told through the stubbing stage.

`StubStep` says what becomes of one method: its attributes are told apart, its
stub is decided on, and the pool is asked for the constants of the stub. The main
statement is that telling the method through the stage to an assembly succeeds
exactly with such a step.
-/
import JvmStub.Proofs.Assembly.Telling
import JvmStub.Proofs.Stub.Stage
import JvmStub.Stub.Pipeline

set_option autoImplicit false

namespace JvmStub

open ClassAssembly MethodAssembly

/-! ## The stub that is decided on -/

section

variable {decl : MethodDecl} {exceptionClass : String}

/-- The methods of a class file that get a stub are those that are neither abstract nor native. -/
theorem isSome_of_methodDecl {cf : ClassFile} {m : Member} {parts : MethodParts}
    {stub : Option StubBody} (hdecl : cf.methodDecl m parts = .ok decl)
    (hstub : stubBody decl exceptionClass = .ok stub) : stub.isSome = !m.access.isBodiless := by
  rw [isSome_of_stubBody hstub, access_of_methodDecl hdecl]

/-- The instructions of a stub are few, and none is an interface call. -/
theorem plain_of_stubBody {body : StubBody} (h : stubBody decl exceptionClass = .ok (some body)) :
    body.Plain := by
  cases hbodiless : decl.access.isBodiless with
  | true =>
    rw [stubBody_of_bodiless hbodiless] at h
    cases h
  | false =>
    obtain ⟨descriptor, -, hcases⟩ := (stubBody_eq_ok hbodiless).mp h
    split at hcases
    · obtain ⟨-, -, heq⟩ := hcases
      cases heq
      exact ⟨by simp [StubBody.throwing, Instruction.opcode, Opcode.code], by
        simp [StubBody.throwing]⟩
    · cases hcases
      cases descriptor.result.category <;>
        exact ⟨by simp [StubBody.returningZero, Category.zero?, Category.returnOpcode,
          Instruction.opcode, Opcode.code], by simp [StubBody.returningZero, Category.zero?]⟩

end

/-- What the instructions of a stub ask of the pool, and the body that they come to. -/
def bodyRequest : Option StubBody → PoolM (Option Code)
  | none => return none
  | some body => return some (body.code (← requestAll body.instructions))

/-- What a method asks of the pool for its stub, and the attributes that the stub comes to. -/
def stubRequest (stub : Option StubBody) : PoolM (List Attribute) := do
  codeRequest (← bodyRequest stub)

/-! ## One method -/

/-- What stubbing makes of one method of a class file, and of the pool that all its methods
share. -/
inductive StubStep (exceptionClass : String) (cf : ClassFile) (pool : ConstantPool) (m : Member) :
    ConstantPool → Member → Prop
  | intro {parts : MethodParts} {decl : MethodDecl} {stub : Option StubBody}
      {code : List Attribute} {later : ConstantPool}
      (hparts : parts.Describe cf.pool m.attributes.toList)
      (hdecl : cf.methodDecl m parts = .ok decl)
      (hstub : stubBody decl exceptionClass = .ok stub)
      (hcode : stubRequest stub pool = (.ok code, later))
      (hcount : (code ++ parts.leading cf.pool ++ parts.others.toList).length ≤ maxCount) :
      StubStep exceptionClass cf pool m later
        { m with attributes := (code ++ parts.leading cf.pool ++ parts.others.toList).toArray }

variable {exceptionClass : String} {cf : ClassFile} {a after : ClassAssembly} {m : Member}
  {parts : MethodParts} {decl : MethodDecl}

/-- The attributes that are not told apart are passed on in their order. -/
theorem forwardAttributes_run (attributes : List Attribute) (replaced : Bool)
    {method : MethodAssembly} (hopen : method.ended = false) :
    (forM attributes fun attr => (sink.stubbing exceptionClass).inMethod (.attribute attr))
        (⟨replaced, method⟩, a) =
      (.ok (), (⟨replaced, { method with forwarded := method.forwarded ++ attributes }⟩, a)) := by
  induction attributes generalizing method with
  | nil => simp [List.forM_nil]
  | cons attr attributes ih =>
    have hfirst := (inStubbed_eq_ok sink exceptionClass replaced (e := .attribute attr) rfl).mpr
      ⟨_, _, receiveAttribute_run (c := a) hopen, rfl⟩
    have hsame : method.forwarded.push attr ++ attributes =
        method.forwarded ++ (attr :: attributes) := Array.ext' (by simp)
    rw [List.forM_cons]
    refine (bind_of_ok hfirst).trans ((ih (by exact hopen)).trans ?_)
    rw [hsame]

/-- What is inside a method without its body comes down to the end of the method, once the other
attributes have been passed on. -/
theorem replayParts_run {replaced : Bool} {method : MethodAssembly} (hopen : method.ended = false)
    (hforwarded : method.forwarded = #[]) :
    ClassFile.replayParts true (sink.stubbing exceptionClass) parts (⟨replaced, method⟩, a) =
      (sink.stubbing exceptionClass).inMethod .finish
        (⟨replaced, { method with forwarded := parts.others }⟩, a) := by
  have hsame : method.forwarded ++ parts.others.toList = parts.others := by
    rw [hforwarded]
    exact Array.ext' (by simp)
  have hothers : (forM parts.others.toList fun attr =>
      (sink.stubbing exceptionClass).inMethod (.attribute attr)) (⟨replaced, method⟩, a) =
        (.ok (), (⟨replaced, { method with forwarded := parts.others }⟩, a)) := by
    refine (forwardAttributes_run parts.others.toList replaced hopen).trans ?_
    rw [hsame]
  rw [replayParts_skipping, bind_of_ok hothers]

/-- So it is told exactly when the method can be ended. -/
theorem replayParts_eq_ok {code : Option Code} {replaced : Bool} {method : MethodAssembly}
    {state : StubbedMethod MethodAssembly × ClassAssembly} (hopen : method.ended = false)
    (hforwarded : method.forwarded = #[])
    (hbody : method.body = (code.map BodyState.complete).getD .absent) :
    ClassFile.replayParts true (sink.stubbing exceptionClass) parts (⟨replaced, method⟩, a) =
        (.ok (), state) ↔
      ∃ listed pool, codeRequest code a.classFile.pool = (.ok listed, pool) ∧
        (listed.toArray ++ method.leading ++ parts.others).size ≤ maxCount ∧
          state = (⟨replaced, { method with forwarded := parts.others, ended := true }⟩,
            (a.withPool pool).withMethod
              ⟨method.access, method.nameSlot, method.descriptorSlot,
                listed.toArray ++ method.leading ++ parts.others⟩) := by
  rw [replayParts_run hopen hforwarded]
  refine (inStubbed_eq_ok sink exceptionClass replaced (e := .finish) rfl).trans ?_
  constructor
  · rintro ⟨method', a', hfinish, rfl⟩
    obtain ⟨listed, pool, hrequest, hcount, h⟩ :=
      (finish_eq_ok (by exact hopen) (by exact hbody)).mp hfinish
    cases h
    exact ⟨listed, pool, hrequest, hcount, rfl⟩
  · rintro ⟨listed, pool, hrequest, hcount, rfl⟩
    exact ⟨_, _, (finish_eq_ok (by exact hopen) (by exact hbody)).mpr
      ⟨listed, pool, hrequest, hcount, rfl⟩, rfl⟩

/-- A method in the hands of the assembly, with the body of its stub. -/
def withStub (method : MethodAssembly) (code : Option Code) : MethodAssembly :=
  { method with body := (code.map BodyState.complete).getD .absent }

/-- Declaring a method to the stage decides on its stub and asks the pool for its body. -/
theorem openStubbed_eq_ok {opened : StubbedMethod MethodAssembly} {method : MethodAssembly}
    (hbegin : begin decl a = (.ok method, a)) (hopen : method.ended = false)
    (habsent : method.body = .absent) :
    ClassSink.openStubbed exceptionClass sink decl a = (.ok opened, after) ↔
      ∃ stub code pool, stubBody decl exceptionClass = .ok stub ∧
        bodyRequest stub a.classFile.pool = (.ok code, pool) ∧
          opened = ⟨stub.isSome, withStub method code⟩ ∧ after = a.withPool pool := by
  unfold ClassSink.openStubbed
  cases hstub : stubBody decl exceptionClass with
  | error e =>
    constructor
    · intro h
      cases h
    · rintro ⟨stub, code, pool, h, -⟩
      cases h
  | ok stub =>
    cases stub with
    | none =>
      -- without a stub the declaration is passed on and the body stays absent
      have hsame : withStub method none = method := by
        rw [withStub, Option.map_none, Option.getD_none, ← habsent]
      constructor
      · intro h
        obtain ⟨method', a', hmethod, h⟩ := bind_eq_ok.mp h
        cases hbegin.symm.trans hmethod
        cases h
        exact ⟨none, none, _, rfl, rfl, by rw [hsame]; rfl, rfl⟩
      · rintro ⟨stub, code, pool, hstub, hbody, rfl, rfl⟩
        cases hstub
        cases hbody
        rw [hsame]
        exact bind_eq_ok.mpr ⟨method, a, hbegin, rfl⟩
    | some body =>
      -- with a stub the declaration is followed at once by the events of its body
      have hplain := plain_of_stubBody hstub
      constructor
      · intro h
        obtain ⟨method', a', hmethod, h⟩ := bind_eq_ok.mp h
        cases hbegin.symm.trans hmethod
        obtain ⟨method', a', hwithin, h⟩ := bind_eq_ok.mp h
        obtain ⟨bytes, pool, hrequest, hstate⟩ :=
          (body_eq_ok hplain hopen habsent).mp (within_eq_ok.mp hwithin)
        cases hstate
        cases h
        exact ⟨some body, _, pool, rfl, bind_eq_ok.mpr ⟨bytes, pool, hrequest, rfl⟩, rfl, rfl⟩
      · rintro ⟨stub, code, pool, hstub, hbody, rfl, rfl⟩
        cases hstub
        obtain ⟨bytes, mid, hrequest, h⟩ := bind_eq_ok.mp hbody
        cases h
        refine bind_eq_ok.mpr ⟨method, a, hbegin, bind_eq_ok.mpr ⟨_, _, within_eq_ok.mpr ?_, rfl⟩⟩
        exact (body_eq_ok hplain hopen habsent).mpr ⟨bytes, pool, hrequest, rfl⟩

/-- The assembly keeps three arrays, where a step has one list. -/
theorem attributes_of_begun (parts : MethodParts) (code : Option Code) (name : String)
    (listed : List Attribute) :
    listed.toArray ++ (withStub (begun cf.pool m parts name) code).leading ++ parts.others =
      (listed ++ parts.leading cf.pool ++ parts.others.toList).toArray := by
  simp [withStub, begun]

/-- Telling a method through the stage succeeds exactly with a step. -/
theorem replayMethod_eq_ok (ha : a.Open) (hg : cf.pool.GrowsInto a.classFile.pool)
    (hcount : a.classFile.methods.size < maxCount) :
    cf.replayMethod true (sink.stubbing exceptionClass) m a = (.ok (), after) ↔
      ∃ pool member, StubStep exceptionClass cf a.classFile.pool m pool member ∧
        after = (a.withPool pool).withMethod member := by
  -- both ways go through the two halves of a method: it is opened with its stub, and told its parts
  rw [replayMethod_iff]
  constructor
  · rintro ⟨parts, decl, hdescribe, hdecl, opened, mid, hopened, closed, hinside⟩
    obtain ⟨stub, code, pool, hstub, hbody, rfl, rfl⟩ :=
      (openStubbed_eq_ok (begin_run hdescribe hdecl ha hg hcount) rfl rfl).mp hopened
    obtain ⟨listed, later, hrequest, hsize, hstate⟩ := (replayParts_eq_ok rfl rfl rfl).mp hinside
    cases hstate
    rw [attributes_of_begun] at hsize ⊢
    refine ⟨later, _, .intro hdescribe hdecl hstub ?_ (by simpa using hsize), ?_⟩
    · exact bind_eq_ok.mpr ⟨code, pool, hbody, hrequest⟩
    · rw [withPool_withPool]
      rfl
  · rintro ⟨later, member, hstep, rfl⟩
    obtain ⟨hdescribe, hdecl, hstub, hcode, hsize⟩ := hstep
    rename_i parts decl stub listed
    obtain ⟨code, pool, hbody, hrequest⟩ := bind_eq_ok.mp hcode
    have hopened := (openStubbed_eq_ok (begin_run hdescribe hdecl ha hg hcount) rfl rfl).mpr
      ⟨stub, code, pool, hstub, hbody, rfl, rfl⟩
    have hsum : (listed.toArray ++ (withStub (begun cf.pool m parts decl.name) code).leading ++
        parts.others).size ≤ maxCount := by
      rw [attributes_of_begun]
      simpa using hsize
    refine ⟨parts, decl, hdescribe, hdecl, _, _, hopened,
      ⟨stub.isSome, { withStub (begun cf.pool m parts decl.name) code with
        forwarded := parts.others, ended := true }⟩,
      (replayParts_eq_ok rfl rfl rfl).mpr ⟨listed, later, hrequest, hsum, ?_⟩⟩
    rw [attributes_of_begun, withPool_withPool]
    rfl

end JvmStub
