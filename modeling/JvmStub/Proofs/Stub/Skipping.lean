/-
`Skipping.lean` -- leaving out the bodies of a class that is stubbed.

A class file can be told with its bodies or without. The stage that replaces
bodies drops the body of every method that it has given a stub, and the methods
that get none are those without a body. So it makes no difference to what stands
behind the stage whether the bodies are told, as long as no abstract or native
method has one and each of them can be read: a body that cannot be read stops
the telling before it gets to the stage.

Nothing here depends on the sink behind the stage. It is the same for a sink that
refuses everything, and the two runs stop at the same refusal.
-/
import JvmStub.Proofs.Stub.Run

set_option autoImplicit false

namespace JvmStub

open ClassAssembly

/-- Bodies stand only where a method may have one, and each of them can be read. -/
structure Member.Readable (pool : ConstantPool) (m : Member) : Prop where
  bodiless : m.access.isBodiless = true → m.attributesNamed pool .code = []
  readable : ∀ a ∈ m.attributesNamed pool .code, ∃ code, Code.decode a.info = .ok code

variable {σ : Type} {next : ClassSink σ} {exceptionClass : String} {parts : MethodParts}
  {opened : StubbedMethod next.Method} {s s' : σ}

/-! ## With bodies and without -/

/-- Telling a readable body to a method that has been replaced is telling nothing. -/
theorem replayParts_skip_of_replaced (hreplaced : opened.replaced = true)
    (hread : ∀ a, parts.code = some a → ∃ code, Code.decode a.info = .ok code) :
    ClassFile.replayParts true (next.stubbing exceptionClass) parts (opened, s) =
      ClassFile.replayParts false (next.stubbing exceptionClass) parts (opened, s) := by
  cases hcode : parts.code with
  | none => rw [replayParts_of_code_eq_none hcode false]
  | some a =>
    obtain ⟨code, hdecode⟩ := hread a hcode
    rw [replayParts_skipping, replayParts_of_code hcode, reading_of_ok hdecode, pure_bind]
    refine bind_congr_of_ok rfl fun u state hothers => ?_
    obtain ⟨mid, t⟩ := state
    -- the attributes in front of the body have not changed what is replaced
    have hkept : mid.replaced = true := (replaced_of_forM hothers).trans hreplaced
    have hbody : (next.stubbing exceptionClass).inMethod (.body code) (mid, t) =
        (.ok (), (mid, t)) := inStubbed_dropped hkept rfl
    rw [bind_of_ok hbody]

/-- A method is told alike with its body and without. -/
theorem replayMethod_skip {cf : ClassFile} {m : Member} (h : m.Readable cf.pool)
    (next : ClassSink σ) (exceptionClass : String) :
    cf.replayMethod true (next.stubbing exceptionClass) m =
      cf.replayMethod false (next.stubbing exceptionClass) m := by
  funext s
  unfold ClassFile.replayMethod
  refine bind_congr_of_ok rfl fun parts s₁ hparts => ?_
  refine bind_congr_of_ok rfl fun decl s₂ hdecl => ?_
  refine bind_congr_of_ok rfl fun opened s₃ hopened => ?_
  obtain ⟨hparts, -⟩ := reading_eq_ok.mp hparts
  obtain ⟨hdecl, -⟩ := reading_eq_ok.mp hdecl
  have hlisted : m.attributesNamed cf.pool .code = parts.code.toList := (parts_eq_ok.mp hparts).code
  -- a body that is skipped is one that the stage would drop, or there is none
  have hinside : ClassFile.replayParts true (next.stubbing exceptionClass) parts (opened, s₃) =
      ClassFile.replayParts false (next.stubbing exceptionClass) parts (opened, s₃) := by
    cases hbodiless : m.access.isBodiless with
    | true =>
      have hnone := h.bodiless hbodiless
      rw [hlisted, Option.toList_eq_nil_iff] at hnone
      rw [replayParts_of_code_eq_none hnone false]
    | false =>
      have hreplaced : opened.replaced = true := by
        rw [replaced_of_openStubbed hopened, access_of_methodDecl hdecl, hbodiless]
        rfl
      refine replayParts_skip_of_replaced hreplaced fun a ha => h.readable a ?_
      rw [hlisted, ha]
      exact List.mem_singleton_self a
  exact bind_congr_of_ok (within_congr hinside) fun _ _ _ => rfl

/-- What stands behind the stage is told the same, and refuses the same, whether a class is told
with its bodies or without. -/
theorem replay_skip {cf : ClassFile} (h : ∀ m ∈ cf.methods.toList, m.Readable cf.pool)
    (next : ClassSink σ) (exceptionClass : String) :
    cf.replay true (next.stubbing exceptionClass) =
      cf.replay false (next.stubbing exceptionClass) := by
  have hmethods : forM cf.methods.toList (cf.replayMethod true (next.stubbing exceptionClass)) =
      forM cf.methods.toList (cf.replayMethod false (next.stubbing exceptionClass)) :=
    forM_congr fun m hm => replayMethod_skip (h m hm) next exceptionClass
  unfold ClassFile.replay
  rw [hmethods]

/-! ## The assembly behind the stage -/

/-- Stubbing a class without telling its bodies comes to what telling them comes to: the same
error, or the same class file. -/
theorem assembleStub_eq_replay {cf : ClassFile}
    (h : ∀ m ∈ cf.methods.toList, m.Readable cf.pool) (exceptionClass : String) :
    assembleStub exceptionClass cf =
      cf.replay false (sink.stubbing exceptionClass) (ofPool cf.pool) :=
  congrFun (replay_skip h sink exceptionClass) (ofPool cf.pool)

/-- A class whose constructor and static method have bodies. -/
theorem assembleStub_eq_replay_exampleStub :
    (∀ m ∈ exampleStub.methods.toList, m.Readable exampleStub.pool) ∧
      assembleStub "java/lang/Error" exampleStub =
        exampleStub.replay false (sink.stubbing "java/lang/Error") (ofPool exampleStub.pool) := by
  have hdecodes : ∀ m ∈ exampleStub.methods.toList,
      (m.access.isBodiless = true → m.attributesNamed exampleStub.pool .code = []) ∧
        ∀ a ∈ m.attributesNamed exampleStub.pool .code, (Code.decode a.info).isOk = true := by
    decide +kernel
  have hreadable : ∀ m ∈ exampleStub.methods.toList, m.Readable exampleStub.pool := by
    intro m hm
    obtain ⟨hbodiless, hok⟩ := hdecodes m hm
    refine ⟨hbodiless, fun a ha => ?_⟩
    cases hdecode : Code.decode a.info with
    | ok code => exact ⟨code, rfl⟩
    | error e =>
      have hfound := hok a ha
      rw [hdecode] at hfound
      cases hfound
  exact ⟨hreadable, assembleStub_eq_replay hreadable "java/lang/Error"⟩

end JvmStub
