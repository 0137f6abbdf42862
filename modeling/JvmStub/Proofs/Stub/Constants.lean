/-
`Constants.lean` -- the constants that stubbing adds.

Stubs name one attribute and, where a constructor throws, one class and its
constructor without arguments. Whatever the methods of a class are, the pool
grows by constants for these four texts only, each narrow and each referring to
constants of the kinds it needs. So a run neither outgrows the slots of the
format nor adds a fault to the pool.
-/
import JvmStub.Proofs.Assembly.MethodEvents
import JvmStub.Proofs.Stub.Run

set_option autoImplicit false

namespace JvmStub

open ConstantPool PoolM

/-- The texts that stubs are about. -/
def StubText (exceptionClass text : String) : Prop :=
  text = AttributeName.code.text ∨ text = exceptionClass ∨ text = constructorName ∨
    text = noArgumentsDescriptor

/-- The texts that an instruction is about; one that calls an interface is left out. -/
def Instruction.About (texts : String → Prop) : Instruction → Prop
  | .simple _ => True
  | .onClass _ className => texts className
  | .onMethod _ owner name descriptor ofInterface =>
    ofInterface = false ∧ texts owner ∧ texts name ∧ texts descriptor

variable {texts : String → Prop} {pool later : ConstantPool}

/-- An instruction that is about some texts adds these at most. -/
theorem grown_request {i : Instruction} (hn : pool.Numbered) (hi : i.About texts) :
    Grown texts pool (i.request pool).2 := by
  have htexts : ∀ t ∈ i.texts, texts t := by
    cases i <;> simp_all [Instruction.About, Instruction.texts]
  exact grown_request_of_texts hn htexts

theorem grown_requestAll {is : List Instruction} (hn : pool.Numbered)
    (his : ∀ i ∈ is, i.About texts) : Grown texts pool (requestAll is pool).2 := by
  induction is generalizing pool with
  | nil => exact Grown.refl texts pool
  | cons i is ih =>
    obtain ⟨hi, hrest⟩ := List.forall_mem_cons.mp his
    refine grown_bind hn (grown_request hn hi) fun bytes later _ hlater => ?_
    refine grown_bind hlater (ih hlater hrest) fun bytes' last _ _ => ?_
    exact Grown.refl texts last

/-! ## One method -/

variable {decl : MethodDecl} {exceptionClass : String} {cf : ClassFile} {m member : Member}
  {methods members : List Member}

/-- The instructions of a stub are about the class it throws. -/
theorem about_of_stubBody {body : StubBody} (h : stubBody decl exceptionClass = .ok (some body)) :
    ∀ i ∈ body.instructions, i.About (StubText exceptionClass) := by
  cases hbodiless : decl.access.isBodiless with
  | true =>
    rw [stubBody_of_bodiless hbodiless] at h
    cases h
  | false =>
    obtain ⟨descriptor, -, hcases⟩ := (stubBody_eq_ok hbodiless).mp h
    split at hcases
    · obtain ⟨-, -, heq⟩ := hcases
      cases heq
      simp [StubBody.throwing, Instruction.About, StubText]
    · cases hcases
      intro i hi
      obtain ⟨op, -, rfl⟩ := List.mem_map.mp hi
      trivial

/-- A stub adds its own texts at most. -/
theorem grown_stubRequest {stub : Option StubBody}
    (hstub : stubBody decl exceptionClass = .ok stub) (hn : pool.Numbered) :
    Grown (StubText exceptionClass) pool (stubRequest stub pool).2 := by
  cases stub with
  | none => exact Grown.refl _ pool
  | some body =>
    have hbody : Grown (StubText exceptionClass) pool (bodyRequest (some body) pool).2 := by
      refine grown_bind hn (grown_requestAll hn (about_of_stubBody hstub)) fun bytes later _ _ => ?_
      exact Grown.refl _ later
    refine grown_bind hn hbody fun code mid hcode hmid => ?_
    cases code with
    | none => exact Grown.refl _ mid
    | some code =>
      refine grown_bind hmid (grown_addUtf8 (.inl rfl)) fun slot later _ _ => ?_
      exact Grown.refl _ later

/-- One method adds the texts of a stub at most. -/
theorem StubStep.grown (h : StubStep exceptionClass cf pool m later member) (hn : pool.Numbered) :
    Grown (StubText exceptionClass) pool later := by
  obtain ⟨-, -, hstub, hcode, -⟩ := h
  have hgrown := grown_stubRequest hstub hn
  rwa [hcode] at hgrown

/-! ## All methods -/

/-- The pool of a run has grown by the constants of stubs only. -/
theorem StubRun.grown (h : StubRun exceptionClass cf pool methods later members)
    (hn : pool.Numbered) : Grown (StubText exceptionClass) pool later := by
  induction h with
  | nil pool => exact Grown.refl _ pool
  | cons hstep _ ih =>
    have hgrown := hstep.grown hn
    exact hgrown.trans (ih (hgrown.numbered hn))

/-- Stubbing does not run out of numbers. -/
theorem StubRun.numbered (h : StubRun exceptionClass cf pool methods later members)
    (hn : pool.Numbered) : later.Numbered := (h.grown hn).numbered hn

end JvmStub
