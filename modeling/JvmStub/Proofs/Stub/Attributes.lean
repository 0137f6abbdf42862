/-
`Attributes.lean` -- the attributes of a stubbed method, told apart again.

The attributes that an assembly writes for a method are read back as the parts
that they were written for: the new body is the only `Code`, an empty list of
exceptions is gone, and the rest is what it was. Everything that is asked of a
stubbed method later, whether by the check or by a second run, starts from here.
-/
import JvmStub.Proofs.Stub.Constants

set_option autoImplicit false

namespace JvmStub

open ConstantPool

/-- The parts of a method whose body is the one attribute given, if there is one. An empty list of
exceptions is left out. -/
def MethodParts.withCode (parts : MethodParts) (code : Option Attribute) : MethodParts where
  code := code
  signature := parts.signature
  exceptions := parts.exceptions.filter fun classes => !classes.isEmpty
  others := parts.others

variable {pool later : ConstantPool} {parts : MethodParts} {attributes : List Attribute}

/-- A name that stood in the pool has a lowest slot, the same in every later pool. -/
theorem isLowestUtf8_of_isNamed {name : AttributeName} {a : Attribute}
    (h : a.isNamed pool name = true) (hg : pool.GrowsInto later) (hn : later.Numbered) :
    later.IsLowestUtf8 (pool.textSlot name.text) name.text := by
  have htext := isNamed_iff.mp h
  rw [← hg.textSlot htext]
  exact isLowestUtf8_textSlot hn (hg.utf8 htext)

/-! ## The attributes that stand for a declaration -/

theorem exceptionsAttribute_named (h : parts.Describe pool attributes)
    (hg : pool.GrowsInto later) (hn : later.Numbered) :
    ∀ a ∈ parts.exceptionsAttribute pool, a.isNamed later .exceptions = true := by
  unfold MethodParts.exceptionsAttribute
  cases hsome : parts.exceptions with
  | none => simp
  | some classes =>
    obtain ⟨attr, -, hnamed, -⟩ := h.exceptions_named hsome
    cases classes with
    | nil => simp
    | cons c classes =>
      simp only [Option.getD_some, List.forall_mem_singleton]
      exact isNamed_iff.mpr (isLowestUtf8_of_isNamed hnamed hg hn).1

theorem signatureAttribute_named (h : parts.Describe pool attributes)
    (hg : pool.GrowsInto later) (hn : later.Numbered) :
    ∀ a ∈ parts.signatureAttribute pool, a.isNamed later .signature = true := by
  unfold MethodParts.signatureAttribute
  cases hsome : parts.signature with
  | none => simp
  | some s =>
    obtain ⟨attr, -, hnamed, -⟩ := h.signature_named hsome
    simp only [Option.toList_some, List.map_singleton, List.forall_mem_singleton]
    exact isNamed_iff.mpr (isLowestUtf8_of_isNamed hnamed hg hn).1

/-- The attribute that is written for declared exceptions lists them. -/
theorem isExceptions_exceptionsAttribute (h : parts.Describe pool attributes)
    (hg : pool.GrowsInto later) (code : Option Attribute) :
    List.Forall₂ (IsExceptions later) (parts.exceptionsAttribute pool)
      (parts.withCode code).exceptions.toList := by
  unfold MethodParts.exceptionsAttribute MethodParts.withCode
  cases hsome : parts.exceptions with
  | none => exact .nil
  | some classes =>
    obtain ⟨attr, -, -, hlen, -, hall⟩ := h.exceptions_named hsome
    cases classes with
    | nil => exact .nil
    | cons c classes =>
      exact .cons ⟨hlen, rfl, fun entry hentry => hg.className (hall entry hentry)⟩ .nil

/-- The attribute that is written for a generic signature names it. -/
theorem isSignature_signatureAttribute (h : parts.Describe pool attributes)
    (hg : pool.GrowsInto later) :
    List.Forall₂ (IsSignature later) (parts.signatureAttribute pool) parts.signature.toList := by
  unfold MethodParts.signatureAttribute
  cases hsome : parts.signature with
  | none => exact .nil
  | some s =>
    obtain ⟨attr, -, -, -, htext⟩ := h.signature_named hsome
    exact .cons ⟨rfl, hg.utf8 htext⟩ .nil

/-! ## All attributes -/

/-- The attributes of a stubbed method are told apart as the parts with the new body. -/
theorem describe_withCode (h : parts.Describe pool attributes) (hg : pool.GrowsInto later)
    (hn : later.Numbered) (code : Option Attribute)
    (hcode : ∀ a ∈ code.toList, a.isNamed later .code = true) :
    (parts.withCode code).Describe later
      (code.toList ++ parts.leading pool ++ parts.others.toList) := by
  have hothers : ∀ a ∈ parts.others.toList,
      a.isOther later = true ∧ ∃ text, a.name later = .ok text := by
    intro a ha
    rw [← h.others] at ha
    obtain ⟨text, htext⟩ := h.named a (List.mem_of_mem_filter ha)
    exact ⟨(isOther_of_growsInto hg htext).trans (List.of_mem_filter ha), text, hg.utf8 htext⟩
  rw [MethodParts.leading, ← List.append_assoc]
  exact describe_of_sections hcode (exceptionsAttribute_named h hg hn)
    (signatureAttribute_named h hg hn) hothers rfl (isExceptions_exceptionsAttribute h hg code)
    (isSignature_signatureAttribute h hg) rfl

end JvmStub
