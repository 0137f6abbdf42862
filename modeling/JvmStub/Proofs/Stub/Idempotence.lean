/-
`Idempotence.lean` -- stubbing a stub.

A second run has nothing to do. The class file that the first one made decodes
from its own bytes; every constant that a stub asks for is already in its pool,
at the slot that was given out the first time; and the attributes of each method
are told apart as the parts that they were written for, so they are written again
in the same order with the same names and payloads.

Two limits belong to the format. A pool with more than 65534 slots has a size
that its count cannot express, and a class name of more than 65535 bytes has a
length that its field cannot.
-/
import JvmStub.Proofs.Stub.Shape

set_option autoImplicit false

namespace JvmStub

open ConstantPool

variable {cf stubbed : ClassFile} {pool later : ConstantPool} {parts : MethodParts}
  {m member : Member} {exceptionClass : String}

/-! ## The names of the class are still there -/

/-- The header of a stubbed class is that of the class. -/
theorem header_of_keeps {h : ClassHeader} (hkeeps : cf.Keeps stubbed) (hh : cf.header = .ok h) :
    stubbed.header = .ok h := by
  have hg : cf.pool.GrowsInto stubbed.pool := hkeeps.pool
  obtain ⟨hname, hsuper, hinterfaces, heq⟩ := header_eq_ok.mp hh
  refine header_eq_ok.mpr ⟨?_, ?_, ?_, ?_⟩
  · rw [hkeeps.thisClass]
    exact hg.className hname
  -- a zero stays a zero, and a slot that led to a class still does
  · cases hsuperName : h.superName with
    | none =>
      simp only [SuperNamed, hsuperName] at hsuper ⊢
      rw [hkeeps.superClass, hsuper]
    | some name =>
      simp only [SuperNamed, hsuperName] at hsuper ⊢
      rw [hkeeps.superClass]
      exact ⟨hsuper.1, hg.className hsuper.2⟩
  · rw [hkeeps.interfaces]
    exact hinterfaces.imp fun slot name hslot => hg.className hslot
  · rw [hkeeps.minor, hkeeps.major, hkeeps.access, hkeeps.thisClass, hkeeps.superClass,
      hkeeps.interfaces]
    exact heq

/-- The fields of a stubbed class are declared as those of the class. -/
theorem fieldDecl_of_keeps {f : Member} {d : FieldDecl} (hkeeps : cf.Keeps stubbed)
    (hd : cf.fieldDecl f = .ok d) : stubbed.fieldDecl f = .ok d := by
  have hg : cf.pool.GrowsInto stubbed.pool := hkeeps.pool
  obtain ⟨hname, hdescriptor, heq⟩ := fieldDecl_eq_ok.mp hd
  exact fieldDecl_eq_ok.mpr ⟨hg.utf8 hname, hg.utf8 hdescriptor, heq⟩

/-- The names of a stubbed class can be read if those of the class can. -/
theorem resolves_of_keeps (hkeeps : cf.Keeps stubbed) (h : cf.Resolves) : stubbed.Resolves := by
  obtain ⟨⟨header, hheader⟩, hfields⟩ := h
  refine ⟨⟨header, header_of_keeps hkeeps hheader⟩, fun f hf => ?_⟩
  rw [hkeeps.fields] at hf
  obtain ⟨d, hd⟩ := hfields f hf
  exact ⟨d, fieldDecl_of_keeps hkeeps hd⟩

/-! ## A method is stubbed to itself -/

theorem exceptions_withCode (parts : MethodParts) (code : Option Attribute) :
    (parts.withCode code).exceptions.getD [] = parts.exceptions.getD [] := by
  unfold MethodParts.withCode
  cases parts.exceptions with
  | none => rfl
  | some classes => cases classes <;> rfl

/-- The declaration of a stubbed method is that of the method. -/
theorem methodDecl_withCode {decl : MethodDecl} {code : Option Attribute}
    (hg : cf.pool.GrowsInto stubbed.pool) (hdecl : cf.methodDecl m parts = .ok decl)
    (haccess : member.access = m.access) (hnameSlot : member.nameSlot = m.nameSlot)
    (hdescriptorSlot : member.descriptorSlot = m.descriptorSlot) :
    stubbed.methodDecl member (parts.withCode code) = .ok decl := by
  obtain ⟨hname, hdescriptor, heq⟩ := methodDecl_eq_ok.mp hdecl
  have hsignature : (parts.withCode code).signature = parts.signature := rfl
  refine methodDecl_eq_ok.mpr ⟨?_, ?_, ?_⟩
  · rw [hnameSlot]
    exact hg.utf8 hname
  · rw [hdescriptorSlot]
    exact hg.utf8 hdescriptor
  · rw [exceptions_withCode, hsignature, haccess, hnameSlot, hdescriptorSlot]
    exact heq

/-- The attributes that stand for a declaration are written under the same slots again. -/
theorem leading_withCode {attributes : List Attribute} (h : parts.Describe pool attributes)
    (hg : pool.GrowsInto later) (code : Option Attribute) :
    (parts.withCode code).leading later = parts.leading pool := by
  have hexceptions : (parts.withCode code).exceptionsAttribute later =
      parts.exceptionsAttribute pool := by
    unfold MethodParts.exceptionsAttribute
    rw [exceptions_withCode]
    cases hsome : parts.exceptions with
    | none => rfl
    | some classes =>
      obtain ⟨attr, -, hnamed, -⟩ := h.exceptions_named hsome
      cases classes with
      | nil => rfl
      | cons c classes => rw [hg.textSlot (isNamed_iff.mp hnamed)]
  have hsignature : (parts.withCode code).signatureAttribute later =
      parts.signatureAttribute pool := by
    unfold MethodParts.signatureAttribute MethodParts.withCode
    cases hsome : parts.signature with
    | none => rfl
    | some s =>
      obtain ⟨attr, -, hnamed, -⟩ := h.signature_named hsome
      rw [hg.textSlot (isNamed_iff.mp hnamed)]
  rw [MethodParts.leading, MethodParts.leading, hexceptions, hsignature]

/-- The attributes of a settled stub are those of an option, and each is named `Code`. -/
theorem code_eq_toList {stub : Option StubBody} {code : List Attribute} (hn : later.Numbered)
    (h : stubRequest stub later = (.ok code, later)) :
    ∃ o : Option Attribute, code = o.toList ∧ ∀ a ∈ o.toList, a.isNamed later .code = true := by
  have hlowest := namedLowest_of_settled hn h
  cases stub with
  | none => exact ⟨none, code_of_no_stub h, by simp⟩
  | some body =>
    obtain ⟨bytes, slot, -, -, rfl⟩ := code_of_settled h
    refine ⟨some ⟨slot, (body.code bytes).encode⟩, rfl, fun a ha => ?_⟩
    exact isNamed_iff.mpr (hlowest a ha).1

/-- A method that was stubbed with a pool is stubbed to itself by a class with that pool. -/
theorem StubStep.again (h : StubStep exceptionClass cf stubbed.pool m stubbed.pool member)
    (hg : cf.pool.GrowsInto stubbed.pool) (hn : stubbed.pool.Numbered) :
    StubStep exceptionClass stubbed stubbed.pool member stubbed.pool member := by
  obtain ⟨hparts, hdecl, hstub, hcode, hcount⟩ := h
  rename_i parts decl stub code
  obtain ⟨o, rfl, hnamed⟩ := code_eq_toList hn hcode
  have hagain := describe_withCode hparts hg hn o hnamed
  have hleading := leading_withCode hparts hg o
  -- the attributes are written again as they are, so their number is the one that was checked
  rw [← hleading] at hcount
  have hstep : StubStep exceptionClass stubbed stubbed.pool
      { m with
        attributes := (o.toList ++ parts.leading cf.pool ++ parts.others.toList).toArray }
      stubbed.pool _ :=
    .intro hagain (methodDecl_withCode hg hdecl rfl rfl rfl) hstub hcode hcount
  rw [hleading] at hstep
  exact hstep

/-! ## The stub fits its fields -/

/-- The payload of a stub's body is short. -/
theorem length_encode_code (body : StubBody) (bytes : Bytes) :
    (body.code bytes).encode.length = 12 + bytes.length := by
  simp [StubBody.code, Code.encode, encodeAttributes, Bytes.u2, Bytes.count2, Bytes.count4]
  omega

/-- The attributes that stand for a declaration have the payloads that the method had. -/
theorem leading_fits (hparts : parts.Describe pool m.attributes.toList) (hm : m.Fits) :
    ∀ a ∈ parts.leading pool, a.Fits := by
  rw [MethodParts.leading, List.forall_mem_append]
  constructor
  · unfold MethodParts.exceptionsAttribute
    cases hsome : parts.exceptions with
    | none => simp
    | some classes =>
      obtain ⟨attr, hattr, -, -, hinfo, -⟩ := hparts.exceptions_named hsome
      cases classes with
      | nil => simp
      | cons c classes =>
        simp only [Option.getD_some, List.forall_mem_singleton, Attribute.Fits, ← hinfo]
        exact hm.2 attr hattr
  · unfold MethodParts.signatureAttribute
    cases hsome : parts.signature with
    | none => simp
    | some s =>
      obtain ⟨attr, hattr, -, hinfo, -⟩ := hparts.signature_named hsome
      simp only [Option.toList_some, List.map_singleton, List.forall_mem_singleton, Attribute.Fits,
        ← hinfo]
      exact hm.2 attr hattr

/-- A method that fits its fields has a stub that does. -/
theorem StubStep.fits (h : StubStep exceptionClass cf later m later member) (hm : m.Fits) :
    member.Fits := by
  obtain ⟨hparts, hdecl, hstub, hcode, hcount⟩ := h
  rename_i parts decl stub code
  refine ⟨hcount, ?_⟩
  rw [List.toList_toArray, List.forall_mem_append, List.forall_mem_append]
  refine ⟨⟨?_, leading_fits hparts hm⟩, fun a ha => ?_⟩
  · cases stub with
    | none => simp [code_of_no_stub hcode]
    | some body =>
      obtain ⟨bytes, slot, hbytes, -, rfl⟩ := code_of_settled hcode
      have hlen := length_of_requestAll hbytes
      have hshort := (plain_of_stubBody hstub).short
      rw [List.forall_mem_singleton, Attribute.Fits, length_encode_code]
      omega
  · rw [← hparts.others] at ha
    exact hm.2 a (List.mem_of_mem_filter ha)

/-- The texts that stubs are about fit, if the name of the class that is thrown does. -/
theorem length_of_stubText (hclass : (ModifiedUtf8.encode exceptionClass).length ≤ 65535)
    {text : String} (h : StubText exceptionClass text) :
    (ModifiedUtf8.encode text).length ≤ 65535 := by
  rcases h with rfl | rfl | rfl | rfl
  · decide +kernel
  · exact hclass
  · decide +kernel
  · decide +kernel

/-- A class file that fits its fields has a stub that does, with a thrown class whose name fits its
length. -/
theorem fits_of_stubbedClass (hfits : cf.Fits)
    (hclass : (ModifiedUtf8.encode exceptionClass).length ≤ 65535)
    (h : stubbedClass exceptionClass cf = .ok stubbed) : stubbed.Fits := by
  obtain ⟨-, last, members, hrun, rfl⟩ := (stubbedClass_eq_ok hfits).mp h
  have hgrown := hrun.grown hfits.numbered
  have hlen := hrun.length_eq
  have hsettled := hrun.settled (GrowsInto.refl last)
  constructor
  · exact hfits.magic
  · exact hgrown.numbered hfits.numbered
  · exact hgrown.wellSlotted hfits.wellSlotted
  · exact hgrown.fits hfits.constants fun text htext => length_of_stubText hclass htext
  · exact hfits.interfaces
  · exact hfits.fields
  · refine ⟨?_, fun member hmember => ?_⟩
    · rw [List.size_toArray, ← hlen, Array.length_toList]
      exact hfits.methods.1
    · rw [List.toList_toArray] at hmember
      obtain ⟨m, hm, hstep⟩ := exists_of_forall₂_mem hsettled hmember
      exact hstep.fits (hfits.methods.2 m hm)
  · exact hfits.attributes

/-! ## The whole way -/

/-- A class file with stubs for bodies is stubbed to itself. -/
theorem stubbedClass_again (hfits : cf.Fits)
    (hclass : (ModifiedUtf8.encode exceptionClass).length ≤ 65535)
    (h : stubbedClass exceptionClass cf = .ok stubbed) :
    stubbedClass exceptionClass stubbed = .ok stubbed := by
  have hkeeps := keeps_of_stubbedClass hfits h
  have hfits' := fits_of_stubbedClass hfits hclass h
  obtain ⟨hresolves, last, members, hrun, rfl⟩ := (stubbedClass_eq_ok hfits).mp h
  have hg := hrun.growsInto
  have hn := hrun.numbered hfits.numbered
  refine (stubbedClass_eq_ok hfits').mpr
    ⟨resolves_of_keeps hkeeps hresolves, last, members, ?_, rfl⟩
  -- read from the right, every settled step is a step from a method to itself
  have hagain : List.Forall₂ (fun m member => StubStep exceptionClass
      { cf with pool := last, methods := members.toArray } last m last member) members members := by
    rw [List.forall₂_same]
    intro member hmember
    obtain ⟨m, -, hstep⟩ := exists_of_forall₂_mem (hrun.settled (GrowsInto.refl last)) hmember
    exact hstep.again hg hn
  exact stubRun_of_settled hagain

/-- Stubbing is idempotent: the bytes that come out of a run come out of the next one unchanged. -/
theorem stubClass_again {config : Config} {bytes out : Bytes}
    (hsize : ∀ original, ClassFile.decode bytes = .ok original → original.pool.size ≤ 65534)
    (hclass : (ModifiedUtf8.encode config.exceptionClass).length ≤ 65535)
    (h : stubClass config bytes = .ok out) : stubClass config out = .ok out := by
  obtain ⟨original, stubbed, hdecode, hchecked, rfl⟩ := stubClass_eq_ok.mp h
  obtain ⟨hstubbed, hcheck⟩ := checkedStub_eq_ok.mp hchecked
  have hfits := ClassFile.fits_of_decode hdecode
  have hfits' := fits_of_stubbedClass hfits hclass hstubbed
  -- stubbing never fills a pool beyond the slots that can be counted
  have hsize' : stubbed.pool.size ≤ 65534 := by
    have hbefore := hsize original hdecode
    obtain ⟨-, last, members, hrun, rfl⟩ := (stubbedClass_eq_ok hfits).mp hstubbed
    have hbounded := (hrun.grown hfits.numbered).bounded
    change last.size ≤ 65534
    unfold maxSize at hbounded
    omega
  refine stubClass_eq_ok.mpr
    ⟨stubbed, stubbed, ClassFile.decode_encode_of_fits hfits' hsize', ?_, rfl⟩
  exact checkedStub_eq_ok.mpr ⟨stubbedClass_again hfits hclass hstubbed, hcheck⟩

theorem stubClass_again_example : stubClass {} exampleClass.encode = .ok exampleStub.encode ∧
    stubClass {} exampleStub.encode = .ok exampleStub.encode := by
  have hsize : ∀ original, ClassFile.decode exampleClass.encode = .ok original →
      original.pool.size ≤ 65534 := by
    intro original h
    cases decode_exampleClass.symm.trans h
    decide
  exact ⟨stubClass_exampleClass,
    stubClass_again hsize (by decide +kernel) stubClass_exampleClass⟩

end JvmStub
