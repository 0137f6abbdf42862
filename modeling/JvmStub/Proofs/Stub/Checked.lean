/-
`Checked.lean` -- what the check can still find in a stub.

The check looks at a stub as it would at any class file, and it can find fault
with one, but only with what stubbing left as it was: a fault in the pool, an
interface without a superclass, modifiers that cannot stand together, or the
descriptor of a method without a body. `InheritedFault` lists these. Each of them
is a fault that the class had when it was read, so a class that passes the check
passes it again once it is stubbed.
-/
import JvmStub.Proofs.Check.Bodies
import JvmStub.Proofs.Check.Pool
import JvmStub.Proofs.Stub.Shape
import JvmStub.Proofs.Stub.Stops

set_option autoImplicit false

namespace JvmStub

open ConstantPool

/-- The faults of a class that its stub still has. -/
inductive InheritedFault (cf : ClassFile) : ClassFault → Prop
  | pool {fault : PoolFault} (hpool : Check.pool cf ≠ .ok ()) : InheritedFault cf (.pool fault)
  | superClass (hinterface : cf.access.isInterface = true) (hzero : cf.superClass = 0) :
      InheritedFault cf (.invalidSuperClass 0)
  | access {m : Member} (hm : m ∈ cf.methods.toList)
      (hinvalid : m.access.areValidFor cf = false) :
      InheritedFault cf (.method (cf.displayName m) (.invalidAccess m.access))
  | descriptor {m : Member} {text : String} {e : DescriptorError} (hm : m ∈ cf.methods.toList)
      (hbodiless : m.access.isBodiless = true)
      (htext : cf.pool.utf8 m.descriptorSlot = .ok text)
      (hparse : MethodDescriptor.parse text = .error e) :
      InheritedFault cf (.method (cf.displayName m) (.invalidDescriptor e))

variable {cf stubbed : ClassFile} {fault : ClassFault} {exceptionClass : String}

/-! ## The parts of the check -/

/-- The check passes when its four parts do. -/
theorem check_eq_ok : cf.check = .ok () ↔
    Check.pool cf = .ok () ∧ Check.thisClass cf = .ok () ∧ Check.superClass cf = .ok () ∧
      ∀ m ∈ cf.methods.toList, Check.method cf m = .ok () := by
  unfold ClassFile.check
  constructor
  · intro h
    obtain ⟨⟨⟩, hpool, h⟩ := except_bind_eq_ok.mp h
    obtain ⟨⟨⟩, hthis, h⟩ := except_bind_eq_ok.mp h
    obtain ⟨⟨⟩, hsuper, h⟩ := except_bind_eq_ok.mp h
    refine ⟨mapError_eq_ok.mp hpool, hthis, hsuper, fun m hm => ?_⟩
    exact mapError_eq_ok.mp (except_forM_eq_ok.mp h m hm)
  · rintro ⟨hpool, hthis, hsuper, hmethods⟩
    refine except_bind_eq_ok.mpr ⟨(), mapError_eq_ok.mpr hpool, ?_⟩
    refine except_bind_eq_ok.mpr ⟨(), hthis, except_bind_eq_ok.mpr ⟨(), hsuper, ?_⟩⟩
    exact except_forM_eq_ok.mpr fun m hm => mapError_eq_ok.mpr (hmethods m hm)

/-- A fault was found by one of the parts. -/
theorem check_eq_error (h : cf.check = .error fault) :
    (∃ e, Check.pool cf = .error e ∧ fault = .pool e) ∨ Check.thisClass cf = .error fault ∨
      Check.superClass cf = .error fault ∨
        ∃ m ∈ cf.methods.toList, ∃ e, Check.method cf m = .error e ∧
          fault = .method (cf.displayName m) e := by
  unfold ClassFile.check at h
  -- the parts are tried in turn, and the first that fails is reported
  rcases except_bind_eq_error.mp h with hfault | ⟨⟨⟩, -, h⟩
  · obtain ⟨e, hpool, rfl⟩ := mapError_eq_error.mp hfault
    exact .inl ⟨e, hpool, rfl⟩
  rcases except_bind_eq_error.mp h with hthis | ⟨⟨⟩, -, h⟩
  · exact .inr (.inl hthis)
  rcases except_bind_eq_error.mp h with hsuper | ⟨⟨⟩, -, h⟩
  · exact .inr (.inr (.inl hsuper))
  obtain ⟨m, hm, hmethod⟩ := except_forM_eq_error h
  obtain ⟨e, hcheck, rfl⟩ := mapError_eq_error.mp hmethod
  exact .inr (.inr (.inr ⟨m, hm, e, hcheck, rfl⟩))

/-- A class that has a name is a class. -/
theorem isClassAt_of_className {pool : ConstantPool} {slot : Slot} {name : String}
    (h : pool.className slot = .ok name) : Check.isClassAt pool slot = true := by
  obtain ⟨n, hget, -⟩ := className_eq_ok.mp h
  rw [Check.isClassAt, hget]
  rfl

theorem isClassAt_zero (pool : ConstantPool) : Check.isClassAt pool 0 = false := rfl

/-! ## From the stub back to the class -/

/-- Which modifiers a class may have is not changed by stubbing. -/
theorem areValidFor_of_keeps (h : cf.Keeps stubbed) (flags : AccessFlags) :
    flags.areValidFor stubbed = flags.areValidFor cf := by
  unfold AccessFlags.areValidFor
  rw [h.access, h.major]

/-- A method whose names can be found is shown under the same name. -/
theorem displayName_of_keeps {m member : Member} {name text : String} (h : cf.Keeps stubbed)
    (hm : m.Keeps cf.pool stubbed.pool member) (hname : cf.pool.utf8 m.nameSlot = .ok name)
    (htext : cf.pool.utf8 m.descriptorSlot = .ok text) :
    stubbed.displayName member = cf.displayName m := by
  have hg : cf.pool.GrowsInto stubbed.pool := h.pool
  unfold ClassFile.displayName
  rw [hm.nameSlot, hm.descriptorSlot, hname, htext, hg.utf8 hname, hg.utf8 htext]

/-- A method of the stub is found fault with only for what it was read with. -/
theorem inherited_of_method {m member : Member} {e : MethodFault} (hkeeps : cf.Keeps stubbed)
    (hn : stubbed.pool.Numbered) (hfit : cf.ArgumentsFit) (hm : m ∈ cf.methods.toList)
    (hstep : StubStep exceptionClass cf stubbed.pool m stubbed.pool member)
    (h : Check.method stubbed member = .error e) :
    InheritedFault cf (.method (stubbed.displayName member) e) := by
  have hg : cf.pool.GrowsInto stubbed.pool := hkeeps.pool
  have hmember := hstep.keeps hg hn
  obtain ⟨hnone, hstub⟩ := hstep.hasStub hg hn hfit hm
  obtain ⟨name, text, hname, htext⟩ := hstep.named
  have hname' : stubbed.pool.utf8 member.nameSlot = .ok name := by
    rw [hmember.nameSlot]
    exact hg.utf8 hname
  have htext' : stubbed.pool.utf8 member.descriptorSlot = .ok text := by
    rw [hmember.descriptorSlot]
    exact hg.utf8 htext
  rw [displayName_of_keeps hkeeps hmember hname htext]
  -- with a stub for a body, only the modifiers and the descriptor can still be at fault
  obtain ⟨hinvalid, rfl⟩ | ⟨hbodiless, error, hparse, rfl⟩ :=
    Check.method_eq_error hname' htext' hnone hstub h
  · rw [areValidFor_of_keeps hkeeps, hmember.access] at hinvalid
    rw [hmember.access]
    exact .access hm hinvalid
  · rw [hmember.access] at hbodiless
    exact .descriptor hm hbodiless htext hparse

/-- The class that a stub declares was looked up, so no fault is found with it. -/
theorem thisClass_of_keeps {name : String} (hkeeps : cf.Keeps stubbed)
    (hname : cf.pool.className cf.thisClass = .ok name) : Check.thisClass stubbed = .ok () := by
  have hg : cf.pool.GrowsInto stubbed.pool := hkeeps.pool
  unfold Check.thisClass
  rw [hkeeps.thisClass, if_pos (isClassAt_of_className (hg.className hname))]

/-- A superclass was looked up or is missing, and it can only be missed in an interface. -/
theorem inherited_of_superClass {superName : Option String} (hkeeps : cf.Keeps stubbed)
    (hsuper : SuperNamed cf superName) (h : Check.superClass stubbed = .error fault) :
    InheritedFault cf fault := by
  have hg : cf.pool.GrowsInto stubbed.pool := hkeeps.pool
  unfold Check.superClass at h
  rw [hkeeps.access, hkeeps.superClass] at h
  cases superName with
  | none =>
    have hzero : cf.superClass = 0 := hsuper
    rw [hzero, isClassAt_zero] at h
    -- a class may be without a superclass, as the root of all classes is
    cases hinterface : cf.access.isInterface with
    | true =>
      rw [hinterface] at h
      cases h
      exact .superClass hinterface hzero
    | false =>
      rw [hinterface] at h
      cases h
  | some name =>
    obtain ⟨-, hname⟩ := hsuper
    rw [isClassAt_of_className (hg.className hname), Bool.or_true, if_pos rfl] at h
    cases h

/-- A fault of the stub is one that the class was read with. -/
theorem inherited_of_stubbedClass (hfits : cf.Fits) (hfit : cf.ArgumentsFit)
    (hstubbed : stubbedClass exceptionClass cf = .ok stubbed)
    (h : stubbed.check = .error fault) : InheritedFault cf fault := by
  have hkeeps := keeps_of_stubbedClass hfits hstubbed
  obtain ⟨hresolves, last, members, hrun, heq⟩ := (stubbedClass_eq_ok hfits).mp hstubbed
  have hlast : stubbed.pool = last := by rw [heq]
  have hmembers : stubbed.methods.toList = members := by rw [heq]
  rw [← hlast] at hrun
  have hgrown := hrun.grown hfits.numbered
  have hn := hgrown.numbered hfits.numbered
  obtain ⟨header, hheader⟩ := hresolves.header
  obtain ⟨hthis, hsuper, -⟩ := header_eq_ok.mp hheader
  -- the cases are the parts of the check, in the order in which it makes them
  obtain ⟨e, hpool, rfl⟩ | hfault | hfault | ⟨member, hmember, e, hfault, rfl⟩ := check_eq_error h
  · refine .pool fun hok => ?_
    rw [Check.pool_of_grown hfits.wellSlotted hgrown hkeeps.attributes hok] at hpool
    cases hpool
  · rw [thisClass_of_keeps hkeeps hthis] at hfault
    cases hfault
  · exact inherited_of_superClass hkeeps hsuper hfault
  · rw [hmembers] at hmember
    obtain ⟨m, hm, hstep⟩ := exists_of_forall₂_mem (hrun.settled (GrowsInto.refl _)) hmember
    exact inherited_of_method hkeeps hn hfit hm hstep hfault

/-- A class with such a fault does not pass the check as it was read. -/
theorem check_ne_ok_of_inherited (h : InheritedFault cf fault) : cf.check ≠ .ok () := by
  intro hok
  obtain ⟨hpool, -, hsuper, hmethods⟩ := check_eq_ok.mp hok
  cases h with
  | pool hfault => exact hfault hpool
  | superClass hinterface hzero =>
    unfold Check.superClass at hsuper
    rw [hinterface, hzero, isClassAt_zero] at hsuper
    cases hsuper
  | access hm hinvalid =>
    obtain ⟨hvalid, -⟩ := Check.valid_of_method (hmethods _ hm)
    rw [hinvalid] at hvalid
    cases hvalid
  | descriptor hm _ htext hparse =>
    obtain ⟨-, text, descriptor, htext', hparse'⟩ := Check.valid_of_method (hmethods _ hm)
    cases htext.symm.trans htext'
    cases hparse.symm.trans hparse'

/-! ## The whole way -/

/-- A fault comes out of a run only from the check of the stub that was made. -/
theorem stubClass_eq_fault {config : Config} {bytes : Bytes}
    (h : stubClass config bytes = .error (.check fault)) : ∃ original stubbed,
      ClassFile.decode bytes = .ok original ∧
        stubbedClass config.exceptionClass original = .ok stubbed ∧
          stubbed.check = .error fault := by
  obtain ⟨r, -, he⟩ | ⟨original, hdecode, hchecked⟩ := stubClass_eq_error.mp h
  · cases he
  · obtain hstubbed | ⟨stubbed, found, hstubbed, -, hcheck, he⟩ :=
      checkedStub_eq_error.mp hchecked
    · exact absurd hstubbed (stubbedClass_ne_fault (ClassFile.fits_of_decode hdecode))
    · cases he
      exact ⟨original, stubbed, hdecode, hstubbed, hcheck⟩

/-- Whatever was read, a run reports only faults that the class was read with, and none where the
class passes the check as it was read. -/
theorem faults_of_stubClass {config : Config} {bytes : Bytes}
    (hfit : ∀ original, ClassFile.decode bytes = .ok original → original.ArgumentsFit) :
    (∀ fault, stubClass config bytes = .error (.check fault) →
      ∃ original, ClassFile.decode bytes = .ok original ∧ InheritedFault original fault) ∧
    (∀ original, ClassFile.decode bytes = .ok original → original.check = .ok () →
      ∀ fault, stubClass config bytes ≠ .error (.check fault)) := by
  have hinherited : ∀ fault, stubClass config bytes = .error (.check fault) →
      ∃ original, ClassFile.decode bytes = .ok original ∧ InheritedFault original fault := by
    intro fault h
    obtain ⟨original, stubbed, hdecode, hstubbed, hcheck⟩ := stubClass_eq_fault h
    exact ⟨original, hdecode, inherited_of_stubbedClass (ClassFile.fits_of_decode hdecode)
      (hfit original hdecode) hstubbed hcheck⟩
  refine ⟨hinherited, fun original hdecode hok fault h => ?_⟩
  obtain ⟨original', hdecode', hfault⟩ := hinherited fault h
  cases hdecode.symm.trans hdecode'
  exact check_ne_ok_of_inherited hfault hok

/-- The example class as an interface without a superclass. -/
def orphanInterface : ClassFile := { exampleClass with access := 0x0601, superClass := 0 }

/-- An interface without a superclass, which the check refuses: the fault was there before. -/
theorem faults_of_stubClass_example :
    (∀ original, ClassFile.decode orphanInterface.encode = .ok original →
      original.ArgumentsFit) ∧
      stubClass {} orphanInterface.encode = .error (.check (.invalidSuperClass 0)) ∧
        ∃ original, ClassFile.decode orphanInterface.encode = .ok original ∧
          InheritedFault original (.invalidSuperClass 0) := by
  have hdecode : ClassFile.decode orphanInterface.encode = .ok orphanInterface := by
    decide +kernel
  have hfit : ∀ original, ClassFile.decode orphanInterface.encode = .ok original →
      original.ArgumentsFit := by
    intro original h
    cases hdecode.symm.trans h
    decide +kernel
  have hfault : stubClass {} orphanInterface.encode = .error (.check (.invalidSuperClass 0)) := by
    decide +kernel
  exact ⟨hfit, hfault, (faults_of_stubClass hfit).1 _ hfault⟩

end JvmStub
