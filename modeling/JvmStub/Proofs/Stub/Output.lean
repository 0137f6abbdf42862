/-
`Output.lean` -- reading what a run has written.

The bytes that come out of a run are read again as the class file that was
checked, up to the two limits that nothing looks at. A pool that was read with
65535 slots, one more than can be counted, is written with a count of zero. And
the name of the class that is thrown is written with its length cut to sixteen
bits, however long it is; it gets into the pool exactly when a constructor is
stubbed. The main statement says that there are no other cases.
-/
import JvmStub.Proofs.Config
import JvmStub.Proofs.Stub.Checked
import JvmStub.Proofs.Stub.Idempotence
import JvmStub.Proofs.Stub.Room

set_option autoImplicit false

namespace JvmStub

open ConstantPool

variable {exceptionClass : String} {cf stubbed : ClassFile} {pool later : ConstantPool}
  {m member : Member} {methods members : List Member}

/-! ## Classes without a constructor -/

/-- Stubbing a method that is no constructor does not depend on the class that is thrown. -/
theorem StubStep.of_ne_constructor (h : StubStep exceptionClass cf pool m later member)
    (hname : m.access.isBodiless = false → cf.pool.utf8 m.nameSlot ≠ .ok constructorName)
    (other : String) : StubStep other cf pool m later member := by
  obtain ⟨hparts, hdecl, hstub, hcode, hcount⟩ := h
  obtain ⟨hfound, -, -⟩ := methodDecl_eq_ok.mp hdecl
  refine .intro hparts hdecl (stubBody_of_ne_constructor hstub (fun hbodiless hsame => ?_) other)
    hcode hcount
  rw [access_of_methodDecl hdecl] at hbodiless
  exact hname hbodiless (hsame ▸ hfound)

/-- Without a constructor nothing throws, so any class may be named for it. -/
theorem StubRun.of_ne_constructor (h : StubRun exceptionClass cf pool methods later members)
    (hname : ∀ m ∈ methods, m.access.isBodiless = false →
      cf.pool.utf8 m.nameSlot ≠ .ok constructorName) (other : String) :
    StubRun other cf pool methods later members := by
  induction h with
  | nil pool => exact .nil pool
  | cons hstep _ ih =>
    obtain ⟨hfirst, hrest⟩ := List.forall_mem_cons.mp hname
    exact .cons (hstep.of_ne_constructor hfirst other) (ih hrest)

/-- A class without constructors comes to one stub, whatever class is thrown. -/
theorem stubbedClass_of_not_stubsConstructor (hfits : cf.Fits) (hnone : ¬ cf.StubsConstructor)
    (h : stubbedClass exceptionClass cf = .ok stubbed) (other : String) :
    stubbedClass other cf = .ok stubbed := by
  obtain ⟨hresolves, last, members, hrun, rfl⟩ := (stubbedClass_eq_ok hfits).mp h
  refine (stubbedClass_eq_ok hfits).mpr
    ⟨hresolves, last, members, hrun.of_ne_constructor (fun m hm hbodiless hname => ?_) other, rfl⟩
  exact hnone ⟨m, hm, hbodiless, hname⟩

/-! ## Classes with a constructor -/

/-- A constructor that is stubbed leaves the name of the class it throws in the pool. -/
theorem StubStep.exists_utf8 (h : StubStep exceptionClass cf later m later member)
    (hn : later.Numbered) (hbodiless : m.access.isBodiless = false)
    (hname : cf.pool.utf8 m.nameSlot = .ok constructorName) :
    ∃ slot, later.utf8 slot = .ok exceptionClass := by
  obtain ⟨-, hdecl, hstub, hcode, -⟩ := h
  rename_i parts decl stub code
  obtain ⟨hfound, -, -⟩ := methodDecl_eq_ok.mp hdecl
  have hconstructor : decl.name = constructorName := Except.ok.inj (hfound.symm.trans hname)
  have hbodiless' : decl.access.isBodiless = false := by
    rw [access_of_methodDecl hdecl]
    exact hbodiless
  obtain ⟨descriptor, -, hcases⟩ := (stubBody_eq_ok hbodiless').mp hstub
  rw [if_pos hconstructor] at hcases
  obtain ⟨-, -, rfl⟩ := hcases
  obtain ⟨bytes, slot, hbytes, -, -⟩ := code_of_settled hcode
  obtain ⟨-, thrown, -, -, hthrown, -⟩ := throws_of_requestAll hn hbytes
  obtain ⟨n, -, hn'⟩ := className_eq_ok.mp hthrown
  exact ⟨n, hn'⟩

/-- With a constructor the name of the thrown class is in the pool. -/
theorem exists_utf8_of_stubsConstructor (hfits : cf.Fits) (hsome : cf.StubsConstructor)
    (h : stubbedClass exceptionClass cf = .ok stubbed) :
    ∃ slot, stubbed.pool.utf8 slot = .ok exceptionClass := by
  obtain ⟨-, last, members, hrun, rfl⟩ := (stubbedClass_eq_ok hfits).mp h
  obtain ⟨m, hm, hbodiless, hname⟩ := hsome
  obtain ⟨member, -, hstep⟩ := exists_of_forall₂_mem (hrun.settled (GrowsInto.refl last)).flip hm
  exact hstep.exists_utf8 (hrun.numbered hfits.numbered) hbodiless hname

/-- A text that a class file holds in its pool is as short as the pool can spell it. -/
theorem ClassFile.Fits.length_le {slot : Slot} {text : String} (h : cf.Fits)
    (hutf8 : cf.pool.utf8 slot = .ok text) : (ModifiedUtf8.encode text).length ≤ 65535 := by
  obtain ⟨-, hi, -⟩ := get_eq_ok.mp (utf8_eq_ok.mp hutf8)
  exact h.constants _ (List.mem_of_getElem? hi)

/-! ## Reading the stub again -/

/-- Stubbing never fills a pool beyond the slots that can be counted. -/
theorem size_le_iff_of_stubbedClass (hfits : cf.Fits)
    (h : stubbedClass exceptionClass cf = .ok stubbed) :
    stubbed.pool.size ≤ 65534 ↔ cf.pool.size ≤ 65534 := by
  obtain ⟨-, last, members, hrun, rfl⟩ := (stubbedClass_eq_ok hfits).mp h
  have hgrown := hrun.grown hfits.numbered
  have hbounded := hgrown.bounded
  have hle := hgrown.growsInto.size_le
  change last.size ≤ 65534 ↔ cf.pool.size ≤ 65534
  unfold maxSize at hbounded
  omega

/-- A stub fits its fields exactly when the name of the class that its constructors throw does. -/
theorem fits_iff_of_stubbedClass (hfits : cf.Fits)
    (h : stubbedClass exceptionClass cf = .ok stubbed) :
    stubbed.Fits ↔
      (cf.StubsConstructor → (ModifiedUtf8.encode exceptionClass).length ≤ 65535) := by
  constructor
  · intro hstubbed hsome
    obtain ⟨slot, hutf8⟩ := exists_utf8_of_stubsConstructor hfits hsome h
    exact hstubbed.length_le hutf8
  · intro hclass
    by_cases hsome : cf.StubsConstructor
    · exact fits_of_stubbedClass hfits (hclass hsome) h
    · -- nothing throws, so the stub is also that for a class with a short name
      have hother := stubbedClass_of_not_stubsConstructor hfits hsome h ""
      exact fits_of_stubbedClass hfits (by decide +kernel) hother

/-- What comes out of a run is read again as the class file that was made, and checked where the
settings say so, exactly when the slots that were read can be counted and the name of the class that
constructors throw, if there are any, can be written with its length. -/
theorem decode_of_stubClass {config : Config} {bytes out : Bytes}
    (h : stubClass config bytes = .ok out) :
    ∃ original stubbed, ClassFile.decode bytes = .ok original ∧
      checkedStub config original = .ok stubbed ∧ out = stubbed.encode ∧
        (ClassFile.decode out = .ok stubbed ↔ original.pool.size ≤ 65534 ∧
          (original.StubsConstructor →
            (ModifiedUtf8.encode config.exceptionClass).length ≤ 65535)) := by
  obtain ⟨original, stubbed, hdecode, hchecked, rfl⟩ := stubClass_eq_ok.mp h
  obtain ⟨hstubbed, -⟩ := checkedStub_eq_ok.mp hchecked
  have hfits := ClassFile.fits_of_decode hdecode
  refine ⟨original, stubbed, hdecode, hchecked, rfl, ?_⟩
  rw [ClassFile.decode_encode_iff_fits, fits_iff_of_stubbedClass hfits hstubbed,
    size_le_iff_of_stubbedClass hfits hstubbed, and_comm]

theorem decode_of_stubClass_example : stubClass {} exampleClass.encode = .ok exampleStub.encode ∧
    ∃ original stubbed, ClassFile.decode exampleClass.encode = .ok original ∧
      checkedStub {} original = .ok stubbed ∧ exampleStub.encode = stubbed.encode ∧
        (ClassFile.decode exampleStub.encode = .ok stubbed ↔ original.pool.size ≤ 65534 ∧
          (original.StubsConstructor →
            (ModifiedUtf8.encode "java/lang/Error").length ≤ 65535)) :=
  ⟨stubClass_exampleClass, decode_of_stubClass stubClass_exampleClass⟩

/-! ## A name too long -/

/-- A class that passes the check as it was read comes out of a run with any settings, if it can be
stubbed at all and there is room for six more slots. -/
theorem checkedStub_of_room (hfits : cf.Fits) (hfit : cf.ArgumentsFit) (hcheck : cf.check = .ok ())
    (hroom : cf.pool.size + 6 ≤ maxSize) (h : stubbedClass exceptionClass cf = .ok stubbed)
    (config : Config) : ∃ stubbed', checkedStub config cf = .ok stubbed' := by
  obtain ⟨stubbed', hstubbed'⟩ := stubbedClass_of_room hfits hroom h config.exceptionClass
  refine ⟨stubbed', checkedStub_eq_ok.mpr ⟨hstubbed', fun _ => ?_⟩⟩
  cases hfound : stubbed'.check with
  | ok u => rfl
  | error fault =>
    have hinherited := inherited_of_stubbedClass hfits hfit hstubbed' hfound
    exact absurd hcheck (check_ne_ok_of_inherited hinherited)

/-- The length of a text that repeats one character. -/
theorem length_encode_replicate (n : Nat) (c : Char) :
    (ModifiedUtf8.encode (String.ofList (List.replicate n c))).length =
      n * ((Utf16.unitsOf c).flatMap ModifiedUtf8.encodeUnit).length := by
  rw [ModifiedUtf8.encode, String.toList_ofList, Utf16.units, List.flatMap_assoc,
    List.length_flatMap, List.map_replicate, List.sum_replicate_nat]

/-- A name of letters is taken as it is, however many there are. -/
theorem withExceptionClass_replicate (config : Config) (n : Nat) :
    config.withExceptionClass (String.ofList (List.replicate (n + 1) 'a')) =
      .ok { config with exceptionClass := String.ofList (List.replicate (n + 1) 'a') } := by
  have hletters : ∀ c ∈ List.replicate (n + 1) 'a', c ≠ '/' ∧ c ≠ '.' ∧ isSeparator c = false := by
    intro c hc
    rw [List.eq_of_mem_replicate hc]
    decide
  rw [Config.withExceptionClass, internalClassName_of_internal (by simp)]
  · rfl
  · rw [segments_of_no_slash fun c hc => (hletters c hc).1]
    simp
  · exact fun c hc => (hletters c hc).2

/-- One letter more than a length field can count. -/
def longName : String := String.ofList (List.replicate 65536 'a')

/-- A run that throws a class of that name gives bytes that are not those of the stub it checked. -/
theorem not_decode_of_longName : ∃ config stubbed,
    ({} : Config).withExceptionClass longName = .ok config ∧
      checkedStub config exampleStub = .ok stubbed ∧
        stubClass config exampleStub.encode = .ok stubbed.encode ∧
          ClassFile.decode stubbed.encode ≠ .ok stubbed := by
  have hdecode : ClassFile.decode exampleStub.encode = .ok exampleStub := by decide +kernel
  have hfits := ClassFile.fits_of_decode hdecode
  have hdefault : stubbedClass "java/lang/Error" exampleStub = .ok exampleStub := by
    decide +kernel
  have hroom : exampleStub.pool.size + 6 ≤ maxSize := by decide
  -- the stub need not be computed with the long name: there is room for it, so there is a stub
  obtain ⟨stubbed, hchecked⟩ := checkedStub_of_room hfits (by decide +kernel) (by decide +kernel)
    hroom hdefault { exceptionClass := longName }
  refine ⟨_, stubbed, withExceptionClass_replicate {} 65535, hchecked,
    stubClass_eq_ok.mpr ⟨_, stubbed, hdecode, hchecked, rfl⟩, fun h => ?_⟩
  obtain ⟨hstubbed, -⟩ := checkedStub_eq_ok.mp hchecked
  have hconstructor : exampleStub.StubsConstructor :=
    ⟨_, List.mem_cons_self, by decide +kernel, by decide +kernel⟩
  have hlen := (fits_iff_of_stubbedClass hfits hstubbed).mp (ClassFile.fits_of_decode h)
    hconstructor
  have hlong : (ModifiedUtf8.encode longName).length = 65536 := length_encode_replicate 65536 'a'
  rw [hlong] at hlen
  exact absurd hlen (by decide)

end JvmStub
