/-
`BrokenPools.lean` -- classes whose pools were broken when they were read.

The check looks at the stub, not at the class that was read, and the pool of the stub
is larger. What stands in a slot never changes, so a reference to a slot of the pool
that was read leads to the same constant as before: where it led to none, or to one
of the wrong kind, the stub is refused. That leaves the slots behind the end of the
pool. Stubbing puts its own constants there, and a reference to such a slot is a
reference to whichever constant comes to stand in it. Only such a reference can be
refused in the class and pass in its stub. The same goes for the one attribute that a
pool depends on, which may be named by a slot behind the end.

The condition cannot be left out. At the end of the file is a string constant whose
text is one slot behind the end; the name of the class that constructors throw is the
first constant that stubbing adds, and the stub passes as it is.
-/
import JvmStub.Proofs.Stub.Checked

set_option autoImplicit false

namespace JvmStub

open ConstantPool

variable {cf stubbed : ClassFile} {pool later : ConstantPool} {slot : Slot} {c : Constant}

/-! ## Slots of the earlier pool -/

/-- A slot that the earlier pool has holds nothing new. -/
theorem ConstantPool.GrowsInto.get_of_le (h : pool.GrowsInto later) (hle : slot.toNat ≤ pool.size)
    (hget : later.get slot = .ok c) : pool.get slot = .ok c := by
  obtain ⟨hz, hi, hu⟩ := get_eq_ok.mp hget
  have hpos : slot.toNat ≠ 0 := fun h0 => hz (UInt16.toNat.inj h0)
  have hlt : slot.toNat - 1 < pool.constants.toList.length := by
    rw [Array.length_toList]
    exact Nat.lt_of_lt_of_le (Nat.sub_one_lt hpos) hle
  obtain ⟨added, hadded⟩ := h
  rw [← hadded, List.getElem?_append_left hlt] at hi
  exact get_eq_ok.mpr ⟨hz, hi, hu⟩

/-- The reference leads to a constant of the kind that it needs. -/
def ReferenceHolds (pool : ConstantPool) (r : Slot × (Constant → Bool)) : Prop :=
  ∃ found, pool.get r.1 = .ok found ∧ r.2 found = true

theorem ReferenceHolds.of_le {r : Slot × (Constant → Bool)} (h : ReferenceHolds later r)
    (hg : pool.GrowsInto later) (hle : r.1.toNat ≤ pool.size) : ReferenceHolds pool r := by
  obtain ⟨found, hget, hkind⟩ := h
  exact ⟨found, hg.get_of_le hle hget, hkind⟩

/-- An attribute that the earlier pool can name has the name it had. -/
theorem isNamed_of_le {a : Attribute} {name : AttributeName}
    (h : a.isNamed later name = true) (hg : pool.GrowsInto later)
    (hle : a.nameSlot.toNat ≤ pool.size) : a.isNamed pool name = true := by
  have hname := utf8_eq_ok.mp (isNamed_iff.mp h)
  exact isNamed_iff.mpr (utf8_eq_ok.mpr (hg.get_of_le hle hname))

/-! ## Faults that pass -/

/-- What it takes that no fault of the pool that was read is found in the stub: every reference that
did not hold is to a slot behind the end, where the stub has a constant of the kind that is needed,
and so is the name of the bootstrap methods where some are needed and were missing. -/
structure Mended (cf stubbed : ClassFile) : Prop where
  references : ∀ c ∈ cf.pool.constants.toList, ∀ r ∈ c.references, ¬ ReferenceHolds cf.pool r →
    cf.pool.size < r.1.toNat ∧ ReferenceHolds stubbed.pool r
  bootstrap : ∀ c ∈ cf.pool.constants.toList, c.isDynamic = true → Check.hasBootstrap cf = false →
    ∃ a ∈ cf.attributes, cf.pool.size < a.nameSlot.toNat ∧
      a.isNamed stubbed.pool .bootstrapMethods = true

theorem mended_of_pool (hslots : WellSlotted stubbed.pool.constants.toList)
    (hg : cf.pool.GrowsInto stubbed.pool) (hattributes : stubbed.attributes = cf.attributes)
    (hok : Check.pool stubbed = .ok ()) : Mended cf stubbed := by
  have hall := (Check.pool_eq_ok hslots).mp hok
  have hmem : ∀ c ∈ cf.pool.constants.toList, c ∈ stubbed.pool.constants.toList :=
    fun c hc => hg.subset hc
  constructor
  · intro c hc r hr hbroken
    have hholds : ReferenceHolds stubbed.pool r := (hall c (hmem c hc)).2 r hr
    refine ⟨Nat.lt_of_not_le fun hle => hbroken (hholds.of_le hg hle), hholds⟩
  · intro c hc hdynamic hmissing
    have hbootstrap := (hall c (hmem c hc)).1 hdynamic
    unfold Check.hasBootstrap at hbootstrap hmissing
    rw [Array.any_eq_true'] at hbootstrap
    obtain ⟨a, ha, hnamed⟩ := hbootstrap
    rw [hattributes] at ha
    refine ⟨a, ha, Nat.lt_of_not_le fun hle => ?_, hnamed⟩
    -- an attribute that was named before would not have been missing
    have hthere : cf.attributes.any (Attribute.isNamed cf.pool .bootstrapMethods) = true :=
      Array.any_eq_true'.mpr ⟨a, ha, isNamed_of_le hnamed hg hle⟩
    rw [hthere] at hmissing
    cases hmissing

/-- The class refers to a slot that its pool does not have, by a constant or by the name of an
attribute. -/
def ReachesBeyond (cf : ClassFile) : Prop :=
  (∃ c ∈ cf.pool.constants.toList, ∃ r ∈ c.references, cf.pool.size < r.1.toNat) ∨
    ∃ a ∈ cf.attributes, cf.pool.size < a.nameSlot.toNat

/-- A pool that is broken and whose faults pass refers to a slot behind its end. -/
theorem Mended.reachesBeyond (h : Mended cf stubbed)
    (hslots : WellSlotted cf.pool.constants.toList) (hbroken : Check.pool cf ≠ .ok ()) :
    ReachesBeyond cf := by
  rw [ne_eq, Check.pool_eq_ok hslots, not_forall] at hbroken
  obtain ⟨c, hfault⟩ := hbroken
  obtain ⟨hc, hfault⟩ := Classical.not_imp.mp hfault
  by_cases hreferences : c.ReferencesHold cf.pool
  · -- the references hold, so the constant is dynamic and the bootstrap methods are missing
    have hdynamic : c.isDynamic = true ∧ ¬ Check.hasBootstrap cf = true :=
      Classical.not_imp.mp fun himp => hfault ⟨himp, hreferences⟩
    obtain ⟨a, ha, hbeyond, -⟩ :=
      h.bootstrap c hc hdynamic.1 (Bool.not_eq_true _ ▸ hdynamic.2)
    exact .inr ⟨a, ha, hbeyond⟩
  · obtain ⟨r, hr⟩ := not_forall.mp hreferences
    obtain ⟨hr, hnot⟩ := Classical.not_imp.mp hr
    exact .inl ⟨c, hc, r, hr, (h.references c hc r hr hnot).1⟩

/-! ## The whole way -/

/-- A stub whose pool has a fault is refused for its pool. -/
theorem stubClass_of_fault {config : Config} {bytes : Bytes} {fault : PoolFault}
    (hverify : config.verify = true) (hdecode : ClassFile.decode bytes = .ok cf)
    (hstubbed : stubbedClass config.exceptionClass cf = .ok stubbed)
    (hpool : Check.pool stubbed = .error fault) :
    stubClass config bytes = .error (.check (.pool fault)) := by
  have hcheck : stubbed.check = .error (.pool fault) :=
    except_bind_eq_error.mpr (.inl (mapError_eq_error.mpr ⟨fault, hpool, rfl⟩))
  have hchecked := checkedStub_eq_error.mpr (.inr ⟨stubbed, _, hstubbed, hverify, hcheck, rfl⟩)
  exact stubClass_eq_error.mpr (.inr ⟨cf, hdecode, hchecked⟩)

/-- What is known of a class and its stub when no fault is found in the pool of the stub. -/
theorem mended_of_stubbedClass {exceptionClass : String} (hfits : cf.Fits)
    (hstubbed : stubbedClass exceptionClass cf = .ok stubbed) (hpool : Check.pool stubbed = .ok ()) :
    Grown (StubText exceptionClass) cf.pool stubbed.pool ∧ Mended cf stubbed := by
  obtain ⟨-, last, members, hrun, heq⟩ := (stubbedClass_eq_ok hfits).mp hstubbed
  have hgrown : Grown (StubText exceptionClass) cf.pool stubbed.pool := by
    rw [heq]
    exact hrun.grown hfits.numbered
  exact ⟨hgrown, mended_of_pool (hgrown.wellSlotted hfits.wellSlotted) hgrown.growsInto
    (keeps_of_stubbedClass hfits hstubbed).attributes hpool⟩

/-- A class whose pool is broken, stubbed with the check: it is refused, or each fault of its pool
comes from a slot behind the end, where stubbing has put a constant of the kind that is needed. And
where a stub could be made and some fault is of another kind, the refusal is for the pool. -/
theorem stubClass_of_brokenPool {config : Config} {bytes : Bytes} (hverify : config.verify = true)
    (hdecode : ClassFile.decode bytes = .ok cf) (hbroken : Check.pool cf ≠ .ok ()) :
    ((∃ e, stubClass config bytes = .error e) ∨
      ∃ stubbed, stubClass config bytes = .ok stubbed.encode ∧
        Grown (StubText config.exceptionClass) cf.pool stubbed.pool ∧ Mended cf stubbed ∧
          ReachesBeyond cf) ∧
    ∀ stubbed, stubbedClass config.exceptionClass cf = .ok stubbed → ¬ Mended cf stubbed →
      ∃ fault, stubClass config bytes = .error (.check (.pool fault)) := by
  have hfits := ClassFile.fits_of_decode hdecode
  constructor
  · cases hresult : stubClass config bytes with
    | error e => exact .inl ⟨e, rfl⟩
    | ok out =>
      obtain ⟨original, stubbed, hdecode', hchecked, rfl⟩ := stubClass_eq_ok.mp hresult
      cases hdecode.symm.trans hdecode'
      obtain ⟨hstubbed, hcheck⟩ := checkedStub_eq_ok.mp hchecked
      obtain ⟨hpool, -⟩ := check_eq_ok.mp (hcheck hverify)
      obtain ⟨hgrown, hmended⟩ := mended_of_stubbedClass hfits hstubbed hpool
      exact .inr ⟨stubbed, rfl, hgrown, hmended, hmended.reachesBeyond hfits.wellSlotted hbroken⟩
  · intro stubbed hstubbed hnot
    -- a pool that has not been mended does not pass the check
    cases hpool : Check.pool stubbed with
    | ok => exact absurd (mended_of_stubbedClass hfits hstubbed hpool).2 hnot
    | error fault => exact ⟨fault, stubClass_of_fault hverify hdecode hstubbed hpool⟩

/-! ## A string without a text -/

/-- A class with a constructor and a string constant. -/
def stringClass (text : Slot) : ClassFile where
  magic := classMagic
  minor := 0
  major := 52
  pool :=
    ⟨#[.utf8 "A", .classRef 1, .utf8 "<init>", .utf8 "()V", .utf8 "Code", .string text]⟩
  access := 0x0021
  thisClass := 2
  superClass := 0
  interfaces := #[]
  fields := #[]
  methods := #[⟨0x0001, 3, 4, #[⟨5, Code.encode ⟨0, 1, [177], #[], #[]⟩⟩]⟩]
  attributes := #[]

/-- A string constant whose text is a class is found out, whatever stubbing adds. -/
theorem stubClass_of_brokenPool_string :
    Config.verify {} = true ∧ ClassFile.decode (stringClass 2).encode = .ok (stringClass 2) ∧
      Check.pool (stringClass 2) ≠ .ok () ∧
        ∃ e, stubClass {} (stringClass 2).encode = .error e := by
  have hverify : Config.verify {} = true := rfl
  have hdecode : ClassFile.decode (stringClass 2).encode = .ok (stringClass 2) := by
    decide +kernel
  have hbroken : Check.pool (stringClass 2) ≠ .ok () := by decide +kernel
  refine ⟨hverify, hdecode, hbroken, ?_⟩
  obtain ⟨hrefused | ⟨stubbed, -, -, hmended, -⟩, -⟩ :=
    stubClass_of_brokenPool hverify hdecode hbroken
  · exact hrefused
  · -- the slot of the class is no slot behind the end
    have hnot : ¬ ReferenceHolds (stringClass 2).pool (2, Constant.isUtf8) := by
      rintro ⟨found, hget, hkind⟩
      have hclass : (stringClass 2).pool.get 2 = .ok (.classRef 1) := rfl
      cases hclass.symm.trans hget
      cases hkind
    have hbeyond := (hmended.references (.string 2) (by decide) (2, Constant.isUtf8)
      List.mem_cons_self hnot).1
    exact absurd hbeyond (by decide)

/-- The stub of the class whose string constant has its text one slot behind the end. -/
def stringStub : ClassFile :=
  { stringClass 7 with
    pool :=
      ⟨#[.utf8 "A", .classRef 1, .utf8 "<init>", .utf8 "()V", .utf8 "Code", .string 7,
        .utf8 "java/lang/Error", .classRef 7, .nameAndType 3 4, .methodRef 8 9]⟩
    methods := #[⟨0x0001, 3, 4,
      #[⟨5, Code.encode ⟨2, 1, [187, 0, 8, 89, 183, 0, 10, 191], #[], #[]⟩⟩]⟩] }

/-- This class is not refused: the name of the class that constructors throw becomes the text of its
string constant. -/
theorem not_refused_of_danglingString :
    ClassFile.decode (stringClass 7).encode = .ok (stringClass 7) ∧
      Check.pool (stringClass 7) = .error (.invalidIndex 6) ∧ Config.verify {} = true ∧
        stubClass {} (stringClass 7).encode = .ok stringStub.encode := by
  have hdecode : ClassFile.decode (stringClass 7).encode = .ok (stringClass 7) := by
    decide +kernel
  have hfault : Check.pool (stringClass 7) = .error (.invalidIndex 6) := by decide +kernel
  have hstub : stubClass {} (stringClass 7).encode = .ok stringStub.encode := by decide +kernel
  exact ⟨hdecode, hfault, rfl, hstub⟩

end JvmStub
