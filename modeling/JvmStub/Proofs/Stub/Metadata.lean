/-
`Metadata.lean` -- the attributes of a method besides its body.

Stubbing takes the attributes of a method apart and writes them again, the
declared exceptions and the generic signature from the declaration, the others as
they came. What matters of an attribute is the name it resolves to and its
payload; the slot of the name may change, and so may the order. Each attribute
comes out exactly as often as it went in, with one exception: a declaration
cannot tell a method that lists no exceptions from one without a list, and so an
attribute that lists none is lost.
-/
import JvmStub.Proofs.Stub.Idempotence
import Mathlib.Data.Multiset.Filter

set_option autoImplicit false

namespace JvmStub

open ConstantPool

/-- What the attribute is called and what it holds. -/
def Attribute.content (pool : ConstantPool) (a : Attribute) : Except PoolError String × Bytes :=
  (a.name pool, a.info)

/-- The contents of the attributes of a method that are no bodies, in whatever order. -/
def Member.metadata (pool : ConstantPool) (m : Member) :
    Multiset (Except PoolError String × Bytes) :=
  ↑((m.attributes.toList.filter fun a => !a.isNamed pool .code).map (Attribute.content pool))

/-- The content of an attribute that lists no exceptions. -/
def noExceptions : Except PoolError String × Bytes :=
  (.ok AttributeName.exceptions.text, encodeExceptions #[])

/-- The content of an attribute that lists the classes that stand in the slots. -/
def exceptionsContent (classes : List (String × Slot)) : Except PoolError String × Bytes :=
  (.ok AttributeName.exceptions.text, encodeExceptions (classes.map (·.2)).toArray)

/-- The content of an attribute that names the text of a slot. -/
def signatureContent (s : String × Slot) : Except PoolError String × Bytes :=
  (.ok AttributeName.signature.text, encodeSignature s.2)

/-- The contents of the parts of a method besides its body. -/
def MethodParts.metadata (pool : ConstantPool) (parts : MethodParts) :
    List (Except PoolError String × Bytes) :=
  parts.exceptions.toList.map exceptionsContent ++ parts.signature.toList.map signatureContent ++
    parts.others.toList.map (Attribute.content pool)

variable {pool later : ConstantPool} {parts : MethodParts} {attributes : List Attribute}
  {m member : Member}

/-! ## Metadata of parts -/

/-- What matching lists hold is the same when each attribute of a name holds what its match says. -/
theorem map_content_of_forall₂ {β : Type} {R : Attribute → β → Prop} {ys : List β}
    {name : AttributeName} (content : β → Except PoolError String × Bytes)
    (h : List.Forall₂ R (attributes.filter (Attribute.isNamed pool name)) ys)
    (hR : ∀ a y, R a y → (.ok name.text, a.info) = content y) :
    (attributes.filter (Attribute.isNamed pool name)).map (Attribute.content pool) =
      ys.map content := by
  have hnamed : ∀ a ∈ attributes.filter (Attribute.isNamed pool name),
      a.content pool = (.ok name.text, a.info) := fun a ha =>
    congrArg (·, a.info) (isNamed_iff.mp (List.of_mem_filter ha))
  rw [List.map_congr_left hnamed]
  exact map_eq_of_forall₂ hR h

/-- The parts of a method have its metadata. -/
theorem MethodParts.Describe.metadata (h : parts.Describe pool m.attributes.toList) :
    m.metadata pool = ↑(parts.metadata pool) := by
  have hexceptions := map_content_of_forall₂ exceptionsContent h.exceptions
    fun a classes ⟨_, hinfo, _⟩ => by rw [hinfo]; rfl
  have hsignature := map_content_of_forall₂ signatureContent h.signature
    fun a s ⟨hinfo, _⟩ => by rw [hinfo]; rfl
  unfold Member.metadata MethodParts.metadata
  rw [← hexceptions, ← hsignature, ← h.others, ← List.map_append, ← List.map_append]
  exact Multiset.coe_eq_coe.mpr ((perm_filter_not_code pool _).map _)

/-! ## Metadata of a stub -/

/-- A list of exceptions has the content of an empty one only when it is empty. -/
theorem exceptionsContent_eq_noExceptions {classes : List (String × Slot)}
    (hlen : classes.length ≤ 65535) : exceptionsContent classes = noExceptions ↔ classes = [] := by
  constructor
  · intro h
    -- the payload is read back as both lists
    have hread := decodeExceptions_eq_ok.mpr
      ⟨show (classes.map (·.2)).toArray.size ≤ 65535 by simpa using hlen, rfl⟩
    have hempty := decodeExceptions_eq_ok.mpr ⟨show (#[] : Array Slot).size ≤ 65535 by simp, rfl⟩
    rw [show encodeExceptions (classes.map (·.2)).toArray = encodeExceptions #[] from
      congrArg Prod.snd h, hempty] at hread
    simpa using (Except.ok.inj hread).symm
  · rintro rfl
    rfl

/-- An attribute that is not told apart keeps its content, which is no list of exceptions. -/
theorem content_of_other {a : Attribute} (h : parts.Describe pool attributes)
    (hg : pool.GrowsInto later) (ha : a ∈ parts.others.toList) :
    a.content later = a.content pool ∧ a.content pool ≠ noExceptions := by
  rw [← h.others] at ha
  obtain ⟨text, htext⟩ := h.named a (List.mem_of_mem_filter ha)
  have hlater : a.name later = .ok text := hg.utf8 htext
  refine ⟨by rw [Attribute.content, Attribute.content, htext, hlater], fun heq => ?_⟩
  have hnamed : a.isNamed pool .exceptions = true := isNamed_iff.mpr (congrArg Prod.fst heq)
  rw [isNamed_of_isOther (List.of_mem_filter ha) (by simp)] at hnamed
  cases hnamed

/-- The parts of a stub have the metadata of the parts it was written for, but for an empty list
of exceptions. -/
theorem metadata_withCode (h : parts.Describe pool attributes) (hg : pool.GrowsInto later)
    (code : Option Attribute) : (parts.withCode code).metadata later =
      (parts.metadata pool).filter fun c => decide (c ≠ noExceptions) := by
  -- an empty list of exceptions is the only content that is lost
  have hexceptions : (parts.withCode code).exceptions.toList.map exceptionsContent =
      (parts.exceptions.toList.map exceptionsContent).filter
        fun c => decide (c ≠ noExceptions) := by
    unfold MethodParts.withCode
    cases hsome : parts.exceptions with
    | none => rfl
    | some classes =>
      obtain ⟨a, -, -, hlen, -⟩ := h.exceptions_named hsome
      have hiff := exceptionsContent_eq_noExceptions hlen
      cases classes with
      | nil => simp [hiff]
      | cons c classes => simp [hiff]
  have hsignature : (parts.signature.toList.map signatureContent).filter
      (fun c => decide (c ≠ noExceptions)) = parts.signature.toList.map signatureContent := by
    rw [List.filter_eq_self, List.forall_mem_map]
    exact fun s _ => decide_eq_true fun heq => absurd (congrArg Prod.fst heq) (by simp [
      signatureContent, noExceptions, AttributeName.text])
  have hothers : (parts.others.toList.map (Attribute.content pool)).filter
      (fun c => decide (c ≠ noExceptions)) = parts.others.toList.map (Attribute.content later) := by
    rw [List.map_congr_left fun a ha => (content_of_other h hg ha).1, List.filter_eq_self,
      List.forall_mem_map]
    exact fun a ha => decide_eq_true (content_of_other h hg ha).2
  rw [MethodParts.metadata, MethodParts.metadata, List.filter_append, List.filter_append,
    hexceptions, hsignature, hothers]
  rfl

/-- A method that is stubbed keeps its metadata but for an empty list of exceptions. -/
theorem StubStep.metadata {exceptionClass : String} {cf : ClassFile}
    (h : StubStep exceptionClass cf later m later member) (hg : cf.pool.GrowsInto later)
    (hn : later.Numbered) :
    member.metadata later = (m.metadata cf.pool).filter (· ≠ noExceptions) := by
  obtain ⟨hparts, -, -, hcode, -⟩ := h
  rename_i parts decl stub code
  obtain ⟨o, rfl, hnamed⟩ := code_eq_toList hn hcode
  have hagain := describe_withCode hparts hg hn o hnamed
  rw [hparts.metadata, MethodParts.Describe.metadata (by simpa using hagain),
    metadata_withCode hparts hg, Multiset.filter_coe]

/-- Every method of a stub has the metadata that it had before, but for attributes that list no
exceptions; so it has kept all of its metadata exactly when none of it was such an attribute. -/
theorem metadata_of_stubClass {config : Config} {bytes out : Bytes}
    (h : stubClass config bytes = .ok out) :
    ∃ original stubbed, ClassFile.decode bytes = .ok original ∧
      checkedStub config original = .ok stubbed ∧ out = stubbed.encode ∧
        List.Forall₂ (fun m member =>
            member.metadata stubbed.pool =
              (m.metadata original.pool).filter (· ≠ noExceptions) ∧
            (member.metadata stubbed.pool = m.metadata original.pool ↔
              noExceptions ∉ m.metadata original.pool))
          original.methods.toList stubbed.methods.toList := by
  obtain ⟨original, stubbed, hdecode, hchecked, hout⟩ := stubClass_eq_ok.mp h
  obtain ⟨hstubbed, -⟩ := checkedStub_eq_ok.mp hchecked
  have hfits := ClassFile.fits_of_decode hdecode
  obtain ⟨-, last, members, hrun, rfl⟩ := (stubbedClass_eq_ok hfits).mp hstubbed
  refine ⟨original, _, hdecode, hchecked, hout, ?_⟩
  rw [List.toList_toArray]
  refine (hrun.settled (GrowsInto.refl last)).imp fun m member hstep => ?_
  have hmetadata := hstep.metadata hrun.growsInto (hrun.numbered hfits.numbered)
  refine ⟨hmetadata, ?_⟩
  rw [hmetadata, Multiset.filter_eq_self]
  exact ⟨fun hall hmem => hall _ hmem rfl, fun hnone c hc heq => hnone (heq ▸ hc)⟩

/-- The small class loses nothing: its constructor lists an exception. -/
theorem metadata_of_stubClass_example : stubClass {} exampleClass.encode = .ok exampleStub.encode ∧
    ∃ original stubbed, ClassFile.decode exampleClass.encode = .ok original ∧
      checkedStub {} original = .ok stubbed ∧ exampleStub.encode = stubbed.encode ∧
        List.Forall₂ (fun m member =>
            member.metadata stubbed.pool =
              (m.metadata original.pool).filter (· ≠ noExceptions) ∧
            (member.metadata stubbed.pool = m.metadata original.pool ↔
              noExceptions ∉ m.metadata original.pool))
          original.methods.toList stubbed.methods.toList :=
  ⟨stubClass_exampleClass, metadata_of_stubClass stubClass_exampleClass⟩

/-- A class whose only method is abstract and lists no exceptions, with this attribute or
without. -/
def listlessClass (attributes : Array Attribute) : ClassFile :=
  { exampleClass with methods := #[⟨0x0401, 5, 4, attributes⟩] }

/-- The empty list is lost: the stub of the class is the class without it. -/
theorem not_metadata_of_listlessClass :
    ClassFile.decode (listlessClass #[⟨7, encodeExceptions #[]⟩]).encode =
        .ok (listlessClass #[⟨7, encodeExceptions #[]⟩]) ∧
      stubClass {} (listlessClass #[⟨7, encodeExceptions #[]⟩]).encode =
        .ok (listlessClass #[]).encode ∧
      ¬ List.Forall₂ (fun m member => member.metadata (listlessClass #[]).pool =
          m.metadata (listlessClass #[⟨7, encodeExceptions #[]⟩]).pool)
        (listlessClass #[⟨7, encodeExceptions #[]⟩]).methods.toList
        (listlessClass #[]).methods.toList := by
  refine ⟨by decide +kernel, by decide +kernel, fun h => ?_⟩
  cases h with
  | cons hfirst _ =>
    -- one attribute went in and none came out
    have hcard := congrArg Multiset.card hfirst
    revert hcard
    decide +kernel

end JvmStub
