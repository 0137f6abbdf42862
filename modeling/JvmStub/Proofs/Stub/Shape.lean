/-
`Shape.lean` -- what stubbing leaves as it was.

Stubbing is about the bodies of methods and nothing else. Version, modifiers, the
class itself, its superclass and interfaces, the fields and the attributes of the
class come out as they went in, slot by slot; the pool has the constants of the
class in front; each method keeps its place, its modifiers, and the slots of its
name and descriptor.

The attributes of a method do move. They come in a fixed order, and those that
stand for the body, the declared exceptions and the generic signature are named
by the lowest slot that holds their name, whichever copy named them before.
-/
import JvmStub.Proofs.Stub.Attributes

set_option autoImplicit false

namespace JvmStub

open ConstantPool

/-- The attribute is named by the lowest slot that holds the name. -/
def Attribute.NamedLowest (pool : ConstantPool) (name : AttributeName) (a : Attribute) : Prop :=
  pool.IsLowestUtf8 a.nameSlot name.text

/-- The attribute has the payload of an earlier one, under the lowest slot of its name. -/
def Attribute.Renamed (pool : ConstantPool) (name : AttributeName) (earlier a : Attribute) :
    Prop :=
  a.info = earlier.info ∧ a.NamedLowest pool name

/-- The attributes of a stubbed method, in their order: the body unless there is none, the declared
exceptions unless their list is empty, the generic signature, and the others as they were. -/
def StubbedAttributes (pool laterPool : ConstantPool) (m : Member) (attributes : List Attribute) :
    Prop :=
  ∃ code exceptions signature,
    attributes = code ++ exceptions ++ signature ++ m.otherAttributes pool ∧
      code.length = (if m.access.isBodiless then 0 else 1) ∧
        (∀ a ∈ code, a.NamedLowest laterPool .code) ∧
          List.Forall₂ (Attribute.Renamed laterPool .exceptions)
            ((m.attributesNamed pool .exceptions).filter Attribute.listsExceptions) exceptions ∧
            List.Forall₂ (Attribute.Renamed laterPool .signature)
              (m.attributesNamed pool .signature) signature

/-- What a method keeps when it is stubbed. -/
structure Member.Keeps (pool laterPool : ConstantPool) (m later : Member) : Prop where
  access : later.access = m.access
  nameSlot : later.nameSlot = m.nameSlot
  descriptorSlot : later.descriptorSlot = m.descriptorSlot
  exceptionsOnce : (m.attributesNamed pool .exceptions).length ≤ 1
  signatureOnce : (m.attributesNamed pool .signature).length ≤ 1
  attributes : StubbedAttributes pool laterPool m later.attributes.toList

/-- What a class keeps when its methods are stubbed. -/
structure ClassFile.Keeps (cf later : ClassFile) : Prop where
  magic : later.magic = cf.magic
  minor : later.minor = cf.minor
  major : later.major = cf.major
  access : later.access = cf.access
  thisClass : later.thisClass = cf.thisClass
  superClass : later.superClass = cf.superClass
  interfaces : later.interfaces = cf.interfaces
  fields : later.fields = cf.fields
  attributes : later.attributes = cf.attributes
  pool : cf.pool.constants.toList <+: later.pool.constants.toList
  methods : List.Forall₂ (Member.Keeps cf.pool later.pool) cf.methods.toList later.methods.toList

variable {pool later : ConstantPool} {parts : MethodParts} {m member : Member}

/-! ## The attributes of a method -/

/-- Attributes of one name, written under its lowest slot. -/
theorem renamed_map_under {name : AttributeName} {attributes : List Attribute}
    (h : ∀ a ∈ attributes, a.isNamed pool name = true) (hg : pool.GrowsInto later)
    (hn : later.Numbered) :
    List.Forall₂ (Attribute.Renamed later name) attributes
      (attributes.map (Attribute.under pool name)) := by
  rw [List.forall₂_map_right_iff, List.forall₂_same]
  exact fun a ha => ⟨rfl, isLowestUtf8_of_isNamed (h a ha) hg hn⟩

/-- What a method says of its declared exceptions is at most one attribute, written again under the
lowest slot of its name unless its list is empty. -/
theorem renamed_exceptionsAttribute (h : parts.Describe pool m.attributes.toList)
    (hg : pool.GrowsInto later) (hn : later.Numbered) :
    (m.attributesNamed pool .exceptions).length ≤ 1 ∧
      List.Forall₂ (Attribute.Renamed later .exceptions)
        ((m.attributesNamed pool .exceptions).filter Attribute.listsExceptions)
        (parts.exceptionsAttribute pool) := by
  rw [h.exceptionsAttribute_eq]
  refine ⟨length_le_one_of_forall₂ h.exceptions, renamed_map_under (fun a ha => ?_) hg hn⟩
  exact List.of_mem_filter (List.mem_of_mem_filter ha)

/-- What a method says of its generic signature is at most one attribute, written again under the
lowest slot of its name. -/
theorem renamed_signatureAttribute (h : parts.Describe pool m.attributes.toList)
    (hg : pool.GrowsInto later) (hn : later.Numbered) :
    (m.attributesNamed pool .signature).length ≤ 1 ∧
      List.Forall₂ (Attribute.Renamed later .signature) (m.attributesNamed pool .signature)
        (parts.signatureAttribute pool) := by
  rw [h.signatureAttribute_eq]
  exact ⟨length_le_one_of_forall₂ h.signature, renamed_map_under (fun a ha => List.of_mem_filter ha) hg hn⟩

/-! ## The attribute for the body -/

/-- The attribute of a settled stub is named by the lowest slot of its name. -/
theorem namedLowest_of_settled {stub : Option StubBody} {code : List Attribute}
    (hn : pool.Numbered) (h : stubRequest stub pool = (.ok code, pool)) :
    ∀ a ∈ code, a.NamedLowest pool .code := by
  cases stub with
  | none => simp [code_of_no_stub h]
  | some body =>
    obtain ⟨bytes, slot, -, hslot, rfl⟩ := code_of_settled h
    rw [List.forall_mem_singleton]
    exact isLowestUtf8_of_find? hn (PoolM.find?_of_intern rfl hslot)

/-! ## Methods and classes -/

/-- A step that is settled in a later pool keeps what a method keeps. -/
theorem StubStep.keeps {exceptionClass : String} {cf : ClassFile}
    (h : StubStep exceptionClass cf later m later member) (hg : cf.pool.GrowsInto later)
    (hn : later.Numbered) : m.Keeps cf.pool later member := by
  obtain ⟨hparts, hdecl, hstub, hcode, hcount⟩ := h
  rename_i parts decl stub code
  obtain ⟨honce, hexceptions⟩ := renamed_exceptionsAttribute hparts hg hn
  obtain ⟨honce', hsignature⟩ := renamed_signatureAttribute hparts hg hn
  refine ⟨rfl, rfl, rfl, honce, honce', code, parts.exceptionsAttribute cf.pool,
    parts.signatureAttribute cf.pool, ?_, ?_, namedLowest_of_settled hn hcode, hexceptions,
    hsignature⟩
  · rw [List.toList_toArray, MethodParts.leading, ← List.append_assoc, ← hparts.others]
    rfl
  · rw [length_of_stubRequest hcode, isSome_of_methodDecl hdecl hstub]
    cases m.access.isBodiless <;> rfl

/-- A class file with stubs for bodies keeps what a class keeps. -/
theorem keeps_of_stubbedClass {exceptionClass : String} {cf stubbed : ClassFile} (hfits : cf.Fits)
    (h : stubbedClass exceptionClass cf = .ok stubbed) : cf.Keeps stubbed := by
  obtain ⟨-, last, members, hrun, rfl⟩ := (stubbedClass_eq_ok hfits).mp h
  have hg := hrun.growsInto
  have hn := hrun.numbered hfits.numbered
  refine ⟨rfl, rfl, rfl, rfl, rfl, rfl, rfl, rfl, rfl, hg, ?_⟩
  rw [List.toList_toArray]
  exact (hrun.settled (GrowsInto.refl last)).imp fun m member hstep => hstep.keeps hg hn

/-- Whatever was read and stubbed, the class file behind the bytes that come out keeps everything
but the bodies of its methods. -/
theorem keeps_of_stubClass {config : Config} {bytes out : Bytes}
    (h : stubClass config bytes = .ok out) :
    ∃ original stubbed, ClassFile.decode bytes = .ok original ∧
      checkedStub config original = .ok stubbed ∧ out = stubbed.encode ∧
        original.Keeps stubbed := by
  obtain ⟨original, stubbed, hdecode, hchecked, hout⟩ := stubClass_eq_ok.mp h
  obtain ⟨hstubbed, -⟩ := checkedStub_eq_ok.mp hchecked
  have hkeeps := keeps_of_stubbedClass (ClassFile.fits_of_decode hdecode) hstubbed
  exact ⟨original, stubbed, hdecode, hchecked, hout, hkeeps⟩

theorem keeps_of_stubClass_example : stubClass {} exampleClass.encode = .ok exampleStub.encode ∧
    ∃ original stubbed, ClassFile.decode exampleClass.encode = .ok original ∧
      checkedStub {} original = .ok stubbed ∧ exampleStub.encode = stubbed.encode ∧
        original.Keeps stubbed :=
  ⟨stubClass_exampleClass, keeps_of_stubClass stubClass_exampleClass⟩

end JvmStub
