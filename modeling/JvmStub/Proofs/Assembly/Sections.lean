/-
`Sections.lean` -- the attributes of a method that was told, told apart.

An assembly puts the attributes of a method down in sections: the body, the
declared exceptions, the generic signature, and what was sent as attributes. Each
section is read back as what it was written for, so the method of the class file
says its declaration, its body and its other attributes again. That is
`Member.Has.tells`, and `Member.Has.fits` says that a method of which every piece
fits its field fits itself.
-/
import JvmStub.Proofs.Assembly.MethodRuns
import JvmStub.Proofs.Event.Told

set_option autoImplicit false

namespace JvmStub

open ConstantPool

variable {pool : ConstantPool} {cf : ClassFile} {m : Member} {decl : MethodDecl}
  {code : Option Code} {others : List Attribute}

/-! ## What fits -/

/-- What is sent inside a method fits. -/
def MethodEvent.Fits : MethodEvent → Prop
  | .attribute a => a.Fits
  | .body code => code.Fits ∧ code.encode.length < 2 ^ 32
  | .beginBody | .instruction _ | .endBody .. | .finish => True

theorem length_encodeSlots (slots : Array Slot) :
    (encodeSlots slots).length = 2 + 2 * slots.size := by
  have hslots : ∀ xs : List Slot, (xs.flatMap Bytes.u2).length = 2 * xs.length := by
    intro xs
    induction xs with
    | nil => rfl
    | cons x xs ih =>
      rw [List.flatMap_cons, List.length_append, ih, Bytes.u2, Bytes.length_bigEndian,
        List.length_cons]
      omega
  rw [encodeSlots, List.length_append, hslots, Bytes.count2, Bytes.length_bigEndian,
    Array.length_toList]

/-- The attributes of a method fit when its body and the attributes sent with it do. -/
theorem Member.Has.fits (h : m.Has pool decl code others) (hlen : decl.exceptions.length ≤ 65535)
    (hcode : ∀ c ∈ code, c.encode.length < 2 ^ 32) (hothers : ∀ a ∈ others, a.Fits) : m.Fits := by
  obtain ⟨body, exceptions, signature, hattributes, hbody, hexceptions, hsignature⟩ := h.attributes
  refine ⟨h.count, ?_⟩
  rw [hattributes]
  intro a ha
  simp only [List.mem_append] at ha
  rcases ha with ((ha | ha) | ha) | ha
  · obtain ⟨c, hc, -, hinfo⟩ := exists_of_forall₂_mem hbody.flip ha
    rw [Attribute.Fits, hinfo]
    exact hcode c (by simpa using hc)
  · obtain ⟨classes, hclasses, -, slots, hinfo, hslots⟩ := exists_of_forall₂_mem hexceptions.flip ha
    have hsame : classes = decl.exceptions := by
      split at hclasses <;> simp_all
    have hsize : slots.size = decl.exceptions.length := by
      rw [← hsame, ← hslots.length_eq, Array.length_toList]
    rw [Attribute.Fits, hinfo, encodeExceptions, length_encodeSlots]
    omega
  · refine forall_mem_of_forall₂ hsignature (fun a text ⟨_, slot, hinfo, _⟩ => ?_) a ha
    rw [Attribute.Fits, hinfo, encodeSignature, Bytes.u2, Bytes.length_bigEndian]
    decide
  · exact hothers a ha

/-- A body fits when what it was told by does; one that was told instruction by instruction always
does. -/
theorem TellsBody.fits {events : List MethodEvent} (h : TellsBody pool events code)
    (hevents : ∀ e ∈ events, e.Fits) : ∀ c ∈ code, c.Fits ∧ c.encode.length < 2 ^ 32 := by
  intro c hc
  cases h with
  | none => cases hc
  | whole code =>
    cases hc
    exact hevents (.body _) (List.mem_singleton_self _)
  | @told is bytes maxStack maxLocals h hlen =>
    cases hc
    rw [maxCodeLength] at hlen
    have hlength : (Code.encode ⟨maxStack, maxLocals, bytes, #[], #[]⟩).length =
        bytes.length + 12 := by
      simp +arith [Code.encode, encodeAttributes, Bytes.u2, Bytes.count2, Bytes.count4]
    refine ⟨⟨?_, by simp, by simp [AttributesFit]⟩, ?_⟩
    · exact Nat.lt_of_le_of_lt hlen (by decide)
    · rw [hlength]
      omega

/-! ## What is read back -/

/-- Declared exceptions are read back from the attributes that list them. -/
theorem HoldsExceptions.listed {classes : List String} {attributes : List Attribute}
    (h : HoldsExceptions pool classes attributes) (hlen : classes.length ≤ 65535) :
    ∃ listed : Option (List (String × Slot)),
      List.Forall₂ (IsExceptions pool) attributes listed.toList ∧
        (listed.getD []).map (·.1) = classes := by
  unfold HoldsExceptions at h
  by_cases hempty : classes.isEmpty = true
  · rw [if_pos hempty, List.forall₂_nil_right_iff] at h
    refine ⟨none, by simp [h], ?_⟩
    simp [List.isEmpty_iff.mp hempty]
  · rw [if_neg hempty] at h
    obtain ⟨a, rfl, -, slots, hinfo, hslots⟩ := eq_singleton_of_forall₂ h
    have hsame : slots.toList.length = classes.length := hslots.length_eq
    obtain ⟨-, hnames⟩ := List.forall₂_iff_zip.mp hslots.flip
    refine ⟨some (classes.zip slots.toList), .cons ⟨?_, ?_, ?_⟩ .nil, ?_⟩
    · rw [List.length_zip, hsame, Nat.min_self]
      exact hlen
    · rw [List.map_snd_zip (Nat.le_of_eq hsame), Array.toArray_toList]
      exact hinfo
    · exact fun c hc => hnames hc
    · simp [List.map_fst_zip (Nat.le_of_eq hsame.symm)]

/-- A generic signature is read back from the attributes that name it. -/
theorem HoldsSignature.signed {signature : Option String} {attributes : List Attribute}
    (h : HoldsSignature pool signature attributes) :
    ∃ signed : Option (String × Slot),
      List.Forall₂ (IsSignature pool) attributes signed.toList ∧
        signed.map (·.1) = signature := by
  cases signature with
  | none =>
    rw [HoldsSignature, Option.toList_none, List.forall₂_nil_right_iff] at h
    exact ⟨none, by simp [h], rfl⟩
  | some text =>
    obtain ⟨a, rfl, -, slot, hsignature⟩ := eq_singleton_of_forall₂ h
    exact ⟨some (text, slot), .cons hsignature .nil, rfl⟩

/-- A body is read back from the attributes that hold it. -/
theorem HoldsBody.coded {attributes : List Attribute} (h : HoldsBody pool code attributes)
    (hcode : ∀ c ∈ code, c.Fits) :
    ∃ coded : Option Attribute, attributes = coded.toList ∧
      List.Forall₂ (fun a c => Code.decode a.info = .ok c) coded.toList code.toList := by
  cases code with
  | none =>
    rw [HoldsBody, Option.toList_none, List.forall₂_nil_right_iff] at h
    exact ⟨none, h, .nil⟩
  | some c =>
    obtain ⟨a, rfl, -, hinfo⟩ := eq_singleton_of_forall₂ h
    exact ⟨some a, rfl, .cons (Code.decode_eq_ok.mpr ⟨hcode c rfl, hinfo⟩) .nil⟩

/-- The declaration without the slots that it remembers. -/
def MethodDecl.withoutSlots (d : MethodDecl) : MethodDecl := { d with slots := none }

/-- Whether the name of the attribute can be found and is none of those that are told apart. -/
def Attribute.isForwarded (pool : ConstantPool) (a : Attribute) : Bool :=
  a.isOther pool && (a.name pool).toBool

/-- The attributes that are forwarded are the others, with a name that can be read. -/
theorem isForwarded_iff {pool : ConstantPool} {a : Attribute} : a.isForwarded pool = true ↔
    a.isOther pool = true ∧ ∃ text, a.name pool = .ok text := by
  rw [Attribute.isForwarded, Bool.and_eq_true]
  cases a.name pool <;> simp [Except.toBool]

/-- The method of a class file says what it was made of. -/
theorem Member.Has.tells (h : m.Has cf.pool decl code others)
    (hlen : decl.exceptions.length ≤ 65535) (hcode : ∀ c ∈ code, c.Fits)
    (hothers : ∀ a ∈ others, a.isForwarded cf.pool = true) :
    ∃ (told : ToldMethod) (parts : MethodParts), cf.TellsMethod m told parts ∧
      told.decl.withoutSlots = decl.withoutSlots ∧ told.attributes = others ∧ told.code = code := by
  obtain ⟨body, exceptions, signature, hattributes, hbody, hexceptions, hsignature⟩ := h.attributes
  obtain ⟨listed, hlisted, hclasses⟩ := hexceptions.listed hlen
  obtain ⟨signed, hsigned, htext⟩ := hsignature.signed
  obtain ⟨coded, hcoded, hdecoded⟩ := hbody.coded hcode
  let parts : MethodParts := ⟨coded, signed, listed, others.toArray⟩
  have hdescribe : parts.Describe cf.pool m.attributes.toList := by
    rw [hattributes]
    refine describe_of_sections ?_ ?_ ?_ (fun a ha => isForwarded_iff.mp (hothers a ha)) hcoded
      hlisted hsigned rfl
    · exact forall_mem_of_forall₂ hbody fun _ _ hc => hc.1
    · exact forall_mem_of_forall₂ hexceptions fun _ _ hc => hc.1
    · exact forall_mem_of_forall₂ hsignature fun _ _ hc => hc.1
  let slots : MemberSlots := ⟨m.nameSlot, m.descriptorSlot, signed.map (·.2),
    (listed.getD []).map (·.2)⟩
  refine ⟨⟨{ decl with slots := some slots }, others, code⟩, parts, ⟨parts_eq_ok.mpr hdescribe, ?_,
    rfl, hdecoded⟩, rfl, rfl, rfl⟩
  refine methodDecl_eq_ok.mpr ⟨h.name, h.descriptor, ?_⟩
  simp only [parts, slots, h.access, hclasses, htext]

end JvmStub
