/-
`RoundTrip.lean` -- class files and their bytes.

`ClassFile.Fits` collects what the two-byte and four-byte fields of the format
ask of a class file. Everything but the pool has one spelling, so a class file is
read exactly from the bytes that have a spelling of its pool in the middle; that
is `ClassFile.decode_eq_ok`, and what is decoded fits.

The encoding of a pool is one of its spellings as long as the number of its slots
can be written. So the class files that decode from their own bytes are those
that fit and have at most 65534 slots, which `ClassFile.decode_encode` says in
terms of the format alone.
-/
import JvmStub.Proofs.ClassFile.Pool

set_option autoImplicit false

namespace JvmStub

open Decoder

/-- The class file can be written into the fields of the format; the number of its slots is
bounded only by what a slot can say. -/
structure ClassFile.Fits (cf : ClassFile) : Prop where
  magic : cf.magic = classMagic
  numbered : cf.pool.Numbered
  wellSlotted : WellSlotted cf.pool.constants.toList
  constants : ∀ c ∈ cf.pool.constants.toList, c.Fits
  interfaces : cf.interfaces.size ≤ 65535
  fields : cf.fields.size ≤ 65535 ∧ ∀ m ∈ cf.fields.toList, m.Fits
  methods : cf.methods.size ≤ 65535 ∧ ∀ m ∈ cf.methods.toList, m.Fits
  attributes : AttributesFit cf.attributes

/-! ## The pool -/

/-- The bytes stand for the pool: a count, and the constants of the slots that it declares. A count
of zero is one of no slots. -/
def ConstantPool.SpelledBy (pool : ConstantPool) (bytes : Bytes) : Prop :=
  ∃ (count : UInt16) (spelling : Bytes), bytes = Bytes.u2 count ++ spelling ∧
    Spells pool.constants.toList spelling ∧ Declared (count.toNat - 1) pool.constants.toList

theorem reads_decodePool : Reads decodePool ConstantPool.SpelledBy := by
  intro c pool later
  unfold decodePool
  rw [inverts_u2.bind_eq_ok]
  constructor
  · rintro ⟨count, mid, ⟨-, hcount⟩, h⟩
    obtain ⟨xs, last, hread, h⟩ := decoder_bind_eq_ok.mp h
    obtain ⟨cs, spelling, rfl, hspells, hdeclared, hpast⟩ := spells_of_decodeConstantsOnto hread
    cases h
    exact ⟨_, ⟨count, spelling, rfl, by simpa using hspells, by simpa using hdeclared⟩,
      Cursor.past_append.mpr ⟨mid, hcount, hpast⟩⟩
  · rintro ⟨_, ⟨count, spelling, rfl, hspells, hdeclared⟩, hpast⟩
    obtain ⟨mid, hcount, hpast⟩ := Cursor.past_append.mp hpast
    have hread := decodeConstantsOnto_of_spells hspells hdeclared #[] hpast
    refine ⟨count, mid, ⟨trivial, hcount⟩, decoder_bind_eq_ok.mpr ⟨_, later, hread, ?_⟩⟩
    simp

/-- The slots that were read have numbers, also the one that the count left out. -/
theorem ConstantPool.SpelledBy.numbered {pool : ConstantPool} {bytes : Bytes}
    (h : pool.SpelledBy bytes) : pool.Numbered := by
  obtain ⟨count, spelling, -, -, hdeclared⟩ := h
  have hlt := count.toNat_lt
  have hlen : pool.constants.toList.length = pool.size := Array.length_toList
  have hcases := hdeclared.length_cases
  rw [ConstantPool.Numbered]
  omega

/-- The encoding of a pool stands for it, as long as the number of its slots can be written. -/
theorem ConstantPool.spelledBy_encode {pool : ConstantPool} (hsize : pool.size ≤ 65534)
    (hslots : WellSlotted pool.constants.toList) (hfits : ∀ c ∈ pool.constants.toList, c.Fits) :
    pool.SpelledBy pool.encode := by
  -- here the bound on the size is used: one slot more and the count would be cut
  have hword : (UInt16.ofNat (pool.size + 1)).toNat = pool.size + 1 :=
    UInt16.toNat_ofNat_of_lt' (show _ < 65536 by omega)
  have hlen : pool.constants.toList.length = pool.size := Array.length_toList
  refine ⟨UInt16.ofNat (pool.size + 1), _, ?_, spells_encode hslots hfits, ?_⟩
  · rw [Bytes.u2, hword]
    rfl
  · rw [hword, Nat.add_sub_cancel, ← hlen]
    exact hslots.declared

/-- A count is written as a word exactly when it is that word cut to sixteen bits. -/
theorem count2_eq_u2 {n : Nat} {count : UInt16} :
    Bytes.count2 n = Bytes.u2 count ↔ count.toNat = n % 65536 := by
  have hlt := count.toNat_lt
  rw [Bytes.count2, Bytes.u2]
  constructor
  · intro h
    have hnumber := congrArg Bytes.number h
    rw [Bytes.number_bigEndian, Bytes.number_bigEndian] at hnumber
    omega
  · intro h
    rw [h]
    exact (Bytes.bigEndian_mod 2 n).symm

/-- The encoding of a pool is a spelling exactly when its count is the one in front and its
constants are written as they are spelled. -/
theorem ConstantPool.encode_eq_iff {pool : ConstantPool} {count : UInt16} {spelling : Bytes} :
    pool.encode = Bytes.u2 count ++ spelling ↔
      count.toNat = (pool.size + 1) % 65536 ∧
        pool.constants.toList.flatMap Constant.encode = spelling := by
  rw [ConstantPool.encode, ← count2_eq_u2]
  constructor
  · intro h
    exact List.append_inj h (by rw [Bytes.count2, Bytes.u2, Bytes.length_bigEndian,
      Bytes.length_bigEndian])
  · rintro ⟨hcount, hconstants⟩
    rw [hcount, hconstants]

/-- A pool that its own encoding stands for has no more slots than can be counted: one more, and
the count in front is zero. -/
theorem ConstantPool.size_le_of_spelledBy_encode {pool : ConstantPool}
    (h : pool.SpelledBy pool.encode) : pool.size ≤ 65534 := by
  have hnumbered : pool.size ≤ 65535 := h.numbered
  obtain ⟨count, spelling, hencode, -, hdeclared⟩ := h
  obtain ⟨hcount, -⟩ := ConstantPool.encode_eq_iff.mp hencode
  have hlen : pool.constants.toList.length = pool.size := Array.length_toList
  by_contra hlarge
  have hzero : count.toNat - 1 = 0 := by omega
  rw [hzero] at hdeclared
  obtain ⟨hnone, -⟩ | ⟨-, hwide⟩ := hdeclared.length_cases
  · omega
  · exact not_wideAt_zero hwide

/-! ## The class file -/

namespace ClassFile

/-- The bytes in front of the pool. -/
def front (cf : ClassFile) : Bytes := Bytes.u4 cf.magic ++ (Bytes.u2 cf.minor ++ Bytes.u2 cf.major)

/-- The bytes behind the pool. -/
def back (cf : ClassFile) : Bytes :=
  Bytes.u2 cf.access ++ (Bytes.u2 cf.thisClass ++ (Bytes.u2 cf.superClass ++
    (encodeSlots cf.interfaces ++ (encodeMembers cf.fields ++ (encodeMembers cf.methods ++
      encodeAttributes cf.attributes)))))

theorem encode_eq (cf : ClassFile) : cf.encode = cf.front ++ (cf.pool.encode ++ cf.back) := by
  simp only [encode, front, back, List.append_assoc]

/-- Only the pool decides whether bytes around it are the encoding. -/
theorem encode_eq_iff {cf : ClassFile} {pool : Bytes} :
    cf.encode = cf.front ++ (pool ++ cf.back) ↔ cf.pool.encode = pool := by
  rw [encode_eq, List.append_cancel_left_eq, List.append_cancel_right_eq]

/-- The bytes stand for the class file. Only its pool can be spelled in several ways. -/
def SpelledBy (cf : ClassFile) (bytes : Bytes) : Prop :=
  ∃ pool, cf.pool.SpelledBy pool ∧ bytes = cf.front ++ (pool ++ cf.back)

end ClassFile

theorem reads_decodeClassFile :
    Reads decodeClassFile fun cf bytes => cf.Fits ∧ cf.SpelledBy bytes := by
  intro c cf later
  unfold decodeClassFile
  constructor
  · intro h
    obtain ⟨magic, m₁, ⟨-, hmagic⟩, h⟩ := inverts_u4.bind_eq_ok.mp h
    -- of the fixed fields only the magic number is looked at; the rest is taken as it is
    by_cases hword : magic = classMagic
    · rw [if_neg (not_not.mpr hword)] at h
      obtain ⟨minor, m₂, ⟨-, hminor⟩, h⟩ := inverts_u2.bind_eq_ok.mp h
      obtain ⟨major, m₃, ⟨-, hmajor⟩, h⟩ := inverts_u2.bind_eq_ok.mp h
      obtain ⟨pool, m₄, hpool, h⟩ := decoder_bind_eq_ok.mp h
      obtain ⟨access, m₅, ⟨-, haccess⟩, h⟩ := inverts_u2.bind_eq_ok.mp h
      obtain ⟨thisClass, m₆, ⟨-, hthis⟩, h⟩ := inverts_u2.bind_eq_ok.mp h
      obtain ⟨superClass, m₇, ⟨-, hsuper⟩, h⟩ := inverts_u2.bind_eq_ok.mp h
      obtain ⟨interfaces, m₈, ⟨hcount, hinterfaces⟩, h⟩ := inverts_slots.bind_eq_ok.mp h
      obtain ⟨fields, m₉, ⟨hfieldsFit, hfields⟩, h⟩ := inverts_members.bind_eq_ok.mp h
      obtain ⟨methods, m₁₀, ⟨hmethodsFit, hmethods⟩, h⟩ := inverts_members.bind_eq_ok.mp h
      obtain ⟨attributes, m₁₁, ⟨hattributesFit, hattributes⟩, h⟩ :=
        inverts_attributes.bind_eq_ok.mp h
      cases h
      obtain ⟨spelling, hspelled, hpast⟩ := (reads_decodePool _ _ _).mp hpool
      obtain ⟨count, constants, -, hspells, -⟩ := id hspelled
      refine ⟨_, ⟨⟨hword, hspelled.numbered, hspells.wellSlotted, hspells.fits, hcount, hfieldsFit,
        hmethodsFit, hattributesFit⟩, spelling, hspelled, rfl⟩, ?_⟩
      simp only [ClassFile.front, ClassFile.back, List.append_assoc, Cursor.past_append]
      exact ⟨m₁, hmagic, m₂, hminor, m₃, hmajor, m₄, hpast, m₅, haccess, m₆, hthis, m₇, hsuper,
        m₈, hinterfaces, m₉, hfields, m₁₀, hmethods, hattributes⟩
    · rw [if_pos hword] at h
      cases h
  · rintro ⟨_, ⟨hfits, spelling, hspelled, rfl⟩, hpast⟩
    -- the bytes are taken apart once; each part is then read in its turn
    simp only [ClassFile.front, ClassFile.back, List.append_assoc, Cursor.past_append] at hpast
    obtain ⟨m₁, hmagic, m₂, hminor, m₃, hmajor, m₄, hpool, m₅, haccess, m₆, hthis, m₇, hsuper,
      m₈, hinterfaces, m₉, hfields, m₁₀, hmethods, hattributes⟩ := hpast
    refine inverts_u4.bind_eq_ok.mpr ⟨cf.magic, m₁, ⟨trivial, hmagic⟩, ?_⟩
    rw [if_neg (not_not.mpr hfits.magic)]
    refine inverts_u2.bind_eq_ok.mpr ⟨_, m₂, ⟨trivial, hminor⟩, ?_⟩
    refine inverts_u2.bind_eq_ok.mpr ⟨_, m₃, ⟨trivial, hmajor⟩, ?_⟩
    refine decoder_bind_eq_ok.mpr
      ⟨_, m₄, (reads_decodePool _ _ _).mpr ⟨spelling, hspelled, hpool⟩, ?_⟩
    refine inverts_u2.bind_eq_ok.mpr ⟨_, m₅, ⟨trivial, haccess⟩, ?_⟩
    refine inverts_u2.bind_eq_ok.mpr ⟨_, m₆, ⟨trivial, hthis⟩, ?_⟩
    refine inverts_u2.bind_eq_ok.mpr ⟨_, m₇, ⟨trivial, hsuper⟩, ?_⟩
    refine inverts_slots.bind_eq_ok.mpr ⟨_, m₈, ⟨hfits.interfaces, hinterfaces⟩, ?_⟩
    refine inverts_members.bind_eq_ok.mpr ⟨_, m₉, ⟨hfits.fields, hfields⟩, ?_⟩
    refine inverts_members.bind_eq_ok.mpr ⟨_, m₁₀, ⟨hfits.methods, hmethods⟩, ?_⟩
    exact inverts_attributes.bind_eq_ok.mpr ⟨_, later, ⟨hfits.attributes, hattributes⟩, rfl⟩

namespace ClassFile

variable {cf : ClassFile} {bytes : Bytes}

/-- A class file is decoded exactly from the bytes that stand for it. -/
theorem decode_eq_ok : ClassFile.decode bytes = .ok cf ↔ cf.Fits ∧ cf.SpelledBy bytes :=
  reads_decodeClassFile.runAll_eq_ok

/-- What is decoded fits. -/
theorem fits_of_decode (h : ClassFile.decode bytes = .ok cf) : cf.Fits := (decode_eq_ok.mp h).1

/-- A class file that fits, and whose number of slots can be written, decodes from its bytes. -/
theorem decode_encode_of_fits (h : cf.Fits) (hsize : cf.pool.size ≤ 65534) :
    ClassFile.decode cf.encode = .ok cf :=
  decode_eq_ok.mpr
    ⟨h, _, ConstantPool.spelledBy_encode hsize h.wellSlotted h.constants, encode_eq cf⟩

/-- A class file that decodes from its own bytes has no more slots than can be counted. -/
theorem size_le_of_decode_encode (h : ClassFile.decode cf.encode = .ok cf) :
    cf.pool.size ≤ 65534 := by
  obtain ⟨-, pool, hspelled, hencode⟩ := decode_eq_ok.mp h
  rw [← encode_eq_iff.mp hencode] at hspelled
  exact ConstantPool.size_le_of_spelledBy_encode hspelled

/-- A class file decodes from its own bytes exactly when it fits and the number of its slots can be
written. -/
theorem decode_encode_iff_fits :
    ClassFile.decode cf.encode = .ok cf ↔ cf.Fits ∧ cf.pool.size ≤ 65534 :=
  ⟨fun h => ⟨fits_of_decode h, size_le_of_decode_encode h⟩,
    fun ⟨hfits, hsize⟩ => decode_encode_of_fits hfits hsize⟩

/-- What the format can express. -/
structure Expressible (cf : ClassFile) : Prop where
  magic : cf.magic = classMagic
  /-- The count of slots is one more than there are, and has two bytes. -/
  slots : cf.pool.size ≤ 65534
  /-- The slots without a constant are those behind a long or a double. -/
  secondSlots : ∀ i, cf.pool.constants[i]? = some .unusable ↔
    ∃ j c, i = j + 1 ∧ cf.pool.constants[j]? = some c ∧ c.isWide = true
  texts : ∀ text, .utf8 text ∈ cf.pool.constants → (ModifiedUtf8.encode text).length ≤ 65535
  interfaces : cf.interfaces.size ≤ 65535
  fields : cf.fields.size ≤ 65535
  methods : cf.methods.size ≤ 65535
  /-- The attributes of a member fit their count, and their payloads their lengths. -/
  members : ∀ m, m ∈ cf.fields ∨ m ∈ cf.methods → AttributesFit m.attributes
  attributes : AttributesFit cf.attributes

/-- A class file can be expressed when it fits and the number of its slots can be written. -/
theorem expressible_iff : cf.Expressible ↔ cf.Fits ∧ cf.pool.size ≤ 65534 := by
  constructor
  · intro h
    refine ⟨?_, h.slots⟩
    constructor
    · exact h.magic
    · exact Nat.le_trans h.slots (by decide)
    · refine wellSlotted_iff.mpr fun i => ?_
      simpa [WideAt] using h.secondSlots i
    · intro c hc
      cases c with
      | utf8 text => exact h.texts text (Array.mem_toList_iff.mp hc)
      | _ => trivial
    · exact h.interfaces
    · exact ⟨h.fields, fun m hm => h.members m (.inl (Array.mem_toList_iff.mp hm))⟩
    · exact ⟨h.methods, fun m hm => h.members m (.inr (Array.mem_toList_iff.mp hm))⟩
    · exact h.attributes
  · rintro ⟨h, hsize⟩
    constructor
    · exact h.magic
    · exact hsize
    · intro i
      simpa [WideAt] using wellSlotted_iff.mp h.wellSlotted i
    · exact fun text htext => h.constants _ (Array.mem_toList_iff.mpr htext)
    · exact h.interfaces
    · exact h.fields.1
    · exact h.methods.1
    · rintro m (hm | hm)
      · exact h.fields.2 m (Array.mem_toList_iff.mpr hm)
      · exact h.methods.2 m (Array.mem_toList_iff.mpr hm)
    · exact h.attributes

/-- Decoding undoes encoding for every class file that the format can express, and for no
other. -/
theorem decode_encode (cf : ClassFile) :
    ClassFile.decode cf.encode = .ok cf ↔ cf.Expressible := by
  rw [decode_encode_iff_fits, expressible_iff]

end ClassFile

end JvmStub
