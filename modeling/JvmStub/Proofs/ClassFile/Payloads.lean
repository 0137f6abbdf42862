/-
`Payloads.lean` -- attributes, members and the payloads of attributes.

Each decoder of these parts inverts its encoder on the values whose counts and
lengths fit their fields. Since `Inverts` is an equivalence, it also says that a
part that was read fits, and that its bytes were those that are written for it.
-/
import JvmStub.ClassFile.Decode
import JvmStub.ClassFile.Encode
import JvmStub.Proofs.ClassFile.Reading
import Mathlib.Data.Set.Function

set_option autoImplicit false

namespace JvmStub

open Decoder

/-! ## What fits -/

/-- The length of the payload fits its field. -/
def Attribute.Fits (a : Attribute) : Prop := a.info.length < 2 ^ 32

/-- A table of attributes that fits its count, each attribute fitting its length. -/
def AttributesFit (attributes : Array Attribute) : Prop :=
  attributes.size ≤ 65535 ∧ ∀ a ∈ attributes.toList, a.Fits

/-- The attributes of the field or method fit. -/
def Member.Fits (m : Member) : Prop := AttributesFit m.attributes

/-- The bytecode and the tables of the body fit. -/
structure Code.Fits (code : Code) : Prop where
  bytecode : code.bytecode.length < 2 ^ 32
  handlers : code.handlers.size ≤ 65535
  attributes : AttributesFit code.attributes

/-! ## Attributes -/

/-- A length that fits its field is a word. -/
theorem count4_eq_u4 {n : Nat} (hn : n < 2 ^ 32) : Bytes.count4 n = Bytes.u4 (UInt32.ofNat n) := by
  rw [Bytes.u4, UInt32.toNat_ofNat_of_lt' hn, Bytes.count4]

/-- A length and as many bytes. -/
theorem inverts_counted : Inverts (do take (← u4).toNat)
    (fun bytes => Bytes.count4 bytes.length ++ bytes) (fun bytes => bytes.length < 2 ^ 32) := by
  intro c bytes later
  rw [inverts_u4.bind_eq_ok]
  constructor
  · rintro ⟨length, mid, ⟨-, hlength⟩, htake⟩
    obtain ⟨hlen, hpast⟩ := take_eq_ok.mp htake
    have hlt : bytes.length < 2 ^ 32 := hlen ▸ length.toNat_lt
    refine ⟨hlt, Cursor.past_append.mpr ⟨mid, ?_, hpast⟩⟩
    rw [count4_eq_u4 hlt, hlen, UInt32.ofNat_toNat]
    exact hlength
  · rintro ⟨hlt, hpast⟩
    obtain ⟨mid, hlength, hpast⟩ := Cursor.past_append.mp hpast
    rw [count4_eq_u4 hlt] at hlength
    have hword := UInt32.toNat_ofNat_of_lt' hlt
    exact ⟨_, mid, ⟨trivial, hlength⟩, take_eq_ok.mpr ⟨hword.symm, hpast⟩⟩

/-- An attribute is its name and its payload, behind the length of the payload. -/
theorem inverts_decodeAttribute : Inverts decodeAttribute Attribute.encode Attribute.Fits := by
  intro c a later
  -- length and bytes are one step here, as `inverts_counted` reads them
  have hsame : decodeAttribute = (do
      let nameSlot ← u2
      let info ← (do take (← u4).toNat)
      return ⟨nameSlot, info⟩) := by
    funext c
    simp [decodeAttribute]
  rw [hsame, inverts_u2.bind_eq_ok]
  constructor
  · rintro ⟨nameSlot, mid, ⟨-, hname⟩, h⟩
    obtain ⟨info, last, ⟨hfits, hinfo⟩, h⟩ := inverts_counted.bind_eq_ok.mp h
    cases h
    exact ⟨hfits, Cursor.past_append.mpr ⟨mid, hname, hinfo⟩⟩
  · rintro ⟨hfits, hpast⟩
    obtain ⟨mid, hname, hinfo⟩ := Cursor.past_append.mp hpast
    exact ⟨a.nameSlot, mid, ⟨trivial, hname⟩,
      inverts_counted.bind_eq_ok.mpr ⟨a.info, later, ⟨hfits, hinfo⟩, rfl⟩⟩

theorem inverts_attributes : Inverts (table decodeAttribute) encodeAttributes AttributesFit :=
  inverts_table inverts_decodeAttribute

/-- A table of slots. -/
theorem inverts_slots :
    Inverts (table u2) encodeSlots (fun slots => slots.size ≤ 65535) := by
  intro c slots later
  rw [inverts_table inverts_u2 c slots later]
  simp [encodeSlots]

/-! ## Members -/

/-- A field or method is three words and its attributes. -/
theorem inverts_decodeMember : Inverts decodeMember Member.encode Member.Fits := by
  intro c m later
  unfold decodeMember
  constructor
  · intro h
    obtain ⟨access, mid, ⟨-, haccess⟩, h⟩ := inverts_u2.bind_eq_ok.mp h
    obtain ⟨nameSlot, mid', ⟨-, hname⟩, h⟩ := inverts_u2.bind_eq_ok.mp h
    obtain ⟨descriptorSlot, mid'', ⟨-, hdescriptor⟩, h⟩ := inverts_u2.bind_eq_ok.mp h
    obtain ⟨attributes, last, ⟨hfits, hattributes⟩, h⟩ := inverts_attributes.bind_eq_ok.mp h
    cases h
    refine ⟨hfits, ?_⟩
    simp only [Member.encode, Cursor.past_append]
    exact ⟨mid, haccess, mid', hname, mid'', hdescriptor, hattributes⟩
  · rintro ⟨hfits, hpast⟩
    simp only [Member.encode, Cursor.past_append] at hpast
    obtain ⟨mid, haccess, mid', hname, mid'', hdescriptor, hattributes⟩ := hpast
    refine inverts_u2.bind_eq_ok.mpr ⟨_, mid, ⟨trivial, haccess⟩, ?_⟩
    refine inverts_u2.bind_eq_ok.mpr ⟨_, mid', ⟨trivial, hname⟩, ?_⟩
    refine inverts_u2.bind_eq_ok.mpr ⟨_, mid'', ⟨trivial, hdescriptor⟩, ?_⟩
    exact inverts_attributes.bind_eq_ok.mpr ⟨_, later, ⟨hfits, hattributes⟩, rfl⟩

/-- A table of fields or methods is read as it is written when it fits. -/
theorem inverts_members : Inverts (table decodeMember) encodeMembers
    (fun members => members.size ≤ 65535 ∧ ∀ m ∈ members.toList, m.Fits) :=
  inverts_table inverts_decodeMember

/-! ## Payloads -/

theorem inverts_decodeHandler :
    Inverts decodeHandler ExceptionHandler.encode (fun _ => True) := by
  intro c handler later
  unfold decodeHandler
  constructor
  · intro h
    obtain ⟨start, mid, ⟨-, hstart⟩, h⟩ := inverts_u2.bind_eq_ok.mp h
    obtain ⟨stop, mid', ⟨-, hstop⟩, h⟩ := inverts_u2.bind_eq_ok.mp h
    obtain ⟨entry, mid'', ⟨-, hentry⟩, h⟩ := inverts_u2.bind_eq_ok.mp h
    obtain ⟨catchType, last, ⟨-, hcatch⟩, h⟩ := inverts_u2.bind_eq_ok.mp h
    cases h
    refine ⟨trivial, ?_⟩
    simp only [ExceptionHandler.encode, Cursor.past_append]
    exact ⟨mid, hstart, mid', hstop, mid'', hentry, hcatch⟩
  · rintro ⟨-, hpast⟩
    simp only [ExceptionHandler.encode, Cursor.past_append] at hpast
    obtain ⟨mid, hstart, mid', hstop, mid'', hentry, hcatch⟩ := hpast
    refine inverts_u2.bind_eq_ok.mpr ⟨_, mid, ⟨trivial, hstart⟩, ?_⟩
    refine inverts_u2.bind_eq_ok.mpr ⟨_, mid', ⟨trivial, hstop⟩, ?_⟩
    refine inverts_u2.bind_eq_ok.mpr ⟨_, mid'', ⟨trivial, hentry⟩, ?_⟩
    exact inverts_u2.bind_eq_ok.mpr ⟨_, later, ⟨trivial, hcatch⟩, rfl⟩

/-- A body is its two limits, its bytecode behind its length, and its two tables. -/
theorem inverts_decodeCode : Inverts decodeCode Code.encode Code.Fits := by
  intro c code later
  -- length and bytes are one step here too
  have hsame : decodeCode = (do
      let maxStack ← u2
      let maxLocals ← u2
      let bytecode ← (do take (← u4).toNat)
      let handlers ← table decodeHandler
      let attributes ← table decodeAttribute
      return { maxStack, maxLocals, bytecode, handlers, attributes }) := by
    funext c
    simp [decodeCode]
  have hhandlers := inverts_table inverts_decodeHandler
  rw [hsame]
  constructor
  · intro h
    obtain ⟨maxStack, mid, ⟨-, hstack⟩, h⟩ := inverts_u2.bind_eq_ok.mp h
    obtain ⟨maxLocals, mid', ⟨-, hlocals⟩, h⟩ := inverts_u2.bind_eq_ok.mp h
    obtain ⟨bytecode, mid'', ⟨hlength, hbytecode⟩, h⟩ := inverts_counted.bind_eq_ok.mp h
    obtain ⟨handlers, mid₃, ⟨⟨hcount, -⟩, htable⟩, h⟩ := hhandlers.bind_eq_ok.mp h
    obtain ⟨attributes, last, ⟨hfits, hattributes⟩, h⟩ := inverts_attributes.bind_eq_ok.mp h
    cases h
    refine ⟨⟨hlength, hcount, hfits⟩, ?_⟩
    simp only [Code.encode, Cursor.past_append] at hbytecode htable ⊢
    obtain ⟨a, hcounted, hbytes⟩ := hbytecode
    obtain ⟨b, hcounted', hentries⟩ := htable
    exact ⟨mid, hstack, mid', hlocals, a, hcounted, mid'', hbytes, b, hcounted', mid₃, hentries,
      hattributes⟩
  · rintro ⟨⟨hlength, hcount, hfits⟩, hpast⟩
    simp only [Code.encode, Cursor.past_append] at hpast
    obtain ⟨mid, hstack, mid', hlocals, a, hcounted, mid'', hbytes, b, hcounted', mid₃, hentries,
      hattributes⟩ := hpast
    refine inverts_u2.bind_eq_ok.mpr ⟨_, mid, ⟨trivial, hstack⟩, ?_⟩
    refine inverts_u2.bind_eq_ok.mpr ⟨_, mid', ⟨trivial, hlocals⟩, ?_⟩
    refine inverts_counted.bind_eq_ok.mpr
      ⟨_, mid'', ⟨hlength, Cursor.past_append.mpr ⟨a, hcounted, hbytes⟩⟩, ?_⟩
    refine hhandlers.bind_eq_ok.mpr
      ⟨_, mid₃, ⟨⟨hcount, by simp⟩, Cursor.past_append.mpr ⟨b, hcounted', hentries⟩⟩, ?_⟩
    exact inverts_attributes.bind_eq_ok.mpr ⟨_, later, ⟨hfits, hattributes⟩, rfl⟩

/-- The payloads that a body can be read from are the encodings of the bodies that fit. -/
theorem Code.decode_eq_ok {info : Bytes} {code : Code} :
    Code.decode info = .ok code ↔ code.Fits ∧ info = code.encode :=
  runAll_eq_ok inverts_decodeCode

/-- The payloads that declared exceptions can be read from are the encodings of their lists. -/
theorem decodeExceptions_eq_ok {info : Bytes} {classes : Array Slot} :
    decodeExceptions info = .ok classes ↔
      classes.size ≤ 65535 ∧ info = encodeExceptions classes :=
  runAll_eq_ok inverts_slots

/-- The payloads that a signature can be read from are the two bytes of a slot. -/
theorem decodeSignature_eq_ok {info : Bytes} {slot : Slot} :
    decodeSignature info = .ok slot ↔ info = encodeSignature slot := by
  unfold decodeSignature encodeSignature Bytes.u2
  constructor
  · intro h
    by_cases hlen : info.length = 2
    · rw [if_pos hlen] at h
      cases h
      have hlt : Bytes.number info < 65536 := by
        have hnumber := Bytes.number_lt info
        rwa [hlen] at hnumber
      rw [UInt16.toNat_ofNat_of_lt' hlt, ← hlen, Bytes.bigEndian_number]
    · rw [if_neg hlen] at h
      cases h
  · rintro rfl
    have hlt := slot.toNat_lt
    have hcut : slot.toNat % 256 ^ 2 = slot.toNat := by omega
    rw [if_pos (Bytes.length_bigEndian _ _), Bytes.number_bigEndian, hcut, UInt16.ofNat_toNat]

/-! ## One to one

What was read is what is written again, and what was written is what is read; the encodings are
all that can be read. -/

/-- Where bytes are read as a value exactly when the value fits and is written as these bytes, the
values that fit and the bytes that can be read correspond one to one. -/
theorem bijOn_of_decode_eq_ok {α : Type} {decode : Bytes → Except ReadError α} {encode : α → Bytes}
    {fits : α → Prop} (h : ∀ {info x}, decode info = .ok x ↔ fits x ∧ info = encode x) :
    Set.BijOn encode {x | fits x} {info | ∃ x, decode info = .ok x} := by
  refine ⟨fun x hx => ⟨x, h.mpr ⟨hx, rfl⟩⟩, fun x hx y hy heq => ?_, ?_⟩
  · have hread : decode (encode x) = .ok x := h.mpr ⟨hx, rfl⟩
    have hread' : decode (encode x) = .ok y := h.mpr ⟨hy, heq⟩
    exact Except.ok.inj (hread.symm.trans hread')
  · rintro info ⟨x, hread⟩
    obtain ⟨hx, hinfo⟩ := h.mp hread
    exact ⟨x, hx, hinfo.symm⟩

/-- The payloads that a body can be read from and the bodies that fit correspond one to one, by
writing in one direction and by reading in the other. So do the payloads that declared exceptions
can be read from and the lists of at most 65535 slots. -/
theorem payloads_correspond :
    (Set.BijOn Code.encode {code | code.Fits} {info | ∃ code, Code.decode info = .ok code} ∧
      ∀ info code, Code.decode info = .ok code ↔ code.Fits ∧ code.encode = info) ∧
    (Set.BijOn encodeExceptions {classes | classes.size ≤ 65535}
        {info | ∃ classes, decodeExceptions info = .ok classes} ∧
      ∀ info classes, decodeExceptions info = .ok classes ↔
        classes.size ≤ 65535 ∧ encodeExceptions classes = info) := by
  refine ⟨⟨bijOn_of_decode_eq_ok Code.decode_eq_ok, fun info code => ?_⟩,
    bijOn_of_decode_eq_ok decodeExceptions_eq_ok, fun info classes => ?_⟩
  · rw [Code.decode_eq_ok, eq_comm (a := info)]
  · rw [decodeExceptions_eq_ok, eq_comm (a := info)]

/-- A body with a handler and an attribute. -/
example : Code.decode [0, 2, 0, 0, 0, 0, 0, 4, 0xBB, 0, 2, 0x59, 0, 1, 0, 0, 0, 3, 0, 3, 0, 0, 0, 1,
    0, 9, 0, 0, 0, 2, 0, 7] =
    .ok ⟨2, 0, [0xBB, 0, 2, 0x59], #[⟨0, 3, 3, 0⟩], #[⟨9, [0, 7]⟩]⟩ := by decide +kernel

end JvmStub
