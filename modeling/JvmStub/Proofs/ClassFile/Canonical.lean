/-
`Canonical.lean` -- class files that are read and written again.

A class file can be spelled in more ways than the one in which it is written. Its
count of slots may be zero where there are none, or end inside a wide constant;
and a text may be spelled by groups that are longer than they need be. The first
main statement is that these three are all: bytes that can be read are written
back as they are exactly when none of the three occurs. Two of them cannot make
up for each other, because a text is never written in more bytes than it was read
from and the count is compared by itself. The texts are looked for in the bytes,
as they were before they were read; `encodedTexts` finds those of the pool.

Whatever was read can be read again from the bytes that are written for it, with
one exception, which the second main statement names. A count of 65535 that ends
inside a wide constant declares one slot more than can be counted; the count that
is written for them is zero.
-/
import JvmStub.Proofs.ClassFile.RoundTrip

set_option autoImplicit false

namespace JvmStub

open Decoder

/-! ## Texts -/

namespace ModifiedUtf8

/-- The bytes are those that are written for the text they spell. -/
def Canonical (encoded : Bytes) : Prop := (decode encoded).map encode = some encoded

instance (encoded : Bytes) : Decidable (Canonical encoded) :=
  inferInstanceAs (Decidable (_ = _))

/-- A text is spelled canonically exactly when it is written back as it was read. -/
theorem canonical_iff {encoded : Bytes} {text : String} (h : decode encoded = some text) :
    Canonical encoded ↔ encode text = encoded := by
  rw [Canonical, h, Option.map_some, Option.some_inj]

/-- Spellings that are no longer than others are the same as a whole only if they are one by
one. -/
theorem NoLonger.append_eq_iff {xs xs' ys ys' : Bytes} (h : NoLonger xs xs')
    (h' : NoLonger ys ys') : xs ++ ys = xs' ++ ys' ↔ xs = xs' ∧ ys = ys' := by
  constructor
  · intro heq
    have hlen := congrArg List.length heq
    rw [List.length_append, List.length_append] at hlen
    have hle := h.1
    have hle' := h'.1
    exact ⟨h.2 (by omega), h'.2 (by omega)⟩
  · rintro ⟨rfl, rfl⟩
    rfl

end ModifiedUtf8

/-! ## The texts that bytes spell -/

namespace Constant

/-- The number of bytes behind the tag of a constant that is no text. -/
def bodyLength (tag : UInt8) : Nat :=
  match tag.toNat with
  | 3 | 4 | 9 | 10 | 11 | 12 | 17 | 18 => 4
  | 5 | 6 => 8
  | 15 => 3
  | _ => 2

/-- The text of a constant that is one. -/
def text? : Constant → Option String
  | utf8 text => some text
  | _ => none

/-- The encoded texts among the constants of the slots, which stand in front of the bytes. -/
def encodedTexts : (slots : Nat) → Bytes → List Bytes
  | 0, _ => []
  | _ + 1, [] => []
  | slots + 1, tag :: rest =>
    if tag = 1 then
      let length := Bytes.number (rest.take 2)
      (rest.drop 2).take length :: encodedTexts slots (rest.drop (2 + length))
    else if tag = 5 ∨ tag = 6 then
      -- a wide constant takes the next slot as well
      match slots with
      | 0 => []
      | slots + 1 => encodedTexts slots (rest.drop (bodyLength tag))
    else encodedTexts slots (rest.drop (bodyLength tag))

variable {c : Constant} {xs rest : Bytes} {slots : Nat}

@[simp]
theorem encode_unusable : unusable.encode = [] := rfl

/-- The tag tells texts and wide constants apart from the others, and says how long the others
are. -/
theorem encode_eq_cons (hu : c ≠ .unusable) : ∃ tag, c.encode = tag :: c.body ∧
    (tag = 1 ↔ ∃ text, c = .utf8 text) ∧ (tag = 5 ∨ tag = 6 ↔ c.isWide = true) ∧
      (tag ≠ 1 → c.body.length = bodyLength tag) := by
  cases c with
  | unusable => exact absurd rfl hu
  | _ =>
    refine ⟨_, rfl, by simp, by simp [isWide], ?_⟩
    simp [body, bodyLength, Bytes.u2, Bytes.u4, Bytes.u8]

/-- A text is read with as many bytes as its length says. -/
theorem encodedTexts_utf8 {encoded : Bytes} (hlen : encoded.length ≤ 65535) :
    encodedTexts (slots + 1) ([1] ++ (Bytes.count2 encoded.length ++ encoded) ++ rest) =
      encoded :: encodedTexts slots rest := by
  have hcount : (Bytes.count2 encoded.length).length = 2 := Bytes.length_bigEndian _ _
  have hnumber : Bytes.number (Bytes.count2 encoded.length) = encoded.length := by
    rw [Bytes.count2, Bytes.number_bigEndian]
    omega
  have htake : (Bytes.count2 encoded.length ++ (encoded ++ rest)).take 2 =
      Bytes.count2 encoded.length := List.take_left' hcount
  have hdrop : (Bytes.count2 encoded.length ++ (encoded ++ rest)).drop 2 = encoded ++ rest :=
    List.drop_left' hcount
  rw [List.singleton_append, List.cons_append, List.append_assoc, encodedTexts.eq_def]
  dsimp only
  rw [if_pos rfl, htake, hnumber, ← List.drop_drop, hdrop, List.take_left, List.drop_left]

/-- A constant of one slot that is no text is gone past. -/
theorem encodedTexts_narrow (hu : c ≠ .unusable) (htext : ∀ text, c ≠ .utf8 text)
    (hc : c.isWide = false) :
    encodedTexts (slots + 1) (c.encode ++ rest) = encodedTexts slots rest := by
  obtain ⟨tag, hencode, hutf8, hwide, hlen⟩ := encode_eq_cons hu
  have hone : tag ≠ 1 := fun h => by
    obtain ⟨text, htext'⟩ := hutf8.mp h
    exact htext text htext'
  have htwo : ¬ (tag = 5 ∨ tag = 6) := fun h => by simp [hwide.mp h] at hc
  rw [hencode, List.cons_append, encodedTexts.eq_def]
  dsimp only
  rw [if_neg hone, if_neg htwo, ← hlen hone, List.drop_left]

/-- A wide constant is its tag and eight bytes, and its tag is not that of a text. -/
theorem tag_of_isWide (hc : c.isWide = true) : ∃ tag, c.encode = tag :: c.body ∧ tag ≠ 1 ∧
    (tag = 5 ∨ tag = 6) ∧ c.body.length = bodyLength tag := by
  have hu : c ≠ .unusable := by
    rintro rfl
    cases hc
  obtain ⟨tag, hencode, -, hwide, hlen⟩ := encode_eq_cons hu
  have htwo := hwide.mpr hc
  have hone : tag ≠ 1 := fun h => by simp [h] at htwo
  exact ⟨tag, hencode, hone, htwo, hlen hone⟩

/-- A constant of two slots is gone past, and with it the slot behind it. -/
theorem encodedTexts_wide (hc : c.isWide = true) :
    encodedTexts (slots + 2) (c.encode ++ rest) = encodedTexts slots rest := by
  obtain ⟨tag, hencode, hone, htwo, hlen⟩ := tag_of_isWide hc
  rw [hencode, List.cons_append, encodedTexts.eq_def]
  dsimp only
  rw [if_neg hone, if_pos htwo, ← hlen, List.drop_left]

/-- Behind a constant of two slots no text is declared when its second slot is not. -/
theorem encodedTexts_cut (hc : c.isWide = true) : encodedTexts 1 (c.encode ++ rest) = [] := by
  obtain ⟨tag, hencode, hone, htwo, -⟩ := tag_of_isWide hc
  rw [hencode, List.cons_append, encodedTexts.eq_def]
  dsimp only
  rw [if_neg hone, if_pos htwo]

/-! ## Constants that are written as they were read -/

/-- Only a text has more than one spelling. -/
theorem SpelledBy.eq_encode (h : c.SpelledBy xs) (htext : ∀ text, c ≠ .utf8 text) :
    xs = c.encode := by
  cases c with
  | utf8 text => exact absurd rfl (htext text)
  | unusable => exact absurd h id
  | _ => exact h

/-- A constant is written in no more bytes than it was read from. -/
theorem SpelledBy.noLonger (h : c.SpelledBy xs) : ModifiedUtf8.NoLonger c.encode xs := by
  cases c with
  | utf8 text =>
    obtain ⟨encoded, -, hdecode, rfl⟩ := h
    obtain ⟨hle, hsame⟩ := ModifiedUtf8.noLonger_of_decode hdecode
    have hlen : (utf8 text).encode.length = 3 + (ModifiedUtf8.encode text).length := by
      simp [encode, tag?, body, Bytes.count2]
      omega
    have hlen' : ([1] ++ (Bytes.count2 encoded.length ++ encoded)).length = 3 + encoded.length := by
      simp [Bytes.count2]
      omega
    rw [ModifiedUtf8.NoLonger, hlen, hlen']
    refine ⟨by omega, fun heq => ?_⟩
    rw [← hsame (by omega)]
    rfl
  | unusable => exact absurd h id
  | _ =>
    rw [h.eq_encode (by simp)]
    exact ⟨Nat.le_refl _, fun _ => rfl⟩

/-- What the first constant brings to the texts: nothing unless it is a text, and then its own
bytes, which are canonical exactly when it is written as it is spelled. -/
theorem SpelledBy.encodedTexts_eq (h : c.SpelledBy xs) (hc : c.isWide = false) :
    ∃ texts : List Bytes,
      (∀ slots rest, encodedTexts (slots + 1) (xs ++ rest) = texts ++ encodedTexts slots rest) ∧
        texts.map ModifiedUtf8.decode = c.text?.toList.map some ∧
          (c.encode = xs ↔ ∀ encoded ∈ texts, ModifiedUtf8.Canonical encoded) := by
  by_cases htext : ∃ text, c = .utf8 text
  · obtain ⟨text, rfl⟩ := htext
    obtain ⟨encoded, hlen, hdecode, rfl⟩ := h
    refine ⟨[encoded], fun _ _ => encodedTexts_utf8 hlen, by simp [text?, hdecode], ?_⟩
    rw [List.forall_mem_singleton, ModifiedUtf8.canonical_iff hdecode]
    -- behind the tag and the length stand the bytes of the text
    exact ⟨fun h => congrArg (List.drop 3) h, fun h => by rw [← h]; rfl⟩
  · have hno : ∀ text, c ≠ .utf8 text := fun text heq => htext ⟨text, heq⟩
    have hnone : c.text? = none := by
      cases c with
      | utf8 text => exact absurd rfl (hno text)
      | _ => rfl
    refine ⟨[], fun _ _ => ?_, by simp [hnone], by simp [h.eq_encode hno]⟩
    rw [h.eq_encode hno, encodedTexts_narrow h.usable hno hc, List.nil_append]

theorem text?_of_isWide (hc : c.isWide = true) : c.text? = none := by
  cases c with
  | utf8 text => cases hc
  | _ => rfl

/-- A wide constant is written as it is spelled. -/
theorem SpelledBy.eq_encode_of_isWide (h : c.SpelledBy xs) (hc : c.isWide = true) :
    xs = c.encode :=
  h.eq_encode fun _ htext => by simp [htext, isWide] at hc

end Constant

open Constant ModifiedUtf8

variable {cs : List Constant} {xs : Bytes} {slots : Nat}

/-- Constants are written in no more bytes than they were read from. -/
theorem Spells.noLonger (h : Spells cs xs) : NoLonger (cs.flatMap Constant.encode) xs := by
  induction h with
  | nil => exact ⟨Nat.le_refl _, fun _ => rfl⟩
  | narrow hs _ _ ih =>
    rw [List.flatMap_cons]
    exact hs.noLonger.append ih
  | wide hs _ _ ih =>
    -- the second slot is written as no bytes
    rw [List.flatMap_cons, List.flatMap_cons]
    exact hs.noLonger.append ih

/-- The encoded texts decode to the texts among the constants, in their order. -/
theorem Spells.map_decode_encodedTexts (hs : Spells cs xs) (hd : Declared slots cs)
    (rest : Bytes) : (encodedTexts slots (xs ++ rest)).map ModifiedUtf8.decode =
      (cs.filterMap Constant.text?).map some := by
  -- the texts are looked for by the declared slots, so the induction is on these
  induction hd generalizing xs with
  | nil =>
    cases hs
    rfl
  | @narrow slots c cs hc _ ih =>
    cases hs with
    | wide _ hwide _ => simp [hc] at hwide
    | narrow hs _ h =>
      obtain ⟨texts, htexts, hdecode, -⟩ := hs.encodedTexts_eq hc
      rw [List.append_assoc, htexts, List.map_append, hdecode, ih h, List.filterMap_cons]
      cases c.text? <;> rfl
  | @wide slots c cs hc _ ih =>
    cases hs with
    | narrow _ hnarrow _ => simp [hc] at hnarrow
    | wide hs _ h =>
      rw [hs.eq_encode_of_isWide hc, List.append_assoc, encodedTexts_wide hc, ih h,
        List.filterMap_cons_none (text?_of_isWide hc), List.filterMap_cons_none rfl]
  | cut hc =>
    cases hs with
    | narrow _ hnarrow _ => simp [hc] at hnarrow
    | wide hs _ h =>
      cases h
      rw [hs.eq_encode_of_isWide hc, List.append_nil, encodedTexts_cut hc,
        List.filterMap_cons_none (text?_of_isWide hc)]
      rfl

/-- Constants are written as they were read exactly when their texts are canonical. -/
theorem Spells.encode_eq_iff (hs : Spells cs xs) (hd : Declared slots cs) (rest : Bytes) :
    cs.flatMap Constant.encode = xs ↔
      ∀ encoded ∈ encodedTexts slots (xs ++ rest), Canonical encoded := by
  induction hd generalizing xs with
  | nil =>
    cases hs
    simp [encodedTexts]
  | @narrow slots c cs hc _ ih =>
    cases hs with
    | wide _ hwide _ => simp [hc] at hwide
    | narrow hs _ h =>
      obtain ⟨texts, htexts, -, hcanonical⟩ := hs.encodedTexts_eq hc
      -- no constant is written longer than it was read, so all are equal or one is shorter
      rw [List.flatMap_cons, hs.noLonger.append_eq_iff h.noLonger, List.append_assoc, htexts,
        List.forall_mem_append, hcanonical, ih h]
  | @wide slots c cs hc _ ih =>
    cases hs with
    | narrow _ hnarrow _ => simp [hc] at hnarrow
    | wide hs _ h =>
      rw [hs.eq_encode_of_isWide hc, List.append_assoc, encodedTexts_wide hc, ← ih h,
        List.flatMap_cons, List.flatMap_cons, encode_unusable, List.nil_append,
        List.append_cancel_left_eq]
  | cut hc =>
    cases hs with
    | narrow _ hnarrow _ => simp [hc] at hnarrow
    | wide hs _ h =>
      cases h
      rw [hs.eq_encode_of_isWide hc, List.append_nil, encodedTexts_cut hc]
      simp

/-! ## Class files -/

namespace ClassFile

/-- The number in front of the constants, one more than that of the slots it declares. -/
def declaredCount (bytes : Bytes) : Nat := Bytes.number ((bytes.drop 8).take 2)

/-- The encoded texts among the constants of the declared slots. -/
def encodedTexts (bytes : Bytes) : List Bytes :=
  Constant.encodedTexts (declaredCount bytes - 1) (bytes.drop 10)

/-- The last slot that the bytes declare holds a long or a double. -/
def EndsWide (bytes : Bytes) (cf : ClassFile) : Prop :=
  ∃ c, cf.pool.get (UInt16.ofNat (declaredCount bytes - 1)) = .ok c ∧ c.isWide = true

variable {bytes : Bytes} {cf : ClassFile}

/-- What stands behind the fields of fixed length in front. -/
theorem drop_front (cf : ClassFile) (rest : Bytes) : (cf.front ++ rest).drop 8 = rest :=
  List.drop_left' (by simp [front, Bytes.u4, Bytes.u2])

/-- A class file that was read, and the three parts of the bytes around and inside its pool. -/
theorem spells_of_decode (h : ClassFile.decode bytes = .ok cf) :
    ∃ (count : UInt16) (spelling : Bytes),
      bytes = cf.front ++ (Bytes.u2 count ++ spelling ++ cf.back) ∧
        declaredCount bytes = count.toNat ∧
          encodedTexts bytes = Constant.encodedTexts (count.toNat - 1) (spelling ++ cf.back) ∧
            Spells cf.pool.constants.toList spelling ∧
              Declared (count.toNat - 1) cf.pool.constants.toList := by
  obtain ⟨-, _, ⟨count, spelling, rfl, hspells, hdeclared⟩, rfl⟩ := decode_eq_ok.mp h
  have hlen : (Bytes.u2 count).length = 2 := Bytes.length_bigEndian _ _
  have hcount : declaredCount (cf.front ++ (Bytes.u2 count ++ spelling ++ cf.back)) =
      count.toNat := by
    have hlt := count.toNat_lt
    rw [declaredCount, drop_front, List.append_assoc, List.take_left' hlen, Bytes.u2,
      Bytes.number_bigEndian]
    omega
  refine ⟨count, spelling, rfl, hcount, ?_, hspells, hdeclared⟩
  rw [encodedTexts, hcount, ← List.drop_drop (i := 2) (j := 8), drop_front, List.append_assoc,
    List.drop_left' hlen]

/-- The encoded texts are those of the texts in the pool, one for each and in their order. -/
theorem map_decode_encodedTexts (h : ClassFile.decode bytes = .ok cf) :
    (encodedTexts bytes).map ModifiedUtf8.decode =
      (cf.pool.constants.toList.filterMap Constant.text?).map some := by
  obtain ⟨count, spelling, -, -, htexts, hspells, hdeclared⟩ := spells_of_decode h
  rw [htexts]
  exact hspells.map_decode_encodedTexts hdeclared cf.back

/-- The last declared slot as a position among the constants that were read. -/
theorem endsWide_iff (h : ClassFile.decode bytes = .ok cf) :
    EndsWide bytes cf ↔ WideAt cf.pool.constants.toList (declaredCount bytes - 1) := by
  obtain ⟨count, -, -, hcount, -⟩ := spells_of_decode h
  have hlt := count.toNat_lt
  have hslot : (UInt16.ofNat (declaredCount bytes - 1)).toNat = declaredCount bytes - 1 :=
    UInt16.toNat_ofNat_of_lt' (show _ < 65536 by omega)
  constructor
  · rintro ⟨c, hget, hc⟩
    obtain ⟨hne, hi, -⟩ := ConstantPool.get_eq_ok.mp hget
    have hpos := UInt16.toNat_inj.not.mpr hne
    rw [hslot] at hi hpos
    exact ⟨declaredCount bytes - 1 - 1, c, (Nat.succ_pred hpos).symm, hi, hc⟩
  · rintro ⟨i, c, hi, hc, hwide⟩
    refine ⟨c, ConstantPool.get_eq_ok.mpr ⟨?_, ?_, ?_⟩, hwide⟩
    · intro hzero
      rw [hzero, hi] at hslot
      cases hslot
    · rwa [hslot, hi]
    · rintro rfl
      cases hwide

/-- As many slots are read as are declared, or one more behind a wide constant. -/
theorem size_cases_of_decode (h : ClassFile.decode bytes = .ok cf) :
    declaredCount bytes ≤ 65535 ∧
      ((cf.pool.size = declaredCount bytes - 1 ∧ ¬ EndsWide bytes cf) ∨
        (cf.pool.size = declaredCount bytes ∧ 1 < declaredCount bytes ∧ EndsWide bytes cf)) := by
  obtain ⟨count, -, -, hcount, -, -, hdeclared⟩ := spells_of_decode h
  have hlt := count.toNat_lt
  have hlen : cf.pool.constants.toList.length = cf.pool.size := Array.length_toList
  rw [endsWide_iff h, hcount]
  obtain ⟨hsize, hnone⟩ | ⟨hsize, hwide⟩ := hdeclared.length_cases
  · exact ⟨by omega, .inl ⟨by omega, hnone⟩⟩
  · obtain ⟨i, -, hi, -⟩ := id hwide
    exact ⟨by omega, .inr ⟨by omega, by omega, hwide⟩⟩

/-- Bytes that were read are written back as they are exactly when their count is not zero, it
does not end inside a wide constant, and every text is spelled canonically. -/
theorem encode_decode_iff (h : ClassFile.decode bytes = .ok cf) :
    cf.encode = bytes ↔ declaredCount bytes ≠ 0 ∧ ¬ EndsWide bytes cf ∧
      ∀ encoded ∈ encodedTexts bytes, ModifiedUtf8.Canonical encoded := by
  obtain ⟨count, spelling, hbytes, hcount, htexts, hspells, hdeclared⟩ := spells_of_decode h
  have hsame : cf.encode = bytes ↔
      count.toNat = (cf.pool.size + 1) % 65536 ∧
        cf.pool.constants.toList.flatMap Constant.encode = spelling := by
    rw [hbytes, encode_eq_iff, ConstantPool.encode_eq_iff]
  have hfront : count.toNat = (cf.pool.size + 1) % 65536 ↔
      declaredCount bytes ≠ 0 ∧ ¬ EndsWide bytes cf := by
    obtain ⟨hle, ⟨hsize, hnone⟩ | ⟨hsize, hlarge, hwide⟩⟩ := size_cases_of_decode h
    · simp only [hnone, not_false_eq_true, and_true]
      omega
    · -- the count that is written is one larger, or zero
      simp only [hwide, not_true_eq_false, and_false, iff_false]
      omega
  rw [hsame, hfront, hspells.encode_eq_iff hdeclared cf.back, ← htexts, and_assoc]

/-- A class file without members whose pool is a text and a long. -/
def laxClass : ClassFile :=
  { ClassFile.empty with pool := ⟨#[.utf8 "A", .long 0, .unusable]⟩ }

/-- The class file, with its text in two bytes and a count of two slots, the second of which is the
first one of the long. -/
def laxBytes : Bytes :=
  laxClass.front ++ (Bytes.u2 3 ++ ([1, 0, 2, 0xC1, 0x81] ++ (Constant.long 0).encode) ++
    laxClass.back)

theorem decode_laxBytes : ClassFile.decode laxBytes = .ok laxClass := by decide +kernel

/-- Of the three conditions for these bytes only the first holds: the long stands in the last slot
that was declared, and the text is spelled in more bytes than it needs. -/
theorem encode_decode_iff_lax : ClassFile.decode laxBytes = .ok laxClass ∧
    (laxClass.encode = laxBytes ↔ declaredCount laxBytes ≠ 0 ∧ ¬ EndsWide laxBytes laxClass ∧
      ∀ encoded ∈ encodedTexts laxBytes, ModifiedUtf8.Canonical encoded) :=
  ⟨decode_laxBytes, encode_decode_iff decode_laxBytes⟩

example : laxClass.encode ≠ laxBytes ∧ encodedTexts laxBytes = [[0xC1, 0x81]] := by
  decide +kernel

/-- A text is written in at most as many bytes as it was read from, and in as many only when they
are the same ones. So the length of a text that was read from a class file can be written in front
of it. -/
theorem length_encode_le_of_decode :
    (∀ (encoded : Bytes) (text : String), ModifiedUtf8.decode encoded = some text →
      (ModifiedUtf8.encode text).length ≤ encoded.length ∧
        ((ModifiedUtf8.encode text).length = encoded.length ↔
          ModifiedUtf8.encode text = encoded)) ∧
    ∀ (bytes : Bytes) (cf : ClassFile), ClassFile.decode bytes = .ok cf →
      ∀ text, Constant.utf8 text ∈ cf.pool.constants →
        ∃ length : UInt16, length.toNat = (ModifiedUtf8.encode text).length ∧
          (Constant.utf8 text).encode = 1 :: (Bytes.u2 length ++ ModifiedUtf8.encode text) := by
  constructor
  · intro encoded text h
    obtain ⟨hle, heq⟩ := ModifiedUtf8.noLonger_of_decode h
    exact ⟨hle, heq, congrArg List.length⟩
  · intro bytes cf h text hmem
    have hfits : (ModifiedUtf8.encode text).length ≤ 65535 :=
      (fits_of_decode h).constants _ (Array.mem_toList_iff.mpr hmem)
    have hlength : (UInt16.ofNat (ModifiedUtf8.encode text).length).toNat =
        (ModifiedUtf8.encode text).length :=
      UInt16.toNat_ofNat_of_lt' (Nat.lt_succ_of_le hfits)
    refine ⟨_, hlength, ?_⟩
    rw [Bytes.u2, hlength]
    rfl

/-- The text of the small class was read from two bytes and is written in one. -/
theorem length_encode_le_of_decode_lax :
    ModifiedUtf8.decode [0xC1, 0x81] = some "A" ∧ ClassFile.decode laxBytes = .ok laxClass ∧
      Constant.utf8 "A" ∈ laxClass.pool.constants ∧
      ((ModifiedUtf8.encode "A").length ≤ 2 ∧
        ((ModifiedUtf8.encode "A").length = 2 ↔ ModifiedUtf8.encode "A" = [0xC1, 0x81])) ∧
      ∃ length : UInt16, length.toNat = (ModifiedUtf8.encode "A").length ∧
        (Constant.utf8 "A").encode = 1 :: (Bytes.u2 length ++ ModifiedUtf8.encode "A") := by
  have hread : ModifiedUtf8.decode [0xC1, 0x81] = some "A" := by decide +kernel
  have hmem : Constant.utf8 "A" ∈ laxClass.pool.constants := by decide +kernel
  exact ⟨hread, decode_laxBytes, hmem, length_encode_le_of_decode.1 _ _ hread,
    length_encode_le_of_decode.2 _ _ decode_laxBytes _ hmem⟩

/-- What was read is read again from the bytes that are written for it, unless the largest count
ends inside a wide constant. -/
theorem decode_again_iff (h : ClassFile.decode bytes = .ok cf) :
    ClassFile.decode cf.encode = .ok cf ↔
      ¬ (declaredCount bytes = 65535 ∧ EndsWide bytes cf) := by
  rw [decode_encode_iff_fits, and_iff_right (fits_of_decode h)]
  obtain ⟨hle, ⟨hsize, hnone⟩ | ⟨hsize, -, hwide⟩⟩ := size_cases_of_decode h
  · simp only [hnone, and_false, not_false_eq_true, iff_true]
    omega
  · simp only [hwide, and_true]
    omega

/-- What is written for them is read as the same class file. -/
theorem decode_again_iff_lax : ClassFile.decode laxBytes = .ok laxClass ∧
    (ClassFile.decode laxClass.encode = .ok laxClass ↔
      ¬ (declaredCount laxBytes = 65535 ∧ EndsWide laxBytes laxClass)) :=
  ⟨decode_laxBytes, decode_again_iff decode_laxBytes⟩

/-! ## A pool with a slot too many -/

/-- A name and its class, some empty texts, and a long. -/
def crowdedConstants (n : Nat) : List Constant :=
  .utf8 "A" :: .classRef 1 :: (List.replicate n (.utf8 "") ++ [.long 0, .unusable])

def crowdedClass (n : Nat) : ClassFile :=
  { ClassFile.empty with pool := ⟨(crowdedConstants n).toArray⟩, thisClass := 2 }

/-- The class file with a count that leaves out the second slot of the long. -/
def crowdedBytes (n : Nat) : Bytes :=
  (crowdedClass n).front ++
    (Bytes.u2 (UInt16.ofNat (n + 4)) ++ (crowdedConstants n).flatMap Constant.encode ++
      (crowdedClass n).back)

/-- The crowded pool has one slot more than was declared. -/
theorem size_crowdedClass (n : Nat) : (crowdedClass n).pool.size = n + 4 := by
  simp [crowdedClass, crowdedConstants, ConstantPool.size]

/-- The last constant of the crowded pool is wide and starts in the last declared slot. -/
theorem declared_crowdedConstants (n : Nat) : Declared (n + 3) (crowdedConstants n) := by
  have hfiller : Declared (n + 1) (List.replicate n (.utf8 "") ++ [.long 0, .unusable]) := by
    induction n with
    | zero => exact .cut rfl
    | succ n ih => exact .narrow rfl ih
  exact .narrow rfl (.narrow rfl hfiller)

/-- The bytes of the crowded pool are those of its constants. -/
theorem spells_crowdedConstants (n : Nat) :
    Spells (crowdedConstants n) ((crowdedConstants n).flatMap Constant.encode) := by
  have hname : (ModifiedUtf8.encode "A").length ≤ 65535 := by decide +kernel
  have hempty : (ModifiedUtf8.encode "").length ≤ 65535 := by decide +kernel
  have hfiller : WellSlotted (List.replicate n (.utf8 "") ++ [.long 0, .unusable]) := by
    induction n with
    | zero => exact .wide rfl .nil
    | succ n ih => exact .narrow (by simp) rfl ih
  refine spells_encode (.narrow (by simp) rfl (.narrow (by simp) rfl hfiller)) fun c hc => ?_
  simp only [crowdedConstants, List.mem_cons, List.mem_append, List.mem_replicate] at hc
  rcases hc with rfl | rfl | ⟨-, rfl⟩ | rfl | rfl | hc
  · exact hname
  · trivial
  · exact hempty
  · trivial
  · trivial
  · cases hc

/-- A crowded class file is read. -/
theorem decode_crowdedBytes {n : Nat} (hn : n ≤ 65531) :
    ClassFile.decode (crowdedBytes n) = .ok (crowdedClass n) := by
  have hspells := spells_crowdedConstants n
  have hcount : (UInt16.ofNat (n + 4)).toNat - 1 = n + 3 := by
    rw [UInt16.toNat_ofNat_of_lt' (show n + 4 < 65536 by omega)]
    rfl
  refine decode_eq_ok.mpr ⟨?_, _, ⟨UInt16.ofNat (n + 4), _, rfl, hspells, ?_⟩, rfl⟩
  · constructor
    · rfl
    · rw [ConstantPool.Numbered, size_crowdedClass]
      omega
    · exact hspells.wellSlotted
    · exact hspells.fits
    · exact Nat.zero_le _
    · exact ⟨Nat.zero_le _, by simp [crowdedClass, ClassFile.empty]⟩
    · exact ⟨Nat.zero_le _, by simp [crowdedClass, ClassFile.empty]⟩
    · exact ⟨Nat.zero_le _, by simp [crowdedClass, ClassFile.empty]⟩
  · rw [hcount]
    exact declared_crowdedConstants n

/-- With 65535 slots the count that is written is zero. -/
theorem not_decode_again_crowded :
    ClassFile.decode (crowdedBytes 65531) = .ok (crowdedClass 65531) ∧
      ClassFile.decode (crowdedClass 65531).encode ≠ .ok (crowdedClass 65531) := by
  refine ⟨decode_crowdedBytes (Nat.le_refl _), fun h => ?_⟩
  have hsize := size_le_of_decode_encode h
  rw [size_crowdedClass] at hsize
  exact absurd hsize (by decide)

end ClassFile

end JvmStub
