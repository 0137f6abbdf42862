/-
`ModifiedUtf8.lean` -- the text encoding of class files undoes itself.

Decoding an encoded text gives the text back. In the other direction a text may
have several spellings, because the decoder reads groups that are longer than
their unit needs; encoding writes the shortest of them. So a text that was read
is written back in at most as many bytes, and in as many bytes only when they
are the same ones.
-/
import JvmStub.Text.ModifiedUtf8
import JvmStub.Proofs.Text.Utf16

set_option autoImplicit false

namespace JvmStub.ModifiedUtf8

/-- A byte behind the first one of a group, as a number. -/
theorem isContinuation_iff {b : UInt8} :
    isContinuation b = true ↔ 0x80 ≤ b.toNat ∧ b.toNat ≤ 0xBF := by
  simp [isContinuation, UInt8.le_iff_toNat_le]

/-! ## Reading one group -/

/-- A byte below 0x80, other than zero, is a unit by itself. -/
theorem unitsOnto_one {a : UInt8} (h : a.toNat < 0x80) (h0 : a.toNat ≠ 0) (read : List UInt16)
    (rest : Bytes) : unitsOnto read (a :: rest) = unitsOnto (a.toUInt16 :: read) rest := by
  have hlt : a < 0x80 := UInt8.lt_iff_toNat_lt.mpr h
  have hne : a ≠ 0 := fun heq => h0 (by rw [heq]; rfl)
  rw [unitsOnto.eq_def]
  dsimp only
  rw [if_pos hlt, if_neg hne]

theorem unitsOnto_two {a b : UInt8} (ha : 0xC0 ≤ a.toNat ∧ a.toNat ≤ 0xDF)
    (hb : isContinuation b = true) (read : List UInt16) (rest : Bytes) :
    unitsOnto read (a :: b :: rest) = unitsOnto (joinTwo a b :: read) rest := by
  have hlt : ¬ a < 0x80 := fun h => by have := UInt8.lt_iff_toNat_lt.mp h; simp at this; omega
  have hlead : 0xC0 ≤ a ∧ a ≤ 0xDF := by
    simpa [UInt8.le_iff_toNat_le] using ha
  rw [unitsOnto.eq_def]
  dsimp only
  rw [if_neg hlt, if_pos hlead, if_pos hb]

/-- A group of three bytes is read as one unit. -/
theorem unitsOnto_three {a b c : UInt8} (ha : 0xE0 ≤ a.toNat ∧ a.toNat ≤ 0xEF)
    (hb : isContinuation b = true) (hc : isContinuation c = true) (read : List UInt16)
    (rest : Bytes) :
    unitsOnto read (a :: b :: c :: rest) = unitsOnto (joinThree a b c :: read) rest := by
  have hlt : ¬ a < 0x80 := fun h => by have := UInt8.lt_iff_toNat_lt.mp h; simp at this; omega
  have hlead : ¬ (0xC0 ≤ a ∧ a ≤ 0xDF) := by
    simp only [UInt8.le_iff_toNat_le, UInt8.reduceToNat]
    omega
  have hlead' : 0xE0 ≤ a ∧ a ≤ 0xEF := by
    simpa [UInt8.le_iff_toNat_le] using ha
  rw [unitsOnto.eq_def]
  dsimp only
  rw [if_neg hlt, if_neg hlead, if_pos hlead', hb, hc, Bool.and_self, if_pos rfl]

/-! ## Reading what was written -/

/-- Reading goes past the group of one unit. -/
theorem unitsOnto_encodeUnit (read : List UInt16) (u : UInt16) (rest : Bytes) :
    unitsOnto read (encodeUnit u ++ rest) = unitsOnto (u :: read) rest := by
  have hlt := u.toNat_lt
  unfold encodeUnit
  dsimp only
  -- the cases are the lengths of the group; in each the bytes are known as numbers and joined again
  by_cases hone : 1 ≤ u.toNat ∧ u.toNat ≤ 0x7F
  · have hbyte : (UInt8.ofNat u.toNat).toNat = u.toNat :=
      UInt8.toNat_ofNat_of_lt' (show _ < 256 by omega)
    have hjoin : (UInt8.ofNat u.toNat).toUInt16 = u := by
      apply UInt16.toNat.inj
      rw [UInt8.toNat_toUInt16, hbyte]
    rw [if_pos hone, List.singleton_append, unitsOnto_one (by omega) (by omega), hjoin]
  · rw [if_neg hone]
    by_cases htwo : u.toNat ≤ 0x7FF
    · have ha : (UInt8.ofNat (0xC0 + u.toNat / 64)).toNat = 0xC0 + u.toNat / 64 :=
        UInt8.toNat_ofNat_of_lt' (show _ < 256 by omega)
      have hb : (UInt8.ofNat (0x80 + u.toNat % 64)).toNat = 0x80 + u.toNat % 64 :=
        UInt8.toNat_ofNat_of_lt' (show _ < 256 by omega)
      have hjoin : joinTwo (UInt8.ofNat (0xC0 + u.toNat / 64)) (UInt8.ofNat (0x80 + u.toNat % 64)) =
          u := by
        have hvalue : (0xC0 + u.toNat / 64 - 0xC0) * 64 + (0x80 + u.toNat % 64 - 0x80) =
            u.toNat := by omega
        rw [joinTwo, ha, hb, hvalue, UInt16.ofNat_toNat]
      rw [if_pos htwo, List.cons_append, List.singleton_append,
        unitsOnto_two (by omega) (isContinuation_iff.mpr (by omega)), hjoin]
    · have ha : (UInt8.ofNat (0xE0 + u.toNat / 4096)).toNat = 0xE0 + u.toNat / 4096 :=
        UInt8.toNat_ofNat_of_lt' (show _ < 256 by omega)
      have hb : (UInt8.ofNat (0x80 + u.toNat / 64 % 64)).toNat = 0x80 + u.toNat / 64 % 64 :=
        UInt8.toNat_ofNat_of_lt' (show _ < 256 by omega)
      have hc : (UInt8.ofNat (0x80 + u.toNat % 64)).toNat = 0x80 + u.toNat % 64 :=
        UInt8.toNat_ofNat_of_lt' (show _ < 256 by omega)
      have hjoin : joinThree (UInt8.ofNat (0xE0 + u.toNat / 4096))
          (UInt8.ofNat (0x80 + u.toNat / 64 % 64)) (UInt8.ofNat (0x80 + u.toNat % 64)) = u := by
        have hvalue : (0xE0 + u.toNat / 4096 - 0xE0) * 4096 +
            (0x80 + u.toNat / 64 % 64 - 0x80) * 64 + (0x80 + u.toNat % 64 - 0x80) =
            u.toNat := by omega
        rw [joinThree, ha, hb, hc, hvalue, UInt16.ofNat_toNat]
      rw [if_neg htwo, List.cons_append, List.cons_append, List.singleton_append,
        unitsOnto_three (by omega) (isContinuation_iff.mpr (by omega))
          (isContinuation_iff.mpr (by omega)), hjoin]

/-- Reading goes past the groups of any units. -/
theorem unitsOnto_encodeUnits (read us : List UInt16) :
    unitsOnto read (us.flatMap encodeUnit) = some (read.reverse ++ us) := by
  induction us generalizing read with
  | nil => simp [unitsOnto]
  | cons u us ih =>
    rw [List.flatMap_cons, unitsOnto_encodeUnit, ih]
    simp

/-- The encoding of a text decodes to the text. -/
theorem decode_encode_text (text : String) : decode (encode text) = some text := by
  have hunits : units? (encode text) = some (Utf16.units text.toList) :=
    unitsOnto_encodeUnits [] (Utf16.units text.toList)
  rw [decode, hunits, Option.bind_some, Utf16.chars?_units, Option.map_some, String.ofList_toList]

/-! ## The bytes that are written -/

/-- A byte that may stand in an encoded text. The others are kept free: the zero byte and those
that lead a group of four bytes. -/
def IsTextByte (b : UInt8) : Prop := b ≠ 0 ∧ b < 0xF0

/-- A number between zero and 0xF0 is such a byte. -/
theorem isTextByte_ofNat {n : Nat} (h0 : 0 < n) (h : n < 0xF0) : IsTextByte (UInt8.ofNat n) := by
  have hbyte : (UInt8.ofNat n).toNat = n := UInt8.toNat_ofNat_of_lt' (show _ < 256 by omega)
  constructor
  · intro heq
    rw [heq] at hbyte
    simp at hbyte
    omega
  · rw [UInt8.lt_iff_toNat_lt, hbyte]
    exact h

/-- Only the unit zero could be a zero byte, and it is written in two; and sixteen bits are too few
for a lead byte to reach those of longer groups. -/
theorem isTextByte_of_encodeUnit {u : UInt16} {b : UInt8} (hb : b ∈ encodeUnit u) :
    IsTextByte b := by
  have hlt := u.toNat_lt
  unfold encodeUnit at hb
  dsimp only at hb
  by_cases hone : 1 ≤ u.toNat ∧ u.toNat ≤ 0x7F
  · rw [if_pos hone, List.mem_singleton] at hb
    rw [hb]
    exact isTextByte_ofNat (by omega) (by omega)
  · rw [if_neg hone] at hb
    by_cases htwo : u.toNat ≤ 0x7FF
    · rw [if_pos htwo, List.mem_cons, List.mem_singleton] at hb
      rcases hb with rfl | rfl
      · exact isTextByte_ofNat (by omega) (by omega)
      · exact isTextByte_ofNat (by omega) (by omega)
    · rw [if_neg htwo, List.mem_cons, List.mem_cons, List.mem_singleton] at hb
      rcases hb with rfl | rfl | rfl
      · exact isTextByte_ofNat (by omega) (by omega)
      · exact isTextByte_ofNat (by omega) (by omega)
      · exact isTextByte_ofNat (by omega) (by omega)

theorem isTextByte_of_encode {text : String} {b : UInt8} (hb : b ∈ encode text) :
    IsTextByte b := by
  obtain ⟨u, -, hu⟩ := List.mem_flatMap.mp hb
  exact isTextByte_of_encodeUnit hu

/-- A text is what its encoding is read as. The encoding has no zero byte and none that would lead
a longer group, and no other text has it. -/
theorem encode_reads_back :
    (∀ text, decode (encode text) = some text ∧ ∀ b ∈ encode text, b ≠ 0 ∧ b < 0xF0) ∧
      Function.Injective encode := by
  refine ⟨fun text => ⟨decode_encode_text text, fun b => isTextByte_of_encode⟩, ?_⟩
  intro text text' heq
  have hread : some text = some text' := by
    rw [← decode_encode_text text, ← decode_encode_text text', heq]
  exact Option.some.inj hread

example : encode "\x00😀" = [0xC0, 0x80, 0xED, 0xA0, 0xBD, 0xED, 0xB8, 0x80] := by decide +kernel

/-! ## Writing what was read -/

/-- The bytes are a spelling that is no longer than another, and as long only if it is the
same. -/
def NoLonger (written spelling : Bytes) : Prop :=
  written.length ≤ spelling.length ∧ (written.length = spelling.length → written = spelling)

/-- Bytes that are no longer than others stay so when both go on that way. -/
theorem NoLonger.append {xs xs' ys ys' : Bytes} (h : NoLonger xs xs') (h' : NoLonger ys ys') :
    NoLonger (xs ++ ys) (xs' ++ ys') := by
  have hle := h.1
  have hle' := h'.1
  constructor
  · rw [List.length_append, List.length_append]
    omega
  · intro hlen
    rw [List.length_append, List.length_append] at hlen
    rw [h.2 (by omega), h'.2 (by omega)]

/-- A unit that was read from one byte is written as this byte. -/
theorem noLonger_one {a : UInt8} (h : a.toNat < 0x80) (h0 : a.toNat ≠ 0) :
    NoLonger (encodeUnit a.toUInt16) [a] := by
  have hnumber : a.toUInt16.toNat = a.toNat := UInt8.toNat_toUInt16 a
  have hone : 1 ≤ a.toNat ∧ a.toNat ≤ 0x7F := by omega
  unfold encodeUnit
  dsimp only
  rw [hnumber, if_pos hone, UInt8.ofNat_toNat]
  exact ⟨Nat.le_refl _, fun _ => rfl⟩

/-- A unit that was read from two bytes is written as these, or as one where one would have done. -/
theorem noLonger_two {a b : UInt8} (ha : 0xC0 ≤ a.toNat ∧ a.toNat ≤ 0xDF)
    (hb : 0x80 ≤ b.toNat ∧ b.toNat ≤ 0xBF) : NoLonger (encodeUnit (joinTwo a b)) [a, b] := by
  have hnumber : (joinTwo a b).toNat = (a.toNat - 0xC0) * 64 + (b.toNat - 0x80) :=
    UInt16.toNat_ofNat_of_lt' (show _ < 65536 by omega)
  unfold encodeUnit
  dsimp only
  -- a unit that has a shorter group is written in fewer bytes than it was read from
  by_cases hone : 1 ≤ (joinTwo a b).toNat ∧ (joinTwo a b).toNat ≤ 0x7F
  · rw [if_pos hone]
    exact ⟨by simp, by simp⟩
  · have hlead : 0xC0 + (joinTwo a b).toNat / 64 = a.toNat := by omega
    have htail : 0x80 + (joinTwo a b).toNat % 64 = b.toNat := by omega
    rw [if_neg hone, if_pos (by omega), hlead, htail, UInt8.ofNat_toNat, UInt8.ofNat_toNat]
    exact ⟨Nat.le_refl _, fun _ => rfl⟩

/-- A unit that was read from three bytes is written as these, or as fewer where fewer would have
done. -/
theorem noLonger_three {a b c : UInt8} (ha : 0xE0 ≤ a.toNat ∧ a.toNat ≤ 0xEF)
    (hb : 0x80 ≤ b.toNat ∧ b.toNat ≤ 0xBF) (hc : 0x80 ≤ c.toNat ∧ c.toNat ≤ 0xBF) :
    NoLonger (encodeUnit (joinThree a b c)) [a, b, c] := by
  have hnumber : (joinThree a b c).toNat =
      (a.toNat - 0xE0) * 4096 + (b.toNat - 0x80) * 64 + (c.toNat - 0x80) :=
    UInt16.toNat_ofNat_of_lt' (show _ < 65536 by omega)
  unfold encodeUnit
  dsimp only
  by_cases hone : 1 ≤ (joinThree a b c).toNat ∧ (joinThree a b c).toNat ≤ 0x7F
  · rw [if_pos hone]
    exact ⟨by simp, by simp⟩
  · rw [if_neg hone]
    by_cases htwo : (joinThree a b c).toNat ≤ 0x7FF
    · rw [if_pos htwo]
      exact ⟨by simp, by simp⟩
    · have hlead : 0xE0 + (joinThree a b c).toNat / 4096 = a.toNat := by omega
      have hmiddle : 0x80 + (joinThree a b c).toNat / 64 % 64 = b.toNat := by omega
      have htail : 0x80 + (joinThree a b c).toNat % 64 = c.toNat := by omega
      rw [if_neg htwo, hlead, hmiddle, htail, UInt8.ofNat_toNat, UInt8.ofNat_toNat,
        UInt8.ofNat_toNat]
      exact ⟨Nat.le_refl _, fun _ => rfl⟩

/-- Units that were read onto others take no more bytes than they were read from. The cases are
those of the decoder: a refused group is no success, and each group read is compared with the
shortest group of its unit. -/
theorem noLonger_of_unitsOnto {read us : List UInt16} {bytes : Bytes}
    (h : unitsOnto read bytes = some us) :
    ∃ new, us = read.reverse ++ new ∧ NoLonger (new.flatMap encodeUnit) bytes := by
  have hstep : ∀ (u : UInt16) (read : List UInt16) (group rest : Bytes),
      NoLonger (encodeUnit u) group →
      (∃ new, us = (u :: read).reverse ++ new ∧ NoLonger (new.flatMap encodeUnit) rest) →
      ∃ new, us = read.reverse ++ new ∧ NoLonger (new.flatMap encodeUnit) (group ++ rest) := by
    rintro u read group rest hgroup ⟨new, hus, hnew⟩
    exact ⟨u :: new, by simp [hus], hgroup.append hnew⟩
  induction read, bytes using unitsOnto.induct with
  | case1 read =>
    rw [unitsOnto] at h
    cases h
    exact ⟨[], by simp, by simp [NoLonger]⟩
  | case3 read a rest ha h0 ih =>
    have hlt := UInt8.lt_iff_toNat_lt.mp ha
    have hne : a.toNat ≠ 0 := fun heq => h0 (UInt8.toNat.inj heq)
    rw [unitsOnto_one hlt hne] at h
    exact hstep _ read [a] rest (noLonger_one hlt hne) (ih h)
  | case4 read a ha hlead b rest hb ih =>
    have hlead' : 0xC0 ≤ a.toNat ∧ a.toNat ≤ 0xDF := by
      simpa [UInt8.le_iff_toNat_le] using hlead
    rw [unitsOnto_two hlead' hb] at h
    exact hstep _ read [a, b] rest (noLonger_two hlead' (isContinuation_iff.mp hb)) (ih h)
  | case7 read a ha hlow hlead b c rest hbc ih =>
    have hlead' : 0xE0 ≤ a.toNat ∧ a.toNat ≤ 0xEF := by
      simpa [UInt8.le_iff_toNat_le] using hlead
    obtain ⟨hb, hc⟩ := Bool.and_eq_true_iff.mp hbc
    rw [unitsOnto_three hlead' hb hc] at h
    exact hstep _ read [a, b, c] rest
      (noLonger_three hlead' (isContinuation_iff.mp hb) (isContinuation_iff.mp hc)) (ih h)
  | _ =>
    -- in every other case the group is refused
    clear hstep
    rw [unitsOnto.eq_def] at h
    grind

/-- A text that was read is written in no more bytes than it was read from. -/
theorem noLonger_of_decode {bytes : Bytes} {text : String} (h : decode bytes = some text) :
    NoLonger (encode text) bytes := by
  rw [decode] at h
  obtain ⟨us, hus, h⟩ := Option.bind_eq_some_iff.mp h
  obtain ⟨cs, hcs, rfl⟩ := Option.map_eq_some_iff.mp h
  obtain ⟨new, hnew, hle⟩ := noLonger_of_unitsOnto hus
  rw [List.reverse_nil, List.nil_append] at hnew
  rw [encode, String.toList_ofList, Utf16.units_of_chars? hcs, hnew]
  exact hle

end JvmStub.ModifiedUtf8
