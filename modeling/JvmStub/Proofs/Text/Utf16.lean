/-
`Utf16.lean` -- text and its code units determine each other.

Reading the units of a text gives the text back, and whatever units can be read
are those of the text read. The two ranges of surrogates are what keeps the
cases apart: no character stands in them, and a pair of surrogates stands for a
character above all of them.
-/
import JvmStub.Text.Utf16

set_option autoImplicit false

namespace JvmStub.Utf16

/-- The first unit of a pair, as a number. -/
theorem isHighSurrogate_iff {u : UInt16} :
    isHighSurrogate u = true ↔ 0xD800 ≤ u.toNat ∧ u.toNat ≤ 0xDBFF := by
  simp [isHighSurrogate, UInt16.le_iff_toNat_le]

theorem isLowSurrogate_iff {u : UInt16} :
    isLowSurrogate u = true ↔ 0xDC00 ≤ u.toNat ∧ u.toNat ≤ 0xDFFF := by
  simp [isLowSurrogate, UInt16.le_iff_toNat_le]

/-- The number of a character lies outside the surrogates and below the end of Unicode. -/
theorem toNat_valid (c : Char) : c.toNat < 0xD800 ∨ (0xDFFF < c.toNat ∧ c.toNat < 0x110000) :=
  c.valid

/-- A number outside the surrogates and below the end of Unicode is that of its character. -/
theorem toNat_ofNat {n : Nat} (h : n < 0xD800 ∨ (0xDFFF < n ∧ n < 0x110000)) :
    (Char.ofNat n).toNat = n := by
  have hvalid : n.isValidChar := h
  rw [Char.ofNat, dif_pos hvalid]
  rfl

/-! ## Reading what was written -/

/-- A character outside the surrogates of the basic plane is one unit. -/
theorem unitsOf_of_lt {c : Char} (h : c.toNat < 0x10000) :
    unitsOf c = [UInt16.ofNat c.toNat] := by
  simp [unitsOf, h]

/-- A unit that is no surrogate is read as a character of its own. -/
theorem charsOnto_of_basic {u : UInt16} (hu : ¬ isHighSurrogate u = true)
    (hv : ¬ isLowSurrogate u = true) (read : List Char) (rest : List UInt16) :
    charsOnto read (u :: rest) = charsOnto (Char.ofNat u.toNat :: read) rest := by
  rw [charsOnto.eq_def]
  dsimp only
  rw [if_neg hu, if_neg hv]

/-- A high surrogate and a low one are read as one character. -/
theorem charsOnto_of_pair {u v : UInt16} (hu : isHighSurrogate u = true)
    (hv : isLowSurrogate v = true) (read : List Char) (rest : List UInt16) :
    charsOnto read (u :: v :: rest) = charsOnto (joinPair u v :: read) rest := by
  rw [charsOnto, if_pos hu, if_pos hv]

/-- Reading goes past the units of one character. -/
theorem charsOnto_unitsOf (read : List Char) (c : Char) (rest : List UInt16) :
    charsOnto read (unitsOf c ++ rest) = charsOnto (c :: read) rest := by
  have hvalid := toNat_valid c
  by_cases hbasic : c.toNat < 0x10000
  · have hunit := UInt16.toNat_ofNat_of_lt' hbasic
    have hhigh : ¬ isHighSurrogate (UInt16.ofNat c.toNat) = true := by
      rw [isHighSurrogate_iff, hunit]
      omega
    have hlow : ¬ isLowSurrogate (UInt16.ofNat c.toNat) = true := by
      rw [isLowSurrogate_iff, hunit]
      omega
    rw [unitsOf_of_lt hbasic, List.singleton_append, charsOnto_of_basic hhigh hlow, hunit,
      Char.ofNat_toNat]
  -- quotient and remainder by 0x400 stay within the two ranges of surrogates
  · have hunit : (UInt16.ofNat (0xD800 + (c.toNat - 0x10000) / 0x400)).toNat =
        0xD800 + (c.toNat - 0x10000) / 0x400 :=
      UInt16.toNat_ofNat_of_lt' (show _ < 65536 by omega)
    have hunit' : (UInt16.ofNat (0xDC00 + (c.toNat - 0x10000) % 0x400)).toNat =
        0xDC00 + (c.toNat - 0x10000) % 0x400 :=
      UInt16.toNat_ofNat_of_lt' (show _ < 65536 by omega)
    have hhigh : isHighSurrogate (UInt16.ofNat (0xD800 + (c.toNat - 0x10000) / 0x400)) = true := by
      rw [isHighSurrogate_iff, hunit]
      omega
    have hlow : isLowSurrogate (UInt16.ofNat (0xDC00 + (c.toNat - 0x10000) % 0x400)) = true := by
      rw [isLowSurrogate_iff, hunit']
      omega
    have hjoin : joinPair (UInt16.ofNat (0xD800 + (c.toNat - 0x10000) / 0x400))
        (UInt16.ofNat (0xDC00 + (c.toNat - 0x10000) % 0x400)) = c := by
      rw [joinPair, hunit, hunit']
      have hnumber : 0x10000 + (0xD800 + (c.toNat - 0x10000) / 0x400 - 0xD800) * 0x400 +
          (0xDC00 + (c.toNat - 0x10000) % 0x400 - 0xDC00) = c.toNat := by omega
      rw [hnumber, Char.ofNat_toNat]
    have hunits : unitsOf c = [UInt16.ofNat (0xD800 + (c.toNat - 0x10000) / 0x400),
        UInt16.ofNat (0xDC00 + (c.toNat - 0x10000) % 0x400)] := by
      simp only [unitsOf, if_neg hbasic]
    rw [hunits, List.cons_append, List.singleton_append, charsOnto_of_pair hhigh hlow, hjoin]

/-- Reading goes past the units of any characters. -/
theorem charsOnto_units (read cs : List Char) :
    charsOnto read (units cs) = some (read.reverse ++ cs) := by
  induction cs generalizing read with
  | nil => simp [units, charsOnto]
  | cons c cs ih =>
    have hunits : units (c :: cs) = unitsOf c ++ units cs := rfl
    rw [hunits, charsOnto_unitsOf, ih]
    simp

/-- The units of a text read as the text. -/
theorem chars?_units (cs : List Char) : chars? (units cs) = some cs := charsOnto_units [] cs

/-! ## Writing what was read -/

/-- A pair of surrogates is what is written for the character that it stands for. -/
theorem unitsOf_joinPair {u v : UInt16} (hu : isHighSurrogate u = true)
    (hv : isLowSurrogate v = true) : unitsOf (joinPair u v) = [u, v] := by
  rw [isHighSurrogate_iff] at hu
  rw [isLowSurrogate_iff] at hv
  have hnumber : (joinPair u v).toNat =
      0x10000 + (u.toNat - 0xD800) * 0x400 + (v.toNat - 0xDC00) := toNat_ofNat (by omega)
  have hplane : ¬ (joinPair u v).toNat < 0x10000 := by omega
  have hhigh : 0xD800 + ((joinPair u v).toNat - 0x10000) / 0x400 = u.toNat := by omega
  have hlow : 0xDC00 + ((joinPair u v).toNat - 0x10000) % 0x400 = v.toNat := by omega
  simp only [unitsOf, if_neg hplane, hhigh, hlow, UInt16.ofNat_toNat]

/-- A unit that is no surrogate is what is written for its character. -/
theorem unitsOf_ofNat {u : UInt16} (hu : ¬ isHighSurrogate u = true)
    (hv : ¬ isLowSurrogate u = true) : unitsOf (Char.ofNat u.toNat) = [u] := by
  rw [isHighSurrogate_iff] at hu
  rw [isLowSurrogate_iff] at hv
  have hlt := u.toNat_lt
  have hnumber : (Char.ofNat u.toNat).toNat = u.toNat := toNat_ofNat (by omega)
  rw [unitsOf_of_lt (by omega), hnumber, UInt16.ofNat_toNat]

/-- Characters that were read are written as the units they were read from. -/
theorem units_of_charsOnto {read cs : List Char} {us : List UInt16}
    (h : charsOnto read us = some cs) : units cs = units read.reverse ++ us := by
  have hsnoc : ∀ (c : Char) (read : List Char),
      units (c :: read).reverse = units read.reverse ++ unitsOf c := by
    intro c read
    simp [units]
  -- the cases are those of the reader; in three of them it refuses
  induction read, us using charsOnto.induct with
  | case1 read =>
    rw [charsOnto] at h
    cases h
    simp
  | case2 read u hu =>
    simp [charsOnto, hu] at h
  | case3 read u hu v rest hv ih =>
    rw [charsOnto_of_pair hu hv] at h
    rw [ih h, hsnoc, unitsOf_joinPair hu hv]
    simp
  | case4 read u hu v rest hv =>
    simp [charsOnto, hu, hv] at h
  | case5 read u rest hu hv =>
    rw [charsOnto.eq_def] at h
    simp [hu, hv] at h
  | case6 read u rest hu hv ih =>
    rw [charsOnto_of_basic hu hv] at h
    rw [ih h, hsnoc, unitsOf_ofNat hu hv]
    simp

/-- Units that can be read are those of the text read. -/
theorem units_of_chars? {us : List UInt16} {cs : List Char} (h : chars? us = some cs) :
    units cs = us := units_of_charsOnto h

end JvmStub.Utf16
