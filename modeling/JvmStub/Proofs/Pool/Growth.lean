/-
`Growth.lean` -- what survives when a pool grows.

A pool is only ever extended at its end. `GrowsInto` is that order, and the main
statements are that every lookup that succeeds keeps its answer in any later
pool, and that the lowest slot of a constant stays the lowest. A slot is a
sixteen-bit number, so the slots of a pool can be told apart only while there
are at most 65535 of them; such a pool is `Numbered`.
-/
import JvmStub.Pool.Intern
import JvmStub.Proofs.Steps

set_option autoImplicit false

namespace JvmStub.ConstantPool

variable {pool later last : ConstantPool} {slot other : Slot} {c : Constant}

/-- The later pool has the constants of the earlier one in front. -/
def GrowsInto (pool later : ConstantPool) : Prop :=
  pool.constants.toList <+: later.constants.toList

/-- Every slot has a number of its own. -/
def Numbered (pool : ConstantPool) : Prop := pool.size ≤ 65535

theorem GrowsInto.refl (pool : ConstantPool) : pool.GrowsInto pool := List.prefix_rfl

theorem GrowsInto.trans (h : pool.GrowsInto later) (h' : later.GrowsInto last) :
    pool.GrowsInto last := List.IsPrefix.trans h h'

/-- Pools that have grown into each other are the same. -/
theorem GrowsInto.antisymm (h : pool.GrowsInto later) (h' : later.GrowsInto pool) :
    pool = later := by
  -- each list is in front of the other, so they are equally long and the same
  have hlist := h.eq_of_length (Nat.le_antisymm h.length_le h'.length_le)
  cases pool
  cases later
  exact congrArg ConstantPool.mk (Array.toList_inj.mp hlist)

/-- A pool does not shrink. -/
theorem GrowsInto.size_le (h : pool.GrowsInto later) : pool.size ≤ later.size := by
  have hlen := h.length_le
  rwa [Array.length_toList, Array.length_toList] at hlen

/-- What stood at a position stays there. -/
theorem GrowsInto.getElem? (h : pool.GrowsInto later) {i : Nat}
    (hi : pool.constants.toList[i]? = some c) : later.constants.toList[i]? = some c := by
  obtain ⟨added, hadded⟩ := h
  rw [← hadded, List.getElem?_append_left (List.getElem?_eq_some_iff.mp hi).1]
  exact hi

/-- A constant is appended behind all others. -/
theorem growsInto_append (pool : ConstantPool) (c : Constant) : pool.GrowsInto (pool.append c) := by
  unfold append
  split
  · exact ⟨[c, .unusable], by simp⟩
  · exact ⟨[c], by simp⟩

/-- A wide constant takes two slots. -/
theorem size_append (pool : ConstantPool) (c : Constant) :
    (pool.append c).size = pool.size + c.width := by
  unfold append Constant.width
  split <;> simp [size]

/-! ## Slots -/

/-- A lookup succeeds exactly at the number of a position that holds a constant. -/
theorem get_eq_ok : pool.get slot = .ok c ↔
    slot ≠ 0 ∧ pool.constants.toList[slot.toNat - 1]? = some c ∧ c ≠ .unusable := by
  unfold get
  rw [Array.getElem?_toList]
  by_cases hz : slot = 0
  · simp [hz]
  · rw [if_neg hz]
    -- no constant stands past the end, and a second slot is no answer
    split <;> grind

/-- The number of a position, as long as the position has one. -/
theorem toNat_slotAt {i : Nat} (hi : i < 65535) : (slotAt i).toNat = i + 1 :=
  UInt16.toNat_ofNat_of_lt' (Nat.succ_lt_succ hi)

/-- No position has the number zero. -/
theorem slotAt_ne_zero {i : Nat} (hi : i < 65535) : slotAt i ≠ 0 := by
  intro h
  have hnat := toNat_slotAt hi
  rw [h] at hnat
  simp at hnat

/-- The slot at a position holds what stands there. -/
theorem get_slotAt {i : Nat} (hi : i < 65535) (hc : pool.constants.toList[i]? = some c)
    (hu : c ≠ .unusable) : pool.get (slotAt i) = .ok c := by
  refine get_eq_ok.mpr ⟨slotAt_ne_zero hi, ?_, hu⟩
  rw [toNat_slotAt hi]
  exact hc

/-- A constant keeps its slot. -/
theorem GrowsInto.get (h : pool.GrowsInto later) (hc : pool.get slot = .ok c) :
    later.get slot = .ok c := by
  obtain ⟨hz, hi, hu⟩ := get_eq_ok.mp hc
  exact get_eq_ok.mpr ⟨hz, h.getElem? hi, hu⟩

/-! ## Lookups -/

/-- A text is read where a text stands. -/
theorem utf8_eq_ok {text : String} :
    pool.utf8 slot = .ok text ↔ pool.get slot = .ok (.utf8 text) := by
  unfold utf8
  rw [except_bind_eq_ok]
  constructor
  · rintro ⟨c, hc, h⟩
    split at h <;> cases h
    exact hc
  · exact fun h => ⟨_, h, rfl⟩

/-- The name of a class is read over one reference. -/
theorem className_eq_ok {name : String} :
    pool.className slot = .ok name ↔
      ∃ n, pool.get slot = .ok (.classRef n) ∧ pool.utf8 n = .ok name := by
  unfold className
  rw [except_bind_eq_ok]
  constructor
  · rintro ⟨c, hc, h⟩
    split at h
    · exact ⟨_, hc, h⟩
    · cases h
  · exact fun ⟨n, hc, hn⟩ => ⟨_, hc, hn⟩

/-- A name with its type is read over two references. -/
theorem nameAndType_eq_ok {name descriptor : String} :
    pool.nameAndType slot = .ok (name, descriptor) ↔
      ∃ n d, pool.get slot = .ok (.nameAndType n d) ∧ pool.utf8 n = .ok name ∧
        pool.utf8 d = .ok descriptor := by
  unfold nameAndType
  rw [except_bind_eq_ok]
  constructor
  · rintro ⟨c, hc, h⟩
    split at h
    · obtain ⟨name', hn, h⟩ := except_bind_eq_ok.mp h
      obtain ⟨descriptor', hd, h⟩ := except_bind_eq_ok.mp h
      cases h
      exact ⟨_, _, hc, hn, hd⟩
    · cases h
  · rintro ⟨n, d, hc, hn, hd⟩
    refine ⟨_, hc, ?_⟩
    exact except_bind_eq_ok.mpr ⟨_, hn, except_bind_eq_ok.mpr ⟨_, hd, rfl⟩⟩

theorem GrowsInto.utf8 (h : pool.GrowsInto later) {text : String}
    (ht : pool.utf8 slot = .ok text) : later.utf8 slot = .ok text :=
  utf8_eq_ok.mpr (h.get (utf8_eq_ok.mp ht))

theorem GrowsInto.className (h : pool.GrowsInto later) {name : String}
    (hn : pool.className slot = .ok name) : later.className slot = .ok name := by
  obtain ⟨n, hc, ht⟩ := className_eq_ok.mp hn
  exact className_eq_ok.mpr ⟨n, h.get hc, h.utf8 ht⟩

theorem GrowsInto.nameAndType (h : pool.GrowsInto later) {both : String × String}
    (hn : pool.nameAndType slot = .ok both) : later.nameAndType slot = .ok both := by
  obtain ⟨n, d, hc, hname, hdescriptor⟩ := nameAndType_eq_ok.mp hn
  exact nameAndType_eq_ok.mpr ⟨n, d, h.get hc, h.utf8 hname, h.utf8 hdescriptor⟩

/-- A slot is taken for a text exactly when the text is read there. -/
theorem holdsUtf8_iff {text : String} :
    pool.holdsUtf8 slot text = true ↔ pool.utf8 slot = .ok text := by
  unfold holdsUtf8
  split
  · next found h => simp [h]
  · next e h => simp [h]

theorem holdsClass_iff {name : String} :
    pool.holdsClass slot name = true ↔ pool.className slot = .ok name := by
  unfold holdsClass
  split
  · next found h => simp [h]
  · next e h => simp [h]

/-! ## The lowest slot -/

/-- The slot is the lowest that holds the text. -/
def IsLowestUtf8 (pool : ConstantPool) (slot : Slot) (text : String) : Prop :=
  pool.utf8 slot = .ok text ∧ ∀ other, pool.utf8 other = .ok text → slot ≤ other

/-- A constant is found at the first position where it stands. -/
theorem find?_eq_some : pool.find? c = some slot ↔
    ∃ i, pool.constants.toList.findIdx? (· == c) = some i ∧ slotAt i = slot := by
  rw [find?, ← List.findIdx?_toArray, Array.toArray_toList, Option.map_eq_some_iff]

/-- The lowest slot of a constant stays the lowest. -/
theorem GrowsInto.find? (h : pool.GrowsInto later) (hc : pool.find? c = some slot) :
    later.find? c = some slot := by
  obtain ⟨i, hi, hs⟩ := find?_eq_some.mp hc
  exact find?_eq_some.mpr ⟨i, List.IsPrefix.findIdx?_eq_some h hi, hs⟩

/-- The position that a search finds has a number. -/
theorem Numbered.lt_of_findIdx? (hn : pool.Numbered) {i : Nat}
    (hi : pool.constants.toList.findIdx? (· == c) = some i) : i < 65535 := by
  have hlt := (List.findIdx?_eq_some_iff_getElem.mp hi).1
  rw [Array.length_toList] at hlt
  exact Nat.lt_of_lt_of_le hlt hn

/-- The slot that a search finds holds the constant. -/
theorem get_of_find? (hn : pool.Numbered) (hu : c ≠ .unusable) (hc : pool.find? c = some slot) :
    pool.get slot = .ok c := by
  obtain ⟨i, hi, rfl⟩ := find?_eq_some.mp hc
  refine get_slotAt (hn.lt_of_findIdx? hi) ?_ hu
  obtain ⟨hlt, heq, -⟩ := List.findIdx?_eq_some_iff_getElem.mp hi
  rw [List.getElem?_eq_getElem hlt, eq_of_beq heq]

/-- A constant that some slot holds is found, at that slot or at a lower one. -/
theorem find?_le_of_get (hc : pool.get other = .ok c) :
    ∃ slot, pool.find? c = some slot ∧ (pool.Numbered → slot ≤ other) := by
  obtain ⟨hz, hget, -⟩ := get_eq_ok.mp hc
  obtain ⟨hlt, heq⟩ := List.getElem?_eq_some_iff.mp hget
  cases hi : pool.constants.toList.findIdx? (· == c) with
  | none =>
    have habs := List.findIdx?_eq_none_iff.mp hi _ (List.getElem_mem hlt)
    simp [heq] at habs
  | some i =>
    refine ⟨slotAt i, find?_eq_some.mpr ⟨i, hi, rfl⟩, fun hn => ?_⟩
    -- the search stops at the first position that holds the constant, so not behind `other`
    have hle : i ≤ other.toNat - 1 := by
      refine Nat.le_of_not_lt fun hgt => ?_
      have hbefore := (List.findIdx?_eq_some_iff_getElem.mp hi).2.2 (other.toNat - 1) hgt
      simp [heq] at hbefore
    have hpos : other.toNat ≠ 0 := fun h0 => hz (UInt16.toNat.inj h0)
    rw [UInt16.le_iff_toNat_le, toNat_slotAt (hn.lt_of_findIdx? hi)]
    omega

/-- A text is found at the lowest slot where it can be read. -/
theorem isLowestUtf8_of_find? (hn : pool.Numbered) {text : String}
    (h : pool.find? (.utf8 text) = some slot) : pool.IsLowestUtf8 slot text := by
  refine ⟨utf8_eq_ok.mpr (get_of_find? hn (by simp) h), fun other ho => ?_⟩
  obtain ⟨slot', hfind, hle⟩ := find?_le_of_get (utf8_eq_ok.mp ho)
  rw [h] at hfind
  cases hfind
  exact hle hn

/-- The slot that stands for a text: the lowest that holds it. -/
def textSlot (pool : ConstantPool) (text : String) : Slot := (pool.find? (.utf8 text)).getD 0

/-- A text that can be read somewhere is found. -/
theorem find?_textSlot {text : String} (h : pool.utf8 slot = .ok text) :
    pool.find? (.utf8 text) = some (pool.textSlot text) := by
  obtain ⟨found, hfind, -⟩ := find?_le_of_get (utf8_eq_ok.mp h)
  rw [textSlot, hfind, Option.getD_some]

theorem isLowestUtf8_textSlot (hn : pool.Numbered) {text : String}
    (h : pool.utf8 slot = .ok text) : pool.IsLowestUtf8 (pool.textSlot text) text :=
  isLowestUtf8_of_find? hn (find?_textSlot h)

/-- The slot that stands for a text never changes. -/
theorem GrowsInto.textSlot (hg : pool.GrowsInto later) {text : String}
    (h : pool.utf8 slot = .ok text) : later.textSlot text = pool.textSlot text := by
  rw [ConstantPool.textSlot, hg.find? (find?_textSlot h), Option.getD_some]

end JvmStub.ConstantPool
