/-
`Truncation.lean` -- class files that are cut short or go on too long.

A decoder delimits what it reads: it looks at nothing behind the bytes that it goes
past, and where only a part of them is there it reports how many are missing, never
more than really are. The work is in `Delimits.bind`. A cut can fall into the bytes
of the first decoder, or behind them; in the second case the first decoder has to
read on the cut bytes what it reads on all of them, which is why the definition asks
for both. Every decoder of the format is put together from `take` and `bind`, so no
byte position is looked at by itself.

The statement is about accepted bytes only. Bytes that are refused may be refused
for the same reason when they are cut, or for another one.
-/
import JvmStub.Proofs.ClassFile.Canonical

set_option autoImplicit false

namespace JvmStub

namespace Decoder

variable {α β : Type}

/-- Reading goes past some bytes. Whatever stands behind these, they are read alike, and where only
their front is there, the report is that the bytes end too early: it does not point behind their
end, and some bytes are wanted, but no more than the rest. -/
def Delimits (d : Decoder α) : Prop :=
  ∀ c x later, d c = .ok (x, later) → ∃ bytes, c.Past bytes later ∧
    (∀ behind, d ⟨c.offset, bytes ++ behind⟩ = .ok (x, ⟨later.offset, behind⟩)) ∧
    ∀ front back, bytes = front ++ back → back ≠ [] → ∃ offset wanted,
      d ⟨c.offset, front⟩ = .error (.truncated offset wanted) ∧
        offset ≤ c.offset + front.length ∧ 1 ≤ wanted ∧ wanted ≤ back.length

/-- A decoder that goes past nothing has no bytes that could be cut. -/
theorem delimits_pure (x : α) : Delimits (pure x : Decoder α) := by
  intro c y later h
  cases h
  refine ⟨[], Cursor.past_nil.mpr rfl, fun behind => rfl, ?_⟩
  rintro front back hsplit hback
  exact absurd (List.append_eq_nil_iff.mp hsplit.symm).2 hback

/-- A decoder that never succeeds has nothing to delimit. -/
theorem delimits_throw (e : ReadError) : Delimits (throw e : Decoder α) := by
  intro c y later h
  cases h

/-- A decoder that fails before it goes on never succeeds either. -/
theorem delimits_throw_bind (e : ReadError) (f : α → Decoder β) :
    Delimits ((throw e : Decoder α) >>= f) := by
  intro c y later h
  cases h

/-- This is the only place where bytes are counted: of a field that is cut short, the offset is that
of the field and the rest of the field is wanted. -/
theorem delimits_take (n : Nat) : Delimits (take n) := by
  intro c x later h
  obtain ⟨hlen, hpast⟩ := take_eq_ok.mp h
  refine ⟨x, hpast, fun behind => take_eq_ok.mpr ⟨hlen, rfl, hpast.2⟩, ?_⟩
  rintro front back rfl hback
  have hwanted := List.length_pos_of_ne_nil hback
  rw [List.length_append] at hlen
  have hfront : front.take n = front := List.take_of_length_le (by omega)
  refine ⟨c.offset, n - front.length, ?_, by omega, by omega, by omega⟩
  unfold take
  rw [hfront, if_pos (by omega)]

/-- Decoders that delimit what they read do so one after the other. -/
theorem Delimits.bind {d : Decoder α} {f : α → Decoder β} (hd : Delimits d)
    (hf : ∀ x, Delimits (f x)) : Delimits (d >>= f) := by
  intro c y later h
  obtain ⟨x, mid, hx, hy⟩ := decoder_bind_eq_ok.mp h
  obtain ⟨xs, hpast, halike, hcut⟩ := hd c x mid hx
  obtain ⟨ys, hpast', halike', hcut'⟩ := hf x mid y later hy
  refine ⟨xs ++ ys, Cursor.past_append.mpr ⟨mid, hpast, hpast'⟩, fun behind => ?_, ?_⟩
  · rw [List.append_assoc, decoder_bind_of_ok (halike (ys ++ behind))]
    exact halike' behind
  · intro front back hsplit hback
    rcases List.append_eq_append_iff.mp hsplit with ⟨front', rfl, rfl⟩ | ⟨back', rfl, rfl⟩
    · -- the cut is behind what the first decoder reads
      obtain ⟨offset, wanted, herror, hoffset, hpos, hle⟩ := hcut' front' back rfl hback
      refine ⟨offset, wanted, ?_, ?_, hpos, hle⟩
      · rw [decoder_bind_of_ok (halike front')]
        exact herror
      · rw [hpast.2] at hoffset
        rw [List.length_append]
        omega
    · by_cases hnone : back' = []
      · -- the cut is between the two, and the second decoder has nothing left to read
        subst hnone
        rw [List.append_nil] at hpast halike
        obtain ⟨offset, wanted, herror, hoffset, hpos, hle⟩ := hcut' [] ys rfl hback
        refine ⟨offset, wanted, ?_, ?_, hpos, hle⟩
        · rw [← List.append_nil front, decoder_bind_of_ok (halike [])]
          exact herror
        · rw [hpast.2] at hoffset
          exact hoffset
      · obtain ⟨offset, wanted, herror, hoffset, hpos, hle⟩ := hcut front back' rfl hnone
        refine ⟨offset, wanted, decoder_bind_of_error herror, hoffset, hpos, ?_⟩
        rw [List.length_append]
        omega

/-- A value made of what is read. -/
theorem Delimits.map {d : Decoder α} (hd : Delimits d) (f : α → β) :
    Delimits (do return f (← d)) :=
  hd.bind fun x => delimits_pure (f x)

theorem delimits_u1 : Delimits u1 := (delimits_take 1).map _

theorem delimits_u2 : Delimits u2 := (delimits_take 2).map _

theorem delimits_u4 : Delimits u4 := (delimits_take 4).map _

theorem delimits_u8 : Delimits u8 := delimits_u4.bind fun _ => delimits_u4.map _

/-- Entries one after the other are delimited when each of them is. The induction is on the number
of entries that are left. -/
theorem delimits_repeatOnto {entry : Decoder α} (h : Delimits entry) (read : Array α)
    (count : Nat) : Delimits (repeatOnto entry read count) := by
  induction count generalizing read with
  | zero => exact delimits_pure read
  | succ count ih => exact h.bind fun x => ih (read.push x)

theorem delimits_table {entry : Decoder α} (h : Delimits entry) : Delimits (table entry) :=
  delimits_u2.bind fun count => delimits_repeatOnto h #[] count.toNat

/-! ## Whole byte strings -/

/-- Bytes that are read to their end cannot be read when something is missing, nor when something
stands behind them. -/
theorem Delimits.runAll {d : Decoder α} (hd : Delimits d) {leftOver : Nat → ReadError}
    {bytes : Bytes} {x : α} (h : runAll d leftOver bytes = .ok x) :
    (∀ front back, bytes = front ++ back → back ≠ [] → ∃ offset wanted,
      Decoder.runAll d leftOver front = .error (.truncated offset wanted) ∧
        offset ≤ front.length ∧ 1 ≤ wanted ∧ wanted ≤ back.length) ∧
    ∀ behind, behind ≠ [] →
      Decoder.runAll d leftOver (bytes ++ behind) = .error (leftOver behind.length) := by
  obtain ⟨⟨y, later⟩, hy, hend⟩ := except_bind_eq_ok.mp h
  obtain ⟨read, ⟨hrest, -⟩, halike, hcut⟩ := hd _ _ _ hy
  have hempty : later.rest = [] := by
    by_contra hmore
    have hnot : later.rest.isEmpty = false := by simpa using hmore
    dsimp only at hend
    rw [hnot] at hend
    cases hend
  have hall : bytes = read := by simpa [hempty] using hrest
  subst hall
  constructor
  · intro front back hsplit hback
    obtain ⟨offset, wanted, herror, hoffset, hpos, hle⟩ := hcut front back hsplit hback
    refine ⟨offset, wanted, except_bind_eq_error.mpr (.inl herror), ?_, hpos, hle⟩
    simpa using hoffset
  · intro behind hbehind
    refine except_bind_eq_error.mpr (.inr ⟨_, halike behind, ?_⟩)
    have hnot : behind.isEmpty = false := by simpa using hbehind
    dsimp only
    rw [hnot]
    rfl

end Decoder

open Decoder

/-! ## The format -/

/-- The cases are those of the tag; what is read behind it depends on the tag alone. -/
theorem delimits_decodeConstant (slot : Slot) : Delimits (decodeConstant slot) := by
  have htwo : ∀ f : Slot → Slot → Constant, Delimits (do return f (← u2) (← u2)) :=
    fun f => delimits_u2.bind fun first => delimits_u2.map (f first)
  refine delimits_u1.bind fun tag => ?_
  split
  case h_1 =>
    refine delimits_u2.bind fun length => (delimits_take length.toNat).bind fun encoded => ?_
    split
    · exact delimits_pure _
    · exact delimits_throw _
  case h_2 | h_3 => exact delimits_u4.map _
  case h_4 | h_5 => exact delimits_u8.map _
  case h_6 | h_7 | h_13 | h_16 | h_17 => exact delimits_u2.map _
  case h_8 | h_9 | h_10 | h_11 | h_14 | h_15 => exact htwo _
  case h_12 => exact delimits_u1.bind fun kind => delimits_u2.map _
  case h_18 => exact delimits_throw _

/-- The constants of a pool. A wide one takes two of the slots that are left, so this loop is not
`repeatOnto`. -/
theorem delimits_decodeConstantsOnto (read : Array Constant) (count : Nat) :
    Delimits (decodeConstantsOnto read count) := by
  fun_induction decodeConstantsOnto read count with
  | case1 read => exact delimits_pure read
  | case2 read count ihWide ihNarrow =>
    refine (delimits_decodeConstant _).bind fun c => ?_
    split
    · cases count with
      | zero => exact delimits_pure _
      | succ count => exact ihWide c
    · exact ihNarrow c

theorem delimits_decodePool : Delimits decodePool :=
  delimits_u2.bind fun count => (delimits_decodeConstantsOnto #[] (count.toNat - 1)).map _

theorem delimits_decodeAttribute : Delimits decodeAttribute :=
  delimits_u2.bind fun _ => delimits_u4.bind fun length => (delimits_take length.toNat).map _

theorem delimits_decodeMember : Delimits decodeMember :=
  delimits_u2.bind fun _ => delimits_u2.bind fun _ => delimits_u2.bind fun _ =>
    (delimits_table delimits_decodeAttribute).map _

/-- A class file is delimited, although it can be refused in the middle, where its magic number is
wrong. -/
theorem delimits_decodeClassFile : Delimits decodeClassFile := by
  refine delimits_u4.bind fun magic => ?_
  split
  · exact delimits_throw_bind (.badMagic magic) _
  · refine delimits_u2.bind fun _ => delimits_u2.bind fun _ => delimits_decodePool.bind fun _ => ?_
    refine delimits_u2.bind fun _ => delimits_u2.bind fun _ => delimits_u2.bind fun _ => ?_
    refine (delimits_table delimits_u2).bind fun _ => ?_
    refine (delimits_table delimits_decodeMember).bind fun _ => ?_
    refine (delimits_table delimits_decodeMember).bind fun _ => ?_
    exact (delimits_table delimits_decodeAttribute).map _

/-- Accepted bytes that are cut anywhere are refused as truncated: the report does not point behind
the cut, and it wants some bytes, but no more than were cut off. Accepted bytes with others behind
them are refused for those. So no class file is the front of another. -/
theorem truncated_and_trailing_of_decode {bytes : Bytes} {cf : ClassFile}
    (h : ClassFile.decode bytes = .ok cf) :
    (∀ front, front <+: bytes → front ≠ bytes → ∃ offset wanted,
      ClassFile.decode front = .error (.truncated offset wanted) ∧ offset ≤ front.length ∧
        1 ≤ wanted ∧ front.length + wanted ≤ bytes.length) ∧
    ∀ behind, behind ≠ [] →
      ClassFile.decode (bytes ++ behind) = .error (.trailingBytes behind.length) := by
  obtain ⟨hcut, hbehind⟩ := delimits_decodeClassFile.runAll h
  refine ⟨?_, hbehind⟩
  rintro front ⟨back, rfl⟩ hne
  have hback : back ≠ [] := by
    rintro rfl
    exact hne (List.append_nil front).symm
  obtain ⟨offset, wanted, herror, hoffset, hpos, hle⟩ := hcut front back rfl hback
  refine ⟨offset, wanted, herror, hoffset, hpos, ?_⟩
  rw [List.length_append]
  omega

/-- A cut between the halves of a long, and one byte too many. -/
theorem truncated_and_trailing_of_decode_lax :
    ClassFile.decode ClassFile.laxBytes = .ok ClassFile.laxClass ∧
      ClassFile.laxBytes.take 19 <+: ClassFile.laxBytes ∧
      ClassFile.laxBytes.take 19 ≠ ClassFile.laxBytes ∧
      (∃ offset wanted,
        ClassFile.decode (ClassFile.laxBytes.take 19) = .error (.truncated offset wanted) ∧
          offset ≤ 19 ∧ 1 ≤ wanted ∧ 19 + wanted ≤ 38) ∧
      ([0] : Bytes) ≠ [] ∧
      ClassFile.decode (ClassFile.laxBytes ++ [0]) = .error (.trailingBytes 1) := by
  have hfront : ClassFile.laxBytes.take 19 <+: ClassFile.laxBytes := List.take_prefix 19 _
  have hne : ClassFile.laxBytes.take 19 ≠ ClassFile.laxBytes := by decide +kernel
  obtain ⟨hcut, hbehind⟩ := truncated_and_trailing_of_decode ClassFile.decode_laxBytes
  exact ⟨ClassFile.decode_laxBytes, hfront, hne, hcut _ hfront hne, by decide,
    hbehind [0] (by decide)⟩

example : ClassFile.decode (ClassFile.laxBytes.take 19) = .error (.truncated 16 1) := by
  decide +kernel

end JvmStub
