/-
`Pool.lean` -- reading a constant pool.

A constant is spelled by its encoding, and a text by any byte string that
decodes to it. A wide constant takes a second slot that has no bytes of its own;
`Spells` says which constants a byte string stands for, second slots included.
How many slots are read is up to the count in front, and the count may end
between the two slots of a wide constant; `Declared` says which constants a
number of slots can come to. The main statements are that the decoder reads just
the constants that the bytes spell and the count declares, and that the constants
read fit their fields when they are written again.
-/
import JvmStub.Proofs.ClassFile.Payloads
import JvmStub.Proofs.Pool.Interning
import JvmStub.Proofs.Text.ModifiedUtf8

set_option autoImplicit false

namespace JvmStub

open Decoder

/-! ## Spellings -/

namespace Constant

/-- The bytes stand for the constant. -/
def SpelledBy : Constant → Bytes → Prop
  | utf8 text, bytes => ∃ encoded : Bytes, encoded.length ≤ 65535 ∧
      ModifiedUtf8.decode encoded = some text ∧
      bytes = [1] ++ (Bytes.count2 encoded.length ++ encoded)
  | unusable, _ => False
  | c, bytes => bytes = c.encode

/-- The text of the constant, if it is one, is short enough for its length field. -/
def Fits : Constant → Prop
  | utf8 text => (ModifiedUtf8.encode text).length ≤ 65535
  | _ => True

theorem SpelledBy.usable {c : Constant} {bytes : Bytes} (h : c.SpelledBy bytes) :
    c ≠ .unusable := by
  rintro rfl
  exact h

/-- A text that was spelled fits its length. -/
theorem SpelledBy.fits {c : Constant} {bytes : Bytes} (h : c.SpelledBy bytes) : c.Fits := by
  cases c with
  | utf8 text =>
    obtain ⟨encoded, hlen, hdecode, -⟩ := h
    exact Nat.le_trans (ModifiedUtf8.noLonger_of_decode hdecode).1 hlen
  | _ => trivial

/-- A constant that fits is spelled by its encoding. -/
theorem spelledBy_encode {c : Constant} (hu : c ≠ .unusable) (hf : c.Fits) :
    c.SpelledBy c.encode := by
  cases c with
  | utf8 text => exact ⟨_, hf, ModifiedUtf8.decode_encode_text text, rfl⟩
  | unusable => exact absurd rfl hu
  | _ => rfl

end Constant

/-- Every wide constant is followed by its second slot, and nothing else is. -/
inductive WellSlotted : List Constant → Prop where
  | nil : WellSlotted []
  | narrow {c : Constant} {cs : List Constant} (hu : c ≠ .unusable) (hc : c.isWide = false)
      (h : WellSlotted cs) : WellSlotted (c :: cs)
  | wide {c : Constant} {cs : List Constant} (hc : c.isWide = true) (h : WellSlotted cs) :
      WellSlotted (c :: .unusable :: cs)

/-- The slot holds a wide constant. -/
def WideAt (cs : List Constant) (slot : Nat) : Prop :=
  ∃ i c, slot = i + 1 ∧ cs[i]? = some c ∧ c.isWide = true

/-- There is no slot zero, so no wide constant starts there. -/
theorem not_wideAt_zero {cs : List Constant} : ¬ WideAt cs 0 := by
  rintro ⟨i, c, h, -⟩
  cases h

/-- A wide constant is the first one or stands among the others. -/
theorem wideAt_cons {c : Constant} {cs : List Constant} {slot : Nat} :
    WideAt (c :: cs) (slot + 1) ↔ (slot = 0 ∧ c.isWide = true) ∨ WideAt cs slot := by
  cases slot with
  | zero => simp [WideAt]
  | succ slot => simp [WideAt]

/-- Position by position: a slot without a constant is one that stands behind a wide constant. -/
theorem wellSlotted_iff {cs : List Constant} :
    WellSlotted cs ↔ ∀ i, cs[i]? = some .unusable ↔ WideAt cs i := by
  constructor
  · intro h
    induction h with
    | nil => simp [WideAt]
    | @narrow c cs hu hc _ ih =>
      intro i
      cases i with
      | zero => simp [hu, not_wideAt_zero]
      | succ i => simpa [wideAt_cons, hc] using ih i
    | @wide c cs hc _ ih =>
      have hu : c ≠ .unusable := by
        rintro rfl
        cases hc
      intro i
      match i with
      | 0 => simp [hu, not_wideAt_zero]
      | 1 => simp [wideAt_cons, hc]
      | i + 2 => simpa [wideAt_cons, Constant.isWide] using ih i
  · intro h
    -- two steps at a time, because a wide constant comes with the slot behind it
    induction cs using List.twoStepInduction with
    | nil => exact .nil
    | singleton c =>
      have hu : c ≠ .unusable := by simpa [not_wideAt_zero] using h 0
      have hc : c.isWide = false := by simpa [wideAt_cons, not_wideAt_zero] using h 1
      exact .narrow hu hc .nil
    | cons_cons c d cs ih ih' =>
      have hu : c ≠ .unusable := by simpa [not_wideAt_zero] using h 0
      cases hc : c.isWide with
      | false => exact .narrow hu hc (ih' d fun i => by simpa [wideAt_cons, hc] using h (i + 1))
      | true =>
        have hd : d = .unusable := by simpa [wideAt_cons, hc] using h 1
        subst hd
        exact .wide hc (ih fun i => by simpa [wideAt_cons, Constant.isWide] using h (i + 2))

/-- Two pools with wide constants where they belong, one behind the other. -/
theorem WellSlotted.append {cs ds : List Constant} (h : WellSlotted cs) (h' : WellSlotted ds) :
    WellSlotted (cs ++ ds) := by
  induction h with
  | nil => exact h'
  | narrow hu hc _ ih => exact .narrow hu hc ih
  | wide hc _ ih => exact .wide hc ih

/-- The bytes stand for the constants, one after the other. -/
inductive Spells : List Constant → Bytes → Prop where
  | nil : Spells [] []
  | narrow {c : Constant} {cs : List Constant} {xs ys : Bytes} (hs : c.SpelledBy xs)
      (hc : c.isWide = false) (h : Spells cs ys) : Spells (c :: cs) (xs ++ ys)
  | wide {c : Constant} {cs : List Constant} {xs ys : Bytes} (hs : c.SpelledBy xs)
      (hc : c.isWide = true) (h : Spells cs ys) : Spells (c :: .unusable :: cs) (xs ++ ys)

/-- Constants that were read have each wide one followed by its second slot. -/
theorem Spells.wellSlotted {cs : List Constant} {bytes : Bytes} (h : Spells cs bytes) :
    WellSlotted cs := by
  induction h with
  | nil => exact .nil
  | narrow hs hc _ ih => exact .narrow hs.usable hc ih
  | wide _ hc _ ih => exact .wide hc ih

theorem Spells.fits {cs : List Constant} {bytes : Bytes} (h : Spells cs bytes) :
    ∀ c ∈ cs, c.Fits := by
  induction h with
  | nil => simp
  | narrow hs _ _ ih => exact List.forall_mem_cons.mpr ⟨hs.fits, ih⟩
  | wide hs _ _ ih =>
    exact List.forall_mem_cons.mpr ⟨hs.fits, List.forall_mem_cons.mpr ⟨trivial, ih⟩⟩

/-- Constants that fit are spelled by their encodings. -/
theorem spells_encode {cs : List Constant} (h : WellSlotted cs) (hf : ∀ c ∈ cs, c.Fits) :
    Spells cs (cs.flatMap Constant.encode) := by
  induction h with
  | nil => exact .nil
  | narrow hu hc _ ih =>
    obtain ⟨hc', hcs⟩ := List.forall_mem_cons.mp hf
    exact .narrow (Constant.spelledBy_encode hu hc') hc (ih hcs)
  | @wide c cs hc _ ih =>
    obtain ⟨hc', hcs⟩ := List.forall_mem_cons.mp hf
    have hu : c ≠ .unusable := by
      rintro rfl
      cases hc
    exact .wide (Constant.spelledBy_encode hu hc') hc (ih (List.forall_mem_cons.mp hcs).2)

/-! ## The slots that a count declares -/

/-- A count of that many slots declares the constants. It reaches to their end, or else ends inside
the last of them, which is wide. -/
inductive Declared : (slots : Nat) → List Constant → Prop where
  | nil : Declared 0 []
  | narrow {slots : Nat} {c : Constant} {cs : List Constant} (hc : c.isWide = false)
      (h : Declared slots cs) : Declared (slots + 1) (c :: cs)
  | wide {slots : Nat} {c : Constant} {cs : List Constant} (hc : c.isWide = true)
      (h : Declared slots cs) : Declared (slots + 2) (c :: .unusable :: cs)
  | cut {c : Constant} (hc : c.isWide = true) : Declared 1 [c, .unusable]

/-- The constants are declared by the number of their slots. -/
theorem WellSlotted.declared {cs : List Constant} (h : WellSlotted cs) : Declared cs.length cs := by
  induction h with
  | nil => exact .nil
  | narrow _ hc _ ih => exact .narrow hc ih
  | wide hc _ ih => exact .wide hc ih

/-- A count leaves a slot out exactly when its last slot holds a wide constant. -/
theorem Declared.length_cases {slots : Nat} {cs : List Constant} (h : Declared slots cs) :
    (cs.length = slots ∧ ¬ WideAt cs slots) ∨ (cs.length = slots + 1 ∧ WideAt cs slots) := by
  induction h with
  | nil => exact .inl ⟨rfl, not_wideAt_zero⟩
  | narrow hc _ ih => simpa [wideAt_cons, hc] using ih
  | wide hc _ ih =>
    -- the wide constant has another slot behind it, and that slot holds no constant
    simpa [wideAt_cons, Constant.isWide] using ih
  | cut hc => exact .inr ⟨rfl, wideAt_cons.mpr (.inl ⟨rfl, hc⟩)⟩

/-! ## Reading one constant -/

/-- A text behind its tag. -/
theorem decodeText_eq_ok {slot : Slot} {c later : Cursor} {k : Constant} :
    (do let length ← u2
        let encoded ← take length.toNat
        match ModifiedUtf8.decode encoded with
        | some text => return .utf8 text
        | none => throw (.malformedText slot) : Decoder Constant) c = .ok (k, later) ↔
      ∃ text, k = .utf8 text ∧ ∃ encoded : Bytes, encoded.length ≤ 65535 ∧
        ModifiedUtf8.decode encoded = some text ∧
        c.Past (Bytes.count2 encoded.length ++ encoded) later := by
  rw [inverts_u2.bind_eq_ok]
  constructor
  · rintro ⟨length, mid, ⟨-, hlength⟩, h⟩
    obtain ⟨encoded, mid', htake, h⟩ := decoder_bind_eq_ok.mp h
    obtain ⟨hlen, hpast⟩ := take_eq_ok.mp htake
    have hlt := length.toNat_lt
    cases hdecode : ModifiedUtf8.decode encoded with
    | none =>
      rw [hdecode] at h
      cases h
    | some text =>
      rw [hdecode] at h
      cases h
      refine ⟨text, rfl, encoded, by omega, hdecode, Cursor.past_append.mpr ⟨mid, ?_, hpast⟩⟩
      rw [hlen]
      exact hlength
  · rintro ⟨text, rfl, encoded, hlen, hdecode, hpast⟩
    obtain ⟨mid, hlength, hpast⟩ := Cursor.past_append.mp hpast
    -- the length fits its field, so it is read as it was written
    have hword : (UInt16.ofNat encoded.length).toNat = encoded.length :=
      UInt16.toNat_ofNat_of_lt' (Nat.lt_succ_of_le hlen)
    refine ⟨UInt16.ofNat encoded.length, mid, ⟨trivial, ?_⟩, ?_⟩
    · rw [Bytes.u2, hword]
      exact hlength
    · refine decoder_bind_eq_ok.mpr ⟨encoded, later, take_eq_ok.mpr ⟨hword.symm, hpast⟩, ?_⟩
      rw [hdecode]
      rfl

/-- Two slots. -/
theorem decodeSlots_eq_ok {f : Slot → Slot → Constant} {c later : Cursor} {k : Constant} :
    (do return f (← u2) (← u2) : Decoder Constant) c = .ok (k, later) ↔
      ∃ first second, k = f first second ∧ c.Past (Bytes.u2 first ++ Bytes.u2 second) later := by
  rw [inverts_u2.bind_eq_ok]
  constructor
  · rintro ⟨first, mid, ⟨-, hfirst⟩, h⟩
    obtain ⟨second, last, ⟨-, hsecond⟩, h⟩ := inverts_u2.bind_eq_ok.mp h
    cases h
    exact ⟨first, second, rfl, Cursor.past_append.mpr ⟨mid, hfirst, hsecond⟩⟩
  · rintro ⟨first, second, rfl, hpast⟩
    obtain ⟨mid, hfirst, hsecond⟩ := Cursor.past_append.mp hpast
    exact ⟨first, mid, ⟨trivial, hfirst⟩,
      inverts_u2.bind_eq_ok.mpr ⟨second, later, ⟨trivial, hsecond⟩, rfl⟩⟩

/-- A byte and a slot. -/
theorem decodeHandle_eq_ok {c later : Cursor} {k : Constant} :
    (do return .methodHandle (← u1) (← u2) : Decoder Constant) c = .ok (k, later) ↔
      ∃ kind member, k = .methodHandle kind member ∧
        c.Past ([kind] ++ Bytes.u2 member) later := by
  rw [inverts_u1.bind_eq_ok]
  constructor
  · rintro ⟨kind, mid, ⟨-, hkind⟩, h⟩
    obtain ⟨member, last, ⟨-, hmember⟩, h⟩ := inverts_u2.bind_eq_ok.mp h
    cases h
    exact ⟨kind, member, rfl, Cursor.past_append.mpr ⟨mid, hkind, hmember⟩⟩
  · rintro ⟨kind, member, rfl, hpast⟩
    obtain ⟨mid, hkind, hmember⟩ := Cursor.past_append.mp hpast
    exact ⟨kind, mid, ⟨trivial, hkind⟩,
      inverts_u2.bind_eq_ok.mpr ⟨member, later, ⟨trivial, hmember⟩, rfl⟩⟩

/-- One word, from which the constant is made. -/
theorem decodeWord_eq_ok {α : Type} {d : Decoder α} {encode : α → Bytes}
    (hd : Inverts d encode (fun _ => True)) {f : α → Constant} {c later : Cursor} {k : Constant} :
    (do return f (← d) : Decoder Constant) c = .ok (k, later) ↔
      ∃ x, k = f x ∧ c.Past (encode x) later := by
  rw [hd.bind_eq_ok]
  constructor
  · rintro ⟨x, mid, ⟨-, hx⟩, h⟩
    cases h
    exact ⟨x, rfl, hx⟩
  · rintro ⟨x, rfl, hx⟩
    exact ⟨x, later, ⟨trivial, hx⟩, rfl⟩

/-- A constant that is read is spelled by the bytes it was read from. The cases are those of the
tag. -/
theorem spelledBy_of_decodeConstant {slot : Slot} {c later : Cursor} {k : Constant}
    (h : decodeConstant slot c = .ok (k, later)) :
    ∃ bytes, k.SpelledBy bytes ∧ c.Past bytes later := by
  unfold decodeConstant at h
  obtain ⟨tag, mid, ⟨-, htag⟩, h⟩ := inverts_u1.bind_eq_ok.mp h
  -- the tag byte is known only through its number, which the match has compared
  have hbyte : ∀ n : Nat, tag.toNat = n → c.Past [UInt8.ofNat n] mid := by
    rintro n rfl
    rwa [UInt8.ofNat_toNat]
  have hword : ∀ (n : Nat) (k' : Constant) (body : Bytes), tag.toNat = n →
      k'.encode = UInt8.ofNat n :: body → mid.Past body later → k' = k → k'.SpelledBy k'.encode →
      ∃ bytes, k.SpelledBy bytes ∧ c.Past bytes later := by
    rintro n k' body hn hencode hbody rfl hspelled
    refine ⟨_, hspelled, ?_⟩
    rw [hencode]
    exact Cursor.past_append.mpr ⟨mid, hbyte n hn, hbody⟩
  generalize htag' : tag.toNat = n at h
  split at h
  case h_1 htag' =>
    obtain ⟨text, rfl, encoded, hlen, hdecode, hpast⟩ := decodeText_eq_ok.mp h
    exact ⟨_, ⟨encoded, hlen, hdecode, rfl⟩, Cursor.past_append.mpr ⟨mid, hbyte 1 htag', hpast⟩⟩
  case h_2 htag' =>
    obtain ⟨x, rfl, hpast⟩ := (decodeWord_eq_ok inverts_u4).mp h
    exact hword _ (.integer x.toInt32) _ htag' rfl hpast rfl rfl
  case h_3 htag' =>
    obtain ⟨x, rfl, hpast⟩ := (decodeWord_eq_ok inverts_u4).mp h
    exact hword _ (.float x) _ htag' rfl hpast rfl rfl
  case h_4 htag' =>
    obtain ⟨x, rfl, hpast⟩ := (decodeWord_eq_ok inverts_u8).mp h
    exact hword _ (.long x.toInt64) _ htag' rfl hpast rfl rfl
  case h_5 htag' =>
    obtain ⟨x, rfl, hpast⟩ := (decodeWord_eq_ok inverts_u8).mp h
    exact hword _ (.double x) _ htag' rfl hpast rfl rfl
  case h_12 htag' =>
    obtain ⟨kind, member, rfl, hpast⟩ := decodeHandle_eq_ok.mp h
    exact hword _ (.methodHandle kind member) _ htag' rfl hpast rfl rfl
  case h_18 =>
    cases h
  case h_8 htag' | h_9 htag' | h_10 htag' | h_11 htag' | h_14 htag' | h_15 htag' =>
    obtain ⟨first, second, rfl, hpast⟩ := decodeSlots_eq_ok.mp h
    exact hword _ _ _ htag' rfl hpast rfl rfl
  case h_6 htag' | h_7 htag' | h_13 htag' | h_16 htag' | h_17 htag' =>
    obtain ⟨x, rfl, hpast⟩ := (decodeWord_eq_ok inverts_u2).mp h
    exact hword _ _ _ htag' rfl hpast rfl rfl

/-- The bytes that spell a constant are read as the constant. -/
theorem decodeConstant_of_spelledBy {slot : Slot} {c later : Cursor} {k : Constant} {bytes : Bytes}
    (hs : k.SpelledBy bytes) (hpast : c.Past bytes later) :
    decodeConstant slot c = .ok (k, later) := by
  unfold decodeConstant
  -- one group of cases for each shape of body; the tag picks the branch in all of them
  cases k with
  | utf8 text =>
    obtain ⟨encoded, hlen, hdecode, rfl⟩ := hs
    obtain ⟨mid, htag, hbody⟩ := Cursor.past_append.mp hpast
    refine inverts_u1.bind_eq_ok.mpr ⟨1, mid, ⟨trivial, htag⟩, ?_⟩
    exact decodeText_eq_ok.mpr ⟨text, rfl, encoded, hlen, hdecode, hbody⟩
  | unusable => exact absurd hs id
  | integer value =>
    cases hs
    obtain ⟨mid, htag, hbody⟩ := Cursor.past_append.mp hpast
    refine inverts_u1.bind_eq_ok.mpr ⟨3, mid, ⟨trivial, htag⟩, ?_⟩
    exact (decodeWord_eq_ok inverts_u4).mpr ⟨value.toUInt32, by simp, hbody⟩
  | float bits =>
    cases hs
    obtain ⟨mid, htag, hbody⟩ := Cursor.past_append.mp hpast
    refine inverts_u1.bind_eq_ok.mpr ⟨4, mid, ⟨trivial, htag⟩, ?_⟩
    exact (decodeWord_eq_ok inverts_u4).mpr ⟨bits, rfl, hbody⟩
  | long value =>
    cases hs
    obtain ⟨mid, htag, hbody⟩ := Cursor.past_append.mp hpast
    refine inverts_u1.bind_eq_ok.mpr ⟨5, mid, ⟨trivial, htag⟩, ?_⟩
    exact (decodeWord_eq_ok inverts_u8).mpr ⟨value.toUInt64, by simp, hbody⟩
  | double bits =>
    cases hs
    obtain ⟨mid, htag, hbody⟩ := Cursor.past_append.mp hpast
    refine inverts_u1.bind_eq_ok.mpr ⟨6, mid, ⟨trivial, htag⟩, ?_⟩
    exact (decodeWord_eq_ok inverts_u8).mpr ⟨bits, rfl, hbody⟩
  | methodHandle kind member =>
    cases hs
    obtain ⟨mid, htag, hbody⟩ := Cursor.past_append.mp hpast
    refine inverts_u1.bind_eq_ok.mpr ⟨15, mid, ⟨trivial, htag⟩, ?_⟩
    exact decodeHandle_eq_ok.mpr ⟨kind, member, rfl, hbody⟩
  | classRef slot | string slot | methodType slot | moduleRef slot | packageRef slot =>
    cases hs
    obtain ⟨mid, htag, hbody⟩ := Cursor.past_append.mp hpast
    refine inverts_u1.bind_eq_ok.mpr ⟨_, mid, ⟨trivial, htag⟩, ?_⟩
    exact (decodeWord_eq_ok inverts_u2).mpr ⟨slot, rfl, hbody⟩
  | fieldRef first second | methodRef first second | interfaceMethodRef first second
  | nameAndType first second | dynamic first second | invokeDynamic first second =>
    cases hs
    obtain ⟨mid, htag, hbody⟩ := Cursor.past_append.mp hpast
    refine inverts_u1.bind_eq_ok.mpr ⟨_, mid, ⟨trivial, htag⟩, ?_⟩
    exact decodeSlots_eq_ok.mpr ⟨first, second, rfl, hbody⟩

/-! ## Reading the slots -/

/-- What was read onto other constants is spelled by the bytes gone past, and declared by the
slots that were asked for. -/
theorem spells_of_decodeConstantsOnto {read xs : Array Constant} {slots : Nat} {c later : Cursor}
    (h : decodeConstantsOnto read slots c = .ok (xs, later)) :
    ∃ (cs : List Constant) (bytes : Bytes), xs = read ++ cs ∧ Spells cs bytes ∧
      Declared slots cs ∧ c.Past bytes later := by
  -- a wide constant takes two off the count, hence the strong induction
  induction slots using Nat.strongRecOn generalizing read c with
  | ind slots ih =>
    cases slots with
    | zero =>
      cases h
      exact ⟨[], [], by simp, .nil, .nil, by simp⟩
    | succ slots =>
      rw [decodeConstantsOnto.eq_def] at h
      obtain ⟨k, mid, hk, h⟩ := decoder_bind_eq_ok.mp h
      obtain ⟨ks, hspelled, hpast⟩ := spelledBy_of_decodeConstant hk
      by_cases hwide : k.isWide = true
      · rw [if_pos hwide] at h
        cases slots with
        | zero =>
          cases h
          refine ⟨[k, .unusable], ks ++ [], by simp, .wide hspelled hwide .nil, .cut hwide, ?_⟩
          rwa [List.append_nil]
        | succ slots =>
          obtain ⟨cs, bytes, rfl, hspells, hdeclared, hpast'⟩ := ih slots (by omega) h
          refine ⟨k :: .unusable :: cs, ks ++ bytes, by simp, .wide hspelled hwide hspells,
            .wide hwide hdeclared, ?_⟩
          exact Cursor.past_append.mpr ⟨mid, hpast, hpast'⟩
      · rw [if_neg hwide] at h
        have hnarrow : k.isWide = false := by simpa using hwide
        obtain ⟨cs, bytes, rfl, hspells, hdeclared, hpast'⟩ := ih slots (by omega) h
        refine ⟨k :: cs, ks ++ bytes, by simp, .narrow hspelled hnarrow hspells,
          .narrow hnarrow hdeclared, ?_⟩
        exact Cursor.past_append.mpr ⟨mid, hpast, hpast'⟩

/-- The bytes that spell constants are read as the constants, when slots are asked for that
declare them. -/
theorem decodeConstantsOnto_of_spells {slots : Nat} {cs : List Constant} {bytes : Bytes}
    (h : Spells cs bytes) (hd : Declared slots cs) (read : Array Constant) {c later : Cursor}
    (hpast : c.Past bytes later) :
    decodeConstantsOnto read slots c = .ok (read ++ cs, later) := by
  -- the induction is on the slots that are declared; what is spelled has to go the same way
  induction hd generalizing read bytes c with
  | nil =>
    cases h
    rw [Cursor.past_nil.mp hpast]
    simp [decodeConstantsOnto]
  | @narrow slots k cs hk _ ih =>
    cases h with
    | wide _ hwide _ => simp [hk] at hwide
    | narrow hs _ h =>
      obtain ⟨mid, hhead, htail⟩ := Cursor.past_append.mp hpast
      rw [decodeConstantsOnto.eq_def]
      refine decoder_bind_eq_ok.mpr ⟨k, mid, decodeConstant_of_spelledBy hs hhead, ?_⟩
      rw [if_neg (by simp [hk]), ih h _ htail]
      simp
  | @wide slots k cs hk _ ih =>
    cases h with
    | narrow _ hnarrow _ => simp [hk] at hnarrow
    | wide hs _ h =>
      obtain ⟨mid, hhead, htail⟩ := Cursor.past_append.mp hpast
      rw [decodeConstantsOnto.eq_def]
      refine decoder_bind_eq_ok.mpr ⟨k, mid, decodeConstant_of_spelledBy hs hhead, ?_⟩
      rw [if_pos hk]
      dsimp only
      rw [ih h _ htail]
      simp
  | @cut k hk =>
    cases h with
    | narrow _ hnarrow _ => simp [hk] at hnarrow
    | wide hs _ h =>
      cases h
      rw [List.append_nil] at hpast
      rw [decodeConstantsOnto.eq_def]
      refine decoder_bind_eq_ok.mpr ⟨k, later, decodeConstant_of_spelledBy hs hpast, ?_⟩
      rw [if_pos hk]
      simp

/-! ## Constants that were added -/

section

open ConstantPool

variable {texts : String → Prop} {pool later : ConstantPool}

/-- Narrow constants can stand behind any others. -/
theorem wellSlotted_of_harmless {cs : List Constant} (h : ∀ c ∈ cs, Harmless texts pool c) :
    WellSlotted cs := by
  induction cs with
  | nil => exact .nil
  | cons c cs ih =>
    obtain ⟨hc, hcs⟩ := List.forall_mem_cons.mp h
    exact .narrow hc.usable hc.narrow (ih hcs)

/-- Harmless constants are narrow, so they bring no second slots. -/
theorem ConstantPool.Grown.wellSlotted (h : Grown texts pool later)
    (hslots : WellSlotted pool.constants.toList) : WellSlotted later.constants.toList := by
  obtain ⟨added, hadded, hharmless⟩ := h.added
  rw [hadded]
  exact hslots.append (wellSlotted_of_harmless hharmless)

/-- Constants for texts that fit fit. -/
theorem ConstantPool.Grown.fits (h : Grown texts pool later)
    (hfits : ∀ c ∈ pool.constants.toList, c.Fits)
    (htexts : ∀ text, texts text → (ModifiedUtf8.encode text).length ≤ 65535) :
    ∀ c ∈ later.constants.toList, c.Fits := by
  obtain ⟨added, hadded, hharmless⟩ := h.added
  rw [hadded, List.forall_mem_append]
  refine ⟨hfits, fun c hc => ?_⟩
  cases c with
  | utf8 text => exact htexts text ((hharmless _ hc).text text rfl)
  | _ => trivial

end

end JvmStub
