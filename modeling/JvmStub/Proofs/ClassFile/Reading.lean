/-
`Reading.lean` -- what the primitive decoders read.

A decoder is described by the bytes it goes past: `c.Past bytes later` says that
`bytes` stand in front at `c` and that `later` is the place behind them. A
decoder inverts an encoder when its successes are exactly the moves past the
encodings of the values that fit. The description is an equivalence, so one
statement gives both directions of a round trip, and it composes: going past two
byte strings one after the other is going past their concatenation.
-/
import JvmStub.Bytes
import JvmStub.Proofs.Steps
import Mathlib.Algebra.Ring.Nat
import Mathlib.Data.List.Induction

set_option autoImplicit false

namespace JvmStub

/-! ## Words and their digits -/

namespace Bytes

/-- Reading a field gives the number cut to the field. -/
theorem number_bigEndian (width n : Nat) : number (bigEndian width n) = n % 256 ^ width := by
  induction width generalizing n with
  | zero => simp [bigEndian, Nat.mod_one]
  | succ width ih =>
    have digit : (UInt8.ofNat n).toNat = n % 256 := by simp
    rw [bigEndian, number_append_singleton, ih, digit, Nat.pow_succ, Nat.mul_comm (256 ^ width),
      Nat.mod_mul, Nat.mul_comm, Nat.add_comm]

/-- A number below `256 ^ width` has `width` digits, so its field holds it. -/
theorem number_lt (bytes : Bytes) : number bytes < 256 ^ bytes.length := by
  induction bytes using List.reverseRecOn with
  | nil => simp
  | append_singleton bytes b ih =>
    rw [number_append_singleton, List.length_append, List.length_singleton, Nat.pow_succ]
    have hb := b.toNat_lt
    omega

/-- The digits of the number that bytes spell are the bytes. -/
theorem bigEndian_number (bytes : Bytes) : bigEndian bytes.length (number bytes) = bytes := by
  induction bytes using List.reverseRecOn with
  | nil => rfl
  | append_singleton bytes b ih =>
    have hb := b.toNat_lt
    have hquot : (number bytes * 256 + b.toNat) / 256 = number bytes := by omega
    have hdigit : UInt8.ofNat (number bytes * 256 + b.toNat) = b := by
      apply UInt8.toNat.inj
      rw [UInt8.toNat_ofNat']
      omega
    rw [number_append_singleton, List.length_append, List.length_singleton, bigEndian, hquot,
      hdigit, ih]

/-- A long field is two shorter ones, the leading digits first. -/
theorem bigEndian_add (a b n : Nat) :
    bigEndian (a + b) n = bigEndian a (n / 256 ^ b) ++ bigEndian b n := by
  induction b generalizing n with
  | zero => simp [bigEndian]
  | succ b ih =>
    rw [← Nat.add_assoc, bigEndian, ih, bigEndian, List.append_assoc, Nat.div_div_eq_div_mul,
      Nat.pow_succ, Nat.mul_comm 256]

/-- A field depends on the number only up to its width. -/
theorem bigEndian_mod (width n : Nat) : bigEndian width (n % 256 ^ width) = bigEndian width n := by
  rw [← number_bigEndian]
  have hself := bigEndian_number (bigEndian width n)
  rwa [length_bigEndian] at hself

end Bytes

/-! ## Going past bytes -/

/-- The later place stands behind the bytes that are in front at the earlier one. -/
def Cursor.Past (c : Cursor) (bytes : Bytes) (later : Cursor) : Prop :=
  c.rest = bytes ++ later.rest ∧ later.offset = c.offset + bytes.length

namespace Cursor

variable {c later : Cursor} {xs ys : Bytes}

@[simp] theorem past_nil : c.Past [] later ↔ later = c := by
  cases c
  cases later
  simp only [Past, List.nil_append, List.length_nil, Nat.add_zero, Cursor.mk.injEq]
  exact ⟨fun ⟨h, h'⟩ => ⟨h', h.symm⟩, fun ⟨h, h'⟩ => ⟨h'.symm, h⟩⟩

/-- Going past some bytes and then others is going past all of them. -/
theorem past_append :
    c.Past (xs ++ ys) later ↔ ∃ mid, c.Past xs mid ∧ mid.Past ys later := by
  constructor
  · rintro ⟨hrest, hoffset⟩
    refine ⟨⟨c.offset + xs.length, ys ++ later.rest⟩, ⟨?_, rfl⟩, rfl, ?_⟩
    · rw [hrest, List.append_assoc]
    · rw [hoffset, List.length_append, Nat.add_assoc]
  · rintro ⟨mid, ⟨hrest, hoffset⟩, hrest', hoffset'⟩
    constructor
    · rw [hrest, hrest', List.append_assoc]
    · rw [hoffset', hoffset, List.length_append, Nat.add_assoc]

end Cursor

/-- The decoder reads a value from each byte string that spells it, and from nothing else. -/
def Decoder.Reads {α : Type} (d : Decoder α) (SpelledBy : α → Bytes → Prop) : Prop :=
  ∀ c x later, d c = .ok (x, later) ↔ ∃ bytes, SpelledBy x bytes ∧ c.Past bytes later

/-- The decoder reads the encodings of the values that fit, and nothing else. -/
def Decoder.Inverts {α : Type} (d : Decoder α) (encode : α → Bytes) (Fits : α → Prop) : Prop :=
  ∀ c x later, d c = .ok (x, later) ↔ Fits x ∧ c.Past (encode x) later

namespace Decoder

/-- What a decoder that inverts an encoder reads has one spelling. -/
theorem Inverts.reads {α : Type} {d : Decoder α} {encode : α → Bytes} {Fits : α → Prop}
    (h : Inverts d encode Fits) : Reads d fun x bytes => Fits x ∧ bytes = encode x := by
  intro c x later
  rw [h c x later]
  constructor
  · rintro ⟨hfits, hpast⟩
    exact ⟨encode x, ⟨hfits, rfl⟩, hpast⟩
  · rintro ⟨bytes, ⟨hfits, rfl⟩, hpast⟩
    exact ⟨hfits, hpast⟩

/-- A decoder that inverts an encoder goes past an encoding and hands its value to the rest. -/
theorem Inverts.bind_eq_ok {α β : Type} {d : Decoder α} {encode : α → Bytes} {Fits : α → Prop}
    (h : Inverts d encode Fits) {f : α → Decoder β} {c later : Cursor} {y : β} :
    (d >>= f) c = .ok (y, later) ↔
      ∃ x mid, (Fits x ∧ c.Past (encode x) mid) ∧ f x mid = .ok (y, later) := by
  rw [decoder_bind_eq_ok]
  constructor
  · rintro ⟨x, mid, hx, hf⟩
    exact ⟨x, mid, (h _ _ _).mp hx, hf⟩
  · rintro ⟨x, mid, hx, hf⟩
    exact ⟨x, mid, (h _ _ _).mpr hx, hf⟩

/-! ## Fields -/

/-- A field is taken where all its bytes are there, and the rest is left. -/
theorem take_eq_ok {n : Nat} {c later : Cursor} {bytes : Bytes} :
    take n c = .ok (bytes, later) ↔ bytes.length = n ∧ c.Past bytes later := by
  unfold take
  constructor
  · intro h
    by_cases hshort : (c.rest.take n).length < n
    · rw [if_pos hshort] at h
      cases h
    · rw [if_neg hshort] at h
      have hlen : (c.rest.take n).length = n := by
        have hle := List.length_take_le n c.rest
        omega
      cases h
      exact ⟨hlen, (List.take_append_drop n c.rest).symm, by rw [hlen]⟩
  · rintro ⟨rfl, hrest, hoffset⟩
    have htake : c.rest.take bytes.length = bytes := by rw [hrest, List.take_left]
    have hdrop : c.rest.drop bytes.length = later.rest := by rw [hrest, List.drop_left]
    rw [htake, if_neg (Nat.lt_irrefl _), hdrop, ← hoffset]

/-- Reading a field of a width, turned into a word, inverts writing the word. -/
theorem inverts_take {α : Type} (width : Nat) (toNat : α → Nat) (ofNat : Nat → α)
    (hlt : ∀ x, toNat x < 256 ^ width) (hof : ∀ x, ofNat (toNat x) = x)
    (hto : ∀ n < 256 ^ width, toNat (ofNat n) = n) :
    Inverts (do return ofNat (Bytes.number (← take width)))
      (fun x => Bytes.bigEndian width (toNat x)) (fun _ => True) := by
  intro c x later
  rw [decoder_bind_eq_ok]
  constructor
  · rintro ⟨bytes, mid, htake, h⟩
    obtain ⟨hlen, hpast⟩ := take_eq_ok.mp htake
    cases h
    have hnumber : Bytes.number bytes < 256 ^ width := hlen ▸ Bytes.number_lt bytes
    refine ⟨trivial, ?_⟩
    dsimp only
    rw [hto _ hnumber, ← hlen, Bytes.bigEndian_number]
    exact hpast
  · rintro ⟨-, hpast⟩
    refine ⟨_, later, take_eq_ok.mpr ⟨Bytes.length_bigEndian _ _, hpast⟩, ?_⟩
    rw [Bytes.number_bigEndian, Nat.mod_eq_of_lt (hlt x), hof]
    rfl

theorem inverts_u1 : Inverts u1 (fun b => [b]) (fun _ => True) := by
  have h := inverts_take 1 UInt8.toNat UInt8.ofNat (fun x => x.toNat_lt) (by simp)
    (fun n hn => UInt8.toNat_ofNat_of_lt' hn)
  have hone : (fun b : UInt8 => Bytes.bigEndian 1 b.toNat) = fun b => [b] := by
    funext b
    simp [Bytes.bigEndian]
  rwa [hone] at h

/-- A word of two bytes is read as it is written. -/
theorem inverts_u2 : Inverts u2 Bytes.u2 (fun _ => True) :=
  inverts_take 2 UInt16.toNat UInt16.ofNat (fun x => x.toNat_lt) (by simp)
    (fun n hn => UInt16.toNat_ofNat_of_lt' hn)

theorem inverts_u4 : Inverts u4 Bytes.u4 (fun _ => True) :=
  inverts_take 4 UInt32.toNat UInt32.ofNat (fun x => x.toNat_lt) (by simp)
    (fun n hn => UInt32.toNat_ofNat_of_lt' hn)

/-- An eight-byte field is two fields of four bytes: the leading digits and the trailing ones. -/
theorem u8_eq_append (w : UInt64) : Bytes.u8 w =
    Bytes.u4 (UInt32.ofNat (w.toNat / 2 ^ 32)) ++ Bytes.u4 (UInt32.ofNat (w.toNat % 2 ^ 32)) := by
  have hw := w.toNat_lt
  have hhigh : (UInt32.ofNat (w.toNat / 2 ^ 32)).toNat = w.toNat / 256 ^ 4 :=
    UInt32.toNat_ofNat_of_lt' (show _ < 4294967296 by omega)
  have hlow : (UInt32.ofNat (w.toNat % 2 ^ 32)).toNat = w.toNat % 256 ^ 4 :=
    UInt32.toNat_ofNat_of_lt' (show _ < 4294967296 by omega)
  rw [Bytes.u8, Bytes.u4, Bytes.u4, hhigh, hlow, Bytes.bigEndian_mod]
  exact Bytes.bigEndian_add 4 4 w.toNat

/-- A word of eight bytes is read as two of four bytes. -/
theorem inverts_u8 : Inverts u8 Bytes.u8 (fun _ => True) := by
  intro c w later
  have hw := w.toNat_lt
  unfold u8
  constructor
  · intro h
    obtain ⟨high, mid, ⟨-, hhigh⟩, h⟩ := inverts_u4.bind_eq_ok.mp h
    obtain ⟨low, mid', ⟨-, hlow⟩, h⟩ := inverts_u4.bind_eq_ok.mp h
    cases h
    have hhi := high.toNat_lt
    have hlo := low.toNat_lt
    have hword : (UInt64.ofNat (high.toNat * 4294967296 + low.toNat)).toNat =
        high.toNat * 4294967296 + low.toNat :=
      UInt64.toNat_ofNat_of_lt' (show _ < 2 ^ 64 by omega)
    have hquot : (high.toNat * 4294967296 + low.toNat) / 2 ^ 32 = high.toNat := by omega
    have hrem : (high.toNat * 4294967296 + low.toNat) % 2 ^ 32 = low.toNat := by omega
    refine ⟨trivial, ?_⟩
    rw [u8_eq_append, hword, hquot, hrem, UInt32.ofNat_toNat, UInt32.ofNat_toNat,
      Cursor.past_append]
    exact ⟨mid, hhigh, hlow⟩
  · rintro ⟨-, hpast⟩
    rw [u8_eq_append] at hpast
    obtain ⟨mid, hhigh, hlow⟩ := Cursor.past_append.mp hpast
    refine inverts_u4.bind_eq_ok.mpr ⟨_, mid, ⟨trivial, hhigh⟩, ?_⟩
    refine inverts_u4.bind_eq_ok.mpr ⟨_, later, ⟨trivial, hlow⟩, ?_⟩
    -- quotient and remainder by the same number make the word again
    have hback : UInt64.ofNat ((UInt32.ofNat (w.toNat / 2 ^ 32)).toNat * 4294967296 +
        (UInt32.ofNat (w.toNat % 2 ^ 32)).toNat) = w := by
      apply UInt64.toNat.inj
      rw [UInt64.toNat_ofNat', UInt32.toNat_ofNat', UInt32.toNat_ofNat']
      omega
    rw [hback]
    rfl

/-! ## Tables -/

section

variable {α : Type} {entry : Decoder α} {encode : α → Bytes} {Fits : α → Prop}

/-- Repeated runs go past the entries one after the other. -/
theorem repeatOnto_eq_ok (h : Inverts entry encode Fits) {read xs : Array α} {count : Nat}
    {c later : Cursor} :
    repeatOnto entry read count c = .ok (xs, later) ↔
      ∃ ys : List α, ys.length = count ∧ xs = read ++ ys ∧ (∀ y ∈ ys, Fits y) ∧
        c.Past (ys.flatMap encode) later := by
  -- each run pushes onto what was read, so that has to vary in the induction
  induction count generalizing read c with
  | zero =>
    rw [repeatOnto, decoder_pure]
    constructor
    · intro heq
      cases heq
      exact ⟨[], rfl, by simp, by simp, by simp⟩
    · rintro ⟨ys, hlen, rfl, -, hpast⟩
      rw [List.length_eq_zero_iff.mp hlen] at hpast ⊢
      rw [Cursor.past_nil.mp hpast]
      simp
  | succ count ih =>
    rw [repeatOnto, decoder_bind_eq_ok]
    constructor
    · rintro ⟨x, mid, hx, hrun⟩
      obtain ⟨hfits, hpast⟩ := (h _ _ _).mp hx
      obtain ⟨ys, hlen, rfl, hall, hpast'⟩ := ih.mp hrun
      refine ⟨x :: ys, by rw [List.length_cons, hlen], by simp, ?_, ?_⟩
      · exact List.forall_mem_cons.mpr ⟨hfits, hall⟩
      · exact Cursor.past_append.mpr ⟨mid, hpast, hpast'⟩
    · rintro ⟨ys, hlen, rfl, hall, hpast⟩
      cases ys with
      | nil => simp at hlen
      | cons y ys =>
        obtain ⟨hfits, hall⟩ := List.forall_mem_cons.mp hall
        obtain ⟨mid, hpast, hpast'⟩ := Cursor.past_append.mp hpast
        refine ⟨y, mid, (h _ _ _).mpr ⟨hfits, hpast⟩, ih.mpr ⟨ys, ?_, ?_, hall, hpast'⟩⟩
        · simpa using hlen
        · simp

/-- A count in front of a table is no larger than its field can say. -/
theorem inverts_table (h : Inverts entry encode Fits) :
    Inverts (table entry) (fun xs => Bytes.count2 xs.size ++ xs.toList.flatMap encode)
      (fun xs => xs.size ≤ 65535 ∧ ∀ x ∈ xs.toList, Fits x) := by
  intro c xs later
  unfold table
  rw [decoder_bind_eq_ok]
  constructor
  · rintro ⟨count, mid, hcount, hrun⟩
    obtain ⟨ys, hlen, rfl, hall, hpast⟩ := (repeatOnto_eq_ok h).mp hrun
    -- the count that was read is the number of entries, so it is written back the same
    have hsize : ((#[] : Array α) ++ ys).size = count.toNat := by simpa using hlen
    have hlt := count.toNat_lt
    refine ⟨⟨by omega, by simpa using hall⟩, Cursor.past_append.mpr ⟨mid, ?_, by simpa using hpast⟩⟩
    rw [hsize]
    exact ((inverts_u2 _ _ _).mp hcount).2
  · rintro ⟨⟨hsize, hall⟩, hpast⟩
    obtain ⟨mid, hcount, hpast⟩ := Cursor.past_append.mp hpast
    -- the count is cut to its field, which loses nothing of a size that fits
    have hword := UInt16.toNat_ofNat_of_lt' (Nat.lt_succ_of_le hsize)
    refine ⟨UInt16.ofNat xs.size, mid, (inverts_u2 _ _ _).mpr ⟨trivial, ?_⟩, ?_⟩
    · rw [Bytes.u2, hword]
      exact hcount
    · exact (repeatOnto_eq_ok h).mpr ⟨xs.toList, by rw [hword, Array.length_toList], by simp, hall,
        hpast⟩

end

/-! ## Whole byte strings -/

/-- All of the bytes are read exactly when they spell the result. -/
theorem Reads.runAll_eq_ok {α : Type} {d : Decoder α} {SpelledBy : α → Bytes → Prop}
    (h : Reads d SpelledBy) {leftOver : Nat → ReadError} {bytes : Bytes} {x : α} :
    runAll d leftOver bytes = .ok x ↔ SpelledBy x bytes := by
  unfold runAll
  rw [except_bind_eq_ok]
  constructor
  · rintro ⟨⟨y, c⟩, hd, hend⟩
    obtain ⟨spelling, hspelled, hrest, -⟩ := (h _ _ _).mp hd
    dsimp only at hend
    by_cases hempty : c.rest.isEmpty
    · rw [if_pos hempty] at hend
      cases hend
      have hall : bytes = spelling ++ c.rest := hrest
      rw [List.isEmpty_iff.mp hempty, List.append_nil] at hall
      rw [hall]
      exact hspelled
    · rw [if_neg hempty] at hend
      cases hend
  · intro hspelled
    refine ⟨(x, ⟨0 + bytes.length, []⟩), (h _ _ _).mpr ⟨bytes, hspelled, ?_, rfl⟩, rfl⟩
    simp

/-- A decoder that inverts an encoder reads all of the bytes exactly when they are an
encoding. -/
theorem runAll_eq_ok {α : Type} {d : Decoder α} {encode : α → Bytes} {Fits : α → Prop}
    (h : Inverts d encode Fits) {leftOver : Nat → ReadError} {bytes : Bytes} {x : α} :
    runAll d leftOver bytes = .ok x ↔ Fits x ∧ bytes = encode x :=
  h.reads.runAll_eq_ok

end Decoder

end JvmStub
