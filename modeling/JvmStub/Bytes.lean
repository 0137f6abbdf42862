/-
`Bytes.lean` -- byte strings and the big-endian words inside them.

A class file knows one way to write a number: its base-256 digits, most
significant first, in a field of one, two, four or eight bytes. `bigEndian`
writes such a field and `number` reads one.
-/
set_option autoImplicit false

namespace JvmStub

/-- A byte string, first byte first. -/
abbrev Bytes := List UInt8

namespace Bytes

/-- The field of `width` bytes that holds `n`. A number too large for the field
loses its leading digits, as a count does when it is stored in too small a field. -/
def bigEndian : (width : Nat) → (n : Nat) → Bytes
  | 0, _ => []
  | width + 1, n => bigEndian width (n / 256) ++ [UInt8.ofNat n]

/-- The number whose base-256 digits are the bytes, most significant first. -/
def number (bytes : Bytes) : Nat :=
  bytes.foldl (fun n b => n * 256 + b.toNat) 0

/-- A two-byte field. -/
def u2 (w : UInt16) : Bytes := bigEndian 2 w.toNat

/-- A four-byte field. -/
def u4 (w : UInt32) : Bytes := bigEndian 4 w.toNat

/-- An eight-byte field. -/
def u8 (w : UInt64) : Bytes := bigEndian 8 w.toNat

/-- A two-byte count, cut to sixteen bits. -/
def count2 (n : Nat) : Bytes := bigEndian 2 n

/-- A four-byte count, cut to thirty-two bits. -/
def count4 (n : Nat) : Bytes := bigEndian 4 n

/-! ## The field and the number -/

@[simp] theorem number_nil : number [] = 0 := rfl

@[simp] theorem number_append_singleton (bytes : Bytes) (b : UInt8) :
    number (bytes ++ [b]) = number bytes * 256 + b.toNat := by
  simp [number, List.foldl_append]

@[simp] theorem length_bigEndian (width n : Nat) : (bigEndian width n).length = width := by
  induction width generalizing n with
  | zero => rfl
  | succ width ih => simp [bigEndian, ih]

end Bytes

end JvmStub
