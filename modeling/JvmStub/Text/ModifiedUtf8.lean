/-
`ModifiedUtf8.lean` -- the text encoding of class files.

Class files write text unit by unit: each UTF-16 code unit takes one, two or
three bytes, so a character outside the basic plane takes two groups of three.
The unit zero takes two bytes, which keeps the zero byte out of every encoded
text.

`decode` reads any group of the right shape, including one that is longer than
its unit needs; it refuses a zero byte, a lead byte of four-byte groups, a
continuation byte without a lead, a group cut short and an unpaired surrogate.
-/
import JvmStub.Bytes
import JvmStub.Text.Utf16

set_option autoImplicit false

namespace JvmStub.ModifiedUtf8

/-- The shortest group for a code unit, with two bytes for the unit zero. -/
def encodeUnit (u : UInt16) : Bytes :=
  let n := u.toNat
  if 1 ≤ n ∧ n ≤ 0x7F then [UInt8.ofNat n]
  else if n ≤ 0x7FF then [UInt8.ofNat (0xC0 + n / 64), UInt8.ofNat (0x80 + n % 64)]
  else [UInt8.ofNat (0xE0 + n / 4096), UInt8.ofNat (0x80 + n / 64 % 64), UInt8.ofNat (0x80 + n % 64)]

/-- The bytes of a text. -/
def encode (text : String) : Bytes := (Utf16.units text.toList).flatMap encodeUnit

/-- The bytes that carry six bits of a longer group. -/
def isContinuation (b : UInt8) : Bool := 0x80 ≤ b && b ≤ 0xBF

/-- The unit of a two-byte group. -/
def joinTwo (a b : UInt8) : UInt16 :=
  UInt16.ofNat ((a.toNat - 0xC0) * 64 + (b.toNat - 0x80))

/-- The unit of a three-byte group. -/
def joinThree (a b c : UInt8) : UInt16 :=
  UInt16.ofNat ((a.toNat - 0xE0) * 4096 + (b.toNat - 0x80) * 64 + (c.toNat - 0x80))

/-- Reads groups onto the reversed units already read. -/
def unitsOnto : List UInt16 → Bytes → Option (List UInt16)
  | read, [] => some read.reverse
  | read, a :: rest =>
    if a < 0x80 then
      if a = 0 then none else unitsOnto (a.toUInt16 :: read) rest
    else if 0xC0 ≤ a ∧ a ≤ 0xDF then
      match rest with
      | b :: rest => if isContinuation b then unitsOnto (joinTwo a b :: read) rest else none
      | [] => none
    else if 0xE0 ≤ a ∧ a ≤ 0xEF then
      match rest with
      | b :: c :: rest =>
        if isContinuation b && isContinuation c then unitsOnto (joinThree a b c :: read) rest
        else none
      | _ => none
    else none

/-- The code units that the bytes spell, `none` when a group is malformed. -/
def units? (bytes : Bytes) : Option (List UInt16) := unitsOnto [] bytes

/-- The text that the bytes spell, `none` when they are malformed. -/
def decode (bytes : Bytes) : Option String :=
  (units? bytes).bind fun us => (Utf16.chars? us).map String.ofList

end JvmStub.ModifiedUtf8
