/-
`Utf16.lean` -- text as UTF-16 code units.

A character below 2^16 is one unit; any other is a high surrogate followed by a
low one. `units` writes the units of a text and `chars?` reads them back. A
surrogate that has no partner stands for no character, so `chars?` refuses it.
-/
set_option autoImplicit false

namespace JvmStub.Utf16

/-- The one or two code units of a character. -/
def unitsOf (c : Char) : List UInt16 :=
  let n := c.toNat
  if n < 0x10000 then [UInt16.ofNat n]
  else [UInt16.ofNat (0xD800 + (n - 0x10000) / 0x400), UInt16.ofNat (0xDC00 + (n - 0x10000) % 0x400)]

/-- The code units of a text. -/
def units (cs : List Char) : List UInt16 := cs.flatMap unitsOf

/-- The first unit of a pair. -/
def isHighSurrogate (u : UInt16) : Bool := 0xD800 ≤ u && u ≤ 0xDBFF

/-- The second unit of a pair. -/
def isLowSurrogate (u : UInt16) : Bool := 0xDC00 ≤ u && u ≤ 0xDFFF

/-- The character that a surrogate pair stands for. -/
def joinPair (high low : UInt16) : Char :=
  Char.ofNat (0x10000 + (high.toNat - 0xD800) * 0x400 + (low.toNat - 0xDC00))

/-- Reads units onto the reversed characters already read. -/
def charsOnto : List Char → List UInt16 → Option (List Char)
  | read, [] => some read.reverse
  | read, u :: rest =>
    if isHighSurrogate u then
      match rest with
      | [] => none
      | v :: rest => if isLowSurrogate v then charsOnto (joinPair u v :: read) rest else none
    else if isLowSurrogate u then none
    else charsOnto (Char.ofNat u.toNat :: read) rest

/-- The text that the units spell, `none` when a surrogate has no partner. -/
def chars? (us : List UInt16) : Option (List Char) := charsOnto [] us

end JvmStub.Utf16
