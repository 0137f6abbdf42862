/-
`Printable.lean` -- the characters that can be shown as they are.

A control, a format character, a separator other than the space and a private-use
character have no form of their own, and an unassigned code point has none yet. A
character that a display may leave out cannot be relied on to show.
-/
import JvmStub.Text.Ignorable
import JvmStub.Text.Unassigned

set_option autoImplicit false

namespace JvmStub.Text

/-- The assigned code points without a visible form: the general categories `Cc`, `Cf`, `Co`,
`Zl`, `Zp` and `Zs` of Unicode 17, but for the space. -/
def hiddenRanges : CodeRanges where
  ranges := [
    (0x0, 0x1F), (0x7F, 0xA0), (0xAD, 0xAD), (0x600, 0x605), (0x61C, 0x61C), (0x6DD, 0x6DD),
    (0x70F, 0x70F), (0x890, 0x891), (0x8E2, 0x8E2), (0x1680, 0x1680), (0x180E, 0x180E),
    (0x2000, 0x200F), (0x2028, 0x202F), (0x205F, 0x2064), (0x2066, 0x206F), (0x3000, 0x3000),
    (0xE000, 0xF8FF), (0xFEFF, 0xFEFF), (0xFFF9, 0xFFFB), (0x110BD, 0x110BD), (0x110CD, 0x110CD),
    (0x13430, 0x1343F), (0x1BCA0, 0x1BCA3), (0x1D173, 0x1D17A), (0xE0001, 0xE0001),
    (0xE0020, 0xE007F), (0xF0000, 0xFFFFD), (0x100000, 0x10FFFD)]
  ascending := by decide +kernel

/-- A character with a visible form. -/
def isPrintable (c : Char) : Bool :=
  !decide (c.toNat ∈ hiddenRanges) && !isIgnorable c && !isUnassigned c

end JvmStub.Text
