/-
`Ignorable.lean` -- the characters that Unicode lets a display leave out.

The property `Default_Ignorable_Code_Point` holds of the characters that show
nothing where they are not supported: joiners, directional marks, variation
selectors, and the fillers of the Hangul alphabet, which are letters. Ranges of
code points kept for more of the kind belong to it too. The table is that of
Unicode 17.
-/
import JvmStub.Text.CodeRanges

set_option autoImplicit false

namespace JvmStub.Text

/-- The code points of the property `Default_Ignorable_Code_Point`. -/
def ignorableRanges : CodeRanges where
  ranges := [
    (0xAD, 0xAD), (0x34F, 0x34F), (0x61C, 0x61C), (0x115F, 0x1160), (0x17B4, 0x17B5),
    (0x180B, 0x180F), (0x200B, 0x200F), (0x202A, 0x202E), (0x2060, 0x206F), (0x3164, 0x3164),
    (0xFE00, 0xFE0F), (0xFEFF, 0xFEFF), (0xFFA0, 0xFFA0), (0xFFF0, 0xFFF8), (0x1BCA0, 0x1BCA3),
    (0x1D173, 0x1D17A), (0xE0000, 0xE0FFF)]
  ascending := by decide +kernel

/-- The Unicode property `Default_Ignorable_Code_Point`. -/
def isIgnorable (c : Char) : Bool :=
  c.toNat ∈ ignorableRanges

end JvmStub.Text
