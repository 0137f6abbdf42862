/-
`Blank.lean` -- the characters that Unicode calls white space, and trimming.

The property `White_Space` holds of twenty-five characters, all in the basic
plane: five controls, the space, the next-line control, the no-break space, the
spaces of the general punctuation block and three further separators.
-/
set_option autoImplicit false

namespace JvmStub.Text

/-- The Unicode property `White_Space`. -/
def isBlank (c : Char) : Bool :=
  let n := c.toNat
  (0x09 ≤ n && n ≤ 0x0D) || n == 0x20 || n == 0x85 || n == 0xA0 || n == 0x1680 ||
    (0x2000 ≤ n && n ≤ 0x200A) || n == 0x2028 || n == 0x2029 || n == 0x202F || n == 0x205F ||
    n == 0x3000

/-- The characters without the white space at either end. -/
def trim (cs : List Char) : List Char :=
  ((cs.dropWhile isBlank).reverse.dropWhile isBlank).reverse

end JvmStub.Text
