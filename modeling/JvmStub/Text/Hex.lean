/-
`Hex.lean` -- numbers in lower-case hexadecimal digits.
-/
set_option autoImplicit false

namespace JvmStub.Text

/-- The hexadecimal digits of `n`, with leading zeros up to `width` digits. -/
def hexPadded (width n : Nat) : String :=
  let digits := Nat.toDigits 16 n
  String.ofList (List.replicate (width - digits.length) '0' ++ digits)

end JvmStub.Text
