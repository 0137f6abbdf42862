/-
`Quoted.lean` -- text between quotes, as messages show it.

Inside quotes the quote itself and the backslash take a backslash, four controls
have a letter of their own, and every other character that cannot be shown alone
is written as its code point. A text stands between double quotes and a single
character between single ones; each escapes only the quote that it stands in.
-/
import JvmStub.Text.Extending
import JvmStub.Text.Printable

set_option autoImplicit false

namespace JvmStub.Text

/-- A character as it is written between the quotes `quote`. -/
def escaped (quote c : Char) : List Char :=
  if c = quote ∨ c = '\\' then ['\\', c]
  else if c = '\t' then ['\\', 't']
  else if c = '\n' then ['\\', 'n']
  else if c = '\r' then ['\\', 'r']
  else if c.toNat = 0 then ['\\', '0']
  else if isAttached c || !isPrintable c then
    ['\\', 'u', '\x7b'] ++ Nat.toDigits 16 c.toNat ++ ['\x7d']
  else [c]

/-- A text between double quotes. -/
def quoted (text : String) : String :=
  String.ofList (['"'] ++ text.toList.flatMap (escaped '"') ++ ['"'])

/-- A character between single quotes. -/
def quotedChar (c : Char) : String :=
  String.ofList (['\''] ++ escaped '\'' c ++ ['\''])

end JvmStub.Text
