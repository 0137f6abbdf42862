/-
`Decoder.lean` -- reading from the front of a byte string.

A decoder takes bytes from the front of what is left and remembers how many it
has taken. When there are too few bytes, it reports how far it had come and how
many more it wanted. A table is read by as many runs of its entry's decoder as
its count says.
-/
import JvmStub.ClassFile.Basic
import JvmStub.Text.Hex

set_option autoImplicit false

namespace JvmStub

/-- What can be wrong with the payload of an attribute, or with its place. -/
inductive AttributeDefect where
  | unreadBytes (count : Nat)
  | wrongLength (expected found : Nat)
  | declaredTwice
  deriving DecidableEq, Repr

/-- The wording of a defect. -/
def AttributeDefect.message : AttributeDefect → String
  | unreadBytes count => s!"{count} unread bytes"
  | wrongLength expected found => s!"expected {expected} bytes, found {found}"
  | declaredTwice => "declared more than once"

/-- What can go wrong while a class file is read. -/
inductive ReadError where
  | truncated (offset wanted : Nat)
  | badMagic (magic : UInt32)
  | unknownTag (tag : UInt8) (slot : Slot)
  | malformedText (slot : Slot)
  | pool (error : PoolError)
  | malformedAttribute (name : AttributeName) (defect : AttributeDefect)
  | trailingBytes (count : Nat)
  deriving DecidableEq, Repr

/-- The wording of a read error. -/
def ReadError.message : ReadError → String
  | truncated offset wanted =>
    s!"Unexpected end of class data at offset {offset} (wanted {wanted} more bytes)"
  | badMagic magic => "Bad magic number: 0x" ++ Text.hexPadded 8 magic.toNat
  | unknownTag tag slot => s!"Unknown constant pool tag {tag} at index {slot}"
  | malformedText slot => s!"Invalid modified UTF-8 in constant pool entry {slot}"
  | pool error => "Constant pool error: " ++ error.message
  | malformedAttribute name defect =>
    "Malformed " ++ name.text ++ " attribute: " ++ defect.message
  | trailingBytes count => s!"{count} trailing bytes after class file end"

/-- The bytes not yet read, and how many were read before them. -/
structure Cursor where
  offset : Nat
  rest : Bytes
  deriving DecidableEq, Repr

/-- A computation that reads from the front of the bytes. -/
abbrev Decoder := StateT Cursor (Except ReadError)

namespace Decoder

/-- The next `count` bytes. -/
def take (count : Nat) : Decoder Bytes := fun cursor =>
  let taken := cursor.rest.take count
  if taken.length < count then .error (.truncated cursor.offset (count - taken.length))
  else .ok (taken, ⟨cursor.offset + count, cursor.rest.drop count⟩)

/-- A one-byte number. -/
def u1 : Decoder UInt8 := do return UInt8.ofNat (Bytes.number (← take 1))

/-- A two-byte number. -/
def u2 : Decoder UInt16 := do return UInt16.ofNat (Bytes.number (← take 2))

/-- A four-byte number. -/
def u4 : Decoder UInt32 := do return UInt32.ofNat (Bytes.number (← take 4))

/-- An eight-byte number, read as its two halves. -/
def u8 : Decoder UInt64 := do
  let high ← u4
  let low ← u4
  return UInt64.ofNat (high.toNat * 4294967296 + low.toNat)

/-- Runs a decoder `count` times, onto the results already read. -/
def repeatOnto {α : Type} (entry : Decoder α) (read : Array α) : (count : Nat) → Decoder (Array α)
  | 0 => pure read
  | count + 1 => do
    let x ← entry
    repeatOnto entry (read.push x) count

/-- A two-byte count, and as many entries. -/
def table {α : Type} (entry : Decoder α) : Decoder (Array α) := do
  let count ← u2
  repeatOnto entry #[] count.toNat

/-- The result of reading all of the bytes; `leftOver` says what it means that some are
left. -/
def runAll {α : Type} (decoder : Decoder α) (leftOver : Nat → ReadError) (bytes : Bytes) :
    Except ReadError α := do
  let (x, cursor) ← decoder ⟨0, bytes⟩
  if cursor.rest.isEmpty then .ok x else .error (leftOver cursor.rest.length)

end Decoder

end JvmStub
