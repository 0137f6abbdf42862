/-
`Parser.lean` -- reading descriptors.

A descriptor is read from the left, one type at a time. Reading a type takes at
least one character and leaves the rest, which is why reading a list of types
comes to an end. The first fault met is the one reported.
-/
import JvmStub.Descriptor.Basic
import JvmStub.Text.Quoted

set_option autoImplicit false

namespace JvmStub

/-- What can be wrong with a descriptor. -/
inductive DescriptorFault where
  | tooManyDimensions
  | unexpectedEnd
  | misplacedVoid
  | unknownType
  | unterminatedName
  | emptyName
  | illegalName
  | trailingCharacters
  | missingOpening
  | missingClosing
  | missingResult
  deriving DecidableEq, Repr

/-- The wording of a fault. -/
def DescriptorFault.message : DescriptorFault → String
  | tooManyDimensions => "too many array dimensions"
  | unexpectedEnd => "unexpected end of descriptor"
  | misplacedVoid => "void is only valid as a return type"
  | unknownType => "unknown type character"
  | unterminatedName => "unterminated class name"
  | emptyName => "empty class name"
  | illegalName => "illegal character in class name"
  | trailingCharacters => "trailing characters"
  | missingOpening => "missing '('"
  | missingClosing => "missing ')'"
  | missingResult => "missing return type"

/-- A refused descriptor: which form it was read as, its text, and the fault. -/
inductive DescriptorError where
  | field (text : String) (fault : DescriptorFault)
  | method (text : String) (fault : DescriptorFault)
  deriving DecidableEq, Repr

/-- The wording of a refusal, with the descriptor in quotes. -/
def DescriptorError.message : DescriptorError → String
  | field text fault => "Invalid field descriptor " ++ Text.quoted text ++ ": " ++ fault.message
  | method text fault => "Invalid method descriptor " ++ Text.quoted text ++ ": " ++ fault.message

/-! ## Types -/

/-- The largest number of array levels. -/
def maxDimensions : Nat := 255

/-- Whether the characters hold two slashes in a row. -/
def hasDoubleSlash : List Char → Bool
  | [] => false
  | '/' :: '/' :: _ => true
  | _ :: rest => hasDoubleSlash rest

/-- A name that no class can have: it holds a character of another notation, or one of its
segments between slashes is empty. -/
def isIllegalName (name : List Char) : Bool :=
  name.any (fun c => c == '.' || c == '[' || c == '(' || c == ')') ||
    name.head? == some '/' || name.getLast? == some '/' || hasDoubleSlash name

/-- Reads a class name up to its semicolon, and gives the characters behind it. -/
def readClassName (cs : List Char) : Except DescriptorFault (String × List Char) :=
  let name := cs.takeWhile (· != ';')
  match cs.dropWhile (· != ';') with
  | [] => .error .unterminatedName
  | _ :: rest =>
    if name.isEmpty then .error .emptyName
    else if isIllegalName name then .error .illegalName
    else .ok (String.ofList name, rest)

/-- Reads a base type, and gives the characters behind it. -/
def readBaseType : List Char → Except DescriptorFault (BaseType × List Char)
  | [] => .error .unexpectedEnd
  | 'Z' :: rest => .ok (.boolean, rest)
  | 'B' :: rest => .ok (.byte, rest)
  | 'C' :: rest => .ok (.char, rest)
  | 'S' :: rest => .ok (.short, rest)
  | 'I' :: rest => .ok (.int, rest)
  | 'J' :: rest => .ok (.long, rest)
  | 'F' :: rest => .ok (.float, rest)
  | 'D' :: rest => .ok (.double, rest)
  | 'L' :: rest => (readClassName rest).map fun (name, rest) => (.object name, rest)
  | 'V' :: _ => .error .misplacedVoid
  | _ => .error .unknownType

/-- Reads a field type, and gives the characters behind it. -/
def readFieldType (cs : List Char) : Except DescriptorFault (FieldType × List Char) :=
  let dimensions := (cs.takeWhile (· == '[')).length
  if maxDimensions < dimensions then .error .tooManyDimensions
  else (readBaseType (cs.dropWhile (· == '['))).map fun (base, rest) => (⟨dimensions, base⟩, rest)

/-! ## Reading takes characters -/

/-- Reading a class name takes at least its semicolon. -/
theorem length_lt_of_readClassName {cs rest : List Char} {name : String}
    (h : readClassName cs = .ok (name, rest)) : rest.length < cs.length := by
  have le : (cs.dropWhile (· != ';')).length ≤ cs.length :=
    (List.dropWhile_suffix _).length_le
  simp only [readClassName] at h
  split at h
  · cases h
  · next heq =>
    rw [heq] at le
    split at h
    · cases h
    · split at h
      · cases h
      · cases h
        exact le

/-- Reading a base type takes at least its letter. -/
theorem length_lt_of_readBaseType {cs rest : List Char} {base : BaseType}
    (h : readBaseType cs = .ok (base, rest)) : rest.length < cs.length := by
  unfold readBaseType at h
  split at h
  case h_10 after =>
    cases hName : readClassName after with
    | error fault => rw [hName] at h; cases h
    | ok found =>
      rw [hName] at h
      cases h
      have := length_lt_of_readClassName hName
      simp only [List.length_cons]
      omega
  all_goals cases h <;> simp

/-- Reading a field type takes at least one character. -/
theorem length_lt_of_readFieldType {cs rest : List Char} {type : FieldType}
    (h : readFieldType cs = .ok (type, rest)) : rest.length < cs.length := by
  have le : (cs.dropWhile (· == '[')).length ≤ cs.length :=
    (List.dropWhile_suffix _).length_le
  simp only [readFieldType] at h
  split at h
  · cases h
  · cases hBase : readBaseType (cs.dropWhile (· == '[')) with
    | error fault => rw [hBase] at h; cases h
    | ok found =>
      rw [hBase] at h
      cases h
      exact Nat.lt_of_lt_of_le (length_lt_of_readBaseType hBase) le

/-! ## Descriptors -/

/-- Reads parameter types up to the closing parenthesis, onto the reversed list of those
already read, and gives the characters behind it. -/
def readParameters (read : List FieldType) (cs : List Char) :
    Except DescriptorFault (List FieldType × List Char) :=
  match cs with
  | [] => .error .missingClosing
  | ')' :: rest => .ok (read.reverse, rest)
  | c :: cs =>
    match h : readFieldType (c :: cs) with
    | .error fault => .error fault
    | .ok (type, rest) =>
      have : rest.length < (c :: cs).length := length_lt_of_readFieldType h
      readParameters (type :: read) rest
termination_by cs.length
decreasing_by exact this

/-- Reads a result, and gives the characters behind it. -/
def readReturnType : List Char → Except DescriptorFault (ReturnType × List Char)
  | [] => .error .missingResult
  | 'V' :: rest => .ok (.void, rest)
  | cs => (readFieldType cs).map fun (type, rest) => (.value type, rest)

/-- Reads a whole field descriptor. -/
def readFieldDescriptor (cs : List Char) : Except DescriptorFault FieldType := do
  let (type, rest) ← readFieldType cs
  if rest.isEmpty then .ok type else .error .trailingCharacters

/-- Reads a whole method descriptor. -/
def readMethodDescriptor : List Char → Except DescriptorFault MethodDescriptor
  | '(' :: cs => do
    let (parameters, rest) ← readParameters [] cs
    let (result, rest) ← readReturnType rest
    if rest.isEmpty then .ok ⟨parameters, result⟩ else .error .trailingCharacters
  | _ => .error .missingOpening

/-- The field type that a descriptor spells. -/
def FieldType.parse (text : String) : Except DescriptorError FieldType :=
  (readFieldDescriptor text.toList).mapError (.field text)

/-- The parameters and result that a descriptor spells. -/
def MethodDescriptor.parse (text : String) : Except DescriptorError MethodDescriptor :=
  (readMethodDescriptor text.toList).mapError (.method text)

/-- The category of the result that a method descriptor spells. -/
def returnCategory (text : String) : Except DescriptorError Category :=
  (MethodDescriptor.parse text).map fun descriptor => descriptor.result.category

end JvmStub
