/-
`Config.lean` -- the settings of a stubbing run.

A run throws instances of one class from its constructors and may check its
result. The class may be given with dots or with slashes between its segments,
and with white space around it; the setting holds the form with slashes. A name
is refused when it is empty, when one of its segments is, or when it holds a
character that separates names in descriptors and signatures.
-/
import JvmStub.Text.Blank
import JvmStub.Text.Quoted

set_option autoImplicit false

namespace JvmStub

/-- Why a class name cannot be set. The name is kept as it was given. -/
inductive ConfigError where
  | emptyName
  | emptySegment (name : String)
  | illegalCharacter (name : String) (c : Char)
  deriving DecidableEq, Repr

/-- The wording of a refusal. -/
def ConfigError.message : ConfigError → String
  | emptyName => "exception class name is empty"
  | emptySegment name => "exception class name " ++ Text.quoted name ++ " has an empty segment"
  | illegalCharacter name c =>
    "exception class name " ++ Text.quoted name ++ " contains " ++ Text.quotedChar c

/-- The settings of a run. -/
structure Config where
  /-- The internal name of the class that stubbed constructors throw. -/
  exceptionClass : String := "java/lang/Error"
  /-- Whether the result is checked before it is given back. -/
  verify : Bool := true
  deriving DecidableEq, Repr

/-- Puts a character in front of a name that is given by its parts. -/
def consSegment (c : Char) : List (List Char) → List (List Char)
  | [] => [[c]]
  | first :: others => if c = '/' then [] :: first :: others else (c :: first) :: others

/-- The parts of a name between its slashes. There is always one part at least. -/
def segments (name : List Char) : List (List Char) := name.foldr consSegment [[]]

/-- A character that no class name holds. -/
def isSeparator (c : Char) : Bool :=
  c == ';' || c == '[' || c == '<' || c == '>' || c == '(' || c == ')' || Text.isBlank c

/-- The internal form of a class name. -/
def internalClassName (name : String) : Except ConfigError String :=
  let internal := (Text.trim name.toList).map fun c => if c = '.' then '/' else c
  if internal.isEmpty then .error .emptyName
  else if (segments internal).any List.isEmpty then .error (.emptySegment name)
  else
    match internal.find? isSeparator with
    | some c => .error (.illegalCharacter name c)
    | none => .ok (String.ofList internal)

/-- The settings with another class to throw. -/
def Config.withExceptionClass (config : Config) (name : String) : Except ConfigError Config :=
  (internalClassName name).map fun internal => { config with exceptionClass := internal }

end JvmStub
