/-
`Arguments.lean` -- what the words of a command line ask for.

There are two commands. `stub IN -o OUT` writes a class with stubs for bodies,
and takes the class that constructors throw and a wish to leave out the check.
`dump IN` lists the methods of a class. Options stand anywhere behind the name of
the command, and the one for more log output also before it. An option with a
value takes the next word, or the text behind its equals sign; the short one also
takes the text right behind its letter. A single dash is a word like any other,
and behind a pair of dashes all words are.
-/
set_option autoImplicit false

namespace JvmStub

/-- A command with what it needs. -/
inductive Command where
  | stub (input output : String) (errorClass : Option String) (verify : Bool)
  | dump (input : String)
  deriving DecidableEq, Repr

/-- An option with a value. -/
inductive ValueOption where
  | output
  | errorClass
  deriving DecidableEq, Repr

/-- What the words of a command line hold. -/
structure Arguments where
  /-- The words that belong to no option, last first. -/
  words : List String := []
  output : Option String := none
  errorClass : Option String := none
  verify : Bool := true
  /-- The option whose value comes next. -/
  awaited : Option ValueOption := none
  /-- Whether a pair of dashes has ended the options. -/
  optionsEnded : Bool := false
  deriving DecidableEq, Repr

namespace Arguments

/-- Whether the command named so far is the one that takes options. -/
def isStub (arguments : Arguments) : Bool := arguments.words.getLast? == some "stub"

/-- Adds a word that belongs to no option. No file has an empty name. -/
def addName (arguments : Arguments) (word : String) : Option Arguments :=
  if word = "" then none else some { arguments with words := word :: arguments.words }

/-- Gives an option its value, once only. No file has an empty name. -/
def setValue (arguments : Arguments) (value : String) : ValueOption → Option Arguments
  | .output =>
    if arguments.output.isSome || value = "" then none
    else some { arguments with output := some value, awaited := none }
  | .errorClass =>
    if arguments.errorClass.isSome then none
    else some { arguments with errorClass := some value, awaited := none }

/-- Adds an option with its value, or one whose value is to come. -/
def addOption (arguments : Arguments) (option : ValueOption) :
    Option String → Option Arguments
  | some value => if arguments.isStub then arguments.setValue value option else none
  | none => if arguments.isStub then some { arguments with awaited := some option } else none

/-- Adds the options behind a single dash, a letter each. -/
def addLetters (arguments : Arguments) : List Char → Option Arguments
  | [] => some arguments
  | 'v' :: rest => arguments.addLetters rest
  | ['o'] => arguments.addOption .output none
  | 'o' :: '=' :: value => arguments.addOption .output (some (String.ofList value))
  | 'o' :: value => arguments.addOption .output (some (String.ofList value))
  | _ => none

/-- Adds the option behind a pair of dashes. -/
def addLong (arguments : Arguments) (name : String) (value : Option String) : Option Arguments :=
  if name = "output" then arguments.addOption .output value
  else if name = "error-class" then arguments.addOption .errorClass value
  else if value.isSome then none
  else if name = "verbose" then some arguments
  else if name = "no-verify" && arguments.isStub && arguments.verify then
    some { arguments with verify := false }
  else none

/-- Adds a word where no value is awaited. -/
def addWord (arguments : Arguments) (word : String) : Option Arguments :=
  if arguments.optionsEnded then arguments.addName word
  else
    match word.toList with
    | ['-'] => arguments.addName word
    | ['-', '-'] =>
      if arguments.words.isEmpty then none else some { arguments with optionsEnded := true }
    | '-' :: '-' :: option =>
      let (name, value) := option.span (· ≠ '=')
      arguments.addLong (String.ofList name) (value.tail?.map String.ofList)
    | '-' :: letters => arguments.addLetters letters
    | _ => arguments.addName word

/-- Whether a word begins an option. -/
def isOption (word : String) : Bool := word ≠ "-" && word.toList.head? == some '-'

/-- Adds a word. -/
def add (arguments : Arguments) (word : String) : Option Arguments :=
  match arguments.awaited with
  | some option => if isOption word then none else arguments.setValue word option
  | none => arguments.addWord word

end Arguments

/-- The command that the words of a command line ask for, `none` where they ask for none. -/
def Command.parse? (words : List String) : Option Command := do
  let arguments ← words.foldlM Arguments.add {}
  if arguments.awaited.isSome then none
  match arguments.words.reverse, arguments.output with
  | ["stub", input], some output =>
    some (.stub input output arguments.errorClass arguments.verify)
  | ["dump", input], none => some (.dump input)
  | _, _ => none

end JvmStub
