/-
`Error.lean` -- what a class under construction refuses.

Most refusals are about order: something came before the header, after the end,
or outside of an open body. The others are about size: the body of a method, or
a table whose count is a two-byte field.
-/
import JvmStub.Pool.Basic

set_option autoImplicit false

namespace JvmStub

/-- The events that a refusal names. -/
inductive EventName where
  | header | field | method | attribute | beginBody | instruction | endBody | body | finish
  deriving DecidableEq, Repr

/-- What a message calls an event. -/
def EventName.text : EventName → String
  | header => "visit_header"
  | field => "visit_field"
  | method => "visit_method"
  | .attribute => "visit_attribute"
  | beginBody => "visit_code"
  | .instruction => "visit_insn"
  | endBody => "visit_maxs"
  | body => "visit_raw_code"
  | finish => "visit_end"

/-- The tables whose size is checked. -/
inductive TableName where
  | interfaces | fields | methods | methodAttributes
  deriving DecidableEq, Repr

/-- What a message calls a table. -/
def TableName.text : TableName → String
  | interfaces => "interfaces"
  | fields => "fields"
  | methods => "methods"
  | methodAttributes => "method attributes"

/-- Why an event was refused. -/
inductive WriteError where
  | pool (error : PoolError)
  | codeTooLong (method : String) (length : Nat)
  | tooMany (table : TableName) (count : Nat)
  | afterEnd (event : EventName) (target : String)
  | missingHeader
  | noOpenBody (event : EventName) (method : String)
  | unclosedBody (method : String)
  | duplicateCode (method : String)
  deriving DecidableEq, Repr

/-- The wording of a refusal. -/
def WriteError.message : WriteError → String
  | pool error => "Constant pool error: " ++ error.message
  | codeTooLong method length => s!"Code of method {method} is too long: {length} bytes"
  | tooMany table count => "Too many " ++ table.text ++ s!": {count}"
  | afterEnd event target => event.text ++ s!" received after visit_end of {target}"
  | missingHeader => "visit_header must be the first class event"
  | noOpenBody event method =>
    event.text ++ s!" for method {method} outside of a visit_code/visit_maxs pair"
  | unclosedBody method => s!"visit_end for method {method} before its body was closed by visit_maxs"
  | duplicateCode method => s!"Method {method} received code events twice"

end JvmStub
