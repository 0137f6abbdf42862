/-
`Report.lean` -- how a failed command tells why.

A report is a message and the messages of its causes, outermost first. The
message stands on the first line. A single cause is indented below it, several
are numbered. A message of several lines stays behind its indentation.
-/
import JvmStub.Error

set_option autoImplicit false

namespace JvmStub

/-- Why a command failed. -/
structure Report where
  message : String
  causes : List String := []
  deriving DecidableEq, Repr

namespace Report

/-- A text with every line but the first moved behind `margin`. -/
def hanging (margin : String) (text : String) : String :=
  String.ofList (text.toList.flatMap fun c => if c = '\n' then '\n' :: margin.toList else [c])

/-- A cause with its number, right-aligned in five columns. -/
def numbered (cause : String) (position : Nat) : String :=
  let number := toString position
  String.ofList (List.replicate (5 - number.length) ' ') ++ number ++ ": " ++
    hanging "       " cause

/-- The lines that show the causes. -/
def causeLines : List String → List String
  | [cause] => ["    " ++ hanging "    " cause]
  | causes => causes.zipIdx.map fun (cause, position) => numbered cause position

/-- The text of a report. -/
def text (report : Report) : String :=
  "Error: " ++ report.message ++
    (if report.causes.isEmpty then ""
     else "\n\nCaused by:\n" ++ "\n".intercalate (causeLines report.causes)) ++ "\n"

/-- The report of an error. -/
def ofError (e : Error) : Report := ⟨e.message, e.causes⟩

/-- The report of an error that stopped a step of a command. -/
def ofErrorIn (step : String) (e : Error) : Report := ⟨step, e.message :: e.causes⟩

/-- The report of a read error. -/
def ofReadError (e : ReadError) : Report := ⟨e.message, e.causes⟩

end Report

end JvmStub
