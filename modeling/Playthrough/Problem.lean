import Playthrough.Fault.Message
import Playthrough.Json

/-!
# Problems

What a user is told when something went wrong. A failure has a cause and a chain of contexts, each
of which says what was being done; the problem shown has the whole chain as its message, and the
code and the hint of the fault if the cause is a fault of a script.
-/

namespace Playthrough

/-- What went wrong. -/
inductive Cause where
  | script (fault : Fault Float)
  | other (message : String)

/-- The cause in words. -/
def Cause.message : Cause → String
  | script fault => fault.message
  | other message => message

/-- What went wrong, and what was being done. -/
structure Failure where
  cause : Cause
  /-- What was being done, the widest context first. -/
  contexts : List String := []

/-- Puts a failure into a wider context. -/
def Failure.within (context : String) (failure : Failure) : Failure :=
  { failure with contexts := context :: failure.contexts }

/-- The whole chain in words. -/
def Failure.message (failure : Failure) : String :=
  String.intercalate ": " (failure.contexts ++ [failure.cause.message])

/-- The widest context in words. -/
def Failure.headline (failure : Failure) : String :=
  failure.contexts.headD failure.cause.message

/-- What a user is told. -/
structure Problem where
  message : String
  suggestion : Option String := none
  code : Option String := none
  file : Option String := none
  deriving DecidableEq, Repr

namespace Problem

/-- A fault of a script. -/
def ofFault (fault : Fault Float) : Problem :=
  { message := fault.message, suggestion := fault.hint?, code := some fault.code }

/-- A failure with its contexts. Stands for `from_anyhow`. -/
def ofFailure (failure : Failure) : Problem :=
  match failure.cause with
  | .script fault => { ofFault fault with message := failure.message }
  | .other _ => { message := failure.message }

/-- Names the file that a problem belongs to. Stands for `in_file`. -/
def inFile (file : String) (problem : Problem) : Problem := { problem with file := some file }

/-- A problem as data. -/
def toJson (problem : Problem) : Json :=
  let optional (key : String) (value : Option String) : List (String × Json) :=
    (value.map fun value => (key, Json.string value)).toList
  .object (optional "error_code" problem.code ++ optional "file" problem.file
    ++ ("message", .string problem.message) :: optional "suggestion" problem.suggestion)

/-- A problem as text. Stands for `write_error`. -/
def text (problem : Problem) : String :=
  let place := (problem.file.map (· ++ ": ")).getD ""
  let hint := (problem.suggestion.map fun hint => "  suggestion: " ++ hint ++ "\n").getD ""
  "error: " ++ place ++ problem.message ++ "\n" ++ hint

end Problem

end Playthrough
