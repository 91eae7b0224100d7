import Faults.Json.Basic

/-!
# Events

What the library reports to the log of the process: a level, named values and a message.
-/

namespace Faults

inductive Level where
  | error
  | debug
  deriving DecidableEq, Repr

namespace Level

def name : Level → String
  | error => "ERROR"
  | debug => "DEBUG"

end Level

/-- One report. -/
structure Event where
  level : Level
  message : String
  fields : List (String × Json)

namespace Event

/-- The fields of an event, its message among them. -/
def allFields (event : Event) : Json.Members :=
  Json.Members.ofList (event.fields ++ [("message", .str event.message)])

end Event

end Faults
