import Faults.Event
import Faults.Failure.Chain
import Faults.Failure.Propagation
import Faults.Json.Writer

/-!
# Failures in the logs

The log view of a failure carries every entry, restricted ones included.
-/

namespace Faults

namespace Failure

/-- The whole failure as JSON. -/
def logValue (failure : Failure) : Json :=
  .obj (Json.Members.ofList [
    ("message", .str failure.message),
    ("error", .str failure.chainText),
    ("code", .str failure.kind.code),
    ("kind", .str failure.kind.tag),
    ("status", .int failure.kind.status),
    ("entries", .obj failure.entries.logValues)])

/-- The report of a failure; its entries are JSON text. -/
def event (failure : Failure) : Event where
  level := .error
  message := failure.chainText
  fields := [
    ("kind", .str failure.kind.tag),
    ("code", .str failure.kind.code),
    ("status", .int failure.kind.status),
    ("entries", .str (Json.obj failure.entries.logValues).text)]

end Failure

namespace Checked

/-- What a result reports: its failure, if there is one. -/
def events {α : Type} : Checked α → List Event
  | .ok _ => []
  | .error failure => [failure.event]

end Checked

end Faults
