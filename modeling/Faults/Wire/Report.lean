import Faults.Failure.Log
import Faults.Kind.Catalog
import Faults.Text.Segments

/-!
# Reports to other processes

A report is all that a failure may tell outside: the message of its outermost layer, the tag of its
kind and its public details. The receiver decodes it against a registry of its own: the nearest kind
of the tag that it knows becomes the kind, and the details become entries again, objects as dicts
and all other values as fields, all of them exposed and marked as received.
-/

namespace Faults

/-- What is told of a failure outside. -/
structure Report where
  message : String
  kind : String
  details : Option Json.Members

namespace Report

/-- The outside view of a failure. -/
def encode (failure : Failure) : Report := ⟨failure.message, failure.kind.tag, failure.details⟩

/-- What is said in place of a failure that is none of the caller's business. -/
def internalMessage : String := "internal server error"

/-- The advice that goes with it. -/
def internalHint : String :=
  "retry later; if the problem persists, contact support and quote the time of the request"

/-- The failure that stands for one of the system. -/
def internal : Failure where
  kind := .systemError
  message := internalMessage
  entries := [.hint internalHint]
  below := []

/-- The status and the report to answer with: a user's failure as it is, any other as an internal
one. -/
def forResponse (failure : Failure) : Nat × Report :=
  if failure.isA .userError then (failure.kind.status, encode failure)
  else (Kind.systemError.status, encode internal)

/-- The same report. -/
def same (a b : Report) : Bool :=
  a.message == b.message && a.kind == b.kind &&
    match a.details, b.details with
    | none, none => true
    | some x, some y => Json.sameMembers x y
    | _, _ => false

/-! ## Kinds from tags -/

/-- The report of a tag that no registered kind answers to. -/
def unknownKindEvent (tag : String) : Event :=
  ⟨.debug, "unknown remote kind, falling back to external unknown", [("kind", .str tag)]⟩

/-- The registered kind that a tag names: the kind whose code is the tag, or else the first that one
of the names in the tag belongs to. -/
def knownKind? (registry : Registry) (tag : String) : Option Kind :=
  (registry.findByCode tag).or <|
    (Text.names tag.toList).findSome? fun name => registry.findByName (String.ofList name)

/-- The kind of a tag, and what is reported when no registered kind answers to it. -/
def resolve (registry : Registry) (tag : String) : Kind × List Event :=
  match knownKind? registry tag with
  | some kind => (kind, [])
  | none => (.externalUnknownError, [unknownKindEvent tag])

/-! ## Entries from details -/

mutual

/-- The entry of a received value. -/
def restore (key : String) : Json → Except Clash Entry
  | .obj members => do
    return .dict key .exposed true (← Context.ofList (← restoreAll members))
  | value => .ok (.field key value .exposed true)

/-- The entries of received members. -/
def restoreAll : List (String × Json) → Except Clash (List Entry)
  | [] => .ok []
  | (key, value) :: rest => do
    let entry ← restore key value
    return entry :: (← restoreAll rest)

end

/-- The failure that a report tells of, and what is reported on the way. -/
def decodeWith (registry : Registry) (report : Report) : Except Clash (Failure × List Event) := do
  let (kind, events) := resolve registry report.kind
  let entries ← restoreAll (report.details.getD [])
  return (← Failure.raw kind report.message entries, events)

/-- The failure that a report tells of in a process with the given catalog, which this read
freezes. -/
def decode (catalog : Catalog) (report : Report) :
    Catalog × Except Clash (Failure × List Event) :=
  let (registry, frozen) := catalog.read
  (catalog.freeze, do
    let (failure, events) ← decodeWith registry report
    return (failure, frozen ++ events))

end Report

end Faults
