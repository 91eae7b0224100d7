import Faults.Json.Reader
import Faults.Json.Writer
import Faults.Wire.Report

/-!
# Reports as JSON

A report is an object with the members `error`, `kind` and, if there are details, `details`. A
reader also takes an array of the three in this order, passes over members it does not know, takes
`null` for missing details and refuses a member that is repeated. The text is read once from left to
right, so the first thing wrong with it decides the refusal.
-/

namespace Faults.Report

open Json (ReadError Reader Mismatch)

/-! ## Writing -/

/-- The details as a member, if there are any. -/
def detailsMember (report : Report) : List (String × Json) :=
  match report.details with
  | none => []
  | some details => [("details", .obj details)]

/-- The JSON text of a report, its members in the order error, kind, details. -/
def toJson (report : Report) : String :=
  (Json.obj ([("error", .str report.message), ("kind", .str report.kind)] ++
    report.detailsMember)).text

/-- The report as a JSON value. -/
def toValue (report : Report) : Json :=
  .obj (Json.Members.ofList ([("error", .str report.message), ("kind", .str report.kind)] ++
    report.detailsMember))

/-! ## Reading -/

/-- What is known of a report while its members are read. -/
structure Draft where
  message : Option String := none
  kind : Option String := none
  details : Option (Option Json.Members) := none

/-- The names a refusal calls things by. -/
def shapeName : String := "struct Dto"

def textName : String := "a string"

def mapName : String := "a map"

/-- A mismatch as a refusal. -/
def mismatch {α : Type} (cause : Mismatch) : Except ReadError α := .error (.mismatch cause)

/-- The report of the members read; details may be missing. -/
def Draft.finish (draft : Draft) : Except ReadError Report :=
  match draft.message, draft.kind with
  | none, _ => mismatch (.missingField "error")
  | some _, none => mismatch (.missingField "kind")
  | some message, some kind => .ok ⟨message, kind, draft.details.getD none⟩

/-- The array has too few items. -/
def tooShort {α : Type} (length : Nat) : Except ReadError α :=
  mismatch (.wrongLength length (shapeName ++ " with 3 elements"))

/-- The details: an object, or `null` for none. -/
def detailsReader (depth : Nat) : Reader (Option Json.Members) := fun cs =>
  match Json.skipGap cs, depth with
  | 'n' :: rest, _ => (Json.expect ['u', 'l', 'l'] rest).map (none, ·)
  | '{' :: rest, inner + 1 =>
    (Json.objectBody (Json.member (Json.value inner)) rest).map fun (members, rest) =>
      (some (Json.Members.ofList members), rest)
  | '{' :: _, 0 => .error .malformed
  | rest, _ => Json.refuse mapName rest

/-- The value of a member, put into the draft. A repeated member is refused before its value is
read. -/
def memberValue (depth : Nat) (draft : Draft) (key : String) : Reader Draft := fun cs =>
  if key = "error" then
    if draft.message.isSome then mismatch (.repeatedField key)
    else do
      let (text, rest) ← Json.colon cs >>= Json.textValue textName
      .ok ({ draft with message := some text }, rest)
  else if key = "kind" then
    if draft.kind.isSome then mismatch (.repeatedField key)
    else do
      let (text, rest) ← Json.colon cs >>= Json.textValue textName
      .ok ({ draft with kind := some text }, rest)
  else if key = "details" then
    if draft.details.isSome then mismatch (.repeatedField key)
    else do
      let (details, rest) ← Json.colon cs >>= detailsReader depth
      .ok ({ draft with details := some details }, rest)
  else do
    let (_, rest) ← Json.colon cs >>= Json.skipValue
    .ok (draft, rest)

/-- The members of a report, one or more, up to the closing brace. -/
def membersReader (depth : Nat) : Nat → Draft → Reader Report
  | 0, _, _ => .error .incomplete
  | fuel + 1, draft, cs => do
    let (key, rest) ← Json.keyMark cs >>= Json.textBody
    let (draft, rest) ← memberValue depth draft key rest
    match Json.skipGap rest with
    | [] => .error .incomplete
    | '}' :: rest => return (← draft.finish, rest)
    | ',' :: rest => membersReader depth fuel draft rest
    | _ => .error .malformed

/-- What stands before the next item of an array: its end, or a comma and an item. -/
def nextItem (cs : List Char) : Except ReadError (Option (List Char)) :=
  match Json.skipGap cs with
  | [] => .error .incomplete
  | ']' :: _ => .ok none
  | ',' :: rest =>
    match Json.skipGap rest with
    | [] => .error .incomplete
    | ']' :: _ => .error .malformed
    | rest => .ok (some rest)
  | _ => .error .malformed

/-- The end of an array that may hold no more items. -/
def arrayEnd (cs : List Char) : Except ReadError (List Char) :=
  match Json.skipGap cs with
  | [] => .error .incomplete
  | ']' :: rest => .ok rest
  | _ => .error .malformed

/-- A report as an array behind its opening bracket. -/
def itemsReader (depth : Nat) : Reader Report := fun cs =>
  match Json.skipGap cs with
  | [] => .error .incomplete
  | ']' :: _ => tooShort 0
  | rest => do
    let (message, rest) ← Json.textValue textName rest
    match ← nextItem rest with
    | none => tooShort 1
    | some rest =>
      let (kind, rest) ← Json.textValue textName rest
      match ← nextItem rest with
      | none => return (⟨message, kind, none⟩, ← arrayEnd rest)
      | some rest =>
        let (details, rest) ← detailsReader depth rest
        return (⟨message, kind, details⟩, ← arrayEnd rest)

/-- A report that nests at most `depth + 1` deep. -/
def reader (depth : Nat) : Reader Report := fun cs =>
  match Json.skipGap cs with
  | [] => .error .incomplete
  | '{' :: rest =>
    match Json.skipGap rest with
    | [] => .error .incomplete
    | '}' :: rest => return (← ({} : Draft).finish, rest)
    | rest => membersReader depth (cs.length + 1) {} rest
  | '[' :: rest => itemsReader depth rest
  | rest => Json.refuse shapeName rest

/-- The report of a JSON text. -/
def fromJson (text : String) : Except ReadError Report :=
  Json.entire (reader (Json.depthLimit - 1)) text

/-! ## Reading values -/

/-- A text, and only a text. -/
def textOf (value : Json) : Except ReadError String :=
  match value with
  | .str s => .ok s
  | value => mismatch (.wrongType value.glimpse textName)

/-- An object, or `null` for none. -/
def detailsOf (value : Json) : Except ReadError (Option Json.Members) :=
  match value with
  | .null => .ok none
  | .obj members => .ok (some members)
  | value => mismatch (.wrongType value.glimpse mapName)

/-- The draft after one member of an object. -/
def Draft.put (draft : Draft) (key : String) (value : Json) : Except ReadError Draft :=
  if key = "error" then do return { draft with message := some (← textOf value) }
  else if key = "kind" then do return { draft with kind := some (← textOf value) }
  else if key = "details" then do return { draft with details := some (← detailsOf value) }
  else .ok draft

/-- The report of a JSON value. -/
def fromValue (value : Json) : Except ReadError Report :=
  match value with
  | .obj members => do (← members.foldlM (fun draft (key, value) => draft.put key value) ({} : Draft)).finish
  | .arr [] => tooShort 0
  | .arr (message :: rest) => do
    let message ← textOf message
    match rest with
    | [] => tooShort 1
    | kind :: rest =>
      let kind ← textOf kind
      match rest with
      | [] => .ok ⟨message, kind, none⟩
      | details :: rest =>
        let details ← detailsOf details
        if rest.isEmpty then .ok ⟨message, kind, details⟩
        else mismatch (.wrongLength (rest.length + 3) "fewer elements in array")
  | value => mismatch (.wrongType value.glimpse shapeName)

end Faults.Report
