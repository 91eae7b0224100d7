import Faults.Entry.Basic
import Faults.Json.Reader
import Faults.Json.Writer

/-!
# Visibilities as JSON

A visibility is written as a text, its name. A reader also takes an object whose only key is the
name, with `null` as its value.
-/

namespace Faults.Visibility

open Json (ReadError Reader)

/-- The names a text may hold. -/
def known : List String := [name exposed, name restricted]

/-- The visibility of a name. -/
def ofName (text : String) : Except ReadError Visibility :=
  if text = name exposed then .ok exposed
  else if text = name restricted then .ok restricted
  else .error (.mismatch (.unknownVariant text known))

/-- Reads `null`, and only that. -/
def nullReader : Reader Unit := fun cs =>
  match Json.skipGap cs with
  | 'n' :: rest => (Json.expect ['u', 'l', 'l'] rest).map ((), ·)
  | rest => Json.refuse "unit" rest

/-- The visibility at the front of a text. The name of the object's key is judged before what follows
it is looked at. -/
def reader : Reader Visibility := fun cs =>
  match Json.skipGap cs with
  | [] => .error .incomplete
  | '"' :: rest => do
    let (text, rest) ← Json.textBody rest
    return (← ofName text, rest)
  | '{' :: rest => do
    let (text, rest) ← Json.keyMark rest >>= Json.textBody
    let visibility ← ofName text
    let (_, rest) ← Json.colon rest >>= nullReader
    match Json.skipGap rest with
    | [] => .error .incomplete
    | '}' :: rest => .ok (visibility, rest)
    | _ => .error .malformed
  | _ => .error .malformed

/-- The visibility of a JSON text. -/
def fromJson (text : String) : Except ReadError Visibility := Json.entire reader text

/-- The JSON text of a visibility. -/
def toJson (visibility : Visibility) : String := (Json.str visibility.name).text

end Faults.Visibility
