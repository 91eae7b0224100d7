import Faults.Entry.Merge
import Faults.Text.Part

/-!
# Making entries

The entries that failures are usually given: fields, hints, redacted fields, and scopes. A scope is
a dict under a fixed key. The system scope holds what the function that made it says in a
restricted dict of its own, so the fields of two functions never meet.
-/

namespace Faults.Entry

/-- A field that may leave the process. -/
def exposedField (key : String) (value : Json) : Entry := field key value .exposed false

/-- A field that stays in the process. -/
def restrictedField (key : String) (value : Json) : Entry := field key value .restricted false

/-- A field for each pair of a key and a value. -/
def fields (pairs : List (String × Json)) : List Entry :=
  pairs.map fun (key, value) => exposedField key value

def hintKey : String := "hint"

/-- Advice to the caller. -/
def hint (message : String) : Entry := exposedField hintKey (.str message)

/-! ## Redacted fields -/

/-- What stands for the hidden part of a redacted value. -/
def placeholder : List Char := ['*', '*', '*', '*']

/-- How many characters are shown at each end of a redacted value of the given length. -/
def shownEnd (length : Nat) : Nat := max (length / 6) 1

/-- The ends of a value around the placeholder; of a value shorter than five characters nothing is
shown. None when an end is no part of the value. -/
def redact? (value : List Char) : Option (List Char) :=
  if value.length < 5 then some placeholder
  else do
    let shown := shownEnd value.length
    let front ← Text.part? value 0 shown
    let back ← Text.part? value (value.length - shown) value.length
    return front ++ placeholder ++ back

/-- An exposed field that shows about a third of a text. -/
def redacted? (key value : String) : Option Entry := do
  return exposedField key (.str (String.ofList (← redact? value.toList)))

/-! ## Dicts and scopes -/

/-- A dict of the given visibility, its children merged in order. -/
def scope (key : String) (visibility : Visibility) (entries : List Entry) : Except Clash Entry := do
  return dict key visibility false (← Context.ofList entries)

/-- What the user may see, under a key of its own. -/
def userScope (entries : List Entry) : Except Clash Entry := scope "user" .exposed entries

def systemKey : String := "system"

/-- What only the operators may see, under the function that the call comes from. -/
def systemScope (site : CallSite) (entries : List Entry) : Except Clash Entry := do
  let own ← scope site.caller.scopeKey .restricted entries
  scope systemKey .restricted [own]

/-- A message for each field that failed a check. -/
def validation (failures : List (String × String)) : Except Clash Entry :=
  scope "validation" .exposed (fields (failures.map fun (key, message) => (key, .str message)))

/-! ## Diagnostics -/

/-- The stack at a site. -/
def captured (site : CallSite) : Entry := stack site.surroundings.capture

/-- The trail of a single hop at a site. -/
def here (site : CallSite) : Entry := trail [site.caller.hop]

end Faults.Entry
