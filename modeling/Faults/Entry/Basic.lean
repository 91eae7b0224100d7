import Faults.CallSite
import Faults.Json.Basic

/-!
# Entries

An entry is a named piece of context: a field with a value, the captured stack, the trail of hops
that a failure took, or a dict of further entries. A failure holds its entries in a `Context`, a
list in order of first arrival. An exposed entry may leave the process, a restricted one stays in
the logs; stacks and trails are always restricted. Entries rebuilt from what another process sent
are marked as received.
-/

namespace Faults

/-- Whether an entry may leave the process. -/
inductive Visibility where
  | exposed
  | restricted
  deriving DecidableEq, Repr, Inhabited

namespace Visibility

/-- The visibility of something that stands below `outer`. -/
def under : (outer inner : Visibility) → Visibility
  | exposed, inner => inner
  | restricted, _ => restricted

/-- The name of a visibility in texts. -/
def name : Visibility → String
  | exposed => "PUBLIC"
  | restricted => "RESTRICT"

@[simp] theorem exposed_under (inner : Visibility) : exposed.under inner = inner := rfl

@[simp] theorem restricted_under (inner : Visibility) : restricted.under inner = restricted := rfl

@[simp] theorem under_restricted (outer : Visibility) : outer.under restricted = restricted := by
  cases outer <;> rfl

theorem under_assoc (a b c : Visibility) : (a.under b).under c = a.under (b.under c) := by
  cases a <;> rfl

end Visibility

/-- A piece of context. -/
inductive Entry where
  | field (key : String) (value : Json) (visibility : Visibility) (received : Bool)
  | stack (frames : List Frame)
  | trail (hops : List String)
  | dict (key : String) (visibility : Visibility) (received : Bool) (children : List Entry)
  deriving Inhabited

/-- Entries in order of first arrival. -/
abbrev Context := List Entry

/-- The four sorts of entries. -/
inductive Variant where
  | field
  | stack
  | trail
  | dict
  deriving DecidableEq, Repr

namespace Variant

def name : Variant → String
  | field => "field"
  | stack => "stack trace"
  | trail => "reverse trace"
  | dict => "dict"

end Variant

namespace Entry

/-- The key of every captured stack. -/
def stackKey : String := "stacktrace"

/-- The key of every trail. -/
def trailKey : String := "reverse_trace"

def key : Entry → String
  | field key .. => key
  | stack _ => stackKey
  | trail _ => trailKey
  | dict key .. => key

def variant : Entry → Variant
  | field .. => .field
  | stack _ => .stack
  | trail _ => .trail
  | dict .. => .dict

def visibility : Entry → Visibility
  | field _ _ visibility _ => visibility
  | stack _ | trail _ => .restricted
  | dict _ visibility _ _ => visibility

/-- The entry comes from another process. -/
def isReceived : Entry → Bool
  | field _ _ _ received => received
  | stack _ | trail _ => false
  | dict _ _ received _ => received

/-- The entry with another visibility; stacks and trails keep theirs. -/
def withVisibility (visibility : Visibility) : Entry → Entry
  | field key value _ received => field key value visibility received
  | stack frames => stack frames
  | trail hops => trail hops
  | dict key _ received children => dict key visibility received children

/-- The entry with its visibility lowered to what `outer` allows. -/
def capped (outer : Visibility) (entry : Entry) : Entry :=
  entry.withVisibility (outer.under entry.visibility)

/-- The entry as one that stays in the process. -/
def restrict (entry : Entry) : Entry := entry.withVisibility .restricted

/-- The text of a captured stack, a frame after the other. -/
def stackText (frames : List Frame) : String :=
  "\n".intercalate (frames.map Frame.text)

/-! ## Equality -/

mutual

/-- The same entry: values are compared as JSON values, stacks by their texts, children in their
order. -/
def same : Entry → Entry → Bool
  | field k v s r, field k' v' s' r' => k == k' && v.same v' && s == s' && r == r'
  | stack fs, stack fs' => stackText fs == stackText fs'
  | trail hs, trail hs' => hs == hs'
  | dict k s r es, dict k' s' r' es' => k == k' && s == s' && r == r' && sameAll es es'
  | _, _ => false

/-- The same entries in the same order. -/
def sameAll : List Entry → List Entry → Bool
  | [], [] => true
  | e :: es, e' :: es' => e.same e' && sameAll es es'
  | _, _ => false

end

@[simp] theorem key_withVisibility (visibility : Visibility) (entry : Entry) :
    (entry.withVisibility visibility).key = entry.key := by
  cases entry <;> rfl

@[simp] theorem key_capped (outer : Visibility) (entry : Entry) :
    (entry.capped outer).key = entry.key := by
  simp [capped]

@[simp] theorem capped_exposed (entry : Entry) : entry.capped .exposed = entry := by
  cases entry <;> rfl

@[simp] theorem capped_restricted (entry : Entry) : entry.capped .restricted = entry.restrict := by
  cases entry <;> rfl

end Entry

namespace Context

/-- The entry of a key. -/
def get? (context : Context) (key : String) : Option Entry :=
  context.find? fun entry => entry.key == key

def keys (context : Context) : List String := context.map Entry.key

end Context

end Faults
