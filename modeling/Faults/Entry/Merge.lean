import Faults.Entry.Basic

/-!
# Merging entries

A context holds one entry per key. When another of the same key arrives, the two are merged: of
two fields the later stays, of two stacks the earlier, trails are put one behind the other, and two
dicts are united child by child. The present dict keeps its visibility, and what comes from a
restricted dict arrives restricted, so no merge exposes anything.

Entries of different variants do not mix: if one of them was received from another process, the
incoming one takes the place of the present one, otherwise they clash.
-/

namespace Faults

/-- Two entries of different variants that met under one key. -/
structure Clash where
  incoming : Variant
  incomingKey : String
  current : Variant
  currentKey : String
  deriving DecidableEq, Repr

namespace Clash

def message (clash : Clash) : String :=
  "trying to insert unmatching entry: " ++ clash.incoming.name ++ " `" ++ clash.incomingKey ++
    "` into " ++ clash.current.name ++ " `" ++ clash.currentKey ++ "`"

end Clash

namespace Entry

/-- What is left of two entries of different variants. -/
def replace (current incoming : Entry) : Except Clash Entry :=
  if current.isReceived || incoming.isReceived then .ok incoming
  else .error ⟨incoming.variant, incoming.key, current.variant, current.key⟩

end Entry

namespace Context

/-- The context with `merge` applied to the first entry of the key, or with `fresh` behind all
others when the key is new. -/
def upsert (key : String) (merge : Entry → Except Clash Entry) (fresh : Entry) :
    Context → Except Clash Context
  | [] => .ok [fresh]
  | entry :: rest =>
    if entry.key = key then do return (← merge entry) :: rest
    else do return entry :: (← upsert key merge fresh rest)

end Context

mutual

/-- The present entry after an incoming one that arrives below something of visibility `outer`. -/
def Entry.absorb (outer : Visibility) (current : Entry) : Entry → Except Clash Entry
  | .field key value visibility received =>
    let incoming := Entry.field key value (outer.under visibility) received
    match current with
    | .field .. => .ok incoming
    | current => current.replace incoming
  | .stack frames =>
    match current with
    | .stack first => .ok (.stack first)
    | current => current.replace (.stack frames)
  | .trail hops =>
    match current with
    | .trail earlier => .ok (.trail (earlier ++ hops))
    | current => current.replace (.trail hops)
  | .dict key visibility received children =>
    let visibility := outer.under visibility
    match current with
    | .dict key' visibility' received' present => do
      return .dict key' visibility' received' (← Context.absorb visibility present children)
    | current => current.replace (.dict key visibility received children)

/-- The context after entries that arrive in order below something of visibility `outer`. -/
def Context.absorb (outer : Visibility) (context : Context) : List Entry → Except Clash Context
  | [] => .ok context
  | entry :: rest => do
    let context ← Context.upsert entry.key (fun current => Entry.absorb outer current entry)
      (entry.capped outer) context
    Context.absorb outer context rest

end

namespace Entry

/-- The entry after another one that is merged into it. -/
def insert (current incoming : Entry) : Except Clash Entry :=
  absorb .exposed current incoming

end Entry

namespace Context

/-- The context after one more entry. -/
def add (context : Context) (entry : Entry) : Except Clash Context :=
  context.upsert entry.key (fun current => current.insert entry) entry

/-- The context after more entries, in order. -/
def addAll (context : Context) (entries : List Entry) : Except Clash Context :=
  entries.foldlM add context

/-- The context of a list of entries. -/
def ofList (entries : List Entry) : Except Clash Context := addAll [] entries

end Context

namespace Entry

/-- A dict after one more child; other entries have no children. -/
def addChild (entry child : Entry) : Except Clash Entry :=
  match entry with
  | dict key visibility received children => do
    return dict key visibility received (← Context.add children child)
  | entry => .ok entry

end Entry

end Faults
