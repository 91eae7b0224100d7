import Faults.Entry.Merge

/-!
# What is shown of a context

The log view shows every entry as JSON. The public view shows the exposed fields all of whose dicts
are exposed as well, and of the dicts only those that have such a field below them.
-/

namespace Faults

mutual

/-- The value of an entry in the logs. -/
def Entry.logValue : Entry → Json
  | .field _ value _ _ => value
  | .stack frames => .str (Entry.stackText frames)
  | .trail hops => .arr (hops.map .str)
  | .dict _ _ _ children => .obj (Json.Members.ofList (Context.logPairs children))

/-- The entries with their values in the logs. -/
def Context.logPairs : List Entry → List (String × Json)
  | [] => []
  | entry :: rest => (entry.key, entry.logValue) :: Context.logPairs rest

end

mutual

/-- The value of an entry for the outside: none when it is restricted, and none for a dict without
anything to show. -/
def Entry.publicValue? : Entry → Option Json
  | .field _ value .exposed _ => some value
  | .dict _ .exposed _ children =>
    match Json.Members.ofList (Context.publicPairs children) with
    | [] => none
    | members => some (.obj members)
  | _ => none

/-- The entries that are shown outside, with their values. -/
def Context.publicPairs : List Entry → List (String × Json)
  | [] => []
  | entry :: rest =>
    match entry.publicValue? with
    | none => Context.publicPairs rest
    | some value => (entry.key, value) :: Context.publicPairs rest

end

namespace Context

/-- Every entry by its key, for the logs. -/
def logValues (context : Context) : Json.Members := Json.Members.ofList (logPairs context)

/-- The exposed content by key, for the outside. -/
def publicValues (context : Context) : Json.Members := Json.Members.ofList (publicPairs context)

end Context

end Faults
