/-!
# JSON values

Whole numbers are kept apart from real ones: `1` and `1.0` are different values. The members of an
object stand in the order of their keys, by code point, each key once; `Members.insert` keeps both
and replaces the value of a key that is there already. `Canonical` says so of every object in a
value.
-/

namespace Faults

/-- A JSON value. -/
inductive Json where
  | null
  | bool (b : Bool)
  | int (n : Int)
  | real (x : Float)
  | str (s : String)
  | arr (items : List Json)
  | obj (members : List (String × Json))
  deriving Inhabited

namespace Json

/-- The members of an object. -/
abbrev Members := List (String × Json)

namespace Members

/-- The member at its place in the order of keys; an equal key gets the new value. -/
def insert (key : String) (value : Json) : Members → Members
  | [] => [(key, value)]
  | (k, v) :: rest =>
    if key < k then (key, value) :: (k, v) :: rest
    else if key = k then (key, value) :: rest
    else (k, v) :: insert key value rest

/-- The members collected in order, so the last value of a repeated key is kept. -/
def ofList (members : List (String × Json)) : Members :=
  members.foldl (fun all (k, v) => all.insert k v) []

/-- The value of a key. -/
def get? (members : Members) (key : String) : Option Json :=
  members.lookup key

/-- The keys in order. -/
def keys (members : Members) : List String := members.map Prod.fst

/-- Every key is smaller than those after it. -/
def Sorted (members : Members) : Prop := members.keys.Pairwise (· < ·)

end Members

/-! ## Equality

Two values are the same when they are equal, except that the zeros `0.0` and `-0.0` are the same
number. -/

mutual

/-- The same value. -/
def same : Json → Json → Bool
  | null, null => true
  | bool a, bool b => a == b
  | int m, int n => m == n
  | real x, real y => x == y
  | str s, str t => s == t
  | arr xs, arr ys => sameItems xs ys
  | obj xs, obj ys => sameMembers xs ys
  | _, _ => false

/-- The same values in the same order. -/
def sameItems : List Json → List Json → Bool
  | [], [] => true
  | x :: xs, y :: ys => x.same y && sameItems xs ys
  | _, _ => false

/-- The same keys in the same order with the same values. -/
def sameMembers : List (String × Json) → List (String × Json) → Bool
  | [], [] => true
  | (k, x) :: xs, (l, y) :: ys => k == l && x.same y && sameMembers xs ys
  | _, _ => false

end

/-! ## Canonical values -/

mutual

/-- The members of every object in the value are in the order of their keys. -/
def Canonical : Json → Prop
  | arr items => CanonicalItems items
  | obj members => Members.Sorted members ∧ CanonicalMembers members
  | _ => True

/-- Every item is canonical. -/
def CanonicalItems : List Json → Prop
  | [] => True
  | item :: rest => item.Canonical ∧ CanonicalItems rest

/-- Every member has a canonical value. -/
def CanonicalMembers : List (String × Json) → Prop
  | [] => True
  | (_, value) :: rest => value.Canonical ∧ CanonicalMembers rest

end

/-- An object with a single member. -/
def single (key : String) (value : Json) : Json := obj [(key, value)]

end Json

end Faults
