import Faults.Dump.Basic
import Faults.Decimal.Text
import Faults.Failure.Basic

/-!
# Dumps of kinds, entries and failures
-/

namespace Faults

namespace Kind

/-- The kind with its tag instead of the kinds above it. -/
def dump (kind : Kind) : Dump :=
  .record "Kind" [
    ("name", .text kind.name),
    ("code", .text kind.code),
    ("status",
      match kind.statusHint with
      | none => .atom "None"
      | some status => .tuple "Some" [.atom (toString status)]),
    ("hierarchy", .text kind.tag)]

end Kind

namespace Json

mutual

/-- The value with the sort of each part. Whole values of one part stay on one line. -/
def dump : Json → Dump
  | null => .atom "Null"
  | bool b => .atom (if b then "Bool(true)" else "Bool(false)")
  | int n => .atom ("Number(" ++ toString n ++ ")")
  | real x => .atom ("Number(" ++ String.ofList (Decimal.text x) ++ ")")
  | str s => .atom ("String(" ++ Text.quoted s ++ ")")
  | arr items => (Dump.list (dumpItems items)).headed "Array "
  | obj members => (Dump.map (dumpMembers members)).headed "Object "

/-- The items in order. -/
def dumpItems : List Json → List Dump
  | [] => []
  | item :: rest => item.dump :: dumpItems rest

/-- The members in order. -/
def dumpMembers : List (String × Json) → List (String × Dump)
  | [] => []
  | (key, value) :: rest => (key, value.dump) :: dumpMembers rest

end

end Json

namespace Visibility

def dump : Visibility → Dump
  | exposed => .atom "Public"
  | restricted => .atom "Restrict"

end Visibility

/-- A context around its entries. -/
def Context.dumpOf (entries : List Dump) : Dump :=
  .record "EntrySet" [("entries", .list entries)]

mutual

/-- The entry under the name of its variant. -/
def Entry.dump : Entry → Dump
  | .field key value visibility received =>
    .tuple "Field" [.record "Field" [
      ("key", .text key), ("value", value.dump), ("visibility", visibility.dump),
      ("received", .bool received)]]
  | .stack frames =>
    .tuple "StackTrace" [.record "StackTrace" [("text", .text (Entry.stackText frames))]]
  | .trail hops =>
    .tuple "ReverseTrace" [.record "ReverseTrace" [("hops", .list (hops.map .text))]]
  | .dict key visibility received children =>
    .tuple "Dict" [.record "Dict" [
      ("key", .text key), ("visibility", visibility.dump),
      ("entries", Context.dumpOf (Context.dumpAll children)), ("received", .bool received)]]

/-- The entries in order. -/
def Context.dumpAll : List Entry → List Dump
  | [] => []
  | entry :: rest => entry.dump :: Context.dumpAll rest

end

namespace Layer

/-- The layer around the dump of its cause. -/
def dump (layer : Layer) (cause : Dump) : Dump :=
  .record "Error" [
    ("kind", .text layer.kind.tag),
    ("message", .text layer.message),
    ("entries", Context.dumpOf (Context.dumpAll layer.entries)),
    ("cause", cause)]

end Layer

namespace Failure

/-- The cause that a chain of links stands for. -/
def dumpCause : List Link → Dump
  | [] => .atom "None"
  | .ours layer :: rest => .tuple "Some" [layer.dump (dumpCause rest)]
  | .foreign text :: _ => .tuple "Some" [.tuple "Foreign" [.text text]]

/-- The failure and all that caused it, as far as it is no foreign matter. -/
def dump (failure : Failure) : Dump := failure.toLayer.dump (dumpCause failure.below)

end Failure

end Faults
