import Faults.Text.Segments

/-!
# Kinds of failure

A kind is a node in a forest of classifications: a label, and the kind it is placed under unless it
is a root. Names and codes may repeat; what tells two kinds apart is the serial of their labels, so
each definition takes a serial of its own. Since a kind contains the kinds above it, the way up to
the root, `lineage`, always ends.
-/

namespace Faults

/-- What is said of one kind, the kinds above it aside. -/
structure Label where
  serial : Nat
  name : String
  code : String
  description : String := ""
  /-- The status that this kind and those below it answer with. -/
  status : Option Nat := none
  deriving DecidableEq, Repr

/-- A kind of failure. -/
inductive Kind where
  | root (label : Label)
  | under (label : Label) (parent : Kind)
  deriving DecidableEq, Repr

namespace Kind

def label : Kind → Label
  | root label => label
  | under label _ => label

def name (kind : Kind) : String := kind.label.name

def code (kind : Kind) : String := kind.label.code

def description (kind : Kind) : String := kind.label.description

/-- The status set on this very kind. -/
def statusHint (kind : Kind) : Option Nat := kind.label.status

/-- The kind this one is placed under. -/
def parent? : Kind → Option Kind
  | root _ => none
  | under _ parent => some parent

/-- The kind itself, the kind above it and so on up to the root. -/
def lineage : Kind → List Kind
  | root label => [root label]
  | under label parent => under label parent :: parent.lineage

/-- The top of the tree. -/
def top : Kind → Kind
  | root label => root label
  | under _ parent => parent.top

/-- The kind falls under `other`: it is that kind or one below it. -/
def isA (kind other : Kind) : Bool := kind.lineage.contains other

/-- The names from the kind up to its root, joined by double colons. -/
def tag (kind : Kind) : String :=
  String.ofList (Text.join (kind.lineage.map fun ancestor => ancestor.name.toList))

/-- The status of a kind without a hint in its lineage. -/
def defaultStatus : Nat := 500

/-- The nearest status hint on the way up. -/
def status (kind : Kind) : Nat := (kind.lineage.findSome? statusHint).getD defaultStatus

@[simp] theorem lineage_root (label : Label) : (root label).lineage = [root label] := rfl

@[simp] theorem lineage_under (label : Label) (parent : Kind) :
    (under label parent).lineage = under label parent :: parent.lineage := rfl

theorem self_mem_lineage (kind : Kind) : kind ∈ kind.lineage := by
  cases kind <;> simp

theorem isA_iff {kind other : Kind} : kind.isA other = true ↔ other ∈ kind.lineage := by
  simp [isA]

end Kind

end Faults
