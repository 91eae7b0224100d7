import Faults.Event
import Faults.Violation

/-!
# The catalog of a process

Each process has one registry. It is open while the process starts: kinds can be registered on top
of the standard ones, which are put in by the first registration that succeeds. The first read
publishes it, and from then on it never changes.

Registration and reads look at two different places. A registration looks at the phase, which holds
the registry while it is filled; a read takes what is published, and only where nothing is published
yet does it take the registry out of the phase.
-/

namespace Faults

/-- How far registration has come. -/
inductive Phase where
  /-- Nothing is registered yet, the standard kinds neither. -/
  | unseeded
  | opened (registry : Registry)
  /-- The registry has been taken out. -/
  | closed
  deriving DecidableEq, Repr

/-- The registry of a process. -/
structure Catalog where
  phase : Phase
  /-- What reads find; it is set once. -/
  published : Option Registry
  deriving DecidableEq, Repr

/-- The registry that is published when the phase ends. -/
def Phase.registry : Phase → Registry
  | opened registry => registry
  | unseeded | closed => .withBuiltins

namespace Catalog

/-- The catalog that a process starts with. -/
def unseeded : Catalog := ⟨.unseeded, none⟩

/-- The catalog after its first read. -/
def frozen (registry : Registry) : Catalog := ⟨.closed, some registry⟩

/-- The catalog after a list of kinds, and the violation if there is one. Kinds before the one that
clashes stay in an open catalog, while an unseeded one stays as it is. -/
def register (catalog : Catalog) (kinds : List Kind) : Catalog × Option Violation :=
  match catalog.phase with
  | .closed => (catalog, some .catalogFrozen)
  | .opened registry =>
    let (registry, violation) := registry.mustRegister kinds
    ({ catalog with phase := .opened registry }, violation)
  | .unseeded =>
    match Registry.withBuiltins.mustRegister kinds with
    | (registry, none) => ({ catalog with phase := .opened registry }, none)
    | (_, some violation) => (catalog, some violation)

/-- The report of the first read. -/
def frozenEvent (registry : Registry) : Event :=
  ⟨.debug, "kind registry frozen", [("kinds", .int registry.size)]⟩

/-- The registry that a read finds, and what the read reports. -/
def read (catalog : Catalog) : Registry × List Event :=
  match catalog.published with
  | some registry => (registry, [])
  | none => (catalog.phase.registry, [frozenEvent catalog.phase.registry])

/-- The catalog after a read. -/
def freeze (catalog : Catalog) : Catalog :=
  match catalog.published with
  | some _ => catalog
  | none => frozen catalog.phase.registry

/-- A read that asks something of the registry: the catalog afterwards, the answer, and what the read
reports. The catalog is frozen also where the answer is a violation. -/
def ask {α : Type} (catalog : Catalog) (question : Registry → α) : Catalog × α × List Event :=
  let (registry, events) := catalog.read
  (catalog.freeze, question registry, events)

def findByCode (catalog : Catalog) (code : String) : Catalog × Option Kind × List Event :=
  catalog.ask fun registry => registry.findByCode code

def findByName (catalog : Catalog) (name : String) : Catalog × Option Kind × List Event :=
  catalog.ask fun registry => registry.findByName name

def getByCode (catalog : Catalog) (code : String) :
    Catalog × Except Violation Kind × List Event :=
  catalog.ask fun registry => registry.getByCode code

def getByName (catalog : Catalog) (name : String) :
    Catalog × Except Violation Kind × List Event :=
  catalog.ask fun registry => registry.getByName name

end Catalog

end Faults
