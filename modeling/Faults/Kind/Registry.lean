import Faults.Kind.Builtin

/-!
# Registries

A registry holds kinds in the order they were registered, no two of them with one code or one name,
and finds them by either. Registering a list stops at the first kind that clashes; the kinds before
it stay.
-/

namespace Faults

/-- Why a kind is not registered. -/
inductive RegistrationError where
  /-- The code belongs to another kind already. -/
  | duplicateCode (code existing rejected : String)
  /-- The name belongs to another kind already. -/
  | duplicateName (name : String)
  deriving DecidableEq, Repr

namespace RegistrationError

def message : RegistrationError → String
  | duplicateCode code existing rejected =>
    "kind code `" ++ code ++ "` of `" ++ rejected ++ "` is already registered by `" ++ existing ++
      "`"
  | duplicateName name => "kind name `" ++ name ++ "` is already registered"

end RegistrationError

/-- Kinds in registration order, and two indexes to find one of them by its code or by its name. -/
structure Registry where
  kinds : List Kind
  byCode : List (String × Kind)
  byName : List (String × Kind)
  deriving DecidableEq, Repr

namespace Registry

def empty : Registry := ⟨[], [], []⟩

def findByCode (registry : Registry) (code : String) : Option Kind := registry.byCode.lookup code

def findByName (registry : Registry) (name : String) : Option Kind := registry.byName.lookup name

/-- This very kind is registered, not only one of its code. -/
def contains (registry : Registry) (kind : Kind) : Bool :=
  registry.findByCode kind.code == some kind

def size (registry : Registry) : Nat := registry.kinds.length

/-- The registry with one more kind. A code that is taken is reported before a name that is. -/
def insert (registry : Registry) (kind : Kind) : Except RegistrationError Registry :=
  match registry.findByCode kind.code with
  | some existing => .error (.duplicateCode kind.code existing.name kind.name)
  | none =>
    match registry.findByName kind.name with
    | some _ => .error (.duplicateName kind.name)
    | none => .ok {
        kinds := registry.kinds ++ [kind]
        byCode := (kind.code, kind) :: registry.byCode
        byName := (kind.name, kind) :: registry.byName }

/-- The registry after as many kinds as can be registered, and why the next one could not. -/
def register (registry : Registry) : List Kind → Registry × Option RegistrationError
  | [] => (registry, none)
  | kind :: rest =>
    match registry.insert kind with
    | .error e => (registry, some e)
    | .ok registry => registry.register rest

/-- The registry of the standard kinds. -/
def withBuiltins : Registry := (empty.register Kind.builtin).1

end Registry

end Faults
