import Faults.Entry.Merge
import Faults.Kind.Registry

/-!
# Broken promises

A violation is a mistake of the program itself, such as two kinds with one code, not a failure to be
handled. It stops what the program is doing.
-/

namespace Faults

/-- What wraps the errors of a future: a future by itself, or a service for its calls. -/
inductive Host where
  | future
  | service
  deriving DecidableEq, Repr

/-- A mistake of the program. -/
inductive Violation where
  /-- Entries of different variants met under one key. -/
  | clash (cause : Clash)
  /-- A kind was registered that clashes with another. -/
  | registration (cause : RegistrationError)
  /-- A kind was registered after the catalog had been read. -/
  | catalogFrozen
  /-- No kind has the code. -/
  | unknownCode (code : String)
  /-- No kind has the name. -/
  | unknownName (name : String)
  /-- A future was polled for a second error. -/
  | polledAgain (host : Host)
  deriving DecidableEq, Repr

namespace Violation

def message : Violation → String
  | clash cause => cause.message
  | registration cause => "invalid kind registration: " ++ cause.message
  | catalogFrozen => "kind registry is frozen; register kinds during startup"
  | unknownCode code => "unregistered kind code `" ++ code ++ "`"
  | unknownName name => "unregistered kind name `" ++ name ++ "`"
  | polledAgain .future => "PropagateFuture polled after completion; this is a bug"
  | polledAgain .service => "polled after completion"

end Violation

/-- The value, or the clash as a violation. -/
def orClash {α : Type} : Except Clash α → Except Violation α
  | .ok a => .ok a
  | .error clash => .error (.clash clash)

namespace Registry

/-- The registry after kinds that have to be registered, and the violation if one of them clashes. The
kinds before that one stay. -/
def mustRegister (registry : Registry) (kinds : List Kind) : Registry × Option Violation :=
  let (registry, error) := registry.register kinds
  (registry, error.map .registration)

/-- The kind of a code that has to be known. -/
def getByCode (registry : Registry) (code : String) : Except Violation Kind :=
  match registry.findByCode code with
  | some kind => .ok kind
  | none => .error (.unknownCode code)

/-- The kind of a name that has to be known. -/
def getByName (registry : Registry) (name : String) : Except Violation Kind :=
  match registry.findByName name with
  | some kind => .ok kind
  | none => .error (.unknownName name)

end Registry

end Faults
