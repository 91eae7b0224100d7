import Faults.Failure.Basic

/-!
# Propagation

A propagation is a wrapping step that is written down in one place and carried out where a failure
arrives. Its location is where it was written; the stack is the one of the place that carries it
out.

A `Result` is a value or a source. The functions on results wrap the source and leave a value alone.
-/

namespace Faults

/-- A wrapping step to come. -/
structure Propagation where
  kind? : Option Kind
  message : String
  entries : List Entry
  location : Location

namespace Propagation

/-- The source wrapped by the step. -/
def apply (step : Propagation) (surroundings : Surroundings) (source : Source) :
    Except Clash Failure :=
  Failure.wrap ⟨step.location, surroundings⟩ step.kind? source step.message step.entries

end Propagation

/-- A value, or what went wrong instead. -/
abbrev Result (α : Type) := Except Source α

/-- A value, or the failure of this library that went wrong instead. -/
abbrev Checked (α : Type) := Except Failure α

namespace Result

variable {α : Type}

/-- The result with its source wrapped as `step` says. -/
def wrapWith (surroundings : Surroundings) (step : Propagation) :
    Result α → Except Clash (Checked α)
  | .ok a => .ok (.ok a)
  | .error source => do return .error (← step.apply surroundings source)

/-- The source is wrapped, its kind kept. -/
def propagate (site : CallSite) (message : String) : Result α → Except Clash (Checked α) :=
  wrapWith site.surroundings ⟨none, message, [], site.location⟩

/-- The source is wrapped with entries, its kind kept. -/
def propagateWith (site : CallSite) (message : String) (entries : List Entry) :
    Result α → Except Clash (Checked α) :=
  wrapWith site.surroundings ⟨none, message, entries, site.location⟩

/-- The source is wrapped under another kind. -/
def propagateAs (site : CallSite) (kind : Kind) (message : String) :
    Result α → Except Clash (Checked α) :=
  wrapWith site.surroundings ⟨some kind, message, [], site.location⟩

/-- The source is wrapped under a message that is only made when it is needed. -/
def propagateWithMessage {m : Type → Type} [Monad m] (site : CallSite) (message : m String) :
    Result α → m (Except Clash (Checked α))
  | .ok a => pure (.ok (.ok a))
  | .error source => do return propagate site (← message) (.error source)

end Result

namespace Checked

variable {α : Type}

/-- The failure with more entries. -/
def attach (entries : List Entry) : Checked α → Except Clash (Checked α)
  | .ok a => .ok (.ok a)
  | .error failure => do return .error (← failure.attach entries)

/-- The failure with another kind. -/
def reclassify (kind : Kind) : Checked α → Checked α
  | .ok a => .ok a
  | .error failure => .error (failure.reclassify kind)

end Checked

end Faults
