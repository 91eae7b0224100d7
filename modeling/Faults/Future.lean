import Faults.Failure.Propagation
import Faults.Violation

/-!
# Futures

A future is polled until it answers: each poll finds it pending, or gives its result. The innermost
future follows a script, a list of outcomes that polls use up one by one; when none is left it stays
pending for ever. A wrapped future passes on what the inner one gives and wraps its first error, for
which its propagation is used up; a second error is a violation.
-/

namespace Faults

/-- What a poll finds. -/
inductive Outcome (α : Type) where
  | pending
  | ready (result : Result α)

/-- Something that can be polled for a value. -/
inductive Future (α : Type) where
  | script (outcomes : List (Outcome α))
  | wrapped (host : Host) (step : Option Propagation) (inner : Future α)

namespace Future

variable {α : Type}

/-- The future after a poll, and what the poll finds. The inner future is polled exactly once, also
when a violation stops the poll. -/
def poll (surroundings : Surroundings) : Future α → Future α × Except Violation (Outcome α)
  | script [] => (script [], .ok .pending)
  | script (outcome :: rest) => (script rest, .ok outcome)
  | wrapped host step inner =>
    match inner.poll surroundings with
    | (inner, .ok (.ready (.error source))) =>
      match step with
      | none => (wrapped host none inner, .error (.polledAgain host))
      | some step =>
        (wrapped host none inner,
          orClash do return .ready (.error (← step.apply surroundings source).source))
    | (inner, answer) => (wrapped host step inner, answer)

/-- The future will give no further result. -/
def isTerminated : Future α → Bool
  | script outcomes => outcomes.isEmpty
  | wrapped _ step inner => step.isNone || inner.isTerminated

/-- The future with its errors wrapped. -/
def propagate (future : Future α) (step : Propagation) : Future α :=
  wrapped .future (some step) future

end Future

end Faults
