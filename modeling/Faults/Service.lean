import Faults.Future

/-!
# Services

A service says whether it is ready and starts a future for each call. The innermost service follows a
script: outcomes for its readiness, used up by checks, and scripts for its futures, used up by calls. A
layer around a service wraps the errors of its readiness checks and those of its futures.
-/

namespace Faults

/-- A service that answers by a script. When the outcomes of its readiness are used up it is always
ready, and when the scripts of its futures are used up a call starts one that stays pending. `made`
counts the calls that reached it; the count says nothing about which script comes next, so it can be
set back without a script being played twice. -/
structure ScriptedService (α : Type) where
  ready : List (Outcome Unit)
  calls : List (List (Outcome α))
  made : Nat := 0

namespace ScriptedService

variable {α : Type}

/-- The service after a readiness check, and what the check finds. -/
def pollReady (service : ScriptedService α) : ScriptedService α × Outcome Unit :=
  ({ service with ready := service.ready.tail }, service.ready.headD (.ready (.ok ())))

/-- The service after a call, and the future of the call. -/
def call (service : ScriptedService α) : ScriptedService α × Future α :=
  ({ service with calls := service.calls.tail, made := service.made + 1 },
    .script (service.calls.headD []))

end ScriptedService

/-- A scripted service in any number of layers. -/
inductive Service (α : Type) where
  | scripted (service : ScriptedService α)
  | layered (step : Propagation) (inner : Service α)

namespace Service

variable {α : Type}

/-- The service after a readiness check, and what the check finds. Each layer wraps an error of the
one inside it, as often as there are errors. -/
def pollReady (surroundings : Surroundings) :
    Service α → Service α × Except Violation (Outcome Unit)
  | scripted service =>
    let (service, outcome) := service.pollReady
    (scripted service, .ok outcome)
  | layered step inner =>
    match inner.pollReady surroundings with
    | (inner, .ok (.ready (.error source))) =>
      (layered step inner,
        orClash do return .ready (.error (← step.apply surroundings source).source))
    | (inner, answer) => (layered step inner, answer)

/-- The service after a call, and the future of the call, wrapped by each layer. -/
def call : Service α → Service α × Future α
  | scripted service =>
    let (service, future) := service.call
    (scripted service, future)
  | layered step inner =>
    let (inner, future) := inner.call
    (layered step inner, .wrapped .service (some step) future)

/-- The scripted service inside all layers. -/
def innermost : Service α → ScriptedService α
  | scripted service => service
  | layered _ inner => inner.innermost

/-- The service with a change to the scripted one inside. -/
def modifyInnermost (change : ScriptedService α → ScriptedService α) : Service α → Service α
  | scripted service => scripted (change service)
  | layered step inner => layered step (inner.modifyInnermost change)

/-- The service without its outer layer. -/
def unlayer : Service α → Service α
  | scripted service => scripted service
  | layered _ inner => inner

/-- How many calls reached the innermost service. -/
def made (service : Service α) : Nat := service.innermost.made

/-- The service with the count of its calls set back; the scripts that calls used up stay used. -/
def resetMade (service : Service α) : Service α :=
  service.modifyInnermost fun service => { service with made := 0 }

end Service

end Faults
