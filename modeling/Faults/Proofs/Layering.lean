import Faults.Proofs.Polls
import Faults.Proofs.Layers

/-!
# Layers of a service

A service in layers hands everything on to the one inside, and what comes back passes the layers from the
inside out. `outward` says what comes out of all of them for an outcome: an error is wrapped by each layer
(`wrapAll`), and in a future only the first one, since then the propagations are used up. A readiness
check uses up nothing (`Service.pollReady_eq`), and a call starts a future `within` the same layers
(`Service.call_eq`, `Future.getElem?_polls_within`).
-/

namespace Faults

/-! ## All layers at once -/

namespace Propagation

/-- The source wrapped by all steps, each with its own kind, message and entries, at its own location.
The last of the list is the innermost and comes first. -/
def wrapAll (steps : List Propagation) (surroundings : Surroundings) (source : Source) :
    Except Clash Source :=
  steps.foldrM (fun step source => do
    return (← Failure.wrap ⟨step.location, surroundings⟩ step.kind? source step.message
      step.entries).source) source

/-- What comes out of all layers for an outcome; `failed` says that there was an error before, for
which the propagations are used up. -/
def outward {α : Type} (steps : List Propagation) (failed : Bool) (surroundings : Surroundings) :
    Outcome α → Except Violation (Outcome α)
  | .pending => .ok .pending
  | .ready (.ok a) => .ok (.ready (.ok a))
  | .ready (.error source) =>
    if failed && !steps.isEmpty then .error (.polledAgain .service)
    else
      match wrapAll steps surroundings source with
      | .ok wrapped => .ok (.ready (.error wrapped))
      | .error clash => .error (.clash clash)

/-- The links that the layers have put on a source, and the kind it has come to. -/
structure WrapsInto (steps : List Propagation) (source result : Source) : Prop where
  links : ∃ outer : List Layer, outer.map Layer.message = steps.map Propagation.message ∧
    result.chain = outer.map .ours ++ source.chain
  kind : result.kind = (steps.findSome? Propagation.kind?).getD source.kind

variable {steps : List Propagation} {surroundings : Surroundings}

theorem wrapAll_cons (step : Propagation) (source : Source) :
    wrapAll (step :: steps) surroundings source =
      wrapAll steps surroundings source >>= fun wrapped => do
        return (← Failure.wrap ⟨step.location, surroundings⟩ step.kind? wrapped step.message
          step.entries).source :=
  List.foldrM_cons

theorem wrapAll_cons_ok {step : Propagation} {source result : Source} :
    wrapAll (step :: steps) surroundings source = .ok result ↔
      ∃ wrapped failure, wrapAll steps surroundings source = .ok wrapped ∧
        Failure.wrap ⟨step.location, surroundings⟩ step.kind? wrapped step.message step.entries =
          .ok failure ∧ failure.source = result := by
  rw [wrapAll_cons, bind_ok]
  constructor
  · rintro ⟨wrapped, hwrapped, h⟩
    obtain ⟨failure, hwrap, hresult⟩ := map_ok.1 h
    exact ⟨wrapped, failure, hwrapped, hwrap, hresult⟩
  · rintro ⟨wrapped, failure, hwrapped, hwrap, hresult⟩
    exact ⟨wrapped, hwrapped, map_ok.2 ⟨failure, hwrap, hresult⟩⟩

theorem wrapsInto_of_wrapAll {source result : Source}
    (h : wrapAll steps surroundings source = .ok result) : WrapsInto steps source result := by
  induction steps generalizing result with
  | nil =>
    cases h
    exact ⟨⟨[], rfl, rfl⟩, rfl⟩
  | cons step steps ih =>
    obtain ⟨wrapped, failure, hwrapped, hwrap, rfl⟩ := wrapAll_cons_ok.1 h
    obtain ⟨⟨outer, hmessages, hchain⟩, hkind⟩ := ih hwrapped
    obtain ⟨hfailureKind, hbelow⟩ := Failure.wrap_ok hwrap
    refine ⟨⟨failure.toLayer :: outer, ?_, ?_⟩, ?_⟩
    · rw [List.map_cons, List.map_cons, hmessages, Failure.message_wrap hwrap]
    · rw [List.map_cons, List.cons_append, ← hchain, ← hbelow]
      rfl
    · rw [Source.inheritedKind_top, hkind] at hfailureKind
      refine Eq.trans hfailureKind ?_
      rw [List.findSome?_cons]
      cases step.kind? <;> rfl

theorem outward_cons {α : Type} (step : Propagation) (failed : Bool) (outcome : Outcome α) :
    outward (step :: steps) failed surroundings outcome =
      outward steps failed surroundings outcome >>= Future.answer .service step failed surroundings := by
  match outcome with
  | .pending => rfl
  | .ready (.ok a) => rfl
  | .ready (.error source) =>
    cases failed with
    | true => cases steps <;> rfl
    | false =>
      simp only [outward, wrapAll_cons, Bool.false_and, Bool.false_eq_true, if_false]
      cases wrapAll steps surroundings source with
      | error clash => rfl
      | ok wrapped =>
        simp only [bind, Except.bind, Future.answer, Bool.false_eq_true, if_false]
        cases Failure.wrap ⟨step.location, surroundings⟩ step.kind? wrapped step.message
          step.entries <;> rfl

theorem outward_nil {α : Type} (failed : Bool) (outcome : Outcome α) :
    outward [] failed surroundings outcome = .ok outcome := by
  match outcome with
  | .pending => rfl
  | .ready (.ok a) => rfl
  | .ready (.error source) => cases failed <;> rfl

theorem outward_of_not_isError {α : Type} {failed : Bool} {outcome : Outcome α}
    (h : outcome.isError = false) : outward steps failed surroundings outcome = .ok outcome := by
  match outcome with
  | .pending => rfl
  | .ready (.ok a) => rfl
  | .ready (.error source) => cases h

theorem outward_of_isError {α : Type} {outcome : Outcome α} (hsteps : steps ≠ [])
    (h : outcome.isError = true) :
    outward steps true surroundings outcome = .error (.polledAgain .service) := by
  match outcome with
  | .pending => cases h
  | .ready (.ok a) => cases h
  | .ready (.error source) =>
    cases steps with
    | nil => exact absurd rfl hsteps
    | cons step steps => rfl

end Propagation

open Propagation

namespace Future

variable {α : Type}

/-- A future in layers of a service that have wrapped nothing yet. -/
def within (steps : List Propagation) (inner : Future α) : Future α :=
  steps.foldr (fun step inner => wrapped .service (some step) inner) inner

theorem within_cons (step : Propagation) (steps : List Propagation) (inner : Future α) :
    inner.within (step :: steps) = around .service step false (inner.within steps) := rfl

theorem answer_of_not_isError {host : Host} {step : Propagation} {failed : Bool}
    {surroundings : Surroundings} {outcome : Outcome α} (h : outcome.isError = false) :
    answer host step failed surroundings outcome = .ok outcome := by
  match outcome with
  | .pending => rfl
  | .ready (.ok a) => rfl
  | .ready (.error source) => cases h

/-- Up to the first error of the script there is none in the answers. -/
theorem any_fails_take_of_outward {steps : List Propagation} {outcomes : List (Outcome α)}
    {visits : List Surroundings} {found : List (Except Violation (Outcome α))} {k : Nat}
    (hfound : ∀ j, found[j]? = visits[j]?.map fun surroundings =>
      outward steps ((outcomes.take j).any Outcome.isError) surroundings (outcomes.getD j .pending))
    (hquiet : (outcomes.take k).any Outcome.isError = false) :
    (found.take k).any fails = false := by
  rw [List.any_eq_false]
  intro answer hmem
  obtain ⟨j, hj⟩ := List.getElem?_of_mem hmem
  have hlt : j < k :=
    Nat.lt_of_lt_of_le (List.getElem?_eq_some_iff.1 hj).1 (List.length_take_le k found)
  rw [List.getElem?_take_of_lt hlt, hfound] at hj
  obtain ⟨surroundings, -, rfl⟩ := Option.map_eq_some_iff.1 hj
  have houtcome : (outcomes.getD j .pending).isError = false := by
    refine Bool.eq_false_iff.2 fun herror => ?_
    rw [any_take_of_lt hlt herror] at hquiet
    cases hquiet
  rw [outward_of_not_isError houtcome, fails, houtcome]
  exact Bool.false_ne_true

/-- The answers of a layered script. A layer hears less than the one inside it: what a violation has
stopped does not reach it, so it may still have its propagation when the script fails again. But then
the layers further in have used theirs up. -/
theorem getElem?_polls_within (steps : List Propagation) (outcomes : List (Outcome α))
    (visits : List Surroundings) (k : Nat) :
    (((script outcomes).within steps).polls visits).2[k]? =
      visits[k]?.map fun surroundings =>
        outward steps ((outcomes.take k).any Outcome.isError) surroundings
          (outcomes.getD k .pending) := by
  induction steps generalizing k with
  | nil =>
    refine (getElem?_polls_script outcomes visits k).trans (congrArg (visits[k]?.map ·) ?_)
    exact funext fun surroundings => (outward_nil _ _).symm
  | cons step steps ih =>
    by_cases hsteps : steps = []
    · subst hsteps
      refine (getElem?_polls_around_script .service step outcomes visits k).trans
        (congrArg (visits[k]?.map ·) (funext fun surroundings => ?_))
      rw [outward_cons, outward_nil]
      rfl
    · rw [within_cons, getElem?_polls_around, ih, Bool.false_or]
      cases visits[k]? with
      | none => rfl
      | some surroundings =>
        simp only [Option.bind_some, Option.map_some, outward_cons]
        by_cases herror : (outcomes.getD k .pending).isError = true
        · cases hfailed : (outcomes.take k).any Outcome.isError with
          | true =>
            rw [outward_of_isError hsteps herror]
            rfl
          | false => rw [any_fails_take_of_outward ih hfailed]
        · rw [Bool.not_eq_true] at herror
          rw [outward_of_not_isError herror]
          exact congrArg some
            ((answer_of_not_isError herror).trans (answer_of_not_isError herror).symm)

end Future

namespace Service

variable {α : Type}

/-- The layers of a service, the outermost first. -/
def layers : Service α → List Propagation
  | scripted _ => []
  | layered step inner => step :: inner.layers

theorem pollReady_layered (step : Propagation) (surroundings : Surroundings) (inner : Service α) :
    (layered step inner).pollReady surroundings =
      (layered step (inner.pollReady surroundings).1,
        (inner.pollReady surroundings).2 >>= Future.answer .service step false surroundings) := by
  rw [pollReady]
  obtain ⟨next, found⟩ := inner.pollReady surroundings
  match found with
  | .error violation => rfl
  | .ok .pending => rfl
  | .ok (.ready (.ok a)) => rfl
  | .ok (.ready (.error source)) =>
    exact congrArg _ (Future.orClash_apply .service step surroundings source)

/-- A readiness check reaches the innermost service and uses up none of the layers. -/
theorem pollReady_eq (surroundings : Surroundings) (service : Service α) :
    (service.pollReady surroundings).1.layers = service.layers ∧
      (service.pollReady surroundings).1.innermost = service.innermost.pollReady.1 ∧
      (service.pollReady surroundings).2 =
        outward service.layers false surroundings service.innermost.pollReady.2 := by
  induction service with
  | scripted service => exact ⟨rfl, rfl, (outward_nil _ _).symm⟩
  | layered step inner ih =>
    obtain ⟨hlayers, hinnermost, hfound⟩ := ih
    rw [pollReady_layered]
    refine ⟨congrArg (step :: ·) hlayers, hinnermost, ?_⟩
    rw [layers, outward_cons, innermost, ← hfound]

/-- A call reaches the innermost service, and each layer wraps its future. -/
theorem call_eq (service : Service α) :
    service.call.1.layers = service.layers ∧
      service.call.1.innermost = service.innermost.call.1 ∧
      service.call.2 = (Future.script (service.innermost.calls.headD [])).within service.layers := by
  induction service with
  | scripted service => exact ⟨rfl, rfl, rfl⟩
  | layered step inner ih =>
    obtain ⟨hlayers, hinnermost, hfuture⟩ := ih
    refine ⟨congrArg (step :: ·) hlayers, hinnermost, ?_⟩
    rw [layers, Future.within_cons, innermost, ← hfuture]
    rfl

end Service

end Faults
