import Faults.Proofs.Histories
import Faults.Service

/-!
# Polling a wrapped future

A wrapped future polls the one inside it and passes on what it finds, but for errors: the first one it
wraps, and from then on there is nothing left to wrap with. So what it answers depends on what the inner
future answers and on whether an error was among it. `Future.polls_around` and
`Future.getElem?_polls_around` say so of any inner future, and `Future.polls_propagated` of one that
follows a script, poll by poll and for as long as it is polled.
-/

namespace Faults

def Outcome.isError {α : Type} : Outcome α → Bool
  | ready (.error _) => true
  | _ => false

namespace Future

variable {α : Type}

/-- The future after polls from several places, and what they find. -/
def polls (future : Future α) (visits : List Surroundings) :
    Future α × List (Except Violation (Outcome α)) :=
  mapAccum (fun future surroundings => future.poll surroundings) future visits

theorem polls_cons (future : Future α) (surroundings : Surroundings) (visits : List Surroundings) :
    future.polls (surroundings :: visits) =
      (((future.poll surroundings).1.polls visits).1,
        (future.poll surroundings).2 :: ((future.poll surroundings).1.polls visits).2) := rfl

/-! ## Around any future -/

def fails : Except Violation (Outcome α) → Bool
  | .ok outcome => outcome.isError
  | .error _ => false

/-- What a wrapper makes of an outcome; `failed` says whether it has come across an error before. -/
def answer (host : Host) (step : Propagation) (failed : Bool) (surroundings : Surroundings) :
    Outcome α → Except Violation (Outcome α)
  | .pending => .ok .pending
  | .ready (.ok a) => .ok (.ready (.ok a))
  | .ready (.error source) =>
    if failed then .error (.polledAgain host)
    else
      match Failure.wrap ⟨step.location, surroundings⟩ step.kind? source step.message
        step.entries with
      | .ok failure => .ok (.ready (.error failure.source))
      | .error clash => .error (.clash clash)

/-- A wrapper around a future. One that has come across an error has used up its propagation. -/
def around (host : Host) (step : Propagation) (failed : Bool) (inner : Future α) : Future α :=
  wrapped host (if failed then none else some step) inner

variable (host : Host) (step : Propagation)

/-- A propagation that is carried out gives what a wrapper makes of its first error. -/
theorem orClash_apply (surroundings : Surroundings) (source : Source) :
    (orClash do return .ready (.error (← step.apply surroundings source).source)) =
      answer (α := α) host step false surroundings (.ready (.error source)) := by
  rw [Propagation.apply, answer]
  cases Failure.wrap ⟨step.location, surroundings⟩ step.kind? source step.message step.entries <;>
    rfl

/-- One poll polls the inner future once. -/
theorem poll_around (failed : Bool) (surroundings : Surroundings) (inner : Future α) :
    (around host step failed inner).poll surroundings =
      (around host step (failed || fails (inner.poll surroundings).2) (inner.poll surroundings).1,
        (inner.poll surroundings).2 >>= answer host step failed surroundings) := by
  rw [around, poll]
  obtain ⟨next, found⟩ := inner.poll surroundings
  match found with
  | .error violation => cases failed <;> rfl
  | .ok .pending => cases failed <;> rfl
  | .ok (.ready (.ok a)) => cases failed <;> rfl
  | .ok (.ready (.error source)) =>
    cases failed with
    | true => rfl
    | false => exact congrArg _ (orClash_apply host step surroundings source)

theorem polls_around (failed : Bool) (visits : List Surroundings) (inner : Future α) :
    ((around host step failed inner).polls visits).1 =
      around host step (failed || (inner.polls visits).2.any fails) (inner.polls visits).1 := by
  induction visits generalizing inner failed with
  | nil => simp [polls, mapAccum]
  | cons surroundings visits ih =>
    rw [polls_cons, polls_cons, poll_around, ih, Bool.or_assoc]
    rfl

theorem getElem?_polls_around (failed : Bool) (visits : List Surroundings) (inner : Future α)
    (k : Nat) :
    ((around host step failed inner).polls visits).2[k]? =
      visits[k]?.bind fun surroundings => (inner.polls visits).2[k]?.map fun found =>
        found >>= answer host step (failed || ((inner.polls visits).2.take k).any fails)
          surroundings := by
  have hstate := polls_around host step failed (visits.take k) inner
  rw [polls, polls] at hstate
  rw [polls, polls, getElem?_mapAccum, getElem?_mapAccum, take_mapAccum, hstate]
  cases visits[k]? with
  | none => rfl
  | some surroundings =>
    rw [Option.map_some, poll_around]
    rfl

/-! ## Around a script -/

theorem poll_script (surroundings : Surroundings) (outcomes : List (Outcome α)) :
    (script outcomes).poll surroundings =
      (script outcomes.tail, .ok (outcomes.headD .pending)) := by
  cases outcomes <;> rfl

theorem polls_script (outcomes : List (Outcome α)) (visits : List Surroundings) :
    ((script outcomes).polls visits).1 = script (outcomes.drop visits.length) := by
  induction visits generalizing outcomes with
  | nil => rfl
  | cons surroundings visits ih =>
    rw [polls_cons, poll_script, ih, List.drop_tail, List.length_cons]

theorem getElem?_polls_script (outcomes : List (Outcome α)) (visits : List Surroundings) (k : Nat) :
    ((script outcomes).polls visits).2[k]? =
      visits[k]?.map fun _ => .ok (outcomes.getD k .pending) := by
  have hstate := polls_script outcomes (visits.take k)
  rw [polls] at hstate ⊢
  rw [getElem?_mapAccum, hstate]
  cases hvisit : visits[k]? with
  | none => rfl
  | some surroundings =>
    have hk : k ≤ visits.length := Nat.le_of_lt (List.getElem?_eq_some_iff.1 hvisit).1
    rw [Option.map_some, Option.map_some, List.length_take, Nat.min_eq_left hk, poll_script,
      List.headD_eq_head?_getD, List.head?_drop, List.getD_eq_getElem?_getD]

theorem any_fails_polls_script (outcomes : List (Outcome α)) (visits : List Surroundings) :
    ((script outcomes).polls visits).2.any fails =
      (outcomes.take visits.length).any Outcome.isError := by
  induction visits generalizing outcomes with
  | nil => rfl
  | cons surroundings visits ih =>
    rw [polls_cons, poll_script, List.any_cons, ih]
    cases outcomes with
    | nil => simp [fails, Outcome.isError]
    | cons outcome outcomes => rfl

/-- The answers around a script: what becomes of its outcomes one after the other. -/
theorem getElem?_polls_around_script (outcomes : List (Outcome α)) (visits : List Surroundings)
    (k : Nat) :
    ((around host step false (script outcomes)).polls visits).2[k]? =
      visits[k]?.map fun surroundings =>
        answer host step ((outcomes.take k).any Outcome.isError) surroundings
          (outcomes.getD k .pending) := by
  rw [getElem?_polls_around, getElem?_polls_script]
  cases hvisit : visits[k]? with
  | none => rfl
  | some surroundings =>
    have hk : k ≤ visits.length := Nat.le_of_lt (List.getElem?_eq_some_iff.1 hvisit).1
    have hfails := any_fails_polls_script outcomes (visits.take k)
    rw [polls, List.length_take, Nat.min_eq_left hk] at hfails
    rw [polls, take_mapAccum, hfails, Bool.false_or]
    rfl

/-! ## What comes out -/

variable {host step}

/-- Only an error gives an error, and only as long as there was none. -/
theorem of_answer_error {failed : Bool} {surroundings : Surroundings} {outcome : Outcome α}
    {source : Source}
    (h : answer host step failed surroundings outcome = .ok (.ready (.error source))) :
    failed = false ∧ outcome.isError = true := by
  match outcome with
  | .pending => cases h
  | .ready (.ok a) => cases h
  | .ready (.error inner) =>
    cases failed with
    | false => exact ⟨rfl, rfl⟩
    | true => cases h

theorem any_take_of_lt {outcomes : List (Outcome α)} {j k : Nat} (hlt : j < k)
    (h : (outcomes.getD j .pending).isError = true) :
    (outcomes.take k).any Outcome.isError = true := by
  rw [List.getD_eq_getElem?_getD] at h
  cases hget : outcomes[j]? with
  | none =>
    rw [hget] at h
    cases h
  | some outcome =>
    rw [hget] at h
    have htake : (outcomes.take k)[j]? = some outcome := by
      rwa [List.getElem?_take_of_lt hlt]
    exact List.any_eq_true.2 ⟨outcome, List.mem_of_getElem? htake, h⟩

/-- The answer, as another host would give it. -/
def elsewhere (host : Host) : Except Violation (Outcome α) → Except Violation (Outcome α)
  | .error (.polledAgain _) => .error (.polledAgain host)
  | found => found

theorem answer_elsewhere (host' : Host) (failed : Bool) (surroundings : Surroundings)
    (outcome : Outcome α) :
    answer host' step failed surroundings outcome =
      elsewhere host' (answer host step failed surroundings outcome) := by
  match outcome with
  | .pending => rfl
  | .ready (.ok a) => rfl
  | .ready (.error source) =>
    cases failed with
    | true => rfl
    | false =>
      rw [answer, answer]
      cases Failure.wrap ⟨step.location, surroundings⟩ step.kind? source step.message step.entries <;>
        rfl

/-- How a wrapped script goes when it is polled from these places. -/
structure Propagates (host : Host) (step : Propagation) (outcomes : List (Outcome α))
    (visits : List Surroundings) (run : Future α × List (Except Violation (Outcome α))) : Prop where
  /-- Each poll has used up one outcome of the script, whatever came of it. -/
  left : run.1 = around host step ((outcomes.take visits.length).any Outcome.isError)
    (script (outcomes.drop visits.length))
  answers : ∀ k, run.2[k]? = visits[k]?.map fun surroundings =>
    answer host step ((outcomes.take k).any Outcome.isError) surroundings (outcomes.getD k .pending)
  once : ∀ (j k : Nat) (first second : Source), run.2[j]? = some (.ok (.ready (.error first))) →
    run.2[k]? = some (.ok (.ready (.error second))) → j = k
  /-- The inner future is terminated when its script is used up. -/
  exhausted : (script (outcomes.drop visits.length)).isTerminated = true ↔
    outcomes.length ≤ visits.length
  terminated : run.1.isTerminated = true ↔
    (∃ outcome ∈ outcomes.take visits.length, outcome.isError = true) ∨
      outcomes.length ≤ visits.length

theorem isTerminated_script_drop (outcomes : List (Outcome α)) (used : Nat) :
    (script (outcomes.drop used)).isTerminated = true ↔ outcomes.length ≤ used := by
  rw [isTerminated, List.isEmpty_iff, List.drop_eq_nil_iff]

theorem isTerminated_around {failed : Bool} {inner : Future α} :
    (around host step failed inner).isTerminated = (failed || inner.isTerminated) := by
  cases failed <;> rfl

theorem propagates_polls (host : Host) (step : Propagation) (outcomes : List (Outcome α))
    (visits : List Surroundings) :
    Propagates host step outcomes visits
      ((around host step false (script outcomes)).polls visits) := by
  have hleft := polls_around host step false visits (script outcomes)
  rw [Bool.false_or, any_fails_polls_script, polls_script] at hleft
  have hanswers := getElem?_polls_around_script host step outcomes visits
  have herror : ∀ (k : Nat) (source : Source),
      ((around host step false (script outcomes)).polls visits).2[k]? =
        some (.ok (.ready (.error source))) →
      (outcomes.take k).any Outcome.isError = false ∧
        (outcomes.getD k .pending).isError = true := by
    intro k source h
    rw [hanswers] at h
    obtain ⟨surroundings, -, h⟩ := Option.map_eq_some_iff.1 h
    exact of_answer_error h
  have hexhausted := isTerminated_script_drop outcomes visits.length
  refine ⟨hleft, hanswers, fun j k first second hj hk => ?_, hexhausted, ?_⟩
  · obtain ⟨hj, hjError⟩ := herror j first hj
    obtain ⟨hk, hkError⟩ := herror k second hk
    rcases Nat.lt_trichotomy j k with hlt | heq | hlt
    · rw [any_take_of_lt hlt hjError] at hk
      cases hk
    · exact heq
    · rw [any_take_of_lt hlt hkError] at hj
      cases hj
  · rw [hleft, isTerminated_around, Bool.or_eq_true, List.any_eq_true, hexhausted]

/-- **Polling a propagating future.** Whatever its script and wherever it is polled from, a future that is
to be wrapped goes as `Propagates` says, and so does the future of a call to a service in one layer: both
give the same answers, but for the words of the late violation, and are terminated together: after an
error, or when the script is used up. Once there was an error they stay so. -/
theorem polls_propagated (step : Propagation) (outcomes : List (Outcome α))
    (visits : List Surroundings) (ready : List (Outcome Unit)) (calls : List (List (Outcome α)))
    (made : Nat) :
    let future := (script outcomes).propagate step
    let ofCall := (Service.layered step (.scripted ⟨ready, outcomes :: calls, made⟩)).call.2
    Propagates .future step outcomes visits (future.polls visits) ∧
      Propagates .service step outcomes visits (ofCall.polls visits) ∧
      (ofCall.polls visits).2 = (future.polls visits).2.map (elsewhere .service) ∧
      (ofCall.polls visits).1.isTerminated = (future.polls visits).1.isTerminated ∧
      ((∃ outcome ∈ outcomes.take visits.length, outcome.isError = true) →
        ∀ more, (future.polls (visits ++ more)).1.isTerminated = true) := by
  intro future ofCall
  have hfuture := propagates_polls .future step outcomes visits
  have hofCall := propagates_polls .service step outcomes visits
  refine ⟨hfuture, hofCall, ?_, ?_, fun ⟨outcome, hmem, herror⟩ more => ?_⟩
  · refine List.ext_getElem? fun k => ?_
    rw [List.getElem?_map]
    refine (hofCall.answers k).trans ?_
    refine Eq.trans ?_ (congrArg _ (hfuture.answers k).symm)
    rw [Option.map_map]
    exact congrArg (fun f => visits[k]?.map f) (funext fun surroundings => answer_elsewhere ..)
  · exact Bool.eq_iff_iff.2 (hofCall.terminated.trans hfuture.terminated.symm)
  · refine (propagates_polls .future step outcomes (visits ++ more)).terminated.2 (.inl ?_)
    refine ⟨outcome, (List.take_prefix_take_left ?_).subset hmem, herror⟩
    rw [List.length_append]
    exact Nat.le_add_right ..

/-- A row that cannot be loaded at the second poll, and again at the fourth. After the first poll there
was no error yet, and the script goes on. -/
theorem flakyRow_polls_propagated :
    let outcomes : List (Outcome Nat) := [.pending, .ready (.error (.leaf "reset")), .ready (.ok 7),
      .ready (.error (.leaf "reset"))]
    let future := (script outcomes).propagate ⟨none, "loading row", [], ⟨"rows", 4⟩⟩
    let here : Surroundings := ⟨[], []⟩
    (∃ outcome ∈ outcomes.take [here, here].length, outcome.isError = true) ∧
      (future.polls [here]).1.isTerminated = false ∧
      (future.polls ([here, here] ++ [here, here])).1.isTerminated = true ∧
      ∃ source, (future.polls ([here, here] ++ [here, here])).2 =
        [.ok .pending, .ok (.ready (.error source)), .ok (.ready (.ok 7)),
          .error (.polledAgain .future)] := by
  intro outcomes future here
  have herror : ∃ outcome ∈ outcomes.take [here, here].length, outcome.isError = true :=
    ⟨_, .tail _ (.head _), rfl⟩
  obtain ⟨hfirst, -⟩ := polls_propagated ⟨none, "loading row", [], ⟨"rows", 4⟩⟩ outcomes [here]
    [] [] 0
  obtain ⟨-, -, -, -, hstays⟩ := polls_propagated ⟨none, "loading row", [], ⟨"rows", 4⟩⟩ outcomes
    [here, here] [] [] 0
  refine ⟨herror, Bool.eq_false_iff.2 fun hterminated => ?_, hstays herror [here, here], _, rfl⟩
  rcases hfirst.terminated.1 hterminated with ⟨outcome, hmem, hisError⟩ | hlength
  · cases List.mem_singleton.1 hmem
    cases hisError
  · exact absurd hlength (by decide)

end Future

end Faults
