import Faults.Proofs.Layering

/-!
# Sessions with a layered service

A session checks a service, calls it and polls the futures of earlier calls, in any order. What comes
back depends on few things: a readiness check on how many checks there were before, and a future on its
script and on its own polls. Whatever else goes on between the polls, each error passes all layers of
the service, from the inside out, and each layer wraps it once (`Session.replies_explained`).

The innermost service of a `Service` follows scripts. That is no restriction: what any other service
answers in a session, even one whose futures have a state in common, can be written down as scripts
(`Backend.exists_scripted`).
-/

namespace Faults

open Propagation

/-- What can be done with a service. The futures of its calls are numbered as they come. -/
inductive Use where
  | check (surroundings : Surroundings)
  | call
  | poll (index : Nat) (surroundings : Surroundings)

namespace Use

def check? : Use → Option Surroundings
  | check surroundings => some surroundings
  | call | poll .. => none

/-- Where the future of this number is polled from. -/
def poll? (index : Nat) : Use → Option Surroundings
  | poll future surroundings => if future = index then some surroundings else none
  | check _ | call => none

theorem poll?_eq_some {index : Nat} {use : Use} {surroundings : Surroundings}
    (h : use.poll? index = some surroundings) : use = poll index surroundings := by
  cases use with
  | check | call => cases h
  | poll future visited =>
    obtain ⟨rfl, hvisited⟩ := Option.ite_none_right_eq_some.1 h
    cases hvisited
    rfl

end Use

/-- What comes back. -/
inductive Reply (α : Type) where
  | checked (found : Except Violation (Outcome Unit))
  | called
  | polled (index : Nat) (found : Except Violation (Outcome α))
  /-- There is no future of this number yet. -/
  | missing

namespace Reply

variable {α : Type}

def checked? : Reply α → Option (Except Violation (Outcome Unit))
  | checked found => some found
  | called | polled .. | missing => none

def polled? (index : Nat) : Reply α → Option (Except Violation (Outcome α))
  | polled future found => if future = index then some found else none
  | checked _ | called | missing => none

theorem polled?_polled (index : Nat) (found : Except Violation (Outcome α)) :
    (polled index found).polled? index = some found := if_pos rfl

end Reply

/-- A service and the futures of the calls that were made. -/
structure Session (α : Type) where
  service : Service α
  futures : List (Future α)

namespace Session

variable {α : Type}

/-- The session after one use of the service, and what comes back. -/
def step (session : Session α) : Use → Session α × Reply α
  | .check surroundings =>
    let (service, found) := session.service.pollReady surroundings
    ({ session with service }, .checked found)
  | .call =>
    let (service, future) := session.service.call
    (⟨service, session.futures ++ [future]⟩, .called)
  | .poll index surroundings =>
    match session.futures[index]? with
    | none => (session, .missing)
    | some future =>
      let (future, found) := future.poll surroundings
      ({ session with futures := session.futures.set index future }, .polled index found)

/-- What comes back in the course of a session. -/
def replies (session : Session α) (uses : List Use) : List (Reply α) :=
  (mapAccum step session uses).2

/-- The part of a session after so many calls and one more. -/
def afterCall : Nat → List Use → List Use
  | _, [] => []
  | 0, .call :: uses => uses
  | index + 1, .call :: uses => afterCall index uses
  | index, .check _ :: uses | index, .poll .. :: uses => afterCall index uses

/-- Where the future of a call is polled from, once there is one. -/
def visits (index : Nat) (uses : List Use) : List Surroundings :=
  (afterCall index uses).filterMap (Use.poll? index)

theorem replies_cons (session : Session α) (use : Use) (uses : List Use) :
    session.replies (use :: uses) = (session.step use).2 :: (session.step use).1.replies uses := rfl

/-! ## One use after the other -/

section Futures
variable {session : Session α} {index : Nat} {future : Future α}

theorem step_poll (h : session.futures[index]? = some future) (surroundings : Surroundings) :
    session.step (.poll index surroundings) =
      ({ session with futures := session.futures.set index (future.poll surroundings).1 },
        .polled index (future.poll surroundings).2) := by
  simp only [step, h]

theorem step_poll_missing (h : session.futures[index]? = none) (surroundings : Surroundings) :
    session.step (.poll index surroundings) = (session, .missing) := by
  simp only [step, h]

/-- A future stays as it is as long as it is not polled. -/
theorem step_of_poll?_eq_none (h : session.futures[index]? = some future) {use : Use}
    (hother : use.poll? index = none) :
    (session.step use).1.futures[index]? = some future ∧
      (session.step use).2.polled? index = none := by
  cases use with
  | check surroundings => exact ⟨h, rfl⟩
  | call => exact ⟨(List.getElem?_append_left (List.getElem?_eq_some_iff.1 h).1).trans h, rfl⟩
  | poll other surroundings =>
    have hne : other ≠ index := by
      rintro rfl
      rw [Use.poll?, if_pos rfl] at hother
      cases hother
    cases hget : session.futures[other]? with
    | none =>
      rw [step_poll_missing hget]
      exact ⟨h, rfl⟩
    | some future =>
      rw [step_poll hget]
      exact ⟨(List.getElem?_set_ne hne).trans h, if_neg hne⟩

/-- A future answers to its own polls as if there were no other. -/
theorem polled_of_getElem? (h : session.futures[index]? = some future) (uses : List Use) :
    (session.replies uses).filterMap (Reply.polled? index) =
      (future.polls (uses.filterMap (Use.poll? index))).2 := by
  induction uses generalizing session future with
  | nil => rfl
  | cons use uses ih =>
    rw [replies_cons]
    cases hvisit : use.poll? index with
    | none =>
      obtain ⟨hnext, hreply⟩ := step_of_poll?_eq_none h hvisit
      rw [List.filterMap_cons_none hvisit, List.filterMap_cons_none hreply, ih hnext]
    | some surroundings =>
      obtain rfl := Use.poll?_eq_some hvisit
      have hnext : (session.futures.set index (future.poll surroundings).1)[index]? =
          some (future.poll surroundings).1 :=
        List.getElem?_set_self (List.getElem?_eq_some_iff.1 h).1
      rw [step_poll h, List.filterMap_cons_some hvisit, Future.polls_cons,
        List.filterMap_cons_some (Reply.polled?_polled index _)]
      exact congrArg _ (ih hnext)

end Futures

theorem step_check (session : Session α) (surroundings : Surroundings) :
    let next := session.step (.check surroundings)
    next.1.service.layers = session.service.layers ∧
      next.1.service.innermost = session.service.innermost.pollReady.1 ∧
      next.1.futures = session.futures ∧
      next.2 = .checked (outward session.service.layers false surroundings
        session.service.innermost.pollReady.2) := by
  obtain ⟨hlayers, hinnermost, hfound⟩ := session.service.pollReady_eq surroundings
  exact ⟨hlayers, hinnermost, rfl, congrArg Reply.checked hfound⟩

theorem step_call (session : Session α) :
    let next := session.step .call
    next.1.service.layers = session.service.layers ∧
      next.1.service.innermost = session.service.innermost.call.1 ∧
      next.1.futures = session.futures ++
        [(Future.script (session.service.innermost.calls.headD [])).within session.service.layers] ∧
      next.2 = .called := by
  obtain ⟨hlayers, hinnermost, hfuture⟩ := session.service.call_eq
  exact ⟨hlayers, hinnermost, congrArg (session.futures ++ [·]) hfuture, rfl⟩

/-- A poll touches neither the service nor the futures to come. -/
theorem step_poll_other (session : Session α) (other : Nat) (surroundings : Surroundings) :
    let next := session.step (.poll other surroundings)
    next.1.service = session.service ∧ next.1.futures.length = session.futures.length ∧
      next.2.checked? = none ∧
      ∀ index, session.futures.length ≤ index → next.2.polled? index = none := by
  intro next
  cases hget : session.futures[other]? with
  | none =>
    have hnext : next = _ := step_poll_missing hget surroundings
    rw [hnext]
    exact ⟨rfl, rfl, rfl, fun _ _ => rfl⟩
  | some future =>
    have hnext : next = _ := step_poll hget surroundings
    have hlt := (List.getElem?_eq_some_iff.1 hget).1
    rw [hnext]
    exact ⟨rfl, List.length_set, rfl, fun index hle => if_neg (by omega)⟩

theorem getD_tail {β : Type} (l : List β) (k : Nat) (d : β) :
    l.tail.getD k d = l.getD (k + 1) d := by
  rw [List.getD_eq_getElem?_getD, List.getElem?_tail, ← List.getD_eq_getElem?_getD]

/-- The future of a call to come follows the script that will be the next one then. -/
theorem polled_of_length_le (session : Session α) (uses : List Use) (n : Nat) :
    (session.replies uses).filterMap (Reply.polled? (session.futures.length + n)) =
      (((Future.script (session.service.innermost.calls.getD n [])).within
        session.service.layers).polls
          ((afterCall n uses).filterMap (Use.poll? (session.futures.length + n)))).2 := by
  induction uses generalizing session n with
  | nil => cases n <;> rfl
  | cons use uses ih =>
    rw [replies_cons]
    cases use with
    | check surroundings =>
      obtain ⟨hlayers, hinnermost, hfutures, hreply⟩ := session.step_check surroundings
      have hrest := ih (session.step (.check surroundings)).1 n
      rw [hlayers, hinnermost, hfutures] at hrest
      rw [hreply]
      cases n <;> exact hrest
    | call =>
      obtain ⟨hlayers, hinnermost, hfutures, hreply⟩ := session.step_call
      rw [hreply]
      cases n with
      | zero =>
        have hget : (session.step .call).1.futures[session.futures.length]? = some _ :=
          hfutures ▸ List.getElem?_concat_length
        rw [List.headD_eq_getD] at hget
        exact polled_of_getElem? hget uses
      | succ n =>
        have hrest := ih (session.step .call).1 n
        rw [hlayers, hinnermost, hfutures, List.length_append, List.length_singleton,
          Nat.add_right_comm] at hrest
        rw [ScriptedService.call, getD_tail] at hrest
        exact hrest
    | poll other surroundings =>
      obtain ⟨hservice, hlength, -, hnone⟩ := session.step_poll_other other surroundings
      have hrest := ih (session.step (.poll other surroundings)).1 n
      rw [hservice, hlength] at hrest
      rw [List.filterMap_cons_none (hnone _ (Nat.le_add_right ..)), hrest]
      cases n <;> rfl

/-- The readiness of the innermost service is used up by checks and by nothing else. -/
theorem getElem?_checked (session : Session α) (uses : List Use) (k : Nat) :
    ((session.replies uses).filterMap Reply.checked?)[k]? =
      (uses.filterMap Use.check?)[k]?.map fun surroundings =>
        outward session.service.layers false surroundings
          (session.service.innermost.ready.getD k (.ready (.ok ()))) := by
  induction uses generalizing session k with
  | nil => rfl
  | cons use uses ih =>
    rw [replies_cons]
    cases use with
    | check surroundings =>
      obtain ⟨hlayers, hinnermost, -, hreply⟩ := session.step_check surroundings
      rw [hreply]
      cases k with
      | zero =>
        rw [ScriptedService.pollReady, List.headD_eq_getD]
        rfl
      | succ k =>
        have hrest := ih (session.step (.check surroundings)).1 k
        rw [hlayers, hinnermost, ScriptedService.pollReady, getD_tail] at hrest
        exact hrest
    | call =>
      obtain ⟨hlayers, hinnermost, -, hreply⟩ := session.step_call
      have hrest := ih (session.step .call).1 k
      rw [hlayers, hinnermost] at hrest
      rw [hreply]
      exact hrest
    | poll other surroundings =>
      obtain ⟨hservice, -, hnone, -⟩ := session.step_poll_other other surroundings
      have hrest := ih (session.step (.poll other surroundings)).1 k
      rw [hservice] at hrest
      rw [List.filterMap_cons_none hnone]
      exact hrest

end Session

/-! ## Scripts for any service -/

/-- A service that is made in any way: its readiness and its futures may share a state. -/
structure Backend (σ α : Type) where
  check : σ → Surroundings → σ × Outcome Unit
  call : σ → σ
  poll : σ → Nat → Surroundings → σ × Outcome α

namespace Backend

variable {σ α : Type}

/-- The state, with the number of the calls that were made, after one use, and what comes back. -/
def step (backend : Backend σ α) (state : σ × Nat) : Use → (σ × Nat) × Reply α
  | .check surroundings =>
    let (next, outcome) := backend.check state.1 surroundings
    ((next, state.2), .checked (.ok outcome))
  | .call => ((backend.call state.1, state.2 + 1), .called)
  | .poll index surroundings =>
    if index < state.2 then
      let (next, outcome) := backend.poll state.1 index surroundings
      ((next, state.2), .polled index (.ok outcome))
    else (state, .missing)

def replies (backend : Backend σ α) (start : σ) (uses : List Use) : List (Reply α) :=
  (mapAccum backend.step (start, 0) uses).2

/-- What a service is going to answer can be written down beforehand: the next answer is put in front of
the script that it belongs to. -/
theorem exists_scripts (backend : Backend σ α) (state : σ × Nat) (uses : List Use) :
    ∃ ready calls, ∃ scripts : List (List (Outcome α)), scripts.length = state.2 ∧ ∀ made,
      Session.replies ⟨.scripted ⟨ready, calls, made⟩, scripts.map .script⟩ uses =
        (mapAccum backend.step state uses).2 := by
  induction uses generalizing state with
  | nil => exact ⟨[], [], List.replicate state.2 [], List.length_replicate, fun _ => rfl⟩
  | cons use uses ih =>
    obtain ⟨ready, calls, scripts, hlength, hrest⟩ := ih (backend.step state use).1
    cases use with
    | check surroundings =>
      refine ⟨(backend.check state.1 surroundings).2 :: ready, calls, scripts, hlength,
        fun made => ?_⟩
      rw [Session.replies_cons]
      exact congrArg _ (hrest made)
    | call =>
      obtain ⟨front, last, rfl⟩ : ∃ front last, scripts = front ++ [last] :=
        (List.eq_nil_or_concat' scripts).resolve_left (by rintro rfl; cases hlength)
      refine ⟨ready, last :: calls, front, ?_, fun made => ?_⟩
      · rw [List.length_append] at hlength
        exact Nat.succ.inj hlength
      · have hnext := hrest (made + 1)
        rw [List.map_append] at hnext
        rw [Session.replies_cons]
        exact congrArg _ hnext
    | poll index surroundings =>
      by_cases hindex : index < state.2
      · have hstep : backend.step state (.poll index surroundings) =
            (((backend.poll state.1 index surroundings).1, state.2),
              .polled index (.ok (backend.poll state.1 index surroundings).2)) := if_pos hindex
        rw [hstep] at hlength hrest
        have hlt : index < scripts.length := hlength ▸ hindex
        let script := (backend.poll state.1 index surroundings).2 :: scripts[index]
        have hget : ((scripts.set index script).map Future.script)[index]? =
            some (.script script) := by
          rw [List.getElem?_map, List.getElem?_set_self hlt, Option.map_some]
        have hset : ((scripts.set index script).map Future.script).set index
            (.script scripts[index]) = scripts.map .script := by
          rw [← List.map_set, List.set_set, List.set_getElem_self]
        refine ⟨ready, calls, scripts.set index script, List.length_set.trans hlength,
          fun made => ?_⟩
        rw [Session.replies_cons, Session.step_poll hget, mapAccum, hstep, ← hrest made, ← hset]
        rfl
      · have hstep : backend.step state (.poll index surroundings) = (state, .missing) :=
          if_neg hindex
        rw [hstep] at hlength hrest
        have hget : (scripts.map Future.script)[index]? = none := by
          rw [List.getElem?_eq_none_iff, List.length_map, hlength]
          exact Nat.not_lt.1 hindex
        refine ⟨ready, calls, scripts, hlength, fun made => ?_⟩
        rw [Session.replies_cons, Session.step_poll_missing hget, mapAccum, hstep, ← hrest made]

/-- Scripts leave nothing out. -/
theorem exists_scripted (backend : Backend σ α) (start : σ) (uses : List Use) :
    ∃ service : ScriptedService α,
      Session.replies ⟨.scripted service, []⟩ uses = backend.replies start uses := by
  obtain ⟨ready, calls, scripts, hlength, hreplies⟩ := backend.exists_scripts (start, 0) uses
  obtain rfl := List.length_eq_zero_iff.1 hlength
  exact ⟨⟨ready, calls, 0⟩, hreplies 0⟩

end Backend

namespace Session

variable {α : Type}

/-- The replies come from the scripts of the innermost service: a check finds the next outcome of its
readiness, and a poll the next one of the script of its call, as they come out of all layers. -/
structure Explains (service : Service α) (uses : List Use) (replies : List (Reply α)) : Prop where
  /-- However many errors were among the outcomes before. -/
  readiness : ∀ k, (replies.filterMap Reply.checked?)[k]? =
    (uses.filterMap Use.check?)[k]?.map fun surroundings =>
      outward service.layers false surroundings
        (service.innermost.ready.getD k (.ready (.ok ())))
  futures : ∀ index k, (replies.filterMap (Reply.polled? index))[k]? =
    (visits index uses)[k]?.map fun surroundings =>
      let outcomes := service.innermost.calls.getD index []
      outward service.layers ((outcomes.take k).any Outcome.isError) surroundings
        (outcomes.getD k .pending)

theorem explains_replies (service : Service α) (uses : List Use) :
    Explains service uses (replies ⟨service, []⟩ uses) := by
  refine ⟨getElem?_checked ⟨service, []⟩ uses, fun index k => ?_⟩
  have hpolled := polled_of_length_le ⟨service, []⟩ uses index
  rw [List.length_nil, Nat.zero_add] at hpolled
  rw [hpolled]
  exact Future.getElem?_polls_within ..

/-- **A layered service under any interleaving.** Whatever an inner service answers in a session, it
could have read off scripts. However checks, calls and polls follow each other, each readiness error and
the first error of each call come out wrapped by all layers, from the inside out, and anything else comes
out as it is. What the polls of a future find is settled by the layers, by the script of its call and by
where it is polled from, whatever else goes on. And what comes out has one link more for each layer, and
the kind of the outermost layer that names one. -/
theorem replies_explained :
    (∀ (σ : Type) (backend : Backend σ α) (start : σ) (uses : List Use),
      ∃ inner : ScriptedService α,
        replies ⟨.scripted inner, []⟩ uses = backend.replies start uses) ∧
    (∀ (service : Service α) (uses : List Use),
      Explains service uses (replies ⟨service, []⟩ uses)) ∧
    (∀ (service service' : Service α) (uses uses' : List Use) (index index' : Nat),
      service.layers = service'.layers →
      service.innermost.calls.getD index [] = service'.innermost.calls.getD index' [] →
      visits index uses = visits index' uses' →
      (replies ⟨service, []⟩ uses).filterMap (Reply.polled? index) =
        (replies ⟨service', []⟩ uses').filterMap (Reply.polled? index')) ∧
    ∀ (steps : List Propagation) (surroundings : Surroundings) (source result : Source),
      wrapAll steps surroundings source = .ok result → WrapsInto steps source result := by
  refine ⟨fun σ => Backend.exists_scripted, explains_replies,
    fun service service' uses uses' index index' hlayers hscript hvisits => ?_,
    fun steps surroundings source result => wrapsInto_of_wrapAll⟩
  refine List.ext_getElem? fun k => ?_
  rw [(explains_replies service uses).futures, (explains_replies service' uses').futures, hlayers,
    hscript, hvisits]

/-- Two rows that are asked for at the same time: the first one goes as if it were the only one. Its
error is wrapped by the inner layer first, and both have left a hop of their own. -/
theorem twoRows_replies_explained :
    let here : Surroundings := ⟨[], []⟩
    let table : Entry := .exposedField "table" (.str "users")
    let steps : List Propagation := [⟨some .notFoundError, "no such user", [], ⟨"users", 12⟩⟩,
      ⟨none, "loading row", [table], ⟨"rows", 4⟩⟩]
    let first : List (Outcome Nat) := [.pending, .ready (.error (.leaf "reset"))]
    let second : List (Outcome Nat) := [.ready (.error (.leaf "gone"))]
    let busy : Service Nat := steps.foldr .layered (.scripted ⟨[.ready (.error (.leaf "full"))],
      [second, first], 0⟩)
    let idle : Service Nat := steps.foldr .layered (.scripted ⟨[], [first], 0⟩)
    let uses : List Use := [.check here, .call, .poll 1 here, .call, .poll 1 here, .poll 0 here,
      .check here, .poll 1 here]
    let alone : List Use := [.call, .poll 0 here, .poll 0 here]
    let inner : Layer := ⟨.unknownError, "loading row",
      [table, .stack [], .trail ["[rows:4] unknown"]]⟩
    let outer : Layer := ⟨.notFoundError, "no such user",
      [table, .stack [], .trail ["[rows:4] unknown", "[users:12] unknown"]]⟩
    let result : Source := ⟨.ours outer, [.ours inner, .foreign "reset"]⟩
    busy.layers = idle.layers ∧
      busy.innermost.calls.getD 1 [] = idle.innermost.calls.getD 0 [] ∧
      visits 1 uses = visits 0 alone ∧
      (replies ⟨busy, []⟩ uses).filterMap (Reply.polled? 1) =
        (replies ⟨idle, []⟩ alone).filterMap (Reply.polled? 0) ∧
      wrapAll steps here (.leaf "reset") = .ok result ∧
      WrapsInto steps (.leaf "reset") result ∧
      (replies ⟨idle, []⟩ alone).filterMap (Reply.polled? 0) =
        [.ok .pending, .ok (.ready (.error result))] := by
  -- Nothing is introduced: the goals stay closed terms, which can be run.
  obtain ⟨-, -, hindependent, hwraps⟩ := replies_explained (α := Nat)
  refine ⟨rfl, rfl, rfl, hindependent _ _ _ _ 1 0 rfl rfl rfl, rfl, ?_, rfl⟩
  exact hwraps _ ⟨[], []⟩ _ _ rfl

end Session

end Faults
