import Faults.Failure.Chain
import Faults.Proofs.Runs
import Mathlib.Data.List.Count

/-!
# The layers of a run

Each wrapping step of a run puts a layer around what is there; other steps change the outermost layer
only. So the chain of causes is a record of the run: below the failure stands, one below the other,
what each layer has wrapped, as it was then. The kind is read off the outermost layer, so the last step
that names one decides, and a classification walks past everything foreign to that layer and never
further.

* `Step.apply_ok`: what one step does to the kind and to the chain;
* `Failure.kind_run`, `Failure.drop_below_run`: what steps do, one after the other;
* `Run.classified`: both for a run that begins with wrapping something, and how its outcome, or any
  other failure, is classified through foreign wrappers.
-/

namespace Faults

/-! ## One step -/

namespace Step

/-- The kind that the step names. -/
def named? : Step → Option Kind
  | wrap _ kind? _ _ => kind?
  | reclassify kind => some kind
  | rewrap _ | attach _ => none

/-- The step puts a layer around the failure. -/
def isLayer : Step → Bool
  | wrap .. | rewrap _ => true
  | attach _ | reclassify _ => false

end Step

theorem Failure.wrap_ok {site : CallSite} {kind? : Option Kind} {source : Source} {message : String}
    {entries : List Entry} {failure : Failure}
    (h : wrap site kind? source message entries = .ok failure) :
    failure.kind = kind?.getD (inheritedKind source.top) ∧ failure.below = source.chain := by
  obtain ⟨merged, -, h⟩ := bind_ok.1 h
  obtain ⟨context, -, rfl⟩ := map_ok.1 h
  exact ⟨rfl, rfl⟩

theorem Failure.message_wrap {site : CallSite} {kind? : Option Kind} {source : Source}
    {message : String} {entries : List Entry} {failure : Failure}
    (h : wrap site kind? source message entries = .ok failure) : failure.message = message := by
  obtain ⟨merged, -, h⟩ := bind_ok.1 h
  obtain ⟨context, -, rfl⟩ := map_ok.1 h
  rfl

/-- A step that names a kind decides it, and a layer has below it the failure as it was. -/
theorem Step.apply_ok {failure next : Failure} {step : Step} (h : step.apply failure = .ok next) :
    next.kind = step.named?.getD failure.kind ∧
      next.below = if step.isLayer then failure.chain else failure.below := by
  cases step with
  | wrap site kind? message entries => exact Failure.wrap_ok h
  | rewrap site => exact Failure.wrap_ok h
  | attach entries =>
    obtain ⟨context, -, rfl⟩ := map_ok.1 h
    exact ⟨rfl, rfl⟩
  | reclassify kind =>
    cases h
    exact ⟨rfl, rfl⟩

/-! ## One step after the other -/

namespace Failure

theorem run_cons_ok {failure final : Failure} {step : Step} {steps : List Step} :
    failure.run (step :: steps) = .ok final ↔
      ∃ next, step.apply failure = .ok next ∧ next.run steps = .ok final := by
  rw [run, List.foldlM_cons, bind_ok]
  rfl

theorem run_append_ok {failure final : Failure} {front back : List Step} :
    failure.run (front ++ back) = .ok final ↔
      ∃ middle, failure.run front = .ok middle ∧ middle.run back = .ok final := by
  rw [run, List.foldlM_append, bind_ok]
  rfl

/-- The last step that names a kind decides. -/
theorem kind_run {failure final : Failure} {steps : List Step} (h : failure.run steps = .ok final) :
    final.kind = (steps.filterMap Step.named?).getLast?.getD failure.kind := by
  induction steps generalizing failure with
  | nil => cases h; rfl
  | cons step steps ih =>
    obtain ⟨next, hstep, hrest⟩ := run_cons_ok.1 h
    rw [ih hrest, (Step.apply_ok hstep).1]
    cases hnamed : step.named? with
    | none => rw [List.filterMap_cons_none hnamed, Option.getD_none]
    | some kind =>
      rw [List.filterMap_cons_some hnamed, List.getLast?_cons, Option.getD_some, Option.getD_some]

/-- Each layer puts one link on top of what stands below. -/
theorem below_run {failure final : Failure} {steps : List Step} (h : failure.run steps = .ok final) :
    ∃ outer, outer.length = steps.countP Step.isLayer ∧ final.below = outer ++ failure.below := by
  induction steps generalizing failure with
  | nil => cases h; exact ⟨[], rfl, rfl⟩
  | cons step steps ih =>
    obtain ⟨next, hstep, hrest⟩ := run_cons_ok.1 h
    obtain ⟨outer, hlength, hfinal⟩ := ih hrest
    have hbelow := (Step.apply_ok hstep).2
    by_cases hlayer : step.isLayer = true
    · rw [if_pos hlayer] at hbelow
      refine ⟨outer ++ [.ours failure.toLayer], ?_, ?_⟩
      · rw [List.length_append, hlength, List.countP_cons_of_pos hlayer, List.length_singleton]
      · rw [hfinal, hbelow, List.append_assoc]
        rfl
    · rw [if_neg hlayer] at hbelow
      rw [List.countP_cons_of_neg hlayer]
      exact ⟨outer, hlength, hbelow ▸ hfinal⟩

/-- What a layer has wrapped stands in the chain as it was, below this layer and those outside it. -/
theorem chain_run {failure final : Failure} {before after : List Step} {layer : Step}
    (hlayer : layer.isLayer = true) (h : failure.run (before ++ layer :: after) = .ok final) :
    ∃ wrapped outer, failure.run before = .ok wrapped ∧
      outer.length = after.countP Step.isLayer + 1 ∧ final.chain = outer ++ wrapped.chain := by
  obtain ⟨wrapped, hbefore, h⟩ := run_append_ok.1 h
  obtain ⟨next, hstep, hafter⟩ := run_cons_ok.1 h
  obtain ⟨outer, hlength, hfinal⟩ := below_run hafter
  rw [(Step.apply_ok hstep).2, if_pos hlayer] at hfinal
  refine ⟨wrapped, .ours final.toLayer :: outer, hbefore, ?_, ?_⟩
  · rw [List.length_cons, hlength]
  · rw [List.cons_append, ← hfinal]
    rfl

end Failure

/-! ## Runs that wrap something -/

/-- What the beginning wraps. -/
def Origin.wrapped? : Origin → Option Source
  | wrap _ _ source .. | rewrap _ source => some source
  | raw .. | raise .. | existing _ => none

/-- The kind that the beginning names. -/
def Origin.named? : Origin → Option Kind
  | raw kind .. | raise _ kind .. => some kind
  | wrap _ kind? .. => kind?
  | rewrap .. => none
  | existing failure => some failure.kind

/-- The kind of a source that nobody has classified yet is unknown. -/
def Source.kind (source : Source) : Kind :=
  match source.failure? with
  | some failure => failure.kind
  | none => .unknownError

theorem Source.inheritedKind_top (source : Source) :
    Failure.inheritedKind source.top = source.kind := by
  rw [kind, failure?]
  cases source.top <;> rfl

theorem Origin.start_ok {origin : Origin} {source : Source} {first : Failure}
    (hwrapped : origin.wrapped? = some source) (h : origin.start = .ok first) :
    first.kind = origin.named?.getD source.kind ∧ first.below = source.chain := by
  rw [← source.inheritedKind_top]
  cases origin with
  | wrap site kind? wrapped message entries =>
    cases hwrapped
    exact Failure.wrap_ok h
  | rewrap site wrapped =>
    cases hwrapped
    exact Failure.wrap_ok h
  | raw | raise | existing => cases hwrapped

namespace Run

/-- The kinds that are named in the course of the run. -/
def named (run : Run) : List Kind :=
  run.origin.named?.toList ++ run.steps.filterMap Step.named?

/-- How many layers the run puts around what it begins with. -/
def layers (run : Run) : Nat := run.steps.countP Step.isLayer + 1

/-- The outcome of the run is classified by the last kind that is named, and its chain records all that
was wrapped. -/
structure Records (run : Run) (source : Source) (final : Failure) : Prop where
  kind : final.kind = run.named.getLast?.getD source.kind
  top : final.chain.head? = some (.ours final.toLayer)
  /-- What a layer wrapped is what the run had come to just before. -/
  wrapped : ∀ before layer after, run.steps = before ++ layer :: after → layer.isLayer = true →
    ∃ wrapped outer, (⟨run.origin, before⟩ : Run).result = .ok wrapped ∧
      outer.length = after.countP Step.isLayer + 1 ∧ final.chain = outer ++ wrapped.chain
  /-- The first layer wrapped the source. -/
  origin : ∃ outer, outer.length = run.layers ∧ final.chain = outer ++ source.chain
  length : final.chain.length = run.layers + source.chain.length

theorem records_of_result {run : Run} {source : Source} {final : Failure}
    (hwrapped : run.origin.wrapped? = some source) (h : run.result = .ok final) :
    run.Records source final := by
  obtain ⟨first, hstart, hrun⟩ := bind_ok.1 h
  obtain ⟨hkind, hbelow⟩ := Origin.start_ok hwrapped hstart
  obtain ⟨outer, hlength, hfinal⟩ := Failure.below_run hrun
  rw [hbelow] at hfinal
  have hchain : final.chain = (.ours final.toLayer :: outer) ++ source.chain := by
    rw [List.cons_append, ← hfinal]
    rfl
  refine ⟨?_, rfl, ?_, ⟨.ours final.toLayer :: outer, congrArg Nat.succ hlength, hchain⟩, ?_⟩
  · -- a kind named by a step is named after the one named at the beginning
    rw [Failure.kind_run hrun, hkind, named, List.getLast?_append]
    cases (run.steps.filterMap Step.named?).getLast? with
    | some kind => rfl
    | none => cases run.origin.named? <;> rfl
  · intro before layer after hsplit hlayer
    rw [hsplit] at hrun
    obtain ⟨wrapped, outer, hbefore, hrest⟩ := Failure.chain_run hlayer hrun
    exact ⟨wrapped, outer, bind_ok.2 ⟨first, hstart, hbefore⟩, hrest⟩
  · rw [hchain, List.length_append, List.length_cons, hlength, layers]

end Run

/-! ## Foreign wrappers -/

namespace Source

theorem classify_wrapper (text : String) (source : Source) :
    (source.wrapper text).classify = source.classify := rfl

theorem classify_wrappers (texts : List String) (failure : Failure) :
    (texts.foldr wrapper failure.source).classify = some failure := by
  induction texts with
  | nil => rfl
  | cons text texts ih => rw [List.foldr_cons, classify_wrapper, ih]

end Source

/-- **Kind and chain of a run.** What comes out of a run that begins with wrapping something has the kind
that was named last, or else the kind of what was wrapped first; its chain holds, from the outside in,
what each layer wrapped, and then all that was there before. And whatever foreign things stand around a
failure, it is this failure that counts: it is what a classification finds, and it is found under the
kinds that it falls under and under no others. -/
theorem Run.classified :
    (∀ (run : Run) (source : Source) (final : Failure), run.origin.wrapped? = some source →
      run.result = .ok final → run.Records source final) ∧
    ∀ (failure : Failure) (texts : List String) (kind : Kind),
      (texts.foldr Source.wrapper failure.source).classify = some failure ∧
      (texts.foldr Source.wrapper failure.source).findKind kind =
        (if failure.isA kind then some failure else none) ∧
      (texts.foldr Source.wrapper failure.source).isKind kind = failure.isA kind := by
  refine ⟨fun run source final => records_of_result, fun failure texts kind => ?_⟩
  have hclassify := Source.classify_wrappers texts failure
  have hfind : (texts.foldr Source.wrapper failure.source).findKind kind =
      if failure.isA kind then some failure else none := by
    rw [Source.findKind, hclassify, Option.filter_some]
  refine ⟨hclassify, hfind, ?_⟩
  rw [Source.isKind, hfind]
  cases failure.isA kind <;> rfl

/-- A missing row that is reported as a missing user, and then hidden. -/
def Run.lostUser : Run where
  origin := .wrap ⟨⟨"store", 3⟩, ⟨[], []⟩⟩ none
    (Source.leaf "row 7 is gone" |>.wrapper "query failed") "no such row" []
  steps := [
    .reclassify .databaseRecordNotFoundError,
    .wrap ⟨⟨"users", 12⟩, ⟨[], []⟩⟩ (some .notFoundError) "no such user" [],
    .attach [.exposedField "id" (.int 7)],
    .rewrap ⟨⟨"login", 40⟩, ⟨[], []⟩⟩]

theorem Run.lostUser_classified :
    ∃ final, lostUser.result = .ok final ∧ final.kind = .notFoundError ∧
      final.chain.length = 5 ∧
      (∃ row outer, (⟨lostUser.origin, [.reclassify .databaseRecordNotFoundError]⟩ : Run).result =
          .ok row ∧ outer.length = 2 ∧ final.chain = outer ++ row.chain) ∧
      (final.source.wrapper "request failed").isKind .databaseRecordNotFoundError = false := by
  obtain ⟨final, hresult⟩ : ∃ final, lostUser.result = .ok final := ⟨_, rfl⟩
  have hrecords := classified.1 lostUser _ final rfl hresult
  have hkind : final.kind = .notFoundError := hrecords.kind
  refine ⟨final, hresult, hkind, hrecords.length, hrecords.wrapped [_] _ _ rfl rfl, ?_⟩
  refine ((classified.2 final ["request failed"] _).2.2).trans ?_
  rw [Failure.isA, hkind]
  decide

end Faults
