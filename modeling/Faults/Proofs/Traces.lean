import Faults.Proofs.Runs
import Faults.Proofs.Walk

/-!
# The stack and the trail of a run

Stacks and trails are entries like others, so a caller can pass some as well, and where they end up
is decided by the order in which everything arrives. This module follows the two keys along a run on
which nothing else is attached under them. `Context.Traced` says what stands there, `Traced.put` that
an arrival adds at most one part to it, and `Run.traced` what this comes to at the end: the first
stack, and all hops in the order of the steps, the hop of a step behind those passed to it.
-/

namespace Faults

open Entry (Arrives stackKey trailKey)

/-! ## Arrivals -/

namespace Entry

def stack? : Entry → Option (List Frame)
  | stack frames => some frames
  | _ => none

def trail? : Entry → Option (List String)
  | trail hops => some hops
  | _ => none

/-- A field or a dict stays away from the keys of stacks and trails. -/
def Apart (entry : Entry) : Prop :=
  entry.variant = .field ∨ entry.variant = .dict → entry.key ≠ stackKey ∧ entry.key ≠ trailKey

/-- Trails one behind the other; none at all without any. -/
def ofTrails : List (List String) → Option Entry
  | [] => none
  | trails => some (.trail trails.flatten)

theorem ofTrails_snoc (trails : List (List String)) (hops : List String) :
    ofTrails (trails ++ [hops]) = some (.trail (trails.flatten ++ hops)) := by
  cases trails <;> simp [ofTrails]

end Entry

namespace Context

/-- Under its key stands the first of these stacks, and under its key all of these trails. -/
structure Traced (context : Context) (snapshots : List (List Frame)) (trails : List (List String)) :
    Prop where
  stack : context.get? stackKey = snapshots.head?.map .stack
  trail : context.get? trailKey = Entry.ofTrails trails

theorem Traced.nil : Traced [] [] [] := ⟨rfl, rfl⟩

/-- An arrival elsewhere. -/
theorem Traced.put_of_ne {context : Context} {snapshots : List (List Frame)}
    {trails : List (List String)} (h : context.Traced snapshots trails) {entry : Entry}
    (hstack : entry.key ≠ stackKey) (htrail : entry.key ≠ trailKey) :
    (context.put entry).Traced snapshots trails where
  stack := by rw [get?_put, if_neg hstack, h.stack]
  trail := by rw [get?_put, if_neg htrail, h.trail]

theorem Traced.put_stack {context : Context} {snapshots : List (List Frame)}
    {trails : List (List String)} (h : context.Traced snapshots trails) {frames : List Frame}
    {result : Entry} (harrives : Arrives .exposed (context.get? stackKey) (.stack frames) result) :
    (context.put result).Traced (snapshots ++ [frames]) trails := by
  have hresult : (snapshots ++ [frames]).head?.map .stack = some result := by
    rw [h.stack] at harrives
    cases snapshots with
    | nil => cases harrives; rfl
    | cons first rest =>
      cases harrives with
      | replaced hvariant => exact absurd rfl hvariant
      | stack => rfl
  have hkey : result.key = stackKey := harrives.key_eq fun _ => key_of_get?
  refine ⟨?_, ?_⟩
  · rw [get?_put, if_pos hkey, hresult]
  · have hother : stackKey ≠ trailKey := by decide
    rw [get?_put, hkey, if_neg hother, h.trail]

theorem Traced.put_trail {context : Context} {snapshots : List (List Frame)}
    {trails : List (List String)} (h : context.Traced snapshots trails) {hops : List String}
    {result : Entry} (harrives : Arrives .exposed (context.get? trailKey) (.trail hops) result) :
    (context.put result).Traced snapshots (trails ++ [hops]) := by
  have hresult : Entry.ofTrails (trails ++ [hops]) = some result := by
    rw [Entry.ofTrails_snoc]
    rw [h.trail] at harrives
    cases trails with
    | nil => cases harrives; rfl
    | cons first rest =>
      cases harrives with
      | replaced hvariant => exact absurd rfl hvariant
      | trail => rfl
  have hkey : result.key = trailKey := harrives.key_eq fun _ => key_of_get?
  refine ⟨?_, ?_⟩
  · have hother : trailKey ≠ stackKey := by decide
    rw [get?_put, hkey, if_neg hother, h.stack]
  · rw [get?_put, if_pos hkey, hresult]

/-- An arrival adds a stack, or a trail, or nothing. -/
theorem Traced.put {context : Context} {snapshots : List (List Frame)} {trails : List (List String)}
    (h : context.Traced snapshots trails) {entry result : Entry} (hentry : entry.Apart)
    (harrives : Arrives .exposed (context.get? entry.key) entry result) :
    (context.put result).Traced (snapshots ++ entry.stack?.toList)
      (trails ++ entry.trail?.toList) := by
  have hkey : result.key = entry.key := harrives.key_eq fun _ => key_of_get?
  cases entry with
  | stack frames =>
    simp only [Entry.stack?, Entry.trail?, Option.toList_some, Option.toList_none, List.append_nil]
    exact h.put_stack harrives
  | trail hops =>
    simp only [Entry.stack?, Entry.trail?, Option.toList_some, Option.toList_none, List.append_nil]
    exact h.put_trail harrives
  | field key value visibility received =>
    obtain ⟨hstack, htrail⟩ := hentry (.inl rfl)
    rw [← hkey] at hstack htrail
    simp only [Entry.stack?, Entry.trail?, Option.toList_none, List.append_nil]
    exact h.put_of_ne hstack htrail
  | dict key visibility received children =>
    obtain ⟨hstack, htrail⟩ := hentry (.inr rfl)
    rw [← hkey] at hstack htrail
    simp only [Entry.stack?, Entry.trail?, Option.toList_none, List.append_nil]
    exact h.put_of_ne hstack htrail

theorem Traced.addAll {context final : Context} {snapshots : List (List Frame)}
    {trails : List (List String)} (h : context.Traced snapshots trails) {entries : List Entry}
    (hentries : ∀ entry ∈ entries, entry.Apart) (hok : context.addAll entries = .ok final) :
    final.Traced (snapshots ++ entries.filterMap Entry.stack?)
      (trails ++ entries.filterMap Entry.trail?) := by
  rw [addAll_eq_absorb] at hok
  induction entries generalizing context snapshots trails with
  | nil =>
    cases hok
    simpa only [List.filterMap_nil, List.append_nil] using h
  | cons entry rest ih =>
    obtain ⟨hentry, hrest⟩ := List.forall_mem_cons.1 hentries
    obtain ⟨result, harrives, hok⟩ := absorb_cons_ok.1 hok
    have hfinal := ih (h.put hentry harrives) hrest hok
    rw [List.append_assoc, List.append_assoc] at hfinal
    rw [List.filterMap_cons, List.filterMap_cons]
    cases hs : entry.stack? <;> cases ht : entry.trail? <;> rw [hs, ht] at hfinal <;> exact hfinal

end Context

/-! ## What the steps of a run bring -/

/-- Where a step adds a hop. -/
def Step.site? : Step → Option CallSite
  | wrap site .. | rewrap site => some site
  | attach _ | reclassify _ => none

def Origin.site? : Origin → Option CallSite
  | raise site .. | wrap site .. | rewrap site _ => some site
  | raw .. | existing _ => none

/-- The stack that is captured without being passed: where a failure is raised, and where something
foreign is wrapped. No later step captures one. -/
def Origin.captured? : Origin → Option (List Frame)
  | raise site .. => some site.surroundings.capture
  | wrap site _ source .. | rewrap site source =>
    match source.top with
    | .ours _ => none
    | .foreign _ => some site.surroundings.capture
  | raw .. | existing _ => none

/-- The trail of a single hop, where there is a site. -/
def hopAt (site? : Option CallSite) : List (List String) :=
  site?.toList.map fun site => [site.caller.hop]

def Step.trails (step : Step) : List (List String) :=
  step.passed.filterMap Entry.trail? ++ hopAt step.site?

def Origin.trails (origin : Origin) : List (List String) :=
  origin.passed.filterMap Entry.trail? ++ hopAt origin.site?

def Origin.snapshots (origin : Origin) : List (List Frame) :=
  origin.passed.filterMap Entry.stack? ++ origin.captured?.toList

namespace Run

def trails (run : Run) : List (List String) :=
  run.origin.trails ++ run.steps.flatMap Step.trails

def snapshots (run : Run) : List (List Frame) :=
  run.origin.snapshots ++ run.steps.flatMap fun step => step.passed.filterMap Entry.stack?

end Run

theorem Step.filterMap_given (step : Step) :
    step.given.filterMap Entry.trail? = step.trails ∧
      step.given.filterMap Entry.stack? = step.passed.filterMap Entry.stack? := by
  rw [given, List.filterMap_append, List.filterMap_append, trails]
  cases step with
  | wrap | rewrap => exact ⟨rfl, List.append_nil _⟩
  | attach | reclassify => exact ⟨rfl, List.append_nil _⟩

/-- Wrapping always leaves a hop, and a stack around something foreign. -/
theorem Failure.filterMap_diagnostics (site : CallSite) (link : Link) :
    (diagnostics site link).filterMap Entry.trail? = [[site.caller.hop]] ∧
      (diagnostics site link).filterMap Entry.stack? =
        match link with
        | .ours _ => []
        | .foreign _ => [site.surroundings.capture] := by
  cases link with
  | ours => exact ⟨rfl, rfl⟩
  | foreign =>
    rw [diagnostics, site.origin_eq]
    exact ⟨rfl, rfl⟩

theorem Origin.filterMap_given (origin : Origin) :
    origin.given.filterMap Entry.trail? = origin.trails ∧
      origin.given.filterMap Entry.stack? = origin.snapshots := by
  rw [given, List.filterMap_append, List.filterMap_append, trails, snapshots]
  cases origin with
  | raw | existing => exact ⟨rfl, rfl⟩
  | raise site => simp only [automatic, site.origin_eq]; exact ⟨rfl, rfl⟩
  | wrap site _ source | rewrap site source =>
    obtain ⟨htrail, hstack⟩ := Failure.filterMap_diagnostics site source.top
    simp only [automatic, htrail, hstack, captured?]
    cases source.top <;> exact ⟨rfl, rfl⟩

namespace Run

theorem filterMap_given (run : Run) :
    run.given.filterMap Entry.trail? = run.trails ∧
      run.given.filterMap Entry.stack? = run.snapshots := by
  obtain ⟨htrail, hstack⟩ := run.origin.filterMap_given
  rw [given, List.filterMap_append, List.filterMap_append, htrail, hstack, List.filterMap_flatMap,
    List.filterMap_flatMap, trails, snapshots]
  simp only [Step.filterMap_given, and_self]

/-- **What a run leaves in its traces.** On a run that begins without inherited entries and on which no
field or dict is attached under the keys of stacks and trails, the failure has in the end the first
stack of all that were passed or captured, and the hops of all trails in the order of the steps; in
each step those that were passed, and behind them the hop of the step itself, if it raises or
wraps. -/
theorem traced {run : Run} {failure : Failure} (hbase : run.origin.base = [])
    (hpassed : ∀ entry ∈ run.passed, entry.Apart) (h : run.result = .ok failure) :
    failure.get? stackKey = run.snapshots.head?.map .stack ∧
    failure.get? trailKey =
      if run.trails = [] then none else some (.trail run.trails.flatten) := by
  have hgiven : ∀ entry ∈ run.given, entry.Apart := by
    refine run.forall_given (fun frames => ?_) (fun hops => ?_) hpassed
    · rintro (h | h) <;> cases h
    · rintro (h | h) <;> cases h
  have hok : Context.addAll [] run.given = .ok failure.entries := by
    rw [← hbase, ← run.entries_result, h]
    rfl
  have htraced := Context.Traced.nil.addAll hgiven hok
  rw [run.filterMap_given.1, run.filterMap_given.2, List.nil_append, List.nil_append] at htraced
  refine ⟨htraced.stack, htraced.trail.trans ?_⟩
  cases run.trails <;> rfl

/-- Something foreign that is wrapped, given hops of another process, and wrapped again. -/
def relay : Run where
  origin := .rewrap ⟨⟨"disk", 7⟩, ⟨[[⟨some "flush", none, none⟩]], []⟩⟩ (.leaf "disk full")
  steps := [
    .attach [.trail ["[remote:1] write"], .stack []],
    .wrap ⟨⟨"store", 12⟩, ⟨[[⟨none, none, none⟩]], []⟩⟩ (some .systemError) "not saved"
      [.trail ["[remote:2] close"]]]

theorem relay_traced :
    relay.origin.base = [] ∧ (∀ entry ∈ relay.passed, entry.Apart) ∧
    ∃ failure, relay.result = .ok failure ∧
      failure.get? stackKey = some (.stack [⟨"flush", none, none⟩]) ∧
      failure.get? trailKey = some (.trail ["[disk:7] flush", "[remote:1] write",
        "[remote:2] close", "[store:12] unknown"]) := by
  have hpassed : ∀ entry ∈ relay.passed, entry.Apart := by
    intro entry hmem
    simp only [relay, passed, Origin.passed, Step.passed, List.flatMap_cons, List.flatMap_nil,
      List.nil_append, List.append_nil, List.cons_append, List.mem_cons, List.not_mem_nil,
      or_false] at hmem
    rcases hmem with rfl | rfl | rfl <;> rintro (h | h) <;> cases h
  obtain ⟨failure, hresult⟩ : ∃ failure, relay.result = .ok failure := ⟨_, rfl⟩
  obtain ⟨hstack, htrail⟩ := traced rfl hpassed hresult
  refine ⟨rfl, hpassed, failure, hresult, hstack, htrail.trans ?_⟩
  rfl

end Run

end Faults
