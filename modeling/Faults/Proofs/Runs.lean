import Faults.Failure.Basic
import Faults.Proofs.Arrival

/-!
# Runs

A run is all that happens to a failure: how it begins (`Origin`) and the steps it takes on its way up
(`Step`). Of the context a run shows one thing only: the entries it gives, those passed by the
callers and the diagnostics of each step, arrive in order at what the run begins with
(`Run.entries_result`).
-/

namespace Faults

/-- One thing that is done to a failure. -/
inductive Step where
  /-- It is wrapped under a message and a kind, the inherited one unless another is named. -/
  | wrap (site : CallSite) (kind? : Option Kind) (message : String) (entries : List Entry)
  /-- It is wrapped under its own message. -/
  | rewrap (site : CallSite)
  /-- It is given more entries, or a single one. -/
  | attach (entries : List Entry)
  /-- It is given another kind. -/
  | reclassify (kind : Kind)

namespace Step

/-- The failure after the step. -/
def apply (failure : Failure) : Step → Except Clash Failure
  | wrap site kind? message entries => Failure.wrap site kind? failure.source message entries
  | rewrap site => Failure.rewrap site failure.source
  | attach entries => failure.attach entries
  | reclassify kind => .ok (failure.reclassify kind)

/-- The entries that the caller passes. -/
def passed : Step → List Entry
  | wrap _ _ _ entries => entries
  | attach entries => entries
  | rewrap _ | reclassify _ => []

/-- The entries that the step adds by itself. -/
def automatic : Step → List Entry
  | wrap site .. | rewrap site => [Entry.here site]
  | attach _ | reclassify _ => []

/-- All entries of the step, in the order of their arrival. -/
def given (step : Step) : List Entry := step.passed ++ step.automatic

end Step

/-- How a run begins. -/
inductive Origin where
  | raw (kind : Kind) (message : String) (entries : List Entry)
  | raise (site : CallSite) (kind : Kind) (message : String) (entries : List Entry)
  | wrap (site : CallSite) (kind? : Option Kind) (source : Source) (message : String)
      (entries : List Entry)
  | rewrap (site : CallSite) (source : Source)
  /-- A failure that is there already. -/
  | existing (failure : Failure)

namespace Origin

/-- The failure that a run begins with. -/
def start : Origin → Except Clash Failure
  | raw kind message entries => Failure.raw kind message entries
  | raise site kind message entries => Failure.raise site kind message entries
  | wrap site kind? source message entries => Failure.wrap site kind? source message entries
  | rewrap site source => Failure.rewrap site source
  | existing failure => .ok failure

/-- The context that is there before any entry of the run arrives. -/
def base : Origin → Context
  | raw .. | raise .. => []
  | wrap _ _ source .. | rewrap _ source => Failure.inheritedEntries source.top
  | existing failure => failure.entries

/-- The entries that the caller passes. -/
def passed : Origin → List Entry
  | raw _ _ entries | raise _ _ _ entries | wrap _ _ _ _ entries => entries
  | rewrap .. | existing _ => []

/-- The entries that are added without being passed. -/
def automatic : Origin → List Entry
  | raise site .. => [.stack site.origin.1, .trail [site.origin.2]]
  | wrap site _ source .. | rewrap site source => Failure.diagnostics site source.top
  | raw .. | existing _ => []

/-- All entries of the beginning, in the order of their arrival. -/
def given (origin : Origin) : List Entry := origin.passed ++ origin.automatic

end Origin

/-- The failure after steps, one on top of the other. -/
def Failure.run (failure : Failure) (steps : List Step) : Except Clash Failure :=
  steps.foldlM Step.apply failure

/-- A failure from its beginning on. -/
structure Run where
  origin : Origin
  steps : List Step

namespace Run

/-- The failure at the end of the run. -/
def result (run : Run) : Except Clash Failure := do (← run.origin.start).run run.steps

/-- The entries that callers pass in the course of the run. -/
def passed (run : Run) : List Entry := run.origin.passed ++ run.steps.flatMap Step.passed

/-- All entries of the run, in the order of their arrival. -/
def given (run : Run) : List Entry := run.origin.given ++ run.steps.flatMap Step.given

end Run

/-! ## What a run gives -/

/-- A step adds nothing but a trail by itself. -/
theorem Step.forall_given {P : Entry → Prop} (trail : ∀ hops, P (.trail hops)) (step : Step)
    (h : ∀ entry ∈ step.passed, P entry) : ∀ entry ∈ step.given, P entry := by
  refine List.forall_mem_append.2 ⟨h, ?_⟩
  cases step with
  | wrap | rewrap => exact List.forall_mem_singleton.2 (trail _)
  | attach | reclassify => exact fun _ h => by cases h

theorem Step.forall_given_all {P : Entry → Prop} (trail : ∀ hops, P (.trail hops)) (steps : List Step)
    (h : ∀ step ∈ steps, ∀ entry ∈ step.passed, P entry) :
    ∀ entry ∈ steps.flatMap Step.given, P entry := by
  intro entry hentry
  obtain ⟨step, hstep, hentry⟩ := List.mem_flatMap.1 hentry
  exact step.forall_given trail (h step hstep) entry hentry

theorem Origin.forall_given {P : Entry → Prop} (stack : ∀ frames, P (.stack frames))
    (trail : ∀ hops, P (.trail hops)) (origin : Origin) (h : ∀ entry ∈ origin.passed, P entry) :
    ∀ entry ∈ origin.given, P entry := by
  refine List.forall_mem_append.2 ⟨h, ?_⟩
  have hboth : ∀ frames hops, ∀ entry ∈ [Entry.stack frames, .trail hops], P entry :=
    fun _ _ => List.forall_mem_cons.2 ⟨stack _, List.forall_mem_singleton.2 (trail _)⟩
  have hdiagnostics : ∀ site link, ∀ entry ∈ Failure.diagnostics site link, P entry := by
    intro site link
    cases link with
    | ours => exact List.forall_mem_singleton.2 (trail _)
    | foreign => exact hboth _ _
  cases origin with
  | raise => exact hboth _ _
  | wrap | rewrap => exact hdiagnostics _ _
  | raw | existing => exact fun _ h => by cases h

/-- What holds of all stacks, of all trails and of what is passed holds of all that a run gives. -/
theorem Run.forall_given {P : Entry → Prop} (stack : ∀ frames, P (.stack frames))
    (trail : ∀ hops, P (.trail hops)) (run : Run) (h : ∀ entry ∈ run.passed, P entry) :
    ∀ entry ∈ run.given, P entry := by
  obtain ⟨horigin, hsteps⟩ := List.forall_mem_append.1 h
  refine List.forall_mem_append.2 ⟨run.origin.forall_given stack trail horigin, ?_⟩
  refine Step.forall_given_all trail run.steps fun step hstep entry hentry => ?_
  exact hsteps entry (List.mem_flatMap.2 ⟨step, hstep, hentry⟩)

/-! ## What a run does to the context -/

namespace Failure

theorem entries_wrap (site : CallSite) (kind? : Option Kind) (source : Source) (message : String)
    (entries : List Entry) :
    (·.entries) <$> wrap site kind? source message entries =
      (inheritedEntries source.top).addAll (entries ++ diagnostics site source.top) := by
  rw [Context.addAll_append, wrap, map_bind]
  refine bind_congr fun context => ?_
  rw [map_bind]
  exact bind_pure _

theorem entries_attach (failure : Failure) (entries : List Entry) :
    (·.entries) <$> failure.attach entries = failure.entries.addAll entries := by
  rw [attach, map_bind]
  exact bind_pure _

theorem entries_raw (kind : Kind) (message : String) (entries : List Entry) :
    (·.entries) <$> raw kind message entries = Context.addAll [] entries := by
  rw [raw, map_bind]
  exact bind_pure _

theorem entries_raise (site : CallSite) (kind : Kind) (message : String) (entries : List Entry) :
    (·.entries) <$> raise site kind message entries =
      Context.addAll [] (entries ++ [.stack site.origin.1, .trail [site.origin.2]]) := by
  rw [Context.addAll_append, ← entries_raw kind message, bind_map_left, raise, map_bind]
  exact bind_congr fun failure => entries_attach failure _

end Failure

theorem Step.entries_apply (failure : Failure) (step : Step) :
    (·.entries) <$> step.apply failure = failure.entries.addAll step.given := by
  cases step with
  | wrap site kind? message entries => exact Failure.entries_wrap ..
  | rewrap site => exact Failure.entries_wrap ..
  | attach entries =>
    rw [apply, Failure.entries_attach, given, automatic, List.append_nil]
    rfl
  | reclassify kind => rfl

theorem Failure.entries_run (failure : Failure) (steps : List Step) :
    (·.entries) <$> failure.run steps = failure.entries.addAll (steps.flatMap Step.given) := by
  induction steps generalizing failure with
  | nil => rfl
  | cons step rest ih =>
    rw [run, List.foldlM_cons, map_bind, List.flatMap_cons, Context.addAll_append,
      ← Step.entries_apply, bind_map_left]
    exact bind_congr fun next => ih next

/-- Steps succeed exactly when what they give can be merged into the context, and then leave the
merged context. -/
theorem Failure.run_ok_iff {failure : Failure} {steps : List Step} {context : Context} :
    (∃ final, failure.run steps = .ok final ∧ final.entries = context) ↔
      failure.entries.addAll (steps.flatMap Step.given) = .ok context := by
  rw [← entries_run, ← bind_pure_comp]
  exact map_ok.symm

theorem Origin.entries_start (origin : Origin) :
    (·.entries) <$> origin.start = origin.base.addAll origin.given := by
  cases origin with
  | raw kind message entries =>
    rw [start, Failure.entries_raw, given, automatic, List.append_nil]
    rfl
  | raise site kind message entries => exact Failure.entries_raise ..
  | wrap site kind? source message entries => exact Failure.entries_wrap ..
  | rewrap site source => exact Failure.entries_wrap ..
  | existing failure => rfl

/-- The context at the end of a run: what the run gives arrives in order at what it begins with. A
run fails when one of these arrivals does, and for no other reason. -/
theorem Run.entries_result (run : Run) :
    (·.entries) <$> run.result = run.origin.base.addAll run.given := by
  rw [result, map_bind, given, Context.addAll_append, ← Origin.entries_start, bind_map_left]
  exact bind_congr fun failure => Failure.entries_run failure run.steps

end Faults
