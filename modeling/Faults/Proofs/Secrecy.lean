import Faults.Proofs.Runs
import Faults.Wire.Report

/-!
# What is restricted does not show

Two entries are alike for an outsider when they differ only in what they hide: in the values of
fields that are restricted or stand below something restricted, in stacks and in hops
(`Entry.Alike`). The relation is stated below a visibility, that of the dicts around the entries.
A merge takes entries that are alike to entries that are alike, and fails on both or on neither
(`Entry.Alike.arrive`, `Context.Alike.addAll`); so does every step of a run. Main statement: runs
that are alike send the same reports (`Run.Alike.reports_eq`).
-/

namespace Faults

/-- Two outcomes are both the same error, or both values that are related. -/
inductive Agree {ε α β : Type} (R : α → β → Prop) : Except ε α → Except ε β → Prop where
  | ok {a : α} {b : β} (h : R a b) : Agree R (.ok a) (.ok b)
  | error {e : ε} : Agree R (.error e) (.error e)

theorem Agree.bind {ε α β α' β' : Type} {R : α → β → Prop} {S : α' → β' → Prop} {x : Except ε α}
    {y : Except ε β} {f : α → Except ε α'} {g : β → Except ε β'} (h : Agree R x y)
    (hfg : ∀ a b, R a b → Agree S (f a) (g b)) : Agree S (x >>= f) (y >>= g) := by
  cases h with
  | ok h => exact hfg _ _ h
  | error => exact .error

/-! ## Entries -/

mutual

/-- The entries have the same shape, and below something of visibility `outer` the same exposed
values. -/
inductive Entry.Alike : Visibility → Entry → Entry → Prop where
  | field {outer : Visibility} {key : String} {value value' : Json} {visibility : Visibility}
      {received : Bool} (h : outer.under visibility = .exposed → value = value') :
    Entry.Alike outer (.field key value visibility received) (.field key value' visibility received)
  | stack {outer : Visibility} {frames frames' : List Frame} :
    Entry.Alike outer (.stack frames) (.stack frames')
  | trail {outer : Visibility} {hops hops' : List String} :
    Entry.Alike outer (.trail hops) (.trail hops')
  | dict {outer : Visibility} {key : String} {visibility : Visibility} {received : Bool}
      {children children' : List Entry}
      (h : Context.Alike (outer.under visibility) children children') :
    Entry.Alike outer (.dict key visibility received children)
      (.dict key visibility received children')

/-- The entries are alike one by one. -/
inductive Context.Alike : Visibility → List Entry → List Entry → Prop where
  | nil {outer : Visibility} : Context.Alike outer [] []
  | cons {outer : Visibility} {entry entry' : Entry} {rest rest' : List Entry}
      (head : Entry.Alike outer entry entry') (tail : Context.Alike outer rest rest') :
    Context.Alike outer (entry :: rest) (entry' :: rest')

end

namespace Entry.Alike

variable {outer : Visibility} {entry entry' : Entry}

theorem key_eq (h : Alike outer entry entry') : entry.key = entry'.key := by
  cases h <;> rfl

theorem variant_eq (h : Alike outer entry entry') : entry.variant = entry'.variant := by
  cases h <;> rfl

theorem isReceived_eq (h : Alike outer entry entry') : entry.isReceived = entry'.isReceived := by
  cases h <;> rfl

end Entry.Alike

namespace Context.Alike

variable {outer : Visibility}

theorem imp {inner : Visibility} {entries entries' : List Entry} (h : Alike outer entries entries')
    (himp : ∀ entry ∈ entries, ∀ entry', Entry.Alike outer entry entry' →
      Entry.Alike inner entry entry') : Alike inner entries entries' := by
  induction entries generalizing entries' with
  | nil =>
    cases h
    exact .nil
  | cons entry rest ih =>
    cases h with
    | cons head tail =>
      exact .cons (himp entry List.mem_cons_self _ head)
        (ih tail fun entry hmem => himp entry (List.mem_cons_of_mem _ hmem))

theorem get? {context context' : Context} (h : Alike outer context context') (key : String) :
    Option.Rel (Entry.Alike outer) (context.get? key) (context'.get? key) := by
  induction context generalizing context' with
  | nil =>
    cases h
    exact .none
  | cons entry rest ih =>
    cases h with
    | cons head tail =>
      rw [get?_cons, get?_cons, head.key_eq]
      split
      · exact .some head
      · exact ih tail

theorem put {context context' : Context} (h : Alike outer context context') {entry entry' : Entry}
    (he : Entry.Alike outer entry entry') :
    Alike outer (context.put entry) (context'.put entry') := by
  induction context generalizing context' with
  | nil =>
    cases h
    exact .cons he .nil
  | cons head rest ih =>
    cases h with
    | cons hhead htail =>
      rw [Context.put, Context.put, hhead.key_eq, he.key_eq]
      split
      · exact .cons he htail
      · exact .cons hhead (ih htail)

end Context.Alike

/-- What is alike stays alike further in: there is less to be seen there. -/
theorem Entry.Alike.under {outer : Visibility} {entry entry' : Entry}
    (h : Entry.Alike outer entry entry') (above : Visibility) :
    Entry.Alike (above.under outer) entry entry' := by
  induction entry generalizing outer above entry' with
  | step entry ih =>
    cases h with
    | field h =>
      refine .field fun hexposed => ?_
      cases above with
      | exposed => exact h hexposed
      | restricted => cases hexposed
    | stack => exact .stack
    | trail => exact .trail
    | dict h =>
      refine .dict ?_
      rw [Visibility.under_assoc]
      exact h.imp fun child hmem child' hchild => ih child hmem hchild above

theorem Context.Alike.under {outer : Visibility} {entries entries' : List Entry}
    (h : Context.Alike outer entries entries') (above : Visibility) :
    Context.Alike (above.under outer) entries entries' :=
  h.imp fun _ _ _ hentry => hentry.under above

theorem Entry.Alike.capped {outer : Visibility} {entry entry' : Entry}
    (h : Entry.Alike outer entry entry') (above : Visibility) :
    Entry.Alike above (entry.capped outer) (entry'.capped outer) := by
  cases h with
  | field h =>
    refine .field fun hexposed => ?_
    cases above with
    | exposed => exact h hexposed
    | restricted => cases hexposed
  | stack => exact .stack
  | trail => exact .trail
  | dict h => exact .dict (h.under above)

/-! ## Merging -/

theorem Entry.Alike.replace {above : Visibility} {current current' incoming incoming' : Entry}
    (hcurrent : Entry.Alike above current current')
    (hincoming : Entry.Alike above incoming incoming') :
    Agree (Entry.Alike above) (current.replace incoming) (current'.replace incoming') := by
  unfold Entry.replace
  rw [hcurrent.isReceived_eq, hcurrent.variant_eq, hcurrent.key_eq, hincoming.isReceived_eq,
    hincoming.variant_eq, hincoming.key_eq]
  split
  · exact .ok hincoming
  · exact .error

/-- Merging two lists that are alike entry by entry, given that each single arrival keeps what is
alike alike. -/
theorem Context.Alike.absorb_of {outer above : Visibility} {entries entries' : List Entry}
    (h : Context.Alike outer entries entries')
    (harrive : ∀ entry ∈ entries, ∀ entry' place place', Entry.Alike outer entry entry' →
      Option.Rel (Entry.Alike above) place place' →
      Agree (Entry.Alike above) (Entry.arrive outer place entry) (Entry.arrive outer place' entry'))
    {context context' : Context} (hcontext : Context.Alike above context context') :
    Agree (Context.Alike above) (context.absorb outer entries) (context'.absorb outer entries') := by
  induction entries generalizing entries' context context' with
  | nil =>
    cases h
    exact .ok hcontext
  | cons entry rest ih =>
    cases h with
    | cons head tail =>
      rw [absorb_cons, absorb_cons, ← head.key_eq]
      have hplace := hcontext.get? entry.key
      have hhead := harrive entry List.mem_cons_self _ _ _ head hplace
      refine hhead.bind fun result result' hresult => ?_
      exact ih tail (fun entry hmem => harrive entry (List.mem_cons_of_mem _ hmem))
        (hcontext.put hresult)

/-- An arrival keeps what is alike alike, and fails on both sides or on neither. Below `above` the
place shows no more than `above` allows, whatever arrives; what arrives shows no more than `outer`
allows, since it is capped. -/
theorem Entry.Alike.arrive {outer above : Visibility} {entry entry' : Entry}
    {place place' : Option Entry} (h : Entry.Alike outer entry entry')
    (hplace : Option.Rel (Entry.Alike above) place place') :
    Agree (Entry.Alike above) (Entry.arrive outer place entry)
      (Entry.arrive outer place' entry') := by
  induction entry generalizing outer above entry' place place' with
  | step entry ih =>
    cases hplace with
    | none => exact .ok (h.capped above)
    | @some current current' hcurrent =>
      rw [Entry.arrive, Entry.arrive]
      by_cases hv : current.variant = entry.variant
      · cases h with
        | field h =>
          cases hcurrent with
          | field =>
            simp only [absorb]
            exact .ok (Alike.capped (.field h) above)
          | _ => cases hv
        | stack =>
          cases hcurrent with
          | stack =>
            simp only [absorb]
            exact .ok .stack
          | _ => cases hv
        | trail =>
          cases hcurrent with
          | trail =>
            simp only [absorb]
            exact .ok .trail
          | _ => cases hv
        | dict h =>
          cases hcurrent with
          | dict hpresent =>
            simp only [absorb]
            refine (h.absorb_of ?_ hpresent).bind fun merged merged' hmerged => .ok (.dict hmerged)
            exact fun child hmem child' place place' hchild => ih child hmem hchild
          | _ => cases hv
      · have hv' : current'.variant ≠ entry'.variant := by
          rwa [← hcurrent.variant_eq, ← h.variant_eq]
        rw [absorb_of_variant_ne hv, absorb_of_variant_ne hv']
        exact hcurrent.replace (h.capped above)

/-- Merges of entries that are alike into contexts that are alike. -/
theorem Context.Alike.addAll {context context' : Context}
    (hcontext : Context.Alike .exposed context context') {entries entries' : List Entry}
    (h : Context.Alike .exposed entries entries') :
    Agree (Context.Alike .exposed) (context.addAll entries) (context'.addAll entries') := by
  rw [addAll_eq_absorb, addAll_eq_absorb]
  exact h.absorb_of (fun _ _ _ _ _ hentry => hentry.arrive) hcontext

/-! ## The public view -/

theorem Context.Alike.publicPairs_of {entries entries' : List Entry}
    (h : Context.Alike .exposed entries entries')
    (hvalue : ∀ entry ∈ entries, ∀ entry', Entry.Alike .exposed entry entry' →
      entry.publicValue? = entry'.publicValue?) :
    publicPairs entries = publicPairs entries' := by
  induction entries generalizing entries' with
  | nil =>
    cases h
    rfl
  | cons entry rest ih =>
    cases h with
    | cons head tail =>
      rw [publicPairs, publicPairs, head.key_eq, hvalue entry List.mem_cons_self _ head,
        ih tail fun entry hmem => hvalue entry (List.mem_cons_of_mem _ hmem)]

theorem Entry.Alike.publicValue?_eq {entry entry' : Entry} (h : Entry.Alike .exposed entry entry') :
    entry.publicValue? = entry'.publicValue? := by
  induction entry generalizing entry' with
  | step entry ih =>
    cases h with
    | @field _ _ _ _ visibility _ h =>
      cases visibility with
      | exposed => rw [publicValue?, publicValue?, h rfl]
      | restricted => rfl
    | stack => rfl
    | trail => rfl
    | @dict _ _ visibility _ _ _ h =>
      cases visibility with
      | exposed => rw [publicValue?, publicValue?, h.publicPairs_of fun child hmem _ => ih child hmem]
      | restricted => rfl

theorem Context.Alike.publicValues_eq {context context' : Context}
    (h : Context.Alike .exposed context context') : context.publicValues = context'.publicValues := by
  rw [publicValues, publicValues, h.publicPairs_of fun _ _ _ hentry => hentry.publicValue?_eq]

/-! ## Failures and runs -/

/-- The failures tell an outsider the same: they have one kind and one message, and contexts that
are alike. Their causes are their own. -/
structure Failure.Alike (failure failure' : Failure) : Prop where
  kind : failure.kind = failure'.kind
  message : failure.message = failure'.message
  entries : Context.Alike .exposed failure.entries failure'.entries

/-- Both links are foreign, or they are layers that tell an outsider the same. -/
inductive Link.Alike : Link → Link → Prop where
  | foreign {text text' : String} : Link.Alike (.foreign text) (.foreign text')
  | ours {layer layer' : Layer} (kind : layer.kind = layer'.kind)
      (message : layer.message = layer'.message)
      (entries : Context.Alike .exposed layer.entries layer'.entries) :
    Link.Alike (.ours layer) (.ours layer')

/-- The same step with entries that are alike, taken anywhere. -/
inductive Step.Alike : Step → Step → Prop where
  | wrap {site site' : CallSite} {kind? : Option Kind} {message : String}
      {entries entries' : List Entry} (h : Context.Alike .exposed entries entries') :
    Step.Alike (.wrap site kind? message entries) (.wrap site' kind? message entries')
  | rewrap {site site' : CallSite} : Step.Alike (.rewrap site) (.rewrap site')
  | attach {entries entries' : List Entry} (h : Context.Alike .exposed entries entries') :
    Step.Alike (.attach entries) (.attach entries')
  | reclassify {kind : Kind} : Step.Alike (.reclassify kind) (.reclassify kind)

/-- The same beginning with entries that are alike, anywhere. What is wrapped is foreign on both
sides, with nothing else in common, or a failure that tells an outsider the same. -/
inductive Origin.Alike : Origin → Origin → Prop where
  | raw {kind : Kind} {message : String} {entries entries' : List Entry}
      (h : Context.Alike .exposed entries entries') :
    Origin.Alike (.raw kind message entries) (.raw kind message entries')
  | raise {site site' : CallSite} {kind : Kind} {message : String} {entries entries' : List Entry}
      (h : Context.Alike .exposed entries entries') :
    Origin.Alike (.raise site kind message entries) (.raise site' kind message entries')
  | wrap {site site' : CallSite} {kind? : Option Kind} {source source' : Source} {message : String}
      {entries entries' : List Entry} (top : Link.Alike source.top source'.top)
      (h : Context.Alike .exposed entries entries') :
    Origin.Alike (.wrap site kind? source message entries)
      (.wrap site' kind? source' message entries')
  | existing {failure failure' : Failure} (h : failure.Alike failure') :
    Origin.Alike (.existing failure) (.existing failure')

/-- The runs begin alike and take steps that are alike, one by one. -/
structure Run.Alike (run run' : Run) : Prop where
  origin : run.origin.Alike run'.origin
  steps : List.Forall₂ Step.Alike run.steps run'.steps

/-! ### What depends on the outermost link -/

namespace Link.Alike

variable {link link' : Link}

theorem inheritedKind_eq (h : link.Alike link') :
    Failure.inheritedKind link = Failure.inheritedKind link' := by
  cases h with
  | foreign => rfl
  | ours kind => exact kind

theorem inheritedEntries (h : link.Alike link') :
    Context.Alike .exposed (Failure.inheritedEntries link) (Failure.inheritedEntries link') := by
  cases h with
  | foreign => exact .nil
  | ours _ _ entries => exact entries

theorem diagnostics (h : link.Alike link') (site site' : CallSite) :
    Context.Alike .exposed (Failure.diagnostics site link) (Failure.diagnostics site' link') := by
  cases h with
  | foreign => exact .cons .stack (.cons .trail .nil)
  | ours => exact .cons .trail .nil

end Link.Alike

namespace Failure

theorem Alike.wrap {source source' : Source} (top : source.top.Alike source'.top)
    {entries entries' : List Entry} (h : Context.Alike .exposed entries entries')
    (site site' : CallSite) (kind? : Option Kind) (message : String) :
    Agree Alike (wrap site kind? source message entries)
      (wrap site' kind? source' message entries') := by
  unfold Failure.wrap
  refine (top.inheritedEntries.addAll h).bind fun context context' hcontext => ?_
  refine (hcontext.addAll (top.diagnostics site site')).bind fun final final' hfinal => ?_
  refine .ok ⟨?_, rfl, hfinal⟩
  change kind?.getD _ = kind?.getD _
  rw [top.inheritedKind_eq]

theorem Alike.attach {failure failure' : Failure} (hfailure : failure.Alike failure')
    {entries entries' : List Entry} (h : Context.Alike .exposed entries entries') :
    Agree Alike (failure.attach entries) (failure'.attach entries') := by
  unfold Failure.attach
  refine (hfailure.entries.addAll h).bind fun context context' hcontext => ?_
  exact .ok ⟨hfailure.kind, hfailure.message, hcontext⟩

theorem Alike.raw {entries entries' : List Entry} (h : Context.Alike .exposed entries entries')
    (kind : Kind) (message : String) :
    Agree Alike (raw kind message entries) (raw kind message entries') := by
  unfold Failure.raw
  refine (Context.Alike.addAll .nil h).bind fun context context' hcontext => ?_
  exact .ok ⟨rfl, rfl, hcontext⟩

theorem Alike.raise {entries entries' : List Entry} (h : Context.Alike .exposed entries entries')
    (site site' : CallSite) (kind : Kind) (message : String) :
    Agree Alike (raise site kind message entries) (raise site' kind message entries') := by
  unfold Failure.raise
  refine (Alike.raw h kind message).bind fun failure failure' hfailure => ?_
  exact hfailure.attach (.cons .stack (.cons .trail .nil))

theorem Alike.top {failure failure' : Failure} (h : failure.Alike failure') :
    failure.source.top.Alike failure'.source.top :=
  .ours h.kind h.message h.entries

/-- A step takes failures that are alike to failures that are alike. -/
theorem Alike.apply {failure failure' : Failure} (h : failure.Alike failure') {step step' : Step}
    (hstep : step.Alike step') : Agree Alike (step.apply failure) (step'.apply failure') := by
  cases hstep with
  | wrap hentries => exact Alike.wrap h.top hentries _ _ _ _
  | rewrap =>
    have hmessage : failure.source.top.text = failure'.source.top.text := h.message
    rw [Step.apply, Step.apply, rewrap, rewrap, hmessage]
    exact Alike.wrap h.top .nil _ _ _ _
  | attach hentries => exact h.attach hentries
  | reclassify => exact .ok ⟨rfl, h.message, h.entries⟩

theorem Alike.run {failure failure' : Failure} (h : failure.Alike failure') {steps steps' : List Step}
    (hsteps : List.Forall₂ Step.Alike steps steps') :
    Agree Alike (failure.run steps) (failure'.run steps') := by
  induction hsteps generalizing failure failure' with
  | nil => exact .ok h
  | cons hstep _ ih => exact (h.apply hstep).bind fun _ _ hnext => ih hnext

theorem Alike.encode_eq {failure failure' : Failure} (h : failure.Alike failure') :
    Report.encode failure = Report.encode failure' := by
  have hdetails : failure.details = failure'.details := by
    rw [details, details, h.entries.publicValues_eq]
  rw [Report.encode, Report.encode, h.kind, h.message, hdetails]

theorem Alike.forResponse_eq {failure failure' : Failure} (h : failure.Alike failure') :
    Report.forResponse failure = Report.forResponse failure' := by
  rw [Report.forResponse, Report.forResponse, isA, isA, h.kind, h.encode_eq]

end Failure

theorem Run.Alike.start {origin origin' : Origin} (h : origin.Alike origin') :
    Agree Failure.Alike origin.start origin'.start := by
  cases h with
  | raw h => exact Failure.Alike.raw h _ _
  | raise h => exact Failure.Alike.raise h _ _ _ _
  | wrap top h => exact Failure.Alike.wrap top h _ _ _ _
  | existing h => exact .ok h

theorem Run.Alike.result {run run' : Run} (h : run.Alike run') :
    Agree Failure.Alike run.result run'.result :=
  (start h.origin).bind fun _ _ hfailure => hfailure.run h.steps

/-- **Nothing restricted shows outside.** Two runs that differ only in what their entries hide, in
where they happen and in what caused the failure they begin with either fail both, or both end with
failures that send the same report, the one for a response included. -/
theorem Run.Alike.reports_eq {run run' : Run} (h : run.Alike run') :
    (∃ clash, run.result = .error clash ∧ run'.result = .error clash) ∨
      ∃ failure failure', run.result = .ok failure ∧ run'.result = .ok failure' ∧
        Report.encode failure = Report.encode failure' ∧
        Report.forResponse failure = Report.forResponse failure' := by
  have hagree := h.result
  cases hrun : run.result <;> cases hrun' : run'.result <;> rw [hrun, hrun'] at hagree <;>
    cases hagree
  · exact .inl ⟨_, rfl, rfl⟩
  · next hfailure => exact .inr ⟨_, _, rfl, rfl, hfailure.encode_eq, hfailure.forResponse_eq⟩

/-- A lookup that failed for some `cause`. What it asked for stays inside: as a restricted field, and
in a restricted dict that is merged into an exposed one. -/
def Run.lookup (cause query : String) : Run where
  origin := .wrap ⟨⟨"users", 12⟩, ⟨[], []⟩⟩ (some .notFoundError) (.leaf cause) "no such user"
    [.restrictedField "query" (.str query), .dict "user" .exposed false [.exposedField "id" (.int 7)]]
  steps := [.attach [.dict "user" .restricted false [.exposedField "query" (.str query)]]]

theorem Run.lookup_reports_eq :
    ∃ failure failure', (lookup "timeout" "id = 7").result = .ok failure ∧
      (lookup "no rows" "name = x").result = .ok failure' ∧
      Report.encode failure = Report.encode failure' ∧
      Report.forResponse failure = Report.forResponse failure' := by
  have halike : (lookup "timeout" "id = 7").Alike (lookup "no rows" "name = x") := by
    refine ⟨.wrap .foreign ?_, .cons (.attach ?_) .nil⟩
    · refine .cons (.field ?_) (.cons (.dict (.cons (.field fun _ => rfl) .nil)) .nil)
      intro h
      cases h
    · refine .cons (.dict (.cons (.field ?_) .nil)) .nil
      intro h
      cases h
  rcases halike.reports_eq with ⟨clash, hclash, _⟩ | h
  · cases hclash
  · exact h

end Faults
