import Faults.Proofs.Startup
import Faults.Proofs.Tags

/-!
# The life of a catalog

The catalog of a process is called from everywhere: parts of it register kinds, others read. Many of
the reads do not look like one, decoding a report among them. `Call` lists them all, `Catalog.history`
is a sequence of calls in a fresh process, and `Catalog.lifecycle` says how every one of them goes: the
first read fixes a registry, and whatever is called later finds this registry and changes nothing.

The phase and the published registry change in separate steps; `Query.perform_eq` and `history_frozen`
are where they are shown to agree.
-/

namespace Faults.Catalog

open Registry (withBuiltins)

/-! ## Calls -/

/-- A read. -/
inductive Query where
  /-- Nothing is asked, the catalog is only frozen. -/
  | freeze
  | registry
  | findByCode (code : String)
  | findByName (name : String)
  | getByCode (code : String)
  | getByName (name : String)
  | decode (report : Report)

inductive Call where
  | register (kinds : List Kind)
  | read (query : Query)

inductive Answer where
  | done
  | registered (violation? : Option Violation)
  | registry (registry : Registry)
  | found (kind? : Option Kind)
  | got (kind : Except Violation Kind)
  | decoded (failure : Except Clash Failure)

namespace Query

/-- The catalog after the query, the answer, and what is reported. -/
def perform (catalog : Catalog) : Query → Catalog × Answer × List Event
  | freeze => catalog.ask fun _ => .done
  | registry => catalog.ask .registry
  | findByCode code =>
    let (next, kind?, events) := catalog.findByCode code
    (next, .found kind?, events)
  | findByName name =>
    let (next, kind?, events) := catalog.findByName name
    (next, .found kind?, events)
  | getByCode code =>
    let (next, kind, events) := catalog.getByCode code
    (next, .got kind, events)
  | getByName name =>
    let (next, kind, events) := catalog.getByName name
    (next, .got kind, events)
  | decode report =>
    match report.decode catalog with
    | (next, .ok (failure, events)) => (next, .decoded (.ok failure), events)
    | (next, .error clash) => (next, .decoded (.error clash), [])

/-- The answer of a plain registry. -/
def answer (plain : Registry) : Query → Answer
  | freeze => .done
  | registry => .registry plain
  | findByCode code => .found (plain.findByCode code)
  | findByName name => .found (plain.findByName name)
  | getByCode code => .got <|
    match plain.findByCode code with
    | some kind => .ok kind
    | none => .error (.unknownCode code)
  | getByName name => .got <|
    match plain.findByName name with
    | some kind => .ok kind
    | none => .error (.unknownName name)
  | decode report => .decoded ((report.decodeWith plain).map Prod.fst)

/-- What is reported by the query itself, apart from the freeze. -/
def reports (plain : Registry) : Query → List Event
  | decode report => (Report.resolve plain report.kind).2
  | _ => []

/-- Every query freezes the catalog and answers from the registry that the read finds. -/
theorem perform_eq (catalog : Catalog) (query : Query) :
    query.perform catalog =
      (catalog.freeze, query.answer catalog.read.1,
        catalog.read.2 ++ query.reports catalog.read.1) := by
  cases query with
  | decode report =>
    obtain ⟨failure, hdecode, -⟩ := Report.decodeWith_ok catalog.read.1 report
    simp only [perform, Report.decode, answer, reports, hdecode]
    rfl
  -- the freeze is all that is reported by any other query
  | _ => exact Prod.ext rfl (Prod.ext rfl (List.append_nil _).symm)

end Query

namespace Call

/-- The catalog after the call, the answer, and what is reported. -/
def perform (catalog : Catalog) : Call → Catalog × Answer × List Event
  | register kinds =>
    let (next, violation?) := catalog.register kinds
    (next, .registered violation?, [])
  | read query => query.perform catalog

/-- How a call goes once the registry is fixed. -/
def late (plain : Registry) : Call → Answer × List Event
  | register _ => (.registered (some .catalogFrozen), [])
  | read query => (query.answer plain, query.reports plain)

theorem perform_frozen (plain : Registry) (call : Call) :
    call.perform (frozen plain) = (frozen plain, call.late plain) := by
  cases call with
  | register kinds => rfl
  | read query => rw [perform, Query.perform_eq]; rfl

end Call

/-! ## Sequences of calls -/

/-- The calls one after the other: the catalog at the end, and for each call its answer and what is
reported. -/
def history (catalog : Catalog) (calls : List Call) : Catalog × List (Answer × List Event) :=
  mapAccum Call.perform catalog calls

theorem history_registers (catalog : Catalog) (lists : List (List Kind)) :
    catalog.history (lists.map .register) =
      ((catalog.registerAll lists).1,
        (catalog.registerAll lists).2.map fun violation? => (.registered violation?, [])) := by
  induction lists generalizing catalog with
  | nil => rfl
  | cons kinds lists ih =>
    have hrest := ih (catalog.register kinds).1
    simp only [history, registerAll] at hrest ⊢
    simp only [List.map_cons, mapAccum, Call.perform, hrest]

theorem history_frozen (plain : Registry) (calls : List Call) :
    (frozen plain).history calls = (frozen plain, calls.map (Call.late plain)) := by
  have hstays : ∀ call ∈ calls, (call.perform (frozen plain)).1 = frozen plain := by
    intro call _
    rw [Call.perform_frozen]
  rw [history, mapAccum_of_stays _ hstays]
  simp only [Call.perform_frozen]

/-- A sequence of calls is all registrations, or has a first read. -/
theorem registers_or_reads (calls : List Call) :
    (∃ lists : List (List Kind), calls = lists.map .register) ∨
      ∃ (before : List (List Kind)) (first : Query) (after : List Call),
        calls = before.map .register ++ .read first :: after := by
  induction calls with
  | nil => exact .inl ⟨[], rfl⟩
  | cons call calls ih =>
    cases call with
    | read query => exact .inr ⟨[], query, calls, rfl⟩
    | register kinds =>
      rcases ih with ⟨lists, rfl⟩ | ⟨before, first, after, rfl⟩
      · exact .inl ⟨kinds :: lists, rfl⟩
      · exact .inr ⟨kinds :: before, first, after, rfl⟩

/-- Whatever was registered before, the first read publishes it. -/
theorem history_first (before : List (List Kind)) (first : Query) (after : List Call) :
    unseeded.history (before.map .register ++ .read first :: after) =
      let plain := (unseeded.registerAll before).1.read.1
      (frozen plain,
        (unseeded.registerAll before).2.map (fun violation? => (.registered violation?, [])) ++
          (first.answer plain, frozenEvent plain :: first.reports plain) ::
            after.map (Call.late plain)) := by
  obtain ⟨⟨phase, hphase, -⟩, -⟩ := registerAll_unseeded before
  have hregisters := history_registers unseeded before
  have hafter := history_frozen phase.registry after
  have hfirst : Call.perform ⟨phase, none⟩ (.read first) =
      (frozen phase.registry, first.answer phase.registry,
        frozenEvent phase.registry :: first.reports phase.registry) :=
    first.perform_eq _
  rw [history] at hregisters hafter ⊢
  rw [mapAccum_append, hregisters, hphase]
  simp only [mapAccum, hfirst, hafter]
  rfl

/-! ## The freeze is reported once -/

/-- The event tells of a freeze. -/
def announces (event : Event) : Bool := event.message == "kind registry frozen"

theorem announces_frozenEvent (plain : Registry) : announces (frozenEvent plain) = true := rfl

theorem Query.filter_reports (plain : Registry) (query : Query) :
    (query.reports plain).filter announces = [] := by
  cases query with
  | decode report =>
    simp only [reports, Report.resolve]
    cases Report.knownKind? plain report.kind with
    | some kind => rfl
    | none =>
      rw [List.filter_cons_of_neg, List.filter_nil]
      exact Bool.false_ne_true
  | _ => rfl

theorem Call.filter_late (plain : Registry) (calls : List Call) :
    ((calls.map (late plain)).flatMap Prod.snd).filter announces = [] := by
  induction calls with
  | nil => rfl
  | cons call calls ih =>
    rw [List.map_cons, List.flatMap_cons, List.filter_append, ih, List.append_nil]
    cases call with
    | register kinds => rfl
    | read query => exact query.filter_reports plain

/-! ## What the first read fixes -/

/-- How the calls of a process go in which `first` is the first read. -/
structure Fixes (before : List (List Kind)) (first : Query) (after : List Call) (plain : Registry)
    (outcome : Catalog × List (Answer × List Event)) : Prop where
  /-- The registry is fixed, whatever is called later. -/
  catalog : outcome.1 = frozen plain
  /-- Registrations report nothing, the first read reports the freeze, and later calls find the
  registry that it has fixed: registrations fail, and reads answer from it. -/
  answers : outcome.2 =
    (unseeded.registerAll before).2.map (fun violation? => (.registered violation?, [])) ++
      (first.answer plain,
        ⟨.debug, "kind registry frozen", [("kinds", .int plain.kinds.length)]⟩ ::
          first.reports plain) ::
      after.map (Call.late plain)
  /-- The freeze is reported once, with the number of the kinds that are fixed. -/
  once : (outcome.2.flatMap Prod.snd).filter announces =
    [⟨.debug, "kind registry frozen", [("kinds", .int plain.kinds.length)]⟩]
  codes : (plain.kinds.map Kind.code).Nodup
  names : (plain.kinds.map Kind.name).Nodup
  byCode : ∀ code kind, plain.findByCode code = some kind ↔ kind ∈ plain.kinds ∧ kind.code = code
  byName : ∀ name kind, plain.findByName name = some kind ↔ kind ∈ plain.kinds ∧ kind.name = name
  /-- The standard kinds stand first, and behind them, in the order of the calls, stands all that was
  registered without a violation. -/
  kinds : ∃ added, plain.kinds =
      [.error, .userError, .systemError, .unknownError, .externalUnknownError,
        .invalidRequestError, .notFoundError, .validationError, .authError, .forbiddenError,
        .databaseTransactionError, .databaseRecordNotFoundError, .contextError,
        .contextValueNotFoundError] ++ added ∧
    (Registry.registered before (unseeded.registerAll before).2).flatten.Sublist added

theorem fixes_first (before : List (List Kind)) (first : Query) (after : List Call) :
    Fixes before first after (unseeded.registerAll before).1.read.1
      (unseeded.history (before.map .register ++ .read first :: after)) := by
  obtain ⟨hwf, added, hkinds, hsub⟩ := wf_withBuiltins.registerAll (before.dropWhile failsFirst)
  rw [← read_registerAll] at hwf hkinds
  rw [← registered_registerAll] at hsub
  rw [history_first]
  refine ⟨rfl, rfl, ?_, hwf.code.nodup, hwf.name.nodup,
    fun code kind => hwf.findByCode_eq_some_iff, fun name kind => hwf.findByName_eq_some_iff,
    added, hkinds, hsub⟩
  -- registrations report nothing, and no read after the first tells of the freeze
  rw [List.flatMap_append, List.flatMap_map, List.flatMap_eq_nil_iff.2 fun _ _ => rfl,
    List.nil_append, List.flatMap_cons, List.filter_append, Call.filter_late, List.append_nil,
    List.filter_cons_of_pos (announces_frozenEvent _), Query.filter_reports]
  rfl

/-- **The first read fixes the registry.** A process without a read has published nothing and reported
nothing. In any other process the first read, whichever it is, fixes a registry, which all calls after
it find and none of them changes. -/
theorem lifecycle (calls : List Call) :
    (∃ lists : List (List Kind), calls = lists.map .register ∧
      (unseeded.history calls).1.published = none ∧
      ∀ answer ∈ (unseeded.history calls).2, answer.2 = []) ∨
    ∃ (before : List (List Kind)) (first : Query) (after : List Call) (plain : Registry),
      calls = before.map .register ++ .read first :: after ∧
      Fixes before first after plain (unseeded.history calls) := by
  rcases registers_or_reads calls with ⟨lists, rfl⟩ | ⟨before, first, after, rfl⟩
  · refine .inl ⟨lists, rfl, ?_, ?_⟩
    · obtain ⟨⟨phase, hphase, -⟩, -⟩ := registerAll_unseeded lists
      rw [history_registers, hphase]
    · intro answer hanswer
      rw [history_registers] at hanswer
      obtain ⟨violation?, -, rfl⟩ := List.mem_map.1 hanswer
      rfl
  · exact .inr ⟨before, first, after, _, rfl, fixes_first before first after⟩

end Faults.Catalog
