import Faults.Proofs.Layers
import Faults.Proofs.Traces

/-!
# What raising and wrapping need, and what wrapping keeps

Raising a failure merges a stack and a trail behind the entries that are passed, and so does wrapping
something foreign; wrapping a failure merges a trail. These diagnostics arrive under keys like any
other, so they clash with a field or a dict that the process has put there. Nothing else can go wrong:
`Failure.construction_ok_iff`.

Wrapping looks at the outermost link only, where a classification walks down the chain to the first
layer. On a chain that begins with something foreign the two disagree, and wrapping starts anew, under
the unknown kind and from an empty context: `Source.keptBy_iff`.
-/

namespace Faults

open Entry (Arrives stackKey trailKey)

/-! ## Which diagnostics can arrive -/

/-- Anything but a dict can arrive exactly where nothing stands, or something of its variant, or where
one of the two was received. A dict may still fail further down. -/
theorem Entry.exists_arrives_iff {outer : Visibility} {place : Option Entry} {incoming : Entry}
    (hleaf : incoming.variant ≠ .dict) :
    (∃ result, Arrives outer place incoming result) ↔
      ∀ current, place = some current → current.variant = incoming.variant ∨
        current.isReceived = true ∨ incoming.isReceived = true := by
  constructor
  · rintro ⟨result, h⟩ current rfl
    cases h with
    | replaced hvariant hreceived => exact .inr hreceived
    | field | stack | trail => exact .inl rfl
    | dict => exact absurd rfl hleaf
  · intro h
    cases place with
    | none => exact ⟨_, .fresh⟩
    | some current =>
      by_cases hvariant : current.variant = incoming.variant
      · cases current <;> cases incoming <;> simp only [variant, reduceCtorEq] at hvariant
        · exact ⟨_, .field⟩
        · exact ⟨_, .stack⟩
        · exact ⟨_, .trail⟩
        · exact absurd rfl hleaf
      · exact ⟨_, .replaced hvariant ((h current rfl).resolve_left hvariant)⟩

namespace Context

/-- What stands under the key, if anything does, is of the variant or was received. -/
def RoomFor (context : Context) (key : String) (variant : Variant) : Prop :=
  ∀ current, context.get? key = some current →
    current.variant = variant ∨ current.isReceived = true

theorem exists_addAll_trail_iff {context : Context} {hops : List String} :
    (∃ final, context.addAll [.trail hops] = .ok final) ↔ context.RoomFor trailKey .trail := by
  have hkeys : (keys [.trail hops]).Nodup := List.pairwise_singleton _ _
  rw [addAll_eq_absorb, absorb_ok_iff hkeys, List.forall_mem_singleton,
    Entry.exists_arrives_iff Variant.noConfusion]
  simp only [Entry.isReceived, Bool.false_eq_true, or_false]
  exact Iff.rfl

theorem exists_addAll_stack_trail_iff {context : Context} {frames : List Frame}
    {hops : List String} :
    (∃ final, context.addAll [.stack frames, .trail hops] = .ok final) ↔
      context.RoomFor stackKey .stack ∧ context.RoomFor trailKey .trail := by
  have hkeys : (keys [.stack frames, .trail hops]).Nodup := by
    change [stackKey, trailKey].Nodup
    decide
  rw [addAll_eq_absorb, absorb_ok_iff hkeys, List.forall_mem_cons, List.forall_mem_singleton,
    Entry.exists_arrives_iff Variant.noConfusion, Entry.exists_arrives_iff Variant.noConfusion]
  simp only [Entry.isReceived, Bool.false_eq_true, or_false]
  exact Iff.rfl

end Context

/-! ## Which entries leave room -/

/-- What the process has made itself keeps its variant, whatever of its own arrives there. -/
theorem Entry.Arrives.variant_eq {outer : Visibility} {place : Option Entry} {incoming result : Entry}
    (h : Arrives outer place incoming result)
    (hplace : ∀ current, place = some current → current.isReceived = false)
    (hincoming : incoming.isReceived = false) :
    result.variant = incoming.variant ∧ result.isReceived = false ∧
      ∀ current, place = some current → current.variant = incoming.variant := by
  cases h with
  | fresh =>
    refine ⟨variant_capped .., ?_, fun _ h => by cases h⟩
    rwa [isReceived_capped]
  | replaced hvariant hreceived =>
    rw [hplace _ rfl, hincoming] at hreceived
    simp at hreceived
  | field => exact ⟨rfl, hincoming, fun _ h => by cases h; rfl⟩
  | stack => exact ⟨rfl, rfl, fun _ h => by cases h; rfl⟩
  | trail => exact ⟨rfl, rfl, fun _ h => by cases h; rfl⟩
  | @dict k s r present =>
    have hreceived : r = false := hplace (.dict k s r present) rfl
    exact ⟨rfl, hreceived, fun _ h => by cases h; rfl⟩

namespace Context

/-- The variant of what stands under a key. -/
def variantAt (context : Context) (key : String) : Option Variant :=
  (context.get? key).map Entry.variant

variable {context final : Context} {entries : List Entry}

theorem variantAt_put {entry result : Entry}
    (hcontext : ∀ current ∈ context, current.isReceived = false)
    (hentry : entry.isReceived = false)
    (harrives : Arrives .exposed (context.get? entry.key) entry result) (key : String)
    (variant : Variant) :
    (context.put result).variantAt key = some variant ↔
      context.variantAt key = some variant ∨ entry.key = key ∧ entry.variant = variant := by
  obtain ⟨hvariant, -, hplace⟩ :=
    harrives.variant_eq (fun _ hget => hcontext _ (mem_of_get? hget)) hentry
  rw [variantAt, variantAt, get?_put, harrives.key_eq fun _ => key_of_get?]
  by_cases hkey : entry.key = key
  · subst hkey
    rw [if_pos rfl, Option.map_some, Option.some_inj, hvariant, and_iff_right rfl]
    -- what stood there has the variant of what arrives
    refine ⟨.inr, fun h => h.elim (fun hsome => ?_) id⟩
    obtain ⟨current, hcurrent, rfl⟩ := Option.map_eq_some_iff.1 hsome
    exact (hplace current hcurrent).symm
  · simp only [hkey, if_false, false_and, or_false]

theorem local_addAll (hcontext : ∀ current ∈ context, current.isReceived = false)
    (hentries : ∀ entry ∈ entries, entry.isReceived = false)
    (hok : context.addAll entries = .ok final) : ∀ current ∈ final, current.isReceived = false := by
  rw [addAll_eq_absorb] at hok
  refine absorb_induct (motive := fun now => ∀ current ∈ now, current.isReceived = false) hok
    hcontext ?_
  intro now entry result hmem hnow harrives current hcurrent
  rcases mem_put hcurrent with rfl | hcurrent
  · exact (harrives.variant_eq (fun _ hget => hnow _ (mem_of_get? hget)) (hentries entry hmem)).2.1
  · exact hnow current hcurrent

/-- Every entry that the process makes itself leaves its variant under its key, for good. -/
theorem variantAt_addAll (hcontext : ∀ current ∈ context, current.isReceived = false)
    (hentries : ∀ entry ∈ entries, entry.isReceived = false)
    (hok : context.addAll entries = .ok final) (key : String) (variant : Variant) :
    final.variantAt key = some variant ↔ context.variantAt key = some variant ∨
      ∃ entry ∈ entries, entry.key = key ∧ entry.variant = variant := by
  induction entries generalizing context with
  | nil =>
    cases hok
    simp
  | cons entry rest ih =>
    obtain ⟨hentry, hrest⟩ := List.forall_mem_cons.1 hentries
    obtain ⟨next, hnext, hok⟩ := bind_ok.1 hok
    have hlocal : ∀ current ∈ next, current.isReceived = false :=
      local_addAll hcontext (List.forall_mem_singleton.2 hentry) (add_eq_addAll context entry ▸ hnext)
    rw [add_eq_addAll, addAll_eq_absorb] at hnext
    obtain ⟨result, harrives, hput⟩ := absorb_cons_ok.1 hnext
    cases hput
    rw [ih hlocal hrest hok, variantAt_put hcontext hentry harrives]
    simp only [List.mem_cons, exists_eq_or_imp, or_assoc]

theorem roomFor_iff_variantAt (h : ∀ current ∈ context, current.isReceived = false) {key : String}
    {variant : Variant} :
    context.RoomFor key variant ↔ ∀ other, context.variantAt key = some other → other = variant := by
  constructor
  · intro hroom other hother
    obtain ⟨current, hcurrent, rfl⟩ := Option.map_eq_some_iff.1 hother
    refine (hroom current hcurrent).resolve_right ?_
    rw [h current (mem_of_get? hcurrent)]
    exact Bool.false_ne_true
  · intro hvariant current hcurrent
    exact .inl (hvariant _ (Option.map_eq_some_iff.2 ⟨current, hcurrent, rfl⟩))

/-- Entries of the process itself leave room for a variant when no other one is among them under the
key. -/
theorem roomFor_ofList_iff (hentries : ∀ entry ∈ entries, entry.isReceived = false)
    (hok : ofList entries = .ok context) {key : String} {variant : Variant} :
    context.RoomFor key variant ↔ ∀ entry ∈ entries, entry.key = key → entry.variant = variant := by
  have hnone : ∀ current ∈ ([] : Context), current.isReceived = false := fun _ h => by cases h
  have hnothing : ∀ other, variantAt [] key ≠ some other := fun _ h => by cases h
  rw [roomFor_iff_variantAt (local_addAll hnone hentries hok)]
  simp only [variantAt_addAll hnone hentries hok, hnothing, false_or]
  exact ⟨fun h entry hmem hkey => h _ ⟨entry, hmem, hkey, rfl⟩,
    fun h _ ⟨entry, hmem, hkey, hvariant⟩ => hvariant ▸ h entry hmem hkey⟩

end Context

/-- Stacks and trails have keys of their own, so only fields and dicts can take them. -/
theorem Entry.apart_iff {entry : Entry} :
    entry.Apart ↔ (entry.key = stackKey → entry.variant = .stack) ∧
      (entry.key = trailKey → entry.variant = .trail) := by
  have hkeys : stackKey ≠ trailKey := by decide
  cases entry with
  | stack | trail => simp [Apart, key, variant, hkeys, hkeys.symm]
  | field | dict => simp [Apart, key, variant]

/-! ## When construction succeeds -/

namespace Failure

variable {site : CallSite} {kind : Kind} {kind? : Option Kind} {source : Source} {message : String}
  {entries : List Entry} {context : Context}

theorem raise_ok_iff (hok : Context.ofList entries = .ok context) :
    (∃ failure, raise site kind message entries = .ok failure) ↔
      context.RoomFor stackKey .stack ∧ context.RoomFor trailKey .trail := by
  rw [← exists_map_ok, entries_raise, Context.addAll_append, ← Context.ofList, hok]
  exact Context.exists_addAll_stack_trail_iff

theorem wrap_ok_iff (hok : (inheritedEntries source.top).addAll entries = .ok context) :
    (∃ failure, wrap site kind? source message entries = .ok failure) ↔
      ∃ final, context.addAll (diagnostics site source.top) = .ok final := by
  rw [← exists_map_ok, entries_wrap, Context.addAll_append, hok]
  rfl

theorem wrap_foreign_ok_iff {text : String} (htop : source.top = .foreign text)
    (hok : Context.ofList entries = .ok context) :
    (∃ failure, wrap site kind? source message entries = .ok failure) ↔
      context.RoomFor stackKey .stack ∧ context.RoomFor trailKey .trail := by
  have hbase : (inheritedEntries source.top).addAll entries = .ok context := by
    rw [htop]
    exact hok
  rw [wrap_ok_iff hbase, htop]
  exact Context.exists_addAll_stack_trail_iff

theorem wrap_ours_ok_iff {layer : Layer} (htop : source.top = .ours layer)
    (hok : layer.entries.addAll entries = .ok context) :
    (∃ failure, wrap site kind? source message entries = .ok failure) ↔
      context.RoomFor trailKey .trail := by
  have hbase : (inheritedEntries source.top).addAll entries = .ok context := by
    rw [htop]
    exact hok
  rw [wrap_ok_iff hbase, htop]
  exact Context.exists_addAll_trail_iff

/-- **When construction succeeds.** Entries that can be merged by themselves can be given to a failure
that is raised, or to one that wraps something foreign, exactly when no field and no dict among them
takes the key of stacks or of trails. Wrapping a failure only needs room for the trail, in what its own
entries and the given ones come to. -/
theorem construction_ok_iff (site : CallSite) (message : String) (entries : List Entry) :
    ((∀ entry ∈ entries, entry.isReceived = false) →
      (∃ context, Context.ofList entries = .ok context) →
      (∀ kind, (∃ failure, raise site kind message entries = .ok failure) ↔
        ∀ entry ∈ entries, entry.Apart) ∧
      ∀ kind? source, source.failure? = none →
        ((∃ failure, wrap site kind? source message entries = .ok failure) ↔
          ∀ entry ∈ entries, entry.Apart)) ∧
    ∀ kind? (inner : Failure) context, inner.entries.addAll entries = .ok context →
      ((∃ failure, wrap site kind? inner.source message entries = .ok failure) ↔
        context.RoomFor trailKey .trail) := by
  refine ⟨fun hentries ⟨context, hok⟩ => ?_, fun kind? inner context hok => wrap_ours_ok_iff rfl hok⟩
  have hroom : context.RoomFor stackKey .stack ∧ context.RoomFor trailKey .trail ↔
      ∀ entry ∈ entries, entry.Apart := by
    rw [Context.roomFor_ofList_iff hentries hok, Context.roomFor_ofList_iff hentries hok]
    simp only [Entry.apart_iff, forall_and]
  refine ⟨fun kind => (raise_ok_iff hok).trans hroom, fun kind? source hforeign => ?_⟩
  cases htop : source.top with
  | ours layer => simp [Source.failure?, htop, Link.layer?] at hforeign
  | foreign text => exact (wrap_foreign_ok_iff htop hok).trans hroom

/-- A caller passes a stack and a hop of its own and keeps other keys for its fields; on the way up
the failure meets a hop that was received as a text. -/
theorem upload_construction_ok :
    let site : CallSite := ⟨⟨"upload", 8⟩, ⟨[[⟨some "store", none, none⟩]], []⟩⟩
    let entries : List Entry := [.exposedField "hint" (.int 1), .stack [], .trail ["[remote:1] send"]]
    let inner : Failure := ⟨⟨.systemError, "refused", [.field trailKey (.str "sent") .exposed true]⟩, []⟩
    (∃ failure, raise site .userError "not stored" entries = .ok failure) ∧
      (∃ failure, wrap site none (.leaf "disk full") "not stored" entries = .ok failure) ∧
      ∃ failure, wrap site none inner.source "not stored" entries = .ok failure := by
  intro site entries inner
  have hlocal : ∀ entry ∈ entries, entry.isReceived = false := by
    simp [entries, Entry.isReceived, Entry.exposedField]
  have hapart : ∀ entry ∈ entries, entry.Apart := by
    simp [entries, Entry.apart_iff, Entry.exposedField, Entry.key, Entry.variant, stackKey, trailKey]
  obtain ⟨hplain, hwrap⟩ := construction_ok_iff site "not stored" entries
  obtain ⟨hraise, hforeign⟩ := hplain hlocal ⟨_, rfl⟩
  refine ⟨(hraise _).2 hapart, (hforeign none (.leaf "disk full") rfl).2 hapart, ?_⟩
  refine (hwrap none inner _ rfl).2 fun current hcurrent => ?_
  cases hcurrent
  exact .inl rfl

/-- Entries that clash with nothing among themselves clash with the diagnostics. -/
theorem takenKeys_clash :
    let site : CallSite := ⟨⟨"upload", 8⟩, ⟨[], []⟩⟩
    let stack : Entry := .exposedField stackKey (.str "top")
    let trail : Entry := .exposedField trailKey (.str "back")
    Context.ofList [stack, trail] = .ok [stack, trail] ∧
      raise site .userError "not stored" [stack] = .error ⟨.stack, stackKey, .field, stackKey⟩ ∧
      wrap site none (.leaf "disk full") "not stored" [trail] =
        .error ⟨.trail, trailKey, .field, trailKey⟩ ∧
      wrap site (some .userError) (.mk (.ours ⟨.systemError, "refused", [trail]⟩) []) "not stored" [] =
        .error ⟨.trail, trailKey, .field, trailKey⟩ :=
  ⟨rfl, rfl, rfl, rfl⟩

end Failure

/-! ## What wrapping keeps -/

theorem Context.mem_keys_addAll {context final : Context} {entries : List Entry}
    (hok : context.addAll entries = .ok final) {key : String} :
    key ∈ final.keys ↔ key ∈ context.keys ∨ key ∈ keys entries := by
  rw [addAll_eq_absorb] at hok
  induction entries generalizing context with
  | nil =>
    cases hok
    simp [keys]
  | cons entry rest ih =>
    obtain ⟨result, harrives, hok⟩ := absorb_cons_ok.1 hok
    rw [ih hok, mem_keys_put, harrives.key_eq fun _ => key_of_get?]
    simp only [keys, List.map_cons, List.mem_cons]
    exact or_assoc.trans or_left_comm

theorem Failure.mem_keys_wrap {site : CallSite} {kind? : Option Kind} {source : Source}
    {message : String} {entries : List Entry} {failure : Failure}
    (hok : wrap site kind? source message entries = .ok failure) (key : String) :
    key ∈ failure.entries.keys ↔ key ∈ (inheritedEntries source.top).keys ∨
      key ∈ Context.keys entries ∨ key ∈ Context.keys (diagnostics site source.top) := by
  have hentries := entries_wrap site kind? source message entries
  rw [hok] at hentries
  rw [Context.mem_keys_addAll hentries.symm, Context.keys, Context.keys, List.map_append,
    List.mem_append]
  rfl

namespace Source

theorem isKind_of_classify {source : Source} {failure : Failure}
    (h : source.classify = some failure) (kind : Kind) :
    source.isKind kind = failure.isA kind := by
  rw [isKind, findKind, h, Option.filter_some]
  cases failure.isA kind <;> rfl

theorem classify_of_failure {source : Source} {failure : Failure}
    (h : source.failure? = some failure) : source.classify = some failure := by
  obtain ⟨top, below⟩ := source
  cases top with
  | ours layer => exact h
  | foreign text => cases h

/-- What wraps the source has the kind that the source is classified under, falls under the same
kinds, and has every key of the failure that the classification finds. -/
structure KeptBy (source : Source) (inner result : Failure) : Prop where
  kind : result.kind = inner.kind
  kinds : ∀ kind, source.isKind kind = true → result.source.isKind kind = true
  keys : ∀ key ∈ inner.entries.keys, key ∈ result.entries.keys

/-- **What wrapping keeps of a classified chain.** Everything, when the chain begins with the failure
that the classification finds. When something foreign stands around that failure, its kind is kept only
if it is the unknown one, and its keys only as far as they are given again. -/
theorem keptBy_iff {site : CallSite} {source : Source} {message : String} {entries : List Entry}
    {inner result : Failure} (hinner : source.classify = some inner)
    (hok : Failure.wrap site none source message entries = .ok result) :
    source.KeptBy inner result ↔
      source.failure? = some inner ∨
        inner.kind = .unknownError ∧
          ∀ key ∈ inner.entries.keys, key ∈ Context.keys entries ∨ key = stackKey ∨ key = trailKey := by
  have hkind := (Failure.wrap_ok hok).1
  have hkinds : result.kind = inner.kind → ∀ kind, source.isKind kind = true →
      result.source.isKind kind = true := by
    intro heq kind
    rw [isKind_of_classify hinner, isKind_of_classify (classify_of_failure rfl), Failure.isA,
      Failure.isA, heq]
    exact id
  have hkeys := Failure.mem_keys_wrap hok
  obtain ⟨top, below⟩ := source
  cases top with
  | ours layer =>
    -- the classification stops at the outermost link, which is the one that wrapping looks at
    cases hinner
    exact iff_of_true ⟨hkind, hkinds hkind, fun key hkey => (hkeys key).2 (.inl hkey)⟩ (.inl rfl)
  | foreign text =>
    have hunknown : result.kind = .unknownError := hkind
    have hnone : (⟨.foreign text, below⟩ : Source).failure? ≠ some inner := fun h => by cases h
    have hgiven : ∀ key, key ∈ result.entries.keys ↔
        key ∈ Context.keys entries ∨ key = stackKey ∨ key = trailKey := by
      intro key
      have hdiagnostics : Context.keys (Failure.diagnostics site (.foreign text)) =
          [stackKey, trailKey] := rfl
      rw [hkeys, hdiagnostics]
      simp [Failure.inheritedEntries, Context.keys]
    rw [or_iff_right hnone]
    constructor
    · intro h
      exact ⟨h.kind.symm.trans hunknown, fun key hkey => (hgiven key).1 (h.keys key hkey)⟩
    · rintro ⟨hinnerKind, hagain⟩
      have heq : result.kind = inner.kind := hunknown.trans hinnerKind.symm
      exact ⟨heq, hkinds heq, fun key hkey => (hgiven key).2 (hagain key hkey)⟩

/-- Something of unknown kind that comes back in a foreign wrapper keeps what it is given again. -/
theorem retried_keptBy :
    let inner : Failure := ⟨⟨.unknownError, "no answer", [.exposedField "attempt" (.int 1),
      .stack [], .trail ["[send:2] call"]]⟩, []⟩
    let source := wrapper "retries used up" inner.source
    source.classify = some inner ∧
      ∃ result, Failure.wrap ⟨⟨"queue", 5⟩, ⟨[], []⟩⟩ none source "not sent"
        [.exposedField "attempt" (.int 3)] = .ok result ∧ source.KeptBy inner result := by
  intro inner source
  obtain ⟨result, hresult⟩ : ∃ result, Failure.wrap ⟨⟨"queue", 5⟩, ⟨[], []⟩⟩ none source "not sent"
    [.exposedField "attempt" (.int 3)] = .ok result := ⟨_, rfl⟩
  have hagain : ∀ key ∈ inner.entries.keys, key ∈ Context.keys [.exposedField "attempt" (.int 3)] ∨
      key = stackKey ∨ key = trailKey := by decide
  exact ⟨rfl, result, hresult, (keptBy_iff rfl hresult).2 (.inr ⟨rfl, hagain⟩)⟩

/-- A missing user in a foreign wrapper is nothing known to whoever wraps it again. -/
theorem missingUser_not_keptBy :
    let missing : Failure := ⟨⟨.notFoundError, "no such user", [.exposedField "id" (.int 7)]⟩, []⟩
    let source := wrapper "request failed" missing.source
    source.classify = some missing ∧ source.isKind .notFoundError = true ∧
      ∃ result, Failure.wrap ⟨⟨"login", 40⟩, ⟨[], []⟩⟩ none source "not logged in" [] = .ok result ∧
        result.kind = .unknownError ∧ result.source.isKind .notFoundError = false ∧
        "id" ∉ result.entries.keys ∧ ¬ source.KeptBy missing result := by
  intro missing source
  refine ⟨rfl, by decide, _, rfl, rfl, by decide, by decide, fun h => ?_⟩
  exact absurd h.kind (by decide)

end Source

end Faults
