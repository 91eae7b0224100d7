import Faults.Proofs.Provenance
import Faults.Proofs.Runs
import Faults.Proofs.Views
import Faults.Wire.Report

/-!
# Received details give way

A report from another process decides which entries a decoded failure begins with. It can neither make
a later step fail nor take the place of what the process itself attaches: steps that succeed on a
failure without entries succeed on the decoded one, and leave the same leaves there.

The two runs drift apart, since received entries stay around, are replaced, or become dicts with
children of both sorts. What ties them is `Entry.Tracks`: at every path, where the lone run has an
entry the other has one of the same variant and the same value, and where it has none the other has at
most a received one. Main statements:

* `Entry.WF.follows`: an arrival on the one side can be made on the other, and they stay tied;
* `Report.decodeWith_remote`: every report is decoded, to received entries only;
* `Report.decoded_gives_way`: what follows for runs on a decoded failure.
-/

namespace Faults

open Entry (Arrives Meets)

/-! ## One place on top of another -/

namespace Entry

/-- What stands at one path: the right side has what the left side has, or else at most something
received. -/
inductive Over : Option Entry → Option Entry → Prop where
  | nothing : Over none none
  | received {onto : Entry} (h : onto.isReceived = true) : Over none (some onto)
  | both {alone onto : Entry} (variant : onto.variant = alone.variant)
      (logValue : alone.variant ≠ .dict → onto.logValue = alone.logValue)
      (received : alone.isReceived = true → onto.isReceived = true) :
    Over (some alone) (some onto)

/-- The right side is over the left one at every path below. -/
def Tracks (alone onto : Option Entry) : Prop :=
  ∀ path, Over (beneath alone path) (beneath onto path)

theorem Over.refl (place : Option Entry) : Over place place := by
  cases place with
  | none => exact .nothing
  | some entry => exact .both rfl (fun _ => rfl) id

theorem Over.of_some {alone onto : Entry} (h : Over (some alone) (some onto)) :
    onto.variant = alone.variant ∧ (alone.variant ≠ .dict → onto.logValue = alone.logValue) ∧
      (alone.isReceived = true → onto.isReceived = true) := by
  cases h with
  | both variant logValue received => exact ⟨variant, logValue, received⟩

theorem Tracks.refl (place : Option Entry) : Tracks place place := fun _ => .refl _

theorem tracks_some_iff {alone onto : Entry} :
    Tracks (some alone) (some onto) ↔ Over (some alone) (some onto) ∧
      ∀ key, Tracks (alone.children.get? key) (onto.children.get? key) := by
  refine ⟨fun h => ⟨h [], fun key path => h (key :: path)⟩, fun ⟨hself, hchildren⟩ path => ?_⟩
  cases path with
  | nil => exact hself
  | cons key path => exact hchildren key path

theorem Tracks.child_of_none {onto : Entry} (h : Tracks none (some onto)) (key : String) :
    Tracks none (onto.children.get? key) := fun path => h (key :: path)

theorem Tracks.isReceived {onto : Entry} (h : Tracks none (some onto)) : onto.isReceived = true := by
  cases h [] with
  | received h => exact h

/-- An entry is tied to itself, whatever its visibilities. -/
theorem Tracks.capped (entry : Entry) (outer outer' : Visibility) :
    Tracks (some (entry.capped outer)) (some (entry.capped outer')) := by
  refine tracks_some_iff.2 ⟨.both ?_ (fun _ => ?_) ?_, fun key => ?_⟩
  · rw [variant_capped, variant_capped]
  · rw [logValue_capped, logValue_capped]
  · rw [isReceived_capped, isReceived_capped]
    exact id
  · rw [children_capped, children_capped]
    exact .refl _

theorem Arrives.unique {outer : Visibility} {place : Option Entry} {incoming result result' : Entry}
    (h : Arrives outer place incoming result) (h' : Arrives outer place incoming result') :
    result = result' := by
  have heq := (arrive_eq_ok_iff.2 h).symm.trans (arrive_eq_ok_iff.2 h')
  exact Except.ok.inj heq

end Entry

/-- Wherever the entry can arrive on the left side it can arrive on the right side, and the two sides
stay tied. -/
def Entry.Follows (incoming : Entry) : Prop :=
  ∀ (outer outer' : Visibility) (alone onto : Option Entry) (result : Entry), Tracks alone onto →
    Arrives outer alone incoming result →
    ∃ result', Arrives outer' onto incoming result' ∧ Tracks (some result) (some result')

open Entry (Tracks)

/-- Merging children key by key: when every child follows, what happens at each key on the left side
happens on the right side. -/
theorem Context.tracks_absorb {outer outer' : Visibility} {present children : Context}
    {before after : String → Option Entry} (hkeys : children.keys.Nodup)
    (hfollows : ∀ child ∈ children, child.Follows)
    (htracks : ∀ key, Tracks (before key) (present.get? key))
    (hmeets : ∀ key, Meets outer (before key) (children.get? key) (after key)) :
    ∃ merged, present.absorb outer' children = .ok merged ∧
      ∀ key, Tracks (after key) (merged.get? key) := by
  -- the keys are distinct, so no child meets what another one has left
  have hchild : ∀ child ∈ children, ∃ result result', after child.key = some result ∧
      Arrives outer' (present.get? child.key) child result' ∧
      Tracks (some result) (some result') := by
    intro child hmem
    have hmeet := hmeets child.key
    rw [get?_of_mem hkeys hmem] at hmeet
    generalize hafter : after child.key = result? at hmeet
    cases hmeet with
    | @arrives _ result h =>
      obtain ⟨result', harrives, hresult⟩ := hfollows child hmem _ _ _ _ _ (htracks child.key) h
      exact ⟨result, result', rfl, harrives, hresult⟩
  obtain ⟨merged, hmerged⟩ : ∃ merged, present.absorb outer' children = .ok merged := by
    refine absorb_ok hkeys fun child hmem => ?_
    obtain ⟨_, result', _, harrives, _⟩ := hchild child hmem
    exact ⟨result', harrives⟩
  refine ⟨merged, hmerged, fun key => ?_⟩
  have hmeets' := meets_absorb hkeys hmerged key
  cases hget : children.get? key with
  | none =>
    have hmeet := hmeets key
    rw [hget] at hmeet hmeets'
    generalize after key = after? at hmeet ⊢
    generalize merged.get? key = merged? at hmeets' ⊢
    cases hmeet
    cases hmeets'
    exact htracks key
  | some child =>
    obtain rfl := key_of_get? hget
    obtain ⟨result, result', hafter, harrives, hresult⟩ := hchild child (mem_of_get? hget)
    rw [hget] at hmeets'
    generalize merged.get? child.key = merged? at hmeets' ⊢
    cases hmeets' with
    | arrives h =>
      rw [hafter, h.unique harrives]
      exact hresult

namespace Entry

variable {incoming result : Entry}

/-- An entry that is new on the left side replaces a received one on the right side, or is merged into
it. -/
theorem Tracks.arrives_received {present : Entry} (h : Tracks none (some present))
    (hkeys : incoming.children.keys.Nodup) (hfollows : ∀ child ∈ incoming.children, child.Follows)
    (outer outer' : Visibility) :
    ∃ result', Arrives outer' (some present) incoming result' ∧
      Tracks (some (incoming.capped outer)) (some result') := by
  have hreceived := h.isReceived
  by_cases hv : present.variant = incoming.variant
  -- only fields and dicts can be received
  · cases present <;> cases incoming <;> simp only [variant, reduceCtorEq] at hv
    · exact ⟨_, .field, .capped _ _ _⟩
    · cases hreceived
    · cases hreceived
    · obtain ⟨merged, hmerged, hchildren⟩ := Context.tracks_absorb hkeys hfollows h.child_of_none
        fun key => Meets.fresh _
      refine ⟨_, .dict hmerged, tracks_some_iff.2 ⟨.both rfl ?_ fun _ => hreceived, hchildren⟩⟩
      exact fun hdict => absurd rfl hdict
  · exact ⟨_, .replaced hv (.inl hreceived), .capped _ _ _⟩

/-- An entry that meets one on the left side meets one of the same variant on the right side. -/
theorem Tracks.arrives_both {outer : Visibility} {current present : Entry}
    (h : Tracks (some current) (some present)) (hkeys : incoming.children.keys.Nodup)
    (hfollows : ∀ child ∈ incoming.children, child.Follows)
    (harrives : Arrives outer (some current) incoming result) (outer' : Visibility) :
    ∃ result', Arrives outer' (some present) incoming result' ∧
      Tracks (some result) (some result') := by
  obtain ⟨hself, hchildren⟩ := tracks_some_iff.1 h
  obtain ⟨hvariant, hlog, hreceived⟩ := hself.of_some
  cases harrives with
  | replaced hv hr =>
    -- whatever was received on the left side is flagged on the right side too
    rw [← hvariant] at hv
    exact ⟨_, .replaced hv (hr.imp_left hreceived), .capped _ _ _⟩
  | @field _ _ _ _ k v s r =>
    cases present <;> simp only [variant, reduceCtorEq] at hvariant
    exact ⟨_, .field, .capped (.field k v s r) outer outer'⟩
  | stack =>
    cases present <;> simp only [variant, reduceCtorEq] at hvariant
    exact ⟨_, .stack, h⟩
  | trail =>
    cases present <;> simp only [variant, reduceCtorEq] at hvariant
    have hhops := hlog Variant.noConfusion
    rw [logValue, logValue] at hhops
    refine ⟨_, .trail, tracks_some_iff.2 ⟨.both rfl (fun _ => ?_) hreceived, hchildren⟩⟩
    rw [logValue, logValue, List.map_append, List.map_append, Json.arr.inj hhops]
  | dict habsorb =>
    cases present <;> simp only [variant, reduceCtorEq] at hvariant
    obtain ⟨merged, hmerged, hchildren⟩ := Context.tracks_absorb hkeys hfollows hchildren
      (Context.meets_absorb hkeys habsorb)
    refine ⟨_, .dict hmerged, tracks_some_iff.2 ⟨.both rfl ?_ hreceived, hchildren⟩⟩
    exact fun hdict => absurd rfl hdict

/-- What can arrive on the left side can arrive on the right side, and they stay tied. -/
theorem WF.follows (h : incoming.WF) : incoming.Follows := by
  induction incoming with
  | step incoming ih =>
    intro outer outer' alone onto result htracks harrives
    have hkeys := h.children.keys
    have hfollows : ∀ child ∈ incoming.children, child.Follows :=
      fun child hmem => ih child hmem (h.children.entries child hmem)
    cases onto with
    | none =>
      cases alone with
      | none =>
        cases harrives
        exact ⟨_, .fresh, .capped _ _ _⟩
      | some current => cases htracks []
    | some present =>
      cases alone with
      | none =>
        cases harrives
        exact htracks.arrives_received hkeys hfollows outer outer'
      | some current => exact htracks.arrives_both hkeys hfollows harrives outer'

end Entry

/-! ## Contexts -/

/-- The contexts of two runs are tied at every key, and so at every path. -/
def Context.Tracks (alone onto : Context) : Prop :=
  ∀ key, Entry.Tracks (alone.get? key) (onto.get? key)

namespace Context

/-- What can be merged on the left side can be merged on the right side, and they stay tied. -/
theorem Tracks.addAll {alone onto final : Context} {entries : List Entry} (h : alone.Tracks onto)
    (hwf : ∀ entry ∈ entries, entry.WF) (hok : alone.addAll entries = .ok final) :
    ∃ final', onto.addAll entries = .ok final' ∧ final.Tracks final' := by
  rw [addAll_eq_absorb] at hok ⊢
  induction entries generalizing alone onto with
  | nil =>
    cases hok
    exact ⟨onto, rfl, h⟩
  | cons incoming rest ih =>
    obtain ⟨hincoming, hrest⟩ := List.forall_mem_cons.1 hwf
    obtain ⟨result, harrives, hok⟩ := absorb_cons_ok.1 hok
    obtain ⟨result', harrives', hresult⟩ :=
      hincoming.follows _ .exposed _ _ _ (h incoming.key) harrives
    have hkey : result.key = incoming.key := harrives.key_eq fun _ => key_of_get?
    have hkey' : result'.key = incoming.key := harrives'.key_eq fun _ => key_of_get?
    have htracks : (alone.put result).Tracks (onto.put result') := by
      intro key
      rw [get?_put, get?_put, hkey, hkey']
      split
      · exact hresult
      · exact h key
    obtain ⟨final', hok', hfinal⟩ := ih htracks hrest hok
    exact ⟨final', absorb_cons_ok.2 ⟨result', harrives', hok'⟩, hfinal⟩

/-- Whatever was received is over an empty context. -/
theorem tracks_of_remote {context : Context} (h : ∀ entry ∈ context, entry.Remote) :
    Context.Tracks [] context := by
  intro key path
  change Entry.Over none (context.at? (key :: path))
  cases hat : context.at? (key :: path) with
  | none => exact .nothing
  | some node => exact .received (uniform_at? h hat).isReceived

/-- Received entries never clash. -/
theorem absorb_remote {context : Context} {entries : List Entry}
    (hcontext : ∀ entry ∈ context, entry.Remote) (hentries : ∀ entry ∈ entries, entry.Remote) :
    ∃ final, context.absorb .exposed entries = .ok final := by
  induction entries generalizing context with
  | nil => exact ⟨context, rfl⟩
  | cons incoming rest ih =>
    obtain ⟨hincoming, hrest⟩ := List.forall_mem_cons.1 hentries
    have htracks : Entry.Tracks none (context.get? incoming.key) :=
      tracks_of_remote hcontext incoming.key
    have hfresh : Arrives .exposed none incoming (incoming.capped .exposed) := .fresh
    obtain ⟨result, harrives, -⟩ := hincoming.wf.follows _ .exposed _ _ _ htracks hfresh
    obtain ⟨final, hfinal⟩ := ih (uniform_put hcontext hincoming harrives) hrest
    exact ⟨final, absorb_cons_ok.2 ⟨result, harrives, hfinal⟩⟩

theorem ofList_remote {entries : List Entry} (h : ∀ entry ∈ entries, entry.Remote) :
    ∃ context, ofList entries = .ok context ∧ context.keys.Nodup ∧
      ∀ entry ∈ context, entry.Remote := by
  have hnil : ∀ entry ∈ ([] : Context), entry.Remote := fun _ h => by cases h
  obtain ⟨context, hok⟩ := absorb_remote hnil h
  rw [← addAll_eq_absorb] at hok
  exact ⟨context, hok, uniform_ofList h hok⟩

end Context

/-! ## Decoding -/

namespace Report

mutual

theorem restore_remote (key : String) :
    (value : Json) → ∃ entry, restore key value = .ok entry ∧ entry.Remote
  | .obj members => by
    obtain ⟨entries, hentries, hremote⟩ := restoreAll_remote members
    obtain ⟨context, hcontext, hkeys, hremote⟩ := Context.ofList_remote hremote
    refine ⟨.dict key .exposed true context, ?_, .of_children rfl hkeys hremote⟩
    rw [restore]
    exact bind_ok.2 ⟨entries, hentries, map_ok.2 ⟨context, hcontext, rfl⟩⟩
  | .null | .bool _ | .int _ | .real _ | .str _ | .arr _ =>
    ⟨_, rfl, .of_leaf rfl rfl⟩

theorem restoreAll_remote : (members : List (String × Json)) →
    ∃ entries, restoreAll members = .ok entries ∧ ∀ entry ∈ entries, entry.Remote
  | [] => ⟨[], rfl, fun _ h => by cases h⟩
  | (key, value) :: rest => by
    obtain ⟨entry, hentry, hremote⟩ := restore_remote key value
    obtain ⟨entries, hentries, hremotes⟩ := restoreAll_remote rest
    refine ⟨entry :: entries, ?_, List.forall_mem_cons.2 ⟨hremote, hremotes⟩⟩
    rw [restoreAll]
    exact bind_ok.2 ⟨entry, hentry, map_ok.2 ⟨entries, hentries, rfl⟩⟩

end

/-- Every report is decoded, to received entries only. -/
theorem decodeWith_remote (registry : Registry) (report : Report) :
    ∃ failure events, decodeWith registry report = .ok (failure, events) ∧
      failure.entries.keys.Nodup ∧ ∀ entry ∈ failure.entries, entry.Remote := by
  obtain ⟨entries, hentries, hremote⟩ := restoreAll_remote (report.details.getD [])
  obtain ⟨context, hcontext, hkeys, hremote⟩ := Context.ofList_remote hremote
  obtain ⟨failure, hraw, rfl⟩ : ∃ failure : Failure,
      Failure.raw (resolve registry report.kind).1 report.message entries = .ok failure ∧
        context = failure.entries := ⟨_, map_ok.2 ⟨context, hcontext, rfl⟩, rfl⟩
  refine ⟨failure, (resolve registry report.kind).2, ?_, hkeys, hremote⟩
  rw [decodeWith]
  exact bind_ok.2 ⟨entries, hentries, map_ok.2 ⟨failure, hraw, rfl⟩⟩

end Report

/-! ## Runs on a decoded failure -/

theorem Context.Tracks.over {alone onto : Context} (h : alone.Tracks onto) (path : List String) :
    Entry.Over (alone.at? path) (onto.at? path) := by
  cases path with
  | nil => exact .nothing
  | cons key path => exact h key path

/-- A leaf on the left side stands on the right side, and there the logs show the same value. -/
theorem Context.Tracks.leaf {alone onto : Context} (h : alone.Tracks onto) (hwf : onto.WF)
    {path : List String} {node : Entry} (hat : alone.at? path = some node)
    (hleaf : node.variant ≠ .dict) :
    (∃ node', onto.at? path = some node' ∧ node'.variant = node.variant ∧
      node'.logValue = node.logValue) ∧
    (Json.obj onto.logValues).at? path = some node.logValue := by
  have hover := h.over path
  rw [hat] at hover
  cases hat' : onto.at? path with
  | none =>
    rw [hat'] at hover
    cases hover
  | some node' =>
    rw [hat'] at hover
    obtain ⟨hvariant, hlog, -⟩ := hover.of_some
    replace hlog := hlog hleaf
    refine ⟨⟨node', rfl, hvariant, hlog⟩, ?_⟩
    rw [logValues_at? hwf hat', hlog]

/-- **Received details give way.** Every report is decoded, and what steps do to a failure without
entries they do to the decoded one: when they succeed there they succeed here, and each field, stack
and trail that stands at some path there stands at that path here, with the same value in the logs. -/
theorem Report.decoded_gives_way (registry : Registry) (report : Report) :
    ∃ failure events, decodeWith registry report = .ok (failure, events) ∧
      ∀ (steps : List Step) (bare alone : Failure),
        (∀ step ∈ steps, ∀ entry ∈ step.passed, entry.WF) → bare.entries = [] →
        bare.run steps = .ok alone →
        ∃ onto, failure.run steps = .ok onto ∧
          ∀ path node, alone.entries.at? path = some node → node.variant ≠ .dict →
            (∃ node', onto.entries.at? path = some node' ∧ node'.variant = node.variant ∧
              node'.logValue = node.logValue) ∧
            (Json.obj onto.entries.logValues).at? path = some node.logValue := by
  obtain ⟨failure, events, hdecode, hkeys, hremote⟩ := decodeWith_remote registry report
  refine ⟨failure, events, hdecode, fun steps bare alone hpassed hbare hrun => ?_⟩
  have hgiven : ∀ entry ∈ steps.flatMap Step.given, entry.WF :=
    Step.forall_given_all (fun _ => Entry.wf_of_leaf rfl) steps hpassed
  have hstart : bare.entries.Tracks failure.entries := by
    rw [hbare]
    exact Context.tracks_of_remote hremote
  have halone := Failure.run_ok_iff.1 ⟨alone, hrun, rfl⟩
  obtain ⟨context, hcontext, htracks⟩ := hstart.addAll hgiven halone
  obtain ⟨onto, honto, rfl⟩ := Failure.run_ok_iff.2 hcontext
  have hwf : onto.entries.WF :=
    Context.WF.addAll ⟨hkeys, fun entry hmem => (hremote entry hmem).wf⟩ hgiven hcontext
  exact ⟨onto, honto, fun path node => htracks.leaf hwf⟩

/-- A report that uses the keys of the process for something else. -/
def Report.hostile : Report where
  message := "not yours"
  kind := "NotFoundError"
  details := some [("reverse_trace", .obj [("a", .null)]), ("user", .str "b")]

/-- A scope attached while wrapping; the step adds its hop by itself. -/
def Step.scoped : Step :=
  .wrap ⟨⟨"users", 12⟩, ⟨[], []⟩⟩ none "no such user"
    [.dict "user" .restricted false [.exposedField "id" (.int 7)]]

theorem Report.hostile_gives_way :
    ∃ failure events onto, decodeWith .empty hostile = .ok (failure, events) ∧
      failure.run [.scoped, .scoped] = .ok onto ∧
      (Json.obj onto.entries.logValues).at? ["user", "id"] = some (.int 7) := by
  obtain ⟨failure, events, hdecode, h⟩ := decoded_gives_way .empty hostile
  have hpassed : ∀ step ∈ [Step.scoped, .scoped], ∀ entry ∈ step.passed, entry.WF := by
    have hfield : Context.WF [.exposedField "id" (.int 7)] :=
      ⟨List.pairwise_singleton _ _, List.forall_mem_singleton.2 (Entry.wf_of_leaf rfl)⟩
    have hscoped : ∀ entry ∈ Step.scoped.passed, entry.WF :=
      List.forall_mem_singleton.2 (Entry.wf_of_children hfield)
    exact List.forall_mem_cons.2 ⟨hscoped, List.forall_mem_singleton.2 hscoped⟩
  let bare : Failure := { kind := .unknownError, message := "", entries := [], below := [] }
  obtain ⟨onto, honto, hpaths⟩ := h _ bare _ hpassed rfl rfl
  refine ⟨failure, events, onto, hdecode, honto, ?_⟩
  exact (hpaths ["user", "id"] (.field "id" (.int 7) .restricted false) rfl (by decide)).2

end Faults
