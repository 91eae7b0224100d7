import Faults.Proofs.Reception

/-!
# When a merge clashes

Two entries clash when they are of different variants and neither of them was received. A merge
meets many pairs of entries, one at each path that both sides have, so it fails exactly when there is
a path at which two entries clash. Visibilities, values and the flags of the dicts further up have no
part in that. Main statements:

* `Entry.WF.exists_arrives_iff`: an entry can arrive exactly where it fits, at every path;
* `Entry.Constructible.wf`: what a program can construct is well-formed;
* `Entry.insert_clashes_iff`: when merging an entry into another one fails, and merging contexts.
-/

namespace Faults

open Entry (Arrives)

namespace Entry

/-! ## What fits -/

/-- The two are of different variants, and neither was received. -/
def Clashes (present incoming : Entry) : Prop :=
  present.variant ≠ incoming.variant ∧ present.isReceived = false ∧ incoming.isReceived = false

/-- The entry clashes at no path with what stands there. -/
def Fits (place : Option Entry) (incoming : Entry) : Prop :=
  ∀ path present arriving, beneath place path = some present → incoming.at? path = some arriving →
    ¬ present.Clashes arriving

theorem fits_none (incoming : Entry) : Fits none incoming := fun _ _ _ h => by cases h

theorem fits_some_iff {current incoming : Entry} :
    Fits (some current) incoming ↔ ¬ current.Clashes incoming ∧
      ∀ key child, incoming.children.get? key = some child →
        Fits (current.children.get? key) child := by
  constructor
  · refine fun h => ⟨h [] current incoming rfl rfl, fun key child hchild path => ?_⟩
    intro present arriving hpresent harriving
    refine h (key :: path) present arriving hpresent ?_
    rw [at?, hchild]
    exact harriving
  · rintro ⟨hself, hchildren⟩ path present arriving hpresent harriving
    cases path with
    | nil =>
      cases hpresent
      cases harriving
      exact hself
    | cons key path =>
      obtain ⟨child, hchild, harriving⟩ := Option.bind_eq_some_iff.1 harriving
      exact hchildren key child hchild path present arriving hpresent harriving

theorem children_of_variant_ne {entry : Entry} (h : entry.variant ≠ .dict) : entry.children = [] := by
  cases entry with
  | dict => exact absurd rfl h
  | _ => rfl

/-- Of two entries of different variants the incoming one takes the place, if one of them was
received. -/
theorem exists_arrives_iff_of_ne {outer : Visibility} {current incoming : Entry}
    (h : current.variant ≠ incoming.variant) :
    (∃ result, Arrives outer (some current) incoming result) ↔
      current.isReceived = true ∨ incoming.isReceived = true := by
  constructor
  · rintro ⟨result, harrives⟩
    cases harrives with
    | replaced _ hreceived => exact hreceived
    | _ => exact absurd rfl h
  · exact fun hreceived => ⟨_, .replaced h hreceived⟩

theorem not_clashes_iff_of_ne {current incoming : Entry} (h : current.variant ≠ incoming.variant) :
    ¬ current.Clashes incoming ↔ current.isReceived = true ∨ incoming.isReceived = true := by
  rw [Clashes, and_iff_right h, not_and_or, Bool.not_eq_false, Bool.not_eq_false]

theorem Arrives.of_dict {outer : Visibility} {k k' : String} {s s' : Visibility} {r r' : Bool}
    {present children : Context} {result : Entry}
    (h : Arrives outer (some (.dict k s r present)) (.dict k' s' r' children) result) :
    ∃ merged, present.absorb (outer.under s') children = .ok merged ∧
      result = .dict k s r merged := by
  cases h with
  | replaced hvariant => exact absurd rfl hvariant
  | dict hmerged => exact ⟨_, hmerged, rfl⟩

theorem exists_arrives_dict_iff {outer : Visibility} {k k' : String} {s s' : Visibility}
    {r r' : Bool} {present children : Context} :
    (∃ result, Arrives outer (some (.dict k s r present)) (.dict k' s' r' children) result) ↔
      ∃ merged, present.absorb (outer.under s') children = .ok merged := by
  constructor
  · rintro ⟨result, harrives⟩
    obtain ⟨merged, hmerged, -⟩ := harrives.of_dict
    exact ⟨merged, hmerged⟩
  · exact fun ⟨merged, hmerged⟩ => ⟨_, .dict hmerged⟩

/-- An entry can arrive exactly where it fits. -/
theorem WF.exists_arrives_iff {incoming : Entry} (h : incoming.WF) {outer : Visibility}
    {place : Option Entry} :
    (∃ result, Arrives outer place incoming result) ↔ Fits place incoming := by
  induction incoming generalizing outer place with
  | step incoming ih =>
    cases place with
    | none => exact iff_of_true ⟨_, .fresh⟩ (fits_none _)
    | some current =>
      rw [fits_some_iff]
      by_cases hvariant : current.variant = incoming.variant
      · have hself : ¬ current.Clashes incoming := fun hclash => hclash.1 hvariant
        rw [and_iff_right hself]
        cases current <;> cases incoming <;> simp only [variant, reduceCtorEq] at hvariant
        · exact iff_of_true ⟨_, .field⟩ fun _ _ hchild => by cases hchild
        · exact iff_of_true ⟨_, .stack⟩ fun _ _ hchild => by cases hchild
        · exact iff_of_true ⟨_, .trail⟩ fun _ _ hchild => by cases hchild
        · next k s r present k' s' r' children =>
          -- each child arrives at its own key
          have hkeys : (Context.keys children).Nodup := h.children.keys
          rw [exists_arrives_dict_iff, Context.absorb_ok_iff hkeys]
          constructor
          · intro harrives key child hchild
            have hmem := Context.mem_of_get? hchild
            obtain rfl := Context.key_of_get? hchild
            exact (ih child hmem (h.children.entries child hmem)).1 (harrives child hmem)
          · intro hfits child hmem
            exact (ih child hmem (h.children.entries child hmem)).2
              (hfits child.key child (Context.get?_of_mem hkeys hmem))
      · rw [exists_arrives_iff_of_ne hvariant, not_clashes_iff_of_ne hvariant]
        refine (and_iff_left fun key child hchild => ?_).symm
        -- one of the two is no dict, so no path leads further on both sides
        have hleaf : current.variant ≠ .dict := by
          rw [← variant_of_child hchild]
          exact hvariant
        rw [children_of_variant_ne hleaf]
        exact fits_none child

end Entry

namespace Context

/-- With distinct keys, what can be merged is what fits at every key. -/
theorem exists_addAll_iff {context entries : Context} (h : entries.WF) :
    (∃ final, context.addAll entries = .ok final) ↔
      ∀ incoming ∈ entries, Entry.Fits (context.get? incoming.key) incoming := by
  rw [addAll_eq_absorb, absorb_ok_iff h.keys]
  exact forall₂_congr fun incoming hmem => (h.entries incoming hmem).exists_arrives_iff

end Context

/-! ## What a program can construct -/

namespace Entry

/-- The entries that a program can get hold of: made on the spot, put together from others, merged,
or found in a dict or in a decoded failure. -/
inductive Constructible : Entry → Prop where
  | field (key : String) (value : Json) (visibility : Visibility) :
    Constructible (.field key value visibility false)
  | stack (frames : List Frame) : Constructible (.stack frames)
  | trail (hops : List String) : Constructible (.trail hops)
  | scope {key : String} {visibility : Visibility} {entries : List Entry} {entry : Entry}
      (entries_constructible : ∀ part ∈ entries, Constructible part)
      (result : scope key visibility entries = .ok entry) : Constructible entry
  | withVisibility {entry : Entry} (h : Constructible entry) (visibility : Visibility) :
    Constructible (entry.withVisibility visibility)
  | addChild {entry child result : Entry} (h : Constructible entry) (hchild : Constructible child)
      (ok : entry.addChild child = .ok result) : Constructible result
  | insert {current incoming result : Entry} (hcurrent : Constructible current)
      (hincoming : Constructible incoming) (ok : current.insert incoming = .ok result) :
    Constructible result
  | child {entry child : Entry} (h : Constructible entry) (mem : child ∈ entry.children) :
    Constructible child
  | decoded {registry : Registry} {report : Report} {failure : Failure} {events : List Event}
      {entry : Entry} (ok : Report.decodeWith registry report = .ok (failure, events))
      (mem : entry ∈ failure.entries) : Constructible entry

theorem Constructible.wf {entry : Entry} (h : entry.Constructible) : entry.WF := by
  induction h with
  | field | stack | trail => exact wf_of_leaf rfl
  | scope _ result ih =>
    obtain ⟨context, hcontext, rfl⟩ := map_ok.1 result
    exact wf_of_children (Context.WF.nil.addAll ih hcontext)
  | @withVisibility entry _ visibility ih =>
    cases entry with
    | dict => exact wf_of_children ih.children
    | _ => exact wf_of_leaf rfl
  | @addChild entry child result _ _ ok ih ihChild =>
    cases entry with
    | dict =>
      obtain ⟨context, hcontext, rfl⟩ := map_ok.1 ok
      rw [Context.add_eq_addAll] at hcontext
      exact wf_of_children (ih.children.addAll (List.forall_mem_singleton.2 ihChild) hcontext)
    | _ =>
      cases ok
      exact ih
  | @insert current incoming result _ _ ok ih ihIncoming =>
    have harrives : Arrives .exposed (some current) incoming result := arrive_eq_ok_iff.1 ok
    exact harrives.wf (fun _ h => by cases h; exact ih) ihIncoming
  | child _ mem ih => exact ih.children.entries _ mem
  | @decoded registry report failure events entry ok mem =>
    obtain ⟨_, _, hdecode, -, hremote⟩ := Report.decodeWith_remote registry report
    rw [ok] at hdecode
    cases hdecode
    exact (hremote entry mem).wf

end Entry

/-- The contexts that a program can put together. -/
def Context.Constructible (context : Context) : Prop :=
  ∃ entries, (∀ entry ∈ entries, entry.Constructible) ∧ ofList entries = .ok context

theorem Context.Constructible.wf {context : Context} (h : context.Constructible) : context.WF := by
  obtain ⟨entries, hentries, hok⟩ := h
  exact WF.nil.addAll (fun entry hmem => (hentries entry hmem).wf) hok

/-! ## When a merge fails -/

namespace Entry

/-- At the path both sides have an entry, and these two clash. The path leads through dicts on both
sides. -/
structure ClashesAt (current incoming : Entry) (path : List String) : Prop where
  clash : ∃ present arriving, current.at? path = some present ∧ incoming.at? path = some arriving ∧
    present.Clashes arriving
  dicts : ∀ front, front <+: path → front ≠ path →
    (current.at? front).map variant = some .dict ∧ (incoming.at? front).map variant = some .dict

/-- A path leads on from dicts only. -/
theorem variant_at?_of_front {entry node : Entry} {path front : List String}
    (hat : entry.at? path = some node) (hfront : front <+: path) (hne : front ≠ path) :
    (entry.at? front).map variant = some .dict := by
  obtain ⟨rest, rfl⟩ := hfront
  cases rest with
  | nil => exact absurd (List.append_nil front).symm hne
  | cons key rest =>
    rw [at?_append] at hat
    obtain ⟨inner, hinner, hat⟩ := Option.bind_eq_some_iff.1 hat
    obtain ⟨child, hchild, -⟩ := Option.bind_eq_some_iff.1 hat
    rw [hinner, Option.map_some, variant_of_child hchild]

theorem exists_clashesAt_iff {current incoming : Entry} :
    (∃ path, current.ClashesAt incoming path) ↔ ¬ Fits (some current) incoming := by
  constructor
  · rintro ⟨path, ⟨present, arriving, hpresent, harriving, hclash⟩, -⟩ hfits
    exact hfits path present arriving hpresent harriving hclash
  · intro hfits
    simp only [Fits, not_forall, not_not] at hfits
    obtain ⟨path, present, arriving, hpresent, harriving, hclash⟩ := hfits
    exact ⟨path, ⟨present, arriving, hpresent, harriving, hclash⟩, fun front hfront hne =>
      ⟨variant_at?_of_front hpresent hfront hne, variant_at?_of_front harriving hfront hne⟩⟩

theorem exists_insert_error_iff {current incoming : Entry} (h : incoming.WF) :
    (∃ clash, current.insert incoming = .error clash) ↔
      ∃ path, current.ClashesAt incoming path := by
  have harrives : (∃ result, Arrives .exposed (some current) incoming result) ↔
      Fits (some current) incoming := h.exists_arrives_iff
  rw [exists_error_iff, exists_clashesAt_iff, ← harrives]
  refine not_congr (exists_congr fun result => ?_)
  rw [← arrive_eq_ok_iff, arrive, insert]

/-- The other two entries have the same variants at the path as these two and, where those differ,
the same flags. -/
structure AlikeAt (current incoming current' incoming' : Entry) (path : List String) : Prop where
  left : (current'.at? path).map variant = (current.at? path).map variant
  right : (incoming'.at? path).map variant = (incoming.at? path).map variant
  received : (current.at? path).map variant ≠ (incoming.at? path).map variant →
    (current'.at? path).map isReceived = (current.at? path).map isReceived ∧
      (incoming'.at? path).map isReceived = (incoming.at? path).map isReceived

variable {current incoming current' incoming' : Entry}

theorem AlikeAt.symm {path : List String} (h : AlikeAt current incoming current' incoming' path) :
    AlikeAt current' incoming' current incoming path := by
  refine ⟨h.left.symm, h.right.symm, fun hne => ?_⟩
  rw [h.left, h.right] at hne
  obtain ⟨hleft, hright⟩ := h.received hne
  exact ⟨hleft.symm, hright.symm⟩

theorem Fits.of_alike (hfits : Fits (some current) incoming)
    (h : ∀ path, AlikeAt current incoming current' incoming' path) :
    Fits (some current') incoming' := by
  intro path present' arriving' hpresent' harriving' ⟨hvariant, hpresentFlag, harrivingFlag⟩
  have hpresent'At : current'.at? path = some present' := hpresent'
  obtain ⟨hleft, hright, hreceived⟩ := h path
  rw [hpresent'At, Option.map_some] at hleft hreceived
  rw [harriving', Option.map_some] at hright hreceived
  obtain ⟨present, hpresent, hpresentVariant⟩ := Option.map_eq_some_iff.1 hleft.symm
  obtain ⟨arriving, harriving, harrivingVariant⟩ := Option.map_eq_some_iff.1 hright.symm
  have hne : present.variant ≠ arriving.variant := by
    rwa [hpresentVariant, harrivingVariant]
  rw [hpresent, harriving] at hreceived
  simp only [Option.map_some] at hreceived
  obtain ⟨hpresentSame, harrivingSame⟩ := hreceived (fun heq => hne (Option.some.inj heq))
  exact hfits path present arriving hpresent harriving ⟨hne,
    (Option.some.inj hpresentSame).symm.trans hpresentFlag,
    (Option.some.inj harrivingSame).symm.trans harrivingFlag⟩

end Entry

theorem Context.exists_addAll_error_iff {context entries : Context} (h : entries.WF) :
    (∃ clash, context.addAll entries = .error clash) ↔
      ∃ key current incoming path, context.get? key = some current ∧
        entries.get? key = some incoming ∧ current.ClashesAt incoming path := by
  rw [exists_error_iff, exists_addAll_iff h]
  constructor
  · intro hnot
    simp only [not_forall] at hnot
    obtain ⟨incoming, hmem, hnot⟩ := hnot
    cases hcurrent : context.get? incoming.key with
    | none =>
      rw [hcurrent] at hnot
      exact absurd (Entry.fits_none incoming) hnot
    | some current =>
      rw [hcurrent] at hnot
      obtain ⟨path, hclash⟩ := Entry.exists_clashesAt_iff.2 hnot
      exact ⟨incoming.key, current, incoming, path, hcurrent, get?_of_mem h.keys hmem, hclash⟩
  · rintro ⟨key, current, incoming, path, hcurrent, hincoming, hclash⟩ hfits
    obtain rfl := key_of_get? hincoming
    have hfit := hfits incoming (mem_of_get? hincoming)
    rw [hcurrent] at hfit
    exact Entry.exists_clashesAt_iff.1 ⟨path, hclash⟩ hfit

/-- **When a merge fails.** Merging an entry into another one fails exactly when there is a path, the
empty one included, at which both have an entry and these two clash. Whatever else is changed in the
two, values, visibilities and the flags of the dicts above, changes nothing in that. And merging
contexts fails exactly when this is so for the two entries of a common key. -/
theorem Entry.insert_clashes_iff :
    (∀ current incoming : Entry, incoming.Constructible →
      ((∃ clash, current.insert incoming = .error clash) ↔
        ∃ path, current.ClashesAt incoming path) ∧
      ∀ current' incoming' : Entry, incoming'.Constructible →
        (∀ path, AlikeAt current incoming current' incoming' path) →
        ((∃ clash, current'.insert incoming' = .error clash) ↔
          ∃ clash, current.insert incoming = .error clash)) ∧
    ∀ context entries : Context, entries.Constructible →
      ((∃ clash, context.addAll entries = .error clash) ↔
        ∃ key current incoming path, context.get? key = some current ∧
          entries.get? key = some incoming ∧ current.ClashesAt incoming path) := by
  refine ⟨fun current incoming hincoming => ⟨exists_insert_error_iff hincoming.wf, ?_⟩,
    fun context entries hentries => Context.exists_addAll_error_iff hentries.wf⟩
  intro current' incoming' hincoming' halike
  rw [exists_insert_error_iff hincoming.wf, exists_insert_error_iff hincoming'.wf,
    exists_clashesAt_iff, exists_clashesAt_iff]
  exact not_congr ⟨fun h => h.of_alike fun path => (halike path).symm, fun h => h.of_alike halike⟩

/-- A field and a dict under the key of a device, in a restricted scope that is merged into an exposed
one: they clash, also when the scope around the present one was received and is restricted. -/
theorem Entry.device_insert_clashes :
    let device : Entry := .dict "device" .exposed false []
    let current : Entry := .dict "user" .exposed false [device]
    let received : Entry := .dict "user" .restricted true [device]
    let incoming : Entry := .dict "user" .restricted false [.exposedField "device" (.str "phone")]
    incoming.Constructible ∧ Context.Constructible [incoming] ∧
      (∃ clash, current.insert incoming = .error clash) ∧
      (∃ clash, received.insert incoming = .error clash) ∧
      ∃ clash, Context.addAll [current] [incoming] = .error clash := by
  intro device current received incoming
  have hincoming : incoming.Constructible := .scope (List.forall_mem_singleton.2 (.field ..)) rfl
  have hentries : Context.Constructible [incoming] :=
    ⟨[incoming], List.forall_mem_singleton.2 hincoming, rfl⟩
  have hclash : current.ClashesAt incoming ["device"] :=
    ⟨⟨device, _, rfl, rfl, by decide, rfl, rfl⟩, fun front hfront hne =>
      ⟨variant_at?_of_front rfl hfront hne, variant_at?_of_front rfl hfront hne⟩⟩
  have halike : ∀ path, AlikeAt current incoming received incoming path := by
    intro path
    cases path with
    | nil => exact ⟨rfl, rfl, fun hne => absurd rfl hne⟩
    | cons key path => exact ⟨rfl, rfl, fun _ => ⟨rfl, rfl⟩⟩
  obtain ⟨hpairs, hcontexts⟩ := insert_clashes_iff
  obtain ⟨hself, hothers⟩ := hpairs current incoming hincoming
  have hfails : ∃ clash, current.insert incoming = .error clash := hself.2 ⟨_, hclash⟩
  exact ⟨hincoming, hentries, hfails, (hothers received incoming hincoming halike).2 hfails,
    (hcontexts [current] [incoming] hentries).2 ⟨"user", current, incoming, _, rfl, rfl, hclash⟩⟩

end Faults
