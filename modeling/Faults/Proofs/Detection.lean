import Faults.Proofs.Clashes

/-!
# Which clashes are found on received entries

Local entries that come one after the other can be merged into nothing exactly when any two of them
have the same variants at all common paths. Merged into what was received they are judged more
mildly: a dict that was received keeps its flag when local dicts are merged into it, so whatever comes
after them takes its place, and the local entries in it are gone. Main statements:

* `Entry.Arrives.fits_iff`: what fits after an arrival;
* `Context.exists_addAll_iff_pairwise`: local entries can be merged one after the other exactly when
  each fits by itself and any two of them agree;
* `Report.attach_clash_iff`: which clashes are found on a decoded failure.
-/

namespace Faults

open Entry (Arrives Fits Meets)

namespace Entry

/-! ## What an arrival leaves -/

/-- The child of what stands at a place, if there is one. -/
def inner (place : Option Entry) (key : String) : Option Entry :=
  place.bind fun current => current.children.get? key

/-- A dict stands there that was received. -/
def Lenient (place : Option Entry) : Prop :=
  ∃ current, place = some current ∧ current.variant = .dict ∧ current.isReceived = true

/-- Two local entries agree when they have the same variants at all common paths. A dict gives way to
something else where a received dict stands. -/
def Agrees (place : Option Entry) (first second : Entry) : Prop :=
  ∀ path earlier later, first.at? path = some earlier → second.at? path = some later →
    earlier.variant = later.variant ∨ earlier.variant = .dict ∧ Lenient (beneath place path)

theorem beneath_cons (place : Option Entry) (key : String) (path : List String) :
    beneath place (key :: path) = beneath (inner place key) path := by
  cases place <;> rfl

theorem fits_iff {place : Option Entry} {incoming : Entry} :
    Fits place incoming ↔ (∀ current, place = some current → ¬ current.Clashes incoming) ∧
      ∀ key child, incoming.children.get? key = some child → Fits (inner place key) child := by
  cases place with
  | none =>
    refine iff_of_true (fits_none _) ⟨fun _ h => ?_, fun _ child _ => fits_none child⟩
    cases h
  | some current =>
    rw [fits_some_iff]
    refine and_congr_left fun _ => ⟨fun h _ heq => ?_, fun h => h current rfl⟩
    cases heq
    exact h

theorem agrees_iff {place : Option Entry} {first second : Entry} :
    Agrees place first second ↔
      (first.variant = second.variant ∨ first.variant = .dict ∧ Lenient place) ∧
      ∀ key child child', first.children.get? key = some child →
        second.children.get? key = some child' → Agrees (inner place key) child child' := by
  constructor
  · intro h
    constructor
    · have hself := h [] first second rfl rfl
      rwa [show beneath place [] = place from Option.bind_fun_some place] at hself
    · intro key child child' hchild hchild' path earlier later hearlier hlater
      rw [← beneath_cons]
      refine h (key :: path) earlier later ?_ ?_
      · rw [at?, hchild]
        exact hearlier
      · rw [at?, hchild']
        exact hlater
  · rintro ⟨hself, hchildren⟩ path earlier later hearlier hlater
    cases path with
    | nil =>
      cases hearlier
      cases hlater
      rwa [show beneath place [] = place from Option.bind_fun_some place]
    | cons key path =>
      obtain ⟨child, hchild, hearlier⟩ := Option.bind_eq_some_iff.1 hearlier
      obtain ⟨child', hchild', hlater⟩ := Option.bind_eq_some_iff.1 hlater
      rw [beneath_cons]
      exact hchildren key child child' hchild hchild' path earlier later hearlier hlater

/-- At the path both have an entry, and these are of different variants. -/
def DiffersAt (first second : Entry) (path : List String) : Prop :=
  ∃ earlier later, Context.at? [first] path = some earlier ∧
    Context.at? [second] path = some later ∧ earlier.variant ≠ later.variant

variable {outer : Visibility} {place : Option Entry} {incoming result : Entry}

theorem Arrives.variant_result (h : Arrives outer place incoming result) :
    result.variant = incoming.variant := by
  cases h with
  | fresh | replaced => exact variant_capped ..
  | _ => rfl

/-- Only a received dict stays a received one, when a dict is merged into it. -/
theorem Arrives.isReceived_result (h : Arrives outer place incoming result)
    (hincoming : incoming.isReceived = false) :
    result.isReceived = true ↔ incoming.variant = .dict ∧ Lenient place := by
  cases h with
  | fresh =>
    rw [isReceived_capped, hincoming]
    refine iff_of_false Bool.false_ne_true ?_
    rintro ⟨-, current, hcurrent, -⟩
    cases hcurrent
  | replaced hvariant =>
    rw [isReceived_capped, hincoming]
    refine iff_of_false Bool.false_ne_true ?_
    rintro ⟨hdict, current, hcurrent, hcurrentDict, -⟩
    cases hcurrent
    exact hvariant (hcurrentDict.trans hdict.symm)
  | @field _ _ _ _ _ _ _ r' =>
    have hlocal : r' = false := hincoming
    rw [hlocal]
    exact iff_of_false Bool.false_ne_true fun h => by cases h.1
  | stack => exact iff_of_false Bool.false_ne_true fun h => by cases h.1
  | trail => exact iff_of_false Bool.false_ne_true fun h => by cases h.1
  | @dict k s r present k' s' r' =>
    constructor
    · exact fun hreceived => ⟨rfl, _, rfl, rfl, hreceived⟩
    · rintro ⟨-, current, hcurrent, -, hreceived⟩
      cases hcurrent
      exact hreceived

theorem Arrives.lenient_iff (h : Arrives outer place incoming result)
    (hincoming : incoming.isReceived = false) (hdict : incoming.variant = .dict) :
    Lenient (some result) ↔ Lenient place := by
  have hreceived := h.isReceived_result hincoming
  rw [and_iff_right hdict] at hreceived
  rw [← hreceived]
  constructor
  · rintro ⟨current, hcurrent, -, hflag⟩
    cases hcurrent
    exact hflag
  · exact fun hflag => ⟨result, rfl, h.variant_result.trans hdict, hflag⟩

/-- A dict that arrives is merged key by key, whatever stood there. -/
theorem Arrives.meets_inner (h : Arrives outer place incoming result) (hwf : incoming.WF)
    (hdict : incoming.variant = .dict) (key : String) :
    ∃ outer', Meets outer' (inner place key) (incoming.children.get? key)
      (result.children.get? key) := by
  cases h with
  | fresh =>
    rw [children_capped]
    exact ⟨.exposed, .fresh _⟩
  | @replaced current _ hvariant =>
    have hleaf : current.variant ≠ .dict := fun heq => hvariant (heq.trans hdict.symm)
    rw [children_capped, inner, Option.bind_some, children_of_variant_ne hleaf]
    exact ⟨.exposed, .fresh _⟩
  | dict habsorb => exact ⟨_, Context.meets_absorb hwf.children.keys habsorb key⟩
  | _ => cases hdict

/-! ## What comes after an arrival -/

theorem Arrives.not_clashes_iff (h : Arrives outer place incoming result)
    (hincoming : incoming.isReceived = false) {later : Entry} (hlater : later.isReceived = false) :
    ¬ result.Clashes later ↔
      incoming.variant = later.variant ∨ incoming.variant = .dict ∧ Lenient place := by
  rw [← h.isReceived_result hincoming, Clashes, h.variant_result, hlater, and_iff_left rfl,
    not_and_or, not_not, Bool.not_eq_false]

/-- What arrived fits, so what stood there does not clash with what comes later either. -/
theorem Arrives.not_clashes_before (h : Arrives outer place incoming result)
    (hincoming : incoming.Local) {later : Entry}
    (hagree : incoming.variant = later.variant ∨ incoming.variant = .dict ∧ Lenient place) :
    ∀ current, place = some current → ¬ current.Clashes later := by
  rintro current rfl ⟨hvariant, hcurrent, -⟩
  have hfit := (Entry.fits_iff.1 (hincoming.wf.exists_arrives_iff.1 ⟨result, h⟩)).1 current rfl
  have hsame : current.variant = incoming.variant := by
    by_contra hne
    exact hfit ⟨hne, hcurrent, hincoming.isReceived⟩
  rcases hagree with hagree | ⟨-, other, hother, -, hreceived⟩
  · exact hvariant (hsame.trans hagree)
  · cases hother
    rw [hcurrent] at hreceived
    cases hreceived

/-- **What fits after an arrival** is what fitted before and agrees with what arrived. -/
theorem Arrives.fits_iff {later : Entry} (h : Arrives outer place incoming result)
    (hincoming : incoming.Local) (hlater : later.Local) :
    Fits (some result) later ↔ Fits place later ∧ Agrees place incoming later := by
  induction incoming generalizing outer place result later with
  | step incoming ih =>
    have hself := h.not_clashes_iff hincoming.isReceived hlater.isReceived
    rw [fits_some_iff, Entry.fits_iff, agrees_iff, hself]
    by_cases hagree : incoming.variant = later.variant ∨ incoming.variant = .dict ∧ Lenient place
    swap
    · exact iff_of_false (fun hfits => hagree hfits.1) fun hfits => hagree hfits.2.1
    rw [and_iff_right hagree, and_iff_right hagree,
      and_iff_right (h.not_clashes_before hincoming hagree)]
    -- a later child that finds a dict meets there what the arrival has left under its key
    have hkey : ∀ key child', later.children.get? key = some child' →
        (Fits (result.children.get? key) child' ↔ Fits (inner place key) child' ∧
          ∀ child, incoming.children.get? key = some child →
            Agrees (inner place key) child child') := by
      intro key child' hchild'
      have hdict : incoming.variant = .dict :=
        hagree.elim (fun heq => heq.trans (variant_of_child hchild')) And.left
      obtain ⟨outer', hmeets⟩ := h.meets_inner hincoming.wf hdict key
      generalize hchild : incoming.children.get? key = child? at hmeets ⊢
      generalize result.children.get? key = result? at hmeets ⊢
      cases hmeets with
      | idle => exact (and_iff_left fun child h => by cases h).symm
      | @arrives child _ harrives =>
        rw [ih child (Context.mem_of_get? hchild) harrives (hincoming.child hchild)
          (hlater.child hchild')]
        simp only [Option.some.injEq, forall_eq']
    constructor
    · intro hfits
      exact ⟨fun key child' hchild' => ((hkey key child' hchild').1 (hfits key child' hchild')).1,
        fun key child child' hchild hchild' =>
          ((hkey key child' hchild').1 (hfits key child' hchild')).2 child hchild⟩
    · rintro ⟨hfits, hagrees⟩ key child' hchild'
      exact (hkey key child' hchild').2 ⟨hfits key child' hchild',
        fun child hchild => hagrees key child child' hchild hchild'⟩

/-- Later entries agree after an arrival when they did so before it, as far as they fit. -/
theorem Arrives.agrees_iff {first second : Entry} (h : Arrives outer place incoming result)
    (hincoming : incoming.Local) (hfirst : first.Local) (hfits : Fits (some result) first) :
    Agrees (some result) first second ↔ Agrees place first second := by
  induction incoming generalizing outer place result first second with
  | step incoming ih =>
    obtain ⟨hself, hchildren⟩ := fits_some_iff.1 hfits
    rw [h.not_clashes_iff hincoming.isReceived hfirst.isReceived] at hself
    have hdict : first.variant = .dict → incoming.variant = .dict := fun hfirstDict =>
      hself.elim (fun heq => heq.trans hfirstDict) And.left
    have hlenient : first.variant = .dict → (Lenient (some result) ↔ Lenient place) :=
      fun hfirstDict => h.lenient_iff hincoming.isReceived (hdict hfirstDict)
    rw [Entry.agrees_iff, Entry.agrees_iff, and_congr_right hlenient]
    refine and_congr_right fun _ => forall_congr' fun key => ?_
    refine forall₄_congr fun child child' hchild hchild' => ?_
    obtain ⟨outer', hmeets⟩ := h.meets_inner hincoming.wf (hdict (variant_of_child hchild)) key
    have hfit := hchildren key child hchild
    change Agrees (result.children.get? key) child child' ↔ _
    generalize hin : incoming.children.get? key = incoming? at hmeets
    generalize result.children.get? key = result? at hmeets hfit ⊢
    cases hmeets with
    | idle => exact Iff.rfl
    | arrives harrives =>
      exact ih _ (Context.mem_of_get? hin) harrives (hincoming.child hin) (hfirst.child hchild) hfit

end Entry

namespace Context

/-- The two entries agree wherever they meet in the context. -/
def Agrees (context : Context) (first second : Entry) : Prop :=
  ∀ path earlier later, at? [first] path = some earlier → at? [second] path = some later →
    earlier.variant = later.variant ∨ earlier.variant = .dict ∧ Entry.Lenient (context.at? path)

theorem agrees_iff {context : Context} {first second : Entry} :
    context.Agrees first second ↔
      (first.key = second.key → Entry.Agrees (context.get? first.key) first second) := by
  constructor
  · intro h hkey path earlier later hearlier hlater
    refine h (first.key :: path) earlier later ?_ ?_
    · rw [at?, get?_cons, if_pos rfl]
      exact hearlier
    · rw [at?, get?_cons, if_pos hkey.symm]
      exact hlater
  · intro h path earlier later hearlier hlater
    cases path with
    | nil => cases hearlier
    | cons key path =>
      rw [at?, get?_cons] at hearlier hlater
      split at hearlier
      · next hfirst =>
        split at hlater
        · next hsecond =>
          subst hfirst
          exact h hsecond.symm path earlier later hearlier hlater
        · cases hlater
      · cases hearlier

variable {context : Context}

theorem fits_put_iff {outer : Visibility} {incoming result later : Entry}
    (h : Arrives outer (context.get? incoming.key) incoming result) (hincoming : incoming.Local)
    (hlater : later.Local) :
    Fits ((context.put result).get? later.key) later ↔
      Fits (context.get? later.key) later ∧ context.Agrees incoming later := by
  have hresult : result.key = incoming.key := h.key_eq fun _ => key_of_get?
  rw [get?_put, hresult, agrees_iff]
  by_cases hkey : incoming.key = later.key
  · rw [if_pos hkey, ← hkey, h.fits_iff hincoming hlater]
    exact and_congr_right fun _ => ⟨fun hagrees _ => hagrees, fun hagrees => hagrees rfl⟩
  · rw [if_neg hkey]
    exact (and_iff_left fun heq => absurd heq hkey).symm

theorem agrees_put_iff {outer : Visibility} {incoming result first second : Entry}
    (h : Arrives outer (context.get? incoming.key) incoming result) (hincoming : incoming.Local)
    (hfirst : first.Local) (hfits : Fits ((context.put result).get? first.key) first) :
    (context.put result).Agrees first second ↔ context.Agrees first second := by
  have hresult : result.key = incoming.key := h.key_eq fun _ => key_of_get?
  rw [agrees_iff, agrees_iff]
  refine forall_congr' fun _ => ?_
  rw [get?_put, hresult] at hfits ⊢
  by_cases hkey : incoming.key = first.key
  · rw [if_pos hkey] at hfits ⊢
    rw [← hkey]
    exact h.agrees_iff hincoming hfirst hfits
  · rw [if_neg hkey]

/-- **Local entries can be merged one after the other** exactly when each of them fits into what is
there by itself and any two of them agree. -/
theorem exists_addAll_iff_pairwise {entries : List Entry} (h : ∀ entry ∈ entries, entry.Local) :
    (∃ final, context.addAll entries = .ok final) ↔
      (∀ entry ∈ entries, Fits (context.get? entry.key) entry) ∧
        entries.Pairwise context.Agrees := by
  rw [addAll_eq_absorb]
  induction entries generalizing context with
  | nil =>
    refine iff_of_true ⟨context, rfl⟩ ⟨fun _ hmem => ?_, .nil⟩
    cases hmem
  | cons entry rest ih =>
    obtain ⟨hentry, hrest⟩ := List.forall_mem_cons.1 h
    -- after one arrival the rest must also agree with it, and agrees with itself as before
    have hstep : ∀ result, Arrives .exposed (context.get? entry.key) entry result →
        ((∃ final, (context.put result).absorb .exposed rest = .ok final) ↔
          (∀ later ∈ rest, Fits (context.get? later.key) later ∧ context.Agrees entry later) ∧
            rest.Pairwise context.Agrees) := by
      intro result harrives
      rw [ih hrest, forall₂_congr fun later hmem => fits_put_iff harrives hentry (hrest later hmem)]
      refine and_congr_right fun hfits => List.Pairwise.iff_of_mem fun hfirst _ => ?_
      refine agrees_put_iff harrives hentry (hrest _ hfirst) ?_
      exact (fits_put_iff harrives hentry (hrest _ hfirst)).2 (hfits _ hfirst)
    rw [List.forall_mem_cons, List.pairwise_cons]
    constructor
    · rintro ⟨final, hfinal⟩
      obtain ⟨result, harrives, hfinal⟩ := absorb_cons_ok.1 hfinal
      obtain ⟨hlater, hpairs⟩ := (hstep result harrives).1 ⟨final, hfinal⟩
      exact ⟨⟨hentry.wf.exists_arrives_iff.1 ⟨result, harrives⟩,
        fun later hmem => (hlater later hmem).1⟩, fun later hmem => (hlater later hmem).2, hpairs⟩
    · rintro ⟨⟨hfits, hrestFits⟩, hagrees, hpairs⟩
      obtain ⟨result, harrives⟩ := hentry.wf.exists_arrives_iff.2 hfits
      obtain ⟨final, hfinal⟩ := (hstep result harrives).2
        ⟨fun later hmem => ⟨hrestFits later hmem, hagrees later hmem⟩, hpairs⟩
      exact ⟨final, absorb_cons_ok.2 ⟨result, harrives, hfinal⟩⟩

/-- A dict stands at the path. -/
def DictAt (context : Context) (path : List String) : Prop :=
  ∃ node, context.at? path = some node ∧ node.variant = .dict

theorem agrees_iff_of_remote (h : ∀ entry ∈ context, entry.Remote) {first second : Entry} :
    context.Agrees first second ↔ ∀ path, first.DiffersAt second path →
      DictAt [first] path ∧ context.DictAt path := by
  have hlenient : ∀ path, Entry.Lenient (context.at? path) ↔ context.DictAt path := fun path => by
    refine exists_congr fun node => and_congr_right fun hat => and_iff_left ?_
    exact (uniform_at? h hat).isReceived
  refine forall_congr' fun path => ?_
  constructor
  · rintro hagrees ⟨earlier, later, hearlier, hlater, hne⟩
    obtain ⟨hdict, hreceived⟩ := (hagrees earlier later hearlier hlater).resolve_left hne
    exact ⟨⟨earlier, hearlier, hdict⟩, (hlenient path).1 hreceived⟩
  · intro hgives earlier later hearlier hlater
    by_cases hne : earlier.variant = later.variant
    · exact .inl hne
    · obtain ⟨⟨node, hnode, hdict⟩, hcontext⟩ := hgives ⟨earlier, later, hearlier, hlater, hne⟩
      rw [hearlier] at hnode
      cases hnode
      exact .inr ⟨hdict, (hlenient path).2 hcontext⟩

theorem exists_addAll_error_iff_of_remote (hcontext : ∀ entry ∈ context, entry.Remote)
    {entries : List Entry} (h : ∀ entry ∈ entries, entry.Local) :
    (∃ clash, context.addAll entries = .error clash) ↔
      ∃ first second path, [first, second].Sublist entries ∧ first.DiffersAt second path ∧
        ¬ (DictAt [first] path ∧ context.DictAt path) := by
  have hfits : ∀ entry ∈ entries, Fits (context.get? entry.key) entry := by
    intro entry _ path present arriving hpresent _ ⟨_, hlocal, _⟩
    have hat : context.at? (entry.key :: path) = some present := hpresent
    rw [(uniform_at? hcontext hat).isReceived] at hlocal
    cases hlocal
  rw [exists_error_iff, exists_addAll_iff_pairwise h, and_iff_right hfits,
    List.pairwise_iff_forall_sublist]
  simp only [agrees_iff_of_remote hcontext, not_forall, exists_prop, exists_and_left]

end Context

/-! ## Decoded failures -/

theorem Failure.exists_attach_error_iff {failure : Failure} {entries : List Entry} :
    (∃ clash, failure.attach entries = .error clash) ↔
      ∃ clash, failure.entries.addAll entries = .error clash := by
  rw [exists_error_iff, exists_error_iff, ← failure.entries_attach, exists_map_ok]

/-- **Which clashes are found on a decoded failure.** Local entries clash on a failure without entries
exactly when two of them are of different variants at some path. Of these clashes a decoded failure
misses those, and only those, where the earlier entry has a dict and so has the decoded failure. -/
theorem Report.attach_clash_iff (registry : Registry) (report : Report) :
    ∃ failure events, decodeWith registry report = .ok (failure, events) ∧
      ∀ (bare : Failure) (entries : List Entry), bare.entries = [] →
        (∀ entry ∈ entries, entry.Local) →
        ((∃ clash, bare.attach entries = .error clash) ↔
          ∃ first second path, [first, second].Sublist entries ∧ first.DiffersAt second path) ∧
        ((∃ clash, failure.attach entries = .error clash) ↔
          ∃ first second path, [first, second].Sublist entries ∧ first.DiffersAt second path ∧
            ¬ (Context.DictAt [first] path ∧ failure.entries.DictAt path)) := by
  obtain ⟨failure, events, hdecode, -, hremote⟩ := decodeWith_remote registry report
  refine ⟨failure, events, hdecode, fun bare entries hbare hlocal => ⟨?_, ?_⟩⟩
  · have hnil : ∀ entry ∈ ([] : Context), entry.Remote := fun _ hmem => by cases hmem
    have hnone : ∀ path, ¬ Context.DictAt [] path := by
      rintro (_ | ⟨key, path⟩) ⟨node, hat, -⟩ <;> cases hat
    rw [Failure.exists_attach_error_iff, hbare,
      Context.exists_addAll_error_iff_of_remote hnil hlocal]
    refine exists₃_congr fun first second path => and_congr_right fun _ => ?_
    exact and_iff_left fun hdicts => hnone path hdicts.2
  · rw [Failure.exists_attach_error_iff]
    exact Context.exists_addAll_error_iff_of_remote hremote hlocal

/-- A report with an id in the scope of a user. -/
def Report.profile (scope : Json.Members) : Report where
  message := "not yours"
  kind := "NotFoundError"
  details := some [("user", .obj scope)]

/-- A local field and a local dict under the key of the id clash on the decoded failure as well. -/
theorem Report.profile_attach_clash :
    let entries : List Entry := [.dict "user" .exposed false [.exposedField "id" (.int 7)],
      .dict "user" .exposed false [.dict "id" .exposed false []]]
    ∃ failure events, decodeWith .empty (profile [("id", .int 1)]) = .ok (failure, events) ∧
      (∃ clash, failure.attach entries = .error clash) := by
  intro entries
  obtain ⟨failure, events, hdecode, h⟩ := attach_clash_iff .empty (profile [("id", .int 1)])
  have hscope : ∀ {child : Entry}, child.Local → (Entry.dict "user" .exposed false [child]).Local :=
    fun h => .of_children rfl (List.pairwise_singleton _ _) (List.forall_mem_singleton.2 h)
  have hlocal : ∀ entry ∈ entries, entry.Local :=
    List.forall_mem_cons.2 ⟨hscope (.of_leaf rfl rfl),
      List.forall_mem_singleton.2 (hscope (.of_leaf rfl rfl))⟩
  let bare : Failure := { kind := .unknownError, message := "", entries := [], below := [] }
  refine ⟨failure, events, hdecode, (h bare entries rfl hlocal).2.2 ?_⟩
  refine ⟨_, _, ["user", "id"], .refl _, ⟨_, _, rfl, rfl, by decide⟩, ?_⟩
  rintro ⟨⟨node, hat, hdict⟩, -⟩
  cases hat
  cases hdict

/-- A local dict and a local field clash on a failure without entries. On a decoded one whose report
has an empty dict at that key they do not, and the id in the local dict is gone. -/
theorem Report.profile_clash_missed :
    let bare : Failure := { kind := .userError, message := "bare", entries := [], below := [] }
    let entries : List Entry := [.dict "user" .exposed false [.exposedField "id" (.int 7)],
      .exposedField "user" (.str "ada")]
    (∀ entry ∈ entries, entry.Local) ∧
      bare.attach entries = .error ⟨.field, "user", .dict, "user"⟩ ∧
      ∃ failure events onto, decodeWith .empty (profile []) = .ok (failure, events) ∧
        failure.attach entries = .ok onto ∧ onto.entries = [.exposedField "user" (.str "ada")] ∧
        onto.entries.at? ["user", "id"] = none := by
  intro bare entries
  refine ⟨?_, rfl, _, _, _, rfl, rfl, rfl, rfl⟩
  refine List.forall_mem_cons.2 ⟨.of_children rfl (List.pairwise_singleton _ _) ?_,
    List.forall_mem_singleton.2 (.of_leaf rfl rfl)⟩
  exact List.forall_mem_singleton.2 (.of_leaf rfl rfl)

end Faults
