import Faults.Proofs.Detection
import Faults.Proofs.Publication

/-!
# Regrouping merges

Merging is associative up to visibilities. Three contexts of local entries can be merged layer by
layer exactly when the last two can be merged first and then onto the first one, and both ways lead
to the same tree, in the same order. The visibilities may differ: what the last layer adds below a
restricted dict of the middle one is restricted in the pre-merged context already, while layer by
layer it meets the dict of the first. So the pre-merged way exposes at most as much (`Entry.Dimmer`).
Main statements:

* `Context.keys_absorb`: a merge appends the keys that are new, in their order;
* `Entry.Arrives.dimmer`: what arrives below something restricted leaves no more exposed;
* `Entry.Uniform.regroups`: two arrivals at one place, one after the other or merged before;
* `Entry.Meets.compatible_iff`: what is compatible with the result of a merge;
* `Context.regroup`: what follows for contexts.
-/

namespace Faults

open Entry (Arrives Fits Meets)

/-! ## Erasing visibilities -/

mutual

/-- The entry without its visibilities. -/
def Entry.unveiled : Entry → Entry
  | .field key value _ received => .field key value .exposed received
  | .stack frames => .stack frames
  | .trail hops => .trail hops
  | .dict key _ received children => .dict key .exposed received (Context.unveiled children)

/-- The entries without their visibilities. -/
def Context.unveiled : Context → Context
  | [] => []
  | entry :: rest => entry.unveiled :: Context.unveiled rest

end

@[simp] theorem Entry.unveiled_capped (outer : Visibility) (entry : Entry) :
    (entry.capped outer).unveiled = entry.unveiled := by
  cases entry <;> simp only [capped, withVisibility, unveiled]

theorem Entry.key_unveiled (entry : Entry) : entry.unveiled.key = entry.key := by
  cases entry <;> simp only [unveiled, key]

mutual

theorem Entry.logValue_unveiled : (entry : Entry) → entry.unveiled.logValue = entry.logValue
  | .field .. | .stack _ | .trail _ => by simp only [Entry.unveiled, Entry.logValue]
  | .dict key visibility received children => by
    rw [Entry.unveiled, Entry.logValue, Entry.logValue, Context.logPairs_unveiled children]

theorem Context.logPairs_unveiled : (context : Context) →
    Context.logPairs context.unveiled = Context.logPairs context
  | [] => rfl
  | entry :: rest => by
    rw [Context.unveiled, Context.logPairs, Context.logPairs, entry.logValue_unveiled,
      entry.key_unveiled, Context.logPairs_unveiled rest]

end

/-- The log view does not depend on visibilities. -/
theorem Context.logValues_unveiled (context : Context) :
    logValues context.unveiled = context.logValues := by
  rw [logValues, logValues, logPairs_unveiled]

theorem Entry.variant_unveiled (entry : Entry) : entry.unveiled.variant = entry.variant := by
  cases entry <;> simp only [unveiled, variant]

theorem Entry.isReceived_unveiled (entry : Entry) : entry.unveiled.isReceived = entry.isReceived := by
  cases entry <;> simp only [unveiled, isReceived]

theorem Context.get?_unveiled (context : Context) (key : String) :
    context.unveiled.get? key = (context.get? key).map Entry.unveiled := by
  induction context with
  | nil => rfl
  | cons entry rest ih =>
    rw [unveiled, get?_cons, get?_cons, entry.key_unveiled, ih]
    split <;> rfl

theorem Context.unveiled_put (context : Context) (entry : Entry) :
    (context.put entry).unveiled = context.unveiled.put entry.unveiled := by
  induction context with
  | nil => rfl
  | cons head rest ih =>
    rw [put, unveiled, put, head.key_unveiled, entry.key_unveiled]
    split
    · rw [unveiled]
    · rw [unveiled, ih]

theorem Entry.unveiled_replace (outer : Visibility) (current incoming : Entry) :
    unveiled <$> current.replace (incoming.capped outer) =
      current.unveiled.replace incoming.unveiled := by
  rw [replace, replace, isReceived_capped, isReceived_unveiled, isReceived_unveiled, key_unveiled,
    key_unveiled, variant_unveiled, variant_unveiled, key_capped, variant_capped]
  split
  · exact congrArg Except.ok (unveiled_capped outer incoming)
  · rfl

theorem Context.unveiled_absorb_of {outer : Visibility} {entries : List Entry}
    (h : ∀ entry ∈ entries, ∀ place, Entry.unveiled <$> Entry.arrive outer place entry =
      Entry.arrive .exposed (place.map Entry.unveiled) entry.unveiled) (context : Context) :
    unveiled <$> context.absorb outer entries =
      context.unveiled.absorb .exposed (unveiled entries) := by
  induction entries generalizing context with
  | nil => rfl
  | cons entry rest ih =>
    obtain ⟨hentry, hrest⟩ := List.forall_mem_cons.1 h
    rw [unveiled, absorb_cons, absorb_cons, entry.key_unveiled, get?_unveiled, ← hentry, map_bind,
      bind_map_left]
    refine bind_congr fun result => ?_
    rw [ih hrest, unveiled_put]

/-- Visibilities do not decide what an arrival leads to. -/
theorem Entry.unveiled_arrive (incoming : Entry) (outer : Visibility) (place : Option Entry) :
    unveiled <$> arrive outer place incoming =
      arrive .exposed (place.map unveiled) incoming.unveiled := by
  induction incoming generalizing outer place with
  | step incoming ih =>
    cases place with
    | none =>
      rw [Option.map_none, arrive, arrive, capped_exposed]
      exact congrArg Except.ok (unveiled_capped outer incoming)
    | some current =>
      rw [Option.map_some, arrive, arrive]
      by_cases hvariant : current.variant = incoming.variant
      · cases current <;> cases incoming <;> simp only [variant, reduceCtorEq] at hvariant
        · simp only [absorb, unveiled]
          rfl
        · simp only [absorb, unveiled]
          rfl
        · simp only [absorb, unveiled]
          rfl
        · next k s r present k' s' r' children =>
          have hchildren : Context.unveiled <$> Context.absorb (outer.under s') present children =
              Context.absorb .exposed (Context.unveiled present) (Context.unveiled children) :=
            Context.unveiled_absorb_of (fun child hmem => ih child hmem (outer.under s')) present
          simp only [absorb, unveiled, Visibility.exposed_under]
          rw [← hchildren, map_bind, bind_map_left]
          rfl
      · have hvariant' : current.unveiled.variant ≠ incoming.unveiled.variant := by
          rwa [variant_unveiled, variant_unveiled]
        rw [absorb_of_variant_ne hvariant, absorb_of_variant_ne hvariant', capped_exposed,
          unveiled_replace]

/-- Visibilities do not decide what a merge leads to. -/
theorem Context.unveiled_absorb (outer : Visibility) (context : Context) (entries : List Entry) :
    unveiled <$> context.absorb outer entries =
      context.unveiled.absorb .exposed (unveiled entries) :=
  unveiled_absorb_of (fun entry _ place => entry.unveiled_arrive outer place) context

/-! ## The same tree with less exposed -/

/-- The same entry up to visibilities, and it exposes at most as much. -/
structure Entry.Dimmer (entry other : Entry) : Prop where
  unveiled : entry.unveiled = other.unveiled
  exposes : ∀ path value, entry.Exposes path value → other.Exposes path value

/-- The same entries up to visibilities, in the same order, and they expose at most as much. -/
structure Context.Dimmer (context other : Context) : Prop where
  unveiled : context.unveiled = other.unveiled
  exposes : ∀ path value, context.Exposes path value → other.Exposes path value

namespace Entry.Dimmer

theorem refl (entry : Entry) : Dimmer entry entry := ⟨rfl, fun _ _ => id⟩

theorem capped {outer outer' : Visibility} (h : outer = .exposed → outer' = .exposed)
    (entry : Entry) : Dimmer (entry.capped outer) (entry.capped outer') := by
  refine ⟨?_, fun path value hexposes => ?_⟩
  · rw [unveiled_capped, unveiled_capped]
  · obtain ⟨houter, hexposes⟩ := hexposes.of_capped
    rwa [h houter, capped_exposed]

theorem dict {children children' : Context} (h : Context.Dimmer children children') (key : String)
    (visibility : Visibility) (received : Bool) :
    Dimmer (.dict key visibility received children) (.dict key visibility received children') := by
  refine ⟨?_, fun path value hexposes => ?_⟩
  · rw [Entry.unveiled, Entry.unveiled, h.unveiled]
  · cases hexposes with
    | dict hmem hchild =>
      obtain ⟨child, hmem, hchild⟩ := h.exposes _ _ ⟨_, hmem, hchild⟩
      exact .dict hmem hchild

end Entry.Dimmer

namespace Context

theorem unveiled_eq_of_keys {context other : Context} (hnodup : context.keys.Nodup)
    (hkeys : context.keys = other.keys)
    (h : ∀ key, Option.Rel Entry.Dimmer (context.get? key) (other.get? key)) :
    context.unveiled = other.unveiled := by
  induction context generalizing other with
  | nil =>
    cases other with
    | nil => rfl
    | cons => cases hkeys
  | cons entry rest ih =>
    cases other with
    | nil => cases hkeys
    | cons entry' rest' =>
      obtain ⟨hkey, hrestKeys⟩ : entry.key = entry'.key ∧ keys rest = keys rest' :=
        List.cons.inj hkeys
      obtain ⟨hentry, hrest⟩ : entry.key ∉ keys rest ∧ (keys rest).Nodup := List.nodup_cons.1 hnodup
      have hheads := h entry.key
      rw [get?_cons, get?_cons, if_pos rfl, if_pos hkey.symm] at hheads
      cases hheads with
      | some hdimmer =>
        rw [unveiled, unveiled, hdimmer.unveiled, ih hrest hrestKeys fun key => ?_]
        have htails := h key
        rw [get?_cons, get?_cons, hkey] at htails
        split at htails
        · next heq =>
          -- the key of the heads occurs in no tail
          rw [get?_eq_none_iff.2 (by rwa [← heq, ← hkey]),
            get?_eq_none_iff.2 (by rwa [← heq, ← hkey, ← hrestKeys])]
          exact .none
        · exact htails

/-- Contexts of the same keys are compared key by key. -/
theorem Dimmer.of_keys {context other : Context} (hnodup : context.keys.Nodup)
    (hkeys : context.keys = other.keys)
    (h : ∀ key, Option.Rel Entry.Dimmer (context.get? key) (other.get? key)) :
    context.Dimmer other := by
  refine ⟨unveiled_eq_of_keys hnodup hkeys h, ?_⟩
  rintro path value ⟨entry, hmem, hexposes⟩
  have hentry := h entry.key
  rw [get?_of_mem hnodup hmem] at hentry
  generalize hother : other.get? entry.key = other? at hentry
  cases hentry with
  | some hdimmer => exact ⟨_, mem_of_get? hother, hdimmer.exposes path value hexposes⟩

/-! ## Keys in their order -/

/-- A merge appends the keys that are new, in their order. -/
theorem keys_absorb {outer : Visibility} {context final : Context} {entries : List Entry}
    (hkeys : (keys entries).Nodup) (h : context.absorb outer entries = .ok final) :
    final.keys = context.keys ++ (keys entries).filter fun key => key ∉ context.keys := by
  induction entries generalizing context with
  | nil =>
    cases h
    exact (List.append_nil _).symm
  | cons head rest ih =>
    obtain ⟨hhead, hrest⟩ := List.nodup_cons.1 hkeys
    obtain ⟨result, harrives, hnext⟩ := absorb_cons_ok.1 h
    have hresult : result.key = head.key := harrives.key_eq fun _ => key_of_get?
    have hlater : (keys rest).filter (fun key => key ∉ (context.put result).keys) =
        (keys rest).filter fun key => key ∉ context.keys := by
      refine List.filter_congr fun key hmem => decide_eq_decide.2 (not_congr ?_)
      rw [mem_keys_put, hresult]
      exact or_iff_right fun heq => hhead (heq ▸ hmem)
    rw [ih hrest hnext, hlater, keys_put, hresult, List.append_assoc, ← List.filter_append]
    rfl

theorem nodup_keys_absorb {outer : Visibility} {context final : Context} {entries : List Entry}
    (hkeys : context.keys.Nodup) (h : context.absorb outer entries = .ok final) :
    final.keys.Nodup :=
  absorb_induct (motive := fun now => now.keys.Nodup) h hkeys
    fun _ _ result _ hnow _ => nodup_keys_put hnow result

end Context

/-! ## One place -/

namespace Entry

variable {outer inner : Visibility} {place : Option Entry} {current incoming result : Entry}

theorem Dimmer.capped_self (outer : Visibility) (entry : Entry) :
    Dimmer (entry.capped outer) entry := by
  have h : Dimmer (entry.capped outer) (entry.capped .exposed) := .capped (fun _ => rfl) entry
  rwa [capped_exposed] at h

theorem capped_capped (outer inner : Visibility) (entry : Entry) :
    (entry.capped inner).capped outer = entry.capped (outer.under inner) := by
  cases entry <;> simp only [capped, withVisibility, visibility, Visibility.under_assoc]

/-- A cap on what arrives is as good as one on the place. -/
theorem arrive_capped (outer inner : Visibility) (place : Option Entry) (incoming : Entry) :
    arrive outer place (incoming.capped inner) = arrive (outer.under inner) place incoming := by
  cases place with
  | none => rw [arrive, arrive, capped_capped]
  | some current =>
    cases incoming <;>
      simp only [capped, withVisibility, visibility, arrive, absorb, Visibility.under_assoc]

theorem Arrives.of_capped (h : Arrives outer place (incoming.capped inner) result) :
    Arrives (outer.under inner) place incoming result := by
  rw [← arrive_eq_ok_iff] at h ⊢
  rwa [arrive_capped] at h

theorem Arrives.variant_of_local (h : Arrives outer (some current) incoming result)
    (hcurrent : current.Local) (hincoming : incoming.Local) :
    current.variant = incoming.variant := by
  by_contra hne
  have hreceived := (exists_arrives_iff_of_ne hne).1 ⟨result, h⟩
  rw [hcurrent.isReceived, hincoming.isReceived] at hreceived
  simp at hreceived

theorem Meets.unique {incoming? result? result?' : Option Entry}
    (h : Meets outer place incoming? result?) (h' : Meets outer place incoming? result?') :
    result? = result?' := by
  cases h with
  | idle =>
    cases h'
    rfl
  | arrives h =>
    cases h' with
    | arrives h' => rw [h.unique h']

end Entry

theorem Entry.Dimmer.rel_refl (place : Option Entry) : Option.Rel Entry.Dimmer place place := by
  cases place with
  | none => exact .none
  | some entry => exact .some (.refl entry)

/-! ## Less exposed places -/

theorem Context.dimmer_absorb {outer outer' : Visibility} {context final final' : Context}
    {entries : Context} (hcontext : context.keys.Nodup) (hentries : entries.keys.Nodup)
    (h : context.absorb outer entries = .ok final)
    (h' : context.absorb outer' entries = .ok final')
    (hdimmer : ∀ incoming ∈ entries, ∀ place result result',
      (∀ current, place = some current → current ∈ context) →
      Arrives outer place incoming result → Arrives outer' place incoming result' →
      Entry.Dimmer result result') : final.Dimmer final' := by
  refine .of_keys (nodup_keys_absorb hcontext h) ?_ fun key => ?_
  · rw [keys_absorb hentries h, keys_absorb hentries h']
  · have hmeets := meets_absorb hentries h key
    have hmeets' := meets_absorb hentries h' key
    generalize hincoming : entries.get? key = incoming? at hmeets hmeets'
    generalize final.get? key = result? at hmeets ⊢
    generalize final'.get? key = result?' at hmeets' ⊢
    cases hmeets with
    | idle =>
      cases hmeets'
      exact Entry.Dimmer.rel_refl _
    | arrives harrives =>
      cases hmeets' with
      | arrives harrives' =>
        have hmem := mem_of_get? hincoming
        exact .some (hdimmer _ hmem _ _ _ (fun _ => mem_of_get?) harrives harrives')

/-- What arrives below something restricted leaves no more exposed. -/
theorem Entry.Arrives.dimmer {outer outer' : Visibility} {place : Option Entry}
    {incoming result result' : Entry} (hle : outer = .exposed → outer' = .exposed)
    (h : Arrives outer place incoming result) (h' : Arrives outer' place incoming result')
    (hplace : ∀ current, place = some current → current.WF) (hincoming : incoming.WF) :
    Dimmer result result' := by
  induction incoming generalizing outer outer' place result result' with
  | step incoming ih =>
    cases h with
    | fresh =>
      obtain rfl := h'.unique .fresh
      exact .capped hle _
    | replaced hvariant hreceived =>
      obtain rfl := h'.unique (.replaced hvariant hreceived)
      exact .capped hle _
    | @field _ _ _ _ k v s r =>
      obtain rfl := h'.unique .field
      exact .capped hle (.field k v s r)
    | stack =>
      obtain rfl := h'.unique .stack
      exact .refl _
    | trail =>
      obtain rfl := h'.unique .trail
      exact .refl _
    | @dict k s r present k' s' r' children merged hmerged =>
      obtain ⟨merged', hmerged', rfl⟩ := h'.of_dict
      have hpresent : Context.WF present := (hplace _ rfl).children
      have hchildren : Context.WF children := hincoming.children
      refine .dict (Context.dimmer_absorb hpresent.keys hchildren.keys hmerged hmerged' ?_) ..
      intro child hmem place result result' hplace harrives harrives'
      refine ih child hmem (fun hexposed => ?_) harrives harrives'
        (fun current hcurrent => hpresent.entries current (hplace current hcurrent))
        (hchildren.entries child hmem)
      obtain ⟨houter, hs'⟩ := Visibility.under_eq_exposed hexposed
      rw [hle houter, hs', Visibility.exposed_under]

/-! ## Two arrivals at one place -/

/-- Two arrivals at an empty place. -/
theorem Entry.Arrives.regroup_fresh {outer outer' : Visibility} {middle last merged left : Entry}
    (hmiddle : middle.Local) (hlast : last.Local)
    (hleft : Arrives outer' (some (middle.capped outer)) last left)
    (hmerged : Arrives outer' (some middle) last merged) : Dimmer (merged.capped outer) left := by
  have hvariant := hmerged.variant_of_local hmiddle hlast
  cases middle <;> cases last <;> simp only [variant, reduceCtorEq] at hvariant
  · obtain rfl := hmerged.unique .field
    obtain rfl := hleft.unique .field
    exact .capped_self _ _
  · obtain rfl := hmerged.unique .stack
    obtain rfl := hleft.unique .stack
    exact .refl _
  · obtain rfl := hmerged.unique .trail
    obtain rfl := hleft.unique .trail
    exact .refl _
  · obtain ⟨children, hchildren, rfl⟩ := hmerged.of_dict
    obtain ⟨children', hchildren', rfl⟩ := hleft.of_dict
    obtain rfl := Except.ok.inj (hchildren.symm.trans hchildren')
    exact .refl _

/-- Whether the entry arrives after another one or is merged into that before, the second way leaves
the same, with no more exposed. -/
def Entry.Regroups (last : Entry) : Prop :=
  ∀ (outer outer' : Visibility) (place : Option Entry) (middle first left merged right : Entry),
    (∀ current, place = some current → current.Local) → middle.Local →
    Arrives outer place middle first → Arrives outer' (some first) last left →
    Arrives outer' (some middle) last merged → Arrives outer place merged right →
    Dimmer right left

/-- The same where there need not be all of the entries. -/
theorem Entry.Meets.dimmer {outer outer' : Visibility}
    {place middle? last? first? left? merged? right? : Option Entry}
    (hplace : ∀ current, place = some current → current.Local)
    (hmiddle : ∀ middle, middle? = some middle → middle.Local)
    (hlast : ∀ last, last? = some last → last.WF ∧ last.Regroups)
    (hfirst : Meets outer place middle? first?) (hleft : Meets outer' first? last? left?)
    (hmerged : Meets outer' middle? last? merged?) (hright : Meets outer place merged? right?) :
    Option.Rel Dimmer right? left? := by
  cases hmerged with
  | idle =>
    cases hleft
    rw [hright.unique hfirst]
    exact Dimmer.rel_refl _
  | @arrives last merged hmerged =>
    obtain ⟨hwf, hregroups⟩ := hlast last rfl
    cases hleft with
    | arrives hleft =>
    cases hright with
    | arrives hright =>
    cases hfirst with
    | idle =>
      -- merged before, what is new in the last context arrives below both visibilities
      cases hmerged
      refine .some (hright.of_capped.dimmer (fun hexposed => ?_) hleft
        (fun current hcurrent => (hplace current hcurrent).wf) hwf)
      exact (Visibility.under_eq_exposed hexposed).2
    | arrives hfirst =>
      exact .some (hregroups _ _ _ _ _ _ _ _ hplace (hmiddle _ rfl) hfirst hleft hmerged hright)

namespace Context

/-- A context of one entry per key, of which nothing was received. -/
structure Local (context : Context) : Prop where
  keys : context.keys.Nodup
  entries : ∀ entry ∈ context, entry.Local

theorem Local.wf {context : Context} (h : context.Local) : context.WF :=
  ⟨h.keys, fun entry hmem => (h.entries entry hmem).wf⟩

theorem Local.get? {context : Context} (h : context.Local) {key : String} {entry : Entry}
    (hget : context.get? key = some entry) : entry.Local :=
  h.entries entry (mem_of_get? hget)

variable {outer outer' : Visibility} {first middle last firstTwo lastTwo left right : Context}

theorem keys_regroup (hmiddle : middle.keys.Nodup) (hlast : last.keys.Nodup)
    (hfirstTwo : first.absorb outer middle = .ok firstTwo)
    (hleft : firstTwo.absorb outer' last = .ok left)
    (hlastTwo : middle.absorb outer' last = .ok lastTwo)
    (hright : first.absorb outer lastTwo = .ok right) : right.keys = left.keys := by
  have hnodup : lastTwo.keys.Nodup := nodup_keys_absorb hmiddle hlastTwo
  -- on both sides the keys of the first, then what is new in the middle, then in the last
  rw [keys_absorb hnodup hright, keys_absorb hlast hlastTwo, keys_absorb hlast hleft,
    keys_absorb hmiddle hfirstTwo, List.filter_append, List.filter_filter, List.append_assoc]
  refine congrArg (fun more => first.keys ++ (_ ++ more)) (List.filter_congr fun key _ => ?_)
  rw [← Bool.decide_and, decide_eq_decide, List.mem_append, List.mem_filter, decide_eq_true_eq]
  tauto

theorem dimmer_regroup (hfirst : first.Local) (hmiddle : middle.Local) (hlast : last.Local)
    (hregroups : ∀ entry ∈ last, entry.Regroups)
    (hfirstTwo : first.absorb outer middle = .ok firstTwo)
    (hleft : firstTwo.absorb outer' last = .ok left)
    (hlastTwo : middle.absorb outer' last = .ok lastTwo)
    (hright : first.absorb outer lastTwo = .ok right) : right.Dimmer left := by
  have hnodup : lastTwo.keys.Nodup := nodup_keys_absorb hmiddle.keys hlastTwo
  refine .of_keys (nodup_keys_absorb hfirst.keys hright)
    (keys_regroup hmiddle.keys hlast.keys hfirstTwo hleft hlastTwo hright) fun key => ?_
  exact Meets.dimmer (fun _ => hfirst.get?) (fun _ => hmiddle.get?)
    (fun entry hget => ⟨(hlast.get? hget).wf, hregroups entry (mem_of_get? hget)⟩)
    (meets_absorb hmiddle.keys hfirstTwo key) (meets_absorb hlast.keys hleft key)
    (meets_absorb hlast.keys hlastTwo key) (meets_absorb hnodup hright key)

end Context

theorem Entry.Uniform.context {entry : Entry} (h : entry.Local) : Context.Local entry.children :=
  ⟨h.wf.children.keys, fun _ hmem => h.child (Context.get?_of_mem h.wf.children.keys hmem)⟩

theorem Entry.Uniform.regroups {last : Entry} (hlast : last.Local) : last.Regroups := by
  induction last with
  | step last ih =>
    intro outer outer' place middle firstTwo left merged right hplace hmiddle
      hfirst hleft hmerged hright
    cases place with
    | none =>
      obtain rfl := hfirst.unique .fresh
      obtain rfl := hright.unique .fresh
      exact hleft.regroup_fresh hmiddle hlast hmerged
    | some current =>
      have hvariant := hfirst.variant_of_local (hplace current rfl) hmiddle
      have hvariant' := hmerged.variant_of_local hmiddle hlast
      cases current <;> cases middle <;> simp only [variant, reduceCtorEq] at hvariant <;>
        cases last <;> simp only [variant, reduceCtorEq] at hvariant'
      · obtain rfl := hfirst.unique .field
        obtain rfl := hleft.unique .field
        obtain rfl := hmerged.unique .field
        obtain rfl := hright.unique .field
        exact .capped_self outer (.field ..)
      · obtain rfl := hfirst.unique .stack
        obtain rfl := hleft.unique .stack
        obtain rfl := hmerged.unique .stack
        obtain rfl := hright.unique .stack
        exact .refl _
      · obtain rfl := hfirst.unique .trail
        obtain rfl := hleft.unique .trail
        obtain rfl := hmerged.unique .trail
        obtain rfl := hright.unique .trail
        rw [List.append_assoc]
        exact .refl _
      · obtain ⟨firstChildren, hfirstChildren, rfl⟩ := hfirst.of_dict
        obtain ⟨leftChildren, hleftChildren, rfl⟩ := hleft.of_dict
        obtain ⟨mergedChildren, hmergedChildren, rfl⟩ := hmerged.of_dict
        obtain ⟨rightChildren, hrightChildren, rfl⟩ := hright.of_dict
        have hcontext := hlast.context
        refine .dict (Context.dimmer_regroup (hplace _ rfl).context hmiddle.context hcontext ?_
          hfirstChildren hleftChildren hmergedChildren hrightChildren) ..
        exact fun child hmem => ih child hmem (hcontext.entries child hmem)

/-! ## When contexts can be merged -/

namespace Entry

/-- What stands at the two places clashes at no path. -/
def Compatible (place place' : Option Entry) : Prop :=
  ∀ path present arriving, beneath place path = some present → beneath place' path = some arriving →
    ¬ present.Clashes arriving

theorem Compatible.symm {place place' : Option Entry} (h : Compatible place place') :
    Compatible place' place :=
  fun path present arriving hpresent harriving ⟨hvariant, hflag, hflag'⟩ =>
    h path arriving present harriving hpresent ⟨hvariant.symm, hflag', hflag⟩

theorem compatible_comm {place place' : Option Entry} :
    Compatible place place' ↔ Compatible place' place := ⟨.symm, .symm⟩

/-- Where nothing was received, no dict gives way. -/
theorem agrees_iff_compatible {place : Option Entry} {first second : Entry}
    (hplace : ∀ current, place = some current → current.Local) (hfirst : first.Local)
    (hsecond : second.Local) :
    Agrees place first second ↔ Compatible (some first) (some second) := by
  refine forall₃_congr fun path earlier later => forall₂_congr fun hearlier hlater => ?_
  have hstrict : ¬ Lenient (beneath place path) := by
    rintro ⟨node, hnode, -, hreceived⟩
    obtain ⟨current, hcurrent, hat⟩ := Option.bind_eq_some_iff.1 hnode
    rw [((hplace current hcurrent).at? hat).isReceived] at hreceived
    cases hreceived
  have hflag := (hfirst.at? hearlier).isReceived
  have hflag' := (hsecond.at? hlater).isReceived
  rw [or_iff_left fun hgives => hstrict hgives.2, Clashes, hflag, hflag', and_iff_left ⟨rfl, rfl⟩,
    not_not]

/-- What is compatible with the result of a merge. -/
theorem Meets.compatible_iff {outer : Visibility} {place middle? result? last? : Option Entry}
    (h : Meets outer place middle? result?)
    (hplace : ∀ current, place = some current → current.Local)
    (hmiddle : ∀ middle, middle? = some middle → middle.Local)
    (hlast : ∀ last, last? = some last → last.Local) :
    Compatible result? last? ↔ Compatible place last? ∧ Compatible middle? last? := by
  cases last? with
  | none =>
    have hnone : ∀ other, Compatible other none := fun _ _ _ _ _ h => by cases h
    exact iff_of_true (hnone _) ⟨hnone _, hnone _⟩
  | some last =>
    cases h with
    | idle => exact (and_iff_left (fits_none last)).symm
    | @arrives middle result h =>
      rw [← agrees_iff_compatible hplace (hmiddle middle rfl) (hlast last rfl)]
      exact h.fits_iff (hmiddle middle rfl) (hlast last rfl)

end Entry

namespace Context

/-- What stands in the two contexts clashes at no path. -/
def Compatible (context other : Context) : Prop :=
  ∀ key, Entry.Compatible (context.get? key) (other.get? key)

theorem compatible_comm {context other : Context} :
    context.Compatible other ↔ other.Compatible context :=
  forall_congr' fun _ => Entry.compatible_comm

namespace Local

variable {first middle last final : Context}

theorem addAll (hfirst : first.Local) (hlast : last.Local) (hok : first.addAll last = .ok final) :
    final.Local :=
  ⟨(hfirst.wf.addAll hlast.wf.entries hok).keys,
    uniform_addAll hfirst.entries hlast.entries hok⟩

theorem exists_addAll_iff_compatible (hlast : last.Local) :
    (∃ final, first.addAll last = .ok final) ↔ first.Compatible last := by
  rw [Context.exists_addAll_iff hlast.wf]
  constructor
  · intro hfits key path present arriving hpresent harriving
    obtain ⟨entry, hentry, hat⟩ := Option.bind_eq_some_iff.1 harriving
    obtain rfl := key_of_get? hentry
    exact hfits entry (mem_of_get? hentry) path present arriving hpresent hat
  · intro hcompatible entry hmem path present arriving hpresent harriving
    refine hcompatible entry.key path present arriving hpresent ?_
    rw [get?_of_mem hlast.keys hmem]
    exact harriving

theorem compatible_iff (hfirst : first.Local) (hmiddle : middle.Local) (hlast : last.Local)
    (hok : first.addAll middle = .ok final) :
    final.Compatible last ↔ first.Compatible last ∧ middle.Compatible last := by
  rw [addAll_eq_absorb] at hok
  refine (forall_congr' fun key => ?_).trans forall_and
  exact (meets_absorb hmiddle.keys hok key).compatible_iff (fun _ => hfirst.get?)
    (fun _ => hmiddle.get?) (fun _ => hlast.get?)

end Local

/-! ## Contexts -/

/-- The contexts merged layer by layer. -/
def layered (first middle last : Context) : Except Clash Context := do
  (← first.addAll middle).addAll last

/-- The first context with the other two, which are merged before. -/
def premerged (first middle last : Context) : Except Clash Context := do
  first.addAll (← middle.addAll last)

variable {first middle last : Context}

theorem exists_layered_iff (hfirst : first.Local) (hmiddle : middle.Local) (hlast : last.Local) :
    (∃ left, layered first middle last = .ok left) ↔
      first.Compatible middle ∧ first.Compatible last ∧ middle.Compatible last := by
  rw [← hmiddle.exists_addAll_iff_compatible]
  constructor
  · rintro ⟨left, hleft⟩
    obtain ⟨both, hboth, hleft⟩ := bind_ok.1 hleft
    exact ⟨⟨both, hboth⟩, (hfirst.compatible_iff hmiddle hlast hboth).1
      (hlast.exists_addAll_iff_compatible.1 ⟨left, hleft⟩)⟩
  · rintro ⟨⟨both, hboth⟩, hcompatible⟩
    obtain ⟨left, hleft⟩ := hlast.exists_addAll_iff_compatible.2
      ((hfirst.compatible_iff hmiddle hlast hboth).2 hcompatible)
    exact ⟨left, bind_ok.2 ⟨both, hboth, hleft⟩⟩

theorem exists_premerged_iff (hmiddle : middle.Local) (hlast : last.Local) (hfirst : first.Local) :
    (∃ right, premerged first middle last = .ok right) ↔
      first.Compatible middle ∧ first.Compatible last ∧ middle.Compatible last := by
  -- the relation is symmetric, so the merged contexts can be taken apart on this side as well
  have hright : ∀ {both}, middle.addAll last = .ok both →
      ((∃ right, first.addAll both = .ok right) ↔
        first.Compatible middle ∧ first.Compatible last) := by
    intro both hboth
    rw [(hmiddle.addAll hlast hboth).exists_addAll_iff_compatible, compatible_comm,
      hmiddle.compatible_iff hlast hfirst hboth, compatible_comm, @compatible_comm last]
  rw [← (hlast.exists_addAll_iff_compatible : _ ↔ middle.Compatible last)]
  constructor
  · rintro ⟨right, h⟩
    obtain ⟨both, hboth, h⟩ := bind_ok.1 h
    obtain ⟨hmiddle, hlast⟩ := (hright hboth).1 ⟨right, h⟩
    exact ⟨hmiddle, hlast, both, hboth⟩
  · rintro ⟨hmiddle, hlast, both, hboth⟩
    obtain ⟨right, h⟩ := (hright hboth).2 ⟨hmiddle, hlast⟩
    exact ⟨right, bind_ok.2 ⟨both, hboth, h⟩⟩

/-- **Regrouping merges.** Contexts of which nothing was received clash layer by layer exactly when
they do so with the last two merged before. Otherwise both ways lead to the same entries in the same
order, up to visibilities, and so to the same logs, and each field that the pre-merged way shows is
shown layer by layer, with the same value. -/
theorem regroup (hfirst : first.Local) (hmiddle : middle.Local) (hlast : last.Local) :
    ((∃ clash, layered first middle last = .error clash) ↔
      ∃ clash, premerged first middle last = .error clash) ∧
    ∀ left right, layered first middle last = .ok left → premerged first middle last = .ok right →
      left.unveiled = right.unveiled ∧ left.logValues = right.logValues ∧
      ∀ path value, right.ShowsField path value → left.ShowsField path value := by
  constructor
  · rw [exists_error_iff, exists_error_iff, exists_layered_iff hfirst hmiddle hlast,
      exists_premerged_iff hmiddle hlast hfirst]
  · intro left right hleft hright
    obtain ⟨firstTwo, hfirstTwo, hleft⟩ := bind_ok.1 hleft
    obtain ⟨lastTwo, hlastTwo, hright⟩ := bind_ok.1 hright
    have hleftWF := ((hfirst.addAll hmiddle hfirstTwo).addAll hlast hleft).wf
    have hrightWF := (hfirst.addAll (hmiddle.addAll hlast hlastTwo) hright).wf
    rw [addAll_eq_absorb] at hfirstTwo hleft hlastTwo hright
    have hdimmer := dimmer_regroup hfirst hmiddle hlast
      (fun entry hmem => (hlast.entries entry hmem).regroups) hfirstTwo hleft hlastTwo hright
    refine ⟨hdimmer.unveiled.symm, ?_, fun path value => ?_⟩
    · rw [← left.logValues_unveiled, ← right.logValues_unveiled, hdimmer.unveiled]
    · rw [showsField_iff hleftWF, showsField_iff hrightWF]
      exact hdimmer.exposes path value

/-- A restricted scope between two exposed ones. Merged with the last one before, it hides the email
that is shown layer by layer. -/
theorem scopes_regroup :
    let first : Context := [.dict "user" .exposed false [.exposedField "id" (.int 7)]]
    let middle : Context := [.dict "user" .restricted false [.exposedField "name" (.str "ada")]]
    let last : Context := [.dict "user" .exposed false [.exposedField "email" (.str "x@y")]]
    first.Local ∧ middle.Local ∧ last.Local ∧ ∃ left right,
      layered first middle last = .ok left ∧ premerged first middle last = .ok right ∧
      left.logValues = right.logValues ∧ left.ShowsField ["user", "id"] (.int 7) ∧
      left.ShowsField ["user", "email"] (.str "x@y") ∧
      (Json.obj right.publicValues).at? ["user", "email"] = none := by
  intro first middle last
  have hscope : ∀ visibility key value,
      Local [.dict "user" visibility false [.exposedField key value]] := by
    intro visibility key value
    refine ⟨List.pairwise_singleton _ _, List.forall_mem_singleton.2 (.of_children rfl ?_ ?_)⟩
    · exact List.pairwise_singleton _ _
    · exact List.forall_mem_singleton.2 (.of_leaf rfl rfl)
  have hfirst : first.Local := hscope ..
  have hmiddle : middle.Local := hscope ..
  have hlast : last.Local := hscope ..
  obtain ⟨-, h⟩ := regroup hfirst hmiddle hlast
  obtain ⟨-, hlogs, hshows⟩ := h _ _ rfl rfl
  refine ⟨hfirst, hmiddle, hlast, _, _, rfl, rfl, hlogs, hshows _ _ ⟨⟨_, rfl, rfl⟩, rfl⟩, ?_, rfl⟩
  exact ⟨⟨_, rfl, rfl⟩, rfl⟩

end Context

end Faults
