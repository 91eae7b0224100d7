import Faults.Entry.Build
import Faults.Proofs.Keywise
import Faults.Proofs.Regrouping
import Faults.Proofs.Restoration

/-!
# System scopes side by side

A system scope is a restricted dict with one restricted dict in it, whose key tells who made the
scope. Scopes that meet are united under their keys, so in the logs there is one member for each key
that occurs, and of what it shows nothing comes from a scope with another key. The dicts are
restricted, and so is what arrives below them: no field of a scope is published, not even where a
received dict with the same key stands already. Main statements:

* `Context.absorb_dicts`: dicts of one key that arrive one after the other;
* `Context.addAll_ofList`: local entries that arrive as they were put together, or one by one;
* `Entry.within_of_exposes`: an entry that exposes no more shows no more;
* `Run.scopes_apart`: what a run shows of the system scopes it is given.
-/

namespace Faults

open Entry (systemKey)

/-! ## Merges up to visibilities -/

namespace Context

theorem absorb_append {outer : Visibility} {context final : Context} {entries more : List Entry} :
    context.absorb outer (entries ++ more) = .ok final ↔
      ∃ merged, context.absorb outer entries = .ok merged ∧ merged.absorb outer more = .ok final := by
  induction entries generalizing context with
  | nil =>
    refine ⟨fun h => ⟨context, rfl, h⟩, ?_⟩
    rintro ⟨merged, hmerged, h⟩
    cases hmerged
    exact h
  | cons entry rest ih =>
    rw [List.cons_append, absorb_cons_ok]
    simp only [ih, absorb_cons_ok]
    constructor
    · rintro ⟨result, harrives, merged, hmerged, h⟩
      exact ⟨merged, ⟨result, harrives, hmerged⟩, h⟩
    · rintro ⟨merged, ⟨result, harrives, hmerged⟩, h⟩
      exact ⟨result, harrives, merged, hmerged, h⟩

variable {context context' final : Context}

/-- A merge takes contexts that differ in visibilities to such contexts, wherever it happens. -/
theorem absorb_of_unveiled {outer : Visibility} (outer' : Visibility)
    (h : context.unveiled = context'.unveiled) {entries : List Entry}
    (hfinal : context.absorb outer entries = .ok final) :
    ∃ final', context'.absorb outer' entries = .ok final' ∧ final'.unveiled = final.unveiled := by
  have hunveiled := context'.unveiled_absorb outer' entries
  rw [← h, ← context.unveiled_absorb outer, hfinal] at hunveiled
  rw [← bind_pure_comp] at hunveiled
  exact map_ok.1 hunveiled

/-- Restricted dicts that arrive where one of their key stands: what is in them arrives in that
one. -/
theorem absorb_dicts_onto {outer : Visibility} {key : String} {present : Context}
    {sets : List Context}
    (h : Context.absorb outer [.dict key .restricted false present]
      (sets.map (.dict key .restricted false ·)) = .ok final) :
    ∃ merged, present.absorb .restricted sets.flatten = .ok merged ∧
      final = [.dict key .restricted false merged] := by
  induction sets generalizing present with
  | nil =>
    cases h
    exact ⟨present, rfl, rfl⟩
  | cons set rest ih =>
    obtain ⟨result, harrives, h⟩ := absorb_cons_ok.1 h
    have hplace : get? [.dict key .restricted false present] key =
        some (.dict key .restricted false present) := by
      rw [get?_cons, Entry.key, if_pos rfl]
    rw [Entry.key, hplace] at harrives
    obtain ⟨both, hboth, rfl⟩ := harrives.of_dict
    rw [Visibility.under_restricted] at hboth
    rw [put, Entry.key, Entry.key, if_pos rfl] at h
    obtain ⟨merged, hmerged, rfl⟩ := ih h
    exact ⟨merged, absorb_append.2 ⟨both, hboth, hmerged⟩, rfl⟩

/-- Restricted dicts of one key, one after the other. -/
theorem absorb_dicts {outer : Visibility} {key : String} {first : Context} {rest : List Context}
    (h : Context.absorb outer [] ((first :: rest).map (.dict key .restricted false ·)) = .ok final) :
    ∃ merged, first.absorb .restricted rest.flatten = .ok merged ∧
      final = [.dict key .restricted false merged] := by
  obtain ⟨result, harrives, h⟩ := absorb_cons_ok.1 h
  obtain rfl := harrives.unique .fresh
  rw [Entry.capped, Entry.visibility, Visibility.under_restricted] at h
  exact absorb_dicts_onto h

/-! ## Entries one by one -/

/-- Local entries that were put together before could as well arrive one by one. -/
theorem addAll_ofList {entries : List Entry} {set : Context} (hcontext : context.Local)
    (hentries : ∀ entry ∈ entries, entry.Local) (hset : ofList entries = .ok set)
    (h : context.addAll set = .ok final) :
    ∃ final', context.addAll entries = .ok final' ∧ final'.unveiled = final.unveiled := by
  induction entries using List.reverseRecOn generalizing set final with
  | nil =>
    cases hset
    exact ⟨final, h, rfl⟩
  | append_singleton front last ih =>
    obtain ⟨hfront, hlast⟩ := List.forall_mem_append.1 hentries
    rw [ofList, addAll_append] at hset
    obtain ⟨set', hset', hset⟩ := bind_ok.1 hset
    have hsetLocal : Local set' := ⟨(uniform_ofList hfront hset').1, (uniform_ofList hfront hset').2⟩
    have hlastLocal : Local [last] := ⟨List.pairwise_singleton _ _, hlast⟩
    have hpremerged : premerged context set' [last] = .ok final := bind_ok.2 ⟨set, hset, h⟩
    -- layer by layer the entry that was put in last arrives last
    obtain ⟨left, hleft⟩ := (exists_layered_iff hcontext hsetLocal hlastLocal).2
      ((exists_premerged_iff hsetLocal hlastLocal hcontext).1 ⟨final, hpremerged⟩)
    obtain ⟨before, hbefore, hleft⟩ := bind_ok.1 hleft
    obtain ⟨before', hbefore', hunveiled⟩ := ih hfront hset' hbefore
    rw [addAll_eq_absorb] at hset h hbefore hleft
    have hdimmer := dimmer_regroup hcontext hsetLocal hlastLocal
      (fun entry hmem => (hlastLocal.entries entry hmem).regroups) hbefore hleft hset h
    obtain ⟨final', hfinal', hfinal⟩ := absorb_of_unveiled .exposed hunveiled.symm hleft
    refine ⟨final', ?_, hfinal.trans hdimmer.unveiled.symm⟩
    rw [addAll_append]
    refine bind_ok.2 ⟨before', hbefore', ?_⟩
    rwa [addAll_eq_absorb]

end Context

/-! ## Values within others -/

/-- What the value has at a path the whole has there as well, objects with perhaps more members. -/
def Json.Within (part whole : Json) : Prop :=
  ∀ path value, part.at? path = some value → ∃ value', whole.at? path = some value' ∧
    (value' = value ∨ ∃ members members', value = .obj members ∧ value' = .obj members')

/-- Two values with the same at a path are equal, or both are objects. -/
theorem Json.eq_or_obj_of_at? {value value' inner : Json} {path : List String}
    (h : value.at? path = some inner) (h' : value'.at? path = some inner) :
    value' = value ∨ ∃ members members', value = .obj members ∧ value' = .obj members' := by
  cases path with
  | nil => exact .inl (Option.some.inj (h'.trans h.symm))
  | cons key path =>
    cases value with
    | obj members =>
      cases value' with
      | obj members' => exact .inr ⟨members, members', rfl, rfl⟩
      | _ => cases h'
    | _ => cases h

/-- What an entry exposes is shown of it at the path. -/
theorem Entry.Exposes.at?_shown {entry : Entry} (hwf : entry.WF) {shown value : Json}
    (hshown : entry.publicValue? = some shown) {path : List String}
    (h : entry.Exposes (entry.key :: path) value) : shown.at? path = some value := by
  obtain ⟨rest, node, shown', hpath, -, -, hshown', hat⟩ := h.shown hwf
  obtain rfl := (List.cons.inj hpath).2
  obtain rfl := Option.some.inj (hshown.symm.trans hshown')
  exact hat

/-- An entry that exposes nothing but what another one exposes shows nothing but what that one
shows. -/
theorem Entry.within_of_exposes {entry other : Entry} (hwf : entry.WF) (hother : other.WF)
    (hkey : entry.key = other.key)
    (hexposes : ∀ path value, entry.Exposes path value → other.Exposes path value) {shown : Json}
    (hshown : entry.publicValue? = some shown) :
    ∃ before, other.publicValue? = some before ∧ shown.Within before := by
  obtain ⟨rest, inner, hinner⟩ := exposes_of_publicValue? hshown
  obtain ⟨-, -, before, -, -, -, hbefore, -⟩ := (hexposes _ _ hinner).shown hother
  refine ⟨before, hbefore, fun path value hat => ?_⟩
  have hthere : ∀ {path value}, entry.Exposes (entry.key :: path) value →
      shown.at? path = some value ∧ before.at? path = some value := by
    intro path value h
    refine ⟨h.at?_shown hwf hshown, ?_⟩
    have h := hexposes _ _ h
    rw [hkey] at h
    exact h.at?_shown hother hbefore
  rcases exposes_towards hwf hshown hat with ⟨rest, inner, h⟩ |
    ⟨-, front, rest, inner, rfl, h, hvalue⟩
  · obtain ⟨hafter, hbefore⟩ := hthere h
    rw [Json.at?_append] at hafter hbefore
    rw [hat, Option.bind_some] at hafter
    obtain ⟨value', hvalue', hbefore⟩ := Option.bind_eq_some_iff.1 hbefore
    exact ⟨value', hvalue', Json.eq_or_obj_of_at? hafter hbefore⟩
  · refine ⟨value, ?_, .inl rfl⟩
    rw [Json.at?_append, (hthere h).2, Option.bind_some, hvalue]

/-! ## Scopes -/

/-- A system scope, and where and of what it is made. -/
structure SystemScope where
  site : CallSite
  entries : List Entry
  entry : Entry
  made : Entry.systemScope site entries = .ok entry

namespace SystemScope

/-- What tells the scope from those of other functions. -/
def key (scope : SystemScope) : String := scope.site.caller.scopeKey

/-- What stands in the scope under its key. -/
def content (scope : SystemScope) : Context := scope.entry.children.flatMap Entry.children

/-- The dict that is the scope's own. -/
def own (scope : SystemScope) : Entry := .dict scope.key .restricted false scope.content

theorem made_ok (scope : SystemScope) : Context.ofList scope.entries = .ok scope.content ∧
    scope.entry = .dict systemKey .restricted false [scope.own] := by
  obtain ⟨own, hown, hentry⟩ := bind_ok.1 scope.made
  obtain ⟨set, hset, rfl⟩ := map_ok.1 hown
  obtain ⟨context, hcontext, hentry⟩ := map_ok.1 hentry
  obtain rfl : [_] = context := Except.ok.inj hcontext
  have hcontent : scope.content = set := by
    rw [content, ← hentry]
    exact List.append_nil set
  rw [own, hcontent]
  exact ⟨hset, hentry.symm⟩

theorem nodup_keys_content (scope : SystemScope) : scope.content.keys.Nodup := by
  have hmade := scope.made_ok.1
  rw [Context.ofList, Context.addAll_eq_absorb] at hmade
  exact Context.nodup_keys_absorb Context.WF.nil.keys hmade

theorem local_content {scope : SystemScope} (h : ∀ entry ∈ scope.entries, entry.Local) :
    scope.content.Local :=
  ⟨scope.nodup_keys_content, (Context.uniform_ofList h scope.made_ok.1).2⟩

theorem wf_content {scope : SystemScope} (h : ∀ entry ∈ scope.entries, entry.WF) :
    scope.content.WF :=
  Context.WF.nil.addAll h scope.made_ok.1

theorem wf_entry {scope : SystemScope} (h : ∀ entry ∈ scope.entries, entry.WF) :
    scope.entry.WF := by
  rw [scope.made_ok.2]
  have hown : scope.own.WF := Entry.wf_of_children (wf_content h)
  exact Entry.wf_of_children ⟨List.pairwise_singleton _ _, List.forall_mem_singleton.2 hown⟩

/-- A scope exposes nothing. -/
theorem not_exposes (scope : SystemScope) {path : List String} {value : Json} :
    ¬ scope.entry.Exposes path value := by
  rw [scope.made_ok.2]
  intro h
  cases h

/-- The scopes of a key. -/
def withKey (scopes : List SystemScope) (key : String) : List SystemScope :=
  scopes.filter fun scope => scope.key = key

theorem withKey_eq_nil_iff {scopes : List SystemScope} {key : String} :
    withKey scopes key = [] ↔ ¬ ∃ scope ∈ scopes, scope.key = key := by
  simp [withKey, List.filter_eq_nil_iff]

theorem under_map_own (scopes : List SystemScope) (key : String) :
    Context.under (scopes.map own) key = ((withKey scopes key).map content).map
      (.dict key .restricted false ·) := by
  rw [Context.under, List.filter_map, List.map_map]
  refine List.map_congr_left fun scope hmem => ?_
  have hkey : scope.key = key := of_decide_eq_true (List.mem_filter.1 hmem).2
  rw [own, hkey]
  rfl

/-- Scopes that meet nothing else are united under one dict. -/
theorem absorb_entries {first : SystemScope} {rest : List SystemScope} {final : Context}
    (h : Context.absorb .exposed [] ((first :: rest).map entry) = .ok final) :
    ∃ merged, Context.absorb .restricted [] ((first :: rest).map own) = .ok merged ∧
      final = [.dict systemKey .restricted false merged] := by
  have hentries : (first :: rest).map entry = ((first :: rest).map fun scope => [scope.own]).map
      (.dict systemKey .restricted false ·) := by
    rw [List.map_map]
    exact List.map_congr_left fun scope _ => scope.made_ok.2
  rw [hentries] at h
  obtain ⟨merged, hmerged, rfl⟩ := Context.absorb_dicts h
  rw [← List.flatMap_def, ← List.map_eq_flatMap] at hmerged
  refine ⟨merged, Context.absorb_cons_ok.2 ⟨first.own, .fresh, hmerged⟩, rfl⟩

/-- What the scopes of one key are united to: up to visibilities, what stands in them one after the
other. -/
theorem absorb_contents {first : SystemScope} {rest : List SystemScope} {united : Context}
    (h : first.content.absorb .restricted (rest.flatMap content) = .ok united) :
    ∃ merged, Context.ofList ((first :: rest).flatMap content) = .ok merged ∧
      merged.unveiled = united.unveiled := by
  obtain ⟨merged, hmerged, hunveiled⟩ := Context.absorb_of_unveiled .exposed rfl h
  refine ⟨merged, ?_, hunveiled⟩
  rw [List.flatMap_cons, Context.ofList, Context.addAll_append]
  refine bind_ok.2 ⟨first.content, Context.ofList_eq_self first.nodup_keys_content, ?_⟩
  rwa [Context.addAll_eq_absorb]

/-- Scopes of local entries: their entries could as well arrive one by one. -/
theorem addAll_contents {scopes : List SystemScope} {context final : Context}
    (hcontext : context.Local)
    (hscopes : ∀ scope ∈ scopes, ∀ entry ∈ scope.entries, entry.Local)
    (h : context.addAll (scopes.flatMap content) = .ok final) :
    ∃ final', context.addAll (scopes.flatMap entries) = .ok final' ∧
      final'.unveiled = final.unveiled := by
  induction scopes generalizing context with
  | nil => exact ⟨final, h, rfl⟩
  | cons scope rest ih =>
    obtain ⟨hscope, hrest⟩ := List.forall_mem_cons.1 hscopes
    rw [List.flatMap_cons, Context.addAll_append] at h
    obtain ⟨next, hnext, h⟩ := bind_ok.1 h
    obtain ⟨next', hnext', hunveiled⟩ := Context.addAll_ofList hcontext hscope scope.made_ok.1 hnext
    obtain ⟨last, hlast, hlastUnveiled⟩ := ih (hcontext.addAll (local_content hscope) hnext) hrest h
    rw [Context.addAll_eq_absorb] at hlast
    obtain ⟨final', hfinal', hfinal⟩ := Context.absorb_of_unveiled .exposed hunveiled.symm hlast
    refine ⟨final', ?_, hfinal.trans hlastUnveiled⟩
    rw [List.flatMap_cons, Context.addAll_append]
    refine bind_ok.2 ⟨next', hnext', ?_⟩
    rwa [Context.addAll_eq_absorb]

end SystemScope

/-! ## What the logs show of scopes -/

open SystemScope (withKey)

/-- The logs show the scopes as members of one object, one for each key, that hold what the scopes of
that key say and nothing else; outside nothing is shown. -/
structure Context.KeepsApart (context : Context) (scopes : List SystemScope)
    (members : Json.Members) : Prop where
  shown : Json.Members.get? context.logValues systemKey =
    if scopes = [] then none else some (.obj members)
  sorted : members.Sorted
  keys : ∀ key, key ∈ members.keys ↔ ∃ scope ∈ scopes, scope.key = key
  /-- What stands in the scopes is merged in order. -/
  merged : ∀ key value, members.get? key = some value →
    ∃ merged, ofList ((withKey scopes key).flatMap SystemScope.content) = .ok merged ∧
      value = .obj merged.logValues
  /-- What the scopes are made of is merged in order, where nothing of it was received. -/
  gathered : ∀ key value, members.get? key = some value →
    (∀ scope ∈ withKey scopes key, ∀ entry ∈ scope.entries, entry.Local) →
    ∃ merged, ofList ((withKey scopes key).flatMap SystemScope.entries) = .ok merged ∧
      value = .obj merged.logValues
  hidden : Json.Members.get? context.publicValues systemKey = none

namespace SystemScope

variable {scopes : List SystemScope} {merged : Context}

/-- What united scopes show under a key. -/
theorem get?_logValues (h : Context.absorb .restricted [] (scopes.map own) = .ok merged)
    (key : String) :
    (withKey scopes key = [] ∧ Json.Members.get? merged.logValues key = none) ∨
      (withKey scopes key ≠ [] ∧ ∃ united set : Context,
        Json.Members.get? merged.logValues key = some (.obj united.logValues) ∧
        Context.ofList ((withKey scopes key).flatMap content) = .ok set ∧
        set.unveiled = united.unveiled) := by
  have hkeys : merged.keys.Nodup := Context.nodup_keys_absorb Context.WF.nil.keys h
  replace h := Context.absorb_under h key
  rw [under_map_own] at h
  rw [Context.get?_logValues hkeys, ← Context.get?_under]
  cases hscopes : withKey scopes key with
  | nil =>
    rw [hscopes] at h
    rw [← Except.ok.inj h]
    exact .inl ⟨rfl, rfl⟩
  | cons first rest =>
    rw [hscopes] at h
    obtain ⟨united, hunited, hunder⟩ := Context.absorb_dicts h
    rw [← List.flatMap_def] at hunited
    obtain ⟨set, hset, hunveiled⟩ := absorb_contents hunited
    rw [hunder, Context.get?_cons, Entry.key, if_pos rfl, Option.map_some, Entry.logValue]
    exact .inr ⟨List.cons_ne_nil _ _, united, set, rfl, hset, hunveiled⟩

theorem mem_keys_logValues (h : Context.absorb .restricted [] (scopes.map own) = .ok merged)
    (key : String) :
    key ∈ Json.Members.keys merged.logValues ↔ ∃ scope ∈ scopes, scope.key = key := by
  rw [← not_iff_not, ← Json.Members.get?_eq_none_iff, ← withKey_eq_nil_iff]
  rcases get?_logValues h key with ⟨hnil, hnone⟩ | ⟨hne, united, set, hsome, -⟩
  · exact iff_of_true hnone hnil
  · rw [hsome]
    exact iff_of_false (Option.some_ne_none _) hne

/-- A member of what united scopes show is what is merged of the scopes of its key. -/
theorem exists_set_of_get? (h : Context.absorb .restricted [] (scopes.map own) = .ok merged)
    {key : String} {value : Json} (hvalue : Json.Members.get? merged.logValues key = some value) :
    ∃ set, Context.ofList ((withKey scopes key).flatMap content) = .ok set ∧
      value = .obj set.logValues := by
  rcases get?_logValues h key with ⟨-, hnone⟩ | ⟨-, united, set, hsome, hset, hunveiled⟩
  · rw [hnone] at hvalue
    cases hvalue
  · rw [hsome] at hvalue
    obtain rfl := Option.some.inj hvalue
    refine ⟨set, hset, ?_⟩
    rw [← set.logValues_unveiled, hunveiled, united.logValues_unveiled]

/-- So are, where nothing was received, the entries that the scopes of its key are made of. -/
theorem exists_gathered {set : Context} {key : String}
    (hlocal : ∀ scope ∈ withKey scopes key, ∀ entry ∈ scope.entries, entry.Local)
    (hset : Context.ofList ((withKey scopes key).flatMap content) = .ok set) :
    ∃ gathered, Context.ofList ((withKey scopes key).flatMap entries) = .ok gathered ∧
      gathered.logValues = set.logValues := by
  have hnil : Context.Local [] := ⟨Context.WF.nil.keys, fun _ h => by cases h⟩
  obtain ⟨gathered, hgathered, hunveiled⟩ := addAll_contents hnil hlocal hset
  refine ⟨gathered, hgathered, ?_⟩
  rw [← gathered.logValues_unveiled, hunveiled, set.logValues_unveiled]

end SystemScope

/-- Scopes that meet nothing else under their key are shown apart. -/
theorem Context.exists_keepsApart {context : Context} {scopes : List SystemScope}
    (h : absorb .exposed [] (scopes.map SystemScope.entry) = .ok (context.under systemKey)) :
    ∃ members, context.KeepsApart scopes members := by
  cases scopes with
  | nil =>
    have hunder : context.under systemKey = [] := (Except.ok.inj h).symm
    have hlogs := context.get?_logValues_under systemKey
    have hpublic := context.get?_publicValues_under systemKey
    rw [hunder] at hlogs hpublic
    exact ⟨[], {
      shown := hlogs.symm
      sorted := List.Pairwise.nil
      keys := by simp [Json.Members.keys]
      merged := fun _ _ h => by cases h
      gathered := fun _ _ h => by cases h
      hidden := hpublic.symm }⟩
  | cons first rest =>
    obtain ⟨merged, hmerged, hunder⟩ := SystemScope.absorb_entries h
    have hlogs := context.get?_logValues_under systemKey
    have hpublic := context.get?_publicValues_under systemKey
    rw [hunder] at hlogs hpublic
    have hkeys : keys [.dict systemKey .restricted false merged] |>.Nodup :=
      List.pairwise_singleton _ _
    rw [get?_logValues hkeys, get?_cons, Entry.key, if_pos rfl, Option.map_some,
      Entry.logValue] at hlogs
    exact ⟨merged.logValues, {
      shown := by
        rw [← hlogs, if_neg (List.cons_ne_nil _ _)]
        rfl
      sorted := merged.sorted_logValues
      keys := SystemScope.mem_keys_logValues hmerged
      merged := fun _ _ => SystemScope.exists_set_of_get? hmerged
      gathered := fun key value hvalue hlocal => by
        obtain ⟨set, hset, rfl⟩ := SystemScope.exists_set_of_get? hmerged hvalue
        obtain ⟨gathered, hgathered, hlogs⟩ := SystemScope.exists_gathered hlocal hset
        exact ⟨gathered, hgathered, by rw [hlogs]⟩
      hidden := hpublic.symm }⟩

/-! ## What is shown outside -/

theorem Context.WF.under {context : Context} (h : context.WF) (key : String) :
    (context.under key).WF :=
  ⟨h.keys.sublist (List.filter_sublist.map _), fun entry hmem =>
    h.entries entry (List.mem_filter.1 hmem).1⟩

theorem Context.get?_of_mem_under {context : Context} (h : context.WF) {key : String} {entry : Entry}
    (hmem : entry ∈ context.under key) : context.get? key = some entry := by
  obtain ⟨hentry, hkey⟩ := List.mem_filter.1 hmem
  obtain rfl := of_decide_eq_true hkey
  exact get?_of_mem h.keys hentry

section Published

variable {base context : Context} {scopes : List SystemScope}

/-- Scopes expose nothing, so what is exposed under their key was so before. -/
theorem Context.exposes_of_scopes (hbase : base.WF)
    (h : absorb .exposed (base.under systemKey) (scopes.map SystemScope.entry) =
      .ok (context.under systemKey)) {entry : Entry} (hentry : entry ∈ context.under systemKey)
    {path : List String} {value : Json} (hexposes : entry.Exposes path value) :
    ∃ other, base.get? systemKey = some other ∧ other.Exposes path value := by
  rw [← addAll_eq_absorb] at h
  rcases Exposes.of_addAll h ⟨entry, hentry, hexposes⟩ with
    ⟨other, hother, hexposes⟩ | ⟨other, hother, hexposes⟩
  · exact ⟨other, get?_of_mem_under hbase hother, hexposes⟩
  · obtain ⟨scope, -, rfl⟩ := List.mem_map.1 hother
    exact absurd hexposes scope.not_exposes

/-- Scopes publish nothing, whatever stands under their key. -/
theorem Context.exists_within_of_scopes (hbase : base.WF)
    (hscopes : ∀ scope ∈ scopes, ∀ entry ∈ scope.entries, entry.WF)
    (h : absorb .exposed (base.under systemKey) (scopes.map SystemScope.entry) =
      .ok (context.under systemKey)) {shown : Json}
    (hshown : Json.Members.get? context.publicValues systemKey = some shown) :
    ∃ before, Json.Members.get? base.publicValues systemKey = some before ∧
      shown.Within before := by
  have hentries : ∀ entry ∈ scopes.map SystemScope.entry, entry.WF := by
    rintro _ hmem
    obtain ⟨scope, hscope, rfl⟩ := List.mem_map.1 hmem
    exact SystemScope.wf_entry (hscopes scope hscope)
  have hwf : (context.under systemKey).WF := (hbase.under systemKey).absorb hentries h
  rw [← get?_publicValues_under, get?_publicValues hwf.keys] at hshown
  obtain ⟨entry, hentry, hshown⟩ := Option.bind_eq_some_iff.1 hshown
  obtain ⟨rest, inner, hinner⟩ := Entry.exposes_of_publicValue? hshown
  obtain ⟨other, hother, -⟩ := exposes_of_scopes hbase h (mem_of_get? hentry) hinner
  have hexposes : ∀ path value, entry.Exposes path value → other.Exposes path value := by
    intro path value hexposes
    obtain ⟨other', hother', hexposes⟩ :=
      exposes_of_scopes hbase h (mem_of_get? hentry) hexposes
    obtain rfl := Option.some.inj (hother.symm.trans hother')
    exact hexposes
  have hkey : entry.key = other.key := (key_of_get? hentry).trans (key_of_get? hother).symm
  obtain ⟨before, hvalue, hwithin⟩ :=
    Entry.within_of_exposes (hwf.get? hentry) (hbase.get? hother) hkey hexposes hshown
  refine ⟨before, ?_, hwithin⟩
  rw [get?_publicValues hbase.keys, hother]
  exact hvalue

end Published

theorem Failure.getD_details (failure : Failure) :
    failure.details.getD [] = failure.entries.publicValues := by
  rw [details]
  split
  · next hnil => rw [hnil, Option.getD_none]
  · rw [Option.getD_some]

namespace Run

theorem absorb_under {run : Run} {failure : Failure} (h : run.result = .ok failure) (key : String) :
    (run.origin.base.under key).absorb .exposed (Context.under run.given key) =
      .ok (failure.entries.under key) := by
  refine Context.absorb_under ?_ key
  rw [← Context.addAll_eq_absorb, ← run.entries_result, h]
  rfl

/-- **System scopes are kept apart.** Where a run is given system scopes and nothing else under their
key, the logs show one member for each key of a scope, and in it what the scopes of that key say and
nothing else. Outside nothing of it is shown: what the details have under the key of the scopes they
had there before, with the same values, and what they have under other keys does not depend on the
scopes. -/
theorem scopes_apart (run : Run) (scopes : List SystemScope) (failure : Failure)
    (hgiven : Context.under run.given systemKey = scopes.map SystemScope.entry)
    (hresult : run.result = .ok failure) :
    (run.origin.base.under systemKey = [] →
      ∃ members, failure.entries.KeepsApart scopes members) ∧
    (run.origin.base.WF → (∀ scope ∈ scopes, ∀ entry ∈ scope.entries, entry.WF) →
      ∀ shown, Json.Members.get? (failure.details.getD []) systemKey = some shown →
        ∃ before, Json.Members.get? run.origin.base.publicValues systemKey = some before ∧
          shown.Within before) ∧
    (∀ (other : Run) (failure' : Failure), other.result = .ok failure' →
      (∀ key, key ≠ systemKey → other.origin.base.under key = run.origin.base.under key ∧
        Context.under other.given key = Context.under run.given key) →
      ∀ key, key ≠ systemKey → Json.Members.get? (failure'.details.getD []) key =
        Json.Members.get? (failure.details.getD []) key) := by
  have hsystem := absorb_under hresult systemKey
  rw [hgiven] at hsystem
  refine ⟨fun hbase => ?_, fun hbase hscopes shown hshown => ?_,
    fun other failure' hresult' halike key hkey => ?_⟩
  · rw [hbase] at hsystem
    exact Context.exists_keepsApart hsystem
  · rw [failure.getD_details] at hshown
    exact Context.exists_within_of_scopes hbase hscopes hsystem hshown
  · have hunder := absorb_under hresult' key
    rw [(halike key hkey).1, (halike key hkey).2, absorb_under hresult key] at hunder
    rw [failure'.getD_details, failure.getD_details, ← Context.get?_publicValues_under,
      ← Except.ok.inj hunder, Context.get?_publicValues_under]

end Run

/-- A scope with a single field. -/
def SystemScope.ofField (site : CallSite) (key : String) (value : Json) : SystemScope where
  site
  entries := [.exposedField key value]
  entry := .dict systemKey .restricted false
    [.dict site.caller.scopeKey .restricted false [.exposedField key value]]
  made := rfl

namespace Run

/-- Scopes of a function and of a caller that is not known, with fields of the same name. -/
def transferScopes : List SystemScope :=
  let debit : CallSite := ⟨⟨"bank.rs", 9⟩, ⟨[[⟨some "bank::debit", none, none⟩]], []⟩⟩
  let unknown : CallSite := ⟨⟨"bank.rs", 27⟩, ⟨[], []⟩⟩
  [.ofField debit "account" (.int 7), .ofField unknown "account" (.int 8),
    .ofField debit "amount" (.int 30)]

/-- The scopes attached where a failed transfer is raised and wrapped. -/
def transfer (origin : Origin) : Run where
  origin
  steps := transferScopes.map fun scope => .wrap scope.site none "transfer failed" [scope.entry]

/-- What another process reports of a transfer, under the keys of the scopes as well. -/
def reportedTransfer : Report where
  message := "transfer failed"
  kind := "NotFoundError"
  details := some [("system", .obj [("bank::debit", .obj [("account", .int 1), ("owner", .int 5)])])]

/-- On a failure without scopes the logs keep the fields apart. On the one of a report the details
lose a field that a scope has as well. -/
theorem transfer_scopes_apart :
    (∃ failure members, (transfer (.raw .notFoundError "no account" [])).result = .ok failure ∧
      failure.entries.KeepsApart transferScopes members ∧
      members = [("bank.rs:27", .obj [("account", .int 8)]),
        ("bank::debit", .obj [("account", .int 7), ("amount", .int 30)])]) ∧
    ∃ decoded events failure before,
      Report.decodeWith .empty reportedTransfer = .ok (decoded, events) ∧
      (transfer (.existing decoded)).result = .ok failure ∧
      failure.details = some [("system", .obj [("bank::debit", .obj [("owner", .int 5)])])] ∧
      Json.Members.get? decoded.entries.publicValues systemKey = some before ∧
      (Json.obj [("bank::debit", .obj [("owner", .int 5)])]).Within before := by
  have hscope : ∀ site key value,
      ∀ entry ∈ (SystemScope.ofField site key value).entries, entry.WF :=
    fun _ _ _ => List.forall_mem_singleton.2 (Entry.wf_of_leaf rfl)
  have hscopes : ∀ scope ∈ transferScopes, ∀ entry ∈ scope.entries, entry.WF :=
    List.forall_mem_cons.2 ⟨hscope _ _ _, List.forall_mem_cons.2
      ⟨hscope _ _ _, List.forall_mem_singleton.2 (hscope _ _ _)⟩⟩
  constructor
  · obtain ⟨failure, hresult⟩ :
        ∃ failure, (transfer (.raw .notFoundError "no account" [])).result = .ok failure := ⟨_, rfl⟩
    obtain ⟨members, hmembers⟩ := (scopes_apart _ transferScopes failure rfl hresult).1 rfl
    refine ⟨failure, members, hresult, hmembers, ?_⟩
    have hshown := hmembers.shown
    cases hresult
    exact (Json.obj.inj (Option.some.inj hshown)).symm
  · obtain ⟨decoded, events, hdecode, hkeys, hremote⟩ :=
      Report.decodeWith_remote .empty reportedTransfer
    have hwf : decoded.entries.WF := ⟨hkeys, fun entry hmem => (hremote entry hmem).wf⟩
    obtain ⟨failure, hresult, hdetails⟩ : ∃ failure,
        (transfer (.existing decoded)).result = .ok failure ∧ failure.details =
          some [("system", .obj [("bank::debit", .obj [("owner", .int 5)])])] := by
      cases hdecode
      exact ⟨_, rfl, rfl⟩
    obtain ⟨before, hbefore, hwithin⟩ := (scopes_apart _ transferScopes failure rfl hresult).2.1
      hwf hscopes _ (by rw [hdetails]; rfl)
    exact ⟨decoded, events, failure, before, hdecode, hresult, hdetails, hbefore, hwithin⟩

end Run

end Faults
