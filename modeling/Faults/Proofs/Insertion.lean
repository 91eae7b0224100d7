import Faults.Proofs.Clashes
import Faults.Proofs.Restoration

/-!
# Sets in order of insertion

A context is a set: however entries are inserted into it, it has one entry for each key, and the
keys stand in the order in which they came first. The same holds of the set in every dict. What has
been inserted there is what the dicts that arrived had in them, beginning with the one that is there
now: a received dict may have given way, or something received may have given way to a dict
(`Context.insertedAt`). Main statements:

* `Entry.WF.settles`: an arrival puts new keys behind those that are there, at every depth;
* `Context.Filled.tidy`: so does every operation on sets;
* `Context.Filled.represented`: what follows for the set at every path, its lookups and its logs.
-/

namespace Faults

open Entry (Arrives)

/-! ## Sets and what is inserted into them -/

/-- What is in a dict. -/
def Entry.set? : Entry → Option Context
  | dict _ _ _ children => some children
  | _ => none

namespace Context

/-- The set at a path: the context itself, or what is in the dict there. -/
def setAt? : Context → List String → Option Context
  | context, [] => some context
  | context, key :: path =>
    ((context.get? key).bind Entry.set?).bind fun set => setAt? set path

/-- What entries that are inserted in order put into the dict of a key. Where anything else takes
the place of the dict, nothing of this is left. -/
def insertedUnder (key : String) (inserted : List Entry) : Option (List Entry) :=
  inserted.foldl (fun given? entry =>
    if entry.key = key then entry.set?.map (given?.getD [] ++ ·) else given?) none

/-- What entries that are inserted in order put into the set at a path. -/
def insertedAt : List Entry → List String → Option (List Entry)
  | inserted, [] => some inserted
  | inserted, key :: path => (insertedUnder key inserted).bind fun given => insertedAt given path

/-- At every path there is a set exactly where something is inserted into one, and its keys stand in
the order in which they were inserted first. -/
def InOrder (inserted : List Entry) (context : Context) : Prop :=
  ∀ path, (context.setAt? path).map keys =
    (insertedAt inserted path).map fun given => (keys given).eraseDups

theorem insertedUnder_concat (key : String) (inserted : List Entry) (entry : Entry) :
    insertedUnder key (inserted ++ [entry]) =
      if entry.key = key then entry.set?.map ((insertedUnder key inserted).getD [] ++ ·)
      else insertedUnder key inserted := by
  rw [insertedUnder, List.foldl_concat, ← insertedUnder]

theorem inOrder_iff {inserted : List Entry} {context : Context} :
    InOrder inserted context ↔ context.keys = (keys inserted).eraseDups ∧ ∀ key,
      Option.Rel InOrder (insertedUnder key inserted) ((context.get? key).bind Entry.set?) := by
  constructor
  · refine fun h => ⟨Option.some.inj (h []), fun key => ?_⟩
    have hpaths : ∀ path, _ := fun path => h (key :: path)
    simp only [setAt?, insertedAt] at hpaths
    generalize insertedUnder key inserted = given? at hpaths
    generalize (context.get? key).bind Entry.set? = set? at hpaths
    cases given? with
    | none =>
      cases set? with
      | none => exact .none
      | some set => cases hpaths []
    | some given =>
      cases set? with
      | none => cases hpaths []
      | some set => exact .some hpaths
  · rintro ⟨hkeys, hinner⟩ path
    cases path with
    | nil => exact congrArg some hkeys
    | cons key path =>
      have hrel := hinner key
      rw [setAt?, insertedAt]
      generalize insertedUnder key inserted = given? at hrel ⊢
      generalize (context.get? key).bind Entry.set? = set? at hrel ⊢
      cases hrel with
      | none => rfl
      | some h => exact h path

theorem inOrder_nil : InOrder [] [] :=
  inOrder_iff.2 ⟨rfl, fun _ => .none⟩

/-! ## Arrivals keep the order -/

theorem eraseDups_concat (inserted : List String) (key : String) :
    (inserted ++ [key]).eraseDups =
      inserted.eraseDups ++ [key].filter fun key => key ∉ inserted.eraseDups := by
  rw [List.eraseDups_append]
  by_cases h : key ∈ inserted
  · simp [List.removeAll, h]
  · simp [List.removeAll, h, List.eraseDups_cons]

end Context

/-- Wherever the entry arrives, the set that it leaves in a dict there is in order. -/
def Entry.Settles (incoming : Entry) : Prop :=
  ∀ (outer : Visibility) (place : Option Entry) (result : Entry) (given? : Option (List Entry)),
    Option.Rel Context.InOrder given? (place.bind set?) → Arrives outer place incoming result →
    Option.Rel Context.InOrder (incoming.set?.map (given?.getD [] ++ ·)) result.set?

namespace Context

variable {inserted : List Entry} {context final : Context}

theorem InOrder.put (h : InOrder inserted context) {outer : Visibility} {incoming result : Entry}
    (hsettles : incoming.Settles)
    (harrives : Arrives outer (context.get? incoming.key) incoming result) :
    InOrder (inserted ++ [incoming]) (context.put result) := by
  obtain ⟨hkeys, hinner⟩ := inOrder_iff.1 h
  have hresult : result.key = incoming.key := harrives.key_eq fun _ => key_of_get?
  refine inOrder_iff.2 ⟨?_, fun key => ?_⟩
  · rw [keys_put, hresult, hkeys, keys.eq_def (inserted ++ _), List.map_append, List.map_singleton,
      eraseDups_concat]
    rfl
  · rw [insertedUnder_concat, get?_put, hresult]
    by_cases hkey : incoming.key = key
    · rw [if_pos hkey, if_pos hkey, Option.bind_some]
      subst hkey
      exact hsettles _ _ _ _ (hinner _) harrives
    · rw [if_neg hkey, if_neg hkey]
      exact hinner key

theorem InOrder.absorb {outer : Visibility} {entries : List Entry} (h : InOrder inserted context)
    (hsettles : ∀ entry ∈ entries, entry.Settles)
    (hok : context.absorb outer entries = .ok final) : InOrder (inserted ++ entries) final := by
  induction entries generalizing inserted context with
  | nil =>
    cases hok
    rwa [List.append_nil]
  | cons entry rest ih =>
    obtain ⟨hentry, hrest⟩ := List.forall_mem_cons.1 hsettles
    obtain ⟨result, harrives, hok⟩ := absorb_cons_ok.1 hok
    have hnext := ih (h.put hentry harrives) hrest hok
    rwa [List.append_assoc] at hnext

/-- A set with distinct keys is in order when its own entries are inserted one by one. -/
theorem inOrder_self {set : Context} (hkeys : set.keys.Nodup)
    (hsettles : ∀ entry ∈ set, entry.Settles) : InOrder set set := by
  have hok : ofList set = .ok set := ofList_eq_self hkeys
  rw [ofList, addAll_eq_absorb] at hok
  exact inOrder_nil.absorb hsettles hok

end Context

namespace Entry

theorem set?_capped (outer : Visibility) (entry : Entry) :
    (entry.capped outer).set? = entry.set? := by
  cases entry <;> rfl

theorem set?_eq_none_iff {entry : Entry} : entry.set? = none ↔ entry.variant ≠ .dict := by
  cases entry <;> simp [set?, variant]

theorem set?_of_dict {entry : Entry} (h : entry.variant = .dict) :
    entry.set? = some entry.children := by
  cases entry with
  | dict => rfl
  | _ => cases h

/-- An entry that finds no dict in its place brings its own set. -/
theorem settles_fresh {incoming : Entry} {given? : Option (List Entry)} (h : incoming.WF)
    (hchildren : ∀ child ∈ incoming.children, child.Settles)
    (hgiven : incoming.variant = .dict → given? = none) (outer : Visibility) :
    Option.Rel Context.InOrder (incoming.set?.map (given?.getD [] ++ ·))
      (incoming.capped outer).set? := by
  rw [set?_capped]
  by_cases hdict : incoming.variant = .dict
  · rw [hgiven hdict, set?_of_dict hdict]
    exact .some (Context.inOrder_self h.children.keys hchildren)
  · rw [set?_eq_none_iff.2 hdict]
    exact .none

theorem WF.settles {incoming : Entry} (h : incoming.WF) : incoming.Settles := by
  induction incoming with
  | step incoming ih =>
    have hchildren : ∀ child ∈ incoming.children, child.Settles := fun child hmem =>
      ih child hmem (h.children.entries child hmem)
    intro outer place result given? hplace harrives
    cases harrives with
    | fresh =>
      refine settles_fresh h hchildren (fun _ => ?_) outer
      cases hplace
      rfl
    | @replaced current _ hvariant _ =>
      refine settles_fresh h hchildren (fun hdict => ?_) outer
      have hleaf : current.set? = none := set?_eq_none_iff.2 fun hcurrent =>
        hvariant (hcurrent.trans hdict.symm)
      rw [Option.bind_some, hleaf] at hplace
      cases hplace
      rfl
    | field | stack | trail => exact .none
    | dict hmerged =>
      -- what the incoming dict has in it is inserted behind all that was put into the present one
      cases hplace with
      | some hpresent => exact .some (hpresent.absorb hchildren hmerged)

end Entry

namespace Context

variable {inserted : List Entry} {context final : Context}

/-- A well-formed set that is in order. -/
structure Tidy (inserted : List Entry) (context : Context) : Prop where
  inOrder : InOrder inserted context
  wf : context.WF

theorem Tidy.nil : Tidy [] [] := ⟨inOrder_nil, .nil⟩

theorem Tidy.absorb {outer : Visibility} {entries : List Entry} (h : Tidy inserted context)
    (hentries : ∀ entry ∈ entries, entry.WF) (hok : context.absorb outer entries = .ok final) :
    Tidy (inserted ++ entries) final :=
  ⟨h.inOrder.absorb (fun entry hmem => (hentries entry hmem).settles) hok,
    h.wf.absorb hentries hok⟩

theorem Tidy.addAll {entries : List Entry} (h : Tidy inserted context)
    (hentries : ∀ entry ∈ entries, entry.WF) (hok : context.addAll entries = .ok final) :
    Tidy (inserted ++ entries) final := by
  rw [addAll_eq_absorb] at hok
  exact h.absorb hentries hok

theorem Tidy.add {entry : Entry} (h : Tidy inserted context) (hentry : entry.WF)
    (hok : context.add entry = .ok final) : Tidy (inserted ++ [entry]) final := by
  rw [add_eq_addAll] at hok
  exact h.addAll (List.forall_mem_singleton.2 hentry) hok

theorem WF.tidy {set : Context} (h : set.WF) : Tidy set set :=
  ⟨inOrder_self h.keys fun entry hmem => (h.entries entry hmem).settles, h⟩

/-! ## Every operation on sets -/

/-- A set that operations lead to, and the entries that they have inserted into it, in order. It may
be a set of its own or the one in a dict. -/
inductive Filled : List Entry → Context → Prop where
  | empty : Filled [] []
  | ofList {entries : List Entry} {context : Context}
      (constructible : ∀ entry ∈ entries, entry.Constructible) (ok : ofList entries = .ok context) :
    Filled entries context
  | add {inserted : List Entry} {context final : Context} {entry : Entry}
      (h : Filled inserted context) (constructible : entry.Constructible)
      (ok : context.add entry = .ok final) : Filled (inserted ++ [entry]) final
  | addAll {inserted entries : List Entry} {context final : Context} (h : Filled inserted context)
      (constructible : ∀ entry ∈ entries, entry.Constructible)
      (ok : context.addAll entries = .ok final) : Filled (inserted ++ entries) final
  | merge {inserted inserted' : List Entry} {context other final : Context}
      (h : Filled inserted context) (hother : Filled inserted' other)
      (ok : context.addAll other = .ok final) : Filled (inserted ++ other) final
  | addChild {inserted : List Entry} {dict child result : Entry} (h : Filled inserted dict.children)
      (isDict : dict.variant = .dict) (constructible : child.Constructible)
      (ok : dict.addChild child = .ok result) : Filled (inserted ++ [child]) result.children
  | insert {inserted : List Entry} {current incoming result : Entry}
      (h : Filled inserted current.children) (same : current.variant = incoming.variant)
      (constructible : incoming.Constructible) (ok : current.insert incoming = .ok result) :
    Filled (inserted ++ incoming.children) result.children
  | decoded {registry : Registry} {report : Report} {failure : Failure} {events : List Event}
      {entries : List Entry} (restored : Report.restoreAll (report.details.getD []) = .ok entries)
      (ok : Report.decodeWith registry report = .ok (failure, events)) :
    Filled entries failure.entries
  /-- The set of a dict that is there already. -/
  | inside {entry : Entry} (constructible : entry.Constructible) :
    Filled entry.children entry.children

end Context

theorem Report.wf_of_restoreAll {members : Json.Members} {entries : List Entry}
    (h : restoreAll members = .ok entries) : ∀ entry ∈ entries, entry.WF := by
  obtain ⟨entries', hentries, hremote⟩ := restoreAll_remote members
  obtain rfl : entries = entries' := Except.ok.inj (h.symm.trans hentries)
  exact fun entry hmem => (hremote entry hmem).wf

theorem Entry.children_addChild {dict child result : Entry} (h : dict.variant = .dict)
    (ok : dict.addChild child = .ok result) : dict.children.add child = .ok result.children := by
  cases dict with
  | dict =>
    obtain ⟨children, hchildren, rfl⟩ := map_ok.1 ok
    exact hchildren
  | _ => cases h

/-- Merging two entries of one variant is merging what is in them. -/
theorem Entry.children_insert {current incoming result : Entry}
    (h : current.variant = incoming.variant) (ok : current.insert incoming = .ok result) :
    ∃ outer, current.children.absorb outer incoming.children = .ok result.children := by
  have harrives : Arrives .exposed (some current) incoming result := arrive_eq_ok_iff.1 ok
  cases harrives with
  | replaced hvariant => exact absurd h hvariant
  | field | stack | trail => exact ⟨.exposed, rfl⟩
  | dict hmerged => exact ⟨_, hmerged⟩

namespace Context

variable {inserted : List Entry} {context final : Context}

theorem Filled.tidy (h : Filled inserted context) : Tidy inserted context := by
  induction h with
  | empty => exact .nil
  | ofList constructible ok =>
    exact Tidy.nil.addAll (fun entry hmem => (constructible entry hmem).wf) ok
  | add _ constructible ok ih => exact ih.add constructible.wf ok
  | addAll _ constructible ok ih =>
    exact ih.addAll (fun entry hmem => (constructible entry hmem).wf) ok
  | merge _ _ ok ih ihOther => exact ih.addAll ihOther.wf.entries ok
  | addChild _ isDict constructible ok ih =>
    exact ih.add constructible.wf (Entry.children_addChild isDict ok)
  | insert _ same constructible ok ih =>
    obtain ⟨outer, hmerged⟩ := Entry.children_insert same ok
    exact ih.absorb constructible.wf.children.entries hmerged
  | decoded restored ok =>
    exact Tidy.nil.addAll (Report.wf_of_restoreAll restored)
      (Report.ofList_of_decodeWith restored ok)
  | inside constructible => exact constructible.wf.children.tidy

/-! ## What sets are good for -/

/-- Each key of the set is there once, the lookup of a key finds the only entry that has it, and the
logs have one member for each entry. -/
structure Faithful (set : Context) : Prop where
  keys : set.keys.Nodup
  get? : ∀ key, (set.get? key).toList = set.filter fun entry => entry.key = key
  logs : set.logValues.Perm (set.map fun entry => (entry.key, entry.logValue))
  length : set.logValues.length = set.length

theorem toList_get? {set : Context} (h : set.keys.Nodup) (key : String) :
    (set.get? key).toList = set.filter fun entry => entry.key = key := by
  induction set with
  | nil => rfl
  | cons head rest ih =>
    obtain ⟨hhead, hrest⟩ := List.nodup_cons.1 h
    rw [get?_cons]
    by_cases hkey : head.key = key
    · subst hkey
      rw [if_pos rfl, List.filter_cons_of_pos (by simp), ← ih hrest, get?_eq_none_iff.2 hhead]
      rfl
    · rw [if_neg hkey, List.filter_cons_of_neg (by simpa using hkey), ih hrest]

theorem faithful_of_nodup {set : Context} (h : set.keys.Nodup) : set.Faithful := by
  have hlogs : set.logValues.Perm (set.map fun entry => (entry.key, entry.logValue)) := by
    rw [← logPairs_eq_map]
    refine Json.Members.ofList_perm ?_
    rwa [keys_logPairs]
  exact ⟨h, toList_get? h, hlogs, hlogs.length_eq.trans (List.length_map _)⟩

theorem WF.setAt? (h : context.WF) {path : List String} {set : Context}
    (hset : context.setAt? path = some set) : set.WF := by
  induction path generalizing context with
  | nil =>
    cases hset
    exact h
  | cons key path ih =>
    obtain ⟨inner, hinner, hset⟩ := Option.bind_eq_some_iff.1 hset
    obtain ⟨entry, hentry, hinner⟩ := Option.bind_eq_some_iff.1 hinner
    cases entry with
    | dict =>
      cases hinner
      exact ih (h.get? hentry).children hset
    | _ => cases hinner

/-- **Sets keep what is inserted, in order.** Whatever operations lead to a set: in it and in every
dict within it, keys are distinct, a lookup finds the only entry of the key, and the logs lose
nothing. The keys stand there in the order in which they were first inserted. So no further
operation moves or renames one that is there. -/
theorem Filled.represented (h : Filled inserted context) :
    (∀ path set, context.setAt? path = some set → set.Faithful) ∧
    (∀ path, (context.setAt? path).map keys =
      (insertedAt inserted path).map fun given => (keys given).eraseDups) ∧
    ∀ more final, Filled (inserted ++ more) final → context.keys <+: final.keys := by
  obtain ⟨horder, hwf⟩ := h.tidy
  refine ⟨fun path set hset => faithful_of_nodup (hwf.setAt? hset).keys, horder, ?_⟩
  intro more final hfinal
  obtain ⟨hkeys, -⟩ := inOrder_iff.1 horder
  obtain ⟨hfinalKeys, -⟩ := inOrder_iff.1 hfinal.tidy.inOrder
  rw [hkeys, hfinalKeys, keys.eq_def (inserted ++ more), List.map_append, List.eraseDups_append]
  exact List.prefix_append _ _

/-- What is received of a user. -/
def receivedUser (id : Int) (name : String) : Context :=
  received [("user", .obj [("id", .int id), ("name", .str name)])]

theorem filled_receivedUser (id : Int) (name : String) :
    Filled (receivedUser id name) (receivedUser id name) := by
  let report : Report :=
    ⟨"no such user", "", some [("user", .obj [("id", .int id), ("name", .str name)])]⟩
  obtain ⟨failure, hdecode, hentries⟩ : ∃ failure,
      Report.decodeWith .empty report = .ok (failure, [Report.unknownKindEvent ""]) ∧
        failure.entries = receivedUser id name := ⟨_, rfl, rfl⟩
  have hfilled : Filled (receivedUser id name) failure.entries := .decoded rfl hdecode
  rwa [hentries] at hfilled

/-- A note goes behind a received user. A name takes the place of the user, then another received
user the place of the name, and a scope with a postcode is united with that one. -/
def guestSteps : List Entry :=
  receivedUser 7 "Bob" ++ [.exposedField "note" (.str "moved")] ++
    [.exposedField "user" (.str "Ann")] ++ receivedUser 8 "Ann" ++
    [.dict "user" .restricted false [.restrictedField "zip" (.str "12345")]]

def guest : Context :=
  [.dict "user" .exposed true [.field "id" (.int 8) .exposed true,
    .field "name" (.str "Ann") .exposed true, .restrictedField "zip" (.str "12345")],
    .exposedField "note" (.str "moved")]

theorem guest_represented : Filled guestSteps guest ∧ guest.keys = ["user", "note"] ∧
    (∃ set, guest.setAt? ["user"] = some set ∧ set.Faithful ∧ set.keys = ["id", "name", "zip"]) ∧
    ∀ more final, Filled (guestSteps ++ more) final → guest.keys <+: final.keys := by
  have hscope : (Entry.dict "user" .restricted false
      [.restrictedField "zip" (.str "12345")]).Constructible :=
    .scope (List.forall_mem_singleton.2 (.field ..)) rfl
  have hfilled : Filled guestSteps guest :=
    .add (.merge (.add (.add (filled_receivedUser 7 "Bob") (.field ..) rfl) (.field ..) rfl)
      (filled_receivedUser 8 "Ann") rfl) hscope rfl
  obtain ⟨hfaithful, horder, hprefix⟩ := hfilled.represented
  obtain ⟨set, hset, hkeys⟩ := Option.map_eq_some_iff.1 (horder ["user"])
  refine ⟨hfilled, rfl, ⟨set, hset, hfaithful _ _ hset, ?_⟩, hprefix⟩
  exact hkeys

end Context

end Faults
