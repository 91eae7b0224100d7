import Faults.Proofs.Insertion
import Faults.Proofs.Publication

/-!
# The public part of the log view

What a context shows outside is what it shows in the logs without some of the members: those of the
entries that are not shown (`Context.hidden`), wherever these stand. A member is never taken out of
the value of a field, though this may be an object like the ones that dicts are shown as. Main
statements:

* `Json.deleteAll?_under`: deleting below one key leaves the other members as they are;
* `Entry.deleteAll?_logValue`: what is left of the value that an entry has in the logs;
* `Context.not_shown_iff`: what stands in a context and is left out of the public view;
* `Context.Filled.shows_exactly`: which fields and dicts are shown, and when there are no details.
-/

namespace Faults

/-! ## Deleting members -/

namespace Json

namespace Members

/-- The members with what `f` makes of the value of a key, or without that member. -/
def alter (key : String) (f : Json → Option Json) : Members → Members
  | [] => []
  | (k, v) :: rest =>
    if k = key then
      match f v with
      | none => rest
      | some left => (k, left) :: rest
    else (k, v) :: alter key f rest

theorem keys_alter_sublist (key : String) (f : Json → Option Json) (members : Members) :
    (keys (members.alter key f)).Sublist (keys members) := by
  induction members with
  | nil => exact .slnil
  | cons member rest ih =>
    obtain ⟨k, v⟩ := member
    rw [alter]
    split
    · split
      · exact List.sublist_cons_self _ _
      · exact .refl _
    · exact ih.cons_cons _

theorem Sorted.alter {members : Members} (h : members.Sorted) (key : String)
    (f : Json → Option Json) : (members.alter key f).Sorted :=
  List.Pairwise.sublist (keys_alter_sublist key f members) h

/-- Altering changes the value of one key. -/
theorem get?_alter {members : Members} (h : members.Sorted) (key : String)
    (f : Json → Option Json) (other : String) :
    get? (members.alter key f) other =
      if other = key then (get? members key).bind f else get? members other := by
  induction members with
  | nil => rw [alter, get?_nil, get?_nil, Option.bind_none, ite_self]
  | cons member rest ih =>
    obtain ⟨k, v⟩ := member
    obtain ⟨hk, hrest⟩ := List.pairwise_cons.1 h
    rw [alter, get?_cons, get?_cons]
    by_cases hkey : k = key
    · subst hkey
      rw [if_pos rfl, if_pos rfl, Option.bind_some]
      cases hleft : f v with
      | none =>
        by_cases hother : other = k
        · rw [if_pos hother, hother]
          exact get?_eq_none_of_lt hk
        · rw [if_neg hother, if_neg hother]
      | some left =>
        rw [get?_cons]
        by_cases hother : other = k <;> simp only [hother, if_true, if_false]
    · rw [if_neg hkey, get?_cons, ih hrest, if_neg (Ne.symm hkey)]
      by_cases hother : other = k
      · rw [if_pos hother, if_pos hother, if_neg fun heq => hkey (hother.symm.trans heq)]
      · rw [if_neg hother, if_neg hother]

end Members

/-- The value without the member at a path. Of the empty path nothing is left. -/
def delete? : Json → List String → Option Json
  | _, [] => none
  | obj members, key :: path =>
    some (obj (Members.alter key (fun inner => inner.delete? path) members))
  | value, _ :: _ => some value

/-- The value without the members at the paths. -/
def deleteAll? (value : Json) (paths : List (List String)) : Option Json :=
  paths.foldlM delete? value

theorem deleteAll?_append (value : Json) (paths more : List (List String)) :
    value.deleteAll? (paths ++ more) =
      (value.deleteAll? paths).bind fun left => left.deleteAll? more :=
  List.foldlM_append

/-- Deleting below one key leaves the other members as they are. -/
theorem deleteAll?_under {members : Members} (h : members.Sorted) (key : String)
    (paths : List (List String)) :
    ∃ left : Members, (obj members).deleteAll? (paths.map (key :: ·)) = some (obj left) ∧
      left.Sorted ∧ ∀ other, left.get? other =
        if other = key then (members.get? key).bind fun inner => inner.deleteAll? paths
        else members.get? other := by
  induction paths generalizing members with
  | nil =>
    refine ⟨members, rfl, h, fun other => ?_⟩
    split
    · next hother => rw [hother]; exact (Option.bind_fun_some _).symm
    · rfl
  | cons path rest ih =>
    obtain ⟨left, hleft, hsorted, hget⟩ := ih (h.alter key fun inner => inner.delete? path)
    refine ⟨left, hleft, hsorted, fun other => ?_⟩
    rw [hget, Members.get?_alter h, Members.get?_alter h, if_pos rfl, Option.bind_assoc]
    split
    · rfl
    · rfl

end Json

/-! ## What is not shown -/

mutual

/-- The paths below an entry at which something is not shown, though all around it is. -/
def Entry.hidden : Entry → List (List String)
  | .dict key visibility received children =>
    match (Entry.dict key visibility received children).publicValue? with
    | none => [[]]
    | some _ => Context.hidden children
  | entry => if entry.publicValue?.isNone then [[]] else []

def Context.hidden : List Entry → List (List String)
  | [] => []
  | entry :: rest => entry.hidden.map (entry.key :: ·) ++ Context.hidden rest

end

theorem Entry.hidden_of_none {entry : Entry} (h : entry.publicValue? = none) :
    entry.hidden = [[]] := by
  cases entry <;> simp [hidden, h]

theorem Entry.hidden_of_some {entry : Entry} {value : Json} (h : entry.publicValue? = some value) :
    entry.hidden = Context.hidden entry.children := by
  cases entry <;> simp [hidden, h, children, Context.hidden]

theorem Context.hidden_eq_flatMap (context : Context) :
    hidden context = context.flatMap fun entry => entry.hidden.map (entry.key :: ·) := by
  induction context with
  | nil => rfl
  | cons entry rest ih => rw [hidden, ih, List.flatMap_cons]

theorem Context.exists_at?_of_hidden {context : Context} (hkeys : context.keys.Nodup)
    (hentries : ∀ entry ∈ context, ∀ path ∈ entry.hidden, ∃ node, entry.at? path = some node)
    {path : List String} (hpath : path ∈ hidden context) :
    ∃ node, context.at? path = some node := by
  rw [hidden_eq_flatMap] at hpath
  obtain ⟨entry, hmem, hpath⟩ := List.mem_flatMap.1 hpath
  obtain ⟨rest, hrest, rfl⟩ := List.mem_map.1 hpath
  obtain ⟨node, hnode⟩ := hentries entry hmem rest hrest
  exact ⟨node, by rw [at?, get?_of_mem hkeys hmem]; exact hnode⟩

/-- Each hidden path leads to an entry. -/
theorem Entry.exists_at?_of_hidden {entry : Entry} (h : entry.WF) {path : List String}
    (hpath : path ∈ entry.hidden) : ∃ node, entry.at? path = some node := by
  induction entry generalizing path with
  | step entry ih =>
    cases hvalue : entry.publicValue? with
    | none =>
      rw [hidden_of_none hvalue, List.mem_singleton] at hpath
      rw [hpath]
      exact ⟨entry, rfl⟩
    | some value =>
      rw [hidden_of_some hvalue] at hpath
      obtain ⟨node, hnode⟩ := Context.exists_at?_of_hidden h.children.keys
        (fun child hmem _ => ih child hmem (h.children.entries child hmem)) hpath
      cases path with
      | nil => cases hnode
      | cons key path => exact ⟨node, hnode⟩

/-! ## Deleting what is not shown -/

theorem Context.deleteAll?_hidden {entries : Context} (hkeys : entries.keys.Nodup)
    {members : Json.Members} (hsorted : members.Sorted) :
    ∃ left : Json.Members, (Json.obj members).deleteAll? (hidden entries) = some (.obj left) ∧
      left.Sorted ∧ ∀ key, left.get? key = (entries.get? key).elim (members.get? key) fun entry =>
        (members.get? key).bind fun inner => inner.deleteAll? entry.hidden := by
  induction entries generalizing members with
  | nil => exact ⟨members, rfl, hsorted, fun _ => rfl⟩
  | cons entry rest ih =>
    obtain ⟨hentry, hrest⟩ := List.nodup_cons.1 hkeys
    obtain ⟨next, hnext, hnextSorted, hnextGet⟩ :=
      Json.deleteAll?_under hsorted entry.key entry.hidden
    obtain ⟨left, hleft, hleftSorted, hget⟩ := ih hrest hnextSorted
    refine ⟨left, ?_, hleftSorted, fun key => ?_⟩
    · rw [hidden, Json.deleteAll?_append, hnext]
      exact hleft
    · -- what is deleted for one entry lies below its own key
      rw [hget, hnextGet, get?_cons]
      by_cases hkey : entry.key = key
      · subst hkey
        rw [get?_eq_none_iff.2 hentry, if_pos rfl, if_pos rfl]
        rfl
      · rw [if_neg (Ne.symm hkey), if_neg hkey]

theorem Context.deleteAll?_logValues {context : Context} (hkeys : context.keys.Nodup)
    (hentries : ∀ entry ∈ context, entry.logValue.deleteAll? entry.hidden = entry.publicValue?) :
    (Json.obj context.logValues).deleteAll? (hidden context) =
      some (.obj context.publicValues) := by
  obtain ⟨left, hleft, hsorted, hget⟩ := deleteAll?_hidden hkeys context.sorted_logValues
  have hpublic : Json.Members.Sorted context.publicValues := Json.Members.sorted_ofList _
  rw [hleft, Json.Members.ext_of_sorted hsorted hpublic]
  intro key
  rw [hget, get?_logValues hkeys, get?_publicValues hkeys]
  cases hentry : context.get? key with
  | none => rfl
  | some entry => exact hentries entry (mem_of_get? hentry)

/-- Of the value that an entry has in the logs, what is shown of it is left. -/
theorem Entry.deleteAll?_logValue {entry : Entry} (h : entry.WF) :
    entry.logValue.deleteAll? entry.hidden = entry.publicValue? := by
  induction entry with
  | step entry ih =>
    cases hvalue : entry.publicValue? with
    | none =>
      rw [hidden_of_none hvalue]
      rfl
    | some value =>
      rw [hidden_of_some hvalue]
      rcases publicValue?_eq_some hvalue with ⟨key, received, rfl⟩ |
        ⟨key, received, children, rfl, -, rfl⟩
      · rfl
      · rw [logValue_of_dict rfl]
        exact Context.deleteAll?_logValues h.children.keys fun child hmem =>
          ih child hmem (h.children.entries child hmem)

/-! ## Dicts in the public view -/

namespace Context

variable {context : Context}

theorem publicValue?_of_shown (hwf : context.WF) {path : List String} {node : Entry} {value : Json}
    (hnode : context.at? path = some node)
    (hat : (Json.obj context.publicValues).at? path = some value) :
    node.publicValue? = some value := by
  cases path with
  | nil => cases hnode
  | cons key path =>
    obtain ⟨entry, shown, hentry, hshown, hat⟩ := entry_of_shown hwf hat
    rw [Context.at?, hentry] at hnode
    exact (Entry.node_of_shown (hwf.get? hentry) hshown hnode hat).1

/-- Nothing is shown where an entry stands exactly when no field is exposed there or below. -/
theorem not_shown_iff (hwf : context.WF) {path : List String} {node : Entry}
    (hnode : context.at? path = some node) :
    (Json.obj context.publicValues).at? path = none ↔
      ¬ ∃ rest value, context.Exposes (path ++ rest) value := by
  constructor
  · rintro hnone ⟨rest, value, hexposes⟩
    obtain ⟨-, hshown⟩ := (showsField_iff hwf).2 hexposes
    rw [Json.at?_append, hnone] at hshown
    cases hshown
  · intro hnot
    have hpath : path ≠ [] := by
      rintro rfl
      cases hnode
    refine Option.eq_none_iff_forall_ne_some.2 fun value hat => ?_
    rcases exposes_towards hwf hpath hat with hexposes | ⟨hnone, -⟩
    · exact hnot hexposes
    · rw [hnode] at hnone
      cases hnone

theorem publicValues_eq_nil_iff_exposes (hwf : context.WF) :
    context.publicValues = [] ↔ ¬ ∃ path value, context.Exposes path value := by
  rw [publicValues_eq_nil_iff]
  constructor
  · rintro hnone ⟨path, value, entry, hmem, hexposes⟩
    obtain ⟨_, _, shown, -, -, -, hshown, -⟩ := hexposes.shown (hwf.entries entry hmem)
    rw [hnone entry hmem] at hshown
    cases hshown
  · intro hnot entry hmem
    refine Option.eq_none_iff_forall_ne_some.2 fun value hvalue => ?_
    obtain ⟨path, inner, hexposes⟩ := Entry.exposes_of_publicValue? hvalue
    exact hnot ⟨_, inner, entry, hmem, hexposes⟩

theorem details_eq_none_iff {failure : Failure} (hwf : failure.entries.WF) :
    failure.details = none ↔ ¬ ∃ path value, failure.entries.Exposes path value := by
  rw [← publicValues_eq_nil_iff_exposes hwf, Failure.details]
  split
  · next hnil => exact iff_of_true rfl hnil
  · next hne => exact iff_of_false (fun h => by cases h) hne

/-- **What is shown outside.** Whatever operations lead to a set, it shows the value of a field at a
path exactly when the field and all dicts around it are exposed. A dict is left out exactly when no
such field lies below it, and it is not empty where it is shown. The whole view is what the set
shows in the logs without some members, each of which stands for an entry, so nothing is taken out
of the values of fields. And a failure with these entries has no details exactly when there is no
such field. -/
theorem Filled.shows_exactly {inserted : List Entry} (h : Filled inserted context) :
    (∀ path value, context.ShowsField path value ↔ context.Exposes path value) ∧
    (∀ path node, context.at? path = some node → node.variant = .dict →
      ((Json.obj context.publicValues).at? path = none ↔
        ¬ ∃ rest value, context.Exposes (path ++ rest) value) ∧
      ∀ value, (Json.obj context.publicValues).at? path = some value →
        ∃ members, members ≠ [] ∧ value = .obj members) ∧
    (∃ paths, (∀ path ∈ paths, ∃ node, context.at? path = some node) ∧
      (Json.obj context.logValues).deleteAll? paths = some (.obj context.publicValues)) ∧
    ∀ failure : Failure, failure.entries = context →
      (failure.details = none ↔ ¬ ∃ path value, context.Exposes path value) := by
  have hwf : context.WF := h.tidy.wf
  refine ⟨fun path value => showsField_iff hwf, fun path node hnode hdict => ?_, ?_, ?_⟩
  · refine ⟨not_shown_iff hwf hnode, fun value hat => ?_⟩
    rcases Entry.publicValue?_eq_some (publicValue?_of_shown hwf hnode hat) with
      ⟨key, received, rfl⟩ | ⟨key, received, children, -, hne, rfl⟩
    · cases hdict
    · exact ⟨_, hne, rfl⟩
  · refine ⟨hidden context, fun path hpath => ?_, ?_⟩
    · exact exists_at?_of_hidden hwf.keys
        (fun entry hmem _ => Entry.exists_at?_of_hidden (hwf.entries entry hmem)) hpath
    · exact deleteAll?_logValues hwf.keys fun entry hmem =>
        Entry.deleteAll?_logValue (hwf.entries entry hmem)
  · rintro failure rfl
    exact details_eq_none_iff hwf

/-- An order with an object in which one is empty, a dict whose only field is restricted, and a
restricted dict with an exposed field. -/
def order : Context :=
  [.dict "order" .exposed false
    [.exposedField "basket" (.obj [("coupons", .obj [])]),
      .dict "payment" .exposed false [.restrictedField "iban" (.str "DE02")],
      .dict "staff" .restricted false [.exposedField "till" (.int 4)]]]

theorem order_shows_exactly : Filled order order ∧
    order.publicValues = [("order", .obj [("basket", .obj [("coupons", .obj [])])])] ∧
    order.ShowsField ["order", "basket"] (.obj [("coupons", .obj [])]) ∧
    (¬ ∃ rest value, order.Exposes (["order", "payment"] ++ rest) value) ∧
    (∃ paths, (∀ path ∈ paths, ∃ node, order.at? path = some node) ∧
      (Json.obj order.logValues).deleteAll? paths = some (.obj order.publicValues)) ∧
    ∀ failure : Failure, failure.entries = order → failure.details ≠ none := by
  have hfield (key value visibility) : (Entry.field key value visibility false).Constructible :=
    .field ..
  have hpayment : (Entry.dict "payment" .exposed false
      [.restrictedField "iban" (.str "DE02")]).Constructible :=
    .scope (List.forall_mem_singleton.2 (hfield "iban" (.str "DE02") .restricted)) rfl
  have hstaff : (Entry.dict "staff" .restricted false
      [.exposedField "till" (.int 4)]).Constructible :=
    .scope (List.forall_mem_singleton.2 (hfield "till" (.int 4) .exposed)) rfl
  have hparts : ∀ entry ∈ order, entry.Constructible :=
    List.forall_mem_singleton.2 (.scope (List.forall_mem_cons.2
      ⟨hfield "basket" (.obj [("coupons", .obj [])]) .exposed,
        List.forall_mem_cons.2 ⟨hpayment, List.forall_mem_singleton.2 hstaff⟩⟩) rfl)
  have hfilled : Filled order order := .ofList hparts rfl
  have hbasket : order.Exposes ["order", "basket"] (.obj [("coupons", .obj [])]) :=
    ⟨_, List.mem_cons_self, .dict List.mem_cons_self .field⟩
  obtain ⟨hfields, hdicts, hdeleted, hdetails⟩ := hfilled.shows_exactly
  obtain ⟨habsent, -⟩ := hdicts ["order", "payment"] _ rfl rfl
  refine ⟨hfilled, rfl, (hfields _ _).2 hbasket, habsent.1 rfl, hdeleted, ?_⟩
  intro failure hfailure hnone
  exact (hdetails failure hfailure).1 hnone ⟨_, _, hbasket⟩

end Context

end Faults
