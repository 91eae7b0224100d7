import Faults.Failure.Basic
import Faults.Proofs.Arrival
import Faults.Proofs.Views

/-!
# Merging never publishes

What a context shows outside is decided by the entries that were put into it: an exposed field below
exposed dicts only (`Entry.Exposes`). An arrival adds nothing to that (`Arrives.exposes`), because
what arrives below something restricted is capped and because a dict that is there keeps its own
visibility. `Assembly` is every way to put entries into a context, and the main statement
`Assembly.published` says of each that what is shown in the end was exposed by one of the entries,
at the same path.
-/

namespace Faults

/-! ## What an entry exposes -/

/-- The entry has an exposed field of that value at the path, and the dicts around it are exposed. -/
inductive Entry.Exposes : Entry → List String → Json → Prop where
  | field {key : String} {value : Json} {received : Bool} :
    Exposes (.field key value .exposed received) [key] value
  | dict {key : String} {received : Bool} {children : List Entry} {child : Entry}
      {path : List String} {value : Json} (mem : child ∈ children) (h : Exposes child path value) :
    Exposes (.dict key .exposed received children) (key :: path) value

/-- The entry has something exposed at the path, and the dicts around it are exposed. -/
inductive Entry.ExposedAt : Entry → List String → Prop where
  | self {entry : Entry} (h : entry.visibility = .exposed) : ExposedAt entry [entry.key]
  | dict {key : String} {received : Bool} {children : List Entry} {child : Entry}
      {path : List String} (mem : child ∈ children) (h : ExposedAt child path) :
    ExposedAt (.dict key .exposed received children) (key :: path)

namespace Entry

/-- A path that leads on to an exposed field is exposed itself. -/
theorem Exposes.exposedAt {entry : Entry} {path rest : List String} {value : Json}
    (h : entry.Exposes (path ++ rest) value) (hpath : path ≠ []) : entry.ExposedAt path := by
  generalize hall : path ++ rest = all at h
  induction h generalizing path with
  | @field key value received =>
    obtain ⟨rfl, rfl⟩ : path = [key] ∧ rest = [] := by
      rcases List.append_eq_singleton_iff.1 hall with ⟨h, _⟩ | h
      · exact absurd h hpath
      · exact h
    have hself : (Entry.field key value .exposed received).visibility = .exposed := rfl
    exact .self hself
  | @dict key received children child tail value mem h ih =>
    cases path with
    | nil => exact absurd rfl hpath
    | cons head path =>
      obtain ⟨rfl, htail⟩ := List.cons.inj hall
      cases path with
      | nil =>
        have hself : (Entry.dict head .exposed received children).visibility = .exposed := rfl
        exact .self hself
      | cons next path => exact .dict mem (ih (List.cons_ne_nil _ _) htail)

theorem Exposes.of_capped {outer : Visibility} {entry : Entry} {path : List String} {value : Json}
    (h : (entry.capped outer).Exposes path value) : outer = .exposed ∧ entry.Exposes path value := by
  cases outer with
  | exposed =>
    rw [capped_exposed] at h
    exact ⟨rfl, h⟩
  | restricted =>
    rw [capped_restricted] at h
    cases entry <;> cases h

end Entry

/-! ## Merging -/

theorem Visibility.under_eq_exposed {outer inner : Visibility}
    (h : outer.under inner = .exposed) : outer = .exposed ∧ inner = .exposed := by
  cases outer with
  | exposed => exact ⟨rfl, h⟩
  | restricted => cases h

/-- One of the entries exposes the value at the path. -/
def Context.Exposes (context : Context) (path : List String) (value : Json) : Prop :=
  ∃ entry ∈ context, entry.Exposes path value

open Entry (Arrives)

/-- A merge exposes nothing but what was there or arrives exposed, given that each single arrival
does. -/
theorem Context.Exposes.of_absorb_of {outer : Visibility} {context final : Context}
    {entries : List Entry} {path : List String} {value : Json}
    (h : context.absorb outer entries = .ok final)
    (harrive : ∀ incoming ∈ entries, ∀ place result, Arrives outer place incoming result →
      (∀ current, place = some current → current.key = incoming.key) → result.Exposes path value →
      (∃ current, place = some current ∧ current.Exposes path value) ∨
        (outer = .exposed ∧ incoming.Exposes path value))
    (hfinal : final.Exposes path value) :
    context.Exposes path value ∨ (outer = .exposed ∧ Context.Exposes entries path value) := by
  refine absorb_induct (motive := fun now => now.Exposes path value → context.Exposes path value ∨
    (outer = .exposed ∧ Context.Exposes entries path value)) h .inl ?_ hfinal
  rintro now incoming result hmem hnow harrives ⟨entry, hentry, hexposes⟩
  rcases mem_put hentry with rfl | hentry
  · rcases harrive incoming hmem _ _ harrives (fun _ => key_of_get?) hexposes with
      ⟨current, hcurrent, hexposes⟩ | ⟨houter, hexposes⟩
    · exact hnow ⟨current, mem_of_get? hcurrent, hexposes⟩
    · exact .inr ⟨houter, incoming, hmem, hexposes⟩
  · exact hnow ⟨entry, hentry, hexposes⟩

/-- An arrival exposes nothing but what stood there or arrives exposed. -/
theorem Entry.Arrives.exposes {outer : Visibility} {place : Option Entry} {incoming result : Entry}
    (h : Arrives outer place incoming result)
    (hkey : ∀ current, place = some current → current.key = incoming.key) {path : List String}
    {value : Json} (hresult : result.Exposes path value) :
    (∃ current, place = some current ∧ current.Exposes path value) ∨
      (outer = .exposed ∧ incoming.Exposes path value) := by
  induction incoming generalizing outer place result path with
  | step incoming ih =>
    cases h with
    | fresh => exact .inr hresult.of_capped
    | replaced => exact .inr hresult.of_capped
    | @field _ _ _ _ k v s r =>
      have hcapped : ((Entry.field k v s r).capped outer).Exposes path value := hresult
      exact .inr hcapped.of_capped
    | stack => cases hresult
    | trail => cases hresult
    | @dict k s r present k' s' r' children merged h =>
      have hk : k = k' := hkey _ rfl
      subst hk
      cases hresult with
      | @dict _ _ _ child path _ hmem hchild =>
        have hunion := Context.Exposes.of_absorb_of h
          (fun child hmem _ _ harrives hkey => ih child hmem harrives hkey) ⟨child, hmem, hchild⟩
        rcases hunion with ⟨child, hmem, hchild⟩ | ⟨houter, child, hmem, hchild⟩
        · exact .inl ⟨_, rfl, .dict hmem hchild⟩
        · obtain ⟨rfl, rfl⟩ := Visibility.under_eq_exposed houter
          exact .inr ⟨rfl, .dict hmem hchild⟩

theorem Context.Exposes.of_addAll {context final : Context} {entries : List Entry}
    {path : List String} {value : Json} (h : context.addAll entries = .ok final)
    (hfinal : final.Exposes path value) :
    context.Exposes path value ∨ Context.Exposes entries path value := by
  rw [addAll_eq_absorb] at h
  exact (of_absorb_of h (fun _ _ _ _ harrives hkey => harrives.exposes hkey) hfinal).imp_right
    And.right

theorem Context.exposes_append {entries more : Context} {path : List String} {value : Json} :
    Context.Exposes (entries ++ more) path value ↔
      entries.Exposes path value ∨ more.Exposes path value := by
  unfold Exposes
  simp only [List.mem_append, or_and_right, exists_or]

/-! ## What is shown -/

/-- Nothing is shown of an entry that exposes nothing. -/
theorem Entry.exposes_of_publicValue? {entry : Entry} {value : Json}
    (h : entry.publicValue? = some value) :
    ∃ path inner, entry.Exposes (entry.key :: path) inner := by
  induction entry generalizing value with
  | step entry ih =>
    rcases publicValue?_eq_some h with ⟨key, received, rfl⟩ | ⟨key, received, children, rfl, hne, _⟩
    · exact ⟨[], value, .field⟩
    · obtain ⟨child, hmem, inner, hinner⟩ : ∃ child ∈ children, ∃ inner,
          child.publicValue? = some inner := by
        by_contra hnone
        simp only [not_exists, not_and] at hnone
        exact hne (Context.publicValues_eq_nil_iff.2 fun child hmem =>
          Option.eq_none_iff_forall_ne_some.2 (hnone child hmem))
      obtain ⟨path, value, hexposes⟩ := ih child hmem hinner
      exact ⟨_, value, .dict hmem hexposes⟩

/-- The child that a path into a shown entry leads through, and what is shown of it. -/
theorem Entry.child_of_shown {entry : Entry} (hwf : entry.WF) {shown value : Json}
    (h : entry.publicValue? = some shown) {key : String} {path : List String}
    (hat : shown.at? (key :: path) = some value) :
    (∃ key received, entry = .field key shown .exposed received) ∨
      ∃ parent received children child inner, entry = .dict parent .exposed received children ∧
        Context.get? children key = some child ∧ child.publicValue? = some inner ∧
        inner.at? path = some value := by
  rcases publicValue?_eq_some h with hfield | ⟨parent, received, children, rfl, _, rfl⟩
  · exact .inl hfield
  · have hkeys : (Context.keys children).Nodup := hwf.children.keys
    rw [Json.at?, Context.get?_publicValues hkeys] at hat
    obtain ⟨inner, hinner, hat⟩ := Option.bind_eq_some_iff.1 hat
    obtain ⟨child, hchild, hinner⟩ := Option.bind_eq_some_iff.1 hinner
    exact .inr ⟨parent, received, children, child, inner, rfl, hchild, hinner, hat⟩

/-- What is shown where a node stands is what is shown of the node, and what the node exposes the
entry exposes there. -/
theorem Entry.node_of_shown {entry : Entry} (hwf : entry.WF) {shown value : Json}
    (h : entry.publicValue? = some shown) {path : List String} {node : Entry}
    (hnode : entry.at? path = some node) (hat : shown.at? path = some value) :
    node.publicValue? = some value ∧ ∀ rest inner, node.Exposes (node.key :: rest) inner →
      entry.Exposes (entry.key :: (path ++ rest)) inner := by
  induction path generalizing entry shown with
  | nil =>
    cases hnode
    cases hat
    exact ⟨h, fun _ _ hexposes => hexposes⟩
  | cons key path ih =>
    rcases child_of_shown hwf h hat with ⟨parent, received, rfl⟩ |
      ⟨parent, received, children, child, inner, rfl, hchild, hinner, hinnerAt⟩
    · cases hnode
    · obtain ⟨child', hchild', hnode⟩ := Option.bind_eq_some_iff.1 hnode
      obtain rfl : child = child' := Option.some.inj (hchild.symm.trans hchild')
      obtain ⟨hvalue, hbelow⟩ := ih (hwf.children.get? hchild') hinner hnode hinnerAt
      refine ⟨hvalue, fun rest inner hexposes => ?_⟩
      have hchildExposes := hbelow rest inner hexposes
      rw [Context.key_of_get? hchild] at hchildExposes
      exact .dict (Context.mem_of_get? hchild) hchildExposes

/-- What is shown where a field stands is what the field exposes. -/
theorem Entry.exposes_of_shown {entry : Entry} (hwf : entry.WF) {shown value : Json}
    (h : entry.publicValue? = some shown) {path : List String} {node : Entry}
    (hnode : entry.at? path = some node) (hfield : node.variant = .field)
    (hat : shown.at? path = some value) : entry.Exposes (entry.key :: path) value := by
  obtain ⟨hvalue, hbelow⟩ := node_of_shown hwf h hnode hat
  rcases publicValue?_eq_some hvalue with ⟨key, received, rfl⟩ | ⟨key, received, children, rfl, _⟩
  · have hexposes := hbelow [] value .field
    rwa [List.append_nil] at hexposes
  · cases hfield

/-- A path into what is shown leads towards an exposed field, or into the value of one. -/
theorem Entry.exposes_towards {entry : Entry} (hwf : entry.WF) {shown value : Json}
    (h : entry.publicValue? = some shown) {path : List String} (hat : shown.at? path = some value) :
    (∃ rest inner, entry.Exposes (entry.key :: (path ++ rest)) inner) ∨
      (entry.at? path = none ∧ ∃ front rest inner, path = front ++ rest ∧
        entry.Exposes (entry.key :: front) inner ∧ inner.at? rest = some value) := by
  induction path generalizing entry shown with
  | nil => exact .inl (exposes_of_publicValue? h)
  | cons key path ih =>
    rcases child_of_shown hwf h hat with ⟨parent, received, rfl⟩ |
      ⟨parent, received, children, child, inner, rfl, hchild, hinner, hinnerAt⟩
    · exact .inr ⟨rfl, [], key :: path, shown, rfl, .field, hat⟩
    · have hmem := Context.mem_of_get? hchild
      have hkey := Context.key_of_get? hchild
      have hget : (Entry.dict parent .exposed received children).children.get? key = some child :=
        hchild
      rcases ih (hwf.children.get? hget) hinner hinnerAt with ⟨rest, value, hexposes⟩ |
        ⟨hnone, front, rest, value, rfl, hexposes, hvalue⟩
      · rw [hkey] at hexposes
        exact .inl ⟨rest, value, .dict hmem hexposes⟩
      · rw [hkey] at hexposes
        refine .inr ⟨?_, key :: front, rest, value, rfl, .dict hmem hexposes, hvalue⟩
        rw [Entry.at?, hget]
        exact hnone

/-- The context shows the value of a field that stands at the path. -/
def Context.ShowsField (context : Context) (path : List String) (value : Json) : Prop :=
  (∃ node, context.at? path = some node ∧ node.variant = .field) ∧
    (Json.obj context.publicValues).at? path = some value

/-- The entry that a path into what a context shows begins with, and what is shown of it. -/
theorem Context.entry_of_shown {context : Context} (hwf : context.WF) {key : String}
    {path : List String} {value : Json}
    (hat : (Json.obj context.publicValues).at? (key :: path) = some value) :
    ∃ entry shown, context.get? key = some entry ∧ entry.publicValue? = some shown ∧
      shown.at? path = some value := by
  rw [Json.at?, get?_publicValues hwf.keys] at hat
  obtain ⟨shown, hshown, hat⟩ := Option.bind_eq_some_iff.1 hat
  obtain ⟨entry, hentry, hshown⟩ := Option.bind_eq_some_iff.1 hshown
  exact ⟨entry, shown, hentry, hshown, hat⟩

theorem Context.ShowsField.exposes {context : Context} (hwf : context.WF) {path : List String}
    {value : Json} (h : context.ShowsField path value) : context.Exposes path value := by
  obtain ⟨⟨node, hnode, hfield⟩, hat⟩ := h
  cases path with
  | nil => cases hnode
  | cons key path =>
    obtain ⟨entry, shown, hentry, hshown, hat⟩ := entry_of_shown hwf hat
    rw [Context.at?, hentry] at hnode
    have hexposes := Entry.exposes_of_shown (hwf.get? hentry) hshown hnode hfield hat
    rw [key_of_get? hentry] at hexposes
    exact ⟨entry, mem_of_get? hentry, hexposes⟩

/-- What an entry exposes is shown of it, where the field stands. -/
theorem Entry.Exposes.shown {entry : Entry} {path : List String} {value : Json}
    (h : entry.Exposes path value) (hwf : entry.WF) :
    ∃ rest node shown, path = entry.key :: rest ∧ entry.at? rest = some node ∧
      node.variant = .field ∧ entry.publicValue? = some shown ∧ shown.at? rest = some value := by
  induction h with
  | field => exact ⟨[], _, _, rfl, rfl, rfl, rfl, rfl⟩
  | @dict key received children child path value hmem _ ih =>
    have hchildren : Context.WF children := hwf.children
    obtain ⟨rest, node, shown, rfl, hnode, hfield, hshown, hat⟩ := ih (hchildren.entries child hmem)
    have hget := Context.get?_of_mem hchildren.keys hmem
    have hmember : Json.Members.get? (Context.publicValues children) child.key = some shown := by
      rw [Context.get?_publicValues hchildren.keys, hget]
      exact hshown
    refine ⟨_, node, .obj (Context.publicValues children), rfl, ?_, hfield, ?_, ?_⟩
    · change (Context.get? children child.key).bind _ = _
      rw [hget]
      exact hnode
    · rw [publicValue?, ← Context.publicValues]
      split
      · next hnil =>
        rw [hnil] at hmember
        cases hmember
      · rfl
    · rw [Json.at?, hmember]
      exact hat

/-- The field values that a context shows are those that its entries expose. -/
theorem Context.showsField_iff {context : Context} (hwf : context.WF) {path : List String}
    {value : Json} : context.ShowsField path value ↔ context.Exposes path value := by
  refine ⟨fun h => h.exposes hwf, fun ⟨entry, hmem, hexposes⟩ => ?_⟩
  obtain ⟨rest, node, shown, rfl, hnode, hfield, hshown, hat⟩ :=
    hexposes.shown (hwf.entries entry hmem)
  have hget := get?_of_mem hwf.keys hmem
  refine ⟨⟨node, ?_, hfield⟩, ?_⟩
  · rw [Context.at?, hget]
    exact hnode
  · rw [Json.at?, get?_publicValues hwf.keys, hget, Option.bind_some, hshown]
    exact hat

theorem Context.exposes_towards {context : Context} (hwf : context.WF) {path : List String}
    (hpath : path ≠ []) {value : Json}
    (hat : (Json.obj context.publicValues).at? path = some value) :
    (∃ rest inner, context.Exposes (path ++ rest) inner) ∨
      (context.at? path = none ∧ ∃ front rest inner, path = front ++ rest ∧
        context.Exposes front inner ∧ inner.at? rest = some value) := by
  cases path with
  | nil => exact absurd rfl hpath
  | cons key path =>
    obtain ⟨entry, shown, hentry, hshown, hat⟩ := entry_of_shown hwf hat
    have hmem := mem_of_get? hentry
    have hkey := key_of_get? hentry
    rcases Entry.exposes_towards (hwf.get? hentry) hshown hat with ⟨rest, inner, hexposes⟩ |
      ⟨hnone, front, rest, inner, rfl, hexposes, hinner⟩
    · rw [hkey] at hexposes
      exact .inl ⟨rest, inner, entry, hmem, hexposes⟩
    · rw [hkey] at hexposes
      refine .inr ⟨?_, key :: front, rest, inner, rfl, ⟨entry, hmem, hexposes⟩, hinner⟩
      rw [Context.at?, hentry]
      exact hnone

/-! ## Every way to put entries together -/

/-- A way to put entries into a context: one by one, in batches, or as contexts that were put
together before. -/
inductive Assembly where
  | empty
  | add (set : Assembly) (entry : Entry)
  | addAll (set : Assembly) (entries : List Entry)
  | ofList (entries : List Entry)
  | merge (set other : Assembly)

namespace Assembly

/-- The context that is put together. -/
def build : Assembly → Except Clash Context
  | empty => .ok []
  | add set entry => do (← set.build).add entry
  | addAll set entries => do (← set.build).addAll entries
  | ofList entries => Context.ofList entries
  | merge set other => do
    let context ← set.build
    context.addAll (← other.build)

/-- All entries that are put in. -/
def entries : Assembly → List Entry
  | empty => []
  | add set entry => set.entries ++ [entry]
  | addAll set entries => set.entries ++ entries
  | ofList entries => entries
  | merge set other => set.entries ++ other.entries

/-- What is exposed in the end was exposed by one of the entries. -/
theorem exposes_of_build {assembly : Assembly} {context : Context}
    (h : assembly.build = .ok context) {path : List String} {value : Json}
    (hexposes : context.Exposes path value) : Context.Exposes assembly.entries path value := by
  induction assembly generalizing context with
  | empty =>
    cases h
    exact hexposes
  | add set entry ih =>
    obtain ⟨before, hbefore, h⟩ := bind_ok.1 h
    rw [Context.add_eq_addAll] at h
    exact Context.exposes_append.2 ((Context.Exposes.of_addAll h hexposes).imp_left (ih hbefore))
  | addAll set entries ih =>
    obtain ⟨before, hbefore, h⟩ := bind_ok.1 h
    exact Context.exposes_append.2 ((Context.Exposes.of_addAll h hexposes).imp_left (ih hbefore))
  | ofList entries =>
    rcases Context.Exposes.of_addAll h hexposes with ⟨entry, hmem, _⟩ | h
    · cases hmem
    · exact h
  | merge set other ih ihOther =>
    obtain ⟨before, hbefore, h⟩ := bind_ok.1 h
    obtain ⟨merged, hmerged, h⟩ := bind_ok.1 h
    exact Context.exposes_append.2
      ((Context.Exposes.of_addAll h hexposes).imp (ih hbefore) (ihOther hmerged))

theorem wf_of_build {assembly : Assembly} {context : Context} (h : assembly.build = .ok context)
    (hentries : ∀ entry ∈ assembly.entries, entry.WF) : context.WF := by
  induction assembly generalizing context with
  | empty =>
    cases h
    exact .nil
  | add set entry ih =>
    obtain ⟨before, hbefore, h⟩ := bind_ok.1 h
    rw [Context.add_eq_addAll] at h
    obtain ⟨hset, hentry⟩ := List.forall_mem_append.1 hentries
    exact (ih hbefore hset).addAll hentry h
  | addAll set entries ih =>
    obtain ⟨before, hbefore, h⟩ := bind_ok.1 h
    obtain ⟨hset, hmore⟩ := List.forall_mem_append.1 hentries
    exact (ih hbefore hset).addAll hmore h
  | ofList entries => exact Context.WF.nil.addAll hentries h
  | merge set other ih ihOther =>
    obtain ⟨before, hbefore, h⟩ := bind_ok.1 h
    obtain ⟨merged, hmerged, h⟩ := bind_ok.1 h
    obtain ⟨hset, hother⟩ := List.forall_mem_append.1 hentries
    exact (ih hbefore hset).addAll (ihOther hmerged hother).entries h

/-- **Merging never publishes.** However well-formed entries are put together, a field value that the
context shows at a path was exposed at that very path by one of the entries. And whatever path
appears in the details of a failure with this context, one of the entries had it exposed, or it leads
into the value of a field that one of the entries exposed, with nothing of the context there. -/
theorem published {assembly : Assembly} {context : Context} (h : assembly.build = .ok context)
    (hentries : ∀ entry ∈ assembly.entries, entry.WF) :
    (∀ path value, context.ShowsField path value →
      ∃ entry ∈ assembly.entries, entry.Exposes path value) ∧
    (∀ failure : Failure, failure.entries = context → ∀ details, failure.details = some details →
      ∀ path value, path ≠ [] → (Json.obj details).at? path = some value →
        (∃ entry ∈ assembly.entries, entry.ExposedAt path) ∨
          (context.at? path = none ∧ ∃ front rest inner, path = front ++ rest ∧
            (∃ entry ∈ assembly.entries, entry.Exposes front inner) ∧
            inner.at? rest = some value)) := by
  have hwf : context.WF := wf_of_build h hentries
  constructor
  · intro path value hshows
    exact exposes_of_build h (hshows.exposes hwf)
  · intro failure hfailure details hdetails path value hpath hat
    have hvalues : details = context.publicValues := by
      rw [Failure.details, hfailure] at hdetails
      split at hdetails
      · cases hdetails
      · exact (Option.some.inj hdetails).symm
    rw [hvalues] at hat
    rcases Context.exposes_towards hwf hpath hat with ⟨rest, inner, hexposes⟩ |
      ⟨hnone, front, rest, inner, hsplit, hexposes, hinner⟩
    · obtain ⟨entry, hmem, hexposes⟩ := exposes_of_build h hexposes
      exact .inl ⟨entry, hmem, hexposes.exposedAt hpath⟩
    · exact .inr ⟨hnone, front, rest, inner, hsplit, exposes_of_build h hexposes, hinner⟩

/-- A received scope with an exposed id, and onto it a local scope of the same name that is
restricted. -/
def scopes : Assembly :=
  .merge (.ofList [.dict "user" .exposed true [.field "id" (.int 7) .exposed true]])
    (.add .empty (.dict "user" .restricted false [.field "email" (.str "x@y") .exposed false]))

theorem scopes_published :
    (∀ entry ∈ scopes.entries, entry.WF) ∧ ∃ context, scopes.build = .ok context ∧
      context.ShowsField ["user", "id"] (.int 7) ∧
      ∃ entry ∈ scopes.entries, entry.Exposes ["user", "id"] (.int 7) := by
  have hfield : ∀ key value visibility received,
      Context.WF [.field key value visibility received] := fun _ _ _ _ =>
    ⟨List.pairwise_singleton _ _, List.forall_mem_singleton.2 (Entry.wf_of_leaf rfl)⟩
  have hwf : ∀ entry ∈ scopes.entries, entry.WF :=
    List.forall_mem_cons.2 ⟨Entry.wf_of_children (hfield ..),
      List.forall_mem_singleton.2 (Entry.wf_of_children (hfield ..))⟩
  have hbuild : scopes.build = .ok [.dict "user" .exposed true
      [.field "id" (.int 7) .exposed true, .field "email" (.str "x@y") .restricted false]] := by
    rfl
  have hshows : Context.ShowsField [.dict "user" .exposed true
      [.field "id" (.int 7) .exposed true, .field "email" (.str "x@y") .restricted false]]
      ["user", "id"] (.int 7) := by
    refine ⟨⟨.field "id" (.int 7) .exposed true, ?_, rfl⟩, ?_⟩
    · rfl
    · rfl
  exact ⟨hwf, _, hbuild, hshows, (published hbuild hwf).1 _ _ hshows⟩

end Assembly

end Faults
