import Faults.Proofs.Provenance
import Faults.Proofs.Runs
import Faults.Proofs.Views
import Mathlib.Data.List.Induction

/-!
# Nothing attached is lost

Entries of which none was received are merged path by path: what stands at a path in the end is made
of what the entries held at that path, in their order (`Entry.MadeOf`): the value of the last field,
the first stack, the hops of all trails, a dict with the members of all. `Context.Gathers` says so of
a whole context and of its log view. Main statements:

* `Entry.Arrives.beneath`: an arrival is an arrival at every path below;
* `Entry.MadeOf.snoc`: one more arrival adds one part to what stands at a path;
* `Context.Gathers.logValues_eq`: what is gathered determines the log view;
* `Run.gathers`: every context gathers the entries that were merged into it, and the failure at the
  end of a run all that the run gave.
-/

namespace Faults

open Entry (Arrives Meets)

/-! ## Arrivals by path -/

/-- An arrival of a local entry at a local one is an arrival at every path below. -/
theorem Entry.Arrives.beneath {outer : Visibility} {place : Option Entry} {incoming result : Entry}
    (h : Arrives outer place incoming result)
    (hplace : ∀ current, place = some current → current.Local) (hincoming : incoming.Local)
    (path : List String) :
    ∃ outer', Meets outer' (beneath place path) (incoming.at? path) (result.at? path) := by
  induction path generalizing outer place incoming result with
  | nil =>
    refine ⟨outer, .arrives ?_⟩
    cases place <;> exact h
  | cons key path ih =>
    cases h with
    | fresh =>
      have hat : (incoming.capped outer).at? (key :: path) = incoming.at? (key :: path) := by
        rw [Entry.at?, Entry.at?, children_capped]
      rw [hat]
      exact ⟨.exposed, .fresh _⟩
    | replaced hv hr =>
      -- two local entries of different variants clash
      rw [(hplace _ rfl).isReceived, hincoming.isReceived] at hr
      simp at hr
    | field => exact ⟨outer, .idle⟩
    | stack => exact ⟨outer, .idle⟩
    | trail => exact ⟨outer, .idle⟩
    | @dict k s r present k' s' r' children merged h =>
      have hmeets : Meets (outer.under s') (Context.get? present key) (Context.get? children key)
          (Context.get? merged key) := Context.meets_absorb hincoming.wf.children.keys h key
      change ∃ outer', Meets outer' (Entry.beneath (Context.get? present key) path)
        (Entry.beneath (Context.get? children key) path)
        (Entry.beneath (Context.get? merged key) path)
      generalize hchild : Context.get? children key = child? at hmeets ⊢
      generalize Context.get? merged key = result? at hmeets ⊢
      cases hmeets with
      | idle => exact ⟨outer, .idle⟩
      | arrives harrives =>
        exact ih harrives (fun _ => (hplace _ rfl).child) (hincoming.child hchild)

/-- What arrives at a context, by path. -/
theorem Context.meets_put {outer : Visibility} {context : Context} {incoming result : Entry}
    (h : Arrives outer (context.get? incoming.key) incoming result)
    (hcontext : ∀ entry ∈ context, entry.Local) (hincoming : incoming.Local) (path : List String) :
    ∃ outer', Meets outer' (context.at? path) (Context.at? [incoming] path)
      ((context.put result).at? path) := by
  cases path with
  | nil => exact ⟨outer, .idle⟩
  | cons key path =>
    have hresult : result.key = incoming.key := h.key_eq fun _ => key_of_get?
    rw [Context.at?, Context.at?, Context.at?, get?_put, get?_cons, hresult]
    by_cases hkey : incoming.key = key
    · rw [if_pos hkey, if_pos hkey, ← hkey]
      exact h.beneath (fun _ hget => hcontext _ (mem_of_get? hget)) hincoming path
    · rw [if_neg hkey, if_neg hkey]
      exact ⟨outer, .idle⟩

/-! ## What stands at a path -/

namespace Entry

/-- The hops of a trail; other entries have none. -/
def hops : Entry → List String
  | trail hops => hops
  | _ => []

/-- What the entries hold at a path, those that have it, in order. -/
def partsAt (entries : List Entry) (path : List String) : List Entry :=
  entries.filterMap fun entry => Context.at? [entry] path

/-- The entry is what the parts amount to in their order: of fields the value of the last is shown, of
stacks the frames of the first, and of trails all hops. -/
structure MadeOf (node : Entry) (parts : List Entry) : Prop where
  variant : ∀ part ∈ parts, part.variant = node.variant
  field : node.variant = .field → ∃ key value visibility received,
    parts.getLast? = some (.field key value visibility received) ∧ node.logValue = value
  stack : node.variant = .stack → ∃ frames,
    parts.head? = some (.stack frames) ∧
      node.logValue = .str ("\n".intercalate (frames.map Frame.text))
  trail : node.variant = .trail → node.logValue = .arr ((parts.flatMap hops).map .str)

/-- What stands at a path is made of one part or more, and nothing stands where there is none. -/
def Made (parts : List Entry) : Option Entry → Prop
  | none => parts = []
  | some node => parts ≠ [] ∧ node.MadeOf parts

/-- An entry that arrives at an empty place is made of itself. -/
theorem MadeOf.single (part : Entry) (outer : Visibility) : (part.capped outer).MadeOf [part] where
  variant other hother := by
    rw [List.mem_singleton.1 hother, variant_capped]
  field hvariant := by
    rw [variant_capped] at hvariant
    rw [logValue_capped]
    cases part with
    | field key value visibility received =>
      exact ⟨key, value, visibility, received, rfl, by rw [logValue]⟩
    | _ => cases hvariant
  stack hvariant := by
    rw [variant_capped] at hvariant
    rw [logValue_capped]
    cases part with
    | stack frames => exact ⟨frames, rfl, by rw [logValue, stackText]⟩
    | _ => cases hvariant
  trail hvariant := by
    rw [variant_capped] at hvariant
    rw [logValue_capped, List.flatMap_singleton]
    cases part with
    | trail => rw [logValue, hops]
    | _ => cases hvariant

/-- One more arrival adds one part. -/
theorem MadeOf.snoc {outer : Visibility} {parts : List Entry} {node incoming result : Entry}
    (hnode : node.MadeOf parts) (h : Arrives outer (some node) incoming result)
    (hlocal : node.Local) (hincoming : incoming.Local) : result.MadeOf (parts ++ [incoming]) := by
  have hvariants {variant : Variant} (hn : node.variant = variant)
      (hi : incoming.variant = variant) : ∀ part ∈ parts ++ [incoming], part.variant = variant :=
    List.forall_mem_append.2
      ⟨fun part hpart => (hnode.variant part hpart).trans hn, List.forall_mem_singleton.2 hi⟩
  cases h with
  | replaced hv hr =>
    rw [hlocal.isReceived, hincoming.isReceived] at hr
    simp at hr
  | field =>
    refine ⟨hvariants rfl rfl, fun _ => ⟨_, _, _, _, List.getLast?_concat, ?_⟩, ?_, ?_⟩
    · rw [logValue]
    all_goals exact fun hvariant => by cases hvariant
  | @stack first frames =>
    obtain ⟨earliest, hhead, hlog⟩ := hnode.stack rfl
    refine ⟨hvariants rfl rfl, ?_, fun _ => ⟨earliest, ?_, hlog⟩, ?_⟩
    · exact fun hvariant => by cases hvariant
    · rw [List.head?_append, hhead, Option.some_or]
    · exact fun hvariant => by cases hvariant
  | @trail earlier more =>
    have hlog := hnode.trail rfl
    refine ⟨hvariants rfl rfl, ?_, ?_, fun _ => ?_⟩
    · exact fun hvariant => by cases hvariant
    · exact fun hvariant => by cases hvariant
    · rw [logValue] at hlog
      rw [logValue, List.flatMap_append, List.flatMap_singleton, List.map_append, List.map_append,
        Json.arr.inj hlog, hops]
  | dict =>
    refine ⟨hvariants rfl rfl, ?_, ?_, ?_⟩
    all_goals exact fun hvariant => by cases hvariant

theorem Made.meets {outer : Visibility} {parts : List Entry} {place incoming? result? : Option Entry}
    (hmade : Made parts place) (h : Meets outer place incoming? result?)
    (hplace : ∀ current, place = some current → current.Local)
    (hincoming : ∀ incoming, incoming? = some incoming → incoming.Local) :
    Made (parts ++ incoming?.toList) result? := by
  cases h with
  | idle =>
    rw [Option.toList_none, List.append_nil]
    exact hmade
  | @arrives incoming result h =>
    rw [Option.toList_some]
    refine ⟨List.append_ne_nil_of_right_ne_nil _ (List.cons_ne_nil _ _), ?_⟩
    cases place with
    | none =>
      cases h
      rw [show parts = [] from hmade]
      exact .single incoming outer
    | some node => exact hmade.2.snoc h (hplace node rfl) (hincoming incoming rfl)

theorem partsAt_concat (entries : List Entry) (entry : Entry) (path : List String) :
    partsAt (entries ++ [entry]) path =
      partsAt entries path ++ (Context.at? [entry] path).toList := by
  rw [partsAt, List.filterMap_append, ← partsAt, List.filterMap_cons, List.filterMap_nil]
  cases Context.at? [entry] path <;> rfl

end Entry

/-- What stands at a path after a merge is made of what the entries hold there. -/
theorem Context.made_at? {entries : List Entry} {context : Context}
    (hentries : ∀ entry ∈ entries, entry.Local) (hok : ofList entries = .ok context)
    (path : List String) : Entry.Made (Entry.partsAt entries path) (context.at? path) := by
  induction entries using List.reverseRecOn generalizing context with
  | nil =>
    cases hok
    cases path <;> rfl
  | append_singleton entries entry ih =>
    obtain ⟨hbefore, hentry⟩ := List.forall_mem_append.1 hentries
    replace hentry : entry.Local := List.forall_mem_singleton.1 hentry
    rw [ofList, addAll_append, bind_ok] at hok
    obtain ⟨before, hok, hlast⟩ := hok
    rw [addAll_eq_absorb] at hlast
    obtain ⟨result, harrives, hlast⟩ := absorb_cons_ok.1 hlast
    cases hlast
    obtain ⟨-, hlocal⟩ := uniform_ofList hbefore hok
    obtain ⟨outer, hmeets⟩ := meets_put harrives hlocal hentry path
    rw [Entry.partsAt_concat]
    refine (ih hbefore hok).meets hmeets (fun _ => uniform_at? hlocal) (fun _ => uniform_at? ?_)
    exact List.forall_mem_singleton.2 hentry

/-! ## The whole context -/

/-- The context, and its log view, is what the entries amount to. -/
structure Context.Gathers (context : Context) (entries : List Entry) : Prop where
  /-- The paths are those of the entries. -/
  paths : ∀ path, (context.at? path).isSome ↔
    ∃ entry ∈ entries, (Context.at? [entry] path).isSome
  /-- At every path the logs show what stands there. -/
  logged : ∀ path node, context.at? path = some node →
    (Json.obj context.logValues).at? path = some node.logValue
  /-- At every path stands what the entries hold there, in their order. -/
  made : ∀ path node, context.at? path = some node → node.MadeOf (Entry.partsAt entries path)
  /-- The whole and every dict is an object with the members of all. -/
  objects : ∀ path, (path = [] ∨ ∃ node, context.at? path = some node ∧ node.variant = .dict) →
    ∃ members : Json.Members, (Json.obj context.logValues).at? path = some (.obj members) ∧
      members.Sorted ∧
      ∀ key, (members.get? key).isSome ↔
        ∃ entry ∈ entries, (Context.at? [entry] (path ++ [key])).isSome

namespace Context

theorem paths_of_made {entries : List Entry} {path : List String} {place : Option Entry}
    (h : Entry.Made (Entry.partsAt entries path) place) :
    place.isSome ↔ ∃ entry ∈ entries, (Context.at? [entry] path).isSome := by
  have hparts : Entry.partsAt entries path ≠ [] ↔
      ∃ entry ∈ entries, (Context.at? [entry] path).isSome := by
    rw [Entry.partsAt, Ne, List.filterMap_eq_nil_iff]
    simp [Option.isSome_iff_ne_none]
  rw [← hparts]
  cases place with
  | none => simp [show Entry.partsAt entries path = [] from h]
  | some node => simp [h.1]

theorem gathers_ofList {entries : List Entry} {context : Context}
    (hentries : ∀ entry ∈ entries, entry.Local) (hok : ofList entries = .ok context) :
    context.Gathers entries := by
  obtain ⟨hkeys, hlocal⟩ := uniform_ofList hentries hok
  have hwf : context.WF := ⟨hkeys, fun entry hmem => (hlocal entry hmem).wf⟩
  have hpaths : ∀ path, (context.at? path).isSome ↔
      ∃ entry ∈ entries, (Context.at? [entry] path).isSome :=
    fun path => paths_of_made (made_at? hentries hok path)
  refine ⟨hpaths, fun path node hat => logValues_at? hwf hat, fun path node hat => ?_, ?_⟩
  · have hmade := made_at? hentries hok path
    rw [hat] at hmade
    exact hmade.2
  · rintro path (rfl | ⟨node, hat, hdict⟩)
    · refine ⟨context.logValues, rfl, context.sorted_logValues, fun key => ?_⟩
      rw [get?_logValues hwf.keys, Option.isSome_map, ← hpaths, List.nil_append, at?]
      cases context.get? key <;> rfl
    · have hnode := (uniform_at? hlocal hat).wf
      refine ⟨node.children.logValues, ?_, node.children.sorted_logValues, fun key => ?_⟩
      · rw [logValues_at? hwf hat, Entry.logValue_of_dict hdict]
      · rw [get?_logValues hnode.children.keys, Option.isSome_map, ← hpaths, at?_concat hat]

/-! ## The log view is determined -/

section

variable {left right : Context} {entries : List Entry}

/-- Objects at one path are equal when the logs agree one key further. -/
theorem Gathers.object_eq (hleft : left.Gathers entries) (hright : right.Gathers entries)
    {path : List String}
    (hpath : path = [] ∨ ∃ node, left.at? path = some node ∧ node.variant = .dict)
    (hpath' : path = [] ∨ ∃ node, right.at? path = some node ∧ node.variant = .dict)
    (h : ∀ key node other, left.at? (path ++ [key]) = some node →
      right.at? (path ++ [key]) = some other → node.logValue = other.logValue) :
    (Json.obj left.logValues).at? path = (Json.obj right.logValues).at? path := by
  obtain ⟨members, hat, hsorted, hkeys⟩ := hleft.objects path hpath
  obtain ⟨members', hat', hsorted', hkeys'⟩ := hright.objects path hpath'
  rw [hat, hat']
  refine congrArg (some ∘ Json.obj) (Json.Members.ext_of_sorted hsorted hsorted' fun key => ?_)
  by_cases hkey : ∃ entry ∈ entries, (Context.at? [entry] (path ++ [key])).isSome
  · obtain ⟨node, hnode⟩ := Option.isSome_iff_exists.1 ((hleft.paths _).2 hkey)
    obtain ⟨other, hother⟩ := Option.isSome_iff_exists.1 ((hright.paths _).2 hkey)
    rw [← Json.at?_concat hat, ← Json.at?_concat hat', hleft.logged _ _ hnode,
      hright.logged _ _ hother, h key node other hnode hother]
  · have hnone := mt (hkeys key).1 hkey
    have hnone' := mt (hkeys' key).1 hkey
    rw [Option.not_isSome_iff_eq_none] at hnone hnone'
    rw [hnone, hnone']

theorem Gathers.logValue_eq (hleft : left.Gathers entries) (hright : right.Gathers entries)
    (node : Entry) : ∀ (path : List String) (other : Entry), left.at? path = some node →
      right.at? path = some other → node.logValue = other.logValue := by
  induction node with
  | step node ih =>
    intro path other hnode hother
    have hmade := hleft.made path node hnode
    have hmade' := hright.made path other hother
    -- both are made of the same parts, of which there is one at least
    have hvariant : other.variant = node.variant := by
      obtain ⟨entry, hentry, hpart⟩ := (hleft.paths path).1 (by rw [hnode]; rfl)
      obtain ⟨part, hpart⟩ := Option.isSome_iff_exists.1 hpart
      have hmem : part ∈ Entry.partsAt entries path := List.mem_filterMap.2 ⟨entry, hentry, hpart⟩
      rw [← hmade.variant part hmem, hmade'.variant part hmem]
    cases hv : node.variant with
    | field =>
      obtain ⟨_, _, _, _, hlast, hlog⟩ := hmade.field hv
      obtain ⟨_, _, _, _, hlast', hlog'⟩ := hmade'.field (hvariant.trans hv)
      rw [hlast] at hlast'
      cases hlast'
      rw [hlog, hlog']
    | stack =>
      obtain ⟨_, hfirst, hlog⟩ := hmade.stack hv
      obtain ⟨_, hfirst', hlog'⟩ := hmade'.stack (hvariant.trans hv)
      rw [hfirst] at hfirst'
      cases hfirst'
      rw [hlog, hlog']
    | trail => rw [hmade.trail hv, hmade'.trail (hvariant.trans hv)]
    | dict =>
      have heq := hleft.object_eq hright (.inr ⟨node, hnode, hv⟩)
        (.inr ⟨other, hother, hvariant.trans hv⟩) fun key child child' hchild hchild' => by
          refine ih child ?_ _ child' hchild hchild'
          rw [at?_concat hnode] at hchild
          exact mem_of_get? hchild
      rw [hleft.logged path node hnode, hright.logged path other hother] at heq
      exact Option.some.inj heq

/-- What is gathered determines the log view. -/
theorem Gathers.logValues_eq (hleft : left.Gathers entries) (hright : right.Gathers entries) :
    left.logValues = right.logValues := by
  have heq := hleft.object_eq hright (.inl rfl) (.inl rfl) fun key node other hnode hother =>
    hleft.logValue_eq hright node _ other hnode hother
  rw [Json.at?, Json.at?] at heq
  exact Json.obj.inj (Option.some.inj heq)

end

end Context

/-! ## Runs -/

theorem Run.ofList_given {run : Run} {failure : Failure} (hbase : run.origin.base = [])
    (h : run.result = .ok failure) : Context.ofList run.given = .ok failure.entries := by
  rw [Context.ofList, ← hbase, ← run.entries_result, h]
  rfl

/-- **Nothing attached is lost.** Entries that are local merge into a context that gathers them: it
has their paths and no others, and its logs show at each path what the entries held there: the last
field, the first stack, the hops of all trails, a dict with the members of all. So does the failure at
the end of every run that begins without inherited entries, with all that callers passed on the way
and the diagnostics of each step, in the order of their arrival. And the entries that are gathered
determine the logs. -/
theorem Run.gathers :
    (∀ (entries : List Entry) (context : Context), (∀ entry ∈ entries, entry.Local) →
      Context.ofList entries = .ok context → context.Gathers entries) ∧
    (∀ (run : Run) (failure : Failure), run.origin.base = [] →
      (∀ entry ∈ run.passed, entry.Local) → run.result = .ok failure →
      failure.entries.Gathers run.given) ∧
    ∀ (entries : List Entry) (left right : Context), left.Gathers entries →
      right.Gathers entries → left.logValues = right.logValues := by
  refine ⟨fun entries context => Context.gathers_ofList, fun run failure hbase hpassed h => ?_,
    fun entries left right => Context.Gathers.logValues_eq⟩
  have hgiven : ∀ entry ∈ run.given, entry.Local :=
    run.forall_given (fun _ => .of_leaf rfl rfl) (fun _ => .of_leaf rfl rfl) hpassed
  exact Context.gathers_ofList hgiven (run.ofList_given hbase h)

/-- A failure that is raised with an id and wrapped with another id, a name and another stack. -/
def Run.login : Run where
  origin := .raise ⟨⟨"users", 12⟩, ⟨[[⟨some "load", none, none⟩]], []⟩⟩ .notFoundError "no such user"
    [.dict "user" .exposed false [.exposedField "id" (.int 7)]]
  steps := [.wrap ⟨⟨"login", 40⟩, ⟨[], []⟩⟩ none "login failed"
    [.dict "user" .restricted false
      [.exposedField "id" (.int 8), .exposedField "name" (.str "x")],
    .stack [⟨"retry", none, none⟩]]]

theorem Run.login_gathers :
    (∀ entry ∈ login.passed, entry.Local) ∧ ∃ context failure,
      Context.ofList login.given = .ok context ∧ login.result = .ok failure ∧
      context.Gathers login.given ∧ failure.entries.Gathers login.given ∧
      context.logValues = failure.entries.logValues ∧
      failure.entries.logValues =
        [("reverse_trace", .arr [.str "[users:12] load", .str "[login:40] unknown"]),
          ("stacktrace", .str "load"), ("user", .obj [("id", .int 8), ("name", .str "x")])] := by
  have hfield : ∀ key value, (Entry.exposedField key value).Local := fun _ _ => .of_leaf rfl rfl
  have hlocal : ∀ entry ∈ login.passed, entry.Local := by
    refine List.forall_mem_cons.2 ⟨.of_children rfl ?_ ?_, List.forall_mem_cons.2
      ⟨.of_children rfl ?_ ?_, List.forall_mem_singleton.2 (.of_leaf rfl rfl)⟩⟩
    · decide
    · exact List.forall_mem_singleton.2 (hfield ..)
    · decide
    · exact List.forall_mem_cons.2 ⟨hfield .., List.forall_mem_singleton.2 (hfield ..)⟩
  obtain ⟨failure, hresult⟩ : ∃ failure, login.result = .ok failure := ⟨_, rfl⟩
  have hgathers := gathers.2.1 login failure rfl hlocal hresult
  have hgiven : ∀ entry ∈ login.given, entry.Local :=
    login.forall_given (fun _ => .of_leaf rfl rfl) (fun _ => .of_leaf rfl rfl) hlocal
  have hlist := ofList_given rfl hresult
  have hgathers' := gathers.1 login.given failure.entries hgiven hlist
  refine ⟨hlocal, _, failure, hlist, hresult, hgathers', hgathers,
    gathers.2.2 login.given _ _ hgathers' hgathers, ?_⟩
  cases hresult
  rfl

end Faults
