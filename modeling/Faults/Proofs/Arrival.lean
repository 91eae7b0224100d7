import Faults.Entry.Merge
import Faults.Proofs.Tree

/-!
# Arrivals

Every merge is a list of entries that arrive at a context one after the other. What arrives meets the
entry of its key, if there is one: `Entry.arrive` says what stands at that key afterwards, and
`Context.put` puts it there. The main statements:

* `arrive_eq_ok_iff`: the six things that an arrival can lead to (`Arrives`);
* `Context.absorb_cons`, `Context.addAll_eq_absorb`: every merge is a sequence of arrivals;
* `Context.absorb_induct`: what each arrival preserves, a merge preserves;
* `Context.meets_absorb`, `Context.absorb_ok`: when the keys that arrive are distinct, a merge is one
  arrival for each of them, independent of the others;
* `Context.WF.absorb`: merging well-formed entries into a well-formed context keeps it well-formed.
-/

namespace Faults

/-! ## `Except` plumbing -/

theorem bind_ok {ε α β : Type} {x : Except ε α} {f : α → Except ε β} {b : β} :
    (x >>= f) = .ok b ↔ ∃ a, x = .ok a ∧ f a = .ok b := by
  cases x with
  | error e =>
    refine ⟨fun h => ?_, fun ⟨a, ha, _⟩ => ?_⟩
    · cases h
    · cases ha
  | ok a =>
    refine ⟨fun h => ⟨a, rfl, h⟩, fun ⟨a', ha, h⟩ => ?_⟩
    cases ha
    exact h

theorem map_ok {ε α β : Type} {x : Except ε α} {f : α → β} {b : β} :
    (do return f (← x)) = Except.ok b ↔ ∃ a, x = .ok a ∧ f a = b := by
  rw [bind_ok]
  refine exists_congr fun a => and_congr_right fun _ => ⟨fun h => ?_, fun h => ?_⟩
  · cases h
    rfl
  · rw [h]
    rfl

theorem exists_map_ok {ε α β : Type} {x : Except ε α} {f : α → β} :
    (∃ b, f <$> x = .ok b) ↔ ∃ a, x = .ok a := by
  cases x with
  | error e =>
    constructor
    · rintro ⟨b, h⟩
      cases h
    · rintro ⟨a, h⟩
      cases h
  | ok a => exact ⟨fun _ => ⟨a, rfl⟩, fun _ => ⟨f a, rfl⟩⟩

theorem exists_error_iff {ε α : Type} {x : Except ε α} :
    (∃ e, x = .error e) ↔ ¬ ∃ a, x = .ok a := by
  cases x with
  | error e => exact iff_of_true ⟨e, rfl⟩ fun ⟨a, h⟩ => by cases h
  | ok a => exact iff_of_false (fun ⟨e, h⟩ => by cases h) fun h => h ⟨a, rfl⟩

/-! ## One arrival -/

namespace Entry

/-- What stands at a key after an entry has arrived there, in a place of visibility `outer`. -/
def arrive (outer : Visibility) : Option Entry → Entry → Except Clash Entry
  | none, incoming => .ok (incoming.capped outer)
  | some current, incoming => current.absorb outer incoming

/-- What an arrival can lead to. -/
inductive Arrives (outer : Visibility) : Option Entry → Entry → Entry → Prop where
  /-- Nothing stood there. -/
  | fresh {incoming : Entry} : Arrives outer none incoming (incoming.capped outer)
  /-- An entry of another variant gives way, since it or the incoming one was received. -/
  | replaced {current incoming : Entry} (variant : current.variant ≠ incoming.variant)
      (received : current.isReceived = true ∨ incoming.isReceived = true) :
    Arrives outer (some current) incoming (incoming.capped outer)
  | field {k : String} {v : Json} {s : Visibility} {r : Bool} {k' : String} {v' : Json}
      {s' : Visibility} {r' : Bool} :
    Arrives outer (some (.field k v s r)) (.field k' v' s' r') (.field k' v' (outer.under s') r')
  | stack {first frames : List Frame} :
    Arrives outer (some (.stack first)) (.stack frames) (.stack first)
  | trail {earlier hops : List String} :
    Arrives outer (some (.trail earlier)) (.trail hops) (.trail (earlier ++ hops))
  | dict {k : String} {s : Visibility} {r : Bool} {present : Context} {k' : String} {s' : Visibility}
      {r' : Bool} {children merged : Context}
      (h : Context.absorb (outer.under s') present children = .ok merged) :
    Arrives outer (some (.dict k s r present)) (.dict k' s' r' children) (.dict k s r merged)

/-- What a merge leaves at a key: what stood there if nothing arrived, else what an arrival leads
to. -/
inductive Meets (outer : Visibility) (place : Option Entry) : Option Entry → Option Entry → Prop where
  | idle : Meets outer place none place
  | arrives {incoming result : Entry} (h : Arrives outer place incoming result) :
    Meets outer place (some incoming) (some result)

theorem Meets.fresh (incoming? : Option Entry) : Meets .exposed none incoming? incoming? := by
  cases incoming? with
  | none => exact .idle
  | some incoming =>
    have hfresh : Arrives .exposed none incoming (incoming.capped .exposed) := .fresh
    rw [capped_exposed] at hfresh
    exact .arrives hfresh

theorem replace_eq_ok_iff {current incoming result : Entry} :
    current.replace incoming = .ok result ↔
      (current.isReceived = true ∨ incoming.isReceived = true) ∧ result = incoming := by
  unfold replace
  split
  · next h =>
    rw [Bool.or_eq_true] at h
    exact ⟨fun heq => by cases heq; exact ⟨h, rfl⟩, fun ⟨_, heq⟩ => by rw [heq]⟩
  · next h =>
    rw [Bool.or_eq_true] at h
    exact ⟨fun heq => (by cases heq), fun ⟨hr, _⟩ => absurd hr h⟩

/-- Entries of different variants are not merged. -/
theorem absorb_of_variant_ne {outer : Visibility} {current incoming : Entry}
    (h : current.variant ≠ incoming.variant) :
    current.absorb outer incoming = current.replace (incoming.capped outer) := by
  cases current <;> cases incoming <;>
    first | exact absurd rfl h | simp only [absorb, capped, withVisibility, Entry.visibility]

theorem arrive_eq_ok_iff {outer : Visibility} {place : Option Entry} {incoming result : Entry} :
    arrive outer place incoming = .ok result ↔ Arrives outer place incoming result := by
  constructor
  · intro h
    cases place with
    | none =>
      cases h
      exact .fresh
    | some current =>
      by_cases hv : current.variant = incoming.variant
      · cases current <;> cases incoming <;> simp only [variant, reduceCtorEq] at hv <;>
          simp only [arrive, absorb] at h
        · cases h
          exact .field
        · cases h
          exact .stack
        · cases h
          exact .trail
        · obtain ⟨merged, hmerged, rfl⟩ := map_ok.1 h
          exact .dict hmerged
      · rw [arrive, absorb_of_variant_ne hv, replace_eq_ok_iff, isReceived_capped] at h
        obtain ⟨hr, rfl⟩ := h
        exact .replaced hv hr
  · intro h
    cases h with
    | fresh => rfl
    | replaced hv hr =>
      rw [arrive, absorb_of_variant_ne hv, replace_eq_ok_iff, isReceived_capped]
      exact ⟨hr, rfl⟩
    | field => simp only [arrive, absorb]
    | stack => simp only [arrive, absorb]
    | trail => simp only [arrive, absorb]
    | dict h =>
      simp only [arrive, absorb]
      exact map_ok.2 ⟨_, h, rfl⟩

/-- Only entries of one key meet, so the key stays. -/
theorem Arrives.key_eq {outer : Visibility} {place : Option Entry} {incoming result : Entry}
    (h : Arrives outer place incoming result)
    (hplace : ∀ current, place = some current → current.key = incoming.key) :
    result.key = incoming.key := by
  cases h with
  | fresh => exact key_capped ..
  | replaced => exact key_capped ..
  | field => rfl
  | stack => rfl
  | trail => rfl
  | dict =>
    have hkey := hplace _ rfl
    exact hkey

end Entry

/-! ## Sequences of arrivals -/

namespace Context

open Entry (Arrives arrive arrive_eq_ok_iff)

/-- The context with an entry in place of the one of its key, or behind all others when the key is
new. -/
def put (context : Context) (entry : Entry) : Context :=
  match context with
  | [] => [entry]
  | head :: rest => if head.key = entry.key then entry :: rest else head :: put rest entry

theorem get?_put (context : Context) (entry : Entry) (key : String) :
    (context.put entry).get? key = if entry.key = key then some entry else context.get? key := by
  induction context with
  | nil => rw [put, get?_cons]
  | cons head rest ih =>
    rw [put]
    split
    · next h =>
      rw [get?_cons, get?_cons, h]
      split <;> rfl
    · next h =>
      rw [get?_cons, get?_cons, ih]
      by_cases hk : entry.key = key
      · rw [if_pos hk, if_pos hk, if_neg (fun hh => h (hh.trans hk.symm))]
      · rw [if_neg hk, if_neg hk]

theorem mem_keys_put {context : Context} {entry : Entry} {key : String} :
    key ∈ (context.put entry).keys ↔ key = entry.key ∨ key ∈ context.keys := by
  have hget := get?_put context entry key
  by_cases hk : entry.key = key
  · rw [if_pos hk] at hget
    have hmem : key ∈ (context.put entry).keys := by
      by_contra hnot
      rw [get?_eq_none_iff.2 hnot] at hget
      cases hget
    exact ⟨fun _ => .inl hk.symm, fun _ => hmem⟩
  · rw [if_neg hk] at hget
    rw [← not_iff_not, ← get?_eq_none_iff, hget, get?_eq_none_iff, not_or]
    exact ⟨fun h => ⟨fun heq => hk heq.symm, h⟩, fun h => h.2⟩

theorem mem_put {context : Context} {entry other : Entry} (h : other ∈ context.put entry) :
    other = entry ∨ other ∈ context := by
  induction context with
  | nil => exact .inl (List.mem_singleton.1 h)
  | cons head rest ih =>
    rw [put] at h
    split at h
    · rcases List.mem_cons.1 h with rfl | h
      · exact .inl rfl
      · exact .inr (List.mem_cons_of_mem _ h)
    · rcases List.mem_cons.1 h with rfl | h
      · exact .inr List.mem_cons_self
      · exact (ih h).imp id (List.mem_cons_of_mem _)

theorem nodup_keys_put {context : Context} (h : context.keys.Nodup) (entry : Entry) :
    (context.put entry).keys.Nodup := by
  induction context with
  | nil => exact List.pairwise_singleton _ _
  | cons head rest ih =>
    obtain ⟨hhead, hrest⟩ := List.nodup_cons.1 h
    rw [put]
    split
    · next heq =>
      refine List.nodup_cons.2 ⟨?_, hrest⟩
      rwa [← heq]
    · next hne =>
      refine List.nodup_cons.2 ⟨fun hmem => ?_, ih hrest⟩
      rcases mem_keys_put.1 hmem with heq | hmem
      · exact hne heq
      · exact hhead hmem

theorem keys_put (context : Context) (entry : Entry) :
    (context.put entry).keys =
      context.keys ++ [entry.key].filter fun key => key ∉ context.keys := by
  induction context with
  | nil => rfl
  | cons head rest ih =>
    rw [put]
    split
    · next heq => simp [keys, heq]
    · next hne =>
      have hne' : entry.key ≠ head.key := fun heq => hne heq.symm
      change head.key :: (put rest entry).keys = head.key :: (keys rest ++ _)
      rw [ih]
      refine congrArg (fun more => head.key :: (keys rest ++ more))
        (List.filter_congr fun key hmem => ?_)
      obtain rfl := List.mem_singleton.1 hmem
      exact decide_eq_decide.2 (not_congr (List.mem_cons.trans (or_iff_right hne')).symm)

theorem WF.put {context : Context} (h : context.WF) {entry : Entry} (he : entry.WF) :
    (context.put entry).WF :=
  ⟨nodup_keys_put h.keys entry, fun other hother => by
    rcases mem_put hother with rfl | hother
    · exact he
    · exact h.entries other hother⟩

/-- Finding the entry of a key and merging into it is an arrival at that key. -/
theorem upsert_eq (outer : Visibility) (incoming : Entry) (context : Context) :
    context.upsert incoming.key (fun current => current.absorb outer incoming)
        (incoming.capped outer) =
      (do return context.put (← arrive outer (context.get? incoming.key) incoming)) := by
  induction context with
  | nil => rfl
  | cons head rest ih =>
    rw [upsert, get?_cons]
    split
    · next hkey =>
      rw [← arrive]
      cases harrive : arrive outer (some head) incoming with
      | error clash => rfl
      | ok result =>
        have hresult : result.key = incoming.key := by
          refine (arrive_eq_ok_iff.1 harrive).key_eq fun current hcurrent => ?_
          cases hcurrent
          exact hkey
        change Except.ok (result :: rest) = .ok (put (head :: rest) result)
        rw [put, if_pos (hkey.trans hresult.symm)]
    · next hkey =>
      rw [ih]
      cases harrive : arrive outer (get? rest incoming.key) incoming with
      | error clash => rfl
      | ok result =>
        have hresult : result.key = incoming.key :=
          (arrive_eq_ok_iff.1 harrive).key_eq fun current => key_of_get?
        change Except.ok (head :: put rest result) = .ok (put (head :: rest) result)
        rw [put, if_neg (fun h => hkey (h.trans hresult))]

/-- A merge is one arrival after the other. -/
theorem absorb_cons (outer : Visibility) (context : Context) (incoming : Entry)
    (rest : List Entry) :
    context.absorb outer (incoming :: rest) =
      (do
        let result ← arrive outer (context.get? incoming.key) incoming
        Context.absorb outer (context.put result) rest) := by
  rw [absorb, upsert_eq, bind_assoc]
  rfl

theorem absorb_cons_ok {outer : Visibility} {context : Context} {incoming : Entry}
    {rest : List Entry} {final : Context} :
    context.absorb outer (incoming :: rest) = .ok final ↔
      ∃ result, Arrives outer (context.get? incoming.key) incoming result ∧
        (context.put result).absorb outer rest = .ok final := by
  rw [absorb_cons, bind_ok]
  exact exists_congr fun result => and_congr_left fun _ => arrive_eq_ok_iff

theorem addAll_eq_absorb (context : Context) (entries : List Entry) :
    context.addAll entries = context.absorb .exposed entries := by
  induction entries generalizing context with
  | nil => rfl
  | cons entry rest ih =>
    rw [addAll, List.foldlM_cons, absorb]
    have hadd : context.add entry = context.upsert entry.key
        (fun current => current.absorb .exposed entry) (entry.capped .exposed) := by
      rw [Entry.capped_exposed]
      rfl
    rw [hadd]
    exact bind_congr fun result => ih result

theorem add_eq_addAll (context : Context) (entry : Entry) :
    context.add entry = context.addAll [entry] := by
  rw [addAll, List.foldlM_cons]
  exact (bind_pure _).symm

theorem addAll_append (context : Context) (entries more : List Entry) :
    context.addAll (entries ++ more) = (do (← context.addAll entries).addAll more) :=
  List.foldlM_append

/-- What each arrival preserves, a merge preserves. -/
theorem absorb_induct {outer : Visibility} {entries : List Entry} {motive : Context → Prop}
    {context final : Context} (h : context.absorb outer entries = .ok final) (start : motive context)
    (step : ∀ (context : Context) (incoming result : Entry), incoming ∈ entries → motive context →
      Arrives outer (context.get? incoming.key) incoming result → motive (context.put result)) :
    motive final := by
  induction entries generalizing context with
  | nil =>
    cases h
    exact start
  | cons incoming rest ih =>
    obtain ⟨result, harrives, h⟩ := absorb_cons_ok.1 h
    refine ih h (step context incoming result List.mem_cons_self start harrives) ?_
    exact fun context incoming result hmem =>
      step context incoming result (List.mem_cons_of_mem _ hmem)

end Context

/-! ## Well-formedness -/

theorem Entry.Arrives.wf {outer : Visibility} {place : Option Entry} {incoming result : Entry}
    (h : Arrives outer place incoming result) (hplace : ∀ current, place = some current → current.WF)
    (hincoming : incoming.WF) : result.WF := by
  induction incoming generalizing outer place result with
  | step incoming ih =>
    cases h with
    | fresh => exact hincoming.capped outer
    | replaced => exact hincoming.capped outer
    | dict h =>
      refine wf_of_children (Context.absorb_induct h (hplace _ rfl).children ?_)
      intro context child merged hmem hcontext harrives
      exact hcontext.put (ih child hmem harrives (fun _ => hcontext.get?)
        (hincoming.children.entries child hmem))
    | _ => exact wf_of_leaf rfl

/-! ## What holds of every node -/

/-- The property says nothing of the visibility of a node, of the children of a dict or of hops. -/
structure Entry.Stable (P : Entry → Prop) : Prop where
  capped : ∀ {entry : Entry} (outer : Visibility), P entry → P (entry.capped outer)
  trail : ∀ {hops : List String} (more : List String), P (.trail hops) → P (.trail more)
  dict : ∀ {key : String} {visibility : Visibility} {received : Bool} {children : Context}
    (more : Context), P (.dict key visibility received children) →
    P (.dict key visibility received more)

theorem Entry.All.capped {P : Entry → Prop} (hP : Entry.Stable P) {entry : Entry} (h : entry.All P)
    (outer : Visibility) : (entry.capped outer).All P := by
  refine .intro (hP.capped outer h.self) ?_
  rw [children_capped]
  exact (all_iff.1 h).2

theorem Entry.Arrives.all {P : Entry → Prop} (hP : Entry.Stable P) {outer : Visibility}
    {place : Option Entry} {incoming result : Entry} (h : Arrives outer place incoming result)
    (hplace : ∀ current, place = some current → current.All P) (hincoming : incoming.All P) :
    result.All P := by
  induction incoming generalizing outer place result with
  | step incoming ih =>
    cases h with
    | fresh => exact hincoming.capped hP outer
    | replaced => exact hincoming.capped hP outer
    | field => exact Entry.All.capped hP hincoming outer
    | stack => exact hplace _ rfl
    | trail => exact .intro (hP.trail _ hincoming.self) fun _ h => by cases h
    | @dict k s r present k' s' r' children merged h =>
      have hpresent := all_iff.1 (hplace _ rfl)
      refine .intro (hP.dict merged hpresent.1) ?_
      refine Context.absorb_induct (motive := fun now => ∀ child ∈ now, child.All P) h
        hpresent.2 ?_
      intro now child arrived hmem hnow harrives other hother
      rcases Context.mem_put hother with rfl | hother
      · exact ih child hmem harrives (fun _ hget => hnow _ (Context.mem_of_get? hget))
          ((all_iff.1 hincoming).2 child hmem)
      · exact hnow other hother

namespace Context

open Entry (Arrives)

theorem all_addAll {P : Entry → Prop} (hP : Entry.Stable P) {context final : Context}
    (h : ∀ entry ∈ context, entry.All P) {entries : List Entry}
    (hentries : ∀ entry ∈ entries, entry.All P) (hok : context.addAll entries = .ok final) :
    ∀ entry ∈ final, entry.All P := by
  rw [addAll_eq_absorb] at hok
  refine absorb_induct (motive := fun now => ∀ entry ∈ now, entry.All P) hok h ?_
  intro now incoming result hmem hnow harrives other hother
  rcases mem_put hother with rfl | hother
  · exact harrives.all hP (fun _ hget => hnow _ (mem_of_get? hget)) (hentries incoming hmem)
  · exact hnow other hother

theorem WF.absorb {outer : Visibility} {context final : Context} (h : context.WF)
    {entries : List Entry} (hentries : ∀ entry ∈ entries, entry.WF)
    (hok : context.absorb outer entries = .ok final) : final.WF := by
  refine absorb_induct hok h fun context incoming result hmem hcontext harrives => ?_
  exact hcontext.put (harrives.wf (fun _ => hcontext.get?) (hentries incoming hmem))

theorem WF.addAll {context final : Context} (h : context.WF) {entries : List Entry}
    (hentries : ∀ entry ∈ entries, entry.WF) (hok : context.addAll entries = .ok final) :
    final.WF := by
  rw [addAll_eq_absorb] at hok
  exact h.absorb hentries hok

/-! ## Distinct keys -/

/-- With distinct keys, a merge is one arrival for each key, independent of the others. -/
theorem meets_absorb {outer : Visibility} {context final : Context} {entries : Context}
    (hkeys : entries.keys.Nodup) (h : context.absorb outer entries = .ok final) (key : String) :
    Entry.Meets outer (context.get? key) (entries.get? key) (final.get? key) := by
  induction entries generalizing context with
  | nil =>
    cases h
    exact .idle
  | cons head rest ih =>
    obtain ⟨hhead, hrest⟩ := List.nodup_cons.1 hkeys
    obtain ⟨result, harrives, hnext⟩ := absorb_cons_ok.1 h
    have hresult : result.key = head.key := harrives.key_eq fun _ => key_of_get?
    have hmeets := ih hrest hnext
    rw [get?_put, hresult] at hmeets
    rw [get?_cons]
    by_cases hkey : head.key = key
    · subst hkey
      rw [if_pos rfl, get?_eq_none_iff.2 hhead] at hmeets
      rw [if_pos rfl]
      cases hfinal : final.get? head.key with
      | none =>
        rw [hfinal] at hmeets
        cases hmeets
      | some merged =>
        rw [hfinal] at hmeets
        cases hmeets
        exact .arrives harrives
    · rw [if_neg hkey] at hmeets ⊢
      exact hmeets

/-- With distinct keys, a merge succeeds when each arrival succeeds by itself. -/
theorem absorb_ok {outer : Visibility} {context : Context} {entries : List Entry}
    (hkeys : (keys entries).Nodup)
    (h : ∀ incoming ∈ entries, ∃ result, Arrives outer (context.get? incoming.key) incoming result) :
    ∃ final, context.absorb outer entries = .ok final := by
  induction entries generalizing context with
  | nil => exact ⟨context, rfl⟩
  | cons head rest ih =>
    obtain ⟨hhead, hrest⟩ := List.nodup_cons.1 hkeys
    obtain ⟨result, harrives⟩ := h head List.mem_cons_self
    have hresult : result.key = head.key := harrives.key_eq fun _ => key_of_get?
    obtain ⟨final, hfinal⟩ : ∃ final, (context.put result).absorb outer rest = .ok final := by
      refine ih hrest fun incoming hmem => ?_
      have hne : result.key ≠ incoming.key := by
        rw [hresult]
        exact fun heq => hhead (heq ▸ List.mem_map_of_mem hmem)
      rw [get?_put, if_neg hne]
      exact h incoming (List.mem_cons_of_mem _ hmem)
    exact ⟨final, absorb_cons_ok.2 ⟨result, harrives, hfinal⟩⟩

/-- With distinct keys, a merge succeeds exactly when each arrival succeeds by itself. -/
theorem absorb_ok_iff {outer : Visibility} {context : Context} {entries : List Entry}
    (hkeys : (keys entries).Nodup) :
    (∃ final, context.absorb outer entries = .ok final) ↔
      ∀ incoming ∈ entries, ∃ result, Arrives outer (context.get? incoming.key) incoming result := by
  refine ⟨fun ⟨final, hfinal⟩ incoming hmem => ?_, absorb_ok hkeys⟩
  have hmeets := meets_absorb hkeys hfinal incoming.key
  rw [get?_of_mem hkeys hmem] at hmeets
  generalize final.get? incoming.key = result? at hmeets
  cases hmeets with
  | arrives h => exact ⟨_, h⟩

end Context

end Faults
