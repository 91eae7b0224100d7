import Faults.Proofs.Arrival

/-!
# Local and received entries

An entry that the process makes is local all through, and one that is rebuilt from a report is
received all through. Merging entries of one sort gives entries of that sort (`Arrives.uniform`,
`Context.uniform_addAll`). Only where the two sorts meet are there dicts with children of both.
-/

namespace Faults

open Entry (Arrives)

/-- Everything in the entry was received, or nothing in it was. -/
def Entry.Unmixed (received : Bool) (entry : Entry) : Prop :=
  entry.All fun node => node.isReceived = received

theorem Entry.stable_isReceived (received : Bool) :
    Entry.Stable fun node => node.isReceived = received where
  capped outer h := by rwa [isReceived_capped]
  trail _ h := h
  dict _ h := h

theorem Entry.Arrives.unmixed {received : Bool} {outer : Visibility} {place : Option Entry}
    {incoming result : Entry} (h : Arrives outer place incoming result)
    (hplace : ∀ current, place = some current → current.Unmixed received)
    (hincoming : incoming.Unmixed received) : result.Unmixed received :=
  h.all (stable_isReceived received) hplace hincoming

/-- Everything in the entry was received or nothing was, and siblings have distinct keys. -/
structure Entry.Uniform (received : Bool) (entry : Entry) : Prop where
  unmixed : entry.Unmixed received
  wf : entry.WF

/-- The entry is made by the process itself. -/
abbrev Entry.Local (entry : Entry) : Prop := entry.Uniform false

/-- The entry comes from another process. -/
abbrev Entry.Remote (entry : Entry) : Prop := entry.Uniform true

namespace Entry.Uniform

variable {received : Bool} {entry : Entry}

theorem of_children (hreceived : entry.isReceived = received) (hkeys : entry.children.keys.Nodup)
    (h : ∀ child ∈ entry.children, child.Uniform received) : entry.Uniform received where
  unmixed := .intro hreceived fun child hmem => (h child hmem).unmixed
  wf := wf_of_children ⟨hkeys, fun child hmem => (h child hmem).wf⟩

theorem of_leaf (hreceived : entry.isReceived = received) (h : entry.children = []) :
    entry.Uniform received := by
  refine .of_children hreceived ?_ ?_
  · rw [h]
    exact List.nodup_nil
  · rw [h]
    exact fun _ hmem => by cases hmem

theorem isReceived (h : entry.Uniform received) : entry.isReceived = received := h.unmixed.self

theorem child (h : entry.Uniform received) {key : String} {child : Entry}
    (hget : entry.children.get? key = some child) : child.Uniform received :=
  ⟨h.unmixed.child hget, h.wf.children.get? hget⟩

theorem at? (h : entry.Uniform received) {path : List String} {node : Entry}
    (hat : entry.at? path = some node) : node.Uniform received :=
  ⟨h.unmixed.at? hat, h.wf.at? hat⟩

end Entry.Uniform

theorem Entry.Arrives.uniform {received : Bool} {outer : Visibility} {place : Option Entry}
    {incoming result : Entry} (h : Arrives outer place incoming result)
    (hplace : ∀ current, place = some current → current.Uniform received)
    (hincoming : incoming.Uniform received) : result.Uniform received :=
  ⟨h.unmixed (fun current hcurrent => (hplace current hcurrent).unmixed) hincoming.unmixed,
    h.wf (fun current hcurrent => (hplace current hcurrent).wf) hincoming.wf⟩

namespace Context

variable {received : Bool} {context : Context}

theorem uniform_at? (h : ∀ entry ∈ context, entry.Uniform received) {path : List String}
    {node : Entry} (hat : context.at? path = some node) : node.Uniform received := by
  cases path with
  | nil => cases hat
  | cons key path =>
    obtain ⟨entry, hentry, hat⟩ := Option.bind_eq_some_iff.1 hat
    exact (h entry (mem_of_get? hentry)).at? hat

theorem uniform_put (h : ∀ entry ∈ context, entry.Uniform received) {outer : Visibility}
    {incoming result : Entry} (hincoming : incoming.Uniform received)
    (harrives : Arrives outer (context.get? incoming.key) incoming result) :
    ∀ entry ∈ context.put result, entry.Uniform received := by
  intro entry hentry
  rcases mem_put hentry with rfl | hentry
  · exact harrives.uniform (fun _ hget => h _ (mem_of_get? hget)) hincoming
  · exact h entry hentry

theorem uniform_addAll {final : Context} (h : ∀ entry ∈ context, entry.Uniform received)
    {entries : List Entry} (hentries : ∀ entry ∈ entries, entry.Uniform received)
    (hok : context.addAll entries = .ok final) : ∀ entry ∈ final, entry.Uniform received := by
  rw [addAll_eq_absorb] at hok
  exact absorb_induct (motive := fun now => ∀ entry ∈ now, entry.Uniform received) hok h
    fun now incoming result hmem hnow => uniform_put hnow (hentries incoming hmem)

theorem uniform_ofList {entries : List Entry} (h : ∀ entry ∈ entries, entry.Uniform received)
    (hok : ofList entries = .ok context) :
    context.keys.Nodup ∧ ∀ entry ∈ context, entry.Uniform received := by
  have hwf : context.WF := WF.nil.addAll (fun entry hmem => (h entry hmem).wf) hok
  exact ⟨hwf.keys, uniform_addAll (fun _ h => by cases h) h hok⟩

end Context

end Faults
