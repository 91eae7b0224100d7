import Mathlib.Tactic.Common
import Faults.Entry.Basic

/-!
# Entries as trees

An entry is a tree whose inner nodes are dicts. This module names the ways to go through it:
induction over the children (`Entry.induct`), properties of every node (`Entry.All`), and the node at
a path of keys (`Entry.at?`). The contexts that merging builds are well-formed: siblings have
distinct keys at every depth (`Context.WF`), so a path leads to one node.
-/

namespace Faults

/-! ## Children -/

namespace Entry

/-- The entries of a dict; other entries have none. -/
def children : Entry → Context
  | dict _ _ _ children => children
  | _ => []

@[simp] theorem children_capped (outer : Visibility) (entry : Entry) :
    (entry.capped outer).children = entry.children := by
  cases entry <;> rfl

@[simp] theorem variant_capped (outer : Visibility) (entry : Entry) :
    (entry.capped outer).variant = entry.variant := by
  cases entry <;> rfl

@[simp] theorem isReceived_capped (outer : Visibility) (entry : Entry) :
    (entry.capped outer).isReceived = entry.isReceived := by
  cases entry <;> rfl

theorem sizeOf_lt_of_mem_children {entry child : Entry} (h : child ∈ entry.children) :
    sizeOf child < sizeOf entry := by
  cases entry with
  | dict key visibility received children =>
    have hlt : sizeOf child < sizeOf children := List.sizeOf_lt_of_mem h
    simp only [dict.sizeOf_spec]
    omega
  | _ => cases h

/-- Induction over an entry, given what is to be shown of the entries right below it. -/
@[elab_as_elim, induction_eliminator]
protected theorem induct {motive : Entry → Prop}
    (step : ∀ entry, (∀ child ∈ entry.children, motive child) → motive entry) (entry : Entry) :
    motive entry :=
  step entry fun child _ => Entry.induct step child
termination_by sizeOf entry
decreasing_by exact sizeOf_lt_of_mem_children ‹_›

end Entry

/-! ## The entry of a key -/

namespace Context

@[simp] theorem get?_nil (key : String) : get? [] key = none := rfl

theorem get?_cons (entry : Entry) (rest : Context) (key : String) :
    get? (entry :: rest) key = if entry.key = key then some entry else rest.get? key := by
  unfold get?
  by_cases h : entry.key = key
  · rw [List.find?_cons_of_pos (by simp [h]), if_pos h]
  · rw [List.find?_cons_of_neg (by simp [h]), if_neg h]

theorem key_of_get? {context : Context} {key : String} {entry : Entry}
    (h : context.get? key = some entry) : entry.key = key := by
  simpa using List.find?_some h

theorem mem_of_get? {context : Context} {key : String} {entry : Entry}
    (h : context.get? key = some entry) : entry ∈ context :=
  List.mem_of_find?_eq_some h

theorem get?_eq_none_iff {context : Context} {key : String} :
    context.get? key = none ↔ key ∉ context.keys := by
  simp [get?, keys, List.find?_eq_none]

theorem get?_of_mem {context : Context} (h : context.keys.Nodup) {entry : Entry}
    (hmem : entry ∈ context) : context.get? entry.key = some entry := by
  induction context with
  | nil => cases hmem
  | cons head rest ih =>
    obtain ⟨hhead, hrest⟩ := List.nodup_cons.1 h
    rw [get?_cons]
    rcases List.mem_cons.1 hmem with rfl | hmem
    · rw [if_pos rfl]
    · have hne : head.key ≠ entry.key := fun heq => hhead (heq ▸ List.mem_map_of_mem hmem)
      rw [if_neg hne]
      exact ih hrest hmem

end Context

theorem Entry.variant_of_child {entry : Entry} {key : String} {child : Entry}
    (h : entry.children.get? key = some child) : entry.variant = .dict := by
  cases entry with
  | dict => rfl
  | _ => cases h

/-! ## Every node -/

/-- The entry and every entry in it satisfy `P`. -/
inductive Entry.All (P : Entry → Prop) : Entry → Prop where
  | intro {entry : Entry} (self : P entry) (children : ∀ child ∈ entry.children, All P child) :
    All P entry

theorem Entry.all_iff {P : Entry → Prop} {entry : Entry} :
    entry.All P ↔ P entry ∧ ∀ child ∈ entry.children, child.All P :=
  ⟨fun h => by cases h with | intro self children => exact ⟨self, children⟩,
    fun h => .intro h.1 h.2⟩

theorem Entry.All.self {P : Entry → Prop} {entry : Entry} (h : entry.All P) : P entry :=
  (all_iff.1 h).1

theorem Entry.All.child {P : Entry → Prop} {entry : Entry} (h : entry.All P) {key : String}
    {child : Entry} (hget : entry.children.get? key = some child) : child.All P :=
  (all_iff.1 h).2 child (Context.mem_of_get? hget)

/-- Siblings have distinct keys, at every depth. -/
def Entry.WF (entry : Entry) : Prop := entry.All fun node => node.children.keys.Nodup

/-- Siblings have distinct keys, at every depth: what holds of each context that is built by
merging. -/
structure Context.WF (context : Context) : Prop where
  keys : context.keys.Nodup
  entries : ∀ entry ∈ context, entry.WF

theorem Context.WF.nil : WF [] := ⟨List.nodup_nil, fun _ h => by cases h⟩

theorem Entry.WF.children {entry : Entry} (h : entry.WF) : entry.children.WF :=
  ⟨h.self, (all_iff.1 h).2⟩

theorem Entry.wf_of_children {entry : Entry} (h : entry.children.WF) : entry.WF :=
  .intro h.keys h.entries

theorem Entry.wf_of_leaf {entry : Entry} (h : entry.children = []) : entry.WF := by
  refine wf_of_children ?_
  rw [h]
  exact .nil

theorem Entry.WF.capped {entry : Entry} (h : entry.WF) (outer : Visibility) :
    (entry.capped outer).WF := by
  refine wf_of_children ?_
  rw [children_capped]
  exact h.children

theorem Context.WF.get? {context : Context} (h : context.WF) {key : String} {entry : Entry}
    (hget : context.get? key = some entry) : entry.WF :=
  h.entries entry (Context.mem_of_get? hget)

/-! ## Paths -/

/-- The entry that a path of keys leads to from an entry on. -/
def Entry.at? (entry : Entry) : List String → Option Entry
  | [] => some entry
  | key :: path => (entry.children.get? key).bind fun child => child.at? path

/-- The entry that a path of keys leads to. -/
def Context.at? (context : Context) : List String → Option Entry
  | [] => none
  | key :: path => (context.get? key).bind fun entry => entry.at? path

/-- The entry at a path below a place where there may be none. -/
def Entry.beneath (place : Option Entry) (path : List String) : Option Entry :=
  place.bind fun current => current.at? path

theorem Entry.at?_append (entry : Entry) (path more : List String) :
    entry.at? (path ++ more) = (entry.at? path).bind fun node => node.at? more := by
  induction path generalizing entry with
  | nil => rfl
  | cons key path ih =>
    rw [List.cons_append, at?, at?, Option.bind_assoc]
    exact Option.bind_congr fun child _ => ih child

/-- One key more leads to the child of that key. -/
theorem Context.at?_concat {context : Context} {path : List String} {node : Entry}
    (hat : context.at? path = some node) (key : String) :
    context.at? (path ++ [key]) = node.children.get? key := by
  cases path with
  | nil => cases hat
  | cons first path =>
    obtain ⟨entry, hentry, hat⟩ := Option.bind_eq_some_iff.1 hat
    rw [List.cons_append, at?, hentry, Option.bind_some, Entry.at?_append, hat]
    exact Option.bind_fun_some _

theorem Entry.All.at? {P : Entry → Prop} {entry : Entry} (h : entry.All P) {path : List String}
    {node : Entry} (hat : entry.at? path = some node) : node.All P := by
  induction path generalizing entry with
  | nil =>
    cases hat
    exact h
  | cons key path ih =>
    obtain ⟨child, hchild, hat⟩ := Option.bind_eq_some_iff.1 hat
    exact ih (h.child hchild) hat

end Faults
