import Faults.Entry.View
import Faults.Proofs.Members
import Faults.Proofs.Tree

/-!
# Views by path

In a context without repeated keys each view gives a key what the entry of that key is shown as:
`Context.get?_logValues` for the logs, `Context.get?_publicValues` for the outside. Further in, the
logs show at a path what stands there (`Context.logValues_at?`).
-/

namespace Faults

/-- The value that a path of keys leads to through objects. -/
def Json.at? : Json → List String → Option Json
  | value, [] => some value
  | .obj members, key :: path => (Members.get? members key).bind fun value => value.at? path
  | _, _ :: _ => none

theorem Json.at?_append (value : Json) (path more : List String) :
    value.at? (path ++ more) = (value.at? path).bind fun inner => inner.at? more := by
  induction path generalizing value with
  | nil => rw [List.nil_append, at?, Option.bind_some]
  | cons key path ih =>
    cases value with
    | obj members =>
      rw [List.cons_append, at?, at?, Option.bind_assoc]
      exact Option.bind_congr fun inner _ => ih inner
    | _ => rfl

/-- One key more leads to the member of that key. -/
theorem Json.at?_concat {value : Json} {path : List String} {members : Members}
    (hat : value.at? path = some (.obj members)) (key : String) :
    value.at? (path ++ [key]) = members.get? key := by
  rw [at?_append, hat, Option.bind_some, at?]
  exact (Option.bind_congr fun inner _ => by rw [at?]).trans (Option.bind_fun_some _)

@[simp] theorem Entry.logValue_capped (outer : Visibility) (entry : Entry) :
    (entry.capped outer).logValue = entry.logValue := by
  cases entry <;> simp only [capped, withVisibility, logValue]

/-! ## The log view -/

namespace Context

theorem keys_logPairs (context : Context) : (logPairs context).map Prod.fst = context.keys := by
  induction context with
  | nil => rfl
  | cons entry rest ih =>
    rw [logPairs, List.map_cons, ih]
    rfl

theorem logPairs_eq_map (context : Context) :
    logPairs context = context.map fun entry => (entry.key, entry.logValue) := by
  induction context with
  | nil => rfl
  | cons entry rest ih => rw [logPairs, ih, List.map_cons]

theorem lookup_logPairs (context : Context) (key : String) :
    (logPairs context).lookup key = (context.get? key).map Entry.logValue := by
  induction context with
  | nil => rfl
  | cons entry rest ih =>
    rw [logPairs, ← Json.Members.get?, Json.Members.get?_cons, get?_cons, Json.Members.get?, ih]
    by_cases h : entry.key = key
    · rw [if_pos h, if_pos h.symm, Option.map_some]
    · rw [if_neg h, if_neg (fun heq => h heq.symm)]

theorem get?_logValues {context : Context} (h : context.keys.Nodup) (key : String) :
    Json.Members.get? context.logValues key = (context.get? key).map Entry.logValue := by
  rw [logValues, Json.Members.get?_ofList (by rwa [keys_logPairs]), lookup_logPairs]

end Context

theorem Context.sorted_logValues (context : Context) : Json.Members.Sorted context.logValues :=
  Json.Members.sorted_ofList _

theorem Entry.logValue_of_dict {entry : Entry} (h : entry.variant = .dict) :
    entry.logValue = .obj entry.children.logValues := by
  cases entry with
  | dict => rw [Entry.logValue, Context.logValues, Entry.children]
  | _ => cases h

theorem Entry.logValue_at? {entry : Entry} (h : entry.WF) {path : List String} {node : Entry}
    (hat : entry.at? path = some node) : entry.logValue.at? path = some node.logValue := by
  induction path generalizing entry with
  | nil =>
    cases hat
    rfl
  | cons key path ih =>
    obtain ⟨child, hchild, hat⟩ := Option.bind_eq_some_iff.1 hat
    rw [logValue_of_dict (variant_of_child hchild), Json.at?,
      Context.get?_logValues h.children.keys, hchild]
    exact ih (h.children.get? hchild) hat

/-- The logs show at a path what stands there. -/
theorem Context.logValues_at? {context : Context} (h : context.WF) {path : List String} {node : Entry}
    (hat : context.at? path = some node) :
    (Json.obj context.logValues).at? path = some node.logValue := by
  cases path with
  | nil => cases hat
  | cons key path =>
    obtain ⟨entry, hentry, hat⟩ := Option.bind_eq_some_iff.1 hat
    rw [Json.at?, get?_logValues h.keys, hentry]
    exact Entry.logValue_at? (h.get? hentry) hat

/-! ## The public view -/

namespace Context

theorem keys_publicPairs_sublist (context : Context) :
    ((publicPairs context).map Prod.fst).Sublist context.keys := by
  induction context with
  | nil => exact .slnil
  | cons entry rest ih =>
    rw [publicPairs]
    split
    · exact ih.cons _
    · exact ih.cons_cons _

theorem lookup_publicPairs {context : Context} (h : context.keys.Nodup) (key : String) :
    (publicPairs context).lookup key = (context.get? key).bind Entry.publicValue? := by
  induction context with
  | nil => rfl
  | cons entry rest ih =>
    obtain ⟨hentry, hrest⟩ := List.nodup_cons.1 h
    rw [publicPairs, get?_cons]
    by_cases hkey : entry.key = key
    · subst hkey
      rw [if_pos rfl, Option.bind_some]
      split
      · next hvalue =>
        rw [ih hrest, get?_eq_none_iff.2 hentry, hvalue]
        rfl
      · next value hvalue =>
        rw [← Json.Members.get?, Json.Members.get?_cons, if_pos rfl, hvalue]
    · rw [if_neg hkey]
      split
      · exact ih hrest
      · rw [← Json.Members.get?, Json.Members.get?_cons, if_neg (fun heq => hkey heq.symm),
          Json.Members.get?, ih hrest]

theorem get?_publicValues {context : Context} (h : context.keys.Nodup) (key : String) :
    Json.Members.get? context.publicValues key = (context.get? key).bind Entry.publicValue? := by
  rw [publicValues, Json.Members.get?_ofList (h.sublist (keys_publicPairs_sublist context)),
    lookup_publicPairs h]

theorem publicValues_eq_nil_iff {context : Context} :
    context.publicValues = [] ↔ ∀ entry ∈ context, entry.publicValue? = none := by
  rw [publicValues, Json.Members.ofList_eq_nil_iff]
  induction context with
  | nil => simp [publicPairs]
  | cons entry rest ih =>
    rw [publicPairs, List.forall_mem_cons]
    split
    · next hvalue => rw [ih, and_iff_right hvalue]
    · next value hvalue => simp [hvalue]

end Context

/-- What is shown of an entry: the value of a field, or the shown content of a dict, which is not
empty. -/
theorem Entry.publicValue?_eq_some {entry : Entry} {value : Json}
    (h : entry.publicValue? = some value) :
    (∃ key received, entry = .field key value .exposed received) ∨
      ∃ key received children, entry = .dict key .exposed received children ∧
        Context.publicValues children ≠ [] ∧ value = .obj (Context.publicValues children) := by
  cases entry with
  | field key value' visibility received =>
    cases visibility with
    | exposed =>
      cases h
      exact .inl ⟨key, received, rfl⟩
    | restricted => cases h
  | stack frames => cases h
  | trail hops => cases h
  | dict key visibility received children =>
    cases visibility with
    | exposed =>
      rw [publicValue?, ← Context.publicValues] at h
      split at h
      · cases h
      · next hne =>
        cases h
        exact .inr ⟨key, received, children, rfl, hne, rfl⟩
    | restricted => cases h

end Faults
