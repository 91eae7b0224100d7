import Faults.Proofs.Arrival
import Faults.Proofs.Views

/-!
# Merging key by key

What arrives under a key meets only what stands under that key. So a merge does under each key what it
does with the entries of that key alone, it fails where that fails, and the order in which entries of
different keys arrive shows in nothing but the order of the keys. Main statements:

* `Context.absorb_under`: a merge, seen from one key;
* `Context.absorb_ok_iff_under`: a merge succeeds when it does under every key;
* `Context.logValues_eq_of_under`, `Context.publicValues_eq_of_under`: contexts with the same entries
  under every key have the same views.
-/

namespace Faults.Context

open Entry (Arrives)

/-- The entries of a key. -/
def under (context : Context) (key : String) : Context :=
  context.filter fun entry => entry.key = key

theorem under_cons_self (entry : Entry) (rest : Context) :
    under (entry :: rest) entry.key = entry :: rest.under entry.key :=
  List.filter_cons_of_pos (by simp)

theorem under_cons_of_ne {entry : Entry} {key : String} (h : entry.key ≠ key) (rest : Context) :
    under (entry :: rest) key = rest.under key :=
  List.filter_cons_of_neg (by simpa using h)

theorem under_append (front back : Context) (key : String) :
    under (front ++ back) key = front.under key ++ back.under key :=
  List.filter_append ..

theorem under_eq_nil_iff {context : Context} {key : String} :
    context.under key = [] ↔ ∀ entry ∈ context, entry.key ≠ key := by
  simp [under, List.filter_eq_nil_iff]

theorem get?_under (context : Context) (key : String) :
    (context.under key).get? key = context.get? key := by
  induction context with
  | nil => rfl
  | cons entry rest ih =>
    by_cases hkey : entry.key = key
    · subst hkey
      rw [under_cons_self, get?_cons, get?_cons, if_pos rfl, if_pos rfl]
    · rw [under_cons_of_ne hkey, get?_cons, if_neg hkey, ih]

theorem under_put_self (context : Context) (entry : Entry) :
    (context.put entry).under entry.key = (context.under entry.key).put entry := by
  induction context with
  | nil => exact under_cons_self entry []
  | cons head rest ih =>
    rw [put]
    by_cases hkey : head.key = entry.key
    · rw [if_pos hkey, under_cons_self, ← hkey, under_cons_self, put, if_pos hkey]
    · rw [if_neg hkey, under_cons_of_ne hkey, under_cons_of_ne hkey, ih]

theorem under_put_of_ne {entry : Entry} {key : String} (h : entry.key ≠ key) (context : Context) :
    (context.put entry).under key = context.under key := by
  induction context with
  | nil => exact under_cons_of_ne h []
  | cons head rest ih =>
    rw [put]
    by_cases hkey : head.key = entry.key
    · rw [if_pos hkey, under_cons_of_ne h, under_cons_of_ne (hkey ▸ h)]
    · rw [if_neg hkey]
      by_cases hhead : head.key = key
      · subst hhead
        rw [under_cons_self, under_cons_self, ih]
      · rw [under_cons_of_ne hhead, under_cons_of_ne hhead, ih]

/-! ## Merges -/

variable {outer : Visibility} {context final : Context} {entries : List Entry}

/-- Under each key a merge is the merge of what has that key. -/
theorem absorb_under (h : context.absorb outer entries = .ok final) (key : String) :
    (context.under key).absorb outer (under entries key) = .ok (final.under key) := by
  induction entries generalizing context with
  | nil =>
    cases h
    rfl
  | cons incoming rest ih =>
    obtain ⟨result, harrives, h⟩ := absorb_cons_ok.1 h
    have hresult : result.key = incoming.key := harrives.key_eq fun _ => key_of_get?
    replace h := ih h
    by_cases hkey : incoming.key = key
    · subst hkey
      rw [← get?_under] at harrives
      rw [← hresult, under_put_self, hresult] at h
      rw [under_cons_self]
      exact absorb_cons_ok.2 ⟨result, harrives, h⟩
    · rw [under_put_of_ne (hresult ▸ hkey)] at h
      rwa [under_cons_of_ne hkey]

/-- A merge succeeds exactly when it does under every key. -/
theorem absorb_ok_iff_under :
    (∃ final, context.absorb outer entries = .ok final) ↔
      ∀ key, ∃ part, (context.under key).absorb outer (under entries key) = .ok part := by
  refine ⟨fun ⟨final, h⟩ key => ⟨_, absorb_under h key⟩, fun h => ?_⟩
  induction entries generalizing context with
  | nil => exact ⟨context, rfl⟩
  | cons incoming rest ih =>
    obtain ⟨part, hpart⟩ := h incoming.key
    rw [under_cons_self] at hpart
    obtain ⟨result, harrives, hpart⟩ := absorb_cons_ok.1 hpart
    rw [get?_under] at harrives
    have hresult : result.key = incoming.key := harrives.key_eq fun _ => key_of_get?
    obtain ⟨final, hfinal⟩ : ∃ final, (context.put result).absorb outer rest = .ok final := by
      refine ih fun key => ?_
      by_cases hkey : incoming.key = key
      · subst hkey
        rw [← hresult, under_put_self, hresult]
        exact ⟨part, hpart⟩
      · rw [under_put_of_ne (hresult ▸ hkey), ← under_cons_of_ne hkey rest]
        exact h key
    exact ⟨final, absorb_cons_ok.2 ⟨result, harrives, hfinal⟩⟩

/-- The order in which entries of different keys arrive does not decide whether they can be merged. -/
theorem absorb_ok_congr {entries' : List Entry}
    (h : ∀ key, under entries key = under entries' key) :
    (∃ final, context.absorb outer entries = .ok final) ↔
      ∃ final, context.absorb outer entries' = .ok final := by
  rw [absorb_ok_iff_under, absorb_ok_iff_under]
  simp only [h]

/-- Nor does it decide what stands under a key in the end. -/
theorem under_congr_of_absorb {entries' : List Entry} {final' : Context}
    (h : ∀ key, under entries key = under entries' key)
    (hfinal : context.absorb outer entries = .ok final)
    (hfinal' : context.absorb outer entries' = .ok final') (key : String) :
    final.under key = final'.under key := by
  have hunder := absorb_under hfinal key
  rw [h, absorb_under hfinal' key] at hunder
  exact (Except.ok.inj hunder).symm

/-! ## Views -/

theorem logPairs_under (context : Context) (key : String) :
    logPairs (context.under key) = (logPairs context).filter fun pair => pair.1 = key := by
  rw [logPairs_eq_map, logPairs_eq_map, List.filter_map]
  rfl

theorem publicPairs_under (context : Context) (key : String) :
    publicPairs (context.under key) = (publicPairs context).filter fun pair => pair.1 = key := by
  induction context with
  | nil => rfl
  | cons entry rest ih =>
    rw [publicPairs]
    by_cases hkey : entry.key = key
    · subst hkey
      rw [under_cons_self, publicPairs]
      split
      · exact ih
      · rw [List.filter_cons_of_pos (by simp), ih]
    · rw [under_cons_of_ne hkey, ih]
      split
      · rfl
      · rw [List.filter_cons_of_neg (by simpa using hkey)]

/-- What the logs show under a key is what they show of the entries of that key. -/
theorem get?_logValues_under (context : Context) (key : String) :
    Json.Members.get? (context.under key).logValues key =
      Json.Members.get? context.logValues key := by
  rw [logValues, logPairs_under, Json.Members.get?_ofList_filter, logValues]

theorem get?_publicValues_under (context : Context) (key : String) :
    Json.Members.get? (context.under key).publicValues key =
      Json.Members.get? context.publicValues key := by
  rw [publicValues, publicPairs_under, Json.Members.get?_ofList_filter, publicValues]

theorem logValues_eq_of_under {left right : Context}
    (h : ∀ key, left.under key = right.under key) : left.logValues = right.logValues := by
  refine Json.Members.ext_of_sorted (sorted_logValues left) (sorted_logValues right) fun key => ?_
  rw [← get?_logValues_under left, ← get?_logValues_under right, h]

theorem publicValues_eq_of_under {left right : Context}
    (h : ∀ key, left.under key = right.under key) : left.publicValues = right.publicValues := by
  refine Json.Members.ext_of_sorted (Json.Members.sorted_ofList _) (Json.Members.sorted_ofList _)
    fun key => ?_
  rw [← get?_publicValues_under left, ← get?_publicValues_under right, h]

end Faults.Context
