import Faults.Json.Basic
import Mathlib.Data.List.Induction
import Mathlib.Data.String.Basic

/-!
# Members as a finite map

An object is known by the value it gives each key. Inserting a member changes the value of one key
(`get?_insert`) and keeps the members sorted (`sorted_insert`), so members collected from pairs with
distinct keys give each key what the pairs say (`get?_ofList`), in whatever order the pairs come, and
are determined by that (`ext_of_sorted`).
-/

namespace Faults.Json.Members

@[simp] theorem get?_nil (key : String) : get? [] key = none := rfl

theorem get?_cons (k : String) (v : Json) (rest : Members) (key : String) :
    get? ((k, v) :: rest) key = if key = k then some v else get? rest key := by
  unfold get?
  rw [List.lookup_cons]
  by_cases h : key = k
  · simp [h]
  · have hne : (key == k) = false := beq_eq_false_iff_ne.2 h
    simp [h, hne]

/-- Insertion changes the value of one key. -/
theorem get?_insert (members : Members) (key : String) (value : Json) (other : String) :
    get? (members.insert key value) other =
      if other = key then some value else get? members other := by
  induction members with
  | nil => rw [insert, get?_cons]
  | cons member rest ih =>
    obtain ⟨k, v⟩ := member
    rw [insert]
    by_cases hlt : key < k
    · rw [if_pos hlt, get?_cons]
    by_cases heq : key = k
    · subst heq
      rw [if_neg hlt, if_pos rfl, get?_cons, get?_cons]
      by_cases hk : other = key <;> simp [hk]
    · rw [if_neg hlt, if_neg heq, get?_cons, get?_cons, ih]
      by_cases hk : other = k
      · subst hk
        rw [if_pos rfl, if_pos rfl, if_neg (fun h => heq h.symm)]
      · rw [if_neg hk, if_neg hk]

theorem mem_keys_insert {members : Members} {key other : String} {value : Json} :
    other ∈ keys (members.insert key value) ↔ other = key ∨ other ∈ keys members := by
  induction members with
  | nil => simp [insert, keys]
  | cons member rest ih =>
    obtain ⟨k, v⟩ := member
    rw [insert]
    split_ifs with hlt heq
    · simp [keys]
    · simp [keys, heq]
    · simp only [keys, List.map_cons, List.mem_cons] at ih ⊢
      rw [ih]
      exact or_left_comm

theorem sorted_insert {members : Members} (h : members.Sorted) (key : String) (value : Json) :
    (members.insert key value).Sorted := by
  induction members with
  | nil => exact List.pairwise_singleton _ _
  | cons member rest ih =>
    obtain ⟨k, v⟩ := member
    obtain ⟨hk, hrest⟩ := List.pairwise_cons.1 h
    rw [insert]
    split_ifs with hlt heq
    · refine List.pairwise_cons.2 ⟨fun other hother => ?_, h⟩
      rcases List.mem_cons.1 hother with rfl | hother
      · exact hlt
      · exact lt_trans hlt (hk other hother)
    · subst heq
      exact List.pairwise_cons.2 ⟨hk, hrest⟩
    · refine List.pairwise_cons.2 ⟨fun other hother => ?_, ih hrest⟩
      rcases mem_keys_insert.1 hother with rfl | hother
      · exact lt_of_le_of_ne (not_lt.1 hlt) (fun h => heq h.symm)
      · exact hk other hother

theorem get?_eq_none_iff {members : Members} {key : String} :
    members.get? key = none ↔ key ∉ members.keys := by
  rw [get?, List.lookup_eq_none_iff, keys, List.mem_map]
  constructor
  · rintro h ⟨member, hmem, rfl⟩
    simpa using h member hmem
  · intro h member hmem
    exact bne_iff_ne.2 fun heq => h ⟨member, hmem, heq.symm⟩

theorem get?_eq_none_of_lt {members : Members} {key : String}
    (h : ∀ other ∈ keys members, key < other) : get? members key = none := by
  rw [get?, List.lookup_eq_none_iff]
  intro member hmember
  rw [bne_iff_ne]
  exact (h member.1 (List.mem_map_of_mem hmember)).ne

/-- Sorted members are known by the value they give each key. -/
theorem ext_of_sorted {left right : Members} (hleft : left.Sorted) (hright : right.Sorted)
    (h : ∀ key, get? left key = get? right key) : left = right := by
  induction left generalizing right with
  | nil =>
    cases right with
    | nil => rfl
    | cons member rest =>
      have hkey := h member.1
      rw [get?_cons, if_pos rfl] at hkey
      cases hkey
  | cons member rest ih =>
    obtain ⟨k, v⟩ := member
    cases right with
    | nil =>
      have hkey := h k
      rw [get?_cons, if_pos rfl] at hkey
      cases hkey
    | cons member' rest' =>
      obtain ⟨k', v'⟩ := member'
      obtain ⟨hk, hrest⟩ := List.pairwise_cons.1 hleft
      obtain ⟨hk', hrest'⟩ := List.pairwise_cons.1 hright
      -- the smaller of the two first keys would have a value on one side only
      have heq : k = k' := by
        rcases lt_trichotomy k k' with hlt | heq | hlt
        · have hkey := h k
          rw [get?_cons, if_pos rfl, get?_cons, if_neg hlt.ne,
            get?_eq_none_of_lt fun other hother => hlt.trans (hk' other hother)] at hkey
          cases hkey
        · exact heq
        · have hkey := h k'
          rw [get?_cons, if_neg hlt.ne,
            get?_eq_none_of_lt fun other hother => hlt.trans (hk other hother),
            get?_cons, if_pos rfl] at hkey
          cases hkey
      subst heq
      have hvalue := h k
      rw [get?_cons, if_pos rfl, get?_cons, if_pos rfl] at hvalue
      cases hvalue
      refine congrArg _ (ih hrest hrest' fun key => ?_)
      by_cases hkey : key = k
      · rw [hkey, get?_eq_none_of_lt hk, get?_eq_none_of_lt hk']
      · have hrests := h key
        rwa [get?_cons, if_neg hkey, get?_cons, if_neg hkey] at hrests

theorem insert_ne_nil (members : Members) (key : String) (value : Json) :
    members.insert key value ≠ [] := by
  intro h
  have := get?_insert members key value key
  rw [h, if_pos rfl] at this
  cases this

/-! ## Members collected from pairs -/

/-- With distinct keys, pairs that are collected behind other members give their keys the values. -/
theorem get?_foldl_insert {pairs : List (String × Json)} (h : (pairs.map Prod.fst).Nodup)
    (members : Members) (key : String) :
    get? (pairs.foldl (fun all (k, v) => all.insert k v) members) key =
      (pairs.lookup key).or (get? members key) := by
  induction pairs generalizing members with
  | nil => rfl
  | cons pair rest ih =>
    obtain ⟨k, v⟩ := pair
    obtain ⟨hk, hrest⟩ := List.nodup_cons.1 h
    rw [List.foldl_cons, ih hrest, get?_insert, ← get?, ← get?, get?_cons]
    by_cases hkey : key = k
    · subst hkey
      have hnone : get? rest key = none := by
        rw [get?, List.lookup_eq_none_iff]
        intro pair hpair
        rw [bne_iff_ne]
        rintro rfl
        exact hk (List.mem_map.2 ⟨pair, hpair, rfl⟩)
      rw [hnone, if_pos rfl, if_pos rfl]
      rfl
    · rw [if_neg hkey, if_neg hkey]

theorem get?_ofList {pairs : List (String × Json)} (h : (pairs.map Prod.fst).Nodup) (key : String) :
    get? (ofList pairs) key = pairs.lookup key := by
  rw [ofList, get?_foldl_insert h, get?_nil, Option.or_none]

/-- Whatever the keys, only the pairs of a key give it its value. -/
theorem get?_ofList_filter (pairs : List (String × Json)) (key : String) :
    get? (ofList (pairs.filter fun pair => pair.1 = key)) key = get? (ofList pairs) key := by
  induction pairs using List.reverseRecOn with
  | nil => rfl
  | append_singleton front last ih =>
    rw [List.filter_append, ofList, ofList, List.foldl_concat, List.foldl_append, ← ofList, ← ofList,
      get?_insert]
    by_cases hkey : last.1 = key
    · subst hkey
      rw [if_pos rfl, List.filter_cons_of_pos (by simp), List.filter_nil, List.foldl_cons,
        List.foldl_nil, get?_insert, if_pos rfl]
    · rw [if_neg (Ne.symm hkey), List.filter_cons_of_neg (by simpa using hkey), List.filter_nil,
        List.foldl_nil, ih]

theorem sorted_ofList (pairs : List (String × Json)) : (ofList pairs).Sorted := by
  have key : ∀ members : Members, members.Sorted →
      Sorted (pairs.foldl (fun all (k, v) => all.insert k v) members) := by
    induction pairs with
    | nil => exact fun _ h => h
    | cons pair rest ih => exact fun members h => ih _ (sorted_insert h pair.1 pair.2)
  exact key [] List.Pairwise.nil

theorem Sorted.nodup {members : Members} (h : members.Sorted) : members.keys.Nodup :=
  List.Pairwise.imp ne_of_lt h

/-- Members that are sorted already are collected as they stand. -/
theorem ofList_of_sorted {members : Members} (h : members.Sorted) : ofList members = members :=
  ext_of_sorted (sorted_ofList members) h fun key => get?_ofList h.nodup key

theorem mem_of_mem_insert {members : Members} {key : String} {value : Json}
    {member : String × Json} (h : member ∈ members.insert key value) :
    member = (key, value) ∨ member ∈ members := by
  induction members with
  | nil => exact .inl (List.mem_singleton.1 h)
  | cons first rest ih =>
    obtain ⟨k, v⟩ := first
    rw [insert] at h
    split_ifs at h with hlt heq
    · exact List.mem_cons.1 h
    · exact (List.mem_cons.1 h).imp_right (List.mem_cons_of_mem _)
    · rcases List.mem_cons.1 h with rfl | h
      · exact .inr List.mem_cons_self
      · exact (ih h).imp_right (List.mem_cons_of_mem _)

theorem mem_of_mem_ofList {pairs : List (String × Json)} {member : String × Json}
    (h : member ∈ ofList pairs) : member ∈ pairs := by
  have key : ∀ members : Members,
      member ∈ pairs.foldl (fun all (k, v) => all.insert k v) members →
      member ∈ members ∨ member ∈ pairs := by
    clear h
    induction pairs with
    | nil => exact fun _ h => .inl h
    | cons pair rest ih =>
      intro members h
      rcases ih _ h with h | h
      · rcases mem_of_mem_insert h with rfl | h
        · exact .inr List.mem_cons_self
        · exact .inl h
      · exact .inr (List.mem_cons_of_mem _ h)
  exact (key [] h).resolve_left List.not_mem_nil

theorem insert_perm {members : Members} {key : String} (h : key ∉ keys members) (value : Json) :
    (members.insert key value).Perm ((key, value) :: members) := by
  induction members with
  | nil => exact .refl _
  | cons member rest ih =>
    obtain ⟨k, v⟩ := member
    rw [keys, List.map_cons, List.mem_cons, not_or] at h
    rw [insert]
    split_ifs with hlt heq
    · exact .refl _
    · exact absurd heq h.1
    · exact ((ih h.2).cons (k, v)).trans (.swap ..)

/-- With distinct keys, no pair is lost when they are collected. -/
theorem ofList_perm {pairs : List (String × Json)} (h : (pairs.map Prod.fst).Nodup) :
    (ofList pairs).Perm pairs := by
  induction pairs using List.reverseRecOn with
  | nil => exact .refl _
  | append_singleton front last ih =>
    rw [List.map_append, List.nodup_append] at h
    obtain ⟨hfront, -, hdisjoint⟩ := h
    have hlast : last.1 ∉ keys (ofList front) := by
      intro hmem
      have hmem' : last.1 ∈ front.map Prod.fst := ((ih hfront).map Prod.fst).mem_iff.1 hmem
      exact hdisjoint _ hmem' _ List.mem_cons_self rfl
    rw [ofList, List.foldl_concat, ← ofList]
    refine (insert_perm hlast last.2).trans (((ih hfront).cons last).trans ?_)
    exact (List.perm_append_singleton last front).symm

theorem ofList_eq_nil_iff {pairs : List (String × Json)} : ofList pairs = [] ↔ pairs = [] := by
  refine ⟨fun h => ?_, fun h => by rw [h]; rfl⟩
  rcases List.eq_nil_or_concat pairs with rfl | ⟨front, last, rfl⟩
  · rfl
  · rw [ofList, List.concat_eq_append, List.foldl_append] at h
    exact absurd h (insert_ne_nil _ _ _)

end Faults.Json.Members
