import Faults.Entry.Build

/-!
# Redacted values

A redacted value of at least five characters shows its two ends. How long they are depends on the
length of the value alone: the ends are never empty and never meet, and leave at least three fifths
of the characters hidden, or two thirds from six characters on (`two_mul_le_hidden`). So the
redaction succeeds on every value, and two values of one length are shown alike exactly when they
have the same ends: `redacted_hides_middle`.
-/

namespace Faults.Entry

/-! ## The length of an end -/

theorem one_le_shownEnd (length : Nat) : 1 ≤ shownEnd length := Nat.le_max_right _ _

/-- From six characters on, a sixth is never less than the one character that each end has. -/
theorem shownEnd_eq_div {length : Nat} (h : 6 ≤ length) : shownEnd length = length / 6 :=
  Nat.max_eq_left (by omega)

theorem two_mul_shownEnd_le {length : Nat} (h : 5 ≤ length) : 2 * shownEnd length ≤ length := by
  unfold shownEnd
  omega

/-- With one more character at each end, more than a third would be shown. -/
theorem lt_six_mul_shownEnd_succ (length : Nat) : length < 6 * (shownEnd length + 1) := by
  unfold shownEnd
  omega

section Shares

variable {length hidden : Nat} (hlength : length = shownEnd length + hidden + shownEnd length)

include hlength

theorem two_mul_le_hidden (h : 6 ≤ length) : 2 * length ≤ 3 * hidden := by
  rw [shownEnd_eq_div h] at hlength
  omega

/-- Five characters are the shortest length with ends, and the one that hides the smallest share. -/
theorem three_mul_le_hidden (h : 5 ≤ length) : 3 * length ≤ 5 * hidden := by
  rcases Nat.eq_or_lt_of_le h with rfl | hlong
  · have hend : shownEnd 5 = 1 := rfl
    omega
  · have hthirds := two_mul_le_hidden hlength hlong
    omega

end Shares

/-! ## Ends and middle -/

/-- `value` is `middle` between two ends of `shown` characters. -/
structure Cut (shown : Nat) (value front middle back : String) : Prop where
  value_eq : value = front ++ middle ++ back
  length_front : front.length = shown
  length_back : back.length = shown

theorem exists_cut {shown : Nat} {value : String} (h : 2 * shown ≤ value.length) :
    ∃ front middle back, Cut shown value front middle back := by
  have hbounds : shown ≤ value.length - shown ∧ value.length - shown ≤ value.toList.length := by
    rw [String.length_toList]
    omega
  obtain ⟨middle, hpart⟩ : ∃ middle,
      Text.part? value.toList shown (value.length - shown) = some middle := ⟨_, if_pos hbounds⟩
  obtain ⟨front, back, hvalue, hfront, hmiddle⟩ := Text.part?_eq_some_iff.1 hpart
  refine ⟨.ofList front, .ofList middle, .ofList back, ?_, ?_, ?_⟩
  · rw [← String.ofList_append, ← String.ofList_append, ← hvalue, String.ofList_toList]
  · rw [String.length_ofList, hfront]
  · have htotal := congrArg List.length hvalue
    rw [String.length_toList, List.length_append, List.length_append] at htotal
    rw [String.length_ofList]
    omega

namespace Cut

variable {shown : Nat} {value front middle back : String}

theorem length_value (h : Cut shown value front middle back) :
    value.length = shown + middle.length + shown := by
  rw [h.value_eq, String.length_append, String.length_append, h.length_front, h.length_back]

theorem toList_value (h : Cut shown value front middle back) :
    value.toList = front.toList ++ middle.toList ++ back.toList := by
  rw [h.value_eq, String.toList_append, String.toList_append]

theorem part?_front (h : Cut shown value front middle back) :
    Text.part? value.toList 0 shown = some front.toList := by
  refine Text.part?_eq_some_iff.2 ⟨[], middle.toList ++ back.toList, ?_, rfl, ?_⟩
  · rw [h.toList_value, List.nil_append, List.append_assoc]
  · rw [String.length_toList, h.length_front, Nat.zero_add]

theorem part?_back (h : Cut shown value front middle back) :
    Text.part? value.toList (value.length - shown) value.length = some back.toList := by
  have hlength := h.length_value
  refine Text.part?_eq_some_iff.2 ⟨front.toList ++ middle.toList, [], ?_, ?_, ?_⟩
  · rw [h.toList_value, List.append_nil]
  · rw [List.length_append, String.length_toList, String.length_toList, h.length_front]
    omega
  · rw [String.length_toList, h.length_back]
    omega

end Cut

/-! ## What is shown -/

theorem redacted?_of_lt (key : String) {value : String} (h : value.length < 5) :
    redacted? key value = some (exposedField key (.str "****")) := by
  have hshort : value.toList.length < 5 := by rwa [String.length_toList]
  unfold redacted? redact?
  rw [if_pos hshort]
  rfl

theorem redacted?_of_cut (key : String) {value front middle back : String} (h : 5 ≤ value.length)
    (hcut : Cut (shownEnd value.length) value front middle back) :
    redacted? key value = some (exposedField key (.str (front ++ "****" ++ back))) := by
  have hlong : ¬ value.toList.length < 5 := by
    rw [String.length_toList]
    omega
  have htext : redact? value.toList = some (front ++ "****" ++ back).toList := by
    unfold redact?
    rw [if_neg hlong]
    simp only [String.length_toList, hcut.part?_front, hcut.part?_back, String.toList_append]
    rfl
  unfold redacted?
  rw [htext]
  simp only [Option.bind_eq_bind, Option.bind_some, String.ofList_toList]
  rfl

/-- The ends can be read off what is shown of a value of a known length. -/
theorem ends_eq_of_shown {front back front' back' : String} (hlength : front.length = front'.length)
    (h : front ++ "****" ++ back = front' ++ "****" ++ back') : front = front' ∧ back = back' := by
  have hlists := congrArg String.toList h
  simp only [String.toList_append, List.append_assoc] at hlists
  obtain ⟨hfront, hrest⟩ := List.append_inj hlists (by simpa only [String.length_toList])
  exact ⟨String.toList_inj.1 hfront, String.toList_inj.1 (List.append_cancel_left hrest)⟩

theorem redacted?_eq_iff (key : String) {value other front middle back : String}
    (h : 5 ≤ value.length) (hcut : Cut (shownEnd value.length) value front middle back)
    (hlength : other.length = value.length) :
    redacted? key other = redacted? key value ↔
      ∃ hidden, Cut (shownEnd value.length) other front hidden back := by
  have hother : 5 ≤ other.length := hlength ▸ h
  rw [redacted?_of_cut key h hcut, ← hlength]
  constructor
  · intro heq
    -- The other value has ends of its own; they are as long, so what is shown tells them.
    obtain ⟨front', hidden, back', hcut'⟩ := exists_cut (two_mul_shownEnd_le hother)
    have hfront : front'.length = front.length := by
      rw [hcut'.length_front, hcut.length_front, hlength]
    rw [redacted?_of_cut key hother hcut'] at heq
    simp only [exposedField, Option.some.injEq, Entry.field.injEq, Json.str.injEq, true_and,
      and_true] at heq
    obtain ⟨rfl, rfl⟩ := ends_eq_of_shown hfront heq
    exact ⟨hidden, hcut'⟩
  · rintro ⟨hidden, hcut'⟩
    exact redacted?_of_cut key hother hcut'

/-- **Redaction hides the middle.** The redaction of a text never fails. Of fewer than five
characters nothing is shown, whatever they are. Otherwise the text is cut into two ends of one
length, which is at least one and depends only on how many characters there are, and what is hidden
between them; the ends are shown around the placeholder. At least three fifths of the characters are
hidden, from six characters on at least two thirds, and longer ends would hide less than that. Any
other text with as many characters is redacted to the same value exactly when it has the same ends,
whatever stands between them. -/
theorem redacted_hides_middle (key value : String) :
    (value.length < 5 → redacted? key value = some (exposedField key (.str "****"))) ∧
    (5 ≤ value.length → ∃ front middle back,
      let shown := shownEnd value.length
      Cut shown value front middle back ∧
      redacted? key value = some (exposedField key (.str (front ++ "****" ++ back))) ∧
      1 ≤ shown ∧ value.length < 6 * (shown + 1) ∧
      3 * value.length ≤ 5 * middle.length ∧
      (6 ≤ value.length → 2 * value.length ≤ 3 * middle.length) ∧
      ∀ other : String, other.length = value.length →
        (redacted? key other = redacted? key value ↔
          ∃ hidden, Cut shown other front hidden back)) := by
  refine ⟨redacted?_of_lt key, fun h => ?_⟩
  obtain ⟨front, middle, back, hcut⟩ := exists_cut (two_mul_shownEnd_le h)
  have hlength := hcut.length_value
  exact ⟨front, middle, back, hcut, redacted?_of_cut key h hcut, one_le_shownEnd _,
    lt_six_mul_shownEnd_succ _, three_mul_le_hidden hlength h, two_mul_le_hidden hlength,
    fun other => redacted?_eq_iff key h hcut⟩

example : redacted? "name" "éßäöü" = some (exposedField "name" (.str "é****ü")) := rfl

end Faults.Entry
