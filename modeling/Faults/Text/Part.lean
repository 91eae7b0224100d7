/-!
# Parts of a text

`part?` cuts the part between two positions out of a text. Positions count characters; two that do
not bound a part, because one lies behind the end of the text or they stand in the wrong order, give
none.
-/

namespace Faults.Text

/-- The characters of a text from the position `start` up to `stop`. -/
def part? (text : List Char) (start stop : Nat) : Option (List Char) :=
  if start ≤ stop ∧ stop ≤ text.length then some ((text.drop start).take (stop - start)) else none

/-- A part is what stands between a beginning and a rest of the lengths that the positions say. -/
theorem part?_eq_some_iff {text part : List Char} {start stop : Nat} :
    part? text start stop = some part ↔
      ∃ before after, text = before ++ part ++ after ∧ before.length = start ∧
        start + part.length = stop := by
  unfold part?
  constructor
  · intro h
    split at h
    case isTrue hbounds =>
      cases h
      have hrest : (text.drop start).drop (stop - start) = text.drop stop := by
        rw [List.drop_drop, Nat.add_sub_cancel' hbounds.1]
      refine ⟨text.take start, text.drop stop, ?_, ?_, ?_⟩
      · rw [List.append_assoc, ← hrest, List.take_append_drop, List.take_append_drop]
      · rw [List.length_take]
        omega
      · rw [List.length_take, List.length_drop]
        omega
    case isFalse => cases h
  · rintro ⟨before, after, rfl, rfl, rfl⟩
    rw [if_pos (by simp), Nat.add_sub_cancel_left, List.append_assoc, List.drop_left,
      List.take_left]

end Faults.Text
