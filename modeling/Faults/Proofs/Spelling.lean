import Mathlib.Tactic.Common
import Faults.Json.Reader
import Faults.Json.Writer

/-!
# Texts and numbers, written and read

A text is read back character by character, since reading an escape gives the character it was
written for (`Json.textTail_escape`). A whole number is read back when its digits end where the
number does and it is not too large for its sign (`Json.number_toDigits`). What stands behind a value
in a JSON text is a comma, a closing mark or nothing (`Json.Ends`), and none of these goes on with a
number.
-/

namespace Faults.Json

/-! ## Texts -/

/-- The four digits of a control character are read as its number. -/
theorem codeUnit_control : ∀ n < 0x20,
    codeUnit '0' '0' (hexDigit (n / 16)) (hexDigit (n % 16)) = some n := by
  decide

theorem textTail_control {n : Nat} (h : n < 0x20) (taken rest : List Char) :
    textTail taken ('\\' :: 'u' :: '0' :: '0' :: hexDigit (n / 16) :: hexDigit (n % 16) :: rest) =
      textTail (Char.ofNat n :: taken) rest := by
  have htrailing : isTrailing n = false := by
    simp only [isTrailing, Bool.and_eq_false_iff, decide_eq_false_iff_not]
    omega
  have hleading : isLeading n = false := by
    simp only [isLeading, Bool.and_eq_false_iff, decide_eq_false_iff_not]
    omega
  rw [textTail, codeUnit_control n h]
  simp only [htrailing, hleading, Bool.false_eq_true, if_false]

theorem textTail_plain {c : Char} (hquote : c ≠ '"') (hmark : c ≠ '\\') (hcontrol : ¬ c.toNat < 0x20)
    (taken rest : List Char) : textTail taken (c :: rest) = textTail (c :: taken) rest := by
  rw [textTail]
  · rw [if_neg hcontrol]
  · exact hquote
  · exact hmark

/-- A written character is read as that character. -/
theorem textTail_escape (c : Char) (taken rest : List Char) :
    textTail taken (escape c ++ rest) = textTail (c :: taken) rest := by
  unfold escape
  split
  · rfl
  · rfl
  · rfl
  · rfl
  · rfl
  · rfl
  · rfl
  · next hquote hmark _ _ _ _ _ =>
    split
    · next h =>
      have hcontrol := textTail_control h taken rest
      rw [Char.ofNat_toNat] at hcontrol
      exact hcontrol
    · next h => exact textTail_plain hquote hmark h taken rest

theorem textTail_flatMap_escape (chars taken rest : List Char) :
    textTail taken (chars.flatMap escape ++ '"' :: rest) = .ok (taken.reverse ++ chars, rest) := by
  induction chars generalizing taken with
  | nil =>
    rw [List.flatMap_nil, List.nil_append, List.append_nil]
    rfl
  | cons c chars ih =>
    rw [List.flatMap_cons, List.append_assoc, textTail_escape, ih, List.reverse_cons,
      List.append_assoc]
    rfl

/-- A text is read back behind its opening quote. -/
theorem textBody_quote (s : String) (rest : List Char) :
    textBody (s.toList.flatMap escape ++ '"' :: rest) = .ok (s, rest) := by
  rw [textBody, textTail_flatMap_escape]
  exact congrArg (fun s => Except.ok (s, rest)) String.ofList_toList

theorem quote_append (s : String) (rest : List Char) :
    quote s ++ rest = '"' :: (s.toList.flatMap escape ++ '"' :: rest) := by
  rw [quote]
  simp only [List.cons_append, List.append_assoc, List.nil_append]

/-! ## What stands behind a value -/

/-- The rest of a text behind a value: nothing, or a mark that does not belong to any value. -/
def Ends (rest : List Char) : Prop := ∀ c ∈ rest.head?, c = ',' ∨ c = ']' ∨ c = '}'

theorem Ends.nil : Ends [] := fun _ h => by cases h

theorem Ends.cons {c : Char} (h : c = ',' ∨ c = ']' ∨ c = '}') (rest : List Char) :
    Ends (c :: rest) := by
  intro c' hc'
  obtain rfl := Option.some.inj hc'
  exact h

/-! ## Numbers -/

/-- Digits are read up to the first other character. -/
theorem digitRun_append {digits rest : List Char} (hdigits : ∀ c ∈ digits, c.isDigit)
    (hrest : Ends rest) : digitRun (digits ++ rest) = (digits, rest) := by
  have hhead : ∀ c ∈ rest.head?, ¬ c.isDigit := by
    intro c hc
    rcases hrest c hc with rfl | rfl | rfl <;> decide
  have htake : rest.takeWhile Char.isDigit = [] := by
    cases rest with
    | nil => rfl
    | cons c rest => exact List.takeWhile_cons_of_neg (hhead c rfl)
  have hdrop : rest.dropWhile Char.isDigit = rest := by
    cases rest with
    | nil => rfl
    | cons c rest => exact List.dropWhile_cons_of_neg (hhead c rfl)
  rw [digitRun, List.takeWhile_append_of_pos hdigits, List.dropWhile_append_of_pos hdigits, htake,
    hdrop, List.append_nil]

theorem le_ofDigitChars (digits : List Char) (n : Nat) : n ≤ Nat.ofDigitChars 10 digits n := by
  induction digits generalizing n with
  | nil => exact Nat.le_of_eq Nat.ofDigitChars_nil.symm
  | cons c rest ih =>
    rw [Nat.ofDigitChars_cons]
    exact Nat.le_trans (by omega) (ih _)

/-- All digits go into the significand if the number they stand for does. -/
theorem feed_eq {digits : List Char} {n : Nat} (h : Nat.ofDigitChars 10 digits n ≤ significandLimit) :
    feed n digits = (Nat.ofDigitChars 10 digits n, []) := by
  induction digits generalizing n with
  | nil => rw [feed, Nat.ofDigitChars_nil]
  | cons c rest ih =>
    rw [Nat.ofDigitChars_cons, Nat.mul_comm] at h ⊢
    rw [feed]
    exact (if_pos (Nat.le_trans (le_ofDigitChars rest _) h)).trans (ih h)

/-- No number but zero starts with the digit zero. -/
theorem head?_toDigits {n : Nat} (h : 0 < n) : (Nat.toDigits 10 n).head? ≠ some '0' := by
  induction n using Nat.strongRecOn with
  | ind n ih =>
    rw [Nat.toDigits_eq_if (by decide)]
    split
    · rw [List.head?_singleton, ne_eq, Option.some.injEq, Nat.digitChar_eq_zero]
      omega
    · have hfront := ih (n / 10) (by omega) (by omega)
      obtain ⟨c, rest, hcons⟩ := List.exists_cons_of_ne_nil (@Nat.toDigits_ne_nil (n / 10) 10)
      rw [hcons] at hfront ⊢
      exact hfront

theorem toDigits_ne_zero_cons (n : Nat) (c : Char) (rest : List Char) :
    Nat.toDigits 10 n ≠ '0' :: c :: rest := by
  intro h
  cases n with
  | zero =>
    rw [Nat.toDigits_zero] at h
    cases h
  | succ n =>
    refine head?_toDigits (Nat.succ_pos n) ?_
    rw [h, List.head?_cons]

/-- A number is read from its digits: a whole one, if they end where the number does. -/
theorem number_toDigits {n : Nat} (h : n ≤ significandLimit) (negative : Bool) {rest : List Char}
    (hrest : Ends rest) :
    number negative (Nat.toDigits 10 n ++ rest) = .ok (whole negative n, rest) := by
  have hdigits : ∀ c ∈ Nat.toDigits 10 n, c.isDigit := fun c hc =>
    Nat.isDigit_of_mem_toDigits (by decide) (by decide) hc
  have hfeed : feed 0 (Nat.toDigits 10 n) = (n, []) := by
    have hvalue := @Nat.ofDigitChars_ten_toDigits n
    rw [feed_eq (by rwa [hvalue]), hvalue]
  rw [number, digitRun_append hdigits hrest]
  dsimp only
  split
  · next hnil => exact absurd hnil Nat.toDigits_ne_nil
  · next hzero => exact absurd hzero (toDigits_ne_zero_cons _ _ _)
  · rw [hfeed]
    dsimp only
    split
    · rcases hrest '.' rfl with h | h | h <;> cases h
    · have hhead : ∀ c, c ≠ ',' ∧ c ≠ ']' ∧ c ≠ '}' → rest.head? ≠ some c := by
        rintro c ⟨hcomma, hbracket, hbrace⟩ hc
        rcases hrest c hc with rfl | rfl | rfl
        · exact hcomma rfl
        · exact hbracket rfl
        · exact hbrace rfl
      exact if_pos ⟨rfl, hhead 'e' (by decide), hhead 'E' (by decide)⟩

end Faults.Json
