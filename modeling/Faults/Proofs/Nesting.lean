import Faults.Proofs.Members
import Faults.Proofs.Spelling

/-!
# Values, written and read

A plain value, which has no real numbers in it, is read back from its text if its arrays and objects
do not nest deeper than the reader allows; if they do, the text is refused. So what reading leads to
is settled by the depth alone (`Json.value_chars`), whatever stands behind the value. Arrays and
objects are the same thing to a reader: pieces with commas between them and a mark at the end, each
read by itself (`Json.series_separated`).
-/

namespace Faults.Json

/-! ## Depth and plain values -/

mutual

/-- How deep arrays and objects nest. -/
def depth : Json → Nat
  | arr items => depthItems items + 1
  | obj members => depthMembers members + 1
  | _ => 0

def depthItems : List Json → Nat
  | [] => 0
  | item :: rest => max item.depth (depthItems rest)

def depthMembers : List (String × Json) → Nat
  | [] => 0
  | (_, value) :: rest => max value.depth (depthMembers rest)

end

mutual

/-- No number in the value is real, and each lies between -2^63 and 2^64 - 1. -/
def Plain : Json → Prop
  | int n => -Int.ofNat (Nat.pow 2 63) ≤ n ∧ n < Int.ofNat (Nat.pow 2 64)
  | real _ => False
  | arr items => PlainItems items
  | obj members => PlainMembers members
  | _ => True

def PlainItems : List Json → Prop
  | [] => True
  | item :: rest => item.Plain ∧ PlainItems rest

def PlainMembers : List (String × Json) → Prop
  | [] => True
  | (_, value) :: rest => value.Plain ∧ PlainMembers rest

end

theorem depthItems_le_iff {items : List Json} {bound : Nat} :
    depthItems items ≤ bound ↔ ∀ item ∈ items, item.depth ≤ bound := by
  induction items with
  | nil => simp [depthItems]
  | cons item rest ih => rw [depthItems, Nat.max_le, ih, List.forall_mem_cons]

theorem depthMembers_le_iff {members : List (String × Json)} {bound : Nat} :
    depthMembers members ≤ bound ↔ ∀ member ∈ members, member.2.depth ≤ bound := by
  induction members with
  | nil => simp [depthMembers]
  | cons member rest ih =>
    obtain ⟨key, value⟩ := member
    rw [depthMembers, Nat.max_le, ih, List.forall_mem_cons]

/-! ## Pieces one after the other -/

/-- What reading leads to where something is accepted or refused as a whole. -/
def grant {α : Type} (fits : Prop) [Decidable fits] (a : α) (rest : List Char) :
    Except ReadError (α × List Char) :=
  if fits then .ok (a, rest) else .error .malformed

theorem map_grant {α β : Type} (f : α → β) (fits : Prop) [Decidable fits] (a : α)
    (rest : List Char) :
    (grant fits a rest).map (fun (a, rest) => (f a, rest)) = grant fits (f a) rest := by
  unfold grant
  split <;> rfl

theorem grant_congr {α : Type} {fits fits' : Prop} [Decidable fits] [Decidable fits']
    (h : fits ↔ fits') (a : α) (rest : List Char) : grant fits a rest = grant fits' a rest := by
  simp only [grant, h]

/-- The texts of pieces with commas between them and a closing mark behind them. -/
def separated (close : Char) : List (List Char) → List Char
  | [] => [close]
  | [piece] => piece ++ [close]
  | piece :: next :: rest => piece ++ ',' :: separated close (next :: rest)

/-- There is a mark for each piece. -/
theorem length_le_separated (close : Char) (pieces : List (List Char)) :
    pieces.length ≤ (separated close pieces).length := by
  induction pieces using separated.induct with
  | case1 => simp
  | case2 piece => simp [separated]
  | case3 piece next rest ih =>
    rw [separated, List.length_append, List.length_cons, List.length_cons (a := ',')]
    omega

/-- Behind every piece stands a comma or the closing mark. -/
theorem exists_mark (close : Char) (piece : List Char) (others : List (List Char))
    (rest : List Char) : ∃ c tail, (c = ',' ∨ c = close) ∧
      separated close (piece :: others) ++ rest = piece ++ c :: tail := by
  cases others with
  | nil => exact ⟨close, rest, .inr rfl, List.append_assoc ..⟩
  | cons next others =>
    exact ⟨',', separated close (next :: others) ++ rest, .inl rfl, List.append_assoc ..⟩

theorem skipGap_cons {c : Char} (h : isGap c = false) (rest : List Char) :
    skipGap (c :: rest) = c :: rest :=
  List.dropWhile_cons_of_neg (by rw [h]; exact Bool.false_ne_true)

section Series

variable {α : Type} {close : Char} {piece : Reader α} {fuel : Nat} {cs rest : List Char} {first : α}

theorem series_error {error : ReadError} (h : piece cs = .error error) :
    series close piece (fuel + 1) cs = .error error := by
  rw [series, h]
  rfl

theorem series_last (hgap : isGap close = false) (h : piece cs = .ok (first, close :: rest)) :
    series close piece (fuel + 1) cs = .ok ([first], rest) := by
  rw [series, h]
  dsimp only [bind, Except.bind]
  rw [skipGap_cons hgap]
  exact if_pos rfl

theorem series_more (hcomma : ',' ≠ close) (h : piece cs = .ok (first, ',' :: rest)) :
    series close piece (fuel + 1) cs =
      (series close piece fuel rest).map fun (others, rest) => (first :: others, rest) := by
  rw [series, h]
  change (if ',' = close then _ else if ',' = ',' then _ else _) = _
  rw [if_neg hcomma, if_pos rfl]
  cases series close piece fuel rest <;> rfl

variable {spell : α → List Char} {fits : α → Prop} [DecidablePred fits] {pieces : List α}

/-- Pieces that are accepted or refused each by itself are so one after the other. -/
theorem series_separated (hclose : close = ']' ∨ close = '}') (hne : pieces ≠ [])
    (hpiece : ∀ a ∈ pieces, ∀ rest, Ends rest → piece (spell a ++ rest) = grant (fits a) a rest)
    (hfuel : pieces.length ≤ fuel) (rest : List Char) :
    series close piece fuel (separated close (pieces.map spell) ++ rest) =
      grant (∀ a ∈ pieces, fits a) pieces rest := by
  have hgap : isGap close = false := by rcases hclose with rfl | rfl <;> rfl
  have hcomma : ',' ≠ close := by rcases hclose with rfl | rfl <;> decide
  induction pieces generalizing fuel with
  | nil => exact absurd rfl hne
  | cons first others ih =>
    obtain ⟨hfirst, hothers⟩ := List.forall_mem_cons.1 hpiece
    obtain _ | fuel := fuel
    · simp at hfuel
    · have hread : ∀ c tail, c = ',' ∨ c = close →
          piece (spell first ++ c :: tail) = grant (fits first) first (c :: tail) := by
        rintro c tail (rfl | rfl)
        · exact hfirst _ (.cons (.inl rfl) _)
        · exact hfirst _ (.cons (.inr hclose) _)
      by_cases hfits : fits first
      · simp only [grant, if_pos hfits] at hread
        cases others with
        | nil =>
          rw [List.map_singleton, separated, List.append_assoc, List.singleton_append,
            series_last hgap (hread _ _ (.inr rfl)), grant,
            if_pos (List.forall_mem_singleton.2 hfits)]
        | cons next others =>
          rw [List.map_cons, List.map_cons, separated, List.append_assoc, List.cons_append,
            ← List.map_cons, series_more hcomma (hread _ _ (.inl rfl)),
            ih (List.cons_ne_nil _ _) hothers (Nat.le_of_succ_le_succ hfuel), map_grant]
          exact grant_congr ⟨fun h => List.forall_mem_cons.2 ⟨hfits, h⟩,
            fun h => (List.forall_mem_cons.1 h).2⟩ _ _
      · simp only [grant, if_neg hfits] at hread
        obtain ⟨c, tail, hc, htext⟩ := exists_mark close (spell first) (others.map spell) rest
        rw [List.map_cons, htext, series_error (hread c tail hc), grant,
          if_neg fun h => hfits (h first List.mem_cons_self)]

/-- A round for each character and one more are enough. -/
theorem series_text (hclose : close = ']' ∨ close = '}') (hne : pieces ≠ [])
    (hpiece : ∀ a ∈ pieces, ∀ rest, Ends rest → piece (spell a ++ rest) = grant (fits a) a rest)
    (rest : List Char) :
    series close piece ((separated close (pieces.map spell) ++ rest).length + 1)
        (separated close (pieces.map spell) ++ rest) = grant (∀ a ∈ pieces, fits a) pieces rest := by
  refine series_separated hclose hne hpiece ?_ rest
  have hlength := length_le_separated close (pieces.map spell)
  rw [List.length_map] at hlength
  rw [List.length_append]
  omega

end Series

/-! ## The parts of a text -/

/-- A member as it is written. -/
def memberText : String × Json → List Char
  | (key, value) => quote key ++ ':' :: value.chars

theorem itemChars_eq (items : List Json) : itemChars items = separated ']' (items.map chars) := by
  induction items with
  | nil => rw [itemChars, List.map_nil, separated]
  | cons item rest ih =>
    cases rest with
    | nil => rw [itemChars, List.map_singleton, separated]
    | cons next rest =>
      rw [itemChars, ih]
      simp only [List.map_cons, separated]

theorem memberChars_eq (members : List (String × Json)) :
    memberChars members = separated '}' (members.map memberText) := by
  induction members with
  | nil => rw [memberChars, List.map_nil, separated]
  | cons member rest ih =>
    obtain ⟨key, value⟩ := member
    cases rest with
    | nil => rw [memberChars, List.map_singleton, separated, memberText]
    | cons next rest =>
      rw [memberChars, ih]
      simp only [List.map_cons, separated, memberText]

/-! ## Numbers -/

/-- A digit starts nothing but a number. -/
theorem scalar?_digit {c : Char} (h : c.isDigit) (rest : List Char) :
    isGap c = false ∧ c ≠ ']' ∧ scalar? c rest = some (number false (c :: rest)) := by
  have hne : ∀ d : Char, d.isDigit = false → c ≠ d := by
    rintro d hd rfl
    rw [hd] at h
    cases h
  refine ⟨?_, hne ']' rfl, ?_⟩
  · simp [isGap, hne ' ' rfl, hne '\n' rfl, hne '\t' rfl, hne '\r' rfl]
  · rw [scalar?, if_neg (hne 'n' rfl), if_neg (hne 't' rfl), if_neg (hne 'f' rfl),
      if_neg (hne '-' rfl), if_pos h]

/-- The digits of a number, the first one apart. -/
theorem exists_toDigits_eq_cons (n : Nat) :
    ∃ c digits, Nat.toDigits 10 n = c :: digits ∧ c.isDigit := by
  obtain ⟨c, digits, hcons⟩ := List.exists_cons_of_ne_nil (@Nat.toDigits_ne_nil n 10)
  refine ⟨c, digits, hcons, ?_⟩
  have hmem : c ∈ Nat.toDigits 10 n := by
    rw [hcons]
    exact List.mem_cons_self
  exact Nat.isDigit_of_mem_toDigits (by decide) (by decide) hmem

theorem value_of_scalar {c : Char} {rest : List Char}
    {read : Except ReadError (Json × List Char)} (hgap : isGap c = false)
    (h : scalar? c rest = some read) (bound : Nat) : value bound (c :: rest) = read := by
  rw [value, skipGap_cons hgap]
  dsimp only
  rw [h]

theorem value_int {n : Int} (h : (int n).Plain) (bound : Nat) {rest : List Char} (hrest : Ends rest) :
    value bound ((int n).chars ++ rest) = .ok (int n, rest) := by
  obtain ⟨hlower, hupper⟩ : -Int.ofNat (Nat.pow 2 63) ≤ n ∧ n < Int.ofNat (Nat.pow 2 64) := by
    rwa [Plain] at h
  rw [Nat.pow_eq, Int.ofNat_eq_natCast] at hlower hupper
  have hlimit : n.natAbs ≤ significandLimit := by
    rw [significandLimit, Nat.pow_eq]
    omega
  rw [chars]
  split
  · next hneg =>
    have hwhole : whole true n.natAbs = int n := by
      have hfits : ¬ (n.natAbs = 0 ∨ Nat.pow 2 63 < n.natAbs) := by
        rw [Nat.pow_eq]
        omega
      have hvalue : -(n.natAbs : Int) = n := by omega
      exact (if_neg hfits).trans (congrArg int hvalue)
    rw [List.cons_append, value_of_scalar rfl rfl, number_toDigits hlimit _ hrest, hwhole]
  · next hneg =>
    have hwhole : whole false n.natAbs = int n :=
      congrArg int (Int.natAbs_of_nonneg (Int.not_lt.1 hneg))
    obtain ⟨c, digits, hcons, hdigit⟩ := exists_toDigits_eq_cons n.natAbs
    obtain ⟨hgap, -, hscalar⟩ := scalar?_digit hdigit (digits ++ rest)
    rw [hcons, List.cons_append, value_of_scalar hgap hscalar, ← List.cons_append, ← hcons,
      number_toDigits hlimit _ hrest, hwhole]

/-- A value starts with a character that is neither a blank nor a closing bracket. -/
theorem chars_eq_cons {v : Json} (h : v.Plain) :
    ∃ c rest, v.chars = c :: rest ∧ isGap c = false ∧ c ≠ ']' := by
  cases v with
  | int n =>
    rw [chars]
    split
    · exact ⟨_, _, rfl, rfl, by decide⟩
    · obtain ⟨c, digits, hcons, hdigit⟩ := exists_toDigits_eq_cons n.natAbs
      obtain ⟨hgap, hclose, -⟩ := scalar?_digit hdigit digits
      exact ⟨c, digits, hcons, hgap, hclose⟩
  | real x => cases h
  | bool b => cases b <;> exact ⟨_, _, rfl, rfl, by decide⟩
  | _ => exact ⟨_, _, rfl, rfl, by decide⟩

/-! ## Values -/

/-- The value is read back from its text, if its depth is within the bound, and else refused. -/
def Reads (v : Json) : Prop :=
  ∀ bound rest, Ends rest → value bound (v.chars ++ rest) = grant (v.depth ≤ bound) v rest

theorem reads_of_scalar {v : Json} (hdepth : v.depth = 0)
    (h : ∀ bound rest, Ends rest → value bound (v.chars ++ rest) = .ok (v, rest)) : v.Reads := by
  intro bound rest hrest
  rw [h bound rest hrest, grant, if_pos (by rw [hdepth]; exact Nat.zero_le bound)]

theorem arrayBody_of_ne {α : Type} {item : Reader α} {c : Char} (hgap : isGap c = false)
    (hclose : c ≠ ']') (rest : List Char) :
    arrayBody item (c :: rest) = series ']' item ((c :: rest).length + 1) (c :: rest) := by
  rw [arrayBody, skipGap_cons hgap]
  split
  · next heq => exact absurd (List.cons.inj heq).1 hclose
  · rfl

/-- An array is read back item by item. -/
theorem arrayBody_itemChars {items : List Json} (hplain : ∀ item ∈ items, item.Plain)
    (h : ∀ item ∈ items, item.Reads) (bound : Nat) (rest : List Char) :
    arrayBody (value bound) (itemChars items ++ rest) =
      grant (depthItems items ≤ bound) items rest := by
  cases items with
  | nil =>
    rw [itemChars, depthItems, grant, if_pos (Nat.zero_le bound)]
    rfl
  | cons first others =>
    obtain ⟨c, tail, hchars, hgap, hclose⟩ := chars_eq_cons (hplain first List.mem_cons_self)
    obtain ⟨mark, after, -, htext⟩ := exists_mark ']' first.chars (others.map chars) rest
    have hseries := series_text (.inl rfl) (List.cons_ne_nil first others)
      (fun item hmem rest hrest => h item hmem bound rest hrest) rest
    rw [itemChars_eq, grant_congr depthItems_le_iff, ← hseries]
    rw [List.map_cons, htext, hchars, List.cons_append, arrayBody_of_ne hgap hclose]

/-- A key between quotes is read back. -/
theorem keyMark_quote (key : String) (rest : List Char) :
    (keyMark (quote key ++ rest) >>= textBody) = .ok (key, rest) := by
  rw [quote_append]
  exact textBody_quote key rest

/-- A member is read back by its key and its value. -/
theorem member_memberText {entry : String × Json} (h : entry.2.Reads) (bound : Nat)
    {rest : List Char} (hrest : Ends rest) :
    member (value bound) (memberText entry ++ rest) = grant (entry.2.depth ≤ bound) entry rest := by
  obtain ⟨key, v⟩ := entry
  rw [memberText, List.append_assoc, member, keyMark_quote]
  change (value bound (v.chars ++ rest) >>= _) = _
  rw [h bound rest hrest, grant, grant]
  split <;> rfl

theorem objectBody_quote {α : Type} {member : Reader α} (key : String) (rest : List Char) :
    objectBody member (quote key ++ rest) =
      series '}' member ((quote key ++ rest).length + 1) (quote key ++ rest) := by
  rw [quote_append]
  rfl

/-- An object is read back member by member. -/
theorem objectBody_memberChars {members : List (String × Json)}
    (h : ∀ entry ∈ members, entry.2.Reads) (bound : Nat) (rest : List Char) :
    objectBody (member (value bound)) (memberChars members ++ rest) =
      grant (depthMembers members ≤ bound) members rest := by
  cases members with
  | nil =>
    rw [memberChars, depthMembers, grant, if_pos (Nat.zero_le bound)]
    rfl
  | cons first others =>
    obtain ⟨key, v⟩ := first
    obtain ⟨mark, after, -, htext⟩ := exists_mark '}' (memberText (key, v)) (others.map memberText) rest
    have hseries := series_text (.inr rfl) (List.cons_ne_nil (key, v) others)
      (fun entry hmem rest hrest => member_memberText (h entry hmem) bound hrest) rest
    rw [memberChars_eq, grant_congr depthMembers_le_iff, ← hseries]
    rw [List.map_cons, htext, memberText, List.append_assoc, objectBody_quote]

theorem plainItems_iff {items : List Json} : PlainItems items ↔ ∀ item ∈ items, item.Plain := by
  induction items with
  | nil => simp [PlainItems]
  | cons item rest ih => rw [PlainItems, ih, List.forall_mem_cons]

theorem value_arr {items : List Json} (hplain : ∀ item ∈ items, item.Plain)
    (h : ∀ item ∈ items, item.Reads) : (arr items).Reads := by
  intro bound rest hrest
  rw [chars, depth, List.cons_append]
  cases bound with
  | zero =>
    rw [grant, if_neg (Nat.not_succ_le_zero _)]
    rfl
  | succ inner =>
    change (arrayBody (value inner) (itemChars items ++ rest)).map _ = _
    rw [arrayBody_itemChars hplain h, map_grant]
    exact grant_congr Nat.succ_le_succ_iff.symm _ _

theorem value_obj {members : List (String × Json)} (hsorted : Members.Sorted members)
    (h : ∀ entry ∈ members, entry.2.Reads) : (obj members).Reads := by
  intro bound rest hrest
  rw [chars, depth, List.cons_append]
  cases bound with
  | zero =>
    rw [grant, if_neg (Nat.not_succ_le_zero _)]
    rfl
  | succ inner =>
    change (objectBody (member (value inner)) (memberChars members ++ rest)).map _ = _
    rw [objectBody_memberChars h, map_grant fun members => obj (Members.ofList members),
      Members.ofList_of_sorted hsorted]
    exact grant_congr Nat.succ_le_succ_iff.symm _ _

theorem value_str (s : String) (bound : Nat) (rest : List Char) :
    value bound ((str s).chars ++ rest) = .ok (str s, rest) := by
  rw [chars, quote_append, value_of_scalar rfl rfl, textBody_quote]
  rfl

mutual

/-- A plain value is read back from its text. -/
theorem reads_of_plain : (v : Json) → v.Plain → v.Canonical → v.Reads
  | null, _, _ => reads_of_scalar rfl fun _ _ _ => value_of_scalar rfl rfl _
  | bool true, _, _ => reads_of_scalar rfl fun _ _ _ => value_of_scalar rfl rfl _
  | bool false, _, _ => reads_of_scalar rfl fun _ _ _ => value_of_scalar rfl rfl _
  | int n, hplain, _ => reads_of_scalar rfl fun bound rest hrest => value_int hplain bound hrest
  | real x, hplain, _ => by cases hplain
  | str s, _, _ => reads_of_scalar rfl fun bound rest _ => value_str s bound rest
  | arr items, hplain, hcanonical => by
    rw [Plain] at hplain
    rw [Canonical] at hcanonical
    exact value_arr (plainItems_iff.1 hplain) (items_read items hplain hcanonical)
  | obj members, hplain, hcanonical => by
    rw [Plain] at hplain
    rw [Canonical] at hcanonical
    exact value_obj hcanonical.1 (members_read members hplain hcanonical.2)

theorem items_read : (items : List Json) → PlainItems items → CanonicalItems items →
    ∀ item ∈ items, item.Reads
  | [], _, _ => fun _ h => by cases h
  | item :: rest, hplain, hcanonical => by
    rw [PlainItems] at hplain
    rw [CanonicalItems] at hcanonical
    exact List.forall_mem_cons.2 ⟨reads_of_plain item hplain.1 hcanonical.1,
      items_read rest hplain.2 hcanonical.2⟩

theorem members_read : (members : List (String × Json)) → PlainMembers members →
    CanonicalMembers members → ∀ entry ∈ members, entry.2.Reads
  | [], _, _ => fun _ h => by cases h
  | (key, v) :: rest, hplain, hcanonical => by
    rw [PlainMembers] at hplain
    rw [CanonicalMembers] at hcanonical
    exact List.forall_mem_cons.2 ⟨reads_of_plain v hplain.1 hcanonical.1,
      members_read rest hplain.2 hcanonical.2⟩

end

end Faults.Json
