import Faults.Proofs.Nesting

/-!
# The nesting of a text

How deep a JSON text nests can be counted in the text: by the brackets and braces that are open at
once, those inside texts apart, where a backslash takes the character behind it along
(`Json.nesting`). The text of a plain value nests as deep as the value does. The law that carries
this is that a scan of a whole value comes back to the level it started on, whatever that is, and
reaches the depth of the value above it (`Json.Scans`).
-/

namespace Faults.Json

/-- Where a scan of a text is. -/
inductive Spot where
  | outside
  | inside
  /-- Inside a text and behind a backslash. -/
  | escaped
  deriving DecidableEq, Repr

/-- How far a scan has come: how many brackets are open, and the most that were. -/
structure Scan where
  spot : Spot
  level : Nat
  deepest : Nat
  deriving DecidableEq, Repr

/-- The scan after one more character. -/
def Scan.step (scan : Scan) (c : Char) : Scan :=
  match scan.spot with
  | .outside =>
    if c = '"' then { scan with spot := .inside }
    else if c = '[' ∨ c = '{' then
      { scan with level := scan.level + 1, deepest := max scan.deepest (scan.level + 1) }
    else if c = ']' ∨ c = '}' then { scan with level := scan.level - 1 }
    else scan
  | .inside =>
    if c = '"' then { scan with spot := .outside }
    else if c = '\\' then { scan with spot := .escaped }
    else scan
  | .escaped => { scan with spot := .inside }

/-- The most brackets and braces of a JSON text that are open at once. -/
def nesting (text : String) : Nat := (text.toList.foldl Scan.step ⟨.outside, 0, 0⟩).deepest

/-- A scan comes back to the level it started on, and reaches the given height above it. -/
def Scans (cs : List Char) (height : Nat) : Prop :=
  ∀ level deepest, level ≤ deepest → cs.foldl Scan.step ⟨.outside, level, deepest⟩ =
    ⟨.outside, level, max deepest (level + height)⟩

/-! ## What opens nothing -/

/-- What leaves every scan where it is. -/
theorem scans_zero {cs : List Char} (h : ∀ level deepest,
    cs.foldl Scan.step ⟨.outside, level, deepest⟩ = ⟨.outside, level, deepest⟩) : Scans cs 0 := by
  intro level deepest hle
  rw [h, Nat.add_zero, Nat.max_eq_left hle]

theorem hexDigit_control : ∀ n < 0x20, (hexDigit (n / 16) ≠ '"' ∧ hexDigit (n / 16) ≠ '\\') ∧
    hexDigit (n % 16) ≠ '"' ∧ hexDigit (n % 16) ≠ '\\' := by
  decide

theorem step_inside {c : Char} (hquote : c ≠ '"') (hmark : c ≠ '\\') (level deepest : Nat) :
    Scan.step ⟨.inside, level, deepest⟩ c = ⟨.inside, level, deepest⟩ :=
  (if_neg hquote).trans (if_neg hmark)

/-- A written character leaves the scan inside its text. -/
theorem foldl_escape (c : Char) (level deepest : Nat) :
    (escape c).foldl Scan.step ⟨.inside, level, deepest⟩ = ⟨.inside, level, deepest⟩ := by
  unfold escape
  split
  · rfl
  · rfl
  · rfl
  · rfl
  · rfl
  · rfl
  · rfl
  · next hquote hmark _ _ _ _ _ =>
    split
    · next h =>
      obtain ⟨⟨hquote, hmark⟩, hquote', hmark'⟩ := hexDigit_control c.toNat h
      change [hexDigit (c.toNat / 16), hexDigit (c.toNat % 16)].foldl Scan.step
        ⟨.inside, level, deepest⟩ = _
      rw [List.foldl_cons, step_inside hquote hmark, List.foldl_cons, step_inside hquote' hmark',
        List.foldl_nil]
    · rw [List.foldl_cons, step_inside hquote hmark, List.foldl_nil]

theorem foldl_quote (s : String) (level deepest : Nat) :
    (quote s).foldl Scan.step ⟨.outside, level, deepest⟩ = ⟨.outside, level, deepest⟩ := by
  have hinside : ∀ chars : List Char,
      (chars.flatMap escape).foldl Scan.step ⟨.inside, level, deepest⟩ =
        ⟨.inside, level, deepest⟩ := by
    intro chars
    induction chars with
    | nil => rfl
    | cons c rest ih => rw [List.flatMap_cons, List.foldl_append, foldl_escape, ih]
  rw [quote, List.cons_append, List.foldl_cons, List.foldl_append]
  change [_].foldl Scan.step ((s.toList.flatMap escape).foldl Scan.step ⟨.inside, level, deepest⟩) = _
  rw [hinside]
  rfl

theorem foldl_digits {digits : List Char} (h : ∀ c ∈ digits, c.isDigit) (level deepest : Nat) :
    digits.foldl Scan.step ⟨.outside, level, deepest⟩ = ⟨.outside, level, deepest⟩ := by
  induction digits with
  | nil => rfl
  | cons c rest ih =>
    obtain ⟨hdigit, hrest⟩ := List.forall_mem_cons.1 h
    have hne : ∀ d : Char, d.isDigit = false → c ≠ d := by
      rintro d hd rfl
      rw [hd] at hdigit
      cases hdigit
    have hstep : Scan.step ⟨.outside, level, deepest⟩ c = ⟨.outside, level, deepest⟩ := by
      simp [Scan.step, hne '"' rfl, hne '[' rfl, hne '{' rfl, hne ']' rfl, hne '}' rfl]
    rw [List.foldl_cons, hstep, ih hrest]

theorem scans_int (n : Int) : Scans (int n).chars 0 := by
  have hdigits : ∀ c ∈ Nat.toDigits 10 n.natAbs, c.isDigit := fun c hc =>
    Nat.isDigit_of_mem_toDigits (by decide) (by decide) hc
  refine scans_zero fun level deepest => ?_
  rw [chars]
  split
  · exact foldl_digits hdigits level deepest
  · exact foldl_digits hdigits level deepest

/-! ## Pieces and values -/

section Pieces

variable {α : Type} {close : Char} {spell : α → List Char} {height : α → Nat} {pieces : List α}

theorem step_close (hclose : close = ']' ∨ close = '}') (level deepest : Nat) :
    Scan.step ⟨.outside, level + 1, deepest⟩ close = ⟨.outside, level, deepest⟩ := by
  rcases hclose with rfl | rfl <;> rfl

/-- The highest of the pieces. -/
def highest (height : α → Nat) (pieces : List α) : Nat := (pieces.map height).foldr max 0

/-- Behind an opening mark the scan reaches as far as the highest piece does. -/
theorem foldl_separated (hclose : close = ']' ∨ close = '}')
    (h : ∀ a ∈ pieces, Scans (spell a) (height a)) {level deepest : Nat}
    (hle : level + 1 ≤ deepest) :
    (separated close (pieces.map spell)).foldl Scan.step ⟨.outside, level + 1, deepest⟩ =
      ⟨.outside, level, max deepest (level + 1 + highest height pieces)⟩ := by
  induction pieces generalizing deepest with
  | nil =>
    rw [List.map_nil, separated, List.foldl_cons, step_close hclose, List.foldl_nil]
    exact congrArg _ (Nat.max_eq_left hle).symm
  | cons first others ih =>
    obtain ⟨hfirst, hothers⟩ := List.forall_mem_cons.1 h
    have hhighest : highest height (first :: others) =
        max (height first) (highest height others) := rfl
    cases others with
    | nil =>
      rw [List.map_singleton, separated, List.foldl_append, hfirst _ _ hle, List.foldl_cons,
        step_close hclose, List.foldl_nil, hhighest]
      exact congrArg _ (congrArg (max deepest ∘ (level + 1 + ·)) (Nat.max_zero _).symm)
    | cons next others =>
      rw [List.map_cons, List.map_cons, separated, List.foldl_append, hfirst _ _ hle,
        List.foldl_cons, ← List.map_cons]
      change (separated close ((next :: others).map spell)).foldl Scan.step
        ⟨.outside, level + 1, max deepest (level + 1 + height first)⟩ = _
      rw [ih hothers (by omega), hhighest, Nat.max_assoc, Nat.add_max_add_left]

end Pieces

theorem depthItems_eq (items : List Json) : depthItems items = highest depth items := by
  induction items with
  | nil => rfl
  | cons item rest ih => exact congrArg (max item.depth) ih

theorem depthMembers_eq (members : List (String × Json)) :
    depthMembers members = highest (fun entry => entry.2.depth) members := by
  induction members with
  | nil => rfl
  | cons entry rest ih => exact congrArg (max entry.2.depth) ih

theorem scans_arr {items : List Json} (h : ∀ item ∈ items, Scans item.chars item.depth) :
    Scans (arr items).chars (arr items).depth := by
  intro level deepest hle
  rw [chars, itemChars_eq, depth, depthItems_eq, List.foldl_cons]
  change (separated ']' _).foldl Scan.step ⟨.outside, level + 1, max deepest (level + 1)⟩ = _
  rw [foldl_separated (.inl rfl) h (Nat.le_max_right _ _)]
  congr 1
  omega

theorem scans_memberText {entry : String × Json} (h : Scans entry.2.chars entry.2.depth) :
    Scans (memberText entry) entry.2.depth := by
  intro level deepest hle
  obtain ⟨key, v⟩ := entry
  rw [memberText, List.foldl_append, foldl_quote]
  exact h level deepest hle

theorem scans_obj {members : List (String × Json)}
    (h : ∀ entry ∈ members, Scans entry.2.chars entry.2.depth) :
    Scans (obj members).chars (obj members).depth := by
  intro level deepest hle
  rw [chars, memberChars_eq, depth, depthMembers_eq, List.foldl_cons]
  change (separated '}' _).foldl Scan.step ⟨.outside, level + 1, max deepest (level + 1)⟩ = _
  rw [foldl_separated (.inr rfl) (fun entry hmem => scans_memberText (h entry hmem))
    (Nat.le_max_right _ _)]
  congr 1
  omega

mutual

/-- The text of a plain value nests as deep as the value. -/
theorem scans_of_plain : (v : Json) → v.Plain → Scans v.chars v.depth
  | null, _ => scans_zero fun _ _ => rfl
  | bool true, _ => scans_zero fun _ _ => rfl
  | bool false, _ => scans_zero fun _ _ => rfl
  | int n, _ => scans_int n
  | real x, hplain => by cases hplain
  | str s, _ => scans_zero fun level deepest => by rw [chars, foldl_quote]
  | arr items, hplain => by
    rw [Plain] at hplain
    exact scans_arr (items_scan items hplain)
  | obj members, hplain => by
    rw [Plain] at hplain
    exact scans_obj (members_scan members hplain)

theorem items_scan : (items : List Json) → PlainItems items →
    ∀ item ∈ items, Scans item.chars item.depth
  | [], _ => fun _ h => by cases h
  | item :: rest, hplain => by
    rw [PlainItems] at hplain
    exact List.forall_mem_cons.2 ⟨scans_of_plain item hplain.1, items_scan rest hplain.2⟩

theorem members_scan : (members : List (String × Json)) → PlainMembers members →
    ∀ entry ∈ members, Scans entry.2.chars entry.2.depth
  | [], _ => fun _ h => by cases h
  | (key, v) :: rest, hplain => by
    rw [PlainMembers] at hplain
    exact List.forall_mem_cons.2 ⟨scans_of_plain v hplain.1, members_scan rest hplain.2⟩

end

/-- How deep the text of a plain value nests can be told from the value. -/
theorem nesting_text {v : Json} (h : v.Plain) : nesting v.text = v.depth := by
  rw [nesting, text, String.toList_ofList, scans_of_plain v h 0 0 (Nat.le_refl 0)]
  exact (Nat.zero_max _).trans (Nat.zero_add _)

example : nesting "[0,[\"[\\\"[\",[]]]" = 3 := by decide

end Faults.Json
