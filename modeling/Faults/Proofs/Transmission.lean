import Faults.Proofs.Brackets
import Faults.Wire.Codec

/-!
# Reports sent and received

A report is the same after it was made a JSON value and read back from it. It is the same as well
after it was written as a text and read back from that, as long as the text nests no deeper than a
reader takes; the object of the report counts as one level. A deeper text is refused as malformed.
So nothing in a report gets lost on the way, be it a control character or the difference between no
details and empty ones. Main statement: `Report.transmitted`.
-/

namespace Faults.Report

open Json (Ends ReadError Members grant quote)

/-! ## Values -/

/-- As a value, a report has its members in the order of their keys. -/
theorem toValue_eq (report : Report) :
    report.toValue = .obj (report.detailsMember ++
      [("error", .str report.message), ("kind", .str report.kind)]) := by
  obtain ⟨message, kind, details⟩ := report
  cases details <;> rfl

theorem fromValue_toValue (report : Report) : fromValue report.toValue = .ok report := by
  rw [toValue_eq]
  obtain ⟨message, kind, details⟩ := report
  cases details <;> rfl

/-- The object of a report is one level, those of its details come below it. -/
theorem depth_toValue (report : Report) :
    report.toValue.depth = (report.details.map fun details => (Json.obj details).depth).getD 0 + 1 := by
  rw [toValue_eq]
  obtain ⟨message, kind, details⟩ := report
  cases details with
  | none => rfl
  | some details => exact congrArg (· + 1) (Nat.max_zero _)

/-! ## The text of a report -/

theorem textValue_quote (expected s : String) (rest : List Char) :
    Json.textValue expected (quote s ++ rest) = .ok (s, rest) := by
  rw [Json.quote_append]
  exact Json.textBody_quote s rest

/-- Details are read back if they are not too deep. -/
theorem detailsReader_chars {details : Members} (hplain : (Json.obj details).Plain)
    (hcanonical : (Json.obj details).Canonical) (depth : Nat) (rest : List Char) :
    detailsReader depth ((Json.obj details).chars ++ rest) =
      grant ((Json.obj details).depth ≤ depth) (some details) rest := by
  rw [Json.Plain] at hplain
  rw [Json.Canonical] at hcanonical
  rw [Json.chars, Json.depth, List.cons_append]
  cases depth with
  | zero =>
    rw [grant, if_neg (Nat.not_succ_le_zero _)]
    rfl
  | succ inner =>
    change (Json.objectBody (Json.member (Json.value inner)) (Json.memberChars details ++ rest)).map
      _ = _
    rw [Json.objectBody_memberChars (Json.members_read details hplain hcanonical.2),
      Json.map_grant fun members => some (Members.ofList members),
      Members.ofList_of_sorted hcanonical.1]
    exact Json.grant_congr Nat.succ_le_succ_iff.symm _ _

section Members

variable {depth fuel : Nat} {draft next : Draft} {key : String} {tail rest : List Char}

theorem membersReader_more (h : memberValue depth draft key tail = .ok (next, ',' :: rest)) :
    membersReader depth (fuel + 1) draft (quote key ++ tail) = membersReader depth fuel next rest := by
  rw [membersReader, Json.keyMark_quote]
  change (memberValue depth draft key tail >>= _) = _
  rw [h]
  rfl

theorem membersReader_last (h : memberValue depth draft key tail = .ok (next, '}' :: rest)) :
    membersReader depth (fuel + 1) draft (quote key ++ tail) = next.finish.map (·, rest) := by
  rw [membersReader, Json.keyMark_quote]
  change (memberValue depth draft key tail >>= _) = _
  rw [h]
  change (next.finish >>= _) = _
  cases next.finish <;> rfl

theorem membersReader_error {error : ReadError}
    (h : memberValue depth draft key tail = .error error) :
    membersReader depth (fuel + 1) draft (quote key ++ tail) = .error error := by
  rw [membersReader, Json.keyMark_quote]
  change (memberValue depth draft key tail >>= _) = _
  rw [h]
  rfl

theorem memberValue_message (message : String) (rest : List Char) :
    memberValue depth {} "error" (':' :: (quote message ++ rest)) =
      .ok ({ message := some message }, rest) := by
  rw [memberValue, if_pos rfl]
  change (Json.textValue textName (quote message ++ rest) >>= _) = _
  rw [textValue_quote]
  rfl

theorem memberValue_kind (message kind : String) (rest : List Char) :
    memberValue depth { message := some message } "kind" (':' :: (quote kind ++ rest)) =
      .ok ({ message := some message, kind := some kind }, rest) := by
  rw [memberValue, if_neg (by decide), if_pos rfl]
  change (Json.textValue textName (quote kind ++ rest) >>= _) = _
  rw [textValue_quote]
  rfl

theorem memberValue_details (depth : Nat) {details : Members}
    (hplain : (Json.obj details).Plain) (hcanonical : (Json.obj details).Canonical)
    (message kind : String) (rest : List Char) :
    memberValue depth { message := some message, kind := some kind } "details"
        (':' :: ((Json.obj details).chars ++ rest)) =
      grant ((Json.obj details).depth ≤ depth)
        { message := some message, kind := some kind, details := some (some details) } rest := by
  rw [memberValue, if_neg (by decide), if_neg (by decide), if_pos rfl]
  change (detailsReader depth ((Json.obj details).chars ++ rest) >>= _) = _
  rw [detailsReader_chars hplain hcanonical, grant, grant]
  split <;> rfl

end Members

/-- What stands behind the kind in the text of a report. -/
def ending : Option Members → List Char
  | none => ['}']
  | some details => ',' :: (quote "details" ++ ':' :: ((Json.obj details).chars ++ ['}']))

theorem toList_toJson (report : Report) :
    report.toJson.toList = '{' :: (quote "error" ++ ':' :: (quote report.message ++ ',' ::
      (quote "kind" ++ ':' :: (quote report.kind ++ ending report.details)))) := by
  obtain ⟨message, kind, details⟩ := report
  rw [toJson, Json.text, String.toList_ofList, Json.chars, Json.memberChars_eq]
  cases details with
  | none =>
    simp [detailsMember, Json.separated, Json.memberText, Json.chars, ending]
  | some details =>
    simp [detailsMember, Json.separated, Json.memberText, ending, Json.chars]

theorem reader_brace (depth : Nat) (key : String) (tail : List Char) :
    ∃ fuel, reader depth ('{' :: (quote key ++ tail)) =
      membersReader depth (fuel + 3) {} (quote key ++ tail) := by
  rw [Json.quote_append]
  exact ⟨_, rfl⟩

/-- What reading the text of a report leads to. -/
theorem reader_toJson {report : Report} (hplain : (Json.obj (report.details.getD [])).Plain)
    (hcanonical : (Json.obj (report.details.getD [])).Canonical) (depth : Nat) :
    reader depth report.toJson.toList = grant (report.toValue.depth ≤ depth + 1) report [] := by
  obtain ⟨message, kind, details⟩ := report
  rw [toList_toJson]
  obtain ⟨fuel, hreader⟩ := reader_brace depth "error" (':' :: (quote message ++ ',' ::
    (quote "kind" ++ ':' :: (quote kind ++ ending details))))
  rw [hreader, membersReader_more (memberValue_message message _)]
  cases details with
  | none =>
    have hdepth : (toValue ⟨message, kind, none⟩).depth = 0 + 1 := depth_toValue _
    rw [ending, membersReader_last (memberValue_kind message kind ['}']), hdepth, grant,
      if_pos (Nat.add_le_add_right (Nat.zero_le depth) 1)]
    rfl
  | some details =>
    have hdepth : (toValue ⟨message, kind, some details⟩).depth = (Json.obj details).depth + 1 :=
      depth_toValue _
    replace hplain : (Json.obj details).Plain := hplain
    replace hcanonical : (Json.obj details).Canonical := hcanonical
    have hdetails := memberValue_details depth hplain hcanonical message kind ['}']
    rw [ending, membersReader_more (memberValue_kind message kind _), hdepth]
    by_cases hfits : (Json.obj details).depth ≤ depth
    · rw [grant, if_pos hfits] at hdetails
      rw [membersReader_last hdetails, grant, if_pos (Nat.add_le_add_right hfits 1)]
      rfl
    · rw [grant, if_neg hfits] at hdetails
      rw [membersReader_error hdetails, grant,
        if_neg fun h => hfits (Nat.le_of_add_le_add_right h)]

/-- A report is read back from its text if that nests no deeper than texts may. -/
theorem fromJson_toJson {report : Report} (hplain : (Json.obj (report.details.getD [])).Plain)
    (hcanonical : (Json.obj (report.details.getD [])).Canonical) :
    fromJson report.toJson =
      if report.toValue.depth ≤ Json.depthLimit then .ok report else .error .malformed := by
  have hlimit : Json.depthLimit - 1 + 1 = Json.depthLimit := rfl
  rw [fromJson, Json.entire, reader_toJson hplain hcanonical, hlimit, grant]
  by_cases hdepth : report.toValue.depth ≤ Json.depthLimit
  · rw [if_pos hdepth, if_pos hdepth]
    rfl
  · rw [if_neg hdepth, if_neg hdepth]
    rfl

/-- The text of a report nests as deep as its value. -/
theorem nesting_toJson (report : Report) (hplain : (Json.obj (report.details.getD [])).Plain) :
    Json.nesting report.toJson = report.toValue.depth := by
  have hwritten : (Json.obj ([("error", .str report.message), ("kind", .str report.kind)] ++
      report.detailsMember)).Plain := by
    obtain ⟨message, kind, details⟩ := report
    cases details with
    | none => exact ⟨trivial, trivial, trivial⟩
    | some details => exact ⟨trivial, trivial, hplain, trivial⟩
  rw [toJson, Json.nesting_text hwritten, depth_toValue]
  obtain ⟨message, kind, details⟩ := report
  cases details <;> rfl

/-- **Reports survive transmission.** A report whose details hold no real numbers is read back from
the value that is made of it. It is read back from its text exactly when that nests at most 127 deep,
the object of the report included, and else the text is refused as malformed. -/
theorem transmitted (report : Report) (hplain : (Json.obj (report.details.getD [])).Plain)
    (hcanonical : (Json.obj (report.details.getD [])).Canonical) :
    fromValue report.toValue = .ok report ∧
      (fromJson report.toJson = .ok report ↔ Json.nesting report.toJson ≤ 127) ∧
      (127 < Json.nesting report.toJson → fromJson report.toJson = .error .malformed) := by
  have hread := fromJson_toJson hplain hcanonical
  rw [Json.depthLimit, ← nesting_toJson report hplain] at hread
  refine ⟨fromValue_toValue report, ⟨fun hok => ?_, fun hdepth => ?_⟩, fun hdepth => ?_⟩
  · by_contra hdepth
    rw [if_neg hdepth, hok] at hread
    cases hread
  · rw [hread, if_pos hdepth]
  · rw [hread, if_neg (Nat.not_le.2 hdepth)]

/-- A report with quotes, a backslash, controls and other letters in its texts. -/
def letter (details : Option Members) : Report where
  message := "said \"no\" \\ twice\u0007"
  kind := "Größe::Error"
  details

/-- Arrays in each other. -/
def nested : Nat → Json
  | 0 => .arr []
  | n + 1 => .arr [nested n]

theorem nested_spec (n : Nat) : (nested n).Plain ∧ (nested n).Canonical ∧ (nested n).depth = n + 1 := by
  induction n with
  | zero => simp [nested, Json.Plain, Json.PlainItems, Json.Canonical, Json.CanonicalItems,
      Json.depth, Json.depthItems]
  | succ n ih =>
    obtain ⟨hplain, hcanonical, hdepth⟩ := ih
    simp [nested, Json.Plain, Json.PlainItems, Json.Canonical, Json.CanonicalItems,
      Json.depth, Json.depthItems, hplain, hcanonical, hdepth]

/-- Missing and empty details are told apart, a control in a key comes back, and of two reports with
arrays in each other the one that is a level too deep is refused. -/
theorem letter_transmitted :
    fromJson (letter none).toJson = .ok (letter none) ∧
    fromJson (letter (some [])).toJson = .ok (letter (some [])) ∧
    fromJson (letter (some [("tab\there", .int (-9223372036854775808))])).toJson =
      .ok (letter (some [("tab\there", .int (-9223372036854775808))])) ∧
    fromJson (letter (some [("deep", nested 124)])).toJson =
      .ok (letter (some [("deep", nested 124)])) ∧
    fromJson (letter (some [("deep", nested 125)])).toJson = .error .malformed := by
  have hsingle : ∀ key {value : Json}, value.Plain → value.Canonical →
      (Json.obj [(key, value)]).Plain ∧ (Json.obj [(key, value)]).Canonical := by
    intro key value hplain hcanonical
    simp only [Json.Plain, Json.PlainMembers, Json.Canonical, Json.CanonicalMembers]
    exact ⟨⟨hplain, trivial⟩, List.pairwise_singleton _ _, hcanonical, trivial⟩
  have hempty : (Json.obj []).Plain ∧ (Json.obj []).Canonical := by
    simp only [Json.Plain, Json.PlainMembers, Json.Canonical, Json.CanonicalMembers]
    exact ⟨trivial, List.Pairwise.nil, trivial⟩
  have hnesting : ∀ key {value : Json}, (Json.obj [(key, value)]).Plain →
      Json.nesting (letter (some [(key, value)])).toJson = value.depth + 2 := by
    intro key value hplain
    rw [nesting_toJson (letter (some [_])) hplain, depth_toValue]
    simp [letter, Json.depth, Json.depthMembers]
  have hnested := fun n => hsingle "deep" (nested_spec n).1 (nested_spec n).2.1
  have hlowest : (Json.int (-9223372036854775808)).Plain := by
    rw [Json.Plain]
    decide
  have hint := hsingle "tab\there" hlowest trivial
  refine ⟨?_, ?_, ?_, ?_, ?_⟩
  · refine (transmitted (letter none) hempty.1 hempty.2).2.1.2 ?_
    rw [nesting_toJson (letter none) hempty.1]
    decide
  · refine (transmitted (letter (some [])) hempty.1 hempty.2).2.1.2 ?_
    rw [nesting_toJson (letter (some [])) hempty.1]
    decide
  · refine (transmitted (letter (some [_])) hint.1 hint.2).2.1.2 ?_
    rw [hnesting _ hint.1]
    decide
  · refine (transmitted (letter (some [_])) (hnested 124).1 (hnested 124).2).2.1.2 ?_
    rw [hnesting _ (hnested 124).1, (nested_spec 124).2.2]
  · refine (transmitted (letter (some [_])) (hnested 125).1 (hnested 125).2).2.2 ?_
    rw [hnesting _ (hnested 125).1, (nested_spec 125).2.2]
    decide

end Faults.Report
