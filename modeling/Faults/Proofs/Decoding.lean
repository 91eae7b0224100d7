import Faults.Proofs.Restoration

/-!
# What any report is decoded to

A report need not come from a failure: its details can be any object. Decoding makes of it a failure
that has the same tree, with a dict for each object and a field for each other value, all of them
exposed and received. The logs show the details as they were sent, empty objects included, and the
outside view is pruned. What is pruned once stays as it is, so a second pass changes nothing. Main
statements:

* `Json.full_of_prune?`: no empty object is left where something is left;
* `Entry.at?_received`: what stands at a path of a restored entry;
* `Context.logValues_received`: the logs of what is restored;
* `Report.decodeWith_restores`: what follows for every report and every registry.
-/

namespace Faults

/-! ## Pruning leaves nothing to prune -/

namespace Json

mutual

theorem full_of_prune? : (value : Json) → ∀ {left}, value.prune? = some left → left.Full
  | .obj members, left, h => by
    rw [prune?] at h
    split at h
    · cases h
    · next hne =>
      cases h
      rw [Full]
      exact ⟨hne, full_pruneMembers members⟩
  | .null, _, h | .bool _, _, h | .int _, _, h | .real _, _, h | .str _, _, h | .arr _, _, h => by
    cases h
    simp only [Full]

theorem full_pruneMembers : (members : List (String × Json)) → FullMembers (pruneMembers members)
  | [] => trivial
  | (key, value) :: rest => by
    rw [pruneMembers]
    split
    · exact full_pruneMembers rest
    · next left hleft => exact ⟨full_of_prune? value hleft, full_pruneMembers rest⟩

end

end Json

/-! ## The tree of restored entries -/

theorem Context.get?_received (members : Json.Members) (key : String) :
    (Context.received members).get? key = (members.get? key).map (Entry.received key) := by
  induction members with
  | nil => rfl
  | cons member rest ih =>
    obtain ⟨first, value⟩ := member
    rw [Context.received, get?_cons, Json.Members.get?_cons, Entry.key_received]
    by_cases hkey : first = key
    · rw [if_pos hkey, if_pos hkey.symm, hkey, Option.map_some]
    · rw [if_neg hkey, if_neg (fun heq => hkey heq.symm), ih]

/-- At a path stands what is restored of the value there. -/
theorem Entry.at?_received (key : String) (value : Json) (path : List String) :
    (Entry.received key value).at? path =
      (value.at? path).map (Entry.received (path.getLastD key)) := by
  induction path generalizing key value with
  | nil => rw [at?, Json.at?, Option.map_some, List.getLastD_nil]
  | cons first path ih =>
    rw [List.getLastD_cons]
    cases value with
    | obj members =>
      rw [received, at?, Json.at?, children, Context.get?_received, Option.bind_map,
        Option.map_bind]
      exact Option.bind_congr fun inner _ => ih first inner
    | _ => rfl

theorem Context.at?_received (members : Json.Members) (key : String) (path : List String) :
    (Context.received members).at? (key :: path) =
      ((Json.obj members).at? (key :: path)).map (Entry.received (path.getLastD key)) := by
  rw [at?, Json.at?, get?_received, Option.bind_map, Option.map_bind]
  exact Option.bind_congr fun value _ => Entry.at?_received key value path

/-- What stands at a path, given the value there: an exposed and received dict of the same keys for an
object, an exposed and received field for any other value. -/
inductive Entry.StandsFor : Option Entry → Option Json → Prop where
  | nothing : StandsFor none none
  | object {key : String} {children : Context} {members : Json.Members}
      (keys : children.keys = members.keys) :
    StandsFor (some (.dict key .exposed true children)) (some (.obj members))
  | value {key : String} {value : Json} (h : ∀ members, value ≠ .obj members) :
    StandsFor (some (.field key value .exposed true)) (some value)

theorem Entry.standsFor_received (key : String) (value? : Option Json) :
    StandsFor (value?.map (Entry.received key)) value? := by
  cases value? with
  | none => exact .nothing
  | some value =>
    cases value with
    | obj members =>
      rw [Option.map_some, received]
      exact .object (Context.keys_received members)
    | _ => exact .value fun _ h => by cases h

/-! ## The logs of restored entries -/

mutual

theorem Entry.logValue_received (key : String) :
    (value : Json) → value.Canonical → (Entry.received key value).logValue = value
  | .obj members, h => by
    rw [Json.Canonical] at h
    rw [Entry.received, Entry.logValue, Context.logPairs_received members h.2,
      Json.Members.ofList_of_sorted h.1]
  | .null, _ | .bool _, _ | .int _, _ | .real _, _ | .str _, _ | .arr _, _ => by
    simp only [Entry.received, Entry.logValue]

theorem Context.logPairs_received :
    (members : List (String × Json)) → Json.CanonicalMembers members →
      Context.logPairs (Context.received members) = members
  | [], _ => rfl
  | (key, value) :: rest, h => by
    rw [Json.CanonicalMembers] at h
    rw [Context.received, Context.logPairs, Entry.key_received,
      Entry.logValue_received key value h.1, Context.logPairs_received rest h.2]

end

theorem Context.logValues_received {members : Json.Members} (h : (Json.obj members).Canonical) :
    (Context.received members).logValues = members := by
  rw [Json.Canonical] at h
  rw [logValues, logPairs_received members h.2, Json.Members.ofList_of_sorted h.1]

/-! ## Reports -/

namespace Report

/-- The failure is what the report tells, and no more than that. -/
structure Restores (report : Report) (failure : Failure) : Prop where
  message : failure.message = report.message
  below : failure.below = []
  keys : failure.entries.keys = Json.Members.keys (report.details.getD [])
  /-- At every path stands what the details have there. -/
  nodes : ∀ path, path ≠ [] →
    Entry.StandsFor (failure.entries.at? path) ((Json.obj (report.details.getD [])).at? path)
  /-- The details are shown without the objects in which nothing is left. -/
  details : failure.details.map Json.obj = (Json.obj (report.details.getD [])).prune?
  /-- The logs show the details as they were sent. -/
  logValues : failure.entries.logValues = report.details.getD []

theorem message_decodeWith {registry : Registry} {report : Report} {decoded : Failure}
    {events : List Event} (h : decodeWith registry report = .ok (decoded, events)) :
    decoded.message = report.message ∧ decoded.below = [] := by
  obtain ⟨entries, -, h⟩ := bind_ok.1 h
  obtain ⟨raw, hraw, h⟩ := map_ok.1 h
  obtain ⟨context, -, rfl⟩ := map_ok.1 hraw
  cases h
  exact ⟨rfl, rfl⟩

theorem restores_of_decodeWith {registry : Registry} {report : Report} {decoded : Failure}
    {events : List Event} (h : decodeWith registry report = .ok (decoded, events))
    (hdetails : (Json.obj (report.details.getD [])).Canonical) : report.Restores decoded := by
  have hentries := entries_decodeWith h hdetails
  obtain ⟨hmessage, hbelow⟩ := message_decodeWith h
  refine ⟨hmessage, hbelow, ?_, fun path hpath => ?_, details_decodeWith h hdetails, ?_⟩
  · rw [hentries, Context.keys_received, Json.Members.keys]
  · cases path with
    | nil => exact absurd rfl hpath
    | cons key path =>
      rw [hentries, Context.at?_received]
      exact Entry.standsFor_received _ _
  · rw [hentries, Context.logValues_received hdetails]

/-- Details that are pruned come back as they are. -/
theorem details_decodeWith_encode {registry : Registry} {failure decoded : Failure}
    {events : List Event} (h : decodeWith registry (encode failure) = .ok (decoded, events))
    (hentries : ∀ entry ∈ failure.entries, entry.Canonical)
    (hfull : ∀ details, failure.details = some details → (Json.obj details).Full) :
    decoded.details = failure.details := by
  have hpruned := details_decodeWith h (canonical_encode hentries)
  refine Option.map_injective (fun _ _ => Json.obj.inj) (hpruned.trans ?_)
  change (Json.obj (failure.details.getD [])).prune? = _
  cases hdetails : failure.details with
  | none => rfl
  | some details => exact (Json.prune?_eq_self_iff _).2 (hfull details hdetails)

/-- **Decoding any report.** Whatever details a report has and whatever the registry, decoding succeeds
and gives a failure that restores the report. Encoding that failure and decoding it once more, against
any registry, gives the same details. -/
theorem decodeWith_restores (registry : Registry) {report : Report}
    (h : (Json.obj (report.details.getD [])).Canonical) :
    ∃ decoded events, decodeWith registry report = .ok (decoded, events) ∧
      report.Restores decoded ∧
      ∀ other : Registry, ∃ again events',
        decodeWith other (encode decoded) = .ok (again, events') ∧
        again.details = decoded.details := by
  obtain ⟨decoded, hdecode, -⟩ := decodeWith_ok registry report
  have hrestores := restores_of_decodeWith hdecode h
  refine ⟨decoded, _, hdecode, hrestores, fun other => ?_⟩
  obtain ⟨again, hagain, -⟩ := decodeWith_ok other (encode decoded)
  refine ⟨again, _, hagain, details_decodeWith_encode hagain ?_ fun details hdetails => ?_⟩
  · rw [entries_decodeWith hdecode h]
    rw [Json.Canonical] at h
    exact Context.canonical_received _ h.2
  · have hpruned := hrestores.details
    rw [hdetails, Option.map_some] at hpruned
    exact Json.full_of_prune? _ hpruned.symm

/-- A report with empty objects in its details, one of them in an array. -/
def cart : Report where
  message := "bad cart"
  kind := "CartError"
  details := some [("cart", .obj [("coupon", .obj []), ("items", .arr [.obj []])]),
    ("user", .obj [("address", .obj [])])]

theorem cart_restores :
    ∃ decoded events, decodeWith .empty cart = .ok (decoded, events) ∧ cart.Restores decoded ∧
      decoded.details = some [("cart", .obj [("items", .arr [.obj []])])] ∧
      decoded.entries.logValues = cart.details.getD [] := by
  have hpair : ∀ {key key' : String} {value value' : Json}, key < key' →
      Json.Members.Sorted [(key, value), (key', value')] := fun hlt =>
    List.pairwise_cons.2 ⟨List.forall_mem_singleton.2 hlt, List.pairwise_singleton _ _⟩
  have hnil : Json.Members.Sorted [] := List.Pairwise.nil
  have hsingle : ∀ {key : String} {value : Json}, Json.Members.Sorted [(key, value)] :=
    List.pairwise_singleton _ _
  have hcanonical : (Json.obj (cart.details.getD [])).Canonical := by
    simp only [cart, Option.getD_some, Json.Canonical, Json.CanonicalMembers, Json.CanonicalItems]
    exact ⟨hpair (by decide),
      ⟨hpair (by decide), ⟨hnil, trivial⟩, ⟨⟨hnil, trivial⟩, trivial⟩, trivial⟩,
      ⟨hsingle, ⟨hnil, trivial⟩, trivial⟩, trivial⟩
  obtain ⟨decoded, events, hdecode, hrestores, -⟩ := decodeWith_restores .empty hcanonical
  refine ⟨decoded, events, hdecode, hrestores, ?_, hrestores.logValues⟩
  have hshown : decoded.details.map Json.obj =
      some (.obj [("cart", .obj [("items", .arr [.obj []])])]) := hrestores.details
  obtain ⟨details, hdetails, hobj⟩ := Option.map_eq_some_iff.1 hshown
  rw [hdetails, Json.obj.inj hobj]

end Report

end Faults
