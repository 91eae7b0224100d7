import Faults.Proofs.Runs
import Faults.Proofs.Tags
import Faults.Proofs.Views

/-!
# Details restored from a report

A report holds the public view of a failure as JSON, and decoding it makes entries of the members
again: a dict of each object and a field of each other value. The two shapes show the same outside but
for one thing: a dict with nothing to show is left out, while a field shows an empty object. So the
details come back without the objects that are empty or become empty on the way (`Json.prune?`). Main
statements:

* `Json.prune?_eq_self_iff`: nothing is left out of a value without empty objects;
* `Report.restore_eq`: what decoding makes of a member;
* `Context.publicPairs_received`: what is shown of that;
* `Context.Reachable.canonical`: the values in a failure are canonical, whatever happened to it;
* `Report.details_restored`: the details of a decoded failure.
-/

namespace Faults

/-! ## Pruning -/

namespace Json

mutual

/-- What is left of a value without the objects in which nothing is left. Arrays stay as they are. -/
def prune? : Json → Option Json
  | obj members =>
    match pruneMembers members with
    | [] => none
    | left => some (obj left)
  | value => some value

def pruneMembers : List (String × Json) → List (String × Json)
  | [] => []
  | (key, value) :: rest =>
    match value.prune? with
    | none => pruneMembers rest
    | some left => (key, left) :: pruneMembers rest

end

mutual

/-- No object in the value is empty, those in arrays apart. -/
def Full : Json → Prop
  | obj members => members ≠ [] ∧ FullMembers members
  | _ => True

/-- No object in the values of the members is empty, those in arrays apart. -/
def FullMembers : List (String × Json) → Prop
  | [] => True
  | (_, value) :: rest => value.Full ∧ FullMembers rest

end

theorem pruneMembers_length_le (members : List (String × Json)) :
    (pruneMembers members).length ≤ members.length := by
  induction members with
  | nil => simp [pruneMembers]
  | cons member rest ih =>
    obtain ⟨key, value⟩ := member
    rw [pruneMembers]
    split
    · simp only [List.length_cons]
      omega
    · simp only [List.length_cons]
      omega

theorem keys_pruneMembers_sublist (members : List (String × Json)) :
    ((pruneMembers members).map Prod.fst).Sublist (members.map Prod.fst) := by
  induction members with
  | nil => exact .slnil
  | cons member rest ih =>
    obtain ⟨key, value⟩ := member
    rw [pruneMembers]
    split
    · exact ih.cons _
    · exact ih.cons_cons _

mutual

theorem prune?_eq_self_iff : (value : Json) → (value.prune? = some value ↔ value.Full)
  | .obj members => by
    have hmembers := pruneMembers_eq_self_iff members
    rw [prune?, Full]
    split
    · next hnil =>
      rw [hnil] at hmembers
      refine ⟨fun h => (by cases h), fun ⟨hne, hfull⟩ => absurd (hmembers.2 hfull).symm hne⟩
    · next hne =>
      rw [Option.some.injEq, obj.injEq, hmembers]
      refine ⟨fun hfull => ⟨fun hnil => ?_, hfull⟩, And.right⟩
      exact hne (by rw [hmembers.2 hfull, hnil])
  | .null | .bool _ | .int _ | .real _ | .str _ | .arr _ => by simp [prune?, Full]

theorem pruneMembers_eq_self_iff : (members : List (String × Json)) →
    (pruneMembers members = members ↔ FullMembers members)
  | [] => by simp [pruneMembers, FullMembers]
  | (key, value) :: rest => by
    have hvalue := prune?_eq_self_iff value
    have hrest := pruneMembers_eq_self_iff rest
    rw [pruneMembers, FullMembers, ← hvalue, ← hrest]
    split
    · next hnone =>
      -- a member is missing, so what is left is too short
      rw [hnone]
      refine ⟨fun h => ?_, fun h => (by cases h.1)⟩
      have hlength := pruneMembers_length_le rest
      rw [h, List.length_cons] at hlength
      omega
    · next left hleft =>
      rw [hleft, Option.some.injEq, List.cons.injEq, Prod.mk.injEq, and_iff_right rfl]

end

theorem canonicalMembers_iff {members : List (String × Json)} :
    CanonicalMembers members ↔ ∀ member ∈ members, member.2.Canonical := by
  induction members with
  | nil => simp [CanonicalMembers]
  | cons member rest ih =>
    obtain ⟨key, value⟩ := member
    rw [CanonicalMembers, ih, List.forall_mem_cons]

theorem sorted_pruneMembers {members : Members} (h : members.Sorted) :
    Members.Sorted (pruneMembers members) :=
  List.Pairwise.sublist (keys_pruneMembers_sublist members) h

end Json

/-! ## Restored entries -/

mutual

/-- The entry that stands for a received value. -/
def Entry.received (key : String) : Json → Entry
  | .obj members => .dict key .exposed true (Context.received members)
  | value => .field key value .exposed true

def Context.received : List (String × Json) → Context
  | [] => []
  | (key, value) :: rest => Entry.received key value :: Context.received rest

end

@[simp] theorem Entry.key_received (key : String) (value : Json) :
    (Entry.received key value).key = key := by
  cases value <;> simp only [Entry.received, Entry.key]

@[simp] theorem Context.keys_received (members : List (String × Json)) :
    (Context.received members).keys = members.map Prod.fst := by
  induction members with
  | nil => rfl
  | cons member rest ih =>
    obtain ⟨key, value⟩ := member
    rw [Context.received, keys, List.map_cons, List.map_cons, Entry.key_received, ← ih, keys]

namespace Context

theorem put_eq_append {context : Context} {entry : Entry} (h : entry.key ∉ context.keys) :
    context.put entry = context ++ [entry] := by
  induction context with
  | nil => rfl
  | cons head rest ih =>
    rw [keys, List.map_cons, List.mem_cons, not_or] at h
    rw [put, if_neg (Ne.symm h.1), ih h.2]
    rfl

/-- Entries with keys of their own go behind those that are there. -/
theorem addAll_eq_append {context entries : Context} (h : (keys (context ++ entries)).Nodup) :
    context.addAll entries = .ok (context ++ entries) := by
  rw [addAll_eq_absorb]
  induction entries generalizing context with
  | nil =>
    rw [List.append_nil]
    rfl
  | cons entry rest ih =>
    have hnew : entry.key ∉ context.keys := by
      rw [keys, List.map_append, List.map_cons] at h
      intro hmem
      exact (List.nodup_append.1 h).2.2 _ hmem _ List.mem_cons_self rfl
    have hnone : context.get? entry.key = none := get?_eq_none_iff.2 hnew
    have happend : context ++ entry :: rest = (context ++ [entry]) ++ rest := by simp
    rw [happend] at h ⊢
    rw [absorb_cons, hnone, Entry.arrive, Entry.capped_exposed, ← ih h, ← put_eq_append hnew]
    rfl

theorem ofList_eq_self {entries : Context} (h : entries.keys.Nodup) :
    ofList entries = .ok entries :=
  addAll_eq_append h

end Context

namespace Report

mutual

theorem restore_eq (key : String) :
    (value : Json) → value.Canonical → restore key value = .ok (Entry.received key value)
  | .obj members, h => by
    rw [Json.Canonical] at h
    -- the keys are distinct, so no member is merged into another
    have hkeys : (Context.received members).keys.Nodup := by
      rw [Context.keys_received]
      exact h.1.nodup
    rw [restore, restoreAll_eq members h.2, Entry.received]
    exact map_ok.2 ⟨_, Context.ofList_eq_self hkeys, rfl⟩
  | .null, _ | .bool _, _ | .int _, _ | .real _, _ | .str _, _ | .arr _, _ => rfl

theorem restoreAll_eq : (members : List (String × Json)) → Json.CanonicalMembers members →
    restoreAll members = .ok (Context.received members)
  | [], _ => rfl
  | (key, value) :: rest, h => by
    rw [Json.CanonicalMembers] at h
    rw [restoreAll, restore_eq key value h.1, Context.received]
    exact map_ok.2 ⟨_, restoreAll_eq rest h.2, rfl⟩

end

end Report

/-! ## What is shown of restored entries -/

mutual

theorem Entry.publicValue?_received (key : String) :
    (value : Json) → value.Canonical → (Entry.received key value).publicValue? = value.prune?
  | .obj members, h => by
    rw [Json.Canonical] at h
    rw [Entry.received, Entry.publicValue?, Context.publicPairs_received members h.2, Json.prune?,
      Json.Members.ofList_of_sorted (Json.sorted_pruneMembers h.1)]
    cases Json.pruneMembers members <;> rfl
  | .null, _ | .bool _, _ | .int _, _ | .real _, _ | .str _, _ | .arr _, _ => rfl

theorem Context.publicPairs_received :
    (members : List (String × Json)) → Json.CanonicalMembers members →
      Context.publicPairs (Context.received members) = Json.pruneMembers members
  | [], _ => rfl
  | (key, value) :: rest, h => by
    rw [Json.CanonicalMembers] at h
    have hvalue := Entry.publicValue?_received key value h.1
    have hrest := Context.publicPairs_received rest h.2
    rw [Context.received, Context.publicPairs, Entry.key_received, hvalue, hrest]
    cases hleft : value.prune? with
    | none => simp only [Json.pruneMembers, hleft]
    | some left => simp only [Json.pruneMembers, hleft]

end

theorem Context.publicValues_received {members : Json.Members}
    (h : (Json.obj members).Canonical) :
    (Context.received members).publicValues = Json.pruneMembers members := by
  rw [Json.Canonical] at h
  rw [publicValues, publicPairs_received members h.2,
    Json.Members.ofList_of_sorted (Json.sorted_pruneMembers h.1)]

theorem Failure.details_eq_some_iff {failure : Failure} {details : Json.Members} :
    failure.details = some details ↔ failure.entries.publicValues = details ∧ details ≠ [] := by
  rw [Failure.details]
  split
  · next hnil =>
    rw [hnil]
    constructor
    · intro h
      cases h
    · rintro ⟨heq, hne⟩
      exact absurd heq.symm hne
  · next hne =>
    rw [Option.some.injEq]
    exact ⟨fun heq => ⟨heq, heq ▸ hne⟩, And.left⟩

namespace Report

/-- The entries of a decoded failure are put together from the restored ones. -/
theorem ofList_of_decodeWith {registry : Registry} {report : Report} {decoded : Failure}
    {events : List Event} {entries : List Entry}
    (hrestored : restoreAll (report.details.getD []) = .ok entries)
    (h : decodeWith registry report = .ok (decoded, events)) :
    Context.ofList entries = .ok decoded.entries := by
  obtain ⟨entries', hentries, h⟩ := bind_ok.1 h
  obtain rfl : entries = entries' := Except.ok.inj (hrestored.symm.trans hentries)
  obtain ⟨raw, hraw, h⟩ := map_ok.1 h
  obtain ⟨context, hcontext, rfl⟩ := map_ok.1 hraw
  cases h
  exact hcontext

/-- The entries of a decoded failure are the restored ones, as they stand. -/
theorem entries_decodeWith {registry : Registry} {report : Report} {decoded : Failure}
    {events : List Event} (h : decodeWith registry report = .ok (decoded, events))
    (hdetails : (Json.obj (report.details.getD [])).Canonical) :
    decoded.entries = Context.received (report.details.getD []) := by
  rw [Json.Canonical] at hdetails
  have hkeys : (Context.received (report.details.getD [])).keys.Nodup := by
    rw [Context.keys_received]
    exact hdetails.1.nodup
  have hentries := ofList_of_decodeWith (restoreAll_eq _ hdetails.2) h
  rw [Context.ofList_eq_self hkeys] at hentries
  exact (Except.ok.inj hentries).symm

/-- The details of a decoded failure are those of the report, pruned. -/
theorem details_decodeWith {registry : Registry} {report : Report} {decoded : Failure}
    {events : List Event} (h : decodeWith registry report = .ok (decoded, events))
    (hdetails : (Json.obj (report.details.getD [])).Canonical) :
    decoded.details.map Json.obj = (Json.obj (report.details.getD [])).prune? := by
  rw [Failure.details, entries_decodeWith h hdetails, Context.publicValues_received hdetails,
    Json.prune?]
  cases Json.pruneMembers (report.details.getD []) <;> rfl

end Report

/-! ## Canonical values -/

/-- The value of a field is canonical; other entries have no value. -/
def Entry.CanonicalValue : Entry → Prop
  | field _ value _ _ => value.Canonical
  | _ => True

/-- The values in the entry are canonical, at every depth. -/
def Entry.Canonical (entry : Entry) : Prop := entry.All CanonicalValue

theorem Entry.stable_canonicalValue : Entry.Stable CanonicalValue where
  capped outer h := by
    rename_i entry
    cases entry <;> exact h
  trail _ h := h
  dict _ h := h

theorem Entry.Canonical.of_leaf {entry : Entry} (h : entry.CanonicalValue)
    (hleaf : entry.children = []) : entry.Canonical := by
  refine .intro h fun child hmem => ?_
  rw [hleaf] at hmem
  cases hmem

theorem Context.mem_publicPairs {context : Context} {pair : String × Json}
    (h : pair ∈ publicPairs context) : ∃ entry ∈ context, entry.publicValue? = some pair.2 := by
  induction context with
  | nil => cases h
  | cons entry rest ih =>
    rw [publicPairs] at h
    split at h
    · obtain ⟨other, hmem, hvalue⟩ := ih h
      exact ⟨other, List.mem_cons_of_mem _ hmem, hvalue⟩
    · next value hvalue =>
      rcases List.mem_cons.1 h with rfl | h
      · exact ⟨entry, List.mem_cons_self, hvalue⟩
      · obtain ⟨other, hmem, hvalue⟩ := ih h
        exact ⟨other, List.mem_cons_of_mem _ hmem, hvalue⟩

theorem Context.canonical_publicValues_of {context : Context}
    (h : ∀ entry ∈ context, ∀ value, entry.publicValue? = some value → value.Canonical) :
    (Json.obj context.publicValues).Canonical := by
  rw [Json.Canonical, Json.canonicalMembers_iff]
  refine ⟨Json.Members.sorted_ofList _, fun member hmem => ?_⟩
  obtain ⟨entry, hentry, hvalue⟩ := mem_publicPairs (Json.Members.mem_of_mem_ofList hmem)
  exact h entry hentry _ hvalue

theorem Entry.Canonical.publicValue? {entry : Entry} (h : entry.Canonical) {value : Json}
    (hvalue : entry.publicValue? = some value) : value.Canonical := by
  induction entry generalizing value with
  | step entry ih =>
    rcases publicValue?_eq_some hvalue with ⟨key, received, rfl⟩ |
      ⟨key, received, children, rfl, -, rfl⟩
    · exact h.self
    · refine Context.canonical_publicValues_of fun child hmem inner hinner => ?_
      exact ih child hmem ((all_iff.1 h).2 child hmem) hinner

theorem Context.canonical_publicValues {context : Context}
    (h : ∀ entry ∈ context, entry.Canonical) : (Json.obj context.publicValues).Canonical :=
  canonical_publicValues_of fun entry hmem _ hvalue => (h entry hmem).publicValue? hvalue

theorem Run.canonical_result {run : Run} {failure : Failure}
    (hbase : ∀ entry ∈ run.origin.base, entry.Canonical)
    (hpassed : ∀ entry ∈ run.passed, entry.Canonical) (h : run.result = .ok failure) :
    ∀ entry ∈ failure.entries, entry.Canonical := by
  have hgiven : ∀ entry ∈ run.given, entry.Canonical :=
    run.forall_given (fun _ => .of_leaf trivial rfl) (fun _ => .of_leaf trivial rfl) hpassed
  have hmerged : run.origin.base.addAll run.given = .ok failure.entries := by
    rw [← run.entries_result, h]
    rfl
  exact Context.all_addAll Entry.stable_canonicalValue hbase hgiven hmerged

mutual

theorem Entry.canonical_received (key : String) :
    (value : Json) → value.Canonical → (Entry.received key value).Canonical
  | .obj members, h => by
    rw [Json.Canonical] at h
    exact .intro trivial (Context.canonical_received members h.2)
  | .null, h | .bool _, h | .int _, h | .real _, h | .str _, h | .arr _, h => .of_leaf h rfl

theorem Context.canonical_received :
    (members : List (String × Json)) → Json.CanonicalMembers members →
      ∀ entry ∈ Context.received members, entry.Canonical
  | [], _ => fun _ h => by cases h
  | (key, value) :: rest, h => by
    rw [Json.CanonicalMembers] at h
    rw [Context.received]
    exact List.forall_mem_cons.2
      ⟨Entry.canonical_received key value h.1, Context.canonical_received rest h.2⟩

end

/-- The context of a failure that can come about: a run ends with it that begins with nothing or with
such a context, or it is the one of a decoded failure. All values passed and received are canonical. -/
inductive Context.Reachable : Context → Prop where
  | empty : Reachable []
  | run {run : Run} {failure : Failure} (base : Reachable run.origin.base)
      (passed : ∀ entry ∈ run.passed, entry.Canonical) (result : run.result = .ok failure) :
    Reachable failure.entries
  | decoded {registry : Registry} {report : Report} {failure : Failure} {events : List Event}
      (details : (Json.obj (report.details.getD [])).Canonical)
      (result : Report.decodeWith registry report = .ok (failure, events)) :
    Reachable failure.entries

theorem Context.Reachable.canonical {context : Context} (h : context.Reachable) :
    ∀ entry ∈ context, entry.Canonical := by
  induction h with
  | empty => exact fun _ h => by cases h
  | run base passed result ih => exact Run.canonical_result ih passed result
  | decoded details result =>
    rw [Report.entries_decodeWith result details]
    rw [Json.Canonical] at details
    exact Context.canonical_received _ details.2

/-! ## What comes back -/

namespace Report

theorem canonical_encode {failure : Failure} (h : ∀ entry ∈ failure.entries, entry.Canonical) :
    (Json.obj ((encode failure).details.getD [])).Canonical := by
  cases hdetails : failure.details with
  | none =>
    rw [encode, hdetails, Json.Canonical]
    exact ⟨List.Pairwise.nil, trivial⟩
  | some details =>
    rw [encode, hdetails, Option.getD_some, ← (Failure.details_eq_some_iff.1 hdetails).1]
    exact Context.canonical_publicValues h

/-- **Details come back pruned.** The report of a failure that can come about is decoded, and the
details of what is decoded are its own details without the objects in which nothing is left: the same,
exactly when no object in its details is empty, those in arrays apart. -/
theorem details_restored (registry : Registry) {failure : Failure} (h : failure.entries.Reachable) :
    ∃ decoded events, decodeWith registry (encode failure) = .ok (decoded, events) ∧
      decoded.details.map Json.obj = (Json.obj (failure.details.getD [])).prune? ∧
      (decoded.details = failure.details ↔ Json.FullMembers (failure.details.getD [])) := by
  obtain ⟨decoded, hdecode, -⟩ := decodeWith_ok registry (encode failure)
  have hcanonical := canonical_encode h.canonical
  have hpruned := details_decodeWith hdecode hcanonical
  change decoded.details.map Json.obj = (Json.obj (failure.details.getD [])).prune? at hpruned
  refine ⟨decoded, _, hdecode, hpruned, ?_⟩
  have hobj : Function.Injective Json.obj := fun _ _ => Json.obj.inj
  cases hdetails : failure.details with
  | none =>
    rw [hdetails, Option.getD_none, Json.prune?, Json.pruneMembers,
      Option.map_eq_none_iff] at hpruned
    rw [hpruned, Option.getD_none]
    exact iff_of_true rfl trivial
  | some details =>
    have hne := (Failure.details_eq_some_iff.1 hdetails).2
    rw [hdetails, Option.getD_some] at hpruned
    rw [← (Option.map_injective hobj).eq_iff, hpruned, Option.map_some, Json.prune?_eq_self_iff,
      Json.Full, and_iff_right hne, Option.getD_some]

end Report

/-- A failure with a field whose object has an empty part, and one in an array, below a wrapping step
with a scope of its own. -/
def Run.coupon : Run where
  origin := .raw .validationError "bad coupon"
    [.exposedField "coupon" (.obj [("applied", .obj []), ("codes", .arr [.obj []])])]
  steps := [.wrap ⟨⟨"checkout", 31⟩, ⟨[], []⟩⟩ none "checkout failed"
    [.dict "user" .exposed false [.exposedField "id" (.int 7)]]]

theorem Run.coupon_details_restored :
    ∃ failure decoded events, coupon.result = .ok failure ∧ failure.entries.Reachable ∧
      Report.decodeWith .empty (Report.encode failure) = .ok (decoded, events) ∧
      decoded.details = some
        [("coupon", .obj [("codes", .arr [.obj []])]), ("user", .obj [("id", .int 7)])] := by
  have hvalue : (Json.obj [("applied", .obj []), ("codes", .arr [.obj []])]).Canonical := by
    have hsorted : Json.Members.Sorted [("applied", .obj []), ("codes", .arr [.obj []])] := by
      refine List.pairwise_cons.2 ⟨?_, List.pairwise_singleton _ _⟩
      decide
    have hnil : Json.Members.Sorted [] := List.Pairwise.nil
    simp only [Json.Canonical, Json.CanonicalMembers, Json.CanonicalItems]
    exact ⟨hsorted, ⟨hnil, trivial⟩, ⟨⟨hnil, trivial⟩, trivial⟩, trivial⟩
  have hid : (Entry.exposedField "id" (.int 7)).Canonical := .of_leaf trivial rfl
  have hpassed : ∀ entry ∈ coupon.passed, entry.Canonical :=
    List.forall_mem_cons.2 ⟨.of_leaf hvalue rfl,
      List.forall_mem_singleton.2 (.intro trivial (List.forall_mem_singleton.2 hid))⟩
  obtain ⟨failure, hresult⟩ : ∃ failure, coupon.result = .ok failure := ⟨_, rfl⟩
  have hbase : coupon.origin.base.Reachable := .empty
  have hreachable : failure.entries.Reachable := .run hbase hpassed hresult
  obtain ⟨decoded, events, hdecode, hpruned, -⟩ := Report.details_restored .empty hreachable
  refine ⟨failure, decoded, events, hresult, hreachable, hdecode, ?_⟩
  cases hresult
  have hshown : decoded.details.map Json.obj = some (.obj
      [("coupon", .obj [("codes", .arr [.obj []])]), ("user", .obj [("id", .int 7)])]) := hpruned
  obtain ⟨details, hdetails, hobj⟩ := Option.map_eq_some_iff.1 hshown
  rw [hdetails, Json.obj.inj hobj]

/-- An exposed field with an empty object is shown before its report is sent, and not afterwards. -/
theorem Report.empty_object_not_restored :
    ∃ failure decoded events,
      Failure.raw .validationError "bad coupon" [.exposedField "coupon" (.obj [])] = .ok failure ∧
      failure.details = some [("coupon", .obj [])] ∧
      decodeWith .withBuiltins (encode failure) = .ok (decoded, events) ∧
      decoded.details = none :=
  ⟨_, _, _, rfl, rfl, rfl, rfl⟩

end Faults
