import Faults.Proofs.Keywise
import Faults.Proofs.Layers
import Faults.Template

/-!
# Bundles are merged last

A bundle arrives behind the diagnostics where a failure is raised, and before them where one is
wrapped. That makes no difference as long as the bundle keeps away from the keys of stacks and
trails: the diagnostics then arrive under other keys, so what clashes clashes in either order, and
only the order of the keys can differ (`Failure.wrap_attach`). So every constructor of a bundle does what
the plain one does with the bundle attached afterwards: `Bundle.merged_last`.
-/

namespace Faults

open Entry (stackKey trailKey)

/-- Failures with the same kind, message and causes, of which the same is shown outside and in the
logs. -/
structure Failure.Matches (left right : Failure) : Prop where
  kind : left.kind = right.kind
  message : left.message = right.message
  below : left.below = right.below
  details : left.details = right.details
  logs : left.entries.logValues = right.entries.logValues

/-- Two ways to make a failure: one clashes where the other does, and else they lead to failures that
match. -/
structure Concur (left right : Except Clash Failure) : Prop where
  clashes : (∃ clash, left = .error clash) ↔ ∃ clash, right = .error clash
  matching : ∀ failure failure', left = .ok failure → right = .ok failure' → failure.Matches failure'

theorem Concur.refl (made : Except Clash Failure) : Concur made made := by
  refine ⟨Iff.rfl, fun failure failure' h h' => ?_⟩
  obtain rfl := Except.ok.inj (h.symm.trans h')
  exact ⟨rfl, rfl, rfl, rfl, rfl⟩

namespace Failure

variable {site : CallSite} {kind? : Option Kind} {source : Source} {message : String}
  {entries more : List Entry}

/-- Diagnostics arrive under the keys of stacks and trails. -/
theorem under_diagnostics (site : CallSite) (link : Link) {key : String} (hstack : stackKey ≠ key)
    (htrail : trailKey ≠ key) : Context.under (diagnostics site link) key = [] := by
  rw [Context.under_eq_nil_iff]
  cases link with
  | ours => exact List.forall_mem_singleton.2 htrail
  | foreign => exact List.forall_mem_cons.2 ⟨hstack, List.forall_mem_singleton.2 htrail⟩

/-- Entries elsewhere can change places with the diagnostics. -/
theorem under_append_diagnostics (site : CallSite) (link : Link) (entries : List Entry)
    (hmore : ∀ entry ∈ more, entry.key ≠ stackKey ∧ entry.key ≠ trailKey) (key : String) :
    Context.under (entries ++ more ++ diagnostics site link) key =
      Context.under (entries ++ diagnostics site link ++ more) key := by
  simp only [Context.under_append, List.append_assoc]
  refine congrArg _ ?_
  by_cases hdiagnostics : stackKey ≠ key ∧ trailKey ≠ key
  · rw [under_diagnostics site link hdiagnostics.1 hdiagnostics.2, List.append_nil, List.nil_append]
  · have hnone : Context.under more key = [] := by
      rw [Context.under_eq_nil_iff]
      rintro entry hmem rfl
      exact hdiagnostics ⟨(hmore entry hmem).1.symm, (hmore entry hmem).2.symm⟩
    rw [hnone, List.append_nil, List.nil_append]

theorem entries_wrap_attach (site : CallSite) (kind? : Option Kind) (source : Source)
    (message : String) (entries more : List Entry) :
    (·.entries) <$> (do (← wrap site kind? source message entries).attach more) =
      (inheritedEntries source.top).addAll (entries ++ diagnostics site source.top ++ more) := by
  rw [Context.addAll_append, ← entries_wrap site kind? source message, bind_map_left, map_bind]
  exact bind_congr fun failure => entries_attach failure more

/-- Entries elsewhere can as well be attached once the diagnostics are there. -/
theorem wrap_attach (hmore : ∀ entry ∈ more, entry.key ≠ stackKey ∧ entry.key ≠ trailKey) :
    Concur (wrap site kind? source message (entries ++ more))
      (do (← wrap site kind? source message entries).attach more) := by
  have hunder := under_append_diagnostics site source.top entries hmore
  have hleft := entries_wrap site kind? source message (entries ++ more)
  have hright := entries_wrap_attach site kind? source message entries more
  rw [Context.addAll_eq_absorb] at hleft hright
  constructor
  · rw [exists_error_iff, exists_error_iff, not_iff_not, ← exists_map_ok, hleft,
      Context.absorb_ok_congr hunder, ← hright, exists_map_ok]
  · intro failure failure' h h'
    have hmerged : (inheritedEntries source.top).absorb .exposed
        (entries ++ more ++ diagnostics site source.top) = .ok failure.entries := by
      rw [← hleft, h]
      rfl
    have hmerged' : (inheritedEntries source.top).absorb .exposed
        (entries ++ diagnostics site source.top ++ more) = .ok failure'.entries := by
      rw [← hright, h']
      rfl
    have hsame := Context.under_congr_of_absorb hunder hmerged hmerged'
    obtain ⟨wrapped, hwrapped, hattached⟩ := bind_ok.1 h'
    obtain ⟨context, -, rfl⟩ := map_ok.1 hattached
    obtain ⟨hkind, hbelow⟩ := wrap_ok h
    obtain ⟨hkind', hbelow'⟩ := wrap_ok hwrapped
    exact {
      kind := hkind.trans hkind'.symm
      message := (message_wrap h).trans (message_wrap hwrapped).symm
      below := hbelow.trans hbelow'.symm
      details := by rw [details, details, Context.publicValues_eq_of_under hsame]
      logs := Context.logValues_eq_of_under hsame }

end Failure

namespace Bundle

/-- A failure that the bundle is attached to once it is made. -/
def attachTo (bundle : Bundle) (made : Except Clash Failure) : Except Clash Failure := do
  (← made).attach bundle.entries

/-- **Bundles are merged last.** Every constructor of a bundle that keeps away from the keys of stacks
and trails clashes exactly where the plain constructor with the bundle attached afterwards does.
Otherwise both lead to failures with the same kind, message, causes, details and logs. -/
theorem merged_last (bundle : Bundle)
    (hbundle : ∀ entry ∈ bundle.entries, entry.key ≠ stackKey ∧ entry.key ≠ trailKey)
    (site : CallSite) (message : String) (entries : List Entry) :
    (∀ kind, Concur (bundle.raise site kind message entries)
      (bundle.attachTo (Failure.raise site kind message entries))) ∧
    (∀ kind, Concur (bundle.raw kind message entries)
      (bundle.attachTo (Failure.raw kind message entries))) ∧
    ∀ kind? source, Concur (bundle.wrap site kind? source message entries)
      (bundle.attachTo (Failure.wrap site kind? source message entries)) :=
  ⟨fun _ => .refl _, fun _ => .refl _, fun _ _ => Failure.wrap_attach hbundle⟩

/-- A tenant and a note on its user. -/
def tenant : Bundle where
  entries := [.exposedField "tenant" (.str "acme"),
    .dict "user" .restricted false [.exposedField "plan" (.str "free")]]

/-- What was received of a failed lookup. -/
def lookup : Failure where
  kind := .notFoundError
  message := "no such user"
  entries := [.dict "user" .exposed true [.field "id" (.int 7) .exposed true]]
  below := []

/-- The received user is united with the one of the bundle, and a scope in the place of the tenant
clashes, whenever the bundle is merged. -/
theorem tenant_merged_last :
    let site : CallSite := ⟨⟨"login", 40⟩, ⟨[[⟨some "login", none, none⟩]], []⟩⟩
    let scope : Entry := .dict "tenant" .exposed false []
    (∀ entry ∈ tenant.entries, entry.key ≠ stackKey ∧ entry.key ≠ trailKey) ∧
    (∃ bundled attached, tenant.wrap site none lookup.source "not logged in" [] = .ok bundled ∧
      tenant.attachTo (Failure.wrap site none lookup.source "not logged in" []) = .ok attached ∧
      bundled.entries.keys = ["user", "tenant", trailKey] ∧
      attached.entries.keys = ["user", trailKey, "tenant"] ∧ bundled.Matches attached) ∧
    (∃ clash, tenant.wrap site (some .authError) lookup.source "not logged in" [scope] =
      .error clash) ∧
    ∃ clash, tenant.attachTo
      (Failure.wrap site (some .authError) lookup.source "not logged in" [scope]) = .error clash := by
  intro site scope
  have htenant : ∀ entry ∈ tenant.entries, entry.key ≠ stackKey ∧ entry.key ≠ trailKey := by decide
  obtain ⟨-, -, hplain⟩ := merged_last tenant htenant site "not logged in" []
  obtain ⟨-, -, hscope⟩ := merged_last tenant htenant site "not logged in" [scope]
  have hclash : ∃ clash, tenant.wrap site (some .authError) lookup.source "not logged in" [scope] =
      .error clash := ⟨_, rfl⟩
  exact ⟨htenant, ⟨_, _, rfl, rfl, rfl, rfl, (hplain none lookup.source).matching _ _ rfl rfl⟩,
    hclash, (hscope (some .authError) lookup.source).clashes.1 hclash⟩

end Bundle

end Faults
