import Faults.Kind.Catalog
import Faults.Proofs.Histories
import Faults.Proofs.Registration
import Mathlib.Data.List.TakeWhile

/-!
# Registration at startup

The parts of a process register their kinds one call after the other, and a violation of one call is
caught before the next. A plain registry keeps what a failed call has registered so far, and so does
the catalog once it is open. An unseeded catalog does not: it builds a registry for the call and keeps
it only if the whole list goes in. So the calls that fail before any has succeeded are forgotten.

* `Catalog.registerAll_unseeded`: the catalog does with the other calls what a plain registry does;
* `Catalog.likePlain_iff`: it behaves like a plain registry on all calls exactly when the forgotten
  ones would have left nothing behind.
-/

namespace Faults

/-! ## Sequences of calls -/

namespace Registry

/-- A call for each list. -/
def registerAll (registry : Registry) (lists : List (List Kind)) :
    Registry × List (Option Violation) :=
  mapAccum mustRegister registry lists

/-- The lists that were registered without a violation. -/
def registered (lists : List (List Kind)) (violations : List (Option Violation)) :
    List (List Kind) :=
  ((lists.zip violations).filter fun call => call.2.isNone).map Prod.fst

theorem registered_append {early late : List (List Kind)}
    {violations violations' : List (Option Violation)} (h : early.length = violations.length) :
    registered (early ++ late) (violations ++ violations') =
      registered early violations ++ registered late violations' := by
  simp only [registered, List.zip_append h, List.filter_append, List.map_append]

theorem WF.registerAll {registry : Registry} (h : registry.WF) (lists : List (List Kind)) :
    (registry.registerAll lists).1.WF ∧
      ∃ added, (registry.registerAll lists).1.kinds = registry.kinds ++ added ∧
        (registered lists (registry.registerAll lists).2).flatten.Sublist added := by
  induction lists generalizing registry with
  | nil => exact ⟨h, [], (List.append_nil _).symm, List.Sublist.refl _⟩
  | cons kinds lists ih =>
    obtain ⟨hnext, accepted, haccepts⟩ := h.register kinds
    obtain ⟨hwf, added, hkinds, hsub⟩ := ih hnext
    refine ⟨hwf, accepted ++ added, ?_, ?_⟩
    · rw [← List.append_assoc, ← haccepts.kinds_eq]
      exact hkinds
    · change (registered (kinds :: lists) (((registry.register kinds).2.map .registration) ::
        ((registry.register kinds).1.registerAll lists).2)).flatten.Sublist _
      by_cases hok : (registry.register kinds).2 = none
      · rw [haccepts.succeeds_iff.1 hok, hok]
        exact hsub.append_left kinds
      · obtain ⟨error, herror⟩ := Option.ne_none_iff_exists'.1 hok
        rw [herror]
        exact hsub.trans (List.sublist_append_right _ _)

/-- A registry that has no more kinds than before is the same as before. -/
theorem WF.register_eq_self {registry : Registry} (h : registry.WF) {kinds : List Kind}
    (hkinds : (registry.register kinds).1.kinds = registry.kinds) :
    (registry.register kinds).1 = registry := by
  cases kinds with
  | nil => rfl
  | cons kind kinds =>
    rcases h.insert_cases kind with ⟨error, hinsert, -⟩ | ⟨-, next, hinsert, hnext, hmore⟩
    · rw [Registry.register, hinsert]
    · obtain ⟨-, accepted, haccepts⟩ := hnext.register kinds
      rw [Registry.register, hinsert] at hkinds
      have hlength := congrArg List.length (haccepts.kinds_eq.symm.trans hkinds)
      rw [hmore] at hlength
      simp only [List.length_append, List.length_cons, List.length_nil] at hlength
      omega

theorem WF.registerAll_eq_self {registry : Registry} (h : registry.WF) {lists : List (List Kind)}
    (hkinds : (registry.registerAll lists).1.kinds = registry.kinds) :
    (registry.registerAll lists).1 = registry := by
  induction lists with
  | nil => rfl
  | cons kinds lists ih =>
    obtain ⟨hnext, accepted, haccepts⟩ := h.register kinds
    obtain ⟨-, added, hadded, -⟩ := hnext.registerAll lists
    have hfinal : ((registry.register kinds).1.registerAll lists).1.kinds = registry.kinds := hkinds
    have hlength := congrArg List.length (hadded.symm.trans hfinal)
    rw [haccepts.kinds_eq, List.append_assoc, List.length_append] at hlength
    have hnone : accepted ++ added = [] := List.eq_nil_of_length_eq_zero (by omega)
    have hsame : (registry.register kinds).1 = registry := by
      apply h.register_eq_self
      rw [haccepts.kinds_eq, (List.append_eq_nil_iff.1 hnone).1, List.append_nil]
    change ((registry.register kinds).1.registerAll lists).1 = registry
    rw [hsame] at hfinal ⊢
    exact ih hfinal

end Registry

open Registry (withBuiltins registered registered_append)

namespace Catalog

/-- A call for each list. -/
def registerAll (catalog : Catalog) (lists : List (List Kind)) :
    Catalog × List (Option Violation) :=
  mapAccum register catalog lists

/-- A process that starts with this list does not get it in. -/
def failsFirst (kinds : List Kind) : Bool := (withBuiltins.mustRegister kinds).2.isSome

/-! ## What the catalog does -/

theorem register_of_failsFirst {kinds : List Kind} (h : failsFirst kinds = true) :
    unseeded.register kinds = (unseeded, (withBuiltins.mustRegister kinds).2) := by
  obtain ⟨violation, hviolation⟩ := Option.isSome_iff_exists.1 h
  simp only [register, unseeded]
  split
  · next hnone =>
    rw [hnone] at hviolation
    cases hviolation
  · next hsome => rw [hsome]

theorem register_of_not_failsFirst {kinds : List Kind} (h : failsFirst kinds = false) :
    unseeded.register kinds =
      (⟨.opened (withBuiltins.mustRegister kinds).1, none⟩,
        (withBuiltins.mustRegister kinds).2) := by
  simp only [register, unseeded]
  split
  · next hnone => rw [hnone]
  · next hsome =>
    rw [failsFirst, hsome] at h
    cases h

/-- An open catalog is a plain registry. -/
theorem registerAll_opened (registry : Registry) (lists : List (List Kind)) :
    registerAll ⟨.opened registry, none⟩ lists =
      (⟨.opened (registry.registerAll lists).1, none⟩, (registry.registerAll lists).2) := by
  induction lists generalizing registry with
  | nil => rfl
  | cons kinds lists ih =>
    have hrest := ih (registry.mustRegister kinds).1
    simp only [registerAll, Registry.registerAll] at hrest ⊢
    simp only [mapAccum, register, hrest]

/-- Calls that fail before one has succeeded leave the catalog as it was; from the first that succeeds
on it is a plain registry. Nothing is published in any case. -/
theorem registerAll_unseeded (lists : List (List Kind)) :
    (∃ phase, (unseeded.registerAll lists).1 = ⟨phase, none⟩ ∧
      phase.registry = (withBuiltins.registerAll (lists.dropWhile failsFirst)).1) ∧
    (unseeded.registerAll lists).2 =
      (lists.takeWhile failsFirst).map (fun kinds => (withBuiltins.mustRegister kinds).2) ++
        (withBuiltins.registerAll (lists.dropWhile failsFirst)).2 := by
  induction lists with
  | nil => exact ⟨⟨.unseeded, rfl, rfl⟩, rfl⟩
  | cons kinds lists ih =>
    simp only [registerAll, mapAccum] at ih ⊢
    by_cases h : failsFirst kinds = true
    · rw [List.takeWhile_cons_of_pos h, List.dropWhile_cons_of_pos h, register_of_failsFirst h]
      exact ⟨ih.1, congrArg _ ih.2⟩
    · rw [List.takeWhile_cons_of_neg h, List.dropWhile_cons_of_neg h,
        register_of_not_failsFirst (Bool.eq_false_iff.2 h)]
      have hopened := registerAll_opened (withBuiltins.mustRegister kinds).1 lists
      rw [registerAll] at hopened
      rw [hopened]
      exact ⟨⟨_, rfl, rfl⟩, rfl⟩

theorem read_registerAll (lists : List (List Kind)) :
    (unseeded.registerAll lists).1.read.1 =
      (withBuiltins.registerAll (lists.dropWhile failsFirst)).1 := by
  obtain ⟨⟨phase, hphase, hregistry⟩, -⟩ := registerAll_unseeded lists
  rw [hphase]
  exact hregistry

theorem registered_failsFirst {lists : List (List Kind)}
    (h : ∀ kinds ∈ lists, failsFirst kinds = true) :
    registered lists (lists.map fun kinds => (withBuiltins.mustRegister kinds).2) = [] := by
  induction lists with
  | nil => rfl
  | cons kinds lists ih =>
    obtain ⟨hkinds, hlists⟩ := List.forall_mem_cons.1 h
    obtain ⟨violation, hviolation⟩ := Option.isSome_iff_exists.1 hkinds
    rw [registered] at ih ⊢
    rw [List.map_cons, hviolation]
    exact ih hlists

theorem registered_registerAll (lists : List (List Kind)) :
    registered lists (unseeded.registerAll lists).2 =
      registered (lists.dropWhile failsFirst)
        (withBuiltins.registerAll (lists.dropWhile failsFirst)).2 := by
  rw [(registerAll_unseeded lists).2]
  conv_lhs =>
    arg 1
    rw [← List.takeWhile_append_dropWhile (p := failsFirst) (l := lists)]
  rw [registered_append (List.length_map _).symm,
    registered_failsFirst fun kinds hmem => List.mem_takeWhile_imp hmem]
  rfl

/-! ## Compared with a plain registry -/

/-- After these calls a read finds the kinds of a plain registry after them, and the same calls have
failed. -/
def LikePlain (lists : List (List Kind)) : Prop :=
  (unseeded.registerAll lists).1.read.1.kinds = (withBuiltins.registerAll lists).1.kinds ∧
  (unseeded.registerAll lists).2.map Option.isSome =
    (withBuiltins.registerAll lists).2.map Option.isSome

theorem wf_withBuiltins : withBuiltins.WF := Registry.Reached.withBuiltins.wf

/-- When the forgotten calls leave a plain registry as it was, nothing is missed. -/
theorem likePlain_of_stays {lists : List (List Kind)}
    (h : ∀ kinds ∈ lists.takeWhile failsFirst, (withBuiltins.mustRegister kinds).1 = withBuiltins) :
    LikePlain lists := by
  obtain ⟨-, hviolations⟩ := registerAll_unseeded lists
  have hplain : withBuiltins.registerAll lists =
      ((withBuiltins.registerAll (lists.dropWhile failsFirst)).1,
        (lists.takeWhile failsFirst).map (fun kinds => (withBuiltins.mustRegister kinds).2) ++
          (withBuiltins.registerAll (lists.dropWhile failsFirst)).2) := by
    conv_lhs => rw [← List.takeWhile_append_dropWhile (p := failsFirst) (l := lists)]
    rw [Registry.registerAll, mapAccum_append, mapAccum_of_stays _ h]
    rfl
  refine ⟨?_, ?_⟩
  · rw [read_registerAll, hplain]
  · rw [hviolations, hplain]

/-- What is missed first shows right after the call that left it. -/
theorem stays_of_likePlain {before : List (List Kind)} {kinds : List Kind}
    (hfails : ∀ list ∈ before ++ [kinds], failsFirst list = true) (hbefore : LikePlain before)
    (h : LikePlain (before ++ [kinds])) : (withBuiltins.mustRegister kinds).1 = withBuiltins := by
  have hnone : ∀ lists, (∀ list ∈ lists, failsFirst list = true) → LikePlain lists →
      (withBuiltins.registerAll lists).1 = withBuiltins := by
    intro lists hall hlists
    -- all these calls are forgotten, so a plain registry like the catalog has the standard kinds only
    apply wf_withBuiltins.registerAll_eq_self
    rw [← hlists.1, read_registerAll, List.dropWhile_eq_nil_iff.2 hall]
    rfl
  have hfront := hnone before (fun list hmem => hfails list (List.mem_append_left _ hmem)) hbefore
  have hlast := hnone _ hfails h
  rw [Registry.registerAll] at hfront hlast
  rw [mapAccum_append, hfront] at hlast
  exact hlast

theorem mem_takeWhile_of_front {lists front : List (List Kind)} (h : front <+: lists) {kinds : List Kind}
    (hmem : kinds ∈ front.takeWhile failsFirst) : kinds ∈ lists.takeWhile failsFirst := by
  obtain ⟨back, rfl⟩ := h
  rw [List.takeWhile_append]
  split
  · exact List.mem_append_left _ (List.takeWhile_subset _ hmem)
  · exact hmem

/-- **The catalog registers like a plain registry from the first call that succeeds on.** Reads find what
a plain registry of the standard kinds holds after the calls from that one on, and each call fails as
it fails there; the calls before it fail as each of them fails first, and are forgotten. So the catalog
can be taken for a plain registry, after each of the calls, exactly when the forgotten calls would have
registered nothing. -/
theorem likePlain_iff (lists : List (List Kind)) :
    ((unseeded.registerAll lists).1.read.1 =
        (withBuiltins.registerAll (lists.dropWhile failsFirst)).1 ∧
      (unseeded.registerAll lists).2 =
        (lists.takeWhile failsFirst).map (fun kinds => (withBuiltins.mustRegister kinds).2) ++
          (withBuiltins.registerAll (lists.dropWhile failsFirst)).2) ∧
    ((∀ front, front <+: lists → LikePlain front) ↔
      ∀ kinds ∈ lists.takeWhile failsFirst,
        (withBuiltins.mustRegister kinds).1.kinds = withBuiltins.kinds) := by
  refine ⟨⟨read_registerAll lists, (registerAll_unseeded lists).2⟩, ?_, ?_⟩
  · intro h kinds hmem
    -- compare right after this call: it is forgotten, and so are all before it
    obtain ⟨before, after, hsplit⟩ := List.append_of_mem hmem
    have hfront : before ++ [kinds] <+: lists := by
      refine List.IsPrefix.trans ⟨after, ?_⟩ (List.takeWhile_prefix failsFirst)
      rw [hsplit, List.append_assoc, List.singleton_append]
    have hfails : ∀ list ∈ before ++ [kinds], failsFirst list = true := by
      intro list hlist
      refine List.mem_takeWhile_imp (l := lists) ?_
      rw [hsplit, List.append_cons]
      exact List.mem_append_left _ hlist
    have hbefore := h before ((List.prefix_append before [kinds]).trans hfront)
    rw [stays_of_likePlain hfails hbefore (h _ hfront)]
  · intro h front hfront
    apply likePlain_of_stays
    intro kinds hmem
    exact wf_withBuiltins.register_eq_self (h kinds (mem_takeWhile_of_front hfront hmem))

/-- A kind whose list clashes later on is lost to the catalog and not to a plain registry. -/
theorem not_likePlain : ¬ ∀ lists, LikePlain lists := by
  intro h
  have hkinds := (h [Registry.queueKinds]).1
  have hlost : (unseeded.registerAll [Registry.queueKinds]).1.read.1.kinds.length = 14 := by decide
  have hkept : (withBuiltins.registerAll [Registry.queueKinds]).1.kinds.length = 15 := by decide
  rw [hkinds, hkept] at hlost
  cases hlost

end Catalog

end Faults
