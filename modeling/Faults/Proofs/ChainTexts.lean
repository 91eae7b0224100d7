import Faults.Proofs.Wrapping
import Mathlib.Data.List.Destutter

/-!
# The text of a chain

The text of a chain is written link by link, and what is kept on the way is the text written last.
So a text is left out exactly when its neighbour before it is the same, and what is written are the
texts with every run of equal neighbours collapsed (`joinTexts_none`). A failure that is wrapped
under its own text only makes the first run longer: `Failure.chainText_run_rewraps`.
-/

namespace Faults

/-- The texts with each run of equal ones written once, joined by colons. -/
def collapsed (texts : List String) : String := ": ".intercalate (texts.destutter (· ≠ ·))

/-! ## Writing a chain -/

/-- With the text written last put in front, the rest is written as if the text began the chain. -/
theorem append_joinTexts (last : String) (rest : List String) :
    last ++ joinTexts (some last) rest = ": ".intercalate (rest.destutter' (· ≠ ·) last) := by
  induction rest generalizing last with
  | nil =>
    rw [joinTexts, List.destutter'_nil, String.intercalate_singleton]
    simp
  | cons text rest ih =>
    rw [joinTexts, List.destutter'_cons]
    by_cases h : last = text
    · subst h
      simpa using ih last
    · have hne : rest.destutter' (· ≠ ·) text ≠ [] := List.destutter'_ne_nil _ _
      rw [if_neg h, if_pos h, String.intercalate_cons_of_ne_nil hne, ← ih text]
      simp only [String.append_assoc]

theorem joinTexts_none (texts : List String) : joinTexts none texts = collapsed texts := by
  cases texts with
  | nil => rfl
  | cons text rest => exact append_joinTexts text rest

theorem collapsed_cons_self (text : String) (rest : List String) :
    collapsed (text :: text :: rest) = collapsed (text :: rest) := by
  rw [collapsed, collapsed, List.destutter_cons', List.destutter_cons',
    List.destutter'_cons_neg rest (fun h => h rfl)]

/-! ## Layers that repeat the text -/

/-- Where a trail has arrived, another one can. -/
theorem Context.roomFor_of_addAll_trail {context final : Context} {hops : List String}
    (h : context.addAll [.trail hops] = .ok final) : final.RoomFor Entry.trailKey .trail := by
  rw [addAll_eq_absorb] at h
  obtain ⟨result, harrives, hput⟩ := absorb_cons_ok.1 h
  cases hput
  have hkey : result.key = Entry.trailKey := harrives.key_eq fun _ => key_of_get?
  intro current hcurrent
  rw [get?_put, if_pos hkey] at hcurrent
  cases hcurrent
  generalize context.get? (Entry.trail hops).key = place at harrives
  cases harrives with
  | fresh | replaced | trail => exact .inl rfl

namespace Failure

open Entry (trailKey)

theorem chainText_eq (failure : Failure) :
    failure.chainText = collapsed (failure.chain.map Link.text) :=
  joinTexts_none _

/-- A layer of this kind is not seen in the text. -/
theorem chainText_rewrap {site : CallSite} {source : Source} {failure : Failure}
    (h : rewrap site source = .ok failure) :
    failure.chainText = collapsed (source.chain.map Link.text) := by
  have hmessage : failure.message = source.top.text := message_wrap h
  have hbelow : failure.below = source.chain := (wrap_ok h).2
  have htexts : failure.chain.map Link.text = failure.message :: failure.below.map Link.text := rfl
  rw [chainText_eq, htexts, hmessage, hbelow, Source.chain, List.map_cons, collapsed_cons_self]

theorem chainText_run_rewraps {failure final : Failure} {sites : List CallSite}
    (h : failure.run (sites.map .rewrap) = .ok final) : final.chainText = failure.chainText := by
  induction sites generalizing failure with
  | nil =>
    cases h
    rfl
  | cons site sites ih =>
    obtain ⟨next, hnext, hrest⟩ := run_cons_ok.1 h
    rw [ih hrest, chainText_rewrap hnext, chainText_eq]
    rfl

theorem exists_rewrap_iff (site : CallSite) {failure : Failure} :
    (∃ next, rewrap site failure.source = .ok next) ↔ failure.entries.RoomFor trailKey .trail :=
  wrap_ours_ok_iff rfl rfl

theorem roomFor_of_rewrap {site : CallSite} {failure next : Failure}
    (h : rewrap site failure.source = .ok next) : next.entries.RoomFor trailKey .trail := by
  have hentries := entries_wrap site none failure.source failure.source.top.text []
  rw [show wrap site none failure.source failure.source.top.text [] = .ok next from h] at hentries
  exact Context.roomFor_of_addAll_trail hentries.symm

/-- All layers can be put around a failure when the first one can. -/
theorem exists_run_rewraps_iff {failure : Failure} {sites : List CallSite} (hsites : sites ≠ []) :
    (∃ final, failure.run (sites.map .rewrap) = .ok final) ↔
      failure.entries.RoomFor trailKey .trail := by
  induction sites generalizing failure with
  | nil => exact absurd rfl hsites
  | cons site sites ih =>
    rw [← exists_rewrap_iff site]
    constructor
    · rintro ⟨final, hfinal⟩
      obtain ⟨next, hnext, -⟩ := run_cons_ok.1 hfinal
      exact ⟨next, hnext⟩
    · rintro ⟨next, hnext⟩
      obtain ⟨final, hfinal⟩ : ∃ final, next.run (sites.map .rewrap) = .ok final := by
        cases sites with
        | nil => exact ⟨next, rfl⟩
        | cons => exact (ih (List.cons_ne_nil _ _)).2 (roomFor_of_rewrap hnext)
      exact ⟨final, run_cons_ok.2 ⟨next, hnext, hfinal⟩⟩

theorem exists_rewrap_foreign (site : CallSite) {source : Source} (h : source.failure? = none) :
    ∃ failure, rewrap site source = .ok failure := by
  have hroom : ∀ key variant, Context.RoomFor [] key variant := fun _ _ _ h => by cases h
  cases htop : source.top with
  | ours layer => simp [Source.failure?, htop, Link.layer?] at h
  | foreign text => exact (wrap_foreign_ok_iff htop rfl).2 ⟨hroom _ _, hroom _ _⟩

/-- **The text of a chain.** The chain text of a failure, which is also its alternate form, is made
of the texts of all links, whatever they are: each run of equal texts is written once, empty ones
included, and colons stand in between. Layers that wrap the failure under its own text leave no
trace in it; any number of them can be put around the failure if there is room for a hop. And
something foreign can always be wrapped under its own text, and gives the text of its own chain. -/
theorem chainText_collapsed :
    (∀ failure : Failure, failure.chainText = collapsed (failure.chain.map Link.text) ∧
      failure.display true = failure.chainText) ∧
    (∀ (failure : Failure) (sites : List CallSite),
      (∀ final, failure.run (sites.map .rewrap) = .ok final →
        final.chainText = failure.chainText) ∧
      (sites ≠ [] → ((∃ final, failure.run (sites.map .rewrap) = .ok final) ↔
        failure.entries.RoomFor trailKey .trail))) ∧
    ∀ (site : CallSite) (source : Source), source.failure? = none →
      ∃ failure, rewrap site source = .ok failure ∧
        failure.chainText = collapsed (source.chain.map Link.text) := by
  refine ⟨fun failure => ⟨failure.chainText_eq, rfl⟩, fun failure sites => ?_, ?_⟩
  · exact ⟨fun final => chainText_run_rewraps, exists_run_rewraps_iff⟩
  · intro site source hforeign
    obtain ⟨failure, hfailure⟩ := exists_rewrap_foreign site hforeign
    exact ⟨failure, hfailure, chainText_rewrap hfailure⟩

/-- A chain of failures and foreign things in which texts, an empty one too, stand next to
themselves and come back further down. -/
theorem upload_chainText :
    let layer (message : String) : Link := .ours ⟨.systemError, message, []⟩
    let upload : Failure := ⟨⟨.systemError, "upload", []⟩,
      [.foreign "upload", layer "", .foreign "", .foreign "disk", layer "upload"]⟩
    let disk : Source := ⟨.foreign "disk", [.foreign "disk", layer "full"]⟩
    let site : CallSite := ⟨⟨"store", 3⟩, ⟨[], []⟩⟩
    upload.display true = "upload: : disk: upload" ∧
      (∃ final, upload.run [.rewrap site, .rewrap site] = .ok final ∧
        final.chainText = "upload: : disk: upload") ∧
      ∃ failure, rewrap site disk = .ok failure ∧ failure.chainText = "disk: full" := by
  intro layer upload disk site
  obtain ⟨hchain, hlayers, hforeign⟩ := chainText_collapsed
  have htext : upload.chainText = "upload: : disk: upload" := by
    rw [(hchain upload).1]
    decide
  refine ⟨(hchain upload).2.trans htext, ?_, ?_⟩
  · have hroom : upload.entries.RoomFor trailKey .trail := fun _ h => by cases h
    obtain ⟨htexts, hexists⟩ := hlayers upload [site, site]
    obtain ⟨final, hfinal⟩ := (hexists (List.cons_ne_nil _ _)).2 hroom
    exact ⟨final, hfinal, (htexts final hfinal).trans htext⟩
  · obtain ⟨failure, hfailure, hdisk⟩ := hforeign site disk rfl
    refine ⟨failure, hfailure, hdisk.trans ?_⟩
    decide

end Failure

end Faults
