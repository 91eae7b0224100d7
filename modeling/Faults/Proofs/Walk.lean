import Faults.CallSite
import Mathlib.Data.List.TakeWhile

/-!
# The walk up the stack

A walk goes level by level, symbol by symbol, and stops early when it has as many frames as it may
keep. What it keeps does not depend on the levels: `Surroundings.external_eq` says that it is the named
symbols without the machinery in front, cut off at the limit. So two walks from one place begin with
the same frame, whatever their limits, and a captured stack begins with the function that the hop
names (`CallSite.origin_eq`). Of the machinery only the set of its prefixes counts, and more of it
drops more in front (`Surroundings.outer_suffix`). `Surroundings.walk_eq` has all of this.
-/

namespace Faults

/-- The frame of a symbol, if it has a name. -/
def Symbol.frame? (symbol : Symbol) : Option Frame :=
  symbol.name.map fun name => ⟨name, symbol.file, symbol.line⟩

namespace Surroundings

/-- The frames from the first one outside the machinery on. -/
def outer (machinery : List String) (frames : List Frame) : List Frame :=
  frames.dropWhile fun frame => isInternal machinery frame.function

theorem outer_append (machinery : List String) (frames more : List Frame) :
    outer machinery (frames ++ more) =
      if outer machinery frames = [] then outer machinery more else outer machinery frames ++ more := by
  rw [outer, List.dropWhile_append, ← outer, ← outer]
  simp only [List.isEmpty_iff]

theorem outer_singleton (machinery : List String) (frame : Frame) :
    outer machinery [frame] = if isInternal machinery frame.function then [] else [frame] := by
  rw [outer, List.dropWhile_cons, List.dropWhile_nil]

namespace Walk

/-- A walk that has come across these frames. -/
def past (machinery : List String) (limit : Nat) (frames : List Frame) : Walk :=
  ⟨(outer machinery frames).take limit, 0 < limit ∧ outer machinery frames ≠ []⟩

variable {machinery : List String} {limit : Nat}

/-- A walk that has all frames it may keep is not changed by more. -/
theorem past_append_of_full {frames : List Frame}
    (h : limit ≤ (past machinery limit frames).frames.length) (more : List Frame) :
    past machinery limit (frames ++ more) = past machinery limit frames := by
  simp only [past, List.length_take] at h
  have hlength : limit ≤ (outer machinery frames).length := by omega
  simp only [past, outer_append]
  by_cases hnone : outer machinery frames = []
  · rw [hnone, List.length_nil, Nat.le_zero] at hlength
    subst hlength
    simp
  · simp [hnone, List.take_append_of_le_length hlength]

/-- One symbol more. -/
theorem visit_past (frames : List Frame) (symbol : Symbol) :
    (past machinery limit frames).visit machinery limit symbol =
      past machinery limit (frames ++ symbol.frame?.toList) := by
  unfold visit
  split
  · next hfull => rw [past_append_of_full hfull]
  · next hroom =>
    cases hname : symbol.name with
    | none => simp only [Symbol.frame?, hname, Option.map_none, Option.toList_none, List.append_nil]
    | some name =>
      -- there is room, so nothing has been cut off yet
      simp only [past, List.length_take] at hroom
      have hlimit : 0 < limit := by omega
      have htake : (outer machinery frames).take limit = outer machinery frames :=
        List.take_of_length_le (by omega)
      simp only [Symbol.frame?, hname, Option.map_some, Option.toList_some, past, outer_append, htake]
      by_cases hnone : outer machinery frames = []
      · cases hinternal : isInternal machinery name with
        | false =>
          have hone : [(⟨name, symbol.file, symbol.line⟩ : Frame)].length ≤ limit := hlimit
          simp [hnone, hinternal, outer_singleton, hlimit, List.take_of_length_le hone]
        | true => simp [hnone, hinternal, outer_singleton]
      · have hshort : (outer machinery frames).length + 1 ≤ limit := by omega
        simp [hnone, hlimit, List.take_of_length_le, hshort]

theorem foldl_visit_past (frames : List Frame) (level : List Symbol) :
    level.foldl (visit machinery limit) (past machinery limit frames) =
      past machinery limit (frames ++ level.filterMap Symbol.frame?) := by
  induction level generalizing frames with
  | nil => rw [List.foldl_nil, List.filterMap_nil, List.append_nil]
  | cons symbol level ih =>
    rw [List.foldl_cons, visit_past, ih, List.append_assoc]
    cases hframe : symbol.frame? with
    | none => rw [List.filterMap_cons_none hframe]; rfl
    | some frame => rw [List.filterMap_cons_some hframe]; rfl

theorem levels_past (frames : List Frame) (stack : List (List Symbol)) :
    levels machinery limit (past machinery limit frames) stack =
      past machinery limit (frames ++ stack.flatten.filterMap Symbol.frame?) := by
  induction stack generalizing frames with
  | nil => simp only [levels, List.flatten_nil, List.filterMap_nil, List.append_nil]
  | cons level rest ih =>
    rw [levels, foldl_visit_past, List.flatten_cons, List.filterMap_append, ← List.append_assoc]
    split
    · exact ih _
    · next hfull => rw [past_append_of_full (Nat.le_of_not_lt hfull)]

end Walk

/-- What a walk keeps: of the named symbols, in order, those from the first one outside the machinery
on, as many as it may. -/
theorem external_eq (surroundings : Surroundings) (limit : Nat) :
    surroundings.external limit =
      (outer surroundings.machinery
        (surroundings.levels.flatten.filterMap Symbol.frame?)).take limit := by
  have hstart : (⟨[], false⟩ : Walk) = Walk.past surroundings.machinery limit [] := by
    simp [Walk.past, outer]
  rw [external, hstart, Walk.levels_past, List.nil_append]
  rfl

/-- All walks from one place begin with the same frame. -/
theorem head?_external (surroundings : Surroundings) (limit : Nat) (h : 0 < limit) :
    (surroundings.external limit).head? = (surroundings.external 1).head? := by
  rw [external_eq, external_eq, List.head?_take, List.head?_take, if_neg (by omega),
    if_neg (by omega)]

end Surroundings

namespace CallSite

/-- A single walk gives the captured stack and the hop of the caller. -/
theorem origin_eq (site : CallSite) :
    site.origin = (site.surroundings.capture, site.caller.hop) := by
  have hhead := site.surroundings.head?_external Surroundings.frameLimit (by decide)
  rw [origin, caller, Surroundings.capture, hhead]

end CallSite

/-! ## More machinery -/

namespace Surroundings

variable {machinery machinery' : List String}

theorem mem_addMachinery {start other : String} :
    other ∈ addMachinery machinery start ↔ other ∈ machinery ∨ other = start := by
  unfold addMachinery
  split
  · next h =>
    rw [List.contains_iff_mem] at h
    exact ⟨.inl, fun hother => hother.elim id fun heq => heq ▸ h⟩
  · rw [List.mem_append, List.mem_singleton]

/-- The surroundings with prefixes added to the machinery one after the other. -/
def withMachinery (surroundings : Surroundings) (added : List String) : Surroundings :=
  { surroundings with machinery := added.foldl addMachinery surroundings.machinery }

theorem mem_machinery_withMachinery {surroundings : Surroundings} {added : List String}
    {start : String} :
    start ∈ (surroundings.withMachinery added).machinery ↔
      start ∈ surroundings.machinery ∨ start ∈ added := by
  rw [withMachinery]
  generalize surroundings.machinery = machinery
  induction added generalizing machinery with
  | nil => simp
  | cons first rest ih => rw [List.foldl_cons, ih, mem_addMachinery, List.mem_cons, or_assoc]

theorem isInternal_of_subset (h : machinery ⊆ machinery') {name : String}
    (hinternal : isInternal machinery name = true) : isInternal machinery' name = true := by
  simp only [isInternal, Bool.or_eq_true, List.any_eq_true] at hinternal ⊢
  exact hinternal.imp_right fun ⟨start, hmem, hstart⟩ => ⟨start, h hmem, hstart⟩

/-- The machinery counts as a set. -/
theorem outer_congr (h : ∀ start, start ∈ machinery ↔ start ∈ machinery') :
    outer machinery = outer machinery' := by
  have hinternal : isInternal machinery = isInternal machinery' := by
    funext name
    exact Bool.eq_iff_iff.2 ⟨isInternal_of_subset fun start => (h start).1,
      isInternal_of_subset fun start => (h start).2⟩
  funext frames
  rw [outer, outer, hinternal]

/-- More machinery drops more frames in front. -/
theorem outer_suffix (h : machinery ⊆ machinery') (frames : List Frame) :
    outer machinery' frames <:+ outer machinery frames := by
  induction frames with
  | nil => exact List.suffix_rfl
  | cons frame rest ih =>
    rw [outer, outer, List.dropWhile_cons, List.dropWhile_cons, ← outer, ← outer]
    by_cases hinternal : isInternal machinery frame.function = true
    · rw [if_pos hinternal, if_pos (isInternal_of_subset h hinternal)]
      exact ih
    · rw [if_neg hinternal]
      split
      · exact (List.dropWhile_suffix _).trans (List.suffix_cons _ _)
      · exact List.suffix_rfl

/-- The frames of all symbols that have a name, from the innermost level on. -/
def named (surroundings : Surroundings) : List Frame :=
  surroundings.levels.flatten.filterMap Symbol.frame?

/-- **Drop, then take.** A walk keeps the frames of the named symbols in order, without the run of
machinery in front, as many as its limit allows. So a shorter walk is the beginning of a longer one,
and the hop of a caller names the first function of the stack captured at the same place. Adding the
same prefixes to the machinery in another order or repeatedly makes no difference, and a walk that is
long enough for the whole stack keeps an end of what it kept before they were added. -/
theorem walk_eq (surroundings : Surroundings) :
    (∀ limit, surroundings.external limit =
      (surroundings.named.dropWhile fun frame =>
        isInternal surroundings.machinery frame.function).take limit) ∧
    (∀ limit limit', limit ≤ limit' →
      surroundings.external limit <+: surroundings.external limit') ∧
    (∀ location, (CallSite.caller ⟨location, surroundings⟩).function =
        surroundings.capture.head?.map Frame.function ∧
      CallSite.origin ⟨location, surroundings⟩ =
        (surroundings.capture, (CallSite.caller ⟨location, surroundings⟩).hop)) ∧
    (∀ added added' : List String, (∀ start, start ∈ added ↔ start ∈ added') → ∀ limit,
      (surroundings.withMachinery added).external limit =
        (surroundings.withMachinery added').external limit) ∧
    ∀ added limit, surroundings.named.length ≤ limit →
      (surroundings.withMachinery added).external limit <:+ surroundings.external limit := by
  refine ⟨external_eq surroundings, fun limit limit' hle => ?_, fun location => ⟨?_, ?_⟩, ?_, ?_⟩
  · rw [external_eq, external_eq]
    exact List.take_prefix_take_left hle
  · rw [CallSite.caller, capture, head?_external surroundings frameLimit (by decide)]
  · exact CallSite.origin_eq _
  · intro added added' hadded limit
    have hmachinery : ∀ start, start ∈ (surroundings.withMachinery added).machinery ↔
        start ∈ (surroundings.withMachinery added').machinery := by
      intro start
      rw [mem_machinery_withMachinery, mem_machinery_withMachinery, hadded]
    rw [external_eq, external_eq, outer_congr hmachinery]
    rfl
  · intro added limit hlimit
    have hsuffix : outer (surroundings.withMachinery added).machinery surroundings.named <:+
        outer surroundings.machinery surroundings.named :=
      outer_suffix (fun start hstart => mem_machinery_withMachinery.2 (.inl hstart)) _
    -- nothing is cut off, since no walk keeps more than there is
    have hlength : ∀ machinery, (outer machinery surroundings.named).length ≤ limit := fun machinery =>
      (List.dropWhile_suffix _).length_le.trans hlimit
    rw [external_eq, external_eq]
    change (outer _ surroundings.named).take limit <:+ (outer _ surroundings.named).take limit
    rw [List.take_of_length_le (hlength _), List.take_of_length_le (hlength _)]
    exact hsuffix

/-- A loader that goes through a helper of its own. Around it the stack is machinery at both ends. -/
def loader : Surroundings where
  levels := [
    [⟨some "<core::ops::Call>::call", none, none⟩, ⟨some "app::retry::run", some "retry", some 9⟩],
    [⟨none, none, none⟩, ⟨some "app::load", none, none⟩],
    [⟨some "core::start", none, none⟩]]

def retryFrame : Frame := ⟨"app::retry::run", some "retry", some 9⟩

def loadFrame : Frame := ⟨"app::load", none, none⟩

def startFrame : Frame := ⟨"core::start", none, none⟩

theorem loader_walk_eq :
    1 ≤ 2 ∧ loader.external 1 = [retryFrame] ∧ loader.external 2 = [retryFrame, loadFrame] ∧
    loader.external 1 <+: loader.external 2 ∧
    (CallSite.caller ⟨⟨"load", 3⟩, loader⟩).function = some "app::retry::run" ∧
    loader.named.length ≤ 64 ∧
    (loader.withMachinery ["app::retry::", "app::x"]).external 64 = [loadFrame, startFrame] ∧
    (loader.withMachinery ["app::x", "app::retry::", "app::x"]).external 64 =
      [loadFrame, startFrame] ∧
    (loader.withMachinery ["app::retry::", "app::x"]).external 64 <:+ loader.external 64 ∧
    (loader.withMachinery [""]).external 64 = [] := by
  obtain ⟨heq, hprefix, hcaller, hadded, hsuffix⟩ := walk_eq loader
  have hone : loader.external 1 = [retryFrame] := by rw [heq]; rfl
  have htwo : loader.external 2 = [retryFrame, loadFrame] := by rw [heq]; rfl
  have hload : (loader.withMachinery ["app::retry::", "app::x"]).external 64 =
      [loadFrame, startFrame] := rfl
  have hlength : loader.named.length ≤ 64 := by decide
  refine ⟨by decide, hone, htwo, hprefix 1 2 (by decide), (hcaller _).1.trans rfl, hlength, hload, ?_,
    hsuffix _ _ hlength, rfl⟩
  rw [← hadded ["app::retry::", "app::x"] _ (by simp) 64]
  exact hload

end Surroundings

end Faults
