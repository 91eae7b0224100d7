import Mathlib.Data.List.Basic

/-!
# Histories

A machine takes one input after the other and answers each of them. `mapAccum` is the state in the end
and the list of all answers; an answer depends on the inputs up to its own only
(`getElem?_mapAccum`).
-/

namespace Faults

/-- A step for each input, one after the other: the last state, and what the steps answer. -/
def mapAccum {σ α β : Type} (step : σ → α → σ × β) (state : σ) : List α → σ × List β
  | [] => (state, [])
  | input :: rest =>
    let next := step state input
    let later := mapAccum step next.1 rest
    (later.1, next.2 :: later.2)

section mapAccum
variable {σ α β : Type} (step : σ → α → σ × β)

theorem mapAccum_append (state : σ) (front back : List α) :
    mapAccum step state (front ++ back) =
      ((mapAccum step (mapAccum step state front).1 back).1,
        (mapAccum step state front).2 ++ (mapAccum step (mapAccum step state front).1 back).2) := by
  induction front generalizing state with
  | nil => rfl
  | cons input front ih => simp only [List.cons_append, mapAccum, ih]

/-- Steps that leave the state as it is answer as if each were the only one. -/
theorem mapAccum_of_stays {state : σ} {inputs : List α}
    (h : ∀ input ∈ inputs, (step state input).1 = state) :
    mapAccum step state inputs = (state, inputs.map fun input => (step state input).2) := by
  induction inputs with
  | nil => rfl
  | cons input inputs ih =>
    obtain ⟨hinput, hinputs⟩ := List.forall_mem_cons.1 h
    simp only [mapAccum, hinput, ih hinputs, List.map_cons]

theorem getElem?_mapAccum (state : σ) (inputs : List α) (k : Nat) :
    (mapAccum step state inputs).2[k]? =
      inputs[k]?.map fun input => (step (mapAccum step state (inputs.take k)).1 input).2 := by
  induction inputs generalizing state k with
  | nil => rfl
  | cons input inputs ih =>
    cases k with
    | zero => rfl
    | succ k => exact ih (step state input).1 k

theorem take_mapAccum (state : σ) (inputs : List α) (k : Nat) :
    (mapAccum step state inputs).2.take k = (mapAccum step state (inputs.take k)).2 := by
  induction inputs generalizing state k with
  | nil => rw [List.take_nil, mapAccum, List.take_nil]
  | cons input inputs ih =>
    cases k with
    | zero => rfl
    | succ k => exact congrArg _ (ih (step state input).1 k)

end mapAccum

end Faults
