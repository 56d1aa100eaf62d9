import Mathlib.Data.List.Basic

/-!
# Runs of a transition function

A system whose step is a function of an input and a state. An invariant that
holds at the start and is kept by every step that meets a condition holds in
every state of a run whose steps all meet it.
-/

namespace Laborer.Library

open List

universe u v

variable {σ : Type u} {ι : Type v} (step : ι → σ → σ) {inputs : List ι} {ok : ι → σ → Prop} {s : σ}
  {P : σ → Prop}

def finalState (s : σ) (inputs : List ι) : σ :=
  inputs.foldl (fun s i => step i s) s

/-- All states of a run, the first and the last included. -/
def visited : σ → List ι → List σ
  | s, [] => [s]
  | s, i :: inputs => s :: visited (step i s) inputs

def transitions : σ → List ι → List (σ × ι × σ)
  | _, [] => []
  | s, i :: inputs => (s, i, step i s) :: transitions (step i s) inputs

/-- Every step of the run meets the condition in the state it is taken in. -/
def RunMeets (ok : ι → σ → Prop) : σ → List ι → Prop
  | _, [] => True
  | s, i :: inputs => ok i s ∧ RunMeets ok (step i s) inputs

variable {step}

instance decidableRunMeets {ok : ι → σ → Prop} [∀ i s, Decidable (ok i s)] :
    (s : σ) → (inputs : List ι) → Decidable (RunMeets step ok s inputs)
  | _, [] => isTrue trivial
  | s, i :: inputs =>
    have : Decidable (RunMeets step ok (step i s) inputs) := decidableRunMeets (step i s) inputs
    inferInstanceAs (Decidable (ok i s ∧ RunMeets step ok (step i s) inputs))

theorem finalState_mem_visited (s : σ) (inputs : List ι) :
    finalState step s inputs ∈ visited step s inputs := by
  induction inputs generalizing s with
  | nil => exact mem_singleton_self s
  | cons i inputs ih => exact mem_cons_of_mem _ (ih (step i s))

theorem finalState_append (s : σ) (inputs later : List ι) :
    finalState step s (inputs ++ later) = finalState step (finalState step s inputs) later :=
  foldl_append

@[simp] theorem finalState_concat (s : σ) (inputs : List ι) (i : ι) :
    finalState step s (inputs ++ [i]) = step i (finalState step s inputs) := by
  rw [finalState_append]
  rfl

theorem runMeets_append {later : List ι} : RunMeets step ok s (inputs ++ later) ↔
      RunMeets step ok s inputs ∧ RunMeets step ok (finalState step s inputs) later := by
  induction inputs generalizing s with
  | nil => exact ⟨fun h => ⟨trivial, h⟩, fun h => h.2⟩
  | cons i inputs ih =>
    rw [cons_append, RunMeets, RunMeets, ih, and_assoc]
    rfl

theorem runMeets_true (s : σ) (inputs : List ι) : RunMeets step (fun _ _ => True) s inputs := by
  induction inputs generalizing s with
  | nil => trivial
  | cons i inputs ih => exact ⟨trivial, ih (step i s)⟩

theorem RunMeets.and {ok' : ι → σ → Prop}
    (h : RunMeets step ok s inputs) (h' : RunMeets step ok' s inputs) :
    RunMeets step (fun i s => ok i s ∧ ok' i s) s inputs := by
  induction inputs generalizing s with
  | nil => trivial
  | cons i inputs ih => exact ⟨⟨h.1, h'.1⟩, ih h.2 h'.2⟩

/-- **The invariant rule.** One step keeps the invariant where the condition is
met, so every state of a run that meets it throughout has the invariant. -/
theorem invariant_visited
    (hstep : ∀ i s, P s → ok i s → P (step i s)) (hinit : P s) (hrun : RunMeets step ok s inputs) :
    ∀ t ∈ visited step s inputs, P t := by
  induction inputs generalizing s with
  | nil =>
    intro t ht
    rw [mem_singleton.mp ht]
    exact hinit
  | cons i inputs ih =>
    intro t ht
    rcases mem_cons.mp ht with rfl | ht
    · exact hinit
    · exact ih (hstep i s hinit hrun.1) hrun.2 t ht

theorem invariant_transitions {Q : σ → ι → σ → Prop}
    (hstep : ∀ i s, P s → ok i s → P (step i s)) (hQ : ∀ i s, P s → ok i s → Q s i (step i s))
    (hinit : P s) (hrun : RunMeets step ok s inputs) :
    ∀ t ∈ transitions step s inputs, Q t.1 t.2.1 t.2.2 := by
  induction inputs generalizing s with
  | nil => exact fun t ht => absurd ht not_mem_nil
  | cons i inputs ih =>
    intro t ht
    rcases mem_cons.mp ht with rfl | ht
    · exact hQ i s hinit hrun.1
    · exact ih (hstep i s hinit hrun.1) hrun.2 t ht

/-- **The simulation rule for equal steps.** Two systems whose steps agree where
the condition is met visit the same states in a run that meets it. -/
theorem visited_congr {step' : ι → σ → σ} (hstep : ∀ i s, ok i s → step i s = step' i s)
    (hrun : RunMeets step ok s inputs) : visited step s inputs = visited step' s inputs := by
  induction inputs generalizing s with
  | nil => rfl
  | cons i inputs ih =>
    rw [visited, visited, ← hstep i s hrun.1, ih hrun.2]

theorem invariant_finalState
    (hstep : ∀ i s, P s → ok i s → P (step i s)) (hinit : P s) (hrun : RunMeets step ok s inputs) :
    P (finalState step s inputs) :=
  invariant_visited hstep hinit hrun _ (finalState_mem_visited s inputs)

theorem rel_finalState {R : σ → σ → Prop}
    (hrefl : ∀ s, R s s) (htrans : ∀ s t u, R s t → R t u → R s u)
    (hstep : ∀ i s, P s → ok i s → P (step i s)) (hR : ∀ i s, P s → ok i s → R s (step i s))
    (hinit : P s) (hrun : RunMeets step ok s inputs) :
    ∀ t ∈ visited step s inputs, R t (finalState step s inputs) := by
  induction inputs generalizing s with
  | nil =>
    intro t ht
    rw [mem_singleton.mp ht]
    exact hrefl s
  | cons i inputs ih =>
    intro t ht
    have hrest := ih (hstep i s hinit hrun.1) hrun.2
    rcases mem_cons.mp ht with rfl | ht
    · apply htrans t (step i t) _ (hR i t hinit hrun.1)
      apply hrest
      cases inputs with
      | nil => exact mem_singleton_self _
      | cons => exact mem_cons_self
    · exact hrest t ht

end Laborer.Library
