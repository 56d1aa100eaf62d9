import Mathlib.Data.Multiset.DershowitzManna

/-!
# Descent in the multiset order

Steps that take entries out of a multiset, or replace entries by smaller ones,
descend in the Dershowitz–Manna order. An iteration that descends until it is
done gets done.
-/

namespace Laborer.Library

open Multiset List Function

section Order

variable {α : Type} [Preorder α] {M N K : Multiset α}

theorem isDershowitzMannaLT_of_lt (h : M < N) : M.IsDershowitzMannaLT N := by
  classical
  have hsum : M + (N - M) = N := add_tsub_cancel_of_le h.le
  refine ⟨M, 0, N - M, fun hempty => ?_, (add_zero M).symm, hsum.symm, fun y hy => ?_⟩
  · rw [hempty, Multiset.empty_eq_zero, add_zero] at hsum
    exact absurd hsum h.ne
  · exact absurd hy (Multiset.notMem_zero y)

theorem isDershowitzMannaLT_of_le_of (hle : K ≤ M) (h : M.IsDershowitzMannaLT N) :
    K.IsDershowitzMannaLT N := by
  rcases hle.eq_or_lt with rfl | hlt
  · exact h
  · exact (isDershowitzMannaLT_of_lt hlt).trans h

theorem isDershowitzMannaLT_add_left (h : M.IsDershowitzMannaLT N) (K : Multiset α) :
    (K + M).IsDershowitzMannaLT (K + N) := by
  obtain ⟨X, Y, Z, hZ, rfl, rfl, hYZ⟩ := h
  exact ⟨K + X, Y, Z, hZ, (add_assoc K X Y).symm, (add_assoc K X Z).symm, hYZ⟩

theorem not_isDershowitzMannaLT_self [WellFoundedLT α] (M : Multiset α) :
    ¬ M.IsDershowitzMannaLT M :=
  fun h => wellFounded_isDershowitzMannaLT.asymmetric M M h h

/-- The entries that change all become the same one, which is smaller than one
of them was. -/
theorem isDershowitzMannaLT_map {β : Type} {xs : List β} {f f' : β → α} {a : α} {x : β}
    (hx : x ∈ xs) (hnew : f' x = a) (hlt : a < f x) (h : ∀ y ∈ xs, f' y = f y ∨ f' y = a) :
    (xs.map f' : Multiset α).IsDershowitzMannaLT (xs.map f : Multiset α) := by
  classical
  have hparts : ∀ k : β → α, (xs.map k : Multiset α) =
      ((xs.filter fun y => f' y ≠ a).map k : Multiset α) +
        ((xs.filter fun y => f' y = a).map k : Multiset α) := by
    intro k
    rw [Multiset.coe_add, Multiset.coe_eq_coe, ← map_append]
    refine List.Perm.map k ?_
    have hperm := filter_append_perm (fun y => decide (f' y = a)) xs
    simp only [← decide_not] at hperm
    exact (perm_append_comm.trans hperm).symm
  have hsame : (xs.filter fun y => f' y ≠ a).map f' = (xs.filter fun y => f' y ≠ a).map f := by
    refine map_congr_left fun y hy => ?_
    obtain ⟨hmem, hne⟩ := mem_filter.mp hy
    exact (h y hmem).resolve_right (of_decide_eq_true hne)
  have hold : f x ∈ (xs.filter fun y => f' y = a).map f :=
    mem_map_of_mem (mem_filter.mpr ⟨hx, decide_eq_true hnew⟩)
  refine ⟨_, ((xs.filter fun y => f' y = a).map f' : List α),
    ((xs.filter fun y => f' y = a).map f : List α), ?_, ?_, hparts f, ?_⟩
  · intro hempty
    rw [Multiset.empty_eq_zero, Multiset.coe_eq_zero] at hempty
    rw [hempty] at hold
    cases hold
  · rw [hparts f', hsame]
  · intro y hy
    obtain ⟨z, hz, rfl⟩ := mem_map.mp (Multiset.mem_coe.mp hy)
    refine ⟨f x, Multiset.mem_coe.mpr hold, ?_⟩
    rw [of_decide_eq_true (mem_filter.mp hz).2]
    exact hlt

end Order

/-! ## Iterating until done -/

section Iterate

variable {σ : Type} {step : σ → σ} {r : σ → σ → Prop}

/-- **An iteration that descends until it is done gets done.** -/
theorem exists_done_of_descends (step : σ → σ) (done : σ → Prop) (hwf : WellFounded r) (s : σ)
    (h : ∀ n, done (step^[n] s) ∨ r (step (step^[n] s)) (step^[n] s)) : ∃ n, done (step^[n] s) := by
  induction s using hwf.induction with
  | _ s ih =>
    rcases h 0 with hdone | hdescends
    · exact ⟨0, hdone⟩
    · have hnext : ∀ n, done (step^[n] (step s)) ∨
          r (step (step^[n] (step s))) (step^[n] (step s)) := by
        intro n
        rw [← iterate_succ_apply]
        exact h (n + 1)
      obtain ⟨n, hn⟩ := ih (step s) hdescends hnext
      exact ⟨n + 1, by rwa [iterate_succ_apply]⟩

theorem iterate_of_fixed {s : σ} (h : step s = s) (n : ℕ) : step^[n] s = s := by
  induction n with
  | zero => rfl
  | succ n ih => rw [iterate_succ_apply, h, ih]

end Iterate

end Laborer.Library
