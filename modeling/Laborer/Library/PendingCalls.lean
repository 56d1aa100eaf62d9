import Mathlib.Data.List.Basic
import Mathlib.Data.List.Count

/-!
# Pending calls

The calls that are going on, each at one of its yields, as a list in which one call may occur
more than once. A call that takes a step is replaced by what comes after it.
-/

namespace Laborer.Library

open List

variable {γ : Type} {p : γ → Bool} {call : γ} {calls calls' next : List γ}

def Pending (calls : List γ) (p : γ → Bool) : Prop := ∃ call ∈ calls, p call = true

instance (calls : List γ) (p : γ → Bool) : Decidable (Pending calls p) :=
  inferInstanceAs (Decidable (∃ call ∈ calls, p call = true))

namespace Pending

@[simp] theorem not_nil : ¬Pending [] p := by
  rintro ⟨call, hmem, -⟩
  cases hmem

@[simp] theorem cons_iff : Pending (call :: calls) p ↔ p call = true ∨ Pending calls p :=
  exists_mem_cons_iff ..

@[simp] theorem append_iff : Pending (next ++ calls) p ↔ Pending next p ∨ Pending calls p := by
  induction next with
  | nil => simp
  | cons call next ih => rw [cons_append, cons_iff, cons_iff, ih, or_assoc]

theorem singleton_iff : Pending [call] p ↔ p call = true := by simp

theorem of_forall (h : ∀ call ∈ calls, p call = false) : ¬Pending calls p := by
  rintro ⟨call, hmem, hp⟩
  rw [h call hmem] at hp
  cases hp

theorem countP_eq_zero (h : ∀ call ∈ calls, p call = false) : calls.countP p = 0 := by
  refine List.countP_eq_zero.mpr fun call hmem => ?_
  rw [h call hmem]
  exact Bool.false_ne_true

theorem iff_countP_pos : Pending calls p ↔ 0 < calls.countP p := List.countP_pos_iff.symm

theorem cons_iff_of_not (h : p call = false) : Pending (call :: calls) p ↔ Pending calls p := by
  rw [cons_iff, h]
  exact or_iff_right Bool.false_ne_true

variable [DecidableEq γ]

theorem of_erase (h : Pending (calls.erase call) p) : Pending calls p := by
  obtain ⟨other, hmem, hp⟩ := h
  exact ⟨other, mem_of_mem_erase hmem, hp⟩

theorem erase_iff (h : p call = false) : Pending (calls.erase call) p ↔ Pending calls p := by
  refine ⟨of_erase, ?_⟩
  rintro ⟨other, hmem, hp⟩
  refine ⟨other, (mem_erase_of_ne ?_).mpr hmem, hp⟩
  rintro rfl
  rw [h] at hp
  cases hp

theorem not_of_mem_erase (hcall : call ∈ calls) (hp : p call = true) (honce : calls.countP p ≤ 1)
    {other : γ} (hmem : other ∈ calls.erase call) : p other = false := by
  by_contra hother
  have hpos := countP_pos_iff.mpr ⟨other, hmem, (Bool.not_eq_false _).mp hother⟩
  rw [countP_erase, if_pos ⟨hcall, hp⟩] at hpos
  omega

end Pending

variable [DecidableEq γ]

/-- One call has taken a step: `next` comes after it. -/
structure Advanced (calls : List γ) (call : γ) (next calls' : List γ) : Prop where
  mem : call ∈ calls
  eq : calls' = next ++ calls.erase call

namespace Advanced

variable (h : Advanced calls call next calls')

include h

theorem mem_cases {other : γ} (hother : other ∈ calls') :
    other ∈ next ∨ other ∈ calls.erase call := by
  rw [h.eq] at hother
  exact mem_append.mp hother

theorem pending_iff (hp : Pending next p ↔ p call = true) : Pending calls' p ↔ Pending calls p := by
  rw [h.eq, Pending.append_iff, hp]
  constructor
  · rintro (hcall | hrest)
    · exact ⟨call, h.mem, hcall⟩
    · exact hrest.of_erase
  · rintro ⟨other, hmem, hother⟩
    by_cases heq : other = call
    · exact .inl (heq ▸ hother)
    · exact .inr ⟨other, (mem_erase_of_ne heq).mpr hmem, hother⟩

theorem pending_iff_of_not (hcall : p call = false) (hnext : ∀ call ∈ next, p call = false) :
    Pending calls' p ↔ Pending calls p := by
  refine h.pending_iff (iff_of_false (Pending.of_forall hnext) ?_)
  rw [hcall]
  exact Bool.false_ne_true

theorem pending_of (hp : p call = true → Pending next p) (hpending : Pending calls p) :
    Pending calls' p := by
  obtain ⟨other, hmem, hother⟩ := hpending
  rw [h.eq, Pending.append_iff]
  by_cases heq : other = call
  · exact .inl (hp (heq ▸ hother))
  · exact .inr ⟨other, (mem_erase_of_ne heq).mpr hmem, hother⟩

theorem countP_eq (hp : next.countP p = if p call = true then 1 else 0) :
    calls'.countP p = calls.countP p := by
  rw [h.eq, countP_append, countP_erase, hp]
  by_cases hcall : p call = true
  · have hpos := countP_pos_iff.mpr ⟨call, h.mem, hcall⟩
    rw [if_pos hcall, if_pos ⟨h.mem, hcall⟩]
    omega
  · rw [if_neg hcall, if_neg fun hboth => hcall hboth.2]
    omega

theorem countP_eq_of_not (hcall : p call = false) (hnext : ∀ call ∈ next, p call = false) :
    calls'.countP p = calls.countP p := by
  refine h.countP_eq ?_
  rw [Pending.countP_eq_zero hnext, hcall]
  rfl

end Advanced

end Laborer.Library
