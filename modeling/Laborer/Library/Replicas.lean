import Mathlib.Data.List.Basic

/-!
# Replicas of a log

A value is built by a log of entries. A replica is told of the entries one after the
other, and now and then of the value that some prefix of the log builds; it keeps the
number of entries that its own value accounts for and passes over what is older. Entries
that do not concern a replica need not be counted.
-/

namespace Laborer.Library

open List

universe u v

variable {ε : Type u} {σ : Type v} (apply : ε → σ → σ) (start : σ)

def valueAt (log : List ε) (n : ℕ) : σ :=
  (log.take n).foldl (fun value entry => apply entry value) start

section ValueAt

variable {apply start} {log added : List ε} {entry : ε} {m n : ℕ}

theorem valueAt_succ (h : log[n]? = some entry) :
    valueAt apply start log (n + 1) = apply entry (valueAt apply start log n) := by
  rw [valueAt, take_add_one, h, foldl_append]
  rfl

theorem valueAt_append (h : n ≤ log.length) :
    valueAt apply start (log ++ added) n = valueAt apply start log n := by
  rw [valueAt, take_append_of_le_length h, valueAt]

theorem valueAt_length (log : List ε) :
    valueAt apply start log log.length =
      log.foldl (fun value entry => apply entry value) start := by
  rw [valueAt, take_length]

theorem valueAt_length_append (log added : List ε) :
    valueAt apply start (log ++ added) (log ++ added).length =
      added.foldl (fun value entry => apply entry value) (valueAt apply start log log.length) := by
  rw [valueAt_length, valueAt_length, foldl_append]

theorem valueAt_eq_of_silent (hle : m ≤ n)
    (hsilent : ∀ i entry, m ≤ i → i < n → log[i]? = some entry →
      ∀ value, apply entry value = value) :
    valueAt apply start log m = valueAt apply start log n := by
  induction hle with
  | refl => rfl
  | @step n hle ih =>
    rw [ih fun i entry hm hn => hsilent i entry hm (Nat.lt_succ_of_lt hn)]
    cases hentry : log[n]? with
    | none =>
      have hlength : log.length ≤ n := List.getElem?_eq_none_iff.mp hentry
      rw [valueAt, valueAt, take_of_length_le hlength,
        take_of_length_le (Nat.le_succ_of_le hlength)]
    | some entry =>
      rw [valueAt_succ hentry, hsilent n entry hle (Nat.lt_succ_self n) hentry]

end ValueAt

/-- A value with the number of entries it accounts for, at a receiver that has been told
of the first `delivered` entries. -/
structure Replica (concerns : ε → Prop) (log : List ε) (delivered revision : ℕ) (value : σ) :
    Prop where
  delivered_le : delivered ≤ log.length
  revision_le : revision ≤ log.length
  value_eq : value = valueAt apply start log revision
  /-- What it has been told of and concerns it is accounted for. -/
  told : ∀ i entry, i < delivered → log[i]? = some entry → concerns entry → i < revision

namespace Replica

variable {apply start} {concerns : ε → Prop} {log added : List ε} {delivered revision n : ℕ}
  {value : σ} {entry : ε}

theorem initial (log : List ε) : Replica apply start concerns log 0 0 start :=
  ⟨Nat.zero_le _, Nat.zero_le _, rfl, fun _ _ h => absurd h (Nat.not_lt_zero _)⟩

section

variable (h : Replica apply start concerns log delivered revision value)
include h

theorem append (added : List ε) :
    Replica apply start concerns (log ++ added) delivered revision value where
  delivered_le := by
    rw [length_append]
    exact Nat.le_add_right_of_le h.delivered_le
  revision_le := by
    rw [length_append]
    exact Nat.le_add_right_of_le h.revision_le
  value_eq := h.value_eq.trans (valueAt_append h.revision_le).symm
  told i entry hi hentry := by
    rw [getElem?_append_left (Nat.lt_of_lt_of_le hi h.delivered_le)] at hentry
    exact h.told i entry hi hentry

theorem pass
    (hentry : log[delivered]? = some entry) (hpass : concerns entry → delivered < revision) :
    Replica apply start concerns log (delivered + 1) revision value where
  delivered_le := (List.getElem?_eq_some_iff.mp hentry).1
  revision_le := h.revision_le
  value_eq := h.value_eq
  told i entry' hi hentry' hconcerns := by
    rcases Nat.lt_succ_iff_lt_or_eq.mp hi with hi | rfl
    · exact h.told i entry' hi hentry' hconcerns
    · rw [hentry, Option.some.injEq] at hentry'
      exact hpass (hentry' ▸ hconcerns)

/-- The next entry that the value does not account for yet. -/
theorem receive (hsilent : ∀ entry, ¬ concerns entry → ∀ value, apply entry value = value)
    (hentry : log[delivered]? = some entry) (hnew : revision ≤ delivered) :
    Replica apply start concerns log (delivered + 1) (delivered + 1) (apply entry value) where
  delivered_le := (List.getElem?_eq_some_iff.mp hentry).1
  revision_le := (List.getElem?_eq_some_iff.mp hentry).1
  value_eq := by
    rw [valueAt_succ hentry, h.value_eq]
    congr 1
    -- what lies between the value and the entry has been told and was of no concern
    apply valueAt_eq_of_silent hnew
    intro i entry' hi hlt hentry'
    apply hsilent
    intro hconcerns
    exact absurd (h.told i entry' hlt hentry' hconcerns) (Nat.not_lt.mpr hi)
  told _ _ hi _ _ := hi

theorem renew (hnew : revision ≤ n) (hn : n ≤ log.length) :
    Replica apply start concerns log delivered n (valueAt apply start log n) where
  delivered_le := h.delivered_le
  revision_le := hn
  value_eq := rfl
  told i entry hi hentry hconcerns :=
    Nat.lt_of_lt_of_le (h.told i entry hi hentry hconcerns) hnew

theorem caughtUp (hsilent : ∀ entry, ¬ concerns entry → ∀ value, apply entry value = value)
    (hall : ∀ i entry, log[i]? = some entry → concerns entry → i < revision) :
    value = valueAt apply start log log.length := by
  rw [h.value_eq]
  apply valueAt_eq_of_silent h.revision_le
  intro i entry hi _ hentry
  apply hsilent
  intro hconcerns
  exact absurd (hall i entry hentry hconcerns) (Nat.not_lt.mpr hi)

end

end Replica

end Laborer.Library
