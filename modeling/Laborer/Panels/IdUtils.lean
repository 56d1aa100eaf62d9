import Mathlib.Data.List.Nodup
import Mathlib.Order.Nat

/-!
# Generated node ids

`id-utils.ts` hands out ids of the form `prefix-counter-random`. The module
counter becomes explicit state; `Math.random` is an arbitrary sequence of
suffixes without a dash (`toString(36)`).

Ids drawn in one session never repeat, as the counter can be read back from the
id. An id persisted by an earlier session may clash, which `Fresh` excludes.
-/

namespace Laborer.Panels

open List

/-- The state behind `generateId`: the module counter and the random suffixes. -/
structure IdGen where
  counter : ℕ
  /-- The suffix `Math.random().toString(36).slice(2, 8)` drawn by the `n`-th call. -/
  random : ℕ → String
  /-- Base-36 digits are digits and letters. -/
  random_noDash : ∀ n, '-' ∉ (random n).toList

namespace IdGen

/-- The id the `n`-th call returns for the given prefix. -/
def idAt (g : IdGen) (pre : String) (n : ℕ) : String :=
  pre ++ "-" ++ Nat.repr n ++ "-" ++ g.random n

/-- `generateId`: bump the counter, then format prefix, counter and suffix. -/
def generateId (g : IdGen) (pre : String) : String × IdGen :=
  (g.idAt pre (g.counter + 1), { g with counter := g.counter + 1 })

/-- A session at its start in which every random suffix is `0`. -/
def sessionStart : IdGen where
  counter := 0
  random _ := "0"
  random_noDash _ := by decide

/-! ## Ids of one session are distinct and never empty -/

theorem append_sep_inj {α : Type} {x : α} {a a' b b' : List α}
    (hb : x ∉ b) (hb' : x ∉ b') (h : a ++ x :: b = a' ++ x :: b') : a = a' ∧ b = b' := by
  rcases append_eq_append_iff.mp h with ⟨m, ha, hm⟩ | ⟨m, ha, hm⟩
  · cases m with
    | nil => simp_all
    | cons y ys =>
      have : x ∈ b := by simp only [cons_append, List.cons.injEq] at hm; simp [hm.2]
      exact absurd this hb
  · cases m with
    | nil => simp_all
    | cons y ys =>
      have : x ∈ b' := by simp only [cons_append, List.cons.injEq] at hm; simp [hm.2]
      exact absurd this hb'

theorem dash_not_mem_repr (n : ℕ) : '-' ∉ (Nat.repr n).toList := by
  rw [Nat.toList_repr]
  intro h
  have hdigit := Nat.isDigit_of_mem_toDigits (by decide) (by decide) h
  exact absurd hdigit (by decide)

theorem toList_repr_inj {m n : ℕ} (h : (Nat.repr m).toList = (Nat.repr n).toList) : m = n := by
  rw [Nat.toList_repr, Nat.toList_repr] at h
  rw [← Nat.ofDigitChars_ten_toDigits (n := m), h, Nat.ofDigitChars_ten_toDigits]

theorem toList_idAt (g : IdGen) (pre : String) (n : ℕ) : (g.idAt pre n).toList =
      (pre.toList ++ '-' :: (Nat.repr n).toList) ++ '-' :: (g.random n).toList := by
  simp [idAt, String.toList_append]

theorem idAt_injective (g : IdGen) {pre pre' : String} {m n : ℕ}
    (h : g.idAt pre m = g.idAt pre' n) : m = n := by
  have h' := congrArg String.toList h
  rw [toList_idAt, toList_idAt] at h'
  obtain ⟨hleft, -⟩ := append_sep_inj (g.random_noDash m) (g.random_noDash n) h'
  obtain ⟨-, hrepr⟩ := append_sep_inj (dash_not_mem_repr m) (dash_not_mem_repr n) hleft
  exact toList_repr_inj hrepr

theorem dash_mem_idAt (g : IdGen) (pre : String) (n : ℕ) : '-' ∈ (g.idAt pre n).toList := by
  rw [toList_idAt]
  exact mem_append_right _ (mem_cons_self ..)

theorem idAt_ne_empty (g : IdGen) (pre : String) (n : ℕ) : g.idAt pre n ≠ "" := by
  intro h
  have hmem := dash_mem_idAt g pre n
  rw [h] at hmem
  exact absurd hmem (by decide)

/-! ## Freshness -/

/-- No id still to be generated occurs in `ids`. -/
def Fresh (g : IdGen) (ids : List String) : Prop :=
  ∀ pre n, g.counter < n → g.idAt pre n ∉ ids

variable {g : IdGen} {ids : List String}

theorem Fresh.mono {ids' : List String} (h : g.Fresh ids) (hsub : ids' ⊆ ids) : g.Fresh ids' :=
  fun pre n hn hmem => h pre n hn (hsub hmem)

theorem fresh_of_noDash (g : IdGen) (h : ∀ s ∈ ids, '-' ∉ s.toList) : g.Fresh ids :=
  fun pre n _ hmem => h _ hmem (dash_mem_idAt g pre n)

/-! ## The ids drawn by a computation -/

/-- Going from `g` to `g'` drew the ids `news`, all different, and possibly
more that were dropped. -/
structure Draws (g g' : IdGen) (news : List String) : Prop where
  random_eq : g'.random = g.random
  counter_le : g.counter ≤ g'.counter
  nodup : news.Nodup
  mem : ∀ s ∈ news, ∃ pre n, g.counter < n ∧ n ≤ g'.counter ∧ s = g.idAt pre n

theorem Draws.refl (g : IdGen) : Draws g g [] :=
  ⟨rfl, le_rfl, nodup_nil, fun _ h => absurd h not_mem_nil⟩

theorem Draws.generateId (g : IdGen) (pre : String) :
    Draws g (g.generateId pre).2 [(g.generateId pre).1] where
  random_eq := rfl
  counter_le := Nat.le_succ _
  nodup := List.nodup_singleton _
  mem := by
    intro s hs
    rw [mem_singleton] at hs
    exact ⟨pre, g.counter + 1, Nat.lt_succ_self _, le_rfl, hs⟩

variable {g' : IdGen}

theorem idAt_congr (h : g'.random = g.random) (pre : String) (n : ℕ) :
    g'.idAt pre n = g.idAt pre n := by
  simp [idAt, h]

variable {xs ys : List String}

/-- Draws compose: the counters of the two halves do not overlap. -/
theorem Draws.trans {g₁ g₂ : IdGen}
    (h₁ : Draws g g₁ xs) (h₂ : Draws g₁ g₂ ys) : Draws g g₂ (xs ++ ys) where
  random_eq := h₂.random_eq.trans h₁.random_eq
  counter_le := h₁.counter_le.trans h₂.counter_le
  nodup := by
    refine nodup_append.mpr ⟨h₁.nodup, h₂.nodup, ?_⟩
    intro x hx y hy hxy
    obtain ⟨pre, m, -, hm, hxm⟩ := h₁.mem x hx
    obtain ⟨pre', n, hn, -, hyn⟩ := h₂.mem y hy
    rw [idAt_congr h₁.random_eq] at hyn
    have : m = n := idAt_injective g (hxm.symm.trans (hxy.trans hyn))
    omega
  mem := by
    intro s hs
    rcases mem_append.mp hs with hs | hs
    · obtain ⟨pre, n, hlt, hle, heq⟩ := h₁.mem s hs
      exact ⟨pre, n, hlt, hle.trans h₂.counter_le, heq⟩
    · obtain ⟨pre, n, hlt, hle, heq⟩ := h₂.mem s hs
      rw [idAt_congr h₁.random_eq] at heq
      exact ⟨pre, n, h₁.counter_le.trans_lt hlt, hle, heq⟩

theorem Draws.sublist (h : Draws g g' ys) (hsub : xs.Sublist ys) : Draws g g' xs :=
  ⟨h.random_eq, h.counter_le, h.nodup.sublist hsub, fun s hs => h.mem s (hsub.subset hs)⟩

theorem Draws.trans_drop {g₁ g₂ : IdGen}
    (h₁ : Draws g g₁ xs) (h₂ : Draws g₁ g₂ ys) : Draws g g₂ ys :=
  (h₁.trans h₂).sublist (sublist_append_right _ _)

theorem Draws.nodup_append {news : List String} (h : Draws g g' news)
    (hfresh : g.Fresh ids) (hids : ids.Nodup) : (news ++ ids).Nodup := by
  refine List.nodup_append.mpr ⟨h.nodup, hids, ?_⟩
  intro x hx y hy hxy
  obtain ⟨pre, n, hlt, -, heq⟩ := h.mem x hx
  exact hfresh pre n hlt (heq ▸ hxy ▸ hy)

theorem Draws.fresh {news : List String} (h : Draws g g' news)
    (hfresh : g.Fresh ids) : g'.Fresh (news ++ ids) := by
  intro pre n hn hmem
  rw [idAt_congr h.random_eq] at hmem
  rcases mem_append.mp hmem with hmem | hmem
  · obtain ⟨pre', m, -, hle, heq⟩ := h.mem _ hmem
    have : n = m := idAt_injective g heq
    omega
  · exact hfresh pre n (h.counter_le.trans_lt hn) hmem

end IdGen

end Laborer.Panels
