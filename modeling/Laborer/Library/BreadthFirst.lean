import Mathlib.Data.List.Nodup

/-!
# Levels below a list of roots

The nodes at each depth, in the order in which a breadth-first walk comes to them. In a forest
no node occurs twice.
-/

namespace Laborer.Library.BreadthFirst

open List

universe u

variable {α : Type u} (children : α → List α)

def level (roots : List α) : ℕ → List α
  | 0 => roots
  | n + 1 => (level roots n).flatMap children

def levels (roots : List α) : ℕ → List α
  | 0 => []
  | n + 1 => roots ++ levels (roots.flatMap children) n

/-- No node has two parents, and none is below a root and a root itself. -/
structure IsForest (roots : List α) : Prop where
  roots_nodup : roots.Nodup
  children_nodup : ∀ a, (children a).Nodup
  parent_unique : ∀ a b c, c ∈ children a → c ∈ children b → a = b
  not_below : ∀ a ∈ roots, ∀ n, a ∉ level children roots (n + 1)

variable {children} {roots : List α} {a : α}

theorem level_flatMap (roots : List α) (n : ℕ) :
    level children (roots.flatMap children) n = level children roots (n + 1) := by
  induction n with
  | zero => rfl
  | succ n ih =>
    show (level children (roots.flatMap children) n).flatMap children = _
    rw [ih]
    rfl

theorem mem_levels_iff (n : ℕ) :
    a ∈ levels children roots n ↔ ∃ m < n, a ∈ level children roots m := by
  induction n generalizing roots with
  | zero => simp [levels]
  | succ n ih =>
    rw [levels, mem_append, ih]
    constructor
    · rintro (h | ⟨m, hm, h⟩)
      · exact ⟨0, Nat.succ_pos n, h⟩
      · exact ⟨m + 1, Nat.succ_lt_succ hm, by rwa [← level_flatMap]⟩
    · rintro ⟨m, hm, h⟩
      cases m with
      | zero => exact .inl h
      | succ m => exact .inr ⟨m, Nat.lt_of_succ_lt_succ hm, by rwa [level_flatMap]⟩

theorem IsForest.flatMap (h : IsForest children roots) :
    IsForest children (roots.flatMap children) where
  roots_nodup := by
    refine nodup_flatMap.mpr ⟨fun a _ => h.children_nodup a, ?_⟩
    refine h.roots_nodup.imp fun {a b} hne c hc hc' => ?_
    exact hne (h.parent_unique a b c hc hc')
  children_nodup := h.children_nodup
  parent_unique := h.parent_unique
  not_below := by
    intro a ha n hbelow
    obtain ⟨parent, hparent, hchild⟩ := mem_flatMap.mp ha
    rw [level_flatMap] at hbelow
    obtain ⟨parent', hbelow', hchild'⟩ := mem_flatMap.mp hbelow
    rw [h.parent_unique parent' parent a hchild' hchild] at hbelow'
    exact h.not_below parent hparent n hbelow'

theorem IsForest.nodup_levels (h : IsForest children roots) (n : ℕ) :
    (levels children roots n).Nodup := by
  induction n generalizing roots with
  | zero => exact nodup_nil
  | succ n ih =>
    refine h.roots_nodup.append (ih h.flatMap) fun a ha hbelow => ?_
    obtain ⟨m, -, hlevel⟩ := (mem_levels_iff n).mp hbelow
    rw [level_flatMap] at hlevel
    exact h.not_below a ha m hlevel

end Laborer.Library.BreadthFirst
