import Mathlib.Data.List.Flatten
import Mathlib.Data.List.Nodup
import Mathlib.Data.List.Perm.Basic

/-!
# Leaf-labelled trees

Finite trees whose payload sits at the leaves and whose inner nodes carry a
label of another type.

The children of an inner node are a plain list, so every recursion comes with a
companion on lists of trees; the lemma ending in `_eq` after each definition
says that the companion is the library's own `flatMap`, `map` or `∀ c ∈ cs`.
-/

namespace Laborer.Library

open List

universe u v w

/-- A tree with leaves labelled in `α` and inner nodes labelled in `β`. -/
inductive LeafTree (β : Type u) (α : Type v) where
  | leaf (a : α)
  | split (b : β) (children : List (LeafTree β α))

namespace LeafTree

variable {β : Type u} {α : Type v} {γ : Type w}

@[elab_as_elim, induction_eliminator]
theorem childInduction {motive : LeafTree β α → Prop}
    (leaf : ∀ a, motive (.leaf a))
    (split : ∀ b cs, (∀ c ∈ cs, motive c) → motive (.split b cs)) :
    ∀ t, motive t
  | .leaf a => leaf a
  | .split b cs => split b cs (list cs)
where
  /-- The induction hypothesis collected along a list of children. -/
  list : ∀ cs : List (LeafTree β α), ∀ c ∈ cs, motive c
    | [], _, h => absurd h List.not_mem_nil
    | c :: cs, d, h => by
      rcases List.mem_cons.mp h with h | h
      · rw [h]; exact childInduction leaf split c
      · exact list cs d h

/-! ## Decidable equality -/

section DecEq

variable [DecidableEq β] [DecidableEq α]

mutual
def decEq : ∀ s t : LeafTree β α, Decidable (s = t)
  | .leaf a, .leaf b => decidable_of_iff (a = b) (by simp)
  | .leaf _, .split _ _ => isFalse (by simp)
  | .split _ _, .leaf _ => isFalse (by simp)
  | .split b cs, .split b' cs' =>
    match decEqList cs cs' with
    | isTrue h => decidable_of_iff (b = b') (by simp [h])
    | isFalse h => isFalse (by simp [h])
def decEqList : ∀ cs ds : List (LeafTree β α), Decidable (cs = ds)
  | [], [] => isTrue rfl
  | [], _ :: _ => isFalse (by simp)
  | _ :: _, [] => isFalse (by simp)
  | c :: cs, d :: ds =>
    match decEq c d, decEqList cs ds with
    | isTrue h, isTrue h' => isTrue (by rw [h, h'])
    | isFalse h, _ => isFalse (by simp [h])
    | _, isFalse h => isFalse (by simp [h])
end

instance : DecidableEq (LeafTree β α) := decEq

end DecEq

/-! ## Leaves and split labels -/

def leaves : LeafTree β α → List α
  | .leaf a => [a]
  | .split _ cs => list cs
where
  /-- `leaves` along a list of children. -/
  list : List (LeafTree β α) → List α
    | [] => []
    | c :: cs => c.leaves ++ list cs

theorem leaves_list_eq (cs : List (LeafTree β α)) : leaves.list cs = cs.flatMap leaves := by
  induction cs with
  | nil => rfl
  | cons c cs ih => rw [leaves.list, ih, flatMap_cons]

@[simp] theorem leaves_leaf (a : α) : (leaf a : LeafTree β α).leaves = [a] := rfl

@[simp] theorem leaves_split (b : β) (cs : List (LeafTree β α)) :
    (split b cs).leaves = cs.flatMap leaves :=
  leaves_list_eq cs

/-- The labels of the inner nodes, each with its number of children, in
depth-first order. -/
def splits : LeafTree β α → List (β × ℕ)
  | .leaf _ => []
  | .split b cs => (b, cs.length) :: list cs
where
  /-- `splits` along a list of children. -/
  list : List (LeafTree β α) → List (β × ℕ)
    | [] => []
    | c :: cs => c.splits ++ list cs

theorem splits_list_eq (cs : List (LeafTree β α)) : splits.list cs = cs.flatMap splits := by
  induction cs with
  | nil => rfl
  | cons c cs ih => rw [splits.list, ih, flatMap_cons]

@[simp] theorem splits_leaf (a : α) : (leaf a : LeafTree β α).splits = [] := rfl

@[simp] theorem splits_split (b : β) (cs : List (LeafTree β α)) :
    (split b cs).splits = (b, cs.length) :: cs.flatMap splits := by
  rw [splits, splits_list_eq]

/-! ## A property of every split -/

def AllSplits (P : β → ℕ → Prop) (t : LeafTree β α) : Prop :=
  ∀ e ∈ t.splits, P e.1 e.2

@[simp] theorem allSplits_leaf (P : β → ℕ → Prop) (a : α) :
    (leaf a : LeafTree β α).AllSplits P := by
  simp [AllSplits]

@[simp] theorem allSplits_split (P : β → ℕ → Prop) (b : β) (cs : List (LeafTree β α)) :
    (split b cs).AllSplits P ↔ P b cs.length ∧ ∀ c ∈ cs, c.AllSplits P := by
  simp only [AllSplits, splits_split, forall_mem_cons, mem_flatMap]
  constructor
  · rintro ⟨hb, hcs⟩
    exact ⟨hb, fun c hc e he => hcs e ⟨c, hc, he⟩⟩
  · rintro ⟨hb, hcs⟩
    exact ⟨hb, fun e ⟨c, hc, he⟩ => hcs c hc e he⟩

theorem leaves_ne_nil {P : β → ℕ → Prop} (hP : ∀ b n, P b n → 0 < n)
    {t : LeafTree β α} (h : t.AllSplits P) : t.leaves ≠ [] := by
  induction t with
  | leaf a => simp
  | split b cs ih =>
    obtain ⟨hb, hcs⟩ := (allSplits_split P b cs).mp h
    obtain ⟨c, hc⟩ := exists_mem_of_length_pos (hP b _ hb)
    simp only [leaves_split, ne_eq, flatMap_eq_nil_iff, not_forall]
    exact ⟨c, hc, ih c hc (hcs c hc)⟩

/-! ## Rewriting leaves -/

def mapLeaves (f : α → α) : LeafTree β α → LeafTree β α
  | .leaf a => .leaf (f a)
  | .split b cs => .split b (list cs)
where
  /-- `mapLeaves` along a list of children. -/
  list : List (LeafTree β α) → List (LeafTree β α)
    | [] => []
    | c :: cs => c.mapLeaves f :: list cs

theorem mapLeaves_list_eq (f : α → α) (cs : List (LeafTree β α)) :
    mapLeaves.list f cs = cs.map (mapLeaves f) := by
  induction cs with
  | nil => rfl
  | cons c cs ih => rw [mapLeaves.list, ih, map_cons]

@[simp] theorem mapLeaves_leaf (f : α → α) (a : α) :
    (leaf a : LeafTree β α).mapLeaves f = leaf (f a) := rfl

@[simp] theorem mapLeaves_split (f : α → α) (b : β) (cs : List (LeafTree β α)) :
    (split b cs).mapLeaves f = split b (cs.map (mapLeaves f)) := by
  rw [mapLeaves, mapLeaves_list_eq]

@[simp] theorem leaves_mapLeaves (f : α → α) (t : LeafTree β α) :
    (t.mapLeaves f).leaves = t.leaves.map f := by
  induction t with
  | leaf a => rfl
  | split b cs ih =>
    simp only [mapLeaves_split, leaves_split, flatMap_map, map_flatMap]
    exact flatMap_congr ih

theorem mapLeaves_congr {f g : α → α} {t : LeafTree β α} (h : ∀ a ∈ t.leaves, f a = g a) :
    t.mapLeaves f = t.mapLeaves g := by
  induction t with
  | leaf a => simp [h a (by simp)]
  | split b cs ih =>
    rw [mapLeaves_split, mapLeaves_split]
    congr 1
    refine map_congr_left fun c hc => ih c hc fun a ha => h a ?_
    exact (leaves_split b cs) ▸ mem_flatMap.mpr ⟨c, hc, ha⟩

@[simp] theorem mapLeaves_mapLeaves (f g : α → α) (t : LeafTree β α) :
    (t.mapLeaves f).mapLeaves g = t.mapLeaves (g ∘ f) := by
  induction t with
  | leaf a => rfl
  | split b cs ih =>
    rw [mapLeaves_split, mapLeaves_split, mapLeaves_split, map_map]
    exact congrArg _ (map_congr_left ih)

@[simp] theorem mapLeaves_id (t : LeafTree β α) : t.mapLeaves id = t := by
  induction t with
  | leaf a => rfl
  | split b cs ih =>
    rw [mapLeaves_split, map_congr_left ih, map_id']

def mapLeavesState {σ : Type w} (f : α → σ → α × σ) : LeafTree β α → σ → LeafTree β α × σ
  | .leaf a, s => (.leaf (f a s).1, (f a s).2)
  | .split b cs, s => (.split b (list cs s).1, (list cs s).2)
where
  /-- `mapLeavesState` along a list of children. -/
  list : List (LeafTree β α) → σ → List (LeafTree β α) × σ
    | [], s => ([], s)
    | c :: cs, s =>
      let head := c.mapLeavesState f s
      let tail := list cs head.2
      (head.1 :: tail.1, tail.2)

section MapLeavesState

variable {σ : Type w} {f : α → σ → α × σ} {S : σ → Prop}

theorem mapLeavesState_list_leaves {cs : List (LeafTree β α)}
    (ih : ∀ c ∈ cs, ∀ s, S s → S (c.mapLeavesState f s).2 ∧
      ∀ a' ∈ (c.mapLeavesState f s).1.leaves, ∃ a ∈ c.leaves, ∃ s', S s' ∧ a' = (f a s').1)
    {s : σ} (hs : S s) : S (mapLeavesState.list f cs s).2 ∧
      ∀ a' ∈ (mapLeavesState.list f cs s).1.flatMap leaves,
        ∃ a ∈ cs.flatMap leaves, ∃ s', S s' ∧ a' = (f a s').1 := by
  induction cs generalizing s with
  | nil => exact ⟨hs, fun _ h => nomatch h⟩
  | cons c cs ihcs =>
    rw [forall_mem_cons] at ih
    obtain ⟨hhead, hleaves⟩ := ih.1 s hs
    obtain ⟨htail, hrest⟩ := ihcs ih.2 hhead
    refine ⟨htail, fun a' ha' => ?_⟩
    simp only [mapLeavesState.list, flatMap_cons] at ha' ⊢
    rcases mem_append.mp ha' with ha' | ha'
    · obtain ⟨a, ha, hsome⟩ := hleaves a' ha'
      exact ⟨a, mem_append_left _ ha, hsome⟩
    · obtain ⟨a, ha, hsome⟩ := hrest a' ha'
      exact ⟨a, mem_append_right _ ha, hsome⟩

/-- Every leaf afterwards is the image of a leaf before, at some state that has
what every rewriting of a leaf keeps. -/
theorem leaves_mapLeavesState (hS : ∀ a s, S s → S (f a s).2) (t : LeafTree β α) {s : σ}
    (hs : S s) : S (t.mapLeavesState f s).2 ∧
      ∀ a' ∈ (t.mapLeavesState f s).1.leaves, ∃ a ∈ t.leaves, ∃ s', S s' ∧ a' = (f a s').1 := by
  induction t using childInduction generalizing s with
  | leaf a =>
    refine ⟨hS a s hs, fun a' ha' => ?_⟩
    rw [mapLeavesState, leaves_leaf, mem_singleton] at ha'
    exact ⟨a, mem_singleton_self a, s, hs, ha'⟩
  | split b cs ih =>
    rw [mapLeavesState, leaves_split, leaves_split]
    exact mapLeavesState_list_leaves (fun c hc s hs => ih c hc hs) hs

end MapLeavesState

end LeafTree

end Laborer.Library
