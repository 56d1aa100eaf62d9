import Mathlib.Data.List.Infix

/-!
# Occurrences

Where a pattern occurs in a text, the search for it, and how occurrences move when a
range of the text is replaced.
-/

namespace Laborer.Library

open List Option

universe u

variable {α : Type u}

/-! ## Occurrences -/

def Occurs (pattern text : List α) (index : ℕ) : Prop :=
  pattern <+: text.drop index

instance [DecidableEq α] (pattern text : List α) (index : ℕ) :
    Decidable (Occurs pattern text index) :=
  inferInstanceAs (Decidable (_ <+: _))

variable {pattern text a b : List α} {index : ℕ}

theorem occurs_iff_getElem? : Occurs pattern text index ↔
      ∀ i, i < pattern.length → text[index + i]? = pattern[i]? := by
  rw [Occurs, prefix_iff_getElem?]
  constructor
  · intro h i hi
    rw [← getElem?_drop, h i hi, getElem?_eq_getElem hi]
  · intro h i hi
    rw [getElem?_drop, h i hi, getElem?_eq_getElem hi]

theorem Occurs.getElem? (h : Occurs pattern text index) {i : ℕ} (hi : i < pattern.length) :
    text[index + i]? = pattern[i]? :=
  occurs_iff_getElem?.mp h i hi

theorem Occurs.length_le (h : Occurs pattern text index) (hne : pattern ≠ []) :
    index + pattern.length ≤ text.length := by
  have hlength := List.IsPrefix.length_le h
  rw [length_drop] at hlength
  have hpos := length_pos_of_ne_nil hne
  omega

theorem occurs_append (a pattern b : List α) : Occurs pattern (a ++ (pattern ++ b)) a.length := by
  rw [Occurs, drop_left]
  exact prefix_append _ _

theorem Occurs.drop_eq (h : Occurs pattern text index) :
    text.drop index = pattern ++ text.drop (index + pattern.length) := by
  obtain ⟨rest, hrest⟩ := h
  rw [← drop_drop, ← hrest, drop_left]

theorem occurs_append_left (h : index + pattern.length ≤ a.length) :
    Occurs pattern (a ++ b) index ↔ Occurs pattern a index := by
  simp only [occurs_iff_getElem?]
  refine forall₂_congr fun i hi => ?_
  rw [getElem?_append_left (by omega)]

theorem occurs_append_right (i : ℕ) :
    Occurs pattern (a ++ b) (a.length + i) ↔ Occurs pattern b i := by
  rw [Occurs, Occurs, ← drop_drop, drop_left]

theorem Occurs.append_left (h : Occurs pattern a index) (hne : pattern ≠ []) :
    Occurs pattern (a ++ b) index :=
  (occurs_append_left (h.length_le hne)).mpr h

theorem occurs_drop (fromIndex i : ℕ) :
    Occurs pattern (text.drop fromIndex) i ↔ Occurs pattern text (fromIndex + i) := by
  rw [Occurs, Occurs, drop_drop]

theorem Occurs.part {u v w : List α} (h : Occurs (u ++ (v ++ w)) text index) :
    Occurs v text (index + u.length) := by
  rw [occurs_iff_getElem?]
  intro j hj
  have := h.getElem? (i := u.length + j) (by simp only [length_append]; omega)
  rw [← Nat.add_assoc] at this
  rw [this, getElem?_append_right (by omega), Nat.add_sub_cancel_left, getElem?_append_left hj]

/-! ## Search -/

section Search

variable [DecidableEq α]

def findOccurrence (pattern : List α) : List α → Option ℕ
  | [] => if pattern = [] then some 0 else none
  | c :: rest =>
    if pattern.isPrefixOf (c :: rest) then some 0 else (findOccurrence pattern rest).map (· + 1)

/-- `text.indexOf(pattern, fromIndex)`. -/
def indexOf (text pattern : List α) (fromIndex : ℕ) : Option ℕ :=
  (findOccurrence pattern (text.drop fromIndex)).map (fromIndex + ·)

theorem findOccurrence_eq_some {i : ℕ} (h : findOccurrence pattern text = some i) :
    Occurs pattern text i ∧ ∀ j < i, ¬ Occurs pattern text j := by
  induction text generalizing i with
  | nil =>
    rw [findOccurrence] at h
    split at h
    · next hnil =>
      cases h
      exact ⟨by simp [Occurs, hnil], fun j hj => absurd hj (Nat.not_lt_zero j)⟩
    · cases h
  | cons c rest ih =>
    rw [findOccurrence] at h
    split at h
    · next hhere =>
      cases h
      exact ⟨List.isPrefixOf_iff_prefix.mp hhere, fun j hj => absurd hj (Nat.not_lt_zero j)⟩
    · next hhere =>
      obtain ⟨k, hk, rfl⟩ := map_eq_some_iff.mp h
      obtain ⟨hoccurs, hfirst⟩ := ih hk
      refine ⟨hoccurs, fun j hj => ?_⟩
      cases j with
      | zero => exact fun h => hhere (List.isPrefixOf_iff_prefix.mpr h)
      | succ j => exact hfirst j (Nat.succ_lt_succ_iff.mp hj)

theorem findOccurrence_eq_none (h : findOccurrence pattern text = none) (i : ℕ) :
    ¬ Occurs pattern text i := by
  induction text generalizing i with
  | nil =>
    rw [findOccurrence] at h
    split at h
    · cases h
    · next hnil =>
      intro hoccurs
      simp only [Occurs, drop_nil] at hoccurs
      exact hnil (prefix_nil.mp hoccurs)
  | cons c rest ih =>
    rw [findOccurrence] at h
    split at h
    · cases h
    · next hhere =>
      cases i with
      | zero => exact fun h => hhere (List.isPrefixOf_iff_prefix.mpr h)
      | succ i => exact ih (map_eq_none_iff.mp h) i

theorem indexOf_eq_some {fromIndex i : ℕ} (h : indexOf text pattern fromIndex = some i) :
    fromIndex ≤ i ∧ Occurs pattern text i ∧
      ∀ j, fromIndex ≤ j → j < i → ¬ Occurs pattern text j := by
  obtain ⟨k, hk, rfl⟩ := map_eq_some_iff.mp h
  obtain ⟨hoccurs, hfirst⟩ := findOccurrence_eq_some hk
  refine ⟨Nat.le_add_right _ _, (occurs_drop _ _).mp hoccurs, fun j hfrom hj => ?_⟩
  obtain ⟨d, rfl⟩ := Nat.exists_eq_add_of_le hfrom
  exact fun h => hfirst d (by omega) ((occurs_drop _ _).mpr h)

theorem indexOf_eq_none {fromIndex : ℕ} (h : indexOf text pattern fromIndex = none) {j : ℕ}
    (hfrom : fromIndex ≤ j) : ¬ Occurs pattern text j := by
  obtain ⟨d, rfl⟩ := Nat.exists_eq_add_of_le hfrom
  exact fun h' => findOccurrence_eq_none (map_eq_none_iff.mp h) d ((occurs_drop _ _).mpr h')

/-- Every index of a pattern from an index on, overlapping ones too. The fuel bounds
the number of turns. -/
def occurrencesFrom (text pattern : List α) : ℕ → ℕ → List ℕ
  | 0, _ => []
  | fuel + 1, fromIndex =>
    if fromIndex + pattern.length ≤ text.length then
      match indexOf text pattern fromIndex with
      | none => []
      | some index => index :: occurrencesFrom text pattern fuel (index + 1)
    else []

def occurrences (text pattern : List α) : List ℕ :=
  occurrencesFrom text pattern (text.length + 1) 0

theorem mem_occurrencesFrom_iff (hne : pattern ≠ []) {fuel fromIndex i : ℕ}
    (hfuel : text.length < fromIndex + fuel) : i ∈ occurrencesFrom text pattern fuel fromIndex ↔
      fromIndex ≤ i ∧ Occurs pattern text i := by
  induction fuel generalizing fromIndex with
  | zero =>
    simp only [occurrencesFrom, not_mem_nil, false_iff, not_and]
    intro hfrom hoccurs
    have := hoccurs.length_le hne
    omega
  | succ fuel ih =>
    rw [occurrencesFrom]
    split
    · cases hindex : indexOf text pattern fromIndex with
      | none =>
        simp only [not_mem_nil, false_iff, not_and]
        exact fun hfrom => indexOf_eq_none hindex hfrom
      | some index =>
        obtain ⟨hfrom, hoccurs, hfirst⟩ := indexOf_eq_some hindex
        simp only [mem_cons, ih (show text.length < index + 1 + fuel by omega)]
        constructor
        · rintro (rfl | ⟨hlater, hi⟩)
          · exact ⟨hfrom, hoccurs⟩
          · exact ⟨by omega, hi⟩
        · rintro ⟨hle, hi⟩
          by_cases hlt : i < index
          · exact absurd hi (hfirst i hle hlt)
          · by_cases heq : i = index
            · exact .inl heq
            · exact .inr ⟨by omega, hi⟩
    · next hshort =>
      simp only [not_mem_nil, false_iff, not_and]
      intro hfrom hoccurs
      have := hoccurs.length_le hne
      omega

theorem mem_occurrences_iff (hne : pattern ≠ []) {i : ℕ} :
    i ∈ occurrences text pattern ↔ Occurs pattern text i := by
  rw [occurrences, mem_occurrencesFrom_iff hne (by omega)]
  simp

end Search

end Laborer.Library
