import Mathlib.Data.List.Nodup

/-!
# Keyed tables

Tables of rows in the order of their insertion, no two with the same key.
-/

namespace Laborer.Library

open List

universe u v

variable {κ : Type u} {ρ : Type v} {key : ρ → κ}

/-- Rows with distinct keys. -/
structure Table (ρ : Type v) (key : ρ → κ) where
  rows : List ρ
  keysNodup : (rows.map key).Nodup

namespace Table

def empty : Table ρ key where
  rows := []
  keysNodup := List.nodup_nil

def mapRows (t : Table ρ key) (f : ρ → ρ) (hf : ∀ row, key (f row) = key row) : Table ρ key where
  rows := t.rows.map f
  keysNodup := by
    rw [List.map_map]
    exact (List.map_congr_left fun row _ => hf row) ▸ t.keysNodup

def filter (t : Table ρ key) (p : ρ → Bool) : Table ρ key where
  rows := t.rows.filter p
  keysNodup := t.keysNodup.sublist (List.filter_sublist.map key)

variable {t t' : Table ρ key}

theorem ext_rows (h : t.rows = t'.rows) : t = t' := by
  cases t
  cases t'
  cases h
  rfl

variable [DecidableEq κ]

def find (t : Table ρ key) (k : κ) : Option ρ :=
  t.rows.find? fun row => key row = k

def insert (t : Table ρ key) (row : ρ) : Option (Table ρ key) :=
  if h : key row ∈ t.rows.map key then none
  else some
    { rows := t.rows ++ [row]
      keysNodup := by
        rw [List.map_append]
        exact List.nodup_append.mpr ⟨t.keysNodup, List.nodup_singleton _, fun k hk k' hk' heq =>
          h (by rwa [← List.mem_singleton.mp hk', ← heq])⟩ }

def modify (t : Table ρ key) (k : κ) (f : ρ → ρ) (hf : ∀ row, key (f row) = key row) :
    Table ρ key :=
  t.mapRows (fun row => if key row = k then f row else row) fun row => by
    split
    · exact hf row
    · rfl

def erase (t : Table ρ key) (k : κ) : Table ρ key :=
  t.filter fun row => key row ≠ k

/-- `UPDATE … WHERE`: change the row under a key if it meets a test, with the number
of changed rows. -/
def updateWhere (t : Table ρ key) (k : κ) (p : ρ → Bool) (f : ρ → ρ)
    (hf : ∀ row, key (f row) = key row) : ℕ × Table ρ key :=
  if (t.find k).any p then (1, t.modify k f hf) else (0, t)

/-- `DELETE … WHERE`: drop the row under a key if it meets a test, with the number of
dropped rows. -/
def deleteWhere (t : Table ρ key) (k : κ) (p : ρ → Bool) : ℕ × Table ρ key :=
  if (t.find k).any p then (1, t.erase k) else (0, t)

/-! ## Reading -/

variable {k : κ} {row : ρ}

theorem find_eq_some_iff : t.find k = some row ↔ row ∈ t.rows ∧ key row = k := by
  obtain ⟨rows, hnodup⟩ := t
  unfold find
  dsimp only
  induction rows with
  | nil => simp
  | cons r rows ih =>
    rw [map_cons, nodup_cons] at hnodup
    rw [find?_cons]
    by_cases hk : key r = k
    · simp only [hk, decide_true, Option.some.injEq, mem_cons]
      constructor
      · rintro rfl
        exact ⟨.inl rfl, hk⟩
      · rintro ⟨rfl | hmem, hrow⟩
        · rfl
        · exact absurd (mem_map.mpr ⟨row, hmem, hrow.trans hk.symm⟩) hnodup.1
    · simp only [hk, decide_false, ih hnodup.2, mem_cons]
      constructor
      · rintro ⟨hmem, hrow⟩
        exact ⟨.inr hmem, hrow⟩
      · rintro ⟨rfl | hmem, hrow⟩
        · exact absurd hrow hk
        · exact ⟨hmem, hrow⟩

theorem find_eq_none_iff : t.find k = none ↔ ∀ row ∈ t.rows, key row ≠ k := by
  simp [find, find?_eq_none]

theorem find_key (h : row ∈ t.rows) : t.find (key row) = some row :=
  find_eq_some_iff.mpr ⟨h, rfl⟩

theorem key_of_find (h : t.find k = some row) : key row = k :=
  (find_eq_some_iff.mp h).2

theorem mem_of_find (h : t.find k = some row) : row ∈ t.rows :=
  (find_eq_some_iff.mp h).1

theorem find?_of_perm {rows : List ρ} (h : rows.Perm t.rows) (k : κ) :
    rows.find? (fun row => key row = k) = t.find k := by
  have hnodup : (rows.map key).Nodup := (h.map key).nodup_iff.mpr t.keysNodup
  apply Option.ext
  intro row
  have hmem : row ∈ rows ∧ key row = k ↔ row ∈ t.rows ∧ key row = k := by rw [h.mem_iff]
  exact (find_eq_some_iff (t := { rows, keysNodup := hnodup })).trans
    (hmem.trans find_eq_some_iff.symm)

/-! ## Writing -/

@[simp] theorem find_mapRows (t : Table ρ key) (f : ρ → ρ) (hf : ∀ row, key (f row) = key row)
    (k : κ) : (t.mapRows f hf).find k = (t.find k).map f := by
  simp only [find, mapRows, find?_map, Function.comp_def, hf]

theorem find_filter (t : Table ρ key) (p : ρ → Bool) (k : κ) :
    (t.filter p).find k = (t.find k).filter p := by
  apply Option.ext
  intro row
  rw [find_eq_some_iff, Option.filter_eq_some_iff, find_eq_some_iff, filter, mem_filter]
  tauto

theorem insert_eq_some_iff :
    t.insert row = some t' ↔ t.find (key row) = none ∧ t'.rows = t.rows ++ [row] := by
  unfold insert
  have hnone : key row ∉ t.rows.map key ↔ t.find (key row) = none := by
    rw [find_eq_none_iff]
    simp
  split
  · next h => simp [← hnone, h]
  · next h =>
    obtain ⟨rows', hnodup'⟩ := t'
    simp only [Option.some.injEq, mk.injEq, hnone.mp h, true_and]
    exact eq_comm

theorem exists_insert (h : t.find (key row) = none) : ∃ t', t.insert row = some t' := by
  unfold insert
  rw [dif_neg]
  · exact ⟨_, rfl⟩
  · rw [mem_map]
    rintro ⟨row', hrow', hkey⟩
    exact find_eq_none_iff.mp h row' hrow' hkey

theorem find_insert (h : t.insert row = some t') (k : κ) :
    t'.find k = if key row = k then some row else t.find k := by
  obtain ⟨hnone, hrows⟩ := insert_eq_some_iff.mp h
  unfold find at hnone ⊢
  rw [hrows, find?_append]
  by_cases hk : key row = k
  · subst hk
    simp [hnone]
  · simp [hk]

@[simp] theorem find_modify (t : Table ρ key) (k : κ) (f : ρ → ρ)
    (hf : ∀ row, key (f row) = key row) (k' : κ) :
    (t.modify k f hf).find k' = if k' = k then (t.find k).map f else t.find k' := by
  unfold modify
  rw [find_mapRows]
  by_cases hk : k' = k
  · subst hk
    rw [if_pos rfl]
    cases hfind : t.find k' with
    | none => rfl
    | some row => simp [key_of_find hfind]
  · rw [if_neg hk]
    cases hfind : t.find k' with
    | none => rfl
    | some row => simp [key_of_find hfind, hk]

theorem find_modify_self (f : ρ → ρ) (hf : ∀ row, key (f row) = key row) (h : t.find k = some row) :
    (t.modify k f hf).find k = some (f row) := by
  rw [find_modify, if_pos rfl, h]
  rfl

@[simp] theorem find_erase (t : Table ρ key) (k k' : κ) :
    (t.erase k).find k' = if k' = k then none else t.find k' := by
  unfold erase
  rw [find_filter]
  cases hfind : t.find k' with
  | none => simp
  | some row => by_cases hk : k' = k <;> simp [key_of_find hfind, hk, Option.filter]

variable {f : ρ → ρ} {hf : ∀ row, key (f row) = key row}

theorem modify_congr {f' : ρ → ρ}
    {hf' : ∀ row, key (f' row) = key row} (h : ∀ row, t.find k = some row → f row = f' row) :
    t.modify k f hf = t.modify k f' hf' := by
  apply ext_rows
  apply map_congr_left
  intro row hrow
  by_cases hk : key row = k
  · simp only [hk, if_true]
    exact h row (find_eq_some_iff.mpr ⟨hrow, hk⟩)
  · simp only [hk, if_false]

variable {p : ρ → Bool}

theorem filter_rows_modify (hf : ∀ row, key (f row) = key row)
    (h : ∀ row, t.find k = some row → p row = false ∧ p (f row) = false) :
    (t.modify k f hf).rows.filter p = t.rows.filter p := by
  have hrows : ∀ row ∈ t.rows, key row = k → p row = false ∧ p (f row) = false :=
    fun row hrow hk => h row (find_eq_some_iff.mpr ⟨hrow, hk⟩)
  unfold modify mapRows
  dsimp only
  generalize t.rows = rows at hrows
  induction rows with
  | nil => rfl
  | cons row rows ih =>
    rw [map_cons, filter_cons, filter_cons,
      ih fun row' hrow' => hrows row' (mem_cons_of_mem _ hrow')]
    by_cases hk : key row = k
    · obtain ⟨hbefore, hafter⟩ := hrows row mem_cons_self hk
      simp [hk, hbefore, hafter]
    · simp [hk]

theorem updateWhere_of_forall (h : ∀ row ∈ t.find k, p row = false) :
    t.updateWhere k p f hf = (0, t) := by
  refine if_neg ?_
  cases hfind : t.find k with
  | none => simp
  | some row => simp [h row hfind]

theorem deleteWhere_of_forall
    (h : ∀ row ∈ t.find k, p row = false) : t.deleteWhere k p = (0, t) := by
  refine if_neg ?_
  cases hfind : t.find k with
  | none => simp
  | some row => simp [h row hfind]

theorem updateWhere_eq {n : ℕ} (hn : n ≠ 0) (h : t.updateWhere k p f hf = (n, t')) :
    ∃ row, t.find k = some row ∧ p row = true ∧ t' = t.modify k f hf := by
  unfold updateWhere at h
  split at h
  · next hany =>
    cases h
    cases hfind : t.find k with
    | none =>
      rw [hfind] at hany
      cases hany
    | some row =>
      rw [hfind] at hany
      exact ⟨row, rfl, hany, rfl⟩
  · cases h
    exact absurd rfl hn

theorem deleteWhere_eq {n : ℕ} (hn : n ≠ 0) (h : t.deleteWhere k p = (n, t')) :
    ∃ row, t.find k = some row ∧ p row = true ∧ t' = t.erase k := by
  unfold deleteWhere at h
  split at h
  · next hany =>
    cases h
    cases hfind : t.find k with
    | none =>
      rw [hfind] at hany
      cases hany
    | some row =>
      rw [hfind] at hany
      exact ⟨row, rfl, hany, rfl⟩
  · cases h
    exact absurd rfl hn

theorem mem_rows_modify
    (hf : ∀ row, key (f row) = key row) {row' : ρ} (h : row' ∈ (t.modify k f hf).rows) :
    (row' ∈ t.rows ∧ key row' ≠ k) ∨ ∃ row, t.find k = some row ∧ row' = f row := by
  obtain ⟨row, hrow, rfl⟩ := mem_map.mp h
  by_cases hk : key row = k
  · right
    exact ⟨row, find_eq_some_iff.mpr ⟨hrow, hk⟩, if_pos hk⟩
  · left
    rw [if_neg hk]
    exact ⟨hrow, hk⟩

theorem mem_rows_modify_of_mem (hf : ∀ row, key (f row) = key row) (h : row ∈ t.rows) :
    row ∈ (t.modify k f hf).rows ∨ f row ∈ (t.modify k f hf).rows := by
  by_cases hk : key row = k
  · right
    exact mem_map.mpr ⟨row, h, if_pos hk⟩
  · left
    exact mem_map.mpr ⟨row, h, if_neg hk⟩

theorem mem_rows_modify_of_ne
    (hf : ∀ row, key (f row) = key row) (h : row ∈ t.rows) (hne : key row ≠ k) :
    row ∈ (t.modify k f hf).rows :=
  mem_map.mpr ⟨row, h, if_neg hne⟩

end Table

end Laborer.Library
