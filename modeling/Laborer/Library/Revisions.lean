import Laborer.Library.Table
import Mathlib.Data.Int.Notation

/-!
# Rows with revisions

Keyed rows that count their changes, and writers that name the revision of the row
that they start from. A row that is not there has revision zero.
-/

namespace Laborer.Library

open List Option Table

universe u v

variable {κ : Type u} {ρ : Type v} {revision : ρ → ℤ}

def revisionAt (revision : ρ → ℤ) (row : Option ρ) : ℤ :=
  row.elim 0 revision

/-- **What a commit does to the rows.** The keys that it names are those of the rows
that it changed, each is named once, and each row that is left is at its next revision. -/
structure Revises (revision : ρ → ℤ) (rows rows' : κ → Option ρ) (keys : List κ) : Prop where
  nodup : keys.Nodup
  changed : ∀ k, k ∈ keys ↔ rows' k ≠ rows k
  revised : ∀ k ∈ keys, ∀ row ∈ rows' k, revision row = revisionAt revision (rows k) + 1

namespace Revises

variable {rows rows' rows'' : κ → Option ρ} {keys keys' : List κ} {k : κ}

theorem refl (rows : κ → Option ρ) : Revises revision rows rows [] :=
  ⟨nodup_nil, fun _ => by simp, fun _ h => absurd h not_mem_nil⟩

theorem same (h : Revises revision rows rows' keys) (hk : k ∉ keys) : rows' k = rows k := by
  by_contra hne
  exact hk ((h.changed k).mpr hne)

theorem one (hother : ∀ k' ≠ k, rows' k' = rows k')
    (hrevised : ∀ row ∈ rows' k, revision row = revisionAt revision (rows k) + 1)
    (hgone : rows' k = none → rows k ≠ none) : Revises revision rows rows' [k] := by
  refine ⟨nodup_singleton k, fun k' => ?_, fun k' hk' => ?_⟩
  · rw [mem_singleton]
    refine ⟨fun heq => ?_, fun hne => not_imp_comm.mp (hother k') hne⟩
    subst heq
    intro hsame
    cases hrow : rows' k' with
    | none => exact hgone hrow (hsame.symm.trans hrow)
    | some row =>
      -- a row that is as it was would be at its next revision
      have hnext := hrevised row hrow
      rw [← hsame, hrow, revisionAt, elim_some] at hnext
      omega
  · rw [mem_singleton.mp hk']
    exact hrevised

theorem trans (h : Revises revision rows rows' keys) (h' : Revises revision rows' rows'' keys')
    (hdisjoint : keys.Disjoint keys') : Revises revision rows rows'' (keys ++ keys') := by
  have hfirst : ∀ k ∈ keys, rows'' k = rows' k := fun k hk => h'.same fun hk' => hdisjoint hk hk'
  have hsecond : ∀ k ∈ keys', rows' k = rows k := fun k hk' => h.same fun hk => hdisjoint hk hk'
  refine ⟨h.nodup.append h'.nodup hdisjoint, fun k => ?_, fun k hk => ?_⟩
  · rw [mem_append]
    by_cases hk : k ∈ keys
    · rw [hfirst k hk]
      exact iff_of_true (.inl hk) ((h.changed k).mp hk)
    · rw [← h.same hk, h'.changed k]
      simp [hk]
  · rcases mem_append.mp hk with hk | hk
    · rw [hfirst k hk]
      exact h.revised k hk
    · rw [← hsecond k hk]
      exact h'.revised k hk

/-- **A row that was changed is no longer at the revision it was at**, where revisions
count from one. -/
theorem ne_revisionAt (h : Revises revision rows rows' keys) (hk : k ∈ keys)
    (hpositive : ∀ row ∈ rows k, 1 ≤ revision row) :
    revisionAt revision (rows' k) ≠ revisionAt revision (rows k) := by
  cases hrow' : rows' k with
  | some row' =>
    rw [revisionAt, elim_some, h.revised k hk row' hrow']
    omega
  | none =>
    cases hrow : rows k with
    | none => exact absurd (hrow'.trans hrow.symm) ((h.changed k).mp hk)
    | some row =>
      have := hpositive row hrow
      simp only [revisionAt, elim_none, elim_some]
      omega

theorem lift {κ' : Type u} {ρ' : Type v} {revision' : ρ' → ℤ} {all all' : κ' → Option ρ'}
    {k' : κ'} (h : Revises revision rows rows' [k]) (g : ρ → ρ')
    (hg : ∀ row, revision' (g row) = revision row) (hrow : all k' = (rows k).map g)
    (hrow' : all' k' = (rows' k).map g) (hother : ∀ j ≠ k', all' j = all j) :
    Revises revision' all all' [k'] := by
  have hk : k ∈ [k] := mem_singleton_self k
  refine .one hother ?_ ?_
  · intro row hmem
    rw [hrow'] at hmem
    obtain ⟨row, hfound, rfl⟩ := map_eq_some_iff.mp hmem
    rw [hg, h.revised k hk row hfound, hrow]
    cases rows k with
    | none => rfl
    | some before =>
      change _ = revision' (g before) + 1
      rw [hg]
      rfl
  · intro hnone hsame
    rw [hrow', map_eq_none_iff] at hnone
    rw [hrow, map_eq_none_iff] at hsame
    exact (h.changed k).mp hk (hnone.trans hsame.symm)

/-! ## Tables -/

variable [DecidableEq κ] {key : ρ → κ} {t : Table ρ key}

theorem inserted {t' : Table ρ key} {row : ρ} (h : t.insert row = some t')
    (hrevision : revision row = 1) : Revises revision t.find t'.find [key row] := by
  have hnone : t.find (key row) = none := (insert_eq_some_iff.mp h).1
  have hself : t'.find (key row) = some row := (find_insert h _).trans (if_pos rfl)
  refine .one (fun k' hk' => ?_) (fun row' hrow' => ?_) fun hmissing => ?_
  · rw [find_insert h, if_neg (Ne.symm hk')]
  · cases hself.symm.trans hrow'
    rw [hnone, hrevision]
    rfl
  · cases hself.symm.trans hmissing

theorem modified {row : ρ} (h : t.find k = some row) (f : ρ → ρ)
    (hf : ∀ row, key (f row) = key row) (hrevision : revision (f row) = revision row + 1) :
    Revises revision t.find (t.modify k f hf).find [k] := by
  have hself : (t.modify k f hf).find k = some (f row) := find_modify_self f hf h
  refine .one (fun k' hk' => ?_) (fun row' hrow' => ?_) fun hmissing => ?_
  · rw [find_modify, if_neg hk']
  · cases hself.symm.trans hrow'
    rw [hrevision, h]
    rfl
  · cases hself.symm.trans hmissing

theorem erased {row : ρ} (h : t.find k = some row) :
    Revises revision t.find (t.erase k).find [k] := by
  have hself : (t.erase k).find k = none := (find_erase t k k).trans (if_pos rfl)
  refine .one (fun k' hk' => ?_) (fun row' hrow' => ?_) fun _ hnone => ?_
  · rw [find_erase, if_neg hk']
  · cases hself.symm.trans hrow'
  · cases h.symm.trans hnone

end Revises

end Laborer.Library
