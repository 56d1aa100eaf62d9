import Laborer.Library.Table
import Mathlib.Data.List.DropRight
import Mathlib.Data.List.Pairwise

/-!
# Rows that expire

Rows that are dead from some time on, of which a sweep deletes a few at a time: what is
selected among the live ones is the same before and after. Tables keep their rows under a key,
or in the order of a sequence number that is never given twice.
-/

namespace Laborer.Library

open List

universe u v

variable {ρ : Type u}

/-! ## Live rows -/

def isLive (now : ℕ) : Option ℕ → Bool
  | none => true
  | some expiresAt => decide (now < expiresAt)

@[simp] theorem isLive_none (now : ℕ) : isLive now none = true := rfl

@[simp] theorem isLive_some (now expiresAt : ℕ) :
    isLive now (some expiresAt) = decide (now < expiresAt) := rfl

theorem isLive_of_le {now now' : ℕ} (h : now ≤ now') {expiresAt : Option ℕ}
    (hlive : isLive now' expiresAt = true) : isLive now expiresAt = true := by
  cases expiresAt with
  | none => rfl
  | some time =>
    simp only [isLive_some, decide_eq_true_eq] at hlive ⊢
    omega

/-- Delete at most `limit` expired rows, of those at the places that are picked. -/
def sweep (expiry : ρ → Option ℕ) (now : ℕ) : (ℕ → Bool) → ℕ → List ρ → List ρ
  | _, 0, rows => rows
  | _, _ + 1, [] => []
  | picks, limit + 1, row :: rows =>
    if isLive now (expiry row) = false ∧ picks 0 = true then
      sweep expiry now (fun place => picks (place + 1)) limit rows
    else row :: sweep expiry now (fun place => picks (place + 1)) (limit + 1) rows

variable {expiry : ρ → Option ℕ} {now : ℕ}

theorem sweep_sublist (picks : ℕ → Bool) (limit : ℕ) (rows : List ρ) :
    (sweep expiry now picks limit rows).Sublist rows := by
  induction rows generalizing picks limit with
  | nil => cases limit <;> exact .refl _
  | cons row rows ih =>
    cases limit with
    | zero => exact .refl _
    | succ limit =>
      rw [sweep]
      split
      · exact .cons _ (ih _ _)
      · exact .cons_cons _ (ih _ _)

theorem filter_sweep {p : ρ → Bool} (hp : ∀ row, p row = true → isLive now (expiry row) = true)
    (picks : ℕ → Bool) (limit : ℕ) (rows : List ρ) :
    (sweep expiry now picks limit rows).filter p = rows.filter p := by
  induction rows generalizing picks limit with
  | nil => cases limit <;> rfl
  | cons row rows ih =>
    cases limit with
    | zero => rfl
    | succ limit =>
      rw [sweep]
      split
      · next hswept =>
        have hnot : p row = false := by
          by_contra hne
          have hlive := hp row (Bool.not_eq_false _ ▸ hne)
          rw [hswept.1] at hlive
          cases hlive
        rw [ih, filter_cons, hnot]
        rfl
      · rw [filter_cons, filter_cons, ih]

/-! ## Tables with a key -/

namespace Table

variable {κ : Type v} {key : ρ → κ}

/-- `DELETE … WHERE rowid IN (SELECT … LIMIT …)`. -/
def sweep (t : Table ρ key) (expiry : ρ → Option ℕ) (now : ℕ) (picks : ℕ → Bool) (limit : ℕ) :
    Table ρ key where
  rows := Library.sweep expiry now picks limit t.rows
  keysNodup := t.keysNodup.sublist ((sweep_sublist picks limit t.rows).map key)

variable [DecidableEq κ]

/-- `INSERT … ON CONFLICT DO UPDATE … WHERE`, with the number of rows written. -/
def upsertWhere (t : Table ρ key) (row : ρ) (p : ρ → Bool) : ℕ × Table ρ key :=
  match t.find (key row) with
  | none => (1, (t.insert row).getD t)
  | some held =>
    if p held then
      (1, t.mapRows (fun old => if key old = key row then row else old) fun old => by
        split
        · next h => exact h.symm
        · rfl)
    else (0, t)

theorem find_sweep {p : ρ → Bool} (hp : ∀ row, p row = true → isLive now (expiry row) = true)
    (t : Table ρ key) (picks : ℕ → Bool) (limit : ℕ) (k : κ) :
    ((t.sweep expiry now picks limit).find k).filter p = (t.find k).filter p := by
  have hrows : (t.sweep expiry now picks limit).filter p = t.filter p :=
    ext_rows (filter_sweep hp picks limit t.rows)
  rw [← find_filter, hrows, find_filter]

theorem find_upsertWhere_of_written (t : Table ρ key) (row : ρ) (p : ρ → Bool)
    (h : ∀ held, t.find (key row) = some held → p held = true) (k : κ) :
    (t.upsertWhere row p).1 = 1 ∧
      (t.upsertWhere row p).2.find k = if k = key row then some row else t.find k := by
  unfold upsertWhere
  cases hfind : t.find (key row) with
  | none =>
    obtain ⟨t', ht'⟩ := exists_insert hfind
    refine ⟨rfl, ?_⟩
    rw [ht', Option.getD_some, find_insert ht']
    simp only [eq_comm]
  | some held =>
    dsimp only
    rw [if_pos (h held hfind)]
    refine ⟨rfl, ?_⟩
    dsimp only
    rw [find_mapRows]
    by_cases hk : k = key row
    · rw [if_pos hk, hk, hfind, Option.map_some, if_pos (key_of_find hfind)]
    · rw [if_neg hk]
      cases hother : t.find k with
      | none => rfl
      | some other =>
        rw [Option.map_some, if_neg]
        rw [key_of_find hother]
        exact hk

theorem upsertWhere_of_held {t : Table ρ key} {row held : ρ} {p : ρ → Bool}
    (hfind : t.find (key row) = some held) (h : p held = false) : t.upsertWhere row p = (0, t) := by
  unfold upsertWhere
  rw [hfind]
  simp only [h, Bool.false_eq_true, if_false]

end Table

/-! ## Tables with a sequence -/

/-- Rows under an `AUTOINCREMENT` number, in its order; `last` is the last one given. -/
structure SequenceTable (ρ : Type u) where
  rows : List (ℕ × ρ)
  last : ℕ
  ascending : rows.Pairwise fun row row' => row.1 < row'.1
  bounded : ∀ row ∈ rows, row.1 ≤ last

namespace SequenceTable

def empty : SequenceTable ρ where
  rows := []
  last := 0
  ascending := .nil
  bounded := fun _ hrow => absurd hrow List.not_mem_nil

def keep (t : SequenceTable ρ) (rows : List (ℕ × ρ)) (h : rows.Sublist t.rows) :
    SequenceTable ρ where
  rows := rows
  last := t.last
  ascending := t.ascending.sublist h
  bounded := fun row hrow => t.bounded row (h.subset hrow)

def insert (t : SequenceTable ρ) (row : ρ) : SequenceTable ρ where
  rows := t.rows ++ [(t.last + 1, row)]
  last := t.last + 1
  ascending := by
    rw [List.pairwise_append]
    refine ⟨t.ascending, List.pairwise_singleton _ _, ?_⟩
    intro old hold new hnew
    rw [List.mem_singleton.mp hnew]
    exact Nat.lt_succ_of_le (t.bounded old hold)
  bounded := by
    intro old hold
    rcases List.mem_append.mp hold with hold | hold
    · exact Nat.le_succ_of_le (t.bounded old hold)
    · rw [List.mem_singleton.mp hold]

def updateWhere (t : SequenceTable ρ) (p : ρ → Bool) (f : ρ → ρ) : SequenceTable ρ where
  rows := t.rows.map fun row => (row.1, if p row.2 then f row.2 else row.2)
  last := t.last
  ascending := by
    rw [List.pairwise_map]
    exact t.ascending
  bounded := by
    intro row hrow
    obtain ⟨old, hold, rfl⟩ := List.mem_map.mp hrow
    exact t.bounded old hold

def deleteWhere (t : SequenceTable ρ) (p : ρ → Bool) : SequenceTable ρ :=
  t.keep (t.rows.filter fun row => !p row.2) List.filter_sublist

def sweep (t : SequenceTable ρ) (expiry : ρ → Option ℕ) (now : ℕ) (picks : ℕ → Bool)
    (limit : ℕ) : SequenceTable ρ :=
  t.keep (Library.sweep (fun row => expiry row.2) now picks limit t.rows) (sweep_sublist ..)

/-- The numbers of the matching rows, `ORDER BY sequence ASC`. -/
def sequences (t : SequenceTable ρ) (p : ρ → Bool) : List ℕ :=
  (t.rows.filter fun row => p row.2).map Prod.fst

/-- `DELETE … WHERE … AND sequence NOT IN (SELECT … ORDER BY sequence DESC LIMIT …)`. -/
def deleteBeyond (t : SequenceTable ρ) (p : ρ → Bool) (limit : ℕ) : SequenceTable ρ :=
  t.keep
    (t.rows.filter fun row => !(p row.2 && row.1 ∉ (t.sequences p).reverse.take limit))
    List.filter_sublist

def select (t : SequenceTable ρ) (p : ρ → Bool) : List ρ := (t.rows.map Prod.snd).filter p

/-- `DELETE … WHERE sequence = (SELECT … ORDER BY sequence ASC LIMIT 1) RETURNING …`. -/
def deleteOldest (t : SequenceTable ρ) (p : ρ → Bool) : Option ρ × SequenceTable ρ :=
  match (t.sequences p).head? with
  | none => (none, t)
  | some sequence =>
    ((t.rows.find? fun row => row.1 = sequence).map Prod.snd,
      t.keep (t.rows.filter fun row => row.1 ≠ sequence) List.filter_sublist)

/-! ### Selecting after a change -/

variable {t : SequenceTable ρ} {p q : ρ → Bool}

theorem select_keep {rows : List (ℕ × ρ)} {h : rows.Sublist t.rows} :
    (t.keep rows h).select p = (rows.filter fun row => p row.2).map Prod.snd := by
  unfold select keep
  rw [filter_map]
  rfl

theorem select_eq : t.select p = (t.rows.filter fun row => p row.2).map Prod.snd := by
  unfold select
  rw [filter_map]
  rfl

@[simp] theorem select_insert (row : ρ) :
    (t.insert row).select p = t.select p ++ if p row then [row] else [] := by
  unfold select insert
  rw [map_append, filter_append]
  congr 1
  cases hrow : p row with
  | false => simp [hrow]
  | true => simp [hrow]

theorem select_sweep (hp : ∀ row, p row = true → isLive now (expiry row) = true)
    (picks : ℕ → Bool) (limit : ℕ) : (t.sweep expiry now picks limit).select p = t.select p := by
  unfold sweep
  rw [select_keep, select_eq]
  congr 1
  apply filter_sweep
  exact fun row => hp row.2

theorem select_deleteWhere (h : ∀ row, q row = true → p row = false) :
    (t.deleteWhere p).select q = t.select q := by
  unfold deleteWhere
  rw [select_keep, select_eq, filter_filter]
  congr 1
  apply filter_congr
  intro row _
  cases hq : q row.2 with
  | false => rfl
  | true =>
    rw [h row.2 hq]
    rfl

theorem select_deleteWhere_of_imp (h : ∀ row, q row = true → p row = true) :
    (t.deleteWhere p).select q = [] := by
  unfold deleteWhere
  rw [select_keep, filter_filter, map_eq_nil_iff, filter_eq_nil_iff]
  intro row _
  by_cases hq : q row.2 = true
  · simp [hq, h row.2 hq]
  · simp [hq]

theorem select_updateWhere (f : ρ → ρ) : (t.updateWhere p f).select q =
      (t.select fun row => q (if p row then f row else row)).map fun row =>
        if p row then f row else row := by
  unfold select updateWhere
  rw [map_map]
  have hcomp : (Prod.snd ∘ fun row : ℕ × ρ => (row.1, if p row.2 then f row.2 else row.2)) =
      (fun row => if p row then f row else row) ∘ Prod.snd := rfl
  rw [hcomp, ← map_map, filter_map]
  rfl

theorem filter_newest {rows : List (ℕ × ρ)}
    (hascending : rows.Pairwise fun row row' => row.1 < row'.1) (limit : ℕ) :
    rows.filter (fun row => row.1 ∈ (rows.map Prod.fst).reverse.take limit) = rows.rtake limit := by
  have hnewest : (rows.map Prod.fst).reverse.take limit =
      ((rows.rtake limit).map Prod.fst).reverse := by
    rw [rtake_eq_reverse_take_reverse, ← map_reverse, ← map_take, map_reverse, reverse_reverse]
  rw [hnewest]
  have hsplit : rows.rdrop limit ++ rows.rtake limit = rows := take_append_drop ..
  -- The numbers of the older rows are below those of the newest.
  have holder : ∀ row ∈ rows.rdrop limit, ∀ row' ∈ rows.rtake limit, row.1 < row'.1 := by
    rw [← hsplit, pairwise_append] at hascending
    exact hascending.2.2
  conv_lhs => arg 2; rw [← hsplit]
  rw [filter_append, filter_eq_nil_iff.mpr, filter_eq_self.mpr, nil_append]
  · intro row hrow
    simp only [mem_reverse, mem_map, decide_eq_true_eq]
    exact ⟨row, hrow, rfl⟩
  · intro row hrow
    simp only [mem_reverse, mem_map, decide_eq_true_eq]
    rintro ⟨row', hrow', heq⟩
    have hlt := holder row hrow row' hrow'
    omega

theorem select_deleteBeyond (limit : ℕ) :
    (t.deleteBeyond p limit).select p = (t.select p).rtake limit := by
  unfold deleteBeyond
  have hascending := t.ascending.filter fun row => p row.2
  have hnewest := filter_newest hascending limit
  rw [select_keep, filter_filter, select_eq]
  have hfilter : (t.rows.filter fun row => p row.2 &&
      !(p row.2 && row.1 ∉ (t.sequences p).reverse.take limit)) =
      (t.rows.filter fun row => p row.2).rtake limit := by
    rw [← hnewest, filter_filter]
    apply filter_congr
    intro row _
    unfold sequences
    cases p row.2 with
    | false => simp
    | true => simp
  rw [hfilter]
  unfold rtake
  rw [map_drop, length_map]

theorem select_deleteBeyond_of_disjoint (h : ∀ row, q row = true → p row = false) (limit : ℕ) :
    (t.deleteBeyond p limit).select q = t.select q := by
  unfold deleteBeyond
  rw [select_keep, select_eq, filter_filter]
  congr 1
  apply filter_congr
  intro row _
  cases hq : q row.2 with
  | false => rfl
  | true =>
    rw [h row.2 hq]
    rfl

theorem eq_of_sequence_eq {row row' : ℕ × ρ} (hrow : row ∈ t.rows) (hrow' : row' ∈ t.rows)
    (h : row.1 = row'.1) : row = row' := by
  have hnodup : (t.rows.map Prod.fst).Nodup := by
    rw [nodup_iff_pairwise_ne, pairwise_map]
    exact t.ascending.imp fun hlt => Nat.ne_of_lt hlt
  exact inj_on_of_nodup_map hnodup hrow hrow' h

theorem deleteOldest_spec : (t.deleteOldest p).1 = (t.select p).head? ∧
      (t.deleteOldest p).2.select p = (t.select p).tail ∧
      ∀ q : ρ → Bool, (∀ row, q row = true → p row = false) →
        (t.deleteOldest p).2.select q = t.select q := by
  have hascending := t.ascending.filter fun row => p row.2
  unfold deleteOldest sequences
  rw [select_eq]
  cases hmatching : t.rows.filter fun row => p row.2 with
  | nil =>
    refine ⟨rfl, ?_, fun q _ => rfl⟩
    show t.select p = []
    rw [select_eq, hmatching]
    rfl
  | cons oldest rest =>
    have holdest : oldest ∈ t.rows ∧ p oldest.2 = true := by
      have hmem : oldest ∈ t.rows.filter fun row => p row.2 := by
        rw [hmatching]
        exact mem_cons_self
      exact mem_filter.mp hmem
    rw [hmatching, pairwise_cons] at hascending
    refine ⟨?_, ?_, ?_⟩
    · show (t.rows.find? fun row => row.1 = oldest.1).map Prod.snd = some oldest.2
      cases hfind : t.rows.find? fun row => row.1 = oldest.1 with
      | none =>
        have hnone := find?_eq_none.mp hfind oldest holdest.1
        exact absurd (decide_eq_true rfl) hnone
      | some found =>
        have hfound : found.1 = oldest.1 := by
          simpa using find?_some hfind
        rw [eq_of_sequence_eq (mem_of_find?_eq_some hfind) holdest.1 hfound]
        rfl
    · show (t.keep (t.rows.filter fun row => row.1 ≠ oldest.1) filter_sublist).select p = _
      have hcomm : (t.rows.filter fun row => decide (row.1 ≠ oldest.1)).filter
          (fun row => p row.2) = rest := by
        rw [filter_filter]
        have hswap : t.rows.filter (fun row => p row.2 && decide (row.1 ≠ oldest.1)) =
            (t.rows.filter fun row => p row.2).filter fun row => row.1 ≠ oldest.1 := by
          rw [filter_filter]
          apply filter_congr
          exact fun row _ => Bool.and_comm _ _
        rw [hswap, hmatching, filter_cons_of_neg (by simp), filter_eq_self]
        intro row hrow
        have hlt := hascending.1 row hrow
        exact decide_eq_true (Nat.ne_of_gt hlt)
      rw [select_keep, hcomm]
      rfl
    · intro q hq
      show (t.keep (t.rows.filter fun row => row.1 ≠ oldest.1) filter_sublist).select q = _
      rw [select_keep, select_eq, filter_filter]
      congr 1
      apply filter_congr
      intro row hrow
      cases hqrow : q row.2 with
      | false => rfl
      | true =>
        rw [Bool.true_and, decide_eq_true_eq]
        intro heq
        have hnot := hq row.2 hqrow
        rw [eq_of_sequence_eq hrow holdest.1 heq, holdest.2] at hnot
        cases hnot

end SequenceTable

end Laborer.Library
