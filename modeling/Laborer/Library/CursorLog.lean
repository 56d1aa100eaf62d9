import Mathlib.Algebra.BigOperators.Group.List.Basic
import Mathlib.Algebra.Order.Ring.Int

/-!
# Logs addressed by position

Items laid end to end, each with a size, and the positions between them. A reader holds
the position up to which it has read; the oldest items of a log may be dropped while the
positions of the others stay what they are.
-/

namespace Laborer.Library.CursorLog

open List

universe u

variable {α : Type u} (size : α → ℕ)

def total (items : List α) : ℕ := (items.map size).sum

def ends (start : ℕ) : List α → List (ℕ × α)
  | [] => []
  | a :: items => (start + size a, a) :: ends (start + size a) items

/-- A position between two items, or at one of the ends. -/
def IsMark (start : ℕ) (items : List α) (mark : ℕ) : Prop :=
  ∃ before after, items = before ++ after ∧ mark = start + total size before

def Positive (items : List α) : Prop := ∀ a ∈ items, 0 < size a

variable {size} {start mark mark' : ℕ} {items before after : List α}

@[simp] theorem total_nil : total size [] = 0 := rfl

@[simp] theorem total_cons (a : α) (items : List α) :
    total size (a :: items) = size a + total size items := by
  simp [total]

@[simp] theorem total_append (before after : List α) :
    total size (before ++ after) = total size before + total size after := by
  simp [total]

theorem Positive.of_append (h : Positive size (before ++ after)) :
    Positive size before ∧ Positive size after :=
  ⟨fun a ha => h a (mem_append_left _ ha), fun a ha => h a (mem_append_right _ ha)⟩

theorem Positive.append (hbefore : Positive size before) (hafter : Positive size after) :
    Positive size (before ++ after) := by
  intro a ha
  rcases mem_append.mp ha with ha | ha
  · exact hbefore a ha
  · exact hafter a ha

/-! ## Where items end -/

theorem ends_append (start : ℕ) (before after : List α) : ends size start (before ++ after) =
      ends size start before ++ ends size (start + total size before) after := by
  induction before generalizing start with
  | nil => simp [ends]
  | cons a before ih =>
    simp only [cons_append, ends, ih, total_cons]
    rw [Nat.add_assoc]

@[simp] theorem map_snd_ends (start : ℕ) (items : List α) :
    (ends size start items).map Prod.snd = items := by
  induction items generalizing start with
  | nil => rfl
  | cons a items ih => simp [ends, ih]

theorem getLast?_ends (h : items ≠ []) :
    (ends size start items).getLast?.map Prod.fst = some (start + total size items) := by
  obtain rfl | ⟨init, last, rfl⟩ := eq_nil_or_concat items
  · exact absurd rfl h
  · simp [ends_append, ends, Nat.add_assoc]

theorem bounds_of_mem_ends {e : ℕ × α} (hpositive : Positive size items)
    (h : e ∈ ends size start items) : start < e.1 ∧ e.1 ≤ start + total size items := by
  induction items generalizing start with
  | nil => exact absurd h not_mem_nil
  | cons a items ih =>
    have ha := hpositive a mem_cons_self
    rw [total_cons]
    rcases mem_cons.mp h with rfl | h
    · exact ⟨by omega, by omega⟩
    · have := ih (fun b hb => hpositive b (mem_cons_of_mem _ hb)) h
      omega

theorem filter_lt_ends (hpositive : Positive size (before ++ after)) :
    (ends size start (before ++ after)).filter (fun e => decide (start + total size before < e.1)) =
      ends size (start + total size before) after := by
  obtain ⟨hbefore, hafter⟩ := hpositive.of_append
  rw [ends_append, filter_append]
  have hnone : (ends size start before).filter
      (fun e => decide (start + total size before < e.1)) = [] := by
    rw [filter_eq_nil_iff]
    intro e he
    have := bounds_of_mem_ends hbefore he
    simp only [decide_eq_true_eq]
    omega
  have hall : (ends size (start + total size before) after).filter
      (fun e => decide (start + total size before < e.1)) =
        ends size (start + total size before) after := by
    rw [filter_eq_self]
    intro e he
    have := bounds_of_mem_ends hafter he
    simp only [decide_eq_true_eq]
    omega
  rw [hnone, hall, nil_append]

theorem filter_le_ends (hpositive : Positive size (before ++ after)) :
    (ends size start (before ++ after)).filter
        (fun e => decide (e.1 ≤ start + total size before)) = ends size start before := by
  obtain ⟨hbefore, hafter⟩ := hpositive.of_append
  rw [ends_append, filter_append]
  have hnone : (ends size (start + total size before) after).filter
      (fun e => decide (e.1 ≤ start + total size before)) = [] := by
    rw [filter_eq_nil_iff]
    intro e he
    have := bounds_of_mem_ends hafter he
    simp only [decide_eq_true_eq]
    omega
  have hall : (ends size start before).filter
      (fun e => decide (e.1 ≤ start + total size before)) = ends size start before := by
    rw [filter_eq_self]
    intro e he
    have := bounds_of_mem_ends hbefore he
    simp only [decide_eq_true_eq]
    omega
  rw [hnone, hall, append_nil]

/-! ## Marks -/

theorem isMark_start : IsMark size start items start := ⟨[], items, rfl, by simp⟩

theorem isMark_finish : IsMark size start items (start + total size items) :=
  ⟨items, [], by simp, rfl⟩

theorem isMark_iff :
    IsMark size start items mark ↔ mark = start ∨ ∃ e ∈ ends size start items, e.1 = mark := by
  induction items generalizing start with
  | nil =>
    constructor
    · rintro ⟨before, after, heq, rfl⟩
      rw [(append_eq_nil_iff.mp heq.symm).1]
      simp
    · rintro (rfl | ⟨e, he, -⟩)
      · exact isMark_start
      · exact absurd he not_mem_nil
  | cons a items ih =>
    have hstep : IsMark size start (a :: items) mark ↔
        mark = start ∨ IsMark size (start + size a) items mark := by
      constructor
      · rintro ⟨before, after, heq, rfl⟩
        cases before with
        | nil => exact .inl (by simp)
        | cons b before =>
          obtain ⟨rfl, rfl⟩ := List.cons.inj heq
          exact .inr ⟨before, after, rfl, by rw [total_cons]; omega⟩
      · rintro (rfl | ⟨before, after, rfl, rfl⟩)
        · exact isMark_start
        · exact ⟨a :: before, after, rfl, by rw [total_cons]; omega⟩
    rw [hstep, ih]
    simp only [ends, mem_cons, exists_eq_or_imp]
    constructor
    · rintro (h | h | h)
      · exact .inl h
      · exact .inr (.inl h.symm)
      · exact .inr (.inr h)
    · rintro (h | h | h)
      · exact .inl h
      · exact .inr (.inl h.symm)
      · exact .inr (.inr h)

theorem IsMark.bounds (h : IsMark size start items mark) :
    start ≤ mark ∧ mark ≤ start + total size items := by
  obtain ⟨before, after, rfl, rfl⟩ := h
  rw [total_append]
  omega

theorem IsMark.append (h : IsMark size start items mark) (added : List α) :
    IsMark size start (items ++ added) mark := by
  obtain ⟨before, after, rfl, rfl⟩ := h
  exact ⟨before, after ++ added, append_assoc .., rfl⟩

theorem IsMark.of_kept (h : IsMark size (start + total size before) after mark) :
    IsMark size start (before ++ after) mark := by
  obtain ⟨kept, rest, rfl, rfl⟩ := h
  exact ⟨before ++ kept, rest, (append_assoc ..).symm, by rw [total_append]; omega⟩

theorem IsMark.kept (h : IsMark size start (before ++ after) mark)
    (hkept : start + total size before ≤ mark) (hpositive : Positive size (before ++ after)) :
    IsMark size (start + total size before) after mark := by
  rw [isMark_iff] at h ⊢
  rcases h with rfl | ⟨e, he, rfl⟩
  · exact .inl (by omega)
  · rw [ends_append] at he
    rcases mem_append.mp he with he | he
    · have := bounds_of_mem_ends hpositive.of_append.1 he
      exact .inl (by omega)
    · exact .inr ⟨e, he, rfl⟩

theorem filter_lt_kept {dropped kept : List α} (hpositive : Positive size (dropped ++ kept))
    (heq : dropped ++ kept = before ++ after)
    (hle : start + total size dropped ≤ start + total size before) :
    (ends size (start + total size dropped) kept).filter
        (fun e => decide (start + total size before < e.1)) =
      ends size (start + total size before) after := by
  have hall := hpositive
  rw [heq] at hall
  have hfilter : (ends size start (dropped ++ kept)).filter
      (fun e => decide (start + total size before < e.1)) =
        ends size (start + total size before) after := by
    rw [heq]
    exact filter_lt_ends hall
  rw [ends_append, filter_append] at hfilter
  have hnone : (ends size start dropped).filter
      (fun e => decide (start + total size before < e.1)) = [] := by
    rw [filter_eq_nil_iff]
    intro e he
    have := bounds_of_mem_ends hpositive.of_append.1 he
    simp only [decide_eq_true_eq]
    omega
  rwa [hnone, nil_append] at hfilter

/-! ## Weights up to a mark -/

/-- What the items up to a position weigh. -/
def weightTo (size weight : α → ℕ) (start : ℕ) (items : List α) (mark : ℕ) : ℕ :=
  (((ends size start items).filter (fun e => decide (e.1 ≤ mark))).map (weight ·.2)).sum

variable {weight : α → ℕ}

theorem sum_map_ends (start : ℕ) (items : List α) :
    ((ends size start items).map (weight ·.2)).sum = total weight items := by
  have hmap : (ends size start items).map (weight ·.2) =
      ((ends size start items).map Prod.snd).map weight := by
    rw [map_map]
    rfl
  rw [hmap, map_snd_ends]
  rfl

theorem weightTo_mark (hpositive : Positive size (before ++ after)) :
    weightTo size weight start (before ++ after) (start + total size before) =
      total weight before := by
  unfold weightTo
  rw [filter_le_ends hpositive, sum_map_ends]

theorem weightTo_finish (hpositive : Positive size items) :
    weightTo size weight start items (start + total size items) = total weight items := by
  have hall : items = items ++ [] := (append_nil items).symm
  rw [hall] at hpositive
  have hmark : weightTo size weight start (items ++ []) (start + total size items) =
      total weight items := weightTo_mark hpositive
  rwa [← hall] at hmark

theorem weightTo_append (hmark : IsMark size start items mark) {added : List α}
    (hpositive : Positive size (items ++ added)) :
    weightTo size weight start (items ++ added) mark = weightTo size weight start items mark := by
  obtain ⟨before, after, rfl, rfl⟩ := hmark
  rw [weightTo_mark hpositive.of_append.1]
  have hassoc : before ++ after ++ added = before ++ (after ++ added) := append_assoc ..
  rw [hassoc] at hpositive ⊢
  exact weightTo_mark hpositive

theorem weightTo_le (hpositive : Positive size items) (hmark : IsMark size start items mark) :
    weightTo size weight start items mark ≤ total weight items := by
  obtain ⟨before, after, rfl, rfl⟩ := hmark
  rw [weightTo_mark hpositive, total_append]
  exact Nat.le_add_right _ _

theorem filter_between_ends {between : List α}
    (hpositive : Positive size (before ++ between ++ after)) :
    (ends size start (before ++ between ++ after)).filter
        (fun e => decide (start + total size before < e.1) &&
          decide (e.1 ≤ start + total size before + total size between)) =
      ends size (start + total size before) between := by
  have hle : (ends size start (before ++ between ++ after)).filter
      (fun e => decide (e.1 ≤ start + total size (before ++ between))) =
        ends size start (before ++ between) := filter_le_ends hpositive
  rw [total_append, ← Nat.add_assoc] at hle
  rw [← filter_filter, hle]
  exact filter_lt_ends hpositive.of_append.1

theorem weight_between (hpositive : Positive size (before ++ after))
    (hmark : IsMark size (start + total size before) after mark)
    (hmark' : IsMark size (start + total size before) after mark') (hle : mark ≤ mark') :
    (((ends size (start + total size before) after).filter
        (fun e => decide (mark < e.1) && decide (e.1 ≤ mark'))).map (weight ·.2)).sum +
      weightTo size weight start (before ++ after) mark =
        weightTo size weight start (before ++ after) mark' := by
  obtain ⟨early, rest, rfl, rfl⟩ := hmark
  obtain ⟨between, late, rfl, rfl⟩ := hmark'.kept hle hpositive.of_append.2
  have hkept := hpositive.of_append.2
  have hassoc : early ++ (between ++ late) = early ++ between ++ late := (append_assoc ..).symm
  rw [hassoc] at hkept ⊢
  rw [filter_between_ends hkept, sum_map_ends]
  have hearly : weightTo size weight start (before ++ (early ++ between ++ late))
      (start + total size before + total size early) = total weight (before ++ early) := by
    have hsplit : before ++ (early ++ between ++ late) = before ++ early ++ (between ++ late) := by
      simp
    have hend : start + total size before + total size early =
        start + total size (before ++ early) := by
      rw [total_append]
      omega
    rw [hsplit, hend]
    rw [hassoc, hsplit] at hpositive
    exact weightTo_mark hpositive
  have hlate : weightTo size weight start (before ++ (early ++ between ++ late))
      (start + total size before + total size early + total size between) =
        total weight (before ++ early ++ between) := by
    have hsplit : before ++ (early ++ between ++ late) = before ++ early ++ between ++ late := by
      simp
    have hend : start + total size before + total size early + total size between =
        start + total size (before ++ early ++ between) := by
      rw [total_append, total_append]
      omega
    rw [hsplit, hend]
    rw [hassoc, hsplit] at hpositive
    exact weightTo_mark hpositive
  rw [hearly, hlate, total_append (before ++ early), Nat.add_comm]

end Laborer.Library.CursorLog
