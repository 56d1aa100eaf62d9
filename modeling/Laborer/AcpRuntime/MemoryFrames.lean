import Laborer.AcpRuntime.MemoryFraming
import Mathlib.Data.List.Pairwise
import Mathlib.Data.List.Perm.Basic

/-!
# Frames

A frame of a memory source is a start delimiter at a boundary and the end delimiter
that follows it with no delimiter between them, at a boundary too. The scan of the
source finds the frames and nothing else, and a frame moves with the text it stands in
when another range is replaced.
-/

namespace Laborer.AcpRuntime

open Laborer.Library List Option

/-! ## Delimiters -/

@[simp]
theorem frameStart_length : memoryEntryFrameStart.length = 36 := by
  decide

@[simp]
theorem frameEnd_length : memoryEntryFrameEnd.length = 34 := by
  decide

theorem frameStart_ne_nil : memoryEntryFrameStart ≠ [] := by
  decide

theorem frameEnd_ne_nil : memoryEntryFrameEnd ≠ [] := by
  decide

theorem frameStart_bracket : ∀ i < 36, memoryEntryFrameStart[i]? = some '<' → i = 0 := by
  decide

theorem frameEnd_bracket : ∀ i < 34, memoryEntryFrameEnd[i]? = some '<' → i = 1 := by
  decide

theorem frameStart_newline : ∀ i < 36, memoryEntryFrameStart[i]? = some '\n' → i = 35 := by
  decide

theorem frameEnd_newline : ∀ i < 34, memoryEntryFrameEnd[i]? = some '\n' → i = 0 := by
  decide

section Overlap

variable {source : List Char} {i j : ℕ}

theorem bracket_of_start (h : Occurs memoryEntryFrameStart source i) : source[i]? = some '<' := by
  have hat := h.getElem? (i := 0) (by decide)
  rw [Nat.add_zero] at hat
  rw [hat]
  decide

theorem newline_of_end (h : Occurs memoryEntryFrameEnd source i) : source[i]? = some '\n' := by
  have hat := h.getElem? (i := 0) (by decide)
  rw [Nat.add_zero] at hat
  rw [hat]
  decide

theorem start_before_start (hi : Occurs memoryEntryFrameStart source i)
    (hj : Occurs memoryEntryFrameStart source j) (hlt : i < j) : i + 36 ≤ j := by
  by_contra hshort
  have hat := hi.getElem? (i := j - i) (by rw [frameStart_length]; omega)
  rw [Nat.add_sub_cancel' hlt.le, bracket_of_start hj] at hat
  have := frameStart_bracket (j - i) (by omega) hat.symm
  omega

theorem start_before_end (hi : Occurs memoryEntryFrameStart source i)
    (hj : Occurs memoryEntryFrameEnd source j) (hle : i ≤ j) : i + 36 ≤ j + 1 := by
  by_contra hshort
  have hat := hi.getElem? (i := j - i) (by rw [frameStart_length]; omega)
  rw [Nat.add_sub_cancel' hle, newline_of_end hj] at hat
  have := frameStart_newline (j - i) (by omega) hat.symm
  omega

theorem end_before_start (hi : Occurs memoryEntryFrameEnd source i)
    (hj : Occurs memoryEntryFrameStart source j) (hle : i ≤ j) : i + 34 ≤ j := by
  by_contra hshort
  have hat := hi.getElem? (i := j - i) (by rw [frameEnd_length]; omega)
  rw [Nat.add_sub_cancel' hle, bracket_of_start hj] at hat
  have hone := frameEnd_bracket (j - i) (by omega) hat.symm
  -- one past its line break the two delimiters go on with different words
  have hend := hi.getElem? (i := 27) (by decide)
  have hstart := hj.getElem? (i := 26) (by decide)
  rw [show j + 26 = i + 27 by omega, hend] at hstart
  revert hstart
  decide

theorem end_before_end (hi : Occurs memoryEntryFrameEnd source i)
    (hj : Occurs memoryEntryFrameEnd source j) (hlt : i < j) : i + 34 ≤ j := by
  by_contra hshort
  have hat := hi.getElem? (i := j - i) (by rw [frameEnd_length]; omega)
  rw [Nat.add_sub_cancel' hlt.le, newline_of_end hj] at hat
  have := frameEnd_newline (j - i) (by omega) hat.symm
  omega

end Overlap

/-! ## Frames -/

/-- A frame with its start delimiter at `i` and its end delimiter at `k`. -/
structure IsFrame (source : List Char) (i k : ℕ) : Prop where
  start : Occurs memoryEntryFrameStart source i
  startBoundary : startsAtEntryBoundary source i
  content : i + 36 ≤ k
  noStart : ∀ j, i + 36 ≤ j → j < k → ¬ Occurs memoryEntryFrameStart source j
  noEnd : ∀ j, i + 36 ≤ j → j < k → ¬ Occurs memoryEntryFrameEnd source j
  stop : Occurs memoryEntryFrameEnd source k
  endBoundary : endsAtEntryBoundary source (k + 34)

def entryAt (source : List Char) (span : ℕ × ℕ) : FramedMemoryEntry where
  content := slice source (span.1 + 36) span.2
  contentEnd := span.2
  contentStart := span.1 + 36
  frameEnd := span.2 + 34
  frameStart := span.1

theorem IsFrame.eq_of_start {source : List Char} {i k k' : ℕ} (h : IsFrame source i k)
    (h' : IsFrame source i k') : k = k' := by
  by_contra hne
  rcases Nat.lt_or_gt_of_ne hne with hlt | hlt
  · exact h'.noEnd k h.content hlt h.stop
  · exact h.noEnd k' h'.content hlt h'.stop

theorem IsFrame.before {source : List Char} {i k i' k' : ℕ} (h : IsFrame source i k)
    (h' : IsFrame source i' k') (hlt : i < i') : k + 34 ≤ i' := by
  have hstart := start_before_start h.start h'.start hlt
  by_contra hover
  by_cases hle : k ≤ i'
  · exact hover (end_before_start h.stop h'.start hle)
  · exact h.noStart i' hstart (by omega) h'.start

/-! ## The scan -/

theorem mem_framedMemoryEntriesFrom_iff {source : List Char} {fuel fromIndex : ℕ}
    (hfuel : source.length ≤ fromIndex + fuel) {entry : FramedMemoryEntry} :
    entry ∈ framedMemoryEntriesFrom source fuel fromIndex ↔
      ∃ i k, fromIndex ≤ i ∧ IsFrame source i k ∧ entry = entryAt source (i, k) := by
  induction fuel generalizing fromIndex with
  | zero =>
    simp only [framedMemoryEntriesFrom, not_mem_nil, false_iff]
    rintro ⟨i, k, hfrom, hframe, -⟩
    have := hframe.start.length_le frameStart_ne_nil
    rw [frameStart_length] at this
    omega
  | succ fuel ih =>
    rw [framedMemoryEntriesFrom]
    split
    · next hlt =>
      -- a turn that moves on past starts which begin no frame keeps the frames
      have hskip : ∀ next, fromIndex < next →
          (∀ i k, fromIndex ≤ i → i < next → ¬ IsFrame source i k) →
          (entry ∈ framedMemoryEntriesFrom source fuel next ↔
            ∃ i k, fromIndex ≤ i ∧ IsFrame source i k ∧ entry = entryAt source (i, k)) := by
        intro next hnext hnone
        rw [ih (show source.length ≤ next + fuel by omega)]
        constructor
        · rintro ⟨i, k, hle, hframe, rfl⟩
          exact ⟨i, k, by omega, hframe, rfl⟩
        · rintro ⟨i, k, hle, hframe, rfl⟩
          refine ⟨i, k, ?_, hframe, rfl⟩
          by_contra hbefore
          exact hnone i k hle (by omega) hframe
      cases hstart : indexOf source memoryEntryFrameStart fromIndex with
      | none =>
        simp only [not_mem_nil, false_iff]
        rintro ⟨i, k, hfrom, hframe, -⟩
        exact indexOf_eq_none hstart hfrom hframe.start
      | some frameStart =>
        obtain ⟨hfrom, hoccurs, hfirst⟩ := indexOf_eq_some hstart
        dsimp only
        split
        · next hboundary =>
          rw [frameStart_length]
          cases hend : indexOf source memoryEntryFrameEnd (frameStart + 36) with
          | none =>
            simp only [not_mem_nil, false_iff]
            rintro ⟨i, k, hi, hframe, -⟩
            have hle : frameStart ≤ i := by
              by_contra hlt
              exact hfirst i hi (by omega) hframe.start
            exact indexOf_eq_none hend (by have := hframe.content; omega) hframe.stop
          | some endStart =>
            obtain ⟨hendFrom, hendOccurs, hendFirst⟩ := indexOf_eq_some hend
            dsimp only
            cases hnested : (indexOf source memoryEntryFrameStart (frameStart + 36)).filter
                (· < endStart) with
            | some nestedStart =>
              obtain ⟨hindex, hbefore⟩ := filter_eq_some_iff.mp hnested
              rw [decide_eq_true_eq] at hbefore
              obtain ⟨hnestedFrom, hnestedOccurs, hnestedFirst⟩ := indexOf_eq_some hindex
              refine hskip nestedStart (by omega) fun i k hi hlt hframe => ?_
              rcases Nat.lt_trichotomy i frameStart with h | rfl | h
              · exact hfirst i hi h hframe.start
              · -- a start delimiter stands between the two
                have hk : endStart ≤ k := by
                  by_contra hshort
                  exact hendFirst k hframe.content (by omega) hframe.stop
                exact hframe.noStart nestedStart hnestedFrom (by omega) hnestedOccurs
              · have := start_before_start hoccurs hframe.start h
                exact hnestedFirst i this hlt hframe.start
            | none =>
              have hnoStart : ∀ j, frameStart + 36 ≤ j → j < endStart →
                  ¬ Occurs memoryEntryFrameStart source j := by
                intro j hj hlt hat
                cases hindex : indexOf source memoryEntryFrameStart (frameStart + 36) with
                | none => exact indexOf_eq_none hindex hj hat
                | some nestedStart =>
                  rw [hindex] at hnested
                  obtain ⟨-, -, hnestedFirst⟩ := indexOf_eq_some hindex
                  have hlate : endStart ≤ nestedStart := by
                    by_contra hearly
                    rw [filter_some, if_pos (by simpa using hearly)] at hnested
                    cases hnested
                  exact hnestedFirst j hj (by omega) hat
              dsimp only
              rw [frameEnd_length]
              split
              · next hendBoundary =>
                have hframe : IsFrame source frameStart endStart :=
                  ⟨hoccurs, hboundary, hendFrom, hnoStart, hendFirst, hendOccurs, hendBoundary⟩
                rw [mem_cons, ih (show source.length ≤ endStart + 34 + fuel by omega)]
                constructor
                · rintro (rfl | ⟨i, k, hi, hframe', rfl⟩)
                  · exact ⟨frameStart, endStart, hfrom, hframe, rfl⟩
                  · exact ⟨i, k, by omega, hframe', rfl⟩
                · rintro ⟨i, k, hi, hframe', rfl⟩
                  rcases Nat.lt_trichotomy i frameStart with h | rfl | h
                  · exact absurd hframe'.start (hfirst i hi h)
                  · left
                    rw [hframe.eq_of_start hframe']
                    rfl
                  · exact .inr ⟨i, k, hframe.before hframe' h, hframe', rfl⟩
              · next hendBoundary =>
                refine hskip (frameStart + 1) (by omega) fun i k hi hlt hframe => ?_
                rcases Nat.lt_or_eq_of_le (Nat.lt_succ_iff.mp hlt) with h | rfl
                · exact hfirst i hi h hframe.start
                · have hk : k = endStart := by
                    by_contra hne
                    rcases Nat.lt_or_gt_of_ne hne with hlt | hlt
                    · exact hendFirst k hframe.content hlt hframe.stop
                    · exact hframe.noEnd endStart hendFrom hlt hendOccurs
                  exact hendBoundary (hk ▸ hframe.endBoundary)
        · next hboundary =>
          refine hskip (frameStart + 1) (by omega) fun i k hi hlt hframe => ?_
          rcases Nat.lt_or_eq_of_le (Nat.lt_succ_iff.mp hlt) with h | rfl
          · exact hfirst i hi h hframe.start
          · exact hboundary hframe.startBoundary
    · next hlt =>
      simp only [not_mem_nil, false_iff]
      rintro ⟨i, k, hfrom, hframe, -⟩
      have := hframe.start.length_le frameStart_ne_nil
      rw [frameStart_length] at this
      omega

theorem mem_framedMemoryEntries_iff {source : List Char} {entry : FramedMemoryEntry} :
    entry ∈ framedMemoryEntries source ↔
      ∃ i k, IsFrame source i k ∧ entry = entryAt source (i, k) := by
  rw [framedMemoryEntries, mem_framedMemoryEntriesFrom_iff (by omega)]
  simp

/-! ## Boundaries in a longer text -/

section Boundaries

variable {a b : List Char}

theorem slice_append_left {i j : ℕ} (h : j ≤ a.length) : slice (a ++ b) i j = slice a i j := by
  unfold slice
  by_cases hij : i ≤ a.length
  · rw [drop_append_of_le_length hij, take_append_of_le_length]
    rw [length_drop]
    omega
  · rw [show j - i = 0 by omega, take_zero, take_zero]

theorem slice_append_right (i j : ℕ) :
    slice (a ++ b) (a.length + i) (a.length + j) = slice b i j := by
  unfold slice
  rw [← drop_drop, drop_left, show a.length + j - (a.length + i) = j - i by omega]

theorem startsAtEntryBoundary_append {i : ℕ} (h : i ≤ a.length) :
    startsAtEntryBoundary (a ++ b) i = startsAtEntryBoundary a i := by
  unfold startsAtEntryBoundary
  rw [slice_append_left h]

theorem endsAtEntryBoundary_append (i : ℕ) :
    endsAtEntryBoundary (a ++ b) (a.length + i) = endsAtEntryBoundary b i := by
  unfold endsAtEntryBoundary
  rw [Nat.add_assoc, slice_append_right, length_append]
  simp

end Boundaries

/-! ## Frames in a longer text -/

section Splices

variable {a b m r x y : List Char} {i k : ℕ}

theorem IsFrame.append_left (h : IsFrame (a ++ x) i k) (hk : k + 34 ≤ a.length)
    (hend : endsAtEntryBoundary (a ++ x) (k + 34) = endsAtEntryBoundary (a ++ y) (k + 34)) :
    IsFrame (a ++ y) i k := by
  have hcontent := h.content
  refine
    { start := ?_
      startBoundary := ?_
      content := hcontent
      noStart := fun j hj hlt hat => h.noStart j hj hlt ?_
      noEnd := fun j hj hlt hat => h.noEnd j hj hlt ?_
      stop := ?_
      endBoundary := hend ▸ h.endBoundary }
  · rw [occurs_append_left (by rw [frameStart_length]; omega)]
    exact (occurs_append_left (by rw [frameStart_length]; omega)).mp h.start
  · rw [startsAtEntryBoundary_append (by omega)]
    rw [← startsAtEntryBoundary_append (b := x) (by omega)]
    exact h.startBoundary
  · have hstop : Occurs memoryEntryFrameEnd (a ++ y) k := by
      rw [occurs_append_left (by rw [frameEnd_length]; omega)]
      exact (occurs_append_left (by rw [frameEnd_length]; omega)).mp h.stop
    have := start_before_end hat hstop (by omega)
    rw [occurs_append_left (by rw [frameStart_length]; omega)] at hat ⊢
    exact hat
  · rw [occurs_append_left (by rw [frameEnd_length]; omega)] at hat ⊢
    exact hat
  · rw [occurs_append_left (by rw [frameEnd_length]; omega)]
    exact (occurs_append_left (by rw [frameEnd_length]; omega)).mp h.stop

theorem IsFrame.append_right (h : IsFrame (x ++ b) (x.length + i) (x.length + k))
    (hstart : startsAtEntryBoundary (x ++ b) (x.length + i) =
      startsAtEntryBoundary (y ++ b) (y.length + i)) :
    IsFrame (y ++ b) (y.length + i) (y.length + k) := by
  have hcontent := h.content
  refine
    { start := ?_
      startBoundary := hstart ▸ h.startBoundary
      content := by omega
      noStart := fun j hj hlt hat => ?_
      noEnd := fun j hj hlt hat => ?_
      stop := ?_
      endBoundary := ?_ }
  · exact (occurs_append_right i).mpr ((occurs_append_right i).mp h.start)
  · obtain ⟨d, rfl⟩ := Nat.exists_eq_add_of_le (show y.length ≤ j by omega)
    exact h.noStart (x.length + d) (by omega) (by omega)
      ((occurs_append_right d).mpr ((occurs_append_right d).mp hat))
  · obtain ⟨d, rfl⟩ := Nat.exists_eq_add_of_le (show y.length ≤ j by omega)
    exact h.noEnd (x.length + d) (by omega) (by omega)
      ((occurs_append_right d).mpr ((occurs_append_right d).mp hat))
  · exact (occurs_append_right k).mpr ((occurs_append_right k).mp h.stop)
  · rw [Nat.add_assoc, endsAtEntryBoundary_append, ← endsAtEntryBoundary_append (a := x),
      ← Nat.add_assoc]
    exact h.endBoundary

structure Apart (a m b : List Char) : Prop where
  start : ∀ i, Occurs memoryEntryFrameStart (a ++ (m ++ b)) i →
    i + 36 ≤ a.length ∨ a.length + m.length ≤ i
  stop : ∀ k, Occurs memoryEntryFrameEnd (a ++ (m ++ b)) k →
    k + 34 ≤ a.length ∨ a.length + m.length ≤ k

/-- Putting `r` in the place of `m` keeps the boundaries of the delimiters beside the
range. -/
structure KeepsBoundaries (a m r b : List Char) : Prop where
  before : ∀ i, Occurs memoryEntryFrameStart b i →
    startsAtEntryBoundary (a ++ (m ++ b)) (a.length + m.length + i) =
      startsAtEntryBoundary (a ++ (r ++ b)) (a.length + r.length + i)
  after : ∀ k, Occurs memoryEntryFrameEnd a k →
    endsAtEntryBoundary (a ++ (m ++ b)) (k + 34) = endsAtEntryBoundary (a ++ (r ++ b)) (k + 34)

/-- It neither breaks nor makes a delimiter, and keeps the boundaries beside it. -/
structure LeavesDelimiters (a m r b : List Char) : Prop extends KeepsBoundaries a m r b where
  apart : Apart a m b
  apart' : Apart a r b

theorem LeavesDelimiters.symm (h : LeavesDelimiters a m r b) : LeavesDelimiters a r m b where
  apart := h.apart'
  apart' := h.apart
  before i hi := (h.before i hi).symm
  after k hk := (h.after k hk).symm

def moved (a m r : List Char) (i : ℕ) : ℕ :=
  if i < a.length then i else i - m.length + r.length

theorem occurs_assoc {pattern : List Char} (hi : a.length + m.length ≤ i) :
    Occurs pattern (a ++ (m ++ b)) i ↔
      Occurs pattern (a ++ (r ++ b)) (i - m.length + r.length) := by
  obtain ⟨d, rfl⟩ := Nat.exists_eq_add_of_le hi
  rw [show a.length + m.length + d - m.length + r.length = a.length + (r.length + d) by omega,
    Nat.add_assoc]
  simp only [occurs_append_right]

/-- **A frame moves with the text when the delimiters are left alone.** -/
theorem IsFrame.splice (h : LeavesDelimiters a m r b) (hframe : IsFrame (a ++ (m ++ b)) i k) :
    IsFrame (a ++ (r ++ b)) (moved a m r i) (moved a m r k) := by
  have hcontent := hframe.content
  rcases h.apart.start i hframe.start with hi | hi
  · rcases h.apart.stop k hframe.stop with hk | hk
    · -- before the range
      rw [moved, if_pos (by omega), moved, if_pos (by omega)]
      refine hframe.append_left hk (h.after k ?_)
      exact (occurs_append_left (by rw [frameEnd_length]; omega)).mp hframe.stop
    · -- around the range
      rw [moved, if_pos (by omega), moved, if_neg (by omega)]
      have hstop := (occurs_assoc (r := r) hk).mp hframe.stop
      refine
        { start := ?_
          startBoundary := ?_
          content := by omega
          noStart := fun j hj hlt hat => ?_
          noEnd := fun j hj hlt hat => ?_
          stop := hstop
          endBoundary := ?_ }
      · rw [occurs_append_left (by rw [frameStart_length]; omega)]
        exact (occurs_append_left (by rw [frameStart_length]; omega)).mp hframe.start
      · rw [startsAtEntryBoundary_append (by omega)]
        rw [← startsAtEntryBoundary_append (b := m ++ b) (by omega)]
        exact hframe.startBoundary
      · rcases h.apart'.start j hat with hj' | hj'
        · refine hframe.noStart j hj (by omega) ?_
          rw [occurs_append_left (by rw [frameStart_length]; omega)] at hat ⊢
          exact hat
        · refine hframe.noStart (j - r.length + m.length) (by omega) (by omega) ?_
          exact (occurs_assoc hj').mp hat
      · rcases h.apart'.stop j hat with hj' | hj'
        · refine hframe.noEnd j hj (by omega) ?_
          rw [occurs_append_left (by rw [frameEnd_length]; omega)] at hat ⊢
          exact hat
        · refine hframe.noEnd (j - r.length + m.length) (by omega) (by omega) ?_
          exact (occurs_assoc hj').mp hat
      · obtain ⟨d, rfl⟩ := Nat.exists_eq_add_of_le hk
        have hend := hframe.endBoundary
        rw [Nat.add_assoc, Nat.add_assoc, endsAtEntryBoundary_append,
          endsAtEntryBoundary_append] at hend
        rw [show a.length + m.length + d - m.length + r.length + 34 =
          a.length + (r.length + (d + 34)) by omega, endsAtEntryBoundary_append,
          endsAtEntryBoundary_append]
        exact hend
  · -- after the range
    obtain ⟨d, rfl⟩ := Nat.exists_eq_add_of_le hi
    obtain ⟨e, rfl⟩ := Nat.exists_eq_add_of_le (show a.length + m.length ≤ k by omega)
    rw [moved, if_neg (by omega), moved, if_neg (by omega)]
    have hstatus := h.before d (by
      have hstart := hframe.start
      rwa [Nat.add_assoc, occurs_append_right, occurs_append_right] at hstart)
    rw [← append_assoc, ← length_append] at hframe
    rw [← append_assoc, ← append_assoc, ← length_append, ← length_append] at hstatus
    have := hframe.append_right hstatus
    rw [length_append] at this
    rw [← append_assoc,
      show a.length + m.length + d - m.length + r.length = a.length + r.length + d by omega,
      show a.length + m.length + e - m.length + r.length = a.length + r.length + e by omega]
    exact this

end Splices

end Laborer.AcpRuntime
