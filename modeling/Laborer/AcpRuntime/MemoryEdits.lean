import Laborer.AcpRuntime.MemoryPieces

/-!
# Edits of pieces

What becomes of the pieces of a memory source when a range in the body of one of them is
replaced, and when an entry is put between two texts or taken out.
-/

namespace Laborer.AcpRuntime

open Laborer.Library List

/-! ## Replacing a range -/

section Replace

variable {a b m r : List Char}

theorem moved_moved {i : ℕ} (h : i < a.length ∨ a.length + r.length ≤ i) :
    moved a m r (moved a r m i) = i := by
  unfold moved
  rcases h with h | h
  · rw [if_pos h, if_pos h]
  · have hlate : ¬ i < a.length := by omega
    rw [if_neg hlate, if_neg (by omega)]
    omega

theorem isFrame_splice_iff (h : LeavesDelimiters a m r b) {i k : ℕ} : IsFrame (a ++ (r ++ b)) i k ↔
      ∃ i' k', IsFrame (a ++ (m ++ b)) i' k' ∧ i = moved a m r i' ∧ k = moved a m r k' := by
  constructor
  · intro hframe
    refine ⟨_, _, hframe.splice h.symm, ?_, ?_⟩
    · have := h.apart'.start i hframe.start
      exact (moved_moved (by omega)).symm
    · have := h.apart'.stop k hframe.stop
      exact (moved_moved (by omega)).symm
  · rintro ⟨i', k', hframe, rfl, rfl⟩
    exact hframe.splice h

/-- The spans move with the range that is replaced in a body. -/
theorem spansFrom_replace (before after : List Piece) (piece : Piece) (x y : List Char) :
    spansFrom (before ++ piece.withBody (x ++ (r ++ y)) :: after) 0 =
      (spansFrom (before ++ piece.withBody (x ++ (m ++ y)) :: after) 0).map fun span =>
        (moved (render before ++ (piece.opening ++ x)) m r span.1,
          moved (render before ++ (piece.opening ++ x)) m r span.2) := by
  rw [spansFrom_append, spansFrom_append, map_append]
  -- what stands before the piece stays
  have hbefore : (spansFrom before 0).map (fun span =>
      (moved (render before ++ (piece.opening ++ x)) m r span.1,
        moved (render before ++ (piece.opening ++ x)) m r span.2)) = spansFrom before 0 := by
    refine (map_congr_left fun span h => ?_).trans (map_id _)
    have := span_bounds h
    rw [moved, moved, if_pos (by rw [length_append]; omega), if_pos (by rw [length_append]; omega)]
    rfl
  -- what stands after it moves by as much as the range grows
  have hafter : ∀ start start', start + r.length = start' + m.length →
      (render before).length + piece.opening.length + x.length + m.length ≤ start →
      spansFrom after start' = (spansFrom after start).map fun span =>
        (moved (render before ++ (piece.opening ++ x)) m r span.1,
          moved (render before ++ (piece.opening ++ x)) m r span.2) := by
    intro start start' hgrow hstart
    have hzero : ∀ index, spansFrom after index =
        (spansFrom after 0).map fun span => (span.1 + index, span.2 + index) := fun index => by
      rw [← spansFrom_add, Nat.zero_add]
    rw [hzero start, hzero start', map_map]
    refine map_congr_left fun span _ => ?_
    simp only [Function.comp_apply, moved, length_append]
    rw [if_neg (by omega), if_neg (by omega)]
    exact Prod.ext (by dsimp only; omega) (by dsimp only; omega)
  rw [hbefore]
  congr 1
  cases piece with
  | text body =>
    simp only [Piece.withBody, spansFrom, Piece.opening, length_append, length_nil,
      Nat.zero_add] at hafter ⊢
    exact hafter _ _ (by omega) (by omega)
  | entry body =>
    simp only [Piece.withBody, spansFrom, Piece.opening, length_append, frameStart_length,
      Nat.zero_add, map_cons] at hafter ⊢
    rw [hafter ((render before).length + 36 + (x.length + (m.length + y.length)) + 34) _
      (by omega) (by omega)]
    congr 1
    simp only [moved, length_append, frameStart_length]
    rw [if_pos (by omega), if_neg (by omega)]
    exact Prod.ext rfl (by dsimp only; omega)

/-- **Replacing a range of a body replaces it in that piece, and leaves the others.** -/
theorem piecesOf_replace {source : List Char} {before after : List Piece} {piece : Piece}
    {x y : List Char} (hpieces : piecesOf source = before ++ piece :: after)
    (hbody : piece.body = x ++ (m ++ y))
    (h : LeavesDelimiters (render before ++ (piece.opening ++ x)) m r
      (y ++ (piece.closing ++ render after))) : piecesOf (render before ++ (piece.opening ++ x) ++
      (r ++ (y ++ (piece.closing ++ render after)))) =
        before ++ piece.withBody (x ++ (r ++ y)) :: after := by
  have hsource : source = render before ++ (piece.opening ++ x) ++
      (m ++ (y ++ (piece.closing ++ render after))) := by
    rw [← render_piecesOf source, hpieces]
    simp [Piece.rendered, hbody]
  have hresult : render before ++ (piece.opening ++ x) ++
      (r ++ (y ++ (piece.closing ++ render after))) =
        render (before ++ piece.withBody (x ++ (r ++ y)) :: after) := by
    simp [Piece.rendered]
  have halternates := alternates_piecesOf source
  rw [hpieces] at halternates
  rw [hresult]
  refine piecesOf_render (halternates.replace (Piece.withBody_isEntry _ _)) fun i k => ?_
  rw [← hresult, isFrame_splice_iff h, ← hsource,
    spansFrom_replace (m := m) before after piece x y, ← hbody, Piece.withBody_self, ← hpieces]
  simp only [mem_map, Prod.exists, mem_spansFrom_piecesOf, Prod.mk.injEq]
  constructor
  · rintro ⟨i', k', hframe, rfl, rfl⟩
    exact ⟨i', k', hframe, rfl, rfl⟩
  · rintro ⟨i', k', hframe, rfl, rfl⟩
    exact ⟨i', k', hframe, rfl, rfl⟩

end Replace

/-! ## Putting an entry in -/

section Insert

variable {a b m : List Char}

theorem moved_nil (i : ℕ) : moved a [] m i = if i < a.length then i else i + m.length :=
  rfl

theorem moved_nil_injective {i i' : ℕ} (h : moved a [] m i = moved a [] m i') : i = i' := by
  rw [moved_nil, moved_nil] at h
  split at h <;> split at h <;> omega

/-- What an entry with its separator needs of the text it stands in: it is a frame
there, no delimiter of another frame lies in its range, no frame reaches across the
place without it, and the boundaries beside it do not depend on it. -/
structure StandsApart (a m b : List Char) (i k : ℕ) : Prop extends KeepsBoundaries a m [] b where
  frame : IsFrame (a ++ (m ++ b)) i k
  low : a.length ≤ i
  high : k + 34 ≤ a.length + m.length
  gapBefore : ∀ k', Occurs memoryEntryFrameEnd (a ++ (m ++ b)) k' → k' + 34 ≤ i →
    k' + 34 ≤ a.length
  gapAfter : ∀ i', Occurs memoryEntryFrameStart (a ++ (m ++ b)) i' → k + 34 ≤ i' →
    a.length + m.length ≤ i'
  across : ∀ i' k', IsFrame (a ++ b) i' k' → k' + 34 ≤ a.length ∨ a.length ≤ i'

/-- The frames with an entry more are the entry's and the others, moved. -/
theorem isFrame_insert_iff {i₀ k₀ : ℕ} (h : StandsApart a m b i₀ k₀) {i k : ℕ} :
    IsFrame (a ++ (m ++ b)) i k ↔ (i = i₀ ∧ k = k₀) ∨
      ∃ i' k', IsFrame (a ++ b) i' k' ∧ i = moved a [] m i' ∧ k = moved a [] m k' := by
  constructor
  · intro hframe
    have hcontent := hframe.content
    rcases Nat.lt_trichotomy i i₀ with hlt | rfl | hlt
    · -- before the entry
      have hk := h.gapBefore k hframe.stop (hframe.before h.frame hlt)
      refine .inr ⟨i, k, hframe.append_left hk ?_, ?_, ?_⟩
      · refine h.after k ?_
        exact (occurs_append_left (by rw [frameEnd_length]; omega)).mp hframe.stop
      · rw [moved_nil, if_pos (by omega)]
      · rw [moved_nil, if_pos (by omega)]
    · exact .inl ⟨rfl, hframe.eq_of_start h.frame⟩
    · -- after the entry
      have hi := h.gapAfter i hframe.start (h.frame.before hframe hlt)
      obtain ⟨d, rfl⟩ := Nat.exists_eq_add_of_le hi
      obtain ⟨e, rfl⟩ := Nat.exists_eq_add_of_le (show a.length + m.length ≤ k by omega)
      have hstart : Occurs memoryEntryFrameStart b d := by
        have := hframe.start
        rwa [Nat.add_assoc, occurs_append_right, occurs_append_right] at this
      have hstatus := h.before d hstart
      rw [← append_assoc, ← length_append] at hframe hstatus
      refine .inr ⟨a.length + d, a.length + e, hframe.append_right hstatus, ?_, ?_⟩
      · rw [moved_nil, if_neg (by omega)]
        omega
      · rw [moved_nil, if_neg (by omega)]
        omega
  · rintro (⟨rfl, rfl⟩ | ⟨i, k, hframe, rfl, rfl⟩)
    · exact h.frame
    · have hcontent := hframe.content
      rcases h.across i k hframe with hk | hi
      · rw [moved_nil, if_pos (by omega), moved_nil, if_pos (by omega)]
        refine hframe.append_left hk (h.after k ?_).symm
        exact (occurs_append_left (by rw [frameEnd_length]; omega)).mp hframe.stop
      · obtain ⟨d, rfl⟩ := Nat.exists_eq_add_of_le hi
        obtain ⟨e, rfl⟩ := Nat.exists_eq_add_of_le (show a.length ≤ k by omega)
        rw [moved_nil, if_neg (by omega), moved_nil, if_neg (by omega)]
        have hstatus := h.before d ((occurs_append_right d).mp hframe.start)
        rw [nil_append, length_nil, Nat.add_zero, ← append_assoc, ← length_append] at hstatus
        have := hframe.append_right hstatus.symm
        rw [length_append, append_assoc] at this
        rwa [show a.length + d + m.length = a.length + m.length + d by omega,
          show a.length + e + m.length = a.length + m.length + e by omega]

theorem mem_spansFrom_insert {before after : List Piece} {t₁ t₂ y₁ y₂ c : List Char} {i k : ℕ} :
    (i, k) ∈ spansFrom (before ++ .text (t₁ ++ y₁) :: .entry c :: .text (y₂ ++ t₂) :: after) 0 ↔
      (i = (render before).length + t₁.length + y₁.length ∧
          k = (render before).length + t₁.length + y₁.length + 36 + c.length) ∨
        ∃ i' k', (i', k') ∈ spansFrom (before ++ .text (t₁ ++ t₂) :: after) 0 ∧
          i = moved (render before ++ t₁) []
            (y₁ ++ (memoryEntryFrameStart ++ (c ++ (memoryEntryFrameEnd ++ y₂)))) i' ∧
          k = moved (render before ++ t₁) []
            (y₁ ++ (memoryEntryFrameStart ++ (c ++ (memoryEntryFrameEnd ++ y₂)))) k' := by
  have hzero : ∀ index, spansFrom after index =
      (spansFrom after 0).map fun span => (span.1 + index, span.2 + index) := fun index => by
    rw [← spansFrom_add, Nat.zero_add]
  simp only [spansFrom_append, spansFrom, mem_append, mem_cons, Prod.mk.injEq,
    Nat.zero_add, length_append]
  rw [hzero ((render before).length + (t₁.length + t₂.length)),
    hzero ((render before).length + (t₁.length + y₁.length) + 36 + c.length + 34 +
      (y₂.length + t₂.length))]
  simp only [mem_map, Prod.exists, Prod.mk.injEq, moved_nil, length_append,
    frameStart_length, frameEnd_length]
  constructor
  · rintro (h | ⟨hi, hk⟩ | ⟨i, k, h, rfl, rfl⟩)
    · have := span_bounds h
      refine .inr ⟨i, k, .inl h, ?_, ?_⟩
      · rw [if_pos (by dsimp only at this; omega)]
      · rw [if_pos (by dsimp only at this; omega)]
    · exact .inl ⟨by omega, by omega⟩
    · refine .inr ⟨_, _, .inr ⟨i, k, h, rfl, rfl⟩, ?_, ?_⟩
      · rw [if_neg (by omega)]
        omega
      · rw [if_neg (by omega)]
        omega
  · rintro (⟨rfl, rfl⟩ | ⟨i', k', h | ⟨i, k, h, rfl, rfl⟩, rfl, rfl⟩)
    · exact .inr (.inl ⟨by omega, by omega⟩)
    · have := span_bounds h
      left
      rw [if_pos (by dsimp only at this; omega), if_pos (by dsimp only at this; omega)]
      exact h
    · refine .inr (.inr ⟨i, k, h, ?_, ?_⟩)
      · rw [if_neg (by omega)]
        omega
      · rw [if_neg (by omega)]
        omega

/-- **An entry with its separator stands between the halves of a text, or is gone from
there, and the other pieces are the same.** -/
theorem piecesOf_insert_iff {before after : List Piece} {t₁ t₂ y₁ y₂ c : List Char}
    (h : StandsApart (render before ++ t₁)
      (y₁ ++ (memoryEntryFrameStart ++ (c ++ (memoryEntryFrameEnd ++ y₂)))) (t₂ ++ render after)
      ((render before).length + t₁.length + y₁.length)
      ((render before).length + t₁.length + y₁.length + 36 + c.length)) :
    piecesOf (render before ++ t₁ ++
        (y₁ ++ (memoryEntryFrameStart ++ (c ++ (memoryEntryFrameEnd ++ y₂))) ++
          (t₂ ++ render after))) =
        before ++ .text (t₁ ++ y₁) :: .entry c :: .text (y₂ ++ t₂) :: after ↔
      piecesOf (render before ++ t₁ ++ (t₂ ++ render after)) =
        before ++ .text (t₁ ++ t₂) :: after := by
  have hwith : render before ++ t₁ ++
      (y₁ ++ (memoryEntryFrameStart ++ (c ++ (memoryEntryFrameEnd ++ y₂))) ++
        (t₂ ++ render after)) =
      render (before ++ .text (t₁ ++ y₁) :: .entry c :: .text (y₂ ++ t₂) :: after) := by
    simp [Piece.rendered, Piece.opening, Piece.body, Piece.closing]
  have hwithout : render before ++ t₁ ++ (t₂ ++ render after) =
      render (before ++ .text (t₁ ++ t₂) :: after) := by
    simp [Piece.rendered, Piece.opening, Piece.body, Piece.closing]
  constructor
  · intro hpieces
    have halternates := alternates_piecesOf
      (render (before ++ .text (t₁ ++ y₁) :: .entry c :: .text (y₂ ++ t₂) :: after))
    rw [← hwith, hpieces] at halternates
    rw [hwithout]
    refine piecesOf_render (alternates_insert_iff.mp halternates) fun i k => ?_
    rw [← hwithout]
    -- a frame without the entry, moved, is one with it, and not the entry's
    have hother : ∀ i k, ¬ (moved (render before ++ t₁) []
        (y₁ ++ (memoryEntryFrameStart ++ (c ++ (memoryEntryFrameEnd ++ y₂)))) i =
          (render before).length + t₁.length + y₁.length ∧
        moved (render before ++ t₁) []
          (y₁ ++ (memoryEntryFrameStart ++ (c ++ (memoryEntryFrameEnd ++ y₂)))) k =
          (render before).length + t₁.length + y₁.length + 36 + c.length) := by
      rintro i k ⟨hi, -⟩
      simp only [moved_nil, length_append, frameStart_length, frameEnd_length] at hi
      split at hi <;> omega
    have hmem : ∀ i k, IsFrame (render before ++ t₁ ++
        (y₁ ++ (memoryEntryFrameStart ++ (c ++ (memoryEntryFrameEnd ++ y₂))) ++
          (t₂ ++ render after))) i k ↔
        (i, k) ∈ spansFrom
          (before ++ .text (t₁ ++ y₁) :: .entry c :: .text (y₂ ++ t₂) :: after) 0 := fun i k => by
      rw [← mem_spansFrom_piecesOf, hpieces]
    constructor
    · intro hframe
      have hmoved := (hmem _ _).mp ((isFrame_insert_iff h).mpr (.inr ⟨i, k, hframe, rfl, rfl⟩))
      obtain heq | ⟨i', k', hspan, hi, hk⟩ := mem_spansFrom_insert.mp hmoved
      · exact absurd heq (hother i k)
      · rw [moved_nil_injective hi, moved_nil_injective hk]
        exact hspan
    · intro hspan
      have hmoved := (hmem _ _).mpr (mem_spansFrom_insert.mpr (.inr ⟨i, k, hspan, rfl, rfl⟩))
      obtain heq | ⟨i', k', hframe, hi, hk⟩ := (isFrame_insert_iff h).mp hmoved
      · exact absurd heq (hother i k)
      · rw [moved_nil_injective hi, moved_nil_injective hk]
        exact hframe
  · intro hpieces
    have halternates := alternates_piecesOf (render (before ++ .text (t₁ ++ t₂) :: after))
    rw [← hwithout, hpieces] at halternates
    rw [hwith]
    refine piecesOf_render (alternates_insert_iff.mpr halternates) fun i k => ?_
    rw [← hwith, isFrame_insert_iff h, mem_spansFrom_insert, ← hpieces]
    simp only [mem_spansFrom_piecesOf]

end Insert

end Laborer.AcpRuntime
