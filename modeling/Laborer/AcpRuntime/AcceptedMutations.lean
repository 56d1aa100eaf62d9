import Laborer.AcpRuntime.MemoryMutations
import Laborer.Library.Transactions

/-!
# Accepted mutations

Each accepted mutation of a memory edits the pieces of its source, and so what the model
sees, in one place, as long as it leaves the delimiters of the frames alone. Removing
what was just added gives back the source in any case.
-/

namespace Laborer.AcpRuntime

open Laborer.Library List Option

/-! ## Splices -/

/-- An entry is added, a range in a piece is replaced, or a whole entry is removed. -/
inductive EditKind where
  | added | within | entry
deriving DecidableEq

structure Splice where
  kind : EditKind
  before : List Char
  removed : List Char
  inserted : List Char
  after : List Char
deriving DecidableEq

/-- What an accepted mutation puts where, if it does anything. -/
def spliceOf (source : List Char) (mutation : MemoryMutation) : Option Splice :=
  if mutation.operation = .add then
    if hasExactAddedEntry source mutation.text then none
    else some
      { kind := .added
        before := source
        removed := []
        inserted := additionSeparator source ++ renderFramedMemoryEntry mutation.text
        after := [] }
  else
    match visibleMatchIndexes source mutation.text with
    | [index] =>
      match removedEntry source mutation index with
      | some entry => some
          { kind := .entry
            before := source.take (removalRange source entry).1
            removed := slice source (removalRange source entry).1 (removalRange source entry).2
            inserted := []
            after := source.drop (removalRange source entry).2 }
      | none => some
          { kind := .within
            before := source.take index
            removed := mutation.text
            inserted := if mutation.operation = .replace then mutation.replacement.getD [] else []
            after := source.drop (index + mutation.text.length) }
    | _ => none

/-- The splice keeps the boundaries of the delimiters beside it; in a piece it neither
breaks nor makes a delimiter; and the removal of an entry does not bring together a
start delimiter and an end delimiter that belong to no entry. -/
structure Splice.LeavesFraming (splice : Splice) : Prop where
  boundaries : KeepsBoundaries splice.before splice.removed splice.inserted splice.after
  apart : splice.kind = .within →
    Apart splice.before splice.removed splice.after ∧
      Apart splice.before splice.inserted splice.after
  unpaired : splice.kind = .entry →
    ¬ (OpenStart (splice.before ++ ['\n']) ∧ LooseEnd splice.after)

/-! ## Inversion -/

variable {index : ℕ} {source text : List Char}

theorem exactMatch_occurs (htext : text ≠ [])
    (h : index ∈ visibleMatchIndexes source text) : Occurs text source index :=
  (mem_occurrences_iff htext).mp (mem_of_mem_filter h)

theorem match_eq (h : Occurs text source index) :
    source.take index ++ (text ++ source.drop (index + text.length)) = source := by
  rw [← h.drop_eq, take_append_drop]

variable {applied : Applied} {mutation : MemoryMutation}

theorem applyMutation_eq_ok
    (htext : mutation.text ≠ []) (h : applyMutation source mutation = .ok applied) :
    (spliceOf source mutation = none ∧ applied.content = source ∧ applied.changed = false ∧
        mutation.operation = .add ∧ hasExactAddedEntry source mutation.text) ∨
      ∃ splice, spliceOf source mutation = some splice ∧
        applied.content = splice.before ++ (splice.inserted ++ splice.after) ∧
        (applied.changed = false → applied.content = source) := by
  unfold applyMutation at h
  unfold spliceOf
  split at h
  · next hadd =>
    rw [if_pos hadd]
    split at h
    · next hexact =>
      cases h
      exact .inl ⟨if_pos hexact, rfl, rfl, hadd, hexact⟩
    · next hexact =>
      cases h
      exact .inr ⟨_, if_neg hexact, by simp, fun h => by cases h⟩
  · next hadd =>
    rw [if_neg hadd]
    cases hmatches : visibleMatchIndexes source mutation.text with
    | nil =>
      rw [hmatches] at h
      cases h
    | cons index rest =>
      cases rest with
      | cons index' rest =>
        rw [hmatches] at h
        cases h
      | nil =>
        have hoccurs := exactMatch_occurs htext (hmatches ▸ mem_singleton_self index)
        rw [hmatches] at h
        dsimp only at h ⊢
        split at h
        · cases h
        · next replacement hreplacement =>
          have hinserted : (if mutation.operation = .replace then mutation.replacement.getD []
              else []) = replacement := by
            split at hreplacement
            · next hreplace => rw [if_pos hreplace, hreplacement, Option.getD_some]
            · next hreplace =>
              cases hreplacement
              rw [if_neg hreplace]
          cases hentry : removedEntry source mutation index with
          | some entry =>
            rw [hentry] at h
            cases h
            exact .inr ⟨_, rfl, by simp, fun h => by cases h⟩
          | none =>
            rw [hentry] at h
            cases h
            refine .inr ⟨_, rfl, by rw [hinserted], fun hsame => ?_⟩
            have hsame : replacement = mutation.text := by simpa using hsame
            rw [hsame]
            exact match_eq hoccurs

variable {limit : ℕ}

/-- An accepted mutation has a text that is not blank and no delimiter in what it
writes. -/
theorem mutate_eq_ok (h : mutate limit source mutation = .ok applied) :
    mutation.text ≠ [] ∧ containsMemoryEntryFrameDelimiter mutation.text = false ∧
      ∃ next, applyMutation source mutation = .ok next ∧ applied.changed = next.changed ∧
        applied.content = if next.changed then next.content else source := by
  unfold mutate at h
  obtain ⟨_, hvalid, h⟩ := bind_eq_ok.mp h
  obtain ⟨current, -, h⟩ := bind_eq_ok.mp h
  split at h
  · cases h
  · obtain ⟨next, happly, h⟩ := bind_eq_ok.mp h
    obtain ⟨rendered, -, h⟩ := bind_eq_ok.mp h
    split at h
    · cases h
    · cases h
      unfold validateMutation at hvalid
      split at hvalid
      · cases hvalid
      · next hinvalid =>
        simp only [Bool.or_eq_true, not_or, Bool.not_eq_true] at hinvalid
        refine ⟨?_, hinvalid.1.2, next, happly, rfl, rfl⟩
        rintro hnil
        rw [hnil] at hinvalid
        exact absurd hinvalid.1.1.1 (by decide)

theorem mutate_cases (h : mutate limit source mutation = .ok applied) :
    (spliceOf source mutation = none ∧ applied.content = source ∧ applied.changed = false ∧
        mutation.operation = .add ∧ hasExactAddedEntry source mutation.text) ∨
      ∃ splice, spliceOf source mutation = some splice ∧
        applied.content = splice.before ++ (splice.inserted ++ splice.after) := by
  obtain ⟨htext, -, next, happly, hchanged, hcontent⟩ := mutate_eq_ok h
  rcases applyMutation_eq_ok htext happly with ⟨hnone, hsame, hunchanged, hadd⟩ |
    ⟨splice, hsplice, hresult, hsame⟩
  · rw [hunchanged] at hchanged hcontent
    exact .inl ⟨hnone, hcontent, hchanged, hadd⟩
  · refine .inr ⟨splice, hsplice, ?_⟩
    split at hcontent
    · rw [hcontent, hresult]
    · next hunchanged =>
      rw [hcontent, ← hresult]
      exact (hsame (by simpa using hunchanged)).symm

/-! ## Edits of pieces -/

/-- What a splice that puts `text` in, or takes it out, does to the pieces. -/
inductive EditsPieces (source text : List Char) (splice : Splice) :
    List Piece → List Piece → Prop where
  /-- A new entry behind the separator, at the end. -/
  | added (before : List Piece) (t : List Char) (hkind : splice.kind = .added) :
      EditsPieces source text splice (before ++ [.text t])
        (before ++ [.text (t ++ additionSeparator source), .entry text, .text []])
  /-- The match in the body of one piece is replaced where it stands. -/
  | within (before : List Piece) (piece : Piece) (after : List Piece) (x y : List Char)
      (hkind : splice.kind = .within) (hbody : piece.body = x ++ (text ++ y))
      (hplace : splice.before = render before ++ (piece.opening ++ x)) :
      EditsPieces source text splice (before ++ piece :: after)
        (before ++ piece.withBody (x ++ (splice.inserted ++ y)) :: after)
  /-- A whole entry goes with one separator beside it. -/
  | entry (before : List Piece) (t₁ y₁ y₂ t₂ : List Char) (after : List Piece)
      (hkind : splice.kind = .entry)
      (hseparator : SeparatorPlace (render before ++ t₁) y₁ y₂ (t₂ ++ render after))
      (hplace : splice.before = render before ++ t₁) :
      EditsPieces source text splice
        (before ++ .text (t₁ ++ y₁) :: .entry text :: .text (y₂ ++ t₂) :: after)
        (before ++ .text (t₁ ++ t₂) :: after)

theorem isVisibleRange_iff {stop : ℕ} {entry : FramedMemoryEntry} :
    isVisibleRange index stop entry ↔ (entry.frameEnd ≤ index ∨ stop ≤ entry.frameStart) ∨
      (entry.contentStart ≤ index ∧ stop ≤ entry.contentEnd) := by
  simp only [isVisibleRange, Bool.or_eq_true, Bool.not_eq_true', Bool.and_eq_true,
    Bool.and_eq_false_iff, decide_eq_true_eq, decide_eq_false_iff_not, not_lt]

theorem piecesOf_within {r : List Char} (htext : text ≠ [])
    (hmem : index ∈ visibleMatchIndexes source text)
    (h : LeavesDelimiters (source.take index) text r (source.drop (index + text.length))) :
    ∃ before piece after x y, piecesOf source = before ++ piece :: after ∧
      piece.body = x ++ (text ++ y) ∧ source.take index = render before ++ (piece.opening ++ x) ∧
      piecesOf (source.take index ++ (r ++ source.drop (index + text.length))) =
        before ++ piece.withBody (x ++ (r ++ y)) :: after := by
  have hoccurs := exactMatch_occurs htext hmem
  have hvisible : ∀ span ∈ spansFrom (piecesOf source) 0, index + text.length ≤ span.1 ∨
      span.2 + 34 ≤ index ∨ (span.1 + 36 ≤ index ∧ index + text.length ≤ span.2) := by
    intro span hspan
    have hentry : entryAt source span ∈ framedMemoryEntries source :=
      mem_framedMemoryEntries_iff.mpr ⟨span.1, span.2, mem_spansFrom_piecesOf.mp hspan, rfl⟩
    have hrange := all_eq_true.mp (mem_filter.mp hmem).2 _ hentry
    rw [isVisibleRange_iff] at hrange
    simp only [entryAt] at hrange
    omega
  have hlength := hoccurs.length_le htext
  have hpos := length_pos_of_ne_nil htext
  obtain ⟨before, piece, after, x, m, y, hpieces, hbody, hm, hat⟩ :=
    exists_piece_of_range (show index < index + text.length by omega) (piecesOf source)
      (alternates_piecesOf source) 0 (Nat.zero_le _) (by rw [render_piecesOf]; omega) hvisible
  have hsource : source = (render before ++ (piece.opening ++ x)) ++
      (m ++ (y ++ (piece.closing ++ render after))) := by
    rw [← render_piecesOf source, hpieces]
    simp [Piece.rendered, hbody]
  have hfront : (render before ++ (piece.opening ++ x)).length = index := by
    simp only [length_append]
    omega
  -- the range in the piece is the match
  obtain rfl : m = text := by
    have hstart : Occurs text m 0 := by
      rw [← occurs_append_left (b := y ++ (piece.closing ++ render after)) (by omega),
        ← occurs_append_right (a := render before ++ (piece.opening ++ x)), ← hsource, hfront]
      exact hoccurs
    exact (List.IsPrefix.eq_of_length hstart (by rw [drop_zero]; omega)).symm
  have htake : source.take index = render before ++ (piece.opening ++ x) := by
    rw [hsource]
    exact take_left' hfront
  have hdrop : source.drop (index + m.length) = y ++ (piece.closing ++ render after) := by
    rw [hsource, ← hfront, ← drop_drop, drop_left, drop_left]
  rw [htake, hdrop] at h ⊢
  exact ⟨before, piece, after, x, y, hpieces, hbody, rfl, piecesOf_replace hpieces hbody h⟩

theorem piecesOf_removed {entry : FramedMemoryEntry} (htext : text ≠ [])
    (hmem : entry ∈ framedMemoryEntries source)
    (hstop : entry.contentEnd = entry.contentStart + text.length)
    (hoccurs : Occurs text source entry.contentStart)
    (hkeeps : KeepsBoundaries (source.take (removalRange source entry).1)
      (slice source (removalRange source entry).1 (removalRange source entry).2) []
      (source.drop (removalRange source entry).2))
    (hpair : ¬ (OpenStart (source.take (removalRange source entry).1 ++ ['\n']) ∧
      LooseEnd (source.drop (removalRange source entry).2))) : ∃ before t₁ y₁ y₂ t₂ after,
      piecesOf source = before ++ .text (t₁ ++ y₁) :: .entry text :: .text (y₂ ++ t₂) :: after ∧
      SeparatorPlace (render before ++ t₁) y₁ y₂ (t₂ ++ render after) ∧
      source.take (removalRange source entry).1 = render before ++ t₁ ∧
      piecesOf (source.take (removalRange source entry).1 ++
          source.drop (removalRange source entry).2) = before ++ .text (t₁ ++ t₂) :: after := by
  obtain ⟨i, k, hframe, rfl⟩ := mem_framedMemoryEntries_iff.mp hmem
  obtain ⟨before, t₁, y₁, c, y₂, t₂, after, hpieces, hplace, hi, hk, hrange⟩ :=
    pieces_around_frame hframe rfl
  have hsource : source = render before ++ t₁ ++
      (y₁ ++ (memoryEntryFrameStart ++ (c ++ (memoryEntryFrameEnd ++ y₂))) ++
        (t₂ ++ render after)) := by
    rw [← render_piecesOf source, hpieces]
    simp [Piece.rendered, Piece.opening, Piece.body, Piece.closing]
  -- the content is the text
  obtain rfl : c = text := by
    have hat : Occurs c source (i + 36) := by
      have hpattern : Occurs ((y₁ ++ memoryEntryFrameStart) ++ (c ++ (memoryEntryFrameEnd ++ y₂)))
          source (render before ++ t₁).length := by
        rw [hsource, ← append_assoc y₁]
        exact occurs_append _ _ _
      have hindex : (render before ++ t₁).length + (y₁ ++ memoryEntryFrameStart).length =
          i + 36 := by
        simp only [length_append, frameStart_length] at hi ⊢
        omega
      rw [← hindex]
      exact hpattern.part
    simp only [entryAt] at hstop hoccurs
    have hlength : c.length = text.length := by omega
    rw [Occurs, prefix_iff_eq_take] at hat hoccurs
    rw [hat, hoccurs, hlength]
  have hlength : (y₁ ++ (memoryEntryFrameStart ++ (c ++ (memoryEntryFrameEnd ++ y₂)))).length =
      y₁.length + 36 + c.length + 34 + y₂.length := by
    simp only [length_append, frameStart_length, frameEnd_length]
    omega
  have hstopRange : k + 34 + y₂.length = (render before ++ t₁).length +
      (y₁ ++ (memoryEntryFrameStart ++ (c ++ (memoryEntryFrameEnd ++ y₂)))).length := by
    omega
  have htake : source.take (render before ++ t₁).length = render before ++ t₁ := by
    rw [hsource]
    exact take_left
  have hdrop : source.drop (k + 34 + y₂.length) = t₂ ++ render after := by
    rw [hstopRange, hsource, ← drop_drop, drop_left, drop_left]
  have hslice : slice source (render before ++ t₁).length (k + 34 + y₂.length) =
      y₁ ++ (memoryEntryFrameStart ++ (c ++ (memoryEntryFrameEnd ++ y₂))) := by
    rw [hstopRange, hsource]
    exact slice_middle _ _ _
  rw [hrange] at hkeeps hpair ⊢
  dsimp only at hkeeps hpair ⊢
  rw [htake, hdrop] at hpair ⊢
  rw [htake, hdrop, hslice] at hkeeps
  refine ⟨before, t₁, y₁, y₂, t₂, after, hpieces, hplace, rfl, ?_⟩
  have hkend : k = (render before ++ t₁).length + y₁.length + 36 + c.length := by omega
  have hstands := standsApart hplace (by rw [← hsource, ← hi, ← hk]; exact hframe) hkeeps hpair
  rw [length_append] at hstands
  refine (piecesOf_insert_iff hstands).mp ?_
  rw [← hsource]
  exact hpieces

theorem isFrame_added (source : List Char)
    (hclear : containsMemoryEntryFrameDelimiter text = false) :
    IsFrame (source ++ (additionSeparator source ++ renderFramedMemoryEntry text))
      (source.length + (additionSeparator source).length)
      (source.length + (additionSeparator source).length + 36 + text.length) := by
  have hsplit : source ++ (additionSeparator source ++ renderFramedMemoryEntry text) =
      (source ++ (additionSeparator source ++ memoryEntryFrameStart)) ++
        (text ++ (memoryEntryFrameEnd ++ [])) := by
    simp [renderFramedMemoryEntry]
  have hlength : (source ++ (additionSeparator source ++ memoryEntryFrameStart)).length =
      source.length + (additionSeparator source).length + 36 := by
    simp only [length_append, frameStart_length]
    omega
  refine
    { start := ?_
      startBoundary := ?_
      content := Nat.le_add_right _ _
      noStart := fun j hj hlt hat => ?_
      noEnd := fun j hj hlt hat => ?_
      stop := ?_
      endBoundary := ?_ }
  · rw [occurs_append_right, ← Nat.add_zero (additionSeparator source).length, occurs_append_right]
    exact prefix_append _ _
  · unfold startsAtEntryBoundary additionSeparator
    split
    · next hnil => simp [hnil]
    · rw [Bool.or_eq_true, Bool.and_eq_true, decide_eq_true_eq, decide_eq_true_eq,
        decide_eq_true_eq]
      refine .inr ⟨Nat.le_add_left 2 _, ?_⟩
      rw [Nat.add_sub_cancel]
      exact slice_middle _ _ _
  · rw [hsplit] at hat
    exact (content_clear hclear (by omega) (by omega)).1 hat
  · rw [hsplit] at hat
    exact (content_clear hclear (by omega) (by omega)).2 hat
  · rw [hsplit, ← hlength, occurs_append_right]
    exact occurs_append _ _ _
  · unfold endsAtEntryBoundary
    rw [Bool.or_eq_true, decide_eq_true_eq]
    left
    rw [hsplit, length_append, hlength]
    simp only [length_append, frameEnd_length, length_nil]
    omega

theorem piecesOf_added (hclear : containsMemoryEntryFrameDelimiter text = false)
    (hkeeps : KeepsBoundaries source [] (additionSeparator source ++ renderFramedMemoryEntry text)
      []) : ∃ before t, piecesOf source = before ++ [.text t] ∧
      piecesOf (source ++ (additionSeparator source ++ renderFramedMemoryEntry text)) =
        before ++ [.text (t ++ additionSeparator source), .entry text, .text []] := by
  obtain ⟨before, t, hpieces⟩ := exists_last_text _ (alternates_piecesOf source)
  have hsource : source = render before ++ t := by
    rw [← render_piecesOf source, hpieces]
    simp [Piece.rendered, Piece.opening, Piece.body, Piece.closing]
  refine ⟨before, t, hpieces, ?_⟩
  have hplace : SeparatorPlace (render before ++ t) (additionSeparator source) [] [] := by
    rw [← hsource]
    by_cases hnil : source = []
    · exact .alone hnil (if_pos hnil) rfl rfl
    · exact .before (.inl rfl) (if_neg hnil) rfl
  have hresult : render before ++ t ++ (additionSeparator source ++
      (memoryEntryFrameStart ++ (text ++ (memoryEntryFrameEnd ++ []))) ++ ([] ++ render [])) =
      source ++ (additionSeparator source ++ renderFramedMemoryEntry text) := by
    rw [← hsource]
    simp [renderFramedMemoryEntry]
  have hstands : StandsApart (render before ++ t) (additionSeparator source ++
      (memoryEntryFrameStart ++ (text ++ (memoryEntryFrameEnd ++ [])))) ([] ++ render [])
      ((render before).length + t.length + (additionSeparator source).length)
      ((render before).length + t.length + (additionSeparator source).length + 36 +
        text.length) := by
    rw [← length_append]
    refine standsApart hplace ?_ ?_ ?_
    · rw [hresult, ← hsource]
      exact isFrame_added source hclear
    · rw [← hsource, append_nil]
      exact
        { before := fun i hi => absurd (hi.length_le frameStart_ne_nil) (by simp)
          after := fun k hk => by
            have := (hkeeps.after k hk).symm
            simpa [renderFramedMemoryEntry] using this }
    · rintro ⟨-, k, hk, -⟩
      exact absurd (hk.length_le frameEnd_ne_nil) (by simp)
  have := (piecesOf_insert_iff hstands).mpr (by
    rw [render_nil, append_nil, append_nil, append_nil, ← hsource]
    exact hpieces)
  rw [hresult] at this
  exact this

/-- **A splice that leaves the framing alone edits the pieces in one place.** -/
theorem spliceOf_editsPieces {splice : Splice} (h : mutate limit source mutation = .ok applied)
    (hsplice : spliceOf source mutation = some splice) (hleaves : splice.LeavesFraming) :
    EditsPieces source mutation.text splice (piecesOf source) (piecesOf applied.content) := by
  obtain ⟨htext, hclear, -⟩ := mutate_eq_ok h
  obtain ⟨hnone, -⟩ | ⟨_, hsome, hcontent⟩ := mutate_cases h
  · rw [hsplice] at hnone
    cases hnone
  cases hsplice.symm.trans hsome
  rw [hcontent]
  unfold spliceOf at hsplice
  split at hsplice
  · split at hsplice
    · cases hsplice
    · cases hsplice
      obtain ⟨before, t, hpieces, hresult⟩ := piecesOf_added hclear hleaves.boundaries
      rw [hpieces, append_nil, hresult]
      exact .added before t rfl
  · split at hsplice
    · next index hmatches =>
      have hmem : index ∈ visibleMatchIndexes source mutation.text :=
        hmatches ▸ mem_singleton_self index
      split at hsplice
      · next entry hentry =>
        cases hsplice
        unfold removedEntry at hentry
        split at hentry
        · have hfound := find?_some hentry
          rw [Bool.and_eq_true, decide_eq_true_eq, decide_eq_true_eq] at hfound
          have hoccurs := exactMatch_occurs htext hmem
          rw [← hfound.1] at hoccurs
          obtain ⟨before, t₁, y₁, y₂, t₂, after, hpieces, hseparator, hplace, hresult⟩ :=
            piecesOf_removed htext (mem_of_find?_eq_some hentry)
              (by rw [hfound.2, hfound.1]) hoccurs hleaves.boundaries (hleaves.unpaired rfl)
          rw [hpieces, nil_append, hresult]
          exact .entry before t₁ y₁ y₂ t₂ after rfl hseparator hplace
        · cases hentry
      · cases hsplice
        have hapart := hleaves.apart rfl
        obtain ⟨before, piece, after, x, y, hpieces, hbody, hplace, hresult⟩ :=
          piecesOf_within htext hmem
            { toKeepsBoundaries := hleaves.boundaries, apart := hapart.1, apart' := hapart.2 }
        rw [hpieces, hresult]
        exact .within before piece after x y rfl hbody hplace
    · cases hsplice

/-! ## Removing what was added -/

theorem added_mem_visibleMatchIndexes (source : List Char) (htext : text ≠ [])
    (hclear : containsMemoryEntryFrameDelimiter text = false) :
    source.length + (additionSeparator source).length + 36 ∈ visibleMatchIndexes
      (source ++ (additionSeparator source ++ renderFramedMemoryEntry text)) text := by
  have hframe := isFrame_added source hclear
  refine mem_filter.mpr ⟨(mem_occurrences_iff htext).mpr ?_, all_eq_true.mpr ?_⟩
  · have hsplit : source ++ (additionSeparator source ++ renderFramedMemoryEntry text) =
        (source ++ (additionSeparator source ++ memoryEntryFrameStart)) ++
          (text ++ memoryEntryFrameEnd) := by
      simp [renderFramedMemoryEntry]
    have hlength : (source ++ (additionSeparator source ++ memoryEntryFrameStart)).length =
        source.length + (additionSeparator source).length + 36 := by
      simp only [length_append, frameStart_length]
      omega
    rw [hsplit, ← hlength]
    exact occurs_append _ _ _
  · intro entry hentry
    obtain ⟨i, k, hother, rfl⟩ := mem_framedMemoryEntries_iff.mp hentry
    rw [isVisibleRange_iff]
    simp only [entryAt]
    rcases Nat.lt_trichotomy i (source.length + (additionSeparator source).length) with h | rfl | h
    · have := hother.before hframe h
      omega
    · rw [hother.eq_of_start hframe]
      exact .inr ⟨le_rfl, le_rfl⟩
    · have := hframe.before hother h
      omega

theorem removalRange_added {k : ℕ}
    (hk : (source ++ (additionSeparator source ++ renderFramedMemoryEntry text)).length = k + 34) :
    removalRange (source ++ (additionSeparator source ++ renderFramedMemoryEntry text))
      (entryAt (source ++ (additionSeparator source ++ renderFramedMemoryEntry text))
        (source.length + (additionSeparator source).length, k)) = (source.length, k + 34) := by
  have hlength : memoryEntrySeparator.length = 2 := rfl
  unfold removalRange
  simp only [entryAt, hlength]
  by_cases hnil : source = []
  · have hsep : additionSeparator source = [] := if_pos hnil
    have hend : slice (source ++ (additionSeparator source ++ renderFramedMemoryEntry text))
        (k + 34) (k + 34 + 2) = [] := by
      rw [slice, ← hk, drop_length, take_nil]
    rw [hend, hsep, hnil]
    simp [memoryEntrySeparator]
  · have hsep : additionSeparator source = memoryEntrySeparator := if_neg hnil
    have hbefore : slice (source ++ (additionSeparator source ++ renderFramedMemoryEntry text))
        (source.length + (additionSeparator source).length - 2)
        (source.length + (additionSeparator source).length) = memoryEntrySeparator := by
      rw [hsep, hlength, Nat.add_sub_cancel]
      exact slice_middle _ _ _
    rw [hbefore, hsep, hlength]
    simp

/-- **Removing an entry right after adding it gives back the source.** -/
theorem remove_after_add {limit' : ℕ} {applied' : Applied}
    (hadd : mutate limit source { operation := .add, text } = .ok applied)
    (hchanged : applied.changed)
    (hremove : mutate limit' applied.content { operation := .remove, text } = .ok applied') :
    applied'.content = source := by
  obtain ⟨htext, hclear, -⟩ := mutate_eq_ok hadd
  have hcontent : applied.content =
      source ++ (additionSeparator source ++ renderFramedMemoryEntry text) := by
    obtain ⟨-, -, hsame, -⟩ | ⟨splice, hsplice, hcontent⟩ := mutate_cases hadd
    · rw [hsame] at hchanged
      cases hchanged
    · unfold spliceOf at hsplice
      rw [if_pos rfl] at hsplice
      split at hsplice
      · cases hsplice
      · cases hsplice
        rw [hcontent, append_nil]
  obtain ⟨-, -, -, hop, -⟩ | ⟨splice, hsplice, hresult⟩ := mutate_cases hremove
  · cases hop
  rw [hcontent] at hsplice
  unfold spliceOf at hsplice
  rw [if_neg (by simp)] at hsplice
  split at hsplice
  · next index hmatches =>
    have hindex := added_mem_visibleMatchIndexes source htext hclear
    rw [hmatches, mem_singleton] at hindex
    have hframe := isFrame_added source hclear
    have hlength : (source ++ (additionSeparator source ++ renderFramedMemoryEntry text)).length =
        source.length + (additionSeparator source).length + 36 + text.length + 34 := by
      simp only [renderFramedMemoryEntry, length_append, frameStart_length, frameEnd_length]
      omega
    split at hsplice
    · next entry hentry =>
      -- the entry found is the one that was added
      unfold removedEntry at hentry
      rw [if_pos rfl] at hentry
      have hfound := find?_some hentry
      rw [Bool.and_eq_true, decide_eq_true_eq, decide_eq_true_eq] at hfound
      obtain ⟨i, k, hother, rfl⟩ := mem_framedMemoryEntries_iff.mp (mem_of_find?_eq_some hentry)
      simp only [entryAt] at hfound
      obtain rfl : i = source.length + (additionSeparator source).length := by omega
      obtain rfl := hother.eq_of_start hframe
      cases hsplice
      rw [hresult, removalRange_added hlength]
      dsimp only
      rw [take_left, nil_append, ← hlength, drop_length, append_nil]
    · next hnone =>
      exfalso
      unfold removedEntry at hnone
      rw [if_pos rfl, find?_eq_none] at hnone
      refine hnone _ (mem_framedMemoryEntries_iff.mpr ⟨_, _, hframe, rfl⟩) ?_
      rw [Bool.and_eq_true, decide_eq_true_eq, decide_eq_true_eq]
      simp only [entryAt]
      exact ⟨hindex, by omega⟩
  · cases hsplice

/-! ## Main result -/

/-- A mutation that was accepted, between the source before it and after it. -/
structure MemoryStep where
  source : List Char
  mutation : MemoryMutation
  applied : Applied

/-- What an accepted mutation keeps: an addition of what is there already leaves the
source as it is; every other one edits the pieces in one place, and the visible text in
the same place, as long as it leaves the framing alone; and an addition is undone by a
removal. -/
structure MemoryStep.KeepsMemory (step : MemoryStep) : Prop where
  present : spliceOf step.source step.mutation = none → step.mutation.operation = .add ∧
    hasExactAddedEntry step.source step.mutation.text ∧ step.applied.content = step.source
  pieces : ∀ splice, spliceOf step.source step.mutation = some splice → splice.LeavesFraming →
    EditsPieces step.source step.mutation.text splice (piecesOf step.source)
      (piecesOf step.applied.content)
  visibleAdded : ∀ splice, spliceOf step.source step.mutation = some splice →
    splice.LeavesFraming → splice.kind = .added →
    stripMemoryEntryFraming step.applied.content = stripMemoryEntryFraming step.source ++
      (additionSeparator step.source ++ step.mutation.text)
  visibleWithin : ∀ splice, spliceOf step.source step.mutation = some splice →
    splice.LeavesFraming → splice.kind = .within → ∃ a b,
      stripMemoryEntryFraming step.source = a ++ (step.mutation.text ++ b) ∧
      stripMemoryEntryFraming step.applied.content = a ++ (splice.inserted ++ b)
  visibleEntry : ∀ splice, spliceOf step.source step.mutation = some splice →
    splice.LeavesFraming → splice.kind = .entry → ∃ a y₁ y₂ b,
      y₁ ++ y₂ ∈ [[], memoryEntrySeparator] ∧
      stripMemoryEntryFraming step.source = a ++ (y₁ ++ (step.mutation.text ++ (y₂ ++ b))) ∧
      stripMemoryEntryFraming step.applied.content = a ++ b
  undone : step.mutation.operation = .add → step.applied.changed → ∀ limit applied',
    mutate limit step.applied.content { operation := .remove, text := step.mutation.text } =
      .ok applied' → applied'.content = step.source

/-- The mutations that are accepted when they are asked for one after the other. -/
def session (limit : ℕ) : List Char → List MemoryMutation → List MemoryStep
  | _, [] => []
  | source, mutation :: rest =>
    match mutate limit source mutation with
    | .ok applied => ⟨source, mutation, applied⟩ :: session limit applied.content rest
    | .error _ => session limit source rest

theorem mutate_of_mem_session {mutations : List MemoryMutation}
    {step : MemoryStep} (h : step ∈ session limit source mutations) :
    mutate limit step.source step.mutation = .ok step.applied := by
  induction mutations generalizing source with
  | nil => cases h
  | cons mutation rest ih =>
    rw [session] at h
    split at h
    · next applied haccepted =>
      rcases mem_cons.mp h with rfl | h
      · exact haccepted
      · exact ih h
    · exact ih h

theorem SeparatorPlace.separator {a y₁ y₂ b : List Char} (h : SeparatorPlace a y₁ y₂ b) :
    y₁ ++ y₂ ∈ [[], memoryEntrySeparator] := by
  cases h with
  | before hb h₁ h₂ => simp [h₁, h₂]
  | after ha h₁ h₂ => simp [h₁, h₂]
  | alone ha h₁ h₂ hb => simp [h₁, h₂]

theorem mutate_replacement (h : mutate limit source mutation = .ok applied)
    (hadd : mutation.operation = .add) : mutation.replacement = none := by
  obtain ⟨_, hvalid, -⟩ := bind_eq_ok.mp h
  unfold validateMutation at hvalid
  split at hvalid
  · cases hvalid
  · split at hvalid
    · cases hvalid
    · next hreplacement =>
      simpa [hadd] using hreplacement

/-- **Every accepted mutation of a session keeps the memory.** -/
theorem session_keepsMemory {limit : ℕ} {source : List Char} {mutations : List MemoryMutation}
    {step : MemoryStep} (h : step ∈ session limit source mutations) : step.KeepsMemory := by
  have haccepted := mutate_of_mem_session h
  have hpieces : ∀ splice, spliceOf step.source step.mutation = some splice →
      splice.LeavesFraming → EditsPieces step.source step.mutation.text splice
        (piecesOf step.source) (piecesOf step.applied.content) :=
    fun splice hsplice hleaves => spliceOf_editsPieces haccepted hsplice hleaves
  refine
    { present := fun hnone => ?_
      pieces := hpieces
      visibleAdded := fun splice hsplice hleaves hkind => ?_
      visibleWithin := fun splice hsplice hleaves hkind => ?_
      visibleEntry := fun splice hsplice hleaves hkind => ?_
      undone := fun hadd hchanged limit' applied' hremove => ?_ }
  · obtain ⟨-, hsame, -, hadd, hexact⟩ | ⟨_, hsome, -⟩ := mutate_cases haccepted
    · exact ⟨hadd, hexact, hsame⟩
    · rw [hnone] at hsome
      cases hsome
  · rw [stripMemoryEntryFraming_eq, stripMemoryEntryFraming_eq]
    generalize hbefore : piecesOf step.source = before,
      hafter : piecesOf step.applied.content = after
    have hedit := hpieces splice hsplice hleaves
    rw [hbefore, hafter] at hedit
    cases hedit with
    | added before t _ => simp [visible, Piece.body]
    | within before piece after x y hwithin => cases hkind.symm.trans hwithin
    | entry before t₁ y₁ y₂ t₂ after hentry => cases hkind.symm.trans hentry
  · rw [stripMemoryEntryFraming_eq, stripMemoryEntryFraming_eq]
    generalize hbefore : piecesOf step.source = before,
      hafter : piecesOf step.applied.content = after
    have hedit := hpieces splice hsplice hleaves
    rw [hbefore, hafter] at hedit
    cases hedit with
    | added before t hadded => cases hkind.symm.trans hadded
    | within before piece after x y _ hbody =>
      exact ⟨visible before ++ x, y ++ visible after, by simp [hbody], by simp⟩
    | entry before t₁ y₁ y₂ t₂ after hentry => cases hkind.symm.trans hentry
  · rw [stripMemoryEntryFraming_eq, stripMemoryEntryFraming_eq]
    generalize hbefore : piecesOf step.source = before,
      hafter : piecesOf step.applied.content = after
    have hedit := hpieces splice hsplice hleaves
    rw [hbefore, hafter] at hedit
    cases hedit with
    | added before t hadded => cases hkind.symm.trans hadded
    | within before piece after x y hwithin => cases hkind.symm.trans hwithin
    | entry before t₁ y₁ y₂ t₂ after _ hseparator =>
      exact ⟨visible before ++ t₁, y₁, y₂, t₂ ++ visible after, hseparator.separator,
        by simp [Piece.body], by simp [Piece.body]⟩
  · have hmutation : step.mutation = { operation := .add, text := step.mutation.text } := by
      have hreplacement := mutate_replacement haccepted hadd
      cases hstep : step.mutation with
      | mk operation replacement text =>
        rw [hstep] at hadd hreplacement
        dsimp only at hadd hreplacement
        rw [hadd, hreplacement]
    rw [hmutation] at haccepted
    exact remove_after_add haccepted hchanged hremove

/-! ### Runs -/

def exampleSource : List Char :=
  "a\n\n".toList ++ renderFramedMemoryEntry "b".toList

/-- Operator text beside an entry is replaced, and the entry stays. -/
theorem session_keepsMemory_replace : ∃ step ∈ session 100 exampleSource
        [{ operation := .replace, text := "a".toList, replacement := some "c".toList }],
      step.KeepsMemory ∧
        ∃ splice, spliceOf step.source step.mutation = some splice ∧ splice.LeavesFraming := by
  have hstep : session 100 exampleSource
      [{ operation := .replace, text := "a".toList, replacement := some "c".toList }] =
      [⟨exampleSource,
        { operation := .replace, text := "a".toList, replacement := some "c".toList },
        ⟨true, "c\n\n".toList ++ renderFramedMemoryEntry "b".toList⟩⟩] := by
    rw [session]
    have haccepted : mutate 100 exampleSource
        { operation := .replace, text := "a".toList, replacement := some "c".toList } =
        .ok ⟨true, "c\n\n".toList ++ renderFramedMemoryEntry "b".toList⟩ := by
      decide +kernel
    rw [haccepted]
    rfl
  have hmem := hstep ▸ mem_singleton_self _
  refine ⟨_, hmem, session_keepsMemory hmem, ?_⟩
  have hsplice : spliceOf exampleSource
      { operation := .replace, text := "a".toList, replacement := some "c".toList } =
      some ⟨.within, [], "a".toList, "c".toList,
        "\n\n".toList ++ renderFramedMemoryEntry "b".toList⟩ := by
    decide +kernel
  refine ⟨_, hsplice, ?_⟩
  have hapart : ∀ c : Char, c ≠ '<' → c ≠ '\n' →
      Apart [] [c] ("\n\n".toList ++ renderFramedMemoryEntry "b".toList) := by
    intro c hbracket hnewline
    refine ⟨fun i hi => .inr ?_, fun k hk => .inr ?_⟩
    · cases i with
      | zero => exact absurd (some.inj (bracket_of_start hi)) hbracket
      | succ i => exact Nat.le_add_left 1 i
    · cases k with
      | zero => exact absurd (some.inj (newline_of_end hk)) hnewline
      | succ k => exact Nat.le_add_left 1 k
  refine
    { boundaries :=
        { before := fun i hi => ?_
          after := fun k hk => absurd (hk.length_le frameEnd_ne_nil) (by simp) }
      apart := fun _ =>
        ⟨hapart 'a' (by decide) (by decide), hapart 'c' (by decide) (by decide)⟩
      unpaired := fun h => by cases h }
  have hbound : i < 80 := by
    have hlength := hi.length_le frameStart_ne_nil
    dsimp only at hlength
    have hshort : ("\n\n".toList ++ renderFramedMemoryEntry "b".toList).length < 80 := by
      decide
    omega
  have hsame : ∀ i < 80, Occurs memoryEntryFrameStart
      ("\n\n".toList ++ renderFramedMemoryEntry "b".toList) i →
      startsAtEntryBoundary
        ([] ++ ("a".toList ++ ("\n\n".toList ++ renderFramedMemoryEntry "b".toList))) (0 + 1 + i) =
      startsAtEntryBoundary
        ([] ++ ("c".toList ++ ("\n\n".toList ++ renderFramedMemoryEntry "b".toList)))
          (0 + 1 + i) := by
    decide +kernel
  exact hsame i hbound hi

/-- An addition of what is there already adds nothing, an entry goes with a separator
that is visible, and operator text can be replaced up to an entry, which is then none
any more. -/
theorem mutations_beyond_the_match :
    (mutate 100 "x".toList { operation := .add, text := "x".toList } = .ok ⟨false, "x".toList⟩ ∧
        stripMemoryEntryFraming "x".toList = "x".toList) ∧
      (mutate 100 exampleSource { operation := .remove, text := "b".toList } =
          .ok ⟨true, "a".toList⟩ ∧
        stripMemoryEntryFraming exampleSource = "a\n\nb".toList ∧
        stripMemoryEntryFraming "a".toList = "a".toList) ∧
      mutate 100 exampleSource
          { operation := .replace, text := "a\n".toList, replacement := some "c".toList } =
        .ok ⟨true, "c\n".toList ++ renderFramedMemoryEntry "b".toList⟩ ∧
      (framedMemoryEntries exampleSource).map (·.content) = ["b".toList] ∧
      framedMemoryEntries ("c\n".toList ++ renderFramedMemoryEntry "b".toList) = [] := by
  refine ⟨⟨?_, ?_⟩, ⟨?_, ?_, ?_⟩, ?_, ?_, ?_⟩ <;> decide +kernel

end Laborer.AcpRuntime
