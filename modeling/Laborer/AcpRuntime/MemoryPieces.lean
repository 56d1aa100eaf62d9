import Laborer.AcpRuntime.MemoryFrames

/-!
# Pieces

A memory source as pieces of operator text and entries in turn: reading a source into
its pieces, writing pieces as a source, and the lists of pieces that are read back as
they were written.
-/

namespace Laborer.AcpRuntime

open Laborer.Library List

/-! ## Pieces -/

inductive Piece where
  | text (body : List Char)
  | entry (body : List Char)

namespace Piece

def body : Piece → List Char
  | text body | entry body => body

def isEntry : Piece → Bool
  | text _ => false
  | entry _ => true

def opening : Piece → List Char
  | text _ => []
  | entry _ => memoryEntryFrameStart

def closing : Piece → List Char
  | text _ => []
  | entry _ => memoryEntryFrameEnd

def withBody : Piece → List Char → Piece
  | text _, body => text body
  | entry _, body => entry body

def rendered (piece : Piece) : List Char :=
  piece.opening ++ (piece.body ++ piece.closing)

@[simp]
theorem withBody_body (piece : Piece) (body : List Char) : (piece.withBody body).body = body := by
  cases piece <;> rfl

@[simp]
theorem withBody_isEntry (piece : Piece) (body : List Char) :
    (piece.withBody body).isEntry = piece.isEntry := by
  cases piece <;> rfl

@[simp]
theorem withBody_opening (piece : Piece) (body : List Char) :
    (piece.withBody body).opening = piece.opening := by
  cases piece <;> rfl

@[simp]
theorem withBody_closing (piece : Piece) (body : List Char) :
    (piece.withBody body).closing = piece.closing := by
  cases piece <;> rfl

@[simp]
theorem withBody_self (piece : Piece) : piece.withBody piece.body = piece := by
  cases piece <;> rfl

end Piece

def render (pieces : List Piece) : List Char :=
  pieces.flatMap Piece.rendered

def visible (pieces : List Piece) : List Char :=
  pieces.flatMap Piece.body

@[simp]
theorem render_nil : render [] = [] :=
  rfl

@[simp]
theorem render_cons (piece : Piece) (rest : List Piece) :
    render (piece :: rest) = piece.rendered ++ render rest :=
  flatMap_cons

@[simp]
theorem render_append (before after : List Piece) :
    render (before ++ after) = render before ++ render after :=
  flatMap_append

@[simp]
theorem visible_cons (piece : Piece) (rest : List Piece) :
    visible (piece :: rest) = piece.body ++ visible rest :=
  flatMap_cons

@[simp]
theorem visible_append (before after : List Piece) :
    visible (before ++ after) = visible before ++ visible after :=
  flatMap_append

/-! ## Reading -/

/-- The pieces of a source from an index on, given its entries from there on. -/
def piecesFrom (source : List Char) : List FramedMemoryEntry → ℕ → List Piece
  | [], fromIndex => [.text (source.drop fromIndex)]
  | entry :: rest, fromIndex =>
    .text (slice source fromIndex entry.frameStart) :: .entry entry.content ::
      piecesFrom source rest entry.frameEnd

def piecesOf (source : List Char) : List Piece :=
  piecesFrom source (framedMemoryEntries source) 0

theorem stripFrom_eq (source : List Char) (entries : List FramedMemoryEntry) (fromIndex : ℕ) :
    stripFrom source entries fromIndex = visible (piecesFrom source entries fromIndex) := by
  induction entries generalizing fromIndex with
  | nil => simp [stripFrom, piecesFrom, visible, Piece.body]
  | cons entry rest ih => simp [stripFrom, piecesFrom, ih, Piece.body]

/-- **The visible text is that of the pieces.** -/
theorem stripMemoryEntryFraming_eq (source : List Char) :
    stripMemoryEntryFraming source = visible (piecesOf source) :=
  stripFrom_eq source _ 0

/-- Texts and entries in turn, a text at both ends. -/
def alternates : List Bool → Bool
  | [isEntry] => !isEntry
  | isEntry :: isEntry' :: rest => !isEntry && isEntry' && alternates rest
  | [] => false

def Alternates (pieces : List Piece) : Prop :=
  alternates (pieces.map Piece.isEntry)

theorem alternates_piecesFrom (source : List Char) (entries : List FramedMemoryEntry)
    (fromIndex : ℕ) : Alternates (piecesFrom source entries fromIndex) := by
  induction entries generalizing fromIndex with
  | nil => rfl
  | cons entry rest ih => exact ih entry.frameEnd

theorem alternates_piecesOf (source : List Char) : Alternates (piecesOf source) :=
  alternates_piecesFrom source _ 0

theorem Alternates.replace {before after : List Piece} {piece piece' : Piece}
    (h : Alternates (before ++ piece :: after)) (hkind : piece'.isEntry = piece.isEntry) :
    Alternates (before ++ piece' :: after) := by
  simpa [Alternates, hkind] using h

theorem alternates_insert (before after : List Bool) :
    alternates (before ++ false :: true :: false :: after) =
      alternates (before ++ false :: after) := by
  induction before using alternates.induct with
  | case1 isEntry => cases isEntry <;> simp [alternates]
  | case2 isEntry isEntry' rest ih => simp [alternates, ih]
  | case3 => simp [alternates]

theorem alternates_insert_iff {before after : List Piece} {t t₁ t₂ c : List Char} :
    Alternates (before ++ .text t₁ :: .entry c :: .text t₂ :: after) ↔
      Alternates (before ++ .text t :: after) := by
  simp only [Alternates, map_append, map_cons, Piece.isEntry]
  rw [alternates_insert]

/-! ## Spans -/

/-- Where the delimiters of the entries stand when pieces are written from an index
on. -/
def spansFrom : List Piece → ℕ → List (ℕ × ℕ)
  | [], _ => []
  | .text body :: rest, index => spansFrom rest (index + body.length)
  | .entry body :: rest, index =>
    (index, index + 36 + body.length) :: spansFrom rest (index + 36 + body.length + 34)

theorem rendered_length_text (body : List Char) :
    (Piece.text body).rendered.length = body.length := by
  simp [Piece.rendered, Piece.opening, Piece.body, Piece.closing]

theorem rendered_length_entry (body : List Char) :
    (Piece.entry body).rendered.length = 36 + body.length + 34 := by
  simp only [Piece.rendered, Piece.opening, Piece.body, Piece.closing, length_append,
    frameStart_length, frameEnd_length]
  omega

theorem spansFrom_append (before after : List Piece) (index : ℕ) :
    spansFrom (before ++ after) index =
      spansFrom before index ++ spansFrom after (index + (render before).length) := by
  induction before generalizing index with
  | nil => rfl
  | cons piece rest ih =>
    cases piece with
    | text body =>
      simp only [cons_append, spansFrom, ih, render_cons, length_append,
        rendered_length_text, Nat.add_assoc]
    | entry body =>
      simp only [cons_append, spansFrom, ih, render_cons, length_append,
        rendered_length_entry, Nat.add_assoc]

theorem spansFrom_add (pieces : List Piece) (index shift : ℕ) : spansFrom pieces (index + shift) =
      (spansFrom pieces index).map fun span => (span.1 + shift, span.2 + shift) := by
  induction pieces generalizing index with
  | nil => rfl
  | cons piece rest ih =>
    cases piece with
    | text body =>
      rw [spansFrom, spansFrom, ← ih, Nat.add_right_comm]
    | entry body =>
      rw [spansFrom, spansFrom, map_cons, ← ih]
      simp only [Nat.add_right_comm _ shift]

theorem span_bounds {pieces : List Piece} {index : ℕ} {span : ℕ × ℕ}
    (h : span ∈ spansFrom pieces index) :
    index ≤ span.1 ∧ span.1 + 36 ≤ span.2 ∧ span.2 + 34 ≤ index + (render pieces).length := by
  induction pieces generalizing index with
  | nil => cases h
  | cons piece rest ih =>
    rw [render_cons, length_append]
    cases piece with
    | text body =>
      have := ih h
      rw [rendered_length_text]
      omega
    | entry body =>
      rw [rendered_length_entry]
      rcases mem_cons.mp h with rfl | h
      · omega
      · have := ih h
        omega

theorem spansFrom_pairwise (pieces : List Piece) (index : ℕ) :
    (spansFrom pieces index).Pairwise fun span span' => span.2 + 34 ≤ span'.1 := by
  induction pieces generalizing index with
  | nil => exact List.Pairwise.nil
  | cons piece rest ih =>
    cases piece with
    | text body => exact ih _
    | entry body =>
      refine pairwise_cons.mpr ⟨fun span h => ?_, ih _⟩
      have := span_bounds h
      omega

/-! ## Reading back -/

theorem framedMemoryEntriesFrom_sorted (source : List Char) (fuel fromIndex : ℕ) :
    (∀ entry ∈ framedMemoryEntriesFrom source fuel fromIndex, fromIndex ≤ entry.frameStart) ∧
      (framedMemoryEntriesFrom source fuel fromIndex).Pairwise
        fun entry entry' => entry.frameStart < entry'.frameStart := by
  induction fuel generalizing fromIndex with
  | zero => exact ⟨fun _ h => absurd h not_mem_nil, List.Pairwise.nil⟩
  | succ fuel ih =>
    have hnil : (∀ entry ∈ ([] : List FramedMemoryEntry), fromIndex ≤ entry.frameStart) ∧
        ([] : List FramedMemoryEntry).Pairwise
          fun entry entry' => entry.frameStart < entry'.frameStart :=
      ⟨fun _ h => absurd h not_mem_nil, List.Pairwise.nil⟩
    have hskip : ∀ next, fromIndex ≤ next →
        (∀ entry ∈ framedMemoryEntriesFrom source fuel next, fromIndex ≤ entry.frameStart) ∧
          (framedMemoryEntriesFrom source fuel next).Pairwise
            fun entry entry' => entry.frameStart < entry'.frameStart :=
      fun next hnext => ⟨fun entry h => hnext.trans ((ih next).1 entry h), (ih next).2⟩
    rw [framedMemoryEntriesFrom]
    split
    · split
      · exact hnil
      · next frameStart hstart =>
        have hfrom := (indexOf_eq_some hstart).1
        split
        · dsimp only
          split
          · exact hnil
          · next endStart hend =>
            have hcontent := (indexOf_eq_some hend).1
            split
            · next nestedStart hnested =>
              have hindex := (Option.filter_eq_some_iff.mp hnested).1
              have := (indexOf_eq_some hindex).1
              exact hskip nestedStart (by omega)
            · split
              · have htail := ih (endStart + memoryEntryFrameEnd.length)
                refine ⟨fun entry h => ?_, pairwise_cons.mpr ⟨fun entry h => ?_, htail.2⟩⟩
                · rcases mem_cons.mp h with rfl | h
                  · exact hfrom
                  · have := htail.1 entry h
                    omega
                · have := htail.1 entry h
                  rw [frameStart_length] at hcontent
                  dsimp only
                  omega
              · exact hskip (frameStart + 1) (by omega)
        · exact hskip (frameStart + 1) (by omega)
    · exact hnil

theorem framedMemoryEntries_pairwise (source : List Char) : (framedMemoryEntries source).Pairwise
      fun entry entry' => entry.frameStart < entry'.frameStart :=
  (framedMemoryEntriesFrom_sorted source _ 0).2

/-- Entries in order that are the frames of a source are the entries it is read with. -/
theorem framedMemoryEntries_eq {source : List Char} {spans : List (ℕ × ℕ)}
    (hsorted : spans.Pairwise fun span span' => span.1 < span'.1)
    (hframes : ∀ i k, IsFrame source i k ↔ (i, k) ∈ spans) :
    framedMemoryEntries source = spans.map (entryAt source) := by
  have hsorted' : (spans.map (entryAt source)).Pairwise
      fun entry entry' => entry.frameStart < entry'.frameStart :=
    pairwise_map.mpr hsorted
  have hperm : (framedMemoryEntries source).Perm (spans.map (entryAt source)) := by
    refine (perm_ext_iff_of_nodup ?_ ?_).mpr fun entry => ?_
    · exact (framedMemoryEntries_pairwise source).imp fun h heq => by
        rw [heq] at h
        exact lt_irrefl _ h
    · exact hsorted'.imp fun h heq => by
        rw [heq] at h
        exact lt_irrefl _ h
    · rw [mem_framedMemoryEntries_iff, mem_map]
      constructor
      · rintro ⟨i, k, hframe, rfl⟩
        exact ⟨(i, k), (hframes i k).mp hframe, rfl⟩
      · rintro ⟨⟨i, k⟩, hmem, rfl⟩
        exact ⟨i, k, (hframes i k).mpr hmem, rfl⟩
  refine hperm.eq_of_pairwise (fun entry entry' _ _ h h' => ?_)
    (framedMemoryEntries_pairwise source) hsorted'
  exact absurd h (lt_asymm h')

@[elab_as_elim]
theorem alternates_induction {motive : List Piece → Prop} (last : ∀ t, motive [.text t])
    (next : ∀ t c rest, Alternates rest → motive rest → motive (.text t :: .entry c :: rest))
    (pieces : List Piece) (h : Alternates pieces) : motive pieces := by
  induction hn : pieces.length using Nat.strong_induction_on generalizing pieces with
  | _ n ih =>
    cases pieces with
    | nil => cases h
    | cons piece rest =>
      cases piece with
      | entry c =>
        exfalso
        cases rest with
        | nil => cases h
        | cons piece' rest => simp [Alternates, Piece.isEntry, alternates] at h
      | text t =>
        cases rest with
        | nil => exact last t
        | cons piece' rest =>
          cases piece' with
          | text t' => simp [Alternates, Piece.isEntry, alternates] at h
          | entry c =>
            have hrest : Alternates rest := by
              simpa [Alternates, Piece.isEntry, alternates] using h
            have hshorter : rest.length < n := by
              rw [← hn, length_cons, length_cons]
              omega
            exact next t c rest hrest (ih rest.length hshorter rest hrest rfl)

theorem slice_middle (a b c : List Char) :
    slice (a ++ (b ++ c)) a.length (a.length + b.length) = b := by
  rw [slice, drop_left, Nat.add_sub_cancel_left, take_left]

theorem piecesFrom_render (before : List Char) (pieces : List Piece) (h : Alternates pieces) :
    piecesFrom (before ++ render pieces)
      ((spansFrom pieces before.length).map (entryAt (before ++ render pieces))) before.length =
        pieces := by
  revert before
  refine alternates_induction ?_ ?_ pieces h
  · intro t before
    simp [spansFrom, piecesFrom, Piece.rendered, Piece.opening, Piece.body, Piece.closing]
  · intro t c rest _ ih before
    -- the rest is read back behind the text and the entry
    have hrest := ih (before ++ (t ++ (memoryEntryFrameStart ++ (c ++ memoryEntryFrameEnd))))
    have hlength : (before ++ (t ++ (memoryEntryFrameStart ++ (c ++ memoryEntryFrameEnd)))).length =
        before.length + t.length + 36 + c.length + 34 := by
      simp only [length_append, frameStart_length, frameEnd_length]
      omega
    have hsource : before ++ render (.text t :: .entry c :: rest) =
        before ++ (t ++ (memoryEntryFrameStart ++ (c ++ memoryEntryFrameEnd))) ++ render rest := by
      simp [Piece.rendered, Piece.opening, Piece.body, Piece.closing]
    have htext : slice (before ++ render (.text t :: .entry c :: rest)) before.length
        (before.length + t.length) = t := by
      rw [hsource, append_assoc, append_assoc]
      exact slice_middle _ _ _
    have hcontent : slice (before ++ render (.text t :: .entry c :: rest))
        (before.length + t.length + 36) (before.length + t.length + 36 + c.length) = c := by
      have := slice_middle (before ++ (t ++ memoryEntryFrameStart)) c
        (memoryEntryFrameEnd ++ render rest)
      rw [hsource]
      simpa [append_assoc, Nat.add_assoc] using this
    rw [hlength] at hrest
    rw [spansFrom, spansFrom, map_cons, piecesFrom]
    simp only [entryAt]
    rw [htext, hcontent, hsource, hrest]

/-- **Pieces in turn whose spans are the frames of their text are what it is read as.** -/
theorem piecesOf_render {pieces : List Piece} (h : Alternates pieces)
    (hframes : ∀ i k, IsFrame (render pieces) i k ↔ (i, k) ∈ spansFrom pieces 0) :
    piecesOf (render pieces) = pieces := by
  have hsorted : (spansFrom pieces 0).Pairwise fun span span' => span.1 < span'.1 := by
    have := List.Pairwise.and_mem.mp (spansFrom_pairwise pieces 0)
    refine this.imp fun h => ?_
    have := (span_bounds h.1).2.1
    omega
  rw [piecesOf, framedMemoryEntries_eq hsorted hframes]
  exact piecesFrom_render [] pieces h

theorem slice_append_drop {source : List Char} {i j : ℕ} (h : i ≤ j) :
    slice source i j ++ source.drop j = source.drop i := by
  rw [slice, show source.drop j = (source.drop i).drop (j - i) by
    rw [drop_drop, Nat.add_sub_cancel' h]]
  exact take_append_drop _ _

theorem render_piecesFrom {source : List Char} {entries : List FramedMemoryEntry} {fromIndex : ℕ}
    (hfrom : fromIndex ≤ source.length) (hframes : ∀ entry ∈ entries, fromIndex ≤ entry.frameStart ∧
      ∃ i k, IsFrame source i k ∧ entry = entryAt source (i, k))
    (hsorted : entries.Pairwise fun entry entry' => entry.frameStart < entry'.frameStart) :
    render (piecesFrom source entries fromIndex) = source.drop fromIndex ∧
      (spansFrom (piecesFrom source entries fromIndex) fromIndex).map (entryAt source) =
        entries := by
  induction entries generalizing fromIndex with
  | nil => simp [piecesFrom, spansFrom, Piece.rendered, Piece.opening, Piece.body, Piece.closing]
  | cons entry rest ih =>
    obtain ⟨hstart, i, k, hframe, rfl⟩ := hframes _ mem_cons_self
    obtain ⟨hbefore, hrest⟩ := pairwise_cons.mp hsorted
    have hstop := hframe.stop.length_le frameEnd_ne_nil
    rw [frameEnd_length] at hstop
    have hcontent := hframe.content
    obtain ⟨htail, hspans⟩ := ih (show (entryAt source (i, k)).frameEnd ≤ source.length from hstop)
      (fun entry' h => by
        obtain ⟨-, i', k', hframe', rfl⟩ := hframes _ (mem_cons_of_mem _ h)
        exact ⟨hframe.before hframe' (hbefore _ h), i', k', hframe', rfl⟩) hrest
    have hlengthText : (slice source fromIndex i).length = i - fromIndex := by
      simp only [slice, length_take, length_drop]
      omega
    have hlengthContent : (slice source (i + 36) k).length = k - (i + 36) := by
      simp only [slice, length_take, length_drop]
      omega
    constructor
    · rw [piecesFrom]
      simp only [render_cons, entryAt, Piece.rendered, Piece.opening, Piece.body, Piece.closing,
        nil_append, append_nil, append_assoc] at htail ⊢
      rw [htail, ← frameEnd_length, ← hframe.stop.drop_eq, slice_append_drop hcontent,
        ← frameStart_length, ← hframe.start.drop_eq]
      exact slice_append_drop hstart
    · have hindex : fromIndex + (slice source fromIndex i).length = i := by
        have : fromIndex ≤ i := hstart
        omega
      have hend : i + 36 + (slice source (i + 36) k).length = k := by
        omega
      simp only [entryAt] at hspans ⊢
      rw [piecesFrom, spansFrom, spansFrom, hindex, map_cons, hend, hspans]
      rfl

theorem render_piecesOf (source : List Char) : render (piecesOf source) = source :=
  (render_piecesFrom (Nat.zero_le _)
    (fun _ h => ⟨Nat.zero_le _, mem_framedMemoryEntries_iff.mp h⟩)
    (framedMemoryEntries_pairwise source)).1

/-- **The spans of the pieces of a source are its frames.** -/
theorem mem_spansFrom_piecesOf {source : List Char} {i k : ℕ} :
    (i, k) ∈ spansFrom (piecesOf source) 0 ↔ IsFrame source i k := by
  have hspans := (render_piecesFrom (Nat.zero_le _)
    (fun _ h => ⟨Nat.zero_le _, mem_framedMemoryEntries_iff.mp h⟩)
    (framedMemoryEntries_pairwise source)).2
  constructor
  · intro h
    have hmem : entryAt source (i, k) ∈ framedMemoryEntries source := by
      rw [← hspans]
      exact mem_map_of_mem h
    obtain ⟨i', k', hframe, heq⟩ := mem_framedMemoryEntries_iff.mp hmem
    simp only [entryAt, FramedMemoryEntry.mk.injEq] at heq
    rw [heq.2.2.2.2, heq.2.1]
    exact hframe
  · intro h
    have hmem : entryAt source (i, k) ∈ framedMemoryEntries source :=
      mem_framedMemoryEntries_iff.mpr ⟨i, k, h, rfl⟩
    rw [← hspans] at hmem
    obtain ⟨⟨i', k'⟩, hspan, heq⟩ := mem_map.mp hmem
    simp only [entryAt, FramedMemoryEntry.mk.injEq] at heq
    rw [← heq.2.2.2.2, ← heq.2.1]
    exact hspan

end Laborer.AcpRuntime
