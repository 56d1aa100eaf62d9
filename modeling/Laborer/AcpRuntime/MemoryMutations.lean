import Laborer.AcpRuntime.MemoryEdits

/-!
# Mutations of a memory

What an accepted mutation does to the pieces of a memory source, and to what the model
sees of it, as long as the delimiters of its frames are left alone.
-/

namespace Laborer.AcpRuntime

open Laborer.Library List

/-! ## Delimiters in a mutation -/

theorem includes_eq_false {value pattern : List Char} (h : includes value pattern = false)
    (i : ℕ) : ¬ Occurs pattern value i := by
  unfold includes at h
  exact indexOf_eq_none (Option.not_isSome_iff_eq_none.mp (by simpa using h)) (Nat.zero_le i)

variable {c : List Char}

theorem not_occurs_start (h : containsMemoryEntryFrameDelimiter c = false)
    (i : ℕ) : ¬ Occurs memoryEntryStartDelimiter c i :=
  includes_eq_false (Bool.or_eq_false_iff.mp h).1 i

theorem not_occurs_end (h : containsMemoryEntryFrameDelimiter c = false)
    (i : ℕ) : ¬ Occurs memoryEntryEndDelimiter c i :=
  includes_eq_false (Bool.or_eq_false_iff.mp h).2 i

theorem startDelimiter_append : memoryEntryStartDelimiter ++ ['\n'] = memoryEntryFrameStart := by
  decide

theorem endDelimiter_cons : '\n' :: memoryEntryEndDelimiter = memoryEntryFrameEnd := by
  decide

variable {a : List Char}

/-- A text with no delimiter is clear of them between the delimiters of an entry too. -/
theorem content_clear {rest : List Char} (h : containsMemoryEntryFrameDelimiter c = false)
    {j : ℕ} (hj : a.length ≤ j) (hlt : j < a.length + c.length) :
    ¬ Occurs memoryEntryFrameStart (a ++ (c ++ (memoryEntryFrameEnd ++ rest))) j ∧
      ¬ Occurs memoryEntryFrameEnd (a ++ (c ++ (memoryEntryFrameEnd ++ rest))) j := by
  have hend : Occurs memoryEntryFrameEnd (a ++ (c ++ (memoryEntryFrameEnd ++ rest)))
      (a.length + c.length) := by
    rw [occurs_append_right]
    exact occurs_append _ _ _
  obtain ⟨d, rfl⟩ := Nat.exists_eq_add_of_le hj
  constructor
  · intro hat
    have hbound := start_before_end hat hend hlt.le
    have hpart : Occurs memoryEntryStartDelimiter (a ++ (c ++ (memoryEntryFrameEnd ++ rest)))
        (a.length + d) :=
      Occurs.part (u := []) (w := ['\n']) (by rwa [nil_append, startDelimiter_append])
    rw [occurs_append_right, occurs_append_left (by
      have : memoryEntryStartDelimiter.length = 35 := by decide
      omega)] at hpart
    exact not_occurs_start h _ hpart
  · intro hat
    have hbound := end_before_end hat hend hlt
    have hpart : Occurs memoryEntryEndDelimiter (a ++ (c ++ (memoryEntryFrameEnd ++ rest)))
        (a.length + d + 1) :=
      Occurs.part (u := ['\n']) (w := []) (by rwa [append_nil, singleton_append, endDelimiter_cons])
    rw [Nat.add_assoc, occurs_append_right, occurs_append_left (by
      have : memoryEntryEndDelimiter.length = 33 := by decide
      omega)] at hpart
    exact not_occurs_end h _ hpart

/-! ## Entries that stand apart -/

/-- A start delimiter with no delimiter after it. -/
def OpenStart (text : List Char) : Prop :=
  ∃ i, Occurs memoryEntryFrameStart text i ∧ ∀ j, i + 36 ≤ j →
    ¬ Occurs memoryEntryFrameStart text j ∧ ¬ Occurs memoryEntryFrameEnd text j

/-- An end delimiter with no delimiter before it. -/
def LooseEnd (text : List Char) : Prop :=
  ∃ k, Occurs memoryEntryFrameEnd text k ∧ ∀ j, j < k →
    ¬ Occurs memoryEntryFrameStart text j ∧ ¬ Occurs memoryEntryFrameEnd text j

variable {k : ℕ} {source : List Char}

theorem end_at_newline {n : ℕ} (h : Occurs memoryEntryFrameEnd source k)
    (hle : k ≤ n) (hlt : n < k + 34) (hn : source[n]? = some '\n') : n = k := by
  have hat := h.getElem? (i := n - k) (by rw [frameEnd_length]; omega)
  rw [Nat.add_sub_cancel' hle, hn] at hat
  have := frameEnd_newline (n - k) (by omega) hat.symm
  omega

variable {i : ℕ}

theorem start_at_newline {n : ℕ} (h : Occurs memoryEntryFrameStart source i)
    (hle : i ≤ n) (hlt : n < i + 36) (hn : source[n]? = some '\n') : n = i + 35 := by
  have hat := h.getElem? (i := n - i) (by rw [frameStart_length]; omega)
  rw [Nat.add_sub_cancel' hle, hn] at hat
  have := frameStart_newline (n - i) (by omega) hat.symm
  omega

/-- Before a blank line, a frame that reaches across pairs a start delimiter with an end
delimiter that nothing stands between. -/
theorem across_of_unpaired {b : List Char} (hb : b = [] ∨ memoryEntrySeparator <+: b)
    (hpair : ¬ (OpenStart (a ++ ['\n']) ∧ LooseEnd b)) (h : IsFrame (a ++ b) i k) :
    k + 34 ≤ a.length ∨ a.length ≤ i := by
  by_contra hacross
  rw [not_or, not_le, not_le] at hacross
  obtain ⟨hk, hi⟩ := hacross
  have hstop := h.stop.length_le frameEnd_ne_nil
  rw [frameEnd_length, length_append] at hstop
  obtain rfl | ⟨rest, rfl⟩ := hb
  · rw [length_nil] at hstop
    omega
  · have hfirst : (a ++ (memoryEntrySeparator ++ rest))[a.length]? = some '\n' := by
      rw [getElem?_append_right le_rfl, Nat.sub_self]
      rfl
    have hsecond : (a ++ (memoryEntrySeparator ++ rest))[a.length + 1]? = some '\n' := by
      rw [getElem?_append_right (by omega), Nat.add_sub_cancel_left]
      rfl
    have hcontent := h.content
    have hbehind : a.length ≤ k := by
      by_contra hbefore
      have := end_at_newline h.stop (by omega) hk hfirst
      omega
    have hshort : i + 36 ≤ a.length + 1 := by
      by_contra hlong
      have := start_at_newline h.start hi.le (by omega) hfirst
      omega
    have hsplit : a ++ (memoryEntrySeparator ++ rest) = (a ++ ['\n']) ++ ('\n' :: rest) := by
      simp [memoryEntrySeparator]
    have hlength : (a ++ ['\n']).length = a.length + 1 := by
      simp
    refine hpair ⟨⟨i, ?_, fun j hj => ⟨fun hat => ?_, fun hat => ?_⟩⟩, k - a.length, ?_,
      fun j hj => ⟨fun hat => ?_, fun hat => ?_⟩⟩
    · have := h.start
      rw [hsplit] at this
      exact (occurs_append_left (by rw [frameStart_length]; omega)).mp this
    · have hbound := hat.length_le frameStart_ne_nil
      rw [frameStart_length, hlength] at hbound
      refine h.noStart j hj (by omega) ?_
      rw [hsplit]
      exact hat.append_left frameStart_ne_nil
    · have hbound := hat.length_le frameEnd_ne_nil
      rw [frameEnd_length, hlength] at hbound
      refine h.noEnd j hj (by omega) ?_
      rw [hsplit]
      exact hat.append_left frameEnd_ne_nil
    · rw [← occurs_append_right (a := a), Nat.add_sub_cancel' hbehind]
      exact h.stop
    · have hat' := (occurs_append_right (a := a) j).mpr hat
      exact h.noStart _ (start_before_start h.start hat' (by omega)) (by omega) hat'
    · have hat' := (occurs_append_right (a := a) j).mpr hat
      have hbound := start_before_end h.start hat' (by omega)
      refine h.noEnd _ ?_ (by omega) hat'
      by_contra hoverlap
      -- the delimiter would begin with the blank line
      obtain rfl : j = 0 := by omega
      rw [Nat.add_zero] at hat'
      have := end_at_newline hat' (Nat.le_succ _) (by omega) hsecond
      omega

/-- The places of the separator of an entry: before it, or, at the start of a source,
after it. -/
inductive SeparatorPlace (a y₁ y₂ b : List Char) : Prop where
  | before (hb : b = [] ∨ memoryEntrySeparator <+: b) (h₁ : y₁ = memoryEntrySeparator)
      (h₂ : y₂ = []) : SeparatorPlace a y₁ y₂ b
  | after (ha : a = []) (h₁ : y₁ = []) (h₂ : y₂ = memoryEntrySeparator) : SeparatorPlace a y₁ y₂ b
  | alone (ha : a = []) (h₁ : y₁ = []) (h₂ : y₂ = []) (hb : b = []) : SeparatorPlace a y₁ y₂ b

theorem standsApart {b y₁ y₂ : List Char} (hplace : SeparatorPlace a y₁ y₂ b) (hframe : IsFrame
      (a ++ (y₁ ++ (memoryEntryFrameStart ++ (c ++ (memoryEntryFrameEnd ++ y₂))) ++ b))
      (a.length + y₁.length) (a.length + y₁.length + 36 + c.length)) (hkeeps : KeepsBoundaries a
      (y₁ ++ (memoryEntryFrameStart ++ (c ++ (memoryEntryFrameEnd ++ y₂)))) [] b)
    (hpair : ¬ (OpenStart (a ++ ['\n']) ∧ LooseEnd b)) :
    StandsApart a (y₁ ++ (memoryEntryFrameStart ++ (c ++ (memoryEntryFrameEnd ++ y₂)))) b
      (a.length + y₁.length) (a.length + y₁.length + 36 + c.length) where
  toKeepsBoundaries := hkeeps
  frame := hframe
  low := Nat.le_add_right _ _
  high := by
    simp only [length_append, frameStart_length, frameEnd_length]
    omega
  gapBefore k hstop hk := by
    cases hplace with
    | before hb h₁ h₂ =>
      subst h₁
      by_contra hlate
      have hlength : memoryEntrySeparator.length = 2 := rfl
      have hfirst : (a ++ (memoryEntrySeparator ++ (memoryEntryFrameStart ++
          (c ++ (memoryEntryFrameEnd ++ y₂))) ++ b))[a.length]? = some '\n' := by
        rw [getElem?_append_right le_rfl, Nat.sub_self]
        rfl
      have := end_at_newline hstop (by omega) (by omega) hfirst
      omega
    | after ha h₁ h₂ =>
      subst ha h₁
      simp at hk
    | alone ha h₁ h₂ hb =>
      subst ha h₁
      simp at hk
  gapAfter i hstart hi := by
    simp only [length_append, frameStart_length, frameEnd_length]
    cases hplace with
    | before hb h₁ h₂ =>
      subst h₂
      rw [length_nil]
      omega
    | after ha h₁ h₂ =>
      subst ha h₁ h₂
      have hlength : memoryEntrySeparator.length = 2 := rfl
      simp only [length_nil, Nat.zero_add] at hi ⊢
      by_contra hearly
      -- a bracket cannot stand in the separator
      have hbracket := bracket_of_start hstart
      have hsplit : ([] : List Char) ++ ([] ++ (memoryEntryFrameStart ++
          (c ++ (memoryEntryFrameEnd ++ memoryEntrySeparator))) ++ b) =
          (memoryEntryFrameStart ++ (c ++ memoryEntryFrameEnd)) ++ (memoryEntrySeparator ++ b) := by
        simp
      have hfront : (memoryEntryFrameStart ++ (c ++ memoryEntryFrameEnd)).length =
          36 + c.length + 34 := by
        simp only [length_append, frameStart_length, frameEnd_length]
        omega
      rw [hsplit, getElem?_append_right (by omega), hfront] at hbracket
      obtain h | h : i - (36 + c.length + 34) = 0 ∨ i - (36 + c.length + 34) = 1 := by omega
      · rw [h] at hbracket
        revert hbracket
        simp [memoryEntrySeparator]
      · rw [h] at hbracket
        revert hbracket
        simp [memoryEntrySeparator]
    | alone ha h₁ h₂ hb =>
      subst h₂
      rw [length_nil]
      omega
  across i k h := by
    cases hplace with
    | before hb h₁ h₂ => exact across_of_unpaired hb hpair h
    | after ha h₁ h₂ =>
      subst ha
      exact .inr (Nat.zero_le i)
    | alone ha h₁ h₂ hb =>
      subst ha
      exact .inr (Nat.zero_le i)

/-! ## Where a match lies -/

theorem split_range (text : List Char) {j : ℕ} (hij : i ≤ j) (hj : j ≤ text.length) :
    text = text.take i ++ ((text.drop i).take (j - i) ++ text.drop j) ∧
      ((text.drop i).take (j - i)).length = j - i ∧ (text.take i).length = i := by
  refine ⟨?_, ?_, ?_⟩
  · have hdrop : text.drop j = (text.drop i).drop (j - i) := by
      rw [drop_drop, Nat.add_sub_cancel' hij]
    rw [hdrop, take_append_drop, take_append_drop]
  · rw [length_take, length_drop]
    omega
  · rw [length_take]
    omega

/-- A range that no frame cuts lies in the body of one piece. -/
theorem exists_piece_of_range {stop : ℕ} (hlt : i < stop) (pieces : List Piece)
    (halternates : Alternates pieces) (index : ℕ) (hlow : index ≤ i)
    (hhigh : stop ≤ index + (render pieces).length) (hvisible : ∀ span ∈ spansFrom pieces index,
      stop ≤ span.1 ∨ span.2 + 34 ≤ i ∨ (span.1 + 36 ≤ i ∧ stop ≤ span.2)) :
    ∃ before piece after x m y, pieces = before ++ piece :: after ∧
      piece.body = x ++ (m ++ y) ∧ m.length = stop - i ∧
      index + (render before).length + piece.opening.length + x.length = i := by
  revert index
  refine alternates_induction ?_ ?_ pieces halternates
  · intro t index hlow hhigh _
    rw [render_cons, render_nil, append_nil, rendered_length_text] at hhigh
    obtain ⟨hsplit, hmiddle, hfront⟩ :=
      split_range t (show i - index ≤ stop - index by omega) (by omega)
    refine ⟨[], .text t, [], _, _, _, rfl, hsplit, by omega, ?_⟩
    simp only [render_nil, Piece.opening, length_nil]
    omega
  · intro t c rest _ ih index hlow hhigh hvisible
    rw [render_cons, render_cons, length_append, length_append, rendered_length_text,
      rendered_length_entry] at hhigh
    by_cases htext : stop ≤ index + t.length
    · obtain ⟨hsplit, hmiddle, hfront⟩ :=
        split_range t (show i - index ≤ stop - index by omega) (by omega)
      refine ⟨[], .text t, .entry c :: rest, _, _, _, rfl, hsplit, by omega, ?_⟩
      simp only [render_nil, Piece.opening, length_nil]
      omega
    · have hspan := hvisible (index + t.length, index + t.length + 36 + c.length) mem_cons_self
      dsimp only at hspan
      obtain h | h | ⟨hstart, hstop⟩ := hspan
      · exact absurd h htext
      · -- behind the entry
        obtain ⟨before, piece, after, x, m, y, hpieces, hbody, hm, hat⟩ :=
          ih (index + t.length + 36 + c.length + 34) (by omega) (by omega)
            fun span hmem => hvisible span (mem_cons_of_mem _ hmem)
        refine ⟨.text t :: .entry c :: before, piece, after, x, m, y, ?_, hbody, hm, ?_⟩
        · rw [hpieces]
          rfl
        · rw [render_cons, render_cons, length_append, length_append,
            rendered_length_text, rendered_length_entry]
          omega
      · -- in the entry
        obtain ⟨hsplit, hmiddle, hfront⟩ := split_range c
          (show i - (index + t.length + 36) ≤ stop - (index + t.length + 36) by omega) (by omega)
        refine ⟨[.text t], .entry c, rest, _, _, _, rfl, hsplit, by omega, ?_⟩
        rw [render_cons, render_nil, append_nil, rendered_length_text, hfront]
        simp only [Piece.opening, frameStart_length]
        omega

theorem exists_last_text (pieces : List Piece) (h : Alternates pieces) :
    ∃ before t, pieces = before ++ [.text t] := by
  refine alternates_induction ?_ ?_ pieces h
  · exact fun t => ⟨[], t, rfl⟩
  · rintro t c rest _ ⟨before, t', rfl⟩
    exact ⟨.text t :: .entry c :: before, t', rfl⟩

theorem exists_first_text (pieces : List Piece) (h : Alternates pieces) :
    ∃ t after, pieces = .text t :: after ∧ (after = [] ∨ ∃ c rest, after = .entry c :: rest) := by
  refine alternates_induction ?_ ?_ pieces h
  · exact fun t => ⟨t, [], rfl, .inl rfl⟩
  · exact fun t c rest _ _ => ⟨t, _, rfl, .inr ⟨c, rest, rfl⟩⟩

/-- The entry of a span stands between two texts, and what lies beyond these are entries
or nothing. -/
theorem exists_entry_of_span (pieces : List Piece) (halternates : Alternates pieces)
    (index : ℕ) (h : (i, k) ∈ spansFrom pieces index) :
    ∃ before t₁ c t₂ after, pieces = before ++ .text t₁ :: .entry c :: .text t₂ :: after ∧
      index + (render before).length + t₁.length = i ∧ k = i + 36 + c.length ∧
      (before = [] ∨ ∃ rest c', before = rest ++ [.entry c']) ∧
      (after = [] ∨ ∃ c' rest, after = .entry c' :: rest) := by
  revert index
  refine alternates_induction ?_ ?_ pieces halternates
  · intro t index h
    simp [spansFrom] at h
  · intro t c rest hrest ih index h
    rcases mem_cons.mp h with heq | h
    · obtain ⟨rfl, rfl⟩ := Prod.mk.inj heq
      obtain ⟨t₂, after, rfl, hafter⟩ := exists_first_text rest hrest
      exact ⟨[], t, c, t₂, after, rfl, by simp, rfl, .inl rfl, hafter⟩
    · obtain ⟨before, t₁, c', t₂, after, hpieces, hi, hk, hbefore, hafter⟩ := ih _ h
      refine ⟨.text t :: .entry c :: before, t₁, c', t₂, after, ?_, ?_, hk, .inr ?_, hafter⟩
      · rw [hpieces]
        rfl
      · rw [render_cons, render_cons, length_append, length_append,
          rendered_length_text, rendered_length_entry]
        omega
      · rcases hbefore with rfl | ⟨rest', c'', rfl⟩
        · exact ⟨[.text t], c, rfl⟩
        · exact ⟨.text t :: .entry c :: rest', c'', rfl⟩

/-! ## The separator of an entry -/

theorem slice_eq_iff {pattern : List Char} :
    slice source i (i + pattern.length) = pattern ↔ Occurs pattern source i := by
  rw [slice, Nat.add_sub_cancel_left, Occurs, prefix_iff_eq_take]
  exact eq_comm

theorem separator_before {t rest : List Char} {before : List Piece}
    (hsource : source = render before ++ (t ++ rest)) (hi : (render before).length + t.length = i)
    (hbefore : before = [] ∨ ∃ rest c, before = rest ++ [.entry c]) (h2 : 2 ≤ i)
    (hat : Occurs memoryEntrySeparator source (i - 2)) : ∃ t', t = t' ++ memoryEntrySeparator := by
  by_cases hlong : 2 ≤ t.length
  · refine ⟨t.take (t.length - 2), ?_⟩
    have hsplit : source = (render before ++ t.take (t.length - 2)) ++
        (t.drop (t.length - 2) ++ rest) := by
      rw [hsource, append_assoc, ← append_assoc (t.take _), take_append_drop]
    have hindex : i - 2 = (render before ++ t.take (t.length - 2)).length + 0 := by
      rw [length_append, length_take]
      omega
    have hlength : (t.drop (t.length - 2)).length = 2 := by
      rw [length_drop]
      omega
    rw [hindex, hsplit, occurs_append_right, occurs_append_left (by rw [hlength]; rfl)] at hat
    rw [List.IsPrefix.eq_of_length hat hlength.symm]
    exact (take_append_drop _ _).symm
  · exfalso
    obtain rfl | ⟨rest', c, rfl⟩ := hbefore
    · rw [render_nil, length_nil] at hi
      omega
    · -- the end delimiter before the text reaches into the separator
      have hrender : render (rest' ++ [.entry c]) =
          (render rest' ++ (memoryEntryFrameStart ++ c)) ++ memoryEntryFrameEnd := by
        simp [Piece.rendered, Piece.opening, Piece.body, Piece.closing]
      have hend : Occurs memoryEntryFrameEnd source
          (render rest' ++ (memoryEntryFrameStart ++ c)).length := by
        rw [hsource, hrender, append_assoc]
        exact occurs_append _ _ _
      have hlength : (render (rest' ++ [.entry c])).length =
          (render rest' ++ (memoryEntryFrameStart ++ c)).length + 34 := by
        rw [hrender, length_append, frameEnd_length]
      have hlast := hend.getElem? (i := 33) (by decide)
      have hnewline := hat.getElem? (i := 1 - t.length) (by
        show _ < 2
        omega)
      rw [show i - 2 + (1 - t.length) =
        (render rest' ++ (memoryEntryFrameStart ++ c)).length + 33 by omega, hlast] at hnewline
      obtain h | h : t.length = 0 ∨ t.length = 1 := by omega
      · rw [h] at hnewline
        revert hnewline
        decide
      · rw [h] at hnewline
        revert hnewline
        decide

theorem separator_after {front t : List Char} {after : List Piece}
    (hsource : source = front ++ (t ++ render after))
    (hafter : after = [] ∨ ∃ c rest, after = .entry c :: rest)
    (hat : Occurs memoryEntrySeparator source front.length) :
    ∃ t', t = memoryEntrySeparator ++ t' := by
  have hstart : Occurs memoryEntrySeparator (t ++ render after) 0 := by
    rw [← occurs_append_right (a := front), Nat.add_zero, ← hsource]
    exact hat
  by_cases hlong : 2 ≤ t.length
  · rw [occurs_append_left (by rw [Nat.zero_add]; exact hlong)] at hstart
    obtain ⟨t', ht⟩ := hstart
    exact ⟨t', ht.symm⟩
  · exfalso
    obtain rfl | ⟨c, rest, rfl⟩ := hafter
    · have := hstart.length_le (by decide)
      rw [render_nil, append_nil] at this
      have hlength : memoryEntrySeparator.length = 2 := rfl
      omega
    · have hbracket : (t ++ render (.entry c :: rest))[t.length]? = some '<' := by
        rw [getElem?_append_right le_rfl, Nat.sub_self]
        rfl
      have hnewline := hstart.getElem? (i := t.length) (by
        show _ < 2
        omega)
      rw [Nat.zero_add, hbracket] at hnewline
      obtain h | h : t.length = 0 ∨ t.length = 1 := by omega
      · rw [h] at hnewline
        revert hnewline
        decide
      · rw [h] at hnewline
        revert hnewline
        decide

/-- The pieces around a frame, with the separator that goes with it. -/
theorem pieces_around_frame {entry : FramedMemoryEntry}
    (hframe : IsFrame source i k) (hentry : entry = entryAt source (i, k)) :
    ∃ before t₁ y₁ c y₂ t₂ after, piecesOf source =
        before ++ .text (t₁ ++ y₁) :: .entry c :: .text (y₂ ++ t₂) :: after ∧
      SeparatorPlace (render before ++ t₁) y₁ y₂ (t₂ ++ render after) ∧
      i = (render before ++ t₁).length + y₁.length ∧ k = i + 36 + c.length ∧
      removalRange source entry = ((render before ++ t₁).length, k + 34 + y₂.length) := by
  obtain ⟨before, t₁, c, t₂, after, hpieces, hi, hk, hbefore, hafter⟩ :=
    exists_entry_of_span _ (alternates_piecesOf source) 0 (mem_spansFrom_piecesOf.mpr hframe)
  rw [Nat.zero_add] at hi
  have hsource : source = render before ++ (t₁ ++ (memoryEntryFrameStart ++
      (c ++ (memoryEntryFrameEnd ++ (t₂ ++ render after))))) := by
    rw [← render_piecesOf source, hpieces]
    simp [Piece.rendered, Piece.opening, Piece.body, Piece.closing]
  have hfront : source = (render before ++ (t₁ ++ (memoryEntryFrameStart ++
      (c ++ memoryEntryFrameEnd)))) ++ (t₂ ++ render after) := by
    rw [hsource]
    simp
  have hfrontLength : (render before ++ (t₁ ++ (memoryEntryFrameStart ++
      (c ++ memoryEntryFrameEnd)))).length = k + 34 := by
    simp only [length_append, frameStart_length, frameEnd_length]
    omega
  have hlength : memoryEntrySeparator.length = 2 := rfl
  subst hentry
  have hrange : removalRange source (entryAt source (i, k)) =
      if 2 ≤ i && slice source (i - 2) i = memoryEntrySeparator then (i - 2, k + 34)
      else if slice source (k + 34) (k + 34 + 2) = memoryEntrySeparator then (i, k + 34 + 2)
      else (i, k + 34) := rfl
  have hboundary := hframe.startBoundary
  unfold startsAtEntryBoundary at hboundary
  rw [hlength, Bool.or_eq_true, decide_eq_true_eq, Bool.and_eq_true, decide_eq_true_eq,
    decide_eq_true_eq] at hboundary
  have hboundary' := hframe.endBoundary
  unfold endsAtEntryBoundary at hboundary'
  rw [hlength, Bool.or_eq_true, decide_eq_true_eq, decide_eq_true_eq] at hboundary'
  -- what the boundary after the entry says of the text there
  have hbehind : t₂ ++ render after = [] ∨ memoryEntrySeparator <+: t₂ ++ render after := by
    rcases hboundary' with hend | hsep
    · left
      rw [hfront, length_append, hfrontLength] at hend
      exact length_eq_zero_iff.mp (by omega)
    · right
      have hat : Occurs memoryEntrySeparator source (k + 34) := slice_eq_iff.mp hsep
      have hzero : k + 34 = (render before ++ (t₁ ++ (memoryEntryFrameStart ++
          (c ++ memoryEntryFrameEnd)))).length + 0 := by
        omega
      rw [hzero, hfront, occurs_append_right] at hat
      exact hat
  rcases hboundary with rfl | ⟨h2, hsep⟩
  · -- at the start of the source
    obtain rfl : before = [] := by
      obtain h | ⟨rest, c', rfl⟩ := hbefore
      · exact h
      · rw [render_append, length_append, render_cons, length_append, rendered_length_entry] at hi
        omega
    obtain rfl : t₁ = [] := length_eq_zero_iff.mp (by omega)
    by_cases hafterSep : slice source (k + 34) (k + 34 + 2) = memoryEntrySeparator
    · have hat : Occurs memoryEntrySeparator source (k + 34) := slice_eq_iff.mp hafterSep
      rw [← hfrontLength] at hat
      obtain ⟨t', rfl⟩ := separator_after hfront hafter hat
      refine ⟨[], [], [], c, memoryEntrySeparator, t', after, hpieces, .after rfl rfl rfl,
        by simp, hk, ?_⟩
      rw [hrange, if_neg (by simp), if_pos hafterSep]
      rfl
    · have hnil : t₂ ++ render after = [] := by
        refine hbehind.resolve_right fun hprefix => hafterSep ?_
        have hat : Occurs memoryEntrySeparator source (k + 34) := by
          rw [← hfrontLength, hfront]
          exact (occurs_append_right 0).mpr hprefix
        exact slice_eq_iff.mpr hat
      obtain ⟨rfl, hrest⟩ := append_eq_nil_iff.mp hnil
      refine ⟨[], [], [], c, [], [], after, hpieces, .alone rfl rfl rfl ?_, by simp, hk, ?_⟩
      · simpa using hrest
      · rw [hrange, if_neg (by simp), if_neg hafterSep]
        rfl
  · -- behind a separator
    have hat : Occurs memoryEntrySeparator source (i - 2) := by
      rw [← slice_eq_iff, hlength, show i - 2 + 2 = i by omega]
      exact hsep
    obtain ⟨t', rfl⟩ := separator_before hsource hi hbefore h2 hat
    rw [length_append, hlength] at hi
    refine ⟨before, t', memoryEntrySeparator, c, [], t₂, after, hpieces,
      .before hbehind rfl rfl, ?_, hk, ?_⟩
    · rw [length_append, hlength]
      omega
    · rw [hrange, if_pos (by simp [h2, hsep]), length_append, length_nil]
      exact Prod.ext (by dsimp only; omega) rfl

end Laborer.AcpRuntime
