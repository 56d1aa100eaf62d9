import Laborer.Library.Text

/-!
# Texts of lines

A listing with one line for each item is trimmed and split again, and a text made of blocks
of lines is cut ahead of the blocks. The items come back when no white space of theirs
stands at the ends of the listing, and no line of a block but the first looks like the start
of one.
-/

namespace Laborer.Library

open List

universe u

/-! ## Lines and trimming -/

def unlines (lines : List (List Char)) : List Char :=
  lines.flatMap fun line => line ++ ['\n']

def joinLines (lines : List (List Char)) : List Char :=
  ['\n'].intercalate lines

/-- White space at the end dropped, as `text.trimEnd()`. -/
def trimEndChars (text : List Char) : List Char :=
  (text.reverse.dropWhile isJsWhitespace).reverse

def trimChars (text : List Char) : List Char :=
  trimEndChars (text.dropWhile isJsWhitespace)

/-- A text that starts and ends with a character other than white space. -/
def IsTrimmed (text : List Char) : Prop :=
  (∀ c ∈ text.head?, isJsWhitespace c = false) ∧ ∀ c ∈ text.getLast?, isJsWhitespace c = false

theorem unlines_cons (line : List Char) (lines : List (List Char)) :
    unlines (line :: lines) = line ++ '\n' :: unlines lines := by
  simp [unlines]

variable {lines : List (List Char)}

theorem unlines_eq_joinLines (h : lines ≠ []) : unlines lines = joinLines lines ++ ['\n'] := by
  induction lines with
  | nil => exact absurd rfl h
  | cons line lines ih =>
    cases lines with
    | nil => simp [unlines, joinLines, intercalate]
    | cons other rest =>
      rw [unlines_cons, ih (cons_ne_nil _ _)]
      simp [joinLines, intercalate]

theorem splitOn_of_not_mem {α : Type u} [BEq α] [LawfulBEq α] {separator : α} {text : List α}
    (h : separator ∉ text) : text.splitOn separator = [text] := by
  apply splitOnP_eq_singleton
  intro c hc
  rw [beq_eq_false_iff_ne]
  rintro rfl
  exact h hc

theorem splitOn_append_cons {α : Type u} [BEq α] [LawfulBEq α] (separator : α)
    (before after : List α) : (before ++ separator :: after).splitOn separator =
      before.splitOn separator ++ after.splitOn separator :=
  splitOnP_append_cons before after (by simp)

section Components

variable {α : Type u} [BEq α] [LawfulBEq α] {a : α} {l word component : List α}

theorem of_mem_splitOn (h : component ∈ l.splitOn a) :
    ∃ before after, l = before ++ component ++ after ∧ (before = [] ∨ [a] <:+ before) ∧
      (after = [] ∨ [a] <+: after) := by
  induction hlength : l.length using Nat.strong_induction_on generalizing l with
  | _ n ih =>
    by_cases hmem : a ∈ l
    · -- cut at the first separator
      obtain ⟨first, rest, rfl, hfirst⟩ := eq_append_cons_of_mem hmem
      rw [splitOn_append_cons, splitOn_of_not_mem hfirst] at h
      rcases mem_cons.mp h with rfl | hrest
      · exact ⟨[], a :: rest, by simp, .inl rfl, .inr (by simp)⟩
      · have hless : rest.length < n := by
          simp at hlength
          omega
        obtain ⟨before, after, rfl, hbefore, hafter⟩ := ih _ hless hrest rfl
        refine ⟨first ++ a :: before, after, by simp, .inr ?_, hafter⟩
        rcases hbefore with rfl | ⟨before', rfl⟩
        · simp
        · exact ⟨first ++ a :: before', by simp⟩
    · rw [splitOn_of_not_mem hmem] at h
      simp only [mem_singleton] at h
      exact ⟨[], [], by simp [h], .inl rfl, .inl rfl⟩

theorem exists_prefix_splitOn (hword : a ∉ word) (rest : List α) :
    ∃ component ∈ (word ++ rest).splitOn a, word <+: component := by
  by_cases hmem : a ∈ rest
  · obtain ⟨first, rest, rfl, hfirst⟩ := eq_append_cons_of_mem hmem
    refine ⟨word ++ first, ?_, prefix_append _ _⟩
    rw [← append_assoc, splitOn_append_cons, splitOn_of_not_mem]
    · simp
    · simp [hword, hfirst]
  · refine ⟨word ++ rest, ?_, prefix_append _ _⟩
    rw [splitOn_of_not_mem]
    · simp
    · simp [hword, hmem]

theorem exists_suffix_splitOn (hword : a ∉ word) (before : List α) :
    ∃ component ∈ (before ++ word).splitOn a, word <:+ component := by
  induction hlength : before.length using Nat.strong_induction_on generalizing before with
  | _ n ih =>
    by_cases hmem : a ∈ before
    · obtain ⟨first, rest, rfl, hfirst⟩ := eq_append_cons_of_mem hmem
      have hless : rest.length < n := by
        simp at hlength
        omega
      obtain ⟨component, hcomponent, hsuffix⟩ := ih _ hless rest rfl
      refine ⟨component, ?_, hsuffix⟩
      rw [append_assoc, cons_append, splitOn_append_cons]
      exact mem_append_right _ hcomponent
    · refine ⟨before ++ word, ?_, suffix_append _ _⟩
      rw [splitOn_of_not_mem]
      · simp
      · simp [hword, hmem]

end Components

theorem splitOn_joinLines (h : lines ≠ [])
    (hlines : ∀ line ∈ lines, '\n' ∉ line) : (joinLines lines).splitOn '\n' = lines :=
  splitOn_intercalate '\n' hlines h

theorem splitOn_unlines (hlines : ∀ line ∈ lines, '\n' ∉ line) :
    (unlines lines).splitOn '\n' = lines ++ [[]] := by
  induction lines with
  | nil => rfl
  | cons line lines ih =>
    have hrest := ih fun other hother => hlines other (mem_cons_of_mem line hother)
    have hline := splitOn_of_not_mem (hlines line (mem_cons_self ..))
    rw [unlines_cons, splitOn_append_cons, hline, hrest]
    rfl

variable {text : List Char}

theorem dropWhile_eq_self {p : Char → Bool}
    (h : ∀ c ∈ text.head?, p c = false) : text.dropWhile p = text := by
  cases text with
  | nil => rfl
  | cons c text => rw [dropWhile_cons, if_neg (by simp [h c rfl])]

theorem trimEndChars_newline (h : ∀ c ∈ text.getLast?, isJsWhitespace c = false) :
    trimEndChars (text ++ ['\n']) = text := by
  have hnewline : isJsWhitespace '\n' = true := by decide
  rw [trimEndChars, reverse_append, reverse_singleton, singleton_append,
    dropWhile_cons, if_pos hnewline, dropWhile_eq_self, reverse_reverse]
  intro c hc
  rw [head?_reverse] at hc
  exact h c hc

theorem trimChars_newline (hne : text ≠ []) (h : IsTrimmed text) :
    trimChars (text ++ ['\n']) = text := by
  have hhead : ∀ c ∈ (text ++ ['\n']).head?, isJsWhitespace c = false := by
    intro c hc
    rw [head?_append_of_ne_nil _ hne] at hc
    exact h.1 c hc
  rw [trimChars, dropWhile_eq_self hhead]
  exact trimEndChars_newline h.2

theorem head?_joinLines {line : List Char} (h : line ≠ []) :
    (joinLines (line :: lines)).head? = line.head? := by
  cases lines with
  | nil => simp [joinLines, intercalate]
  | cons other rest =>
    cases line with
    | nil => exact absurd rfl h
    | cons c line => rfl

theorem getLast?_joinLines {line : List Char} (h : line ≠ []) :
    (joinLines (lines ++ [line])).getLast? = line.getLast? := by
  induction lines with
  | nil => simp [joinLines, intercalate]
  | cons other lines ih =>
    have hstep : joinLines (other :: lines ++ [line]) =
        (other ++ ['\n']) ++ joinLines (lines ++ [line]) := by
      cases lines with
      | nil => simp [joinLines, intercalate]
      | cons next rest => simp [joinLines, intercalate]
    have hlast : line.getLast? ≠ none := by
      rw [Ne, getLast?_eq_none_iff]
      exact h
    obtain ⟨c, hc⟩ := Option.ne_none_iff_exists'.mp hlast
    rw [hc] at ih ⊢
    rw [hstep, getLast?_append, ih]
    rfl

/-- A joined text is trimmed when its first line starts, and its last one ends, without white
space. -/
theorem isTrimmed_joinLines (hne : ∀ line ∈ lines, line ≠ [])
    (hhead : ∀ line ∈ lines.head?, ∀ c ∈ line.head?, isJsWhitespace c = false)
    (hlast : ∀ line ∈ lines.getLast?, ∀ c ∈ line.getLast?, isJsWhitespace c = false) :
    IsTrimmed (joinLines lines) := by
  constructor
  · cases lines with
    | nil =>
      intro c hc
      cases hc
    | cons line rest =>
      rw [head?_joinLines (hne line (mem_cons_self ..))]
      exact hhead line rfl
  · rcases eq_nil_or_concat lines with rfl | ⟨before, line, rfl⟩
    · intro c hc
      cases hc
    · rw [concat_eq_append] at hne hlast ⊢
      rw [getLast?_joinLines (hne line (mem_append_right _ (mem_singleton_self _)))]
      exact hlast line getLast?_concat

/-- **A listing that is trimmed and split gives its lines.** -/
theorem splitOn_trimChars_unlines (h : lines ≠ [])
    (hlines : ∀ line ∈ lines, '\n' ∉ line) (hne : joinLines lines ≠ [])
    (htrimmed : IsTrimmed (joinLines lines)) :
    (trimChars (unlines lines)).splitOn '\n' = lines := by
  rw [unlines_eq_joinLines h, trimChars_newline hne htrimmed]
  exact splitOn_joinLines h hlines

/-! ## Cutting ahead of a block -/

/-- The pieces of a text cut where the character before and the rest ask for it. -/
def splitAhead (starts : Char → List Char → Bool) : List Char → List (List Char)
  | [] => [[]]
  | [c] => [[c]]
  | c :: d :: rest =>
    match splitAhead starts (d :: rest) with
    | [] => [[c]]
    | part :: parts => if starts c (d :: rest) then [c] :: part :: parts else (c :: part) :: parts

variable {starts : Char → List Char → Bool} {block rest : List Char} {c : Char}

theorem splitAhead_ne_nil (text : List Char) : splitAhead starts text ≠ [] := by
  induction text using splitAhead.induct starts with
  | case1 => exact cons_ne_nil _ _
  | case2 c => exact cons_ne_nil _ _
  | case3 c d rest hnil ih => exact absurd hnil ih
  | case4 c d rest part parts hsplit hstarts ih =>
    rw [splitAhead, hsplit]
    dsimp only
    rw [if_pos hstarts]
    exact cons_ne_nil _ _
  | case5 c d rest part parts hsplit hstarts ih =>
    rw [splitAhead, hsplit]
    dsimp only
    rw [if_neg hstarts]
    exact cons_ne_nil _ _

/-- Nothing inside the block asks for a cut, whatever follows the block. -/
def IsBlock (starts : Char → List Char → Bool) (block : List Char) : Prop :=
  ∀ before c after, block = before ++ c :: after → after ≠ [] → ∀ rest,
    starts c (after ++ rest) = false

theorem IsBlock.tail (h : IsBlock starts (c :: block)) : IsBlock starts block := by
  intro before d after hblock hafter rest
  exact h (c :: before) d after (by rw [hblock]; rfl) hafter rest

theorem IsBlock.head (h : IsBlock starts (c :: block))
    (hne : block ≠ []) (rest : List Char) : starts c (block ++ rest) = false :=
  h [] c block rfl hne rest

theorem splitAhead_cons_of_not_starts {d : Char} {part : List Char}
    {parts : List (List Char)} (hsplit : splitAhead starts (d :: rest) = part :: parts)
    (hstarts : starts c (d :: rest) = false) :
    splitAhead starts (c :: d :: rest) = (c :: part) :: parts := by
  rw [splitAhead, hsplit]
  dsimp only
  rw [hstarts, if_neg Bool.false_ne_true]

theorem splitAhead_block (hne : block ≠ []) (h : IsBlock starts block) :
    splitAhead starts block = [block] := by
  induction block with
  | nil => exact absurd rfl hne
  | cons c block ih =>
    cases block with
    | nil => rfl
    | cons d block =>
      have hstarts := h.head (cons_ne_nil _ _) []
      rw [append_nil] at hstarts
      exact splitAhead_cons_of_not_starts (ih (cons_ne_nil _ _) h.tail) hstarts

/-- A block is cut off where the text after it asks for it. -/
theorem splitAhead_append (hne : block ≠ []) (h : IsBlock starts block)
    (hrest : rest ≠ []) (hcut : ∀ c ∈ block.getLast?, starts c rest = true) :
    splitAhead starts (block ++ rest) = block :: splitAhead starts rest := by
  induction block with
  | nil => exact absurd rfl hne
  | cons c block ih =>
    cases block with
    | nil =>
      cases rest with
      | nil => exact absurd rfl hrest
      | cons d rest =>
        have hstarts : starts c (d :: rest) = true := hcut c rfl
        change splitAhead starts (c :: d :: rest) = _
        rw [splitAhead]
        cases hsplit : splitAhead starts (d :: rest) with
        | nil => exact absurd hsplit (splitAhead_ne_nil _)
        | cons part parts =>
          dsimp only
          rw [if_pos hstarts]
    | cons d block =>
      have hsplit := ih (cons_ne_nil _ _) h.tail hcut
      exact splitAhead_cons_of_not_starts hsplit (h.head (cons_ne_nil _ _) rest)

/-- **A text of blocks is cut into its blocks.** -/
theorem splitAhead_flatten {blocks : List (List Char)} (hblocks : blocks ≠ [])
    (hne : ∀ block ∈ blocks, block ≠ []) (h : ∀ block ∈ blocks, IsBlock starts block)
    (hcut : ∀ block ∈ blocks, ∀ c ∈ block.getLast?, ∀ other ∈ blocks, ∀ rest,
      starts c (other ++ rest) = true) : splitAhead starts blocks.flatten = blocks := by
  induction blocks with
  | nil => exact absurd rfl hblocks
  | cons block blocks ih =>
    have hblock := h block (mem_cons_self ..)
    have hblockNe := hne block (mem_cons_self ..)
    cases blocks with
    | nil =>
      rw [flatten_singleton]
      exact splitAhead_block hblockNe hblock
    | cons other rest =>
      have htail := ih (cons_ne_nil _ _) (fun b hb => hne b (mem_cons_of_mem block hb))
        (fun b hb => h b (mem_cons_of_mem block hb))
        (fun b hb c hc o ho => hcut b (mem_cons_of_mem block hb) c hc o (mem_cons_of_mem block ho))
      have hother : other ≠ [] := hne other (mem_cons_of_mem block (mem_cons_self ..))
      rw [flatten_cons, splitAhead_append hblockNe hblock _ _, htail]
      · rw [flatten_cons]
        exact append_ne_nil_of_left_ne_nil hother _
      · intro c hc
        rw [flatten_cons]
        exact hcut block (mem_cons_self ..) c hc other (mem_cons_of_mem block (mem_cons_self ..)) _

/-! ## Blocks of lines -/

/-- What stands after a newline inside a text of lines is a text of the lines after the first. -/
theorem suffix_unlines (hlines : ∀ line ∈ lines, '\n' ∉ line)
    {before after : List Char} (h : unlines lines = before ++ '\n' :: after) :
    ∃ skipped rest, lines = skipped ++ rest ∧ skipped ≠ [] ∧ after = unlines rest := by
  induction lines generalizing before with
  | nil => simp [unlines] at h
  | cons line lines ih =>
    rw [unlines_cons] at h
    rcases append_eq_append_iff.mp h with ⟨more, hbefore, hrest⟩ | ⟨more, hline, hrest⟩
    · -- the newline is the one of the line, or stands after it
      cases more with
      | nil =>
        obtain ⟨-, rfl⟩ := List.cons.inj hrest
        exact ⟨[line], lines, rfl, cons_ne_nil _ _, rfl⟩
      | cons c more =>
        obtain ⟨-, htail⟩ := List.cons.inj hrest
        have hrestLines := fun other hother => hlines other (mem_cons_of_mem line hother)
        obtain ⟨skipped, rest, rfl, -, hafter⟩ := ih hrestLines htail
        exact ⟨line :: skipped, rest, rfl, cons_ne_nil _ _, hafter⟩
    · cases more with
      | nil =>
        obtain ⟨-, rfl⟩ := List.cons.inj hrest
        exact ⟨[line], lines, rfl, cons_ne_nil _ _, rfl⟩
      | cons c more =>
        -- a newline inside the line
        obtain ⟨rfl, -⟩ := List.cons.inj hrest
        have hmem : '\n' ∈ line := by
          rw [hline]
          exact mem_append_right _ (mem_cons_self ..)
        exact absurd hmem (hlines line (mem_cons_self ..))

/-- A word without a newline that starts a text of lines starts its first line. -/
theorem prefix_of_prefix_unlines {word : List Char} (hword : '\n' ∉ word) (hlines : lines ≠ [])
    (h : word <+: unlines lines ++ rest) : ∃ line ∈ lines.head?, word <+: line := by
  cases lines with
  | nil => exact absurd rfl hlines
  | cons line lines =>
    refine ⟨line, rfl, ?_⟩
    rw [unlines_cons, append_assoc] at h
    rcases prefix_or_prefix_of_prefix h (prefix_append _ _) with hline | ⟨more, rfl⟩
    · exact hline
    · cases more with
      | nil =>
        rw [append_nil]
      | cons c more =>
        -- the word would run over the end of the line
        rw [prefix_append_right_inj] at h
        obtain ⟨rfl, -⟩ := cons_prefix_cons.mp h
        exact absurd (mem_append_right line (mem_cons_self ..)) hword

end Laborer.Library
