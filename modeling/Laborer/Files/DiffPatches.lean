import Laborer.Files.DiffListings

/-!
# The combined patch is taken apart

The patch of each file is cut out whole and found by the file's own path, when no content
makes a line that looks like the header of a patch.
-/

namespace Laborer.Files

open Laborer.Library FileChange List

/-! ## Lines that are no header -/

theorem not_prefix_append {word text : List Char} (n : ℕ) (hword : n ≤ word.length)
    (htext : n ≤ text.length) (h : word.take n ≠ text.take n) (rest : List Char) :
    ¬ word <+: text ++ rest := by
  rintro ⟨more, hmore⟩
  have htake := congrArg (List.take n) hmore
  rw [take_append_of_le_length hword, take_append_of_le_length htext] at htake
  exact h htake

/-- The words that a line of a patch is looked up by. -/
def patchWords : List (List Char) :=
  [DIFF_HEADER, "+++ b/".toList, "--- a/".toList]

theorem not_prefix_label {word : List Char} (hword : word ∈ patchWords) (label : HeaderLabel)
    (value : List Char) : ¬ word <+: label.text ++ value := by
  have hcheck : ∀ w ∈ patchWords, 2 ≤ w.length ∧ w.take 2 ≠ label.text.take 2 := by
    cases label <;> decide
  have hlength : 2 ≤ label.text.length := by
    cases label <;> decide
  exact not_prefix_append 2 (hcheck word hword).1 hlength (hcheck word hword).2 value

theorem head?_of_prefix_header {text : List Char} (h : DIFF_HEADER <+: text) :
    text.head? = some 'd' := by
  obtain ⟨more, rfl⟩ := h
  rfl

theorem head?_oldLine (change : FileChange) : change.oldLine.head? = some '-' := by
  rw [oldLine]
  cases change.kind with
  | modified => rfl
  | added => rfl
  | deleted => rfl
  | renamed oldPath => rfl

theorem head?_newLine (change : FileChange) : change.newLine.head? = some '+' := by
  rw [newLine]
  cases change.kind with
  | modified => rfl
  | added => rfl
  | deleted => rfl
  | renamed oldPath => rfl

theorem marker_ne_d (marker : HunkMarker) : marker.char ≠ 'd' := by
  cases marker <;> decide

theorem bodyLine_not_header {change : FileChange} {line : List Char}
    (h : line ∈ change.bodyLines) : ¬ DIFF_HEADER <+: line := by
  rw [bodyLines, mem_append] at h
  rcases h with h | h
  · obtain ⟨header, -, rfl⟩ := mem_map.mp h
    exact not_prefix_label (mem_cons_self ..) _ _
  · split at h
    · exact absurd h not_mem_nil
    · intro hheader
      have hhead := head?_of_prefix_header hheader
      rcases mem_cons.mp h with rfl | h
      · exact absurd ((head?_oldLine change).symm.trans hhead) (by decide)
      rcases mem_cons.mp h with rfl | h
      · exact absurd ((head?_newLine change).symm.trans hhead) (by decide)
      · obtain ⟨hunk, -, rfl⟩ := mem_map.mp h
        exact marker_ne_d hunk.marker (Option.some.inj hhead)

/-! ## The lines of a patch -/

theorem oldPath_of_not_renamed {change : FileChange} (h : ¬ change.IsRenamed) :
    change.oldPath = change.path := by
  rw [FileChange.oldPath]
  cases hkind : change.kind with
  | renamed oldPath => exact absurd ⟨oldPath, hkind⟩ h
  | _ => rfl

/-- The change is not renamed, and git prints its name as it is. -/
structure Legible (change : FileChange) : Prop where
  not_renamed : ¬ change.IsRenamed
  unquoted : Unquoted change.path.val

variable {change : FileChange}

theorem Legible.headerLine (h : Legible change) : change.headerLine =
      DIFF_GIT ++ ("a/".toList ++ change.path.val) ++ ' ' :: ("b/".toList ++ change.path.val) := by
  rw [FileChange.headerLine, oldPath_of_not_renamed h.not_renamed, h.unquoted.quoteTwo,
    h.unquoted.quoteTwo]

theorem newline_not_mem_nameTab (name : List Char) : '\n' ∉ nameTab name := by
  rw [nameTab]
  split <;> decide

theorem Legible.oldLine (h : Legible change) :
    change.oldLine = "--- /dev/null".toList ∧ change.kind = .added ∨
      change.oldLine = "--- a/".toList ++ (change.path.val ++ nameTab change.path.val) := by
  rw [FileChange.oldLine, oldPath_of_not_renamed h.not_renamed, h.unquoted.quoteTwo]
  cases change.kind with
  | added => exact .inl ⟨rfl, rfl⟩
  | _ => exact .inr (by simp)

theorem Legible.newLine (h : Legible change) :
    change.newLine = "+++ /dev/null".toList ∧ change.kind = .deleted ∨
      change.newLine = "+++ b/".toList ++ (change.path.val ++ nameTab change.path.val) := by
  rw [FileChange.newLine, h.unquoted.quoteTwo]
  cases change.kind with
  | deleted => exact .inl ⟨rfl, rfl⟩
  | _ => exact .inr (by simp)

theorem newline_not_mem_label (label : HeaderLabel) : '\n' ∉ label.text := by
  cases label <;> decide

theorem Legible.lines (h : Legible change) :
    ∀ line ∈ change.headerLine :: change.bodyLines, '\n' ∉ line := by
  have hpath := h.unquoted.newline
  have htab := newline_not_mem_nameTab change.path.val
  intro line hline
  rcases mem_cons.mp hline with rfl | hline
  · have hdiff : '\n' ∉ DIFF_GIT := by decide
    rw [h.headerLine]
    simp [hpath, hdiff]
  rw [bodyLines, mem_append] at hline
  rcases hline with hline | hline
  · obtain ⟨header, -, rfl⟩ := mem_map.mp hline
    rw [mem_append, not_or]
    exact ⟨newline_not_mem_label _, header.value.property⟩
  · split at hline
    · exact absurd hline not_mem_nil
    rcases mem_cons.mp hline with rfl | hline
    · rcases h.oldLine with ⟨hold, -⟩ | hold
      · rw [hold]
        decide
      · rw [hold]
        simp [hpath, htab]
    rcases mem_cons.mp hline with rfl | hline
    · rcases h.newLine with ⟨hnew, -⟩ | hnew
      · rw [hnew]
        decide
      · rw [hnew]
        simp [hpath, htab]
    · obtain ⟨hunk, -, rfl⟩ := mem_map.mp hline
      rw [mem_cons, not_or]
      refine ⟨?_, hunk.text.property⟩
      cases hunk.marker <;> decide

/-! ## Cutting the patch -/

/-- A line break other than a newline stands before what looks like the header of a patch. -/
def ImitatesHeader (text : List Char) : Prop :=
  ∃ c, isLineTerminator c ∧ c ≠ '\n' ∧ (c :: DIFF_HEADER) <:+: text

theorem newline_not_mem_header : '\n' ∉ DIFF_HEADER := by
  decide

theorem header_prefix_patchText (change : FileChange) : DIFF_HEADER <+: change.patchText := by
  rw [patchText, unlines_cons, FileChange.headerLine, append_assoc, append_assoc]
  exact prefix_append _ _

theorem patchText_ne_nil (change : FileChange) : change.patchText ≠ [] := by
  intro hnil
  have hprefix := header_prefix_patchText change
  rw [hnil, prefix_nil] at hprefix
  cases hprefix

theorem getLast?_unlines {lines : List (List Char)} (h : lines ≠ []) :
    (unlines lines).getLast? = some '\n' := by
  rw [unlines_eq_joinLines h]
  exact getLast?_concat

/-- **Nothing inside a patch starts another one.** -/
theorem Legible.isBlock (h : Legible change) (himitates : ¬ ImitatesHeader change.patchText) :
    IsBlock startsChunk change.patchText := by
  intro before c after hblock hafter rest
  rw [Bool.eq_false_iff]
  intro hstarts
  rw [startsChunk, Bool.and_eq_true, decide_eq_true_iff] at hstarts
  obtain ⟨hterminator, hheader⟩ := hstarts
  by_cases hc : c = '\n'
  · -- after a newline a line starts, and only the first one is a header
    subst hc
    obtain ⟨skipped, left, hlines, hskipped, rfl⟩ := suffix_unlines h.lines hblock
    have hleft : left ≠ [] := by
      rintro rfl
      exact hafter rfl
    obtain ⟨line, hline, hprefix⟩ := prefix_of_prefix_unlines newline_not_mem_header hleft hheader
    cases skipped with
    | nil => exact absurd rfl hskipped
    | cons first skipped =>
      obtain ⟨-, hbody⟩ := List.cons.inj hlines
      have hmem : line ∈ change.bodyLines := by
        rw [hbody]
        exact mem_append_right _ (mem_of_mem_head? hline)
      exact bodyLine_not_header hmem hprefix
  · -- the header would have to end inside the patch, which ends with a newline
    have hlast : after.getLast? = some '\n' := by
      have htext : (before ++ c :: after).getLast? = some '\n' :=
        hblock ▸ getLast?_unlines (cons_ne_nil _ _)
      rw [append_cons, getLast?_append_of_ne_nil _ hafter] at htext
      exact htext
    rcases prefix_or_prefix_of_prefix hheader (prefix_append after rest) with hin | hover
    · apply himitates
      obtain ⟨more, rfl⟩ := hin
      exact ⟨c, hterminator, hc, before, more, by rw [hblock]; simp⟩
    · exact newline_not_mem_header (hover.subset (mem_of_mem_getLast? hlast))

theorem trimChars_ne_nil {text : List Char} {c : Char} (hhead : text.head? = some c)
    (hc : isJsWhitespace c = false) : trimChars text ≠ [] := by
  intro hnil
  have hself : text.dropWhile isJsWhitespace = text := by
    apply dropWhile_eq_self
    intro d hd
    cases hhead.symm.trans hd
    exact hc
  rw [trimChars, hself, trimEndChars, reverse_eq_nil_iff, dropWhile_eq_nil_iff] at hnil
  have hwhite := hnil c (mem_reverse.mpr (mem_of_mem_head? hhead))
  rw [hc] at hwhite
  cases hwhite

/-- **The combined patch is cut into the patches of the files.** -/
theorem splitGitPatch_flatten {changes : List FileChange} (h : ∀ change ∈ changes, Legible change)
    (himitates : ∀ change ∈ changes, ¬ ImitatesHeader change.patchText) :
    splitGitPatch (changes.map patchText).flatten = changes.map patchText := by
  rw [splitGitPatch]
  cases changes with
  | nil => rfl
  | cons change changes =>
    have hheader : DIFF_HEADER <+: ((change :: changes).map patchText).flatten := by
      rw [map_cons, flatten_cons]
      exact (header_prefix_patchText change).trans (prefix_append _ _)
    rw [if_neg (trimChars_ne_nil (head?_of_prefix_header hheader) (by decide)),
      splitAhead_flatten]
    · apply filter_eq_self.mpr
      intro block hblock
      obtain ⟨other, -, rfl⟩ := mem_map.mp hblock
      exact decide_eq_true (header_prefix_patchText other)
    · exact cons_ne_nil _ _
    · intro block hblock
      obtain ⟨other, -, rfl⟩ := mem_map.mp hblock
      exact patchText_ne_nil other
    · intro block hblock
      obtain ⟨other, hother, rfl⟩ := mem_map.mp hblock
      exact (h other hother).isBlock (himitates other hother)
    · intro block hblock c hc next hnext rest
      obtain ⟨other, -, rfl⟩ := mem_map.mp hblock
      obtain ⟨following, -, rfl⟩ := mem_map.mp hnext
      have hnewline : other.patchText.getLast? = some '\n' := getLast?_unlines (cons_ne_nil _ _)
      cases hnewline.symm.trans hc
      rw [startsChunk, Bool.and_eq_true, decide_eq_true_iff]
      exact ⟨rfl, (header_prefix_patchText following).trans (prefix_append _ _)⟩

end Laborer.Files
