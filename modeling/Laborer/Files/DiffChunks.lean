import Laborer.Files.DiffPatches

/-!
# The patch of a file is found by its path

The header lines of a patch give the path of the file, and a patch without them gives its
path or none. The map of the batch holds each file's own patch.
-/

namespace Laborer.Files

open Laborer.Library FileChange List Option

variable {change : FileChange} {path line : List Char}

/-! ## The path of a patch -/

theorem stripTrailingTab_nameTab {name : List Char} (h : '\t' ∉ name) :
    stripTrailingTab (name ++ nameTab name) = name := by
  rw [stripTrailingTab, nameTab]
  by_cases hspace : ' ' ∈ name
  · rw [if_pos hspace, getLast?_concat, if_pos rfl, dropLast_concat]
  · rw [if_neg hspace, append_nil]
    apply if_neg
    intro hlast
    exact h (mem_of_mem_getLast? hlast)

theorem pathOfLine_new (h : '\t' ∉ path) (chunk : List Char) :
    pathOfLine chunk ("+++ b/".toList ++ (path ++ nameTab path)) = some path := by
  have hdrop : ("+++ b/".toList ++ (path ++ nameTab path)).drop 6 = path ++ nameTab path := rfl
  rw [pathOfLine, if_pos (prefix_append _ _), hdrop, stripTrailingTab_nameTab h]

theorem pathOfLine_old (h : '\t' ∉ path) (chunk : List Char) :
    pathOfLine chunk ("--- a/".toList ++ (path ++ nameTab path)) =
      if "+++ /dev/null".toList <:+: chunk then some path else none := by
  have hdrop : ("--- a/".toList ++ (path ++ nameTab path)).drop 6 = path ++ nameTab path := rfl
  have hnew : ¬ "+++ b/".toList <+: "--- a/".toList ++ (path ++ nameTab path) :=
    not_prefix_append 1 (by decide) (by decide) (by decide) _
  rw [pathOfLine, if_neg hnew, hdrop, stripTrailingTab_nameTab h]
  by_cases hnull : "+++ /dev/null".toList <:+: chunk
  · rw [if_pos ⟨prefix_append _ _, hnull⟩, if_pos hnull]
  · rw [if_neg (fun hboth => hnull hboth.2), if_neg hnull]

theorem pathOfLine_eq_none {chunk : List Char} (hnew : ¬ "+++ b/".toList <+: line)
    (hold : ¬ "--- a/".toList <+: line) : pathOfLine chunk line = none := by
  rw [pathOfLine, if_neg hnew, if_neg fun hboth => hold hboth.1]

theorem pathOfLine_null (chunk : List Char) : pathOfLine chunk "--- /dev/null".toList = none := by
  apply pathOfLine_eq_none
  · decide
  · decide

theorem pathOfLine_header (h : Legible change) (chunk : List Char) :
    pathOfLine chunk change.headerLine = none := by
  rw [h.headerLine, append_assoc]
  apply pathOfLine_eq_none
  · exact not_prefix_append 1 (by decide) (by decide) (by decide) _
  · exact not_prefix_append 1 (by decide) (by decide) (by decide) _

theorem pathOfLine_headerLines (h : line ∈ change.headerLines)
    (chunk : List Char) : pathOfLine chunk line = none := by
  obtain ⟨header, -, rfl⟩ := mem_map.mp h
  apply pathOfLine_eq_none
  · exact not_prefix_label (by simp [patchWords]) _ _
  · exact not_prefix_label (by simp [patchWords]) _ _

theorem infix_unlines_of_mem {lines : List (List Char)} (h : line ∈ lines) :
    line <:+: unlines lines := by
  obtain ⟨before, after, rfl⟩ := append_of_mem h
  refine ⟨unlines before, '\n' :: unlines after, ?_⟩
  simp [unlines]

/-- **A patch with a text change is filed under the path of its file.** -/
theorem findSome?_pathOfLine (h : Legible change) (hhunks : change.hunks ≠ []) (rest) :
    (change.headerLine :: change.bodyLines ++ rest).findSome? (pathOfLine change.patchText) =
      some change.path.val := by
  have htab := h.unquoted.tab
  have hheaders : change.headerLines.findSome? (pathOfLine change.patchText) = none := by
    rw [findSome?_eq_none_iff]
    intro line hline
    exact pathOfLine_headerLines hline _
  rw [bodyLines, if_neg hhunks, cons_append, findSome?_cons,
    pathOfLine_header h, append_assoc, findSome?_append, hheaders, Option.none_or,
    cons_append, cons_append, findSome?_cons, findSome?_cons]
  rcases h.newLine with ⟨hnew, hdeleted⟩ | hnew
  · -- a deleted file: the new name is the one of `/dev/null`
    have hnull : "+++ /dev/null".toList <:+: change.patchText := by
      rw [← hnew]
      apply infix_unlines_of_mem
      simp [bodyLines, hhunks]
    rcases h.oldLine with ⟨-, hadded⟩ | hold
    · rw [hadded] at hdeleted
      cases hdeleted
    · rw [hold, pathOfLine_old htab, if_pos hnull]
  · rw [hnew, pathOfLine_new htab]
    rcases h.oldLine with ⟨hold, -⟩ | hold
    · rw [hold, pathOfLine_null]
    · rw [hold, pathOfLine_old htab]
      by_cases hnull : "+++ /dev/null".toList <:+: change.patchText
      · rw [if_pos hnull]
      · rw [if_neg hnull]

theorem pathOfHeader_eq {read : List Char}
    (h : pathOfHeader (DIFF_GIT ++ ("a/".toList ++ path) ++ ' ' :: ("b/".toList ++ path)) =
      some read) : read = path := by
  have hline : DIFF_GIT ++ ("a/".toList ++ path) ++ ' ' :: ("b/".toList ++ path) =
      "diff --git a/".toList ++ (path ++ (" b/".toList ++ path)) := by
    have hbefore : "diff --git a/".toList = DIFF_GIT ++ "a/".toList := rfl
    have hmiddle : " b/".toList = ' ' :: "b/".toList := rfl
    rw [hbefore, hmiddle, append_assoc, append_assoc, append_assoc, cons_append]
  have hlength : ((path ++ (" b/".toList ++ path)).length - 3) / 2 = path.length := by
    have hthree : " b/".toList.length = 3 := rfl
    rw [length_append, length_append, hthree]
    omega
  rw [hline, pathOfHeader, drop_left, hlength, take_left] at h
  split at h
  · exact (some.inj h).symm
  · cases h

/-- A patch without a text change is filed under the path of its file, or nowhere. -/
theorem fileFromPatchChunk_patchText (h : Legible change) {read : List Char}
    (hread : fileFromPatchChunk change.patchText = some read) : read = change.path.val := by
  have hlines : change.patchText.splitOn '\n' =
      change.headerLine :: change.bodyLines ++ [[]] := splitOn_unlines h.lines
  rw [fileFromPatchChunk, hlines] at hread
  by_cases hhunks : change.hunks = []
  · have hnone : (change.headerLine :: change.bodyLines ++ [[]]).findSome?
        (pathOfLine change.patchText) = none := by
      rw [findSome?_eq_none_iff]
      intro line hline
      rcases mem_append.mp hline with hline | hline
      · rcases mem_cons.mp hline with rfl | hline
        · exact pathOfLine_header h _
        · rw [bodyLines, if_pos hhunks, append_nil] at hline
          exact pathOfLine_headerLines hline _
      · cases mem_singleton.mp hline
        rfl
    rw [hnone] at hread
    dsimp only at hread
    rw [cons_append, headD_cons, h.headerLine] at hread
    exact pathOfHeader_eq hread
  · rw [findSome?_pathOfLine h hhunks] at hread
    exact (some.inj hread).symm

theorem fileFromPatchChunk_of_hunks (h : Legible change) (hhunks : change.hunks ≠ []) :
    fileFromPatchChunk change.patchText = some change.path.val := by
  have hlines : change.patchText.splitOn '\n' =
      change.headerLine :: change.bodyLines ++ [[]] := splitOn_unlines h.lines
  rw [fileFromPatchChunk, hlines, findSome?_pathOfLine h hhunks]

end Laborer.Files
