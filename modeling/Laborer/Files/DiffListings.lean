import Laborer.Files.FileDiffs
import Mathlib.Data.List.TakeWhile

/-!
# The listings of git are read back

A listing gives the names it was printed from when git quotes none of them, no tracked file
is renamed, and no white space of a name stands at an end of the listing.
-/

namespace Laborer.Files

open Laborer.Library List

/-! ## Names that git prints as they are -/

def Unquoted (name : List Char) : Prop :=
  ∀ c ∈ name, needsQuote c = false

variable {name : List Char}

theorem Unquoted.any (h : Unquoted name) : name.any needsQuote = false := by
  rw [any_eq_false]
  intro c hc
  rw [h c hc]
  exact Bool.false_ne_true

theorem Unquoted.quoteTwo (h : Unquoted name) (before : List Char) :
    quoteTwo before name = before ++ name := by
  rw [Files.quoteTwo, h.any, if_neg Bool.false_ne_true]

theorem Unquoted.quoteName (h : Unquoted name) : quoteName name = name :=
  h.quoteTwo []

variable {c : Char}

theorem Unquoted.not_mem (h : Unquoted name) (hc : needsQuote c = true) : c ∉ name := by
  intro hmem
  rw [h c hmem] at hc
  cases hc

theorem Unquoted.newline (h : Unquoted name) : '\n' ∉ name :=
  h.not_mem (by decide)

theorem Unquoted.tab (h : Unquoted name) : '\t' ∉ name :=
  h.not_mem (by decide)

/-! ## The listings -/

theorem listedLines_unlines {lines : List (List Char)} (hlines : ∀ line ∈ lines, '\n' ∉ line)
    (hne : ∀ line ∈ lines, line ≠ []) (htrimmed : IsTrimmed (joinLines lines)) :
    listedLines (unlines lines) = lines := by
  rw [listedLines]
  cases lines with
  | nil => rfl
  | cons line rest =>
    have hjoined : joinLines (line :: rest) ≠ [] := by
      have hline := hne line (mem_cons_self ..)
      cases rest with
      | nil => simpa [joinLines, intercalate] using hline
      | cons other rest => simp [joinLines, intercalate]
    have htrim : trimChars (unlines (line :: rest)) = joinLines (line :: rest) := by
      rw [unlines_eq_joinLines (cons_ne_nil _ _)]
      exact trimChars_newline hjoined htrimmed
    rw [if_neg (htrim ▸ hjoined)]
    exact splitOn_trimChars_unlines (cons_ne_nil _ _) hlines hjoined htrimmed

def StartsPlain (changes : List FileChange) : Prop :=
  ∀ change ∈ changes.head?, ∀ c ∈ change.path.val.head?, isJsWhitespace c = false

def EndsPlain (changes : List FileChange) : Prop :=
  ∀ change ∈ changes.getLast?, ∀ c ∈ change.path.val.getLast?, isJsWhitespace c = false

theorem parseNameOnlyOutput_nameOnly {changes : List FileChange}
    (hunquoted : ∀ change ∈ changes, Unquoted change.path.val) (hstart : StartsPlain changes)
    (hend : EndsPlain changes) : parseNameOnlyOutput (ChangedWorktree.nameOnly changes) =
      changes.map fun change => change.path.val := by
  have hquoted : (changes.map fun change => quoteName change.path.val) =
      changes.map fun change => change.path.val := by
    apply map_congr_left
    intro change hchange
    exact (hunquoted change hchange).quoteName
  have hlines : ∀ line ∈ changes.map fun change => change.path.val, '\n' ∉ line := by
    intro line hline
    obtain ⟨change, hchange, rfl⟩ := mem_map.mp hline
    exact (hunquoted change hchange).newline
  have hne : ∀ line ∈ changes.map fun change => change.path.val, line ≠ [] := by
    intro line hline
    obtain ⟨change, -, rfl⟩ := mem_map.mp hline
    exact change.path.property
  have htrimmed : IsTrimmed (joinLines (changes.map fun change => change.path.val)) := by
    apply isTrimmed_joinLines hne
    · intro line hline
      rw [head?_map] at hline
      obtain ⟨change, hchange, rfl⟩ := Option.map_eq_some_iff.mp hline
      exact hstart change hchange
    · intro line hline
      rw [getLast?_map] at hline
      obtain ⟨change, hchange, rfl⟩ := Option.map_eq_some_iff.mp hline
      exact hend change hchange
  rw [parseNameOnlyOutput, ChangedWorktree.nameOnly, hquoted,
    listedLines_unlines hlines hne htrimmed]
  apply filter_eq_self.mpr
  intro line hline
  exact decide_eq_true (hne line hline)

/-! ### The lines of numstat -/

theorem isDigit_of_mem_toDigits {n : ℕ} (h : c ∈ Nat.toDigits 10 n) : c.isDigit = true :=
  Nat.isDigit_of_mem_toDigits (by decide) (by decide) h

theorem parseCount_toDigits (n : ℕ) : parseCount (Nat.toDigits 10 n) = n := by
  rw [parseCount, takeWhile_eq_self_iff.mpr fun c hc => isDigit_of_mem_toDigits hc]
  exact decimalValue_toDigits n

theorem not_mem_toDigits (h : c.isDigit = false) (n : ℕ) : c ∉ Nat.toDigits 10 n := by
  intro hc
  rw [isDigit_of_mem_toDigits hc] at h
  cases h

/-- What numstat says of a change that is not renamed. -/
def FileChange.stat (change : FileChange) : FileInfo where
  path := change.path.val
  added := (change.counts.map Prod.fst).getD 0
  removed := (change.counts.map Prod.snd).getD 0
  status := .modified

def FileChange.IsRenamed (change : FileChange) : Prop :=
  ∃ oldPath, change.kind = .renamed oldPath

theorem statPath_of_unquoted {change : FileChange} (hrenamed : ¬ change.IsRenamed)
    (hunquoted : Unquoted change.path.val) : change.statPath = change.path.val := by
  rw [FileChange.statPath]
  cases hkind : change.kind with
  | renamed oldPath => exact absurd ⟨oldPath, hkind⟩ hrenamed
  | _ => exact hunquoted.quoteName

theorem parseNumstatLine_numstatLine {change : FileChange} (hrenamed : ¬ change.IsRenamed)
    (hunquoted : Unquoted change.path.val) :
    parseNumstatLine change.numstatLine = some change.stat := by
  have hpath := splitOn_of_not_mem hunquoted.tab
  rw [parseNumstatLine, FileChange.numstatLine, statPath_of_unquoted hrenamed hunquoted,
    FileChange.countText, FileChange.stat]
  cases change.counts with
  | none =>
    have hline : (['-', '\t', '-', '\t'] ++ change.path.val).splitOn '\t' =
        [['-'], ['-'], change.path.val] := by
      change (['-'] ++ '\t' :: (['-'] ++ '\t' :: change.path.val)).splitOn '\t' = _
      rw [splitOn_append_cons, splitOn_append_cons, hpath]
      rfl
    dsimp only
    rw [hline]
    simp [parseCount, decimalValue, intercalate]
  | some counts =>
    obtain ⟨added, removed⟩ := counts
    have hadded := splitOn_of_not_mem (not_mem_toDigits (c := '\t') (by decide) added)
    have hremoved := splitOn_of_not_mem (not_mem_toDigits (c := '\t') (by decide) removed)
    have hline : (Nat.toDigits 10 added ++ '\t' :: Nat.toDigits 10 removed ++ ['\t'] ++
        change.path.val).splitOn '\t' =
        [Nat.toDigits 10 added, Nat.toDigits 10 removed, change.path.val] := by
      rw [append_assoc, append_assoc, cons_append, singleton_append,
        splitOn_append_cons, splitOn_append_cons, hadded, hremoved, hpath]
      rfl
    dsimp only
    rw [hline]
    simp [parseCount_toDigits, intercalate]

theorem isJsWhitespace_digitChar : ∀ n < 10, isJsWhitespace (Nat.digitChar n) = false := by
  decide

theorem isJsWhitespace_of_isDigit (h : c.isDigit = true) : isJsWhitespace c = false := by
  obtain ⟨hlt, hc⟩ := digitChar_of_isDigit h
  rw [← hc]
  exact isJsWhitespace_digitChar _ hlt

theorem head?_numstatLine (change : FileChange) :
    ∀ c ∈ change.numstatLine.head?, isJsWhitespace c = false := by
  intro c hc
  rw [FileChange.numstatLine, FileChange.countText] at hc
  cases hcounts : change.counts with
  | none =>
    rw [hcounts] at hc
    cases hc
    decide
  | some counts =>
    obtain ⟨added, removed⟩ := counts
    rw [hcounts] at hc
    dsimp only at hc
    have hne : Nat.toDigits 10 added ≠ [] := Nat.toDigits_ne_nil
    rw [append_assoc, append_assoc, head?_append_of_ne_nil _ hne] at hc
    have hdigit := isDigit_of_mem_toDigits (mem_of_mem_head? hc)
    exact isJsWhitespace_of_isDigit hdigit

theorem newline_not_mem_countText (change : FileChange) : '\n' ∉ change.countText := by
  rw [FileChange.countText]
  cases change.counts with
  | none => decide
  | some counts =>
    obtain ⟨added, removed⟩ := counts
    have hadded := not_mem_toDigits (c := '\n') (by decide) added
    have hremoved := not_mem_toDigits (c := '\n') (by decide) removed
    simp [hadded, hremoved]

/-- **The numstat listing is read back, one entry for each tracked change.** -/
theorem parseNumstatOutput_numstat {changes : List FileChange}
    (hrenamed : ∀ change ∈ changes, ¬ change.IsRenamed)
    (hunquoted : ∀ change ∈ changes, Unquoted change.path.val) (hend : EndsPlain changes) :
    parseNumstatOutput (unlines (changes.map FileChange.numstatLine)) =
      changes.map FileChange.stat := by
  have hpath : ∀ change ∈ changes, change.numstatLine = change.countText ++ change.path.val := by
    intro change hchange
    rw [FileChange.numstatLine,
      statPath_of_unquoted (hrenamed change hchange) (hunquoted change hchange)]
  have hlines : ∀ line ∈ changes.map FileChange.numstatLine, '\n' ∉ line := by
    intro line hline
    obtain ⟨change, hchange, rfl⟩ := mem_map.mp hline
    rw [hpath change hchange, mem_append, not_or]
    exact ⟨newline_not_mem_countText change, (hunquoted change hchange).newline⟩
  have hne : ∀ line ∈ changes.map FileChange.numstatLine, line ≠ [] := by
    intro line hline
    obtain ⟨change, hchange, rfl⟩ := mem_map.mp hline
    rw [hpath change hchange]
    exact append_ne_nil_of_right_ne_nil _ change.path.property
  have htrimmed : IsTrimmed (joinLines (changes.map FileChange.numstatLine)) := by
    apply isTrimmed_joinLines hne
    · intro line hline
      rw [head?_map] at hline
      obtain ⟨change, -, rfl⟩ := Option.map_eq_some_iff.mp hline
      exact head?_numstatLine change
    · intro line hline c hc
      rw [getLast?_map] at hline
      obtain ⟨change, hchange, rfl⟩ := Option.map_eq_some_iff.mp hline
      -- the line ends as the path does
      rw [hpath change (mem_of_mem_getLast? hchange),
        getLast?_append_of_ne_nil _ change.path.property] at hc
      exact hend change hchange c hc
  rw [parseNumstatOutput, listedLines_unlines hlines hne htrimmed, filterMap_map]
  have hparse : ∀ change ∈ changes,
      (parseNumstatLine ∘ FileChange.numstatLine) change = some change.stat := by
    intro change hchange
    exact parseNumstatLine_numstatLine (hrenamed change hchange) (hunquoted change hchange)
  rw [filterMap_congr hparse, filterMap_eq_map']

end Laborer.Files
