import Laborer.Library.Paths

/-!
# Paths as texts

The functions that compare and relate absolute paths by their texts, and what they
say about the names.
-/

namespace Laborer.Library.AbsolutePath

open List

def resolveFrom (p : AbsolutePath) (path : List Char) : AbsolutePath :=
  if path.head? = some '/' then resolve path else p.join path

def normalize (path : List Char) : List Char :=
  if path.getLast? = some '/' ∧ (resolve path).names ≠ [] then (resolve path).text ++ ['/']
  else (resolve path).text

/-- What is left of two lists of names once their common start is dropped. -/
def dropCommon : List FileName → List FileName → List FileName × List FileName
  | a :: p, b :: q => if a = b then dropCommon p q else (a :: p, b :: q)
  | p, q => (p, q)

def joinSegments (segments : List (List Char)) : List Char :=
  ['/'].intercalate segments

/-- `path.relative(p, q)`. -/
def relative (p q : AbsolutePath) : List Char :=
  let rest := dropCommon p.names q.names
  joinSegments (List.replicate rest.1.length ['.', '.'] ++ rest.2.map Subtype.val)

/-! ## The segments of a text -/

variable {names : List FileName}

theorem splitOn_joined (h : names ≠ []) : (joined names).splitOn '/' = names.map Subtype.val := by
  induction names with
  | nil => exact absurd rfl h
  | cons name names ih =>
    cases names with
    | nil => simp [joined, splitOn_name]
    | cons other rest =>
      rw [joined, splitOn_append_slash, splitOn_name, ih (cons_ne_nil _ _)]
      rfl

variable {p : AbsolutePath}

theorem splitOn_text (h : p.names ≠ []) : p.text.splitOn '/' = [] :: p.names.map Subtype.val := by
  have hslash := splitOn_append_slash [] (joined p.names)
  rw [nil_append, splitOn_joined h] at hslash
  rw [text, hslash]
  rfl

theorem joined_eq_joinSegments (names : List FileName) :
    joined names = joinSegments (names.map Subtype.val) := by
  induction names with
  | nil => rfl
  | cons name names ih =>
    cases names with
    | nil => simp [joined, joinSegments, intercalate]
    | cons other rest =>
      rw [joined, ih]
      simp [joinSegments, intercalate]

theorem joined_append {rest : List FileName} (hnames : names ≠ []) (hrest : rest ≠ []) :
    joined (names ++ rest) = joined names ++ '/' :: joined rest := by
  induction names with
  | nil => exact absurd rfl hnames
  | cons name names ih =>
    cases names with
    | nil =>
      cases rest with
      | nil => exact absurd rfl hrest
      | cons other rest => rfl
    | cons other names =>
      change name.val ++ '/' :: joined (other :: names ++ rest) = _
      rw [ih (cons_ne_nil _ _)]
      simp [joined]

theorem getLast?_text (h : p.names ≠ []) : p.text.getLast? ≠ some '/' := by
  intro hslash
  obtain ⟨before, hbefore⟩ := getLast?_eq_some_iff.mp hslash
  have hsplit := splitOn_append_slash before []
  rw [← hbefore, splitOn_text h] at hsplit
  -- the text would end in an empty segment, and no name is empty
  have hlast : ([] :: p.names.map Subtype.val).getLast? = some ([] : List Char) := by
    rw [hsplit]
    simp
  obtain ⟨names, name, hnames⟩ := eq_nil_or_concat'  p.names |>.resolve_left h
  rw [hnames, map_append, ← cons_append, map_singleton, getLast?_concat, Option.some.injEq] at hlast
  exact name.property.1 hlast

theorem normalize_text (p : AbsolutePath) : normalize p.text = p.text := by
  rw [normalize, resolve_text, if_neg]
  exact fun h => getLast?_text h.2 h.1

/-! ## Texts that start with a path and a slash -/

/-- **A path below another is one whose text goes on after a slash.** -/
theorem startsWith_slash_iff {root target : AbsolutePath} (hroot : root.names ≠ []) :
    root.text ++ ['/'] <+: target.text ↔ root.StrictlyContains target := by
  constructor
  · intro h
    obtain ⟨rest, hrest⟩ := h
    have htarget : target.names ≠ [] := by
      intro hnil
      have hlength := congrArg List.length hrest
      cases hnames : root.names with
      | nil => exact hroot hnames
      | cons name names => simp [text, hnil, hnames, joined] at hlength
    have hsplit : [] :: root.names.map Subtype.val ++ rest.splitOn '/' =
        [] :: target.names.map Subtype.val := by
      rw [← splitOn_text hroot, ← splitOn_text htarget, ← splitOn_append_slash, ← hrest,
        append_assoc]
      rfl
    have hmap : root.names.map Subtype.val ++ rest.splitOn '/' = target.names.map Subtype.val :=
      (List.cons.inj hsplit).2
    refine ⟨?_, fun heq => ?_⟩
    · have hprefix : root.names.map Subtype.val <+: target.names.map Subtype.val := ⟨_, hmap⟩
      rw [prefix_map_iff_of_injective Subtype.val_injective] at hprefix
      exact hprefix
    · rw [heq] at hmap
      have hnil := append_right_eq_self.mp hmap
      exact splitOn_ne_nil _ _ hnil
  · intro h
    obtain ⟨⟨rest, hrest⟩, hne⟩ := h
    have hrestNe : rest ≠ [] := by
      intro hnil
      rw [hnil, append_nil] at hrest
      exact hne (ext_names hrest)
    refine ⟨joined rest, ?_⟩
    rw [text, text, ← hrest, joined_append hroot hrestNe]
    simp

/-! ## Paths with no parent in them -/

variable {segments : List (List Char)}

theorem prefix_foldl_resolveSegment
    (h : ['.', '.'] ∉ segments) : names <+: segments.foldl resolveSegment names := by
  induction segments generalizing names with
  | nil => exact prefix_rfl
  | cons segment segments ih =>
    rw [mem_cons, not_or] at h
    apply List.IsPrefix.trans _ (ih h.2)
    rw [resolveSegment, if_neg (Ne.symm h.1)]
    split
    · exact prefix_append _ _
    · exact prefix_rfl

/-- **A relative path with no parent in it stays below the path it starts from.** -/
theorem contains_resolveFrom {path : List Char} (hrelative : path.head? ≠ some '/')
    (h : ['.', '.'] ∉ path.splitOn '/') : p.Contains (p.resolveFrom path) := by
  rw [Contains, resolveFrom, if_neg hrelative, join, resolve_append_slash, resolve_text]
  exact prefix_foldl_resolveSegment h

/-! ## Relative texts -/

theorem dropCommon_fst_eq_nil_iff {p q : List FileName} : (dropCommon p q).1 = [] ↔ p <+: q := by
  induction p, q using dropCommon.induct with
  | case1 p a q ih => rw [dropCommon, if_pos rfl, ih, cons_prefix_cons, eq_self, true_and]
  | case2 a p b q h => simp [dropCommon, h]
  | case3 p q h =>
    cases p with
    | nil => simp [dropCommon]
    | cons a p =>
      cases q with
      | nil => simp [dropCommon]
      | cons b q => exact (h a p b q rfl rfl).elim

theorem empty_ne_segments : names.map Subtype.val ≠ [] :: segments := by
  intro h
  have hmem : [] ∈ names.map Subtype.val := h ▸ mem_cons_self ..
  obtain ⟨name, -, hname⟩ := mem_map.mp hmem
  exact name.property.1 hname

theorem parent_ne_segments : names.map Subtype.val ≠ ['.', '.'] :: segments := by
  intro h
  have hmem : ['.', '.'] ∈ names.map Subtype.val := h ▸ mem_cons_self ..
  obtain ⟨name, -, hname⟩ := mem_map.mp hmem
  exact name.property.2.2.2 hname

/-- **A path lies in another when the text between them does not start at the root or at a
parent.** -/
theorem contains_iff_relative (root target : AbsolutePath) :
    (relative root target = [] ∨ (relative root target).head? ≠ some '/' ∧
      relative root target ≠ ['.', '.'] ∧ ¬ ['.', '.', '/'] <+: relative root target) ↔
      root.Contains target := by
  rw [Contains, ← dropCommon_fst_eq_nil_iff, relative]
  generalize dropCommon root.names target.names = rest
  obtain ⟨ups, names⟩ := rest
  cases ups with
  | nil =>
    refine iff_of_true ?_ rfl
    change joinSegments (names.map Subtype.val) = [] ∨ _
    by_cases hnames : names = []
    · exact .inl (by rw [hnames]; rfl)
    · refine .inr ?_
      change (joinSegments (names.map Subtype.val)).head? ≠ _ ∧
        joinSegments (names.map Subtype.val) ≠ _ ∧ ¬ _ <+: joinSegments (names.map Subtype.val)
      rw [← joined_eq_joinSegments]
      have hsplit := splitOn_joined hnames
      -- the first name would be empty, or the parent
      refine ⟨fun hslash => ?_, fun hparent => ?_, fun hparent => ?_⟩
      · obtain ⟨after, hafter⟩ := head?_eq_some_iff.mp hslash
        rw [hafter] at hsplit
        have hempty := (splitOn_append_slash [] after).symm.trans hsplit
        exact empty_ne_segments hempty.symm
      · rw [hparent] at hsplit
        exact parent_ne_segments hsplit.symm
      · obtain ⟨after, hafter⟩ := hparent
        rw [← hafter] at hsplit
        exact parent_ne_segments ((splitOn_append_slash ['.', '.'] after).symm.trans hsplit).symm
  | cons up ups =>
    refine iff_of_false ?_ (cons_ne_nil _ _)
    have hups : List.replicate (up :: ups).length ['.', '.'] ++ names.map Subtype.val =
        ['.', '.'] :: (List.replicate ups.length ['.', '.'] ++ names.map Subtype.val) := rfl
    dsimp only
    rw [hups]
    generalize List.replicate ups.length ['.', '.'] ++ names.map Subtype.val = segments
    cases segments with
    | nil => simp [joinSegments, intercalate]
    | cons segment segments => simp [joinSegments, intercalate]

end Laborer.Library.AbsolutePath
