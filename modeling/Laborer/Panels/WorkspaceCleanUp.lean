import Laborer.Panels.WorkspaceTileOperations

/-!
# Cleaning a tab up

A clean up gives balanced columns in reading order, as few as the heights ask for within the
width. A second one finds them as they are, where the tiles can be told apart by their ids.
-/

namespace Laborer.Panels

open Laborer.Library List

/-! ## What a clean up is to give -/

/-- The rows that fit into a column, at least one and at most four. -/
def rowsForHeight (area : TabContentArea) (minTileHeightPx : ℚ) : ℕ :=
  max 1 (min maxWorkspaceRowsPerColumn
    ⌊usableSize area.heightPx minTileHeightPx / minTileHeightPx⌋.toNat)

/-- The columns that fit beside each other, at least one. -/
def columnsForWidth (area : TabContentArea) (minColumnWidthPx : ℚ) : ℕ :=
  max 1 ⌊usableSize area.widthPx minColumnWidthPx / minColumnWidthPx⌋.toNat

/-- The leaves in reading order and in balanced columns, the larger ones first. No fewer columns
have at most so many rows each, and these do unless the width asks for fewer columns. -/
structure Balances (leaves : List WorkspaceTileLeaf) (rows width : ℕ) (columns : Columns) :
    Prop where
  kept : columns.flatten = leaves
  counted : 1 ≤ columns.length ∧ columns.length ≤ leaves.length
  nonempty : ∀ column ∈ columns, column ≠ []
  balanced : columns.Pairwise fun column later =>
    later.length ≤ column.length ∧ column.length ≤ later.length + 1
  narrow : columns.length ≤ width
  fits : columns.length < width → ∀ column ∈ columns, column.length ≤ rows
  fewest : ∀ others : Columns, others.flatten.length = leaves.length →
    (∀ column ∈ others, column.length ≤ rows) → columns.length ≤ others.length

/-! ## The slices -/

variable {leaves : List WorkspaceTileLeaf} {base n extra rows width : ℕ}

theorem sliceColumns_lengths (h : leaves.length = base * n + extra) (hextra : extra ≤ n) :
    (sliceColumns base n extra leaves).map length =
      replicate extra (base + 1) ++ replicate (n - extra) base := by
  induction n generalizing extra leaves with
  | zero =>
    rw [Nat.le_zero.mp hextra]
    rfl
  | succ n ih =>
    rw [Nat.mul_succ] at h
    rw [sliceColumns, map_cons, length_take]
    cases extra with
    | zero =>
      rw [ih (by simp; omega) (Nat.zero_le n)]
      simp [replicate_succ, h]
    | succ extra =>
      rw [if_pos (Nat.succ_pos _), Nat.add_sub_cancel,
        ih (by simp; omega) (Nat.le_of_succ_le_succ hextra), min_eq_left (by omega)]
      simp [replicate_succ]

/-- Rounded up, the quotient is the least number of columns that have so many rows. -/
theorem ceil_div_le_iff (hrows : 1 ≤ rows) {count columns : ℕ} :
    (count + rows - 1) / rows ≤ columns ↔ count ≤ rows * columns := by
  rw [Nat.div_le_iff_le_mul_add_pred hrows]
  omega

theorem length_flatten_le {columns : Columns} (h : ∀ column ∈ columns, column.length ≤ rows) :
    columns.flatten.length ≤ rows * columns.length := by
  induction columns with
  | nil => simp
  | cons column columns ih =>
    rw [forall_mem_cons] at h
    rw [flatten_cons, length_append, length_cons, Nat.mul_succ]
    have hrest := ih h.2
    omega

theorem sliceColumns_balances (hleaves : leaves ≠ []) (hrows : 1 ≤ rows) (hwidth : 1 ≤ width)
    (hn : n = min (min leaves.length width) ((leaves.length + rows - 1) / rows)) :
    Balances leaves rows width
      (sliceColumns (leaves.length / n) n (leaves.length % n) leaves) := by
  have hcount : 1 ≤ leaves.length := length_pos_iff.mpr hleaves
  have hceil : 1 ≤ (leaves.length + rows - 1) / rows := by
    by_contra hzero
    have := (ceil_div_le_iff hrows).mp (show (leaves.length + rows - 1) / rows ≤ 0 by omega)
    omega
  have hpos : 1 ≤ n := by omega
  have hmod := Nat.mod_lt leaves.length hpos
  have hsum := (Nat.div_add_mod' leaves.length n).symm
  have hbase : 1 ≤ leaves.length / n := (Nat.one_le_div_iff hpos).mpr (by omega)
  have hlengths := sliceColumns_lengths hsum hmod.le
  have hlength : (sliceColumns (leaves.length / n) n (leaves.length % n) leaves).length = n := by
    have := congrArg length hlengths
    simp at this
    omega
  generalize hcolumns : sliceColumns (leaves.length / n) n (leaves.length % n) leaves = columns
    at hlengths hlength
  have hmem : ∀ column ∈ columns, column.length = leaves.length / n ∨
      column.length = leaves.length / n + 1 ∧ 1 ≤ leaves.length % n := by
    intro column hcolumn
    have hin := mem_map_of_mem (f := length) hcolumn
    rw [hlengths, mem_append, mem_replicate, mem_replicate] at hin
    omega
  refine ⟨?_, by omega, fun column hcolumn => ?_, ?_, by omega, fun hless column hcolumn => ?_, ?_⟩
  · rw [← hcolumns, sliceColumns_flatten, min_eq_right hmod.le, Nat.div_add_mod', take_length]
  · rintro rfl
    have := hmem [] hcolumn
    simp at this
    omega
  · have hpairs : (columns.map length).Pairwise fun m k => k ≤ m ∧ m ≤ k + 1 := by
      rw [hlengths]
      simp [pairwise_append, pairwise_replicate]
    exact pairwise_map.mp hpairs
  · -- all rows fit, as there is a column for each leaf or as many as they need
    have hall : leaves.length ≤ rows * n := by
      rcases Nat.le_total ((leaves.length + rows - 1) / rows) leaves.length with hle | hle
      · exact (ceil_div_le_iff hrows).mp (by omega)
      · have : n = leaves.length := by omega
        rw [this]
        exact Nat.le_mul_of_pos_left _ hrows
    have hrow := hmem column hcolumn
    by_contra hlong
    have := Nat.mul_le_mul_right n (show rows + 1 ≤ column.length by omega)
    rcases hrow with hrow | ⟨hrow, hextra⟩
    · rw [hrow, Nat.succ_mul] at this
      omega
    · rw [hrow, Nat.succ_mul, Nat.succ_mul] at this
      omega
  · intro others hothers hfit
    rw [hlength, hn]
    have hle := length_flatten_le hfit
    rw [hothers] at hle
    exact (min_le_right _ _).trans ((ceil_div_le_iff hrows).mpr hle)

/-! ## The columns of a rebuilt tree -/

variable {columns : Columns} {root root' : WorkspaceTileNode} {g g' : IdGen}

theorem columnNodes_buildColumnNode (prev : OrderedMap (List String) WorkspaceTileNode)
    (equalizeRows : Bool) (column : List WorkspaceTileLeaf) (g : IdGen) :
    columnNodes (buildColumnNode prev equalizeRows column g).1 =
      [(buildColumnNode prev equalizeRows column g).1] := by
  unfold buildColumnNode
  split
  · rfl
  · split <;> exact columnNodes_split _ _

theorem filter_nonempty (hne : ∀ column ∈ columns, column ≠ []) :
    (columns.filter fun column => 0 < column.length) = columns :=
  filter_eq_self.mpr fun column hcolumn => by simpa [length_pos_iff] using hne column hcolumn

theorem columnNodes_buildColumnsLayout (hne : ∀ column ∈ columns, column ≠ [])
    (h : buildColumnsLayout columns none true root g = (some root', g')) :
    columnNodes root' = (buildColumnNodes (buildPreviousColumnIndex root) true columns g).1 ∧
      getWorkspaceColumns root' = columns := by
  have hleaves := buildColumnNodes_leaves (buildPreviousColumnIndex root) true columns g
  have hnodes : columnNodes root' =
      (buildColumnNodes (buildPreviousColumnIndex root) true columns g).1 := by
    unfold buildColumnsLayout at h
    simp only [filter_nonempty hne] at h
    split at h
    · cases h
    · next only heq =>
      cases h
      rw [heq]
      match columns, heq with
      | [column], heq =>
        cases heq
        exact columnNodes_buildColumnNode _ _ _ _
    · cases h
      rfl
  rw [getWorkspaceColumns_eq, hnodes]
  exact ⟨rfl, hleaves⟩

/-! ## A second clean up -/

variable {prev index : OrderedMap (List String) WorkspaceTileNode}

theorem buildColumnNode_again {column : List WorkspaceTileLeaf} (hne : column ≠ [])
    (h : index.get? (columnSignature column) = some (buildColumnNode prev true column g).1)
    (again : IdGen) :
    buildColumnNode index true column again = ((buildColumnNode prev true column g).1, again) := by
  match column with
  | [] => exact absurd rfl hne
  | [only] => rfl
  | first :: second :: rest =>
    have hlength : 2 ≤ (first :: second :: rest).length := by simp
    obtain ⟨id, hnode⟩ : ∃ id, (buildColumnNode prev true (first :: second :: rest) g).1 =
        .split ⟨id, .vertical, equalSizes (first :: second :: rest)⟩
          ((first :: second :: rest).map .leaf) := by
      rw [buildColumnNode_of_two_le hlength]
      split
      · next info _ _ => exact ⟨info.id, by simp⟩
      · exact ⟨_, rfl⟩
    rw [hnode] at h ⊢
    rw [buildColumnNode_of_two_le hlength, h]
    simp

theorem buildColumnNodes_again (hne : ∀ column ∈ columns, column ≠ [])
    (h : ∀ entry ∈ (columns.map columnSignature).zip (buildColumnNodes prev true columns g).1,
      index.get? entry.1 = some entry.2) (again : IdGen) :
    buildColumnNodes index true columns again =
      ((buildColumnNodes prev true columns g).1, again) := by
  induction columns generalizing g with
  | nil => rfl
  | cons column columns ih =>
    simp only [buildColumnNodes, map_cons, zip_cons_cons, forall_mem_cons] at h hne ⊢
    rw [buildColumnNode_again hne.1 h.1, ih hne.2 h.2]

theorem columnSignatures_nodup (hne : ∀ column ∈ columns, column ≠ [])
    (hids : (columns.flatten.map (·.id)).Nodup) : (columns.map columnSignature).Nodup := by
  have hflat : (columns.map columnSignature).flatten = columns.flatten.map (·.id) := by
    rw [map_flatten]
    rfl
  rw [← hflat] at hids
  refine (nodup_flatten.mp hids).2.imp_of_mem fun {sig _} hmem _ hdisjoint heq => ?_
  subst heq
  obtain ⟨column, hcolumn, rfl⟩ := mem_map.mp hmem
  obtain ⟨tile, rest, rfl⟩ := exists_cons_of_ne_nil (hne column hcolumn)
  exact hdisjoint mem_cons_self mem_cons_self

theorem buildColumnsLayout_again (hne : ∀ column ∈ columns, column ≠ [])
    (hids : (columns.flatten.map (·.id)).Nodup)
    (h : buildColumnsLayout columns none true root g = (some root', g')) (again : IdGen) :
    buildColumnsLayout columns none true root' again = (some root', again) := by
  obtain ⟨hnodes, hcolumns⟩ := columnNodes_buildColumnsLayout hne h
  have hagain : buildColumnNodes (buildPreviousColumnIndex root') true columns again =
      ((buildColumnNodes (buildPreviousColumnIndex root) true columns g).1, again) := by
    refine buildColumnNodes_again hne (fun entry hentry => ?_) again
    have hleaves := buildColumnNodes_leaves (buildPreviousColumnIndex root) true columns g
    unfold buildPreviousColumnIndex at hentry ⊢
    rw [hcolumns, hnodes]
    have hkeys : (((columns.map columnSignature).zip
        (buildColumnNodes (buildPreviousColumnIndex root) true columns g).1).map
          Prod.fst).Nodup := by
      rw [map_fst_zip (by simpa using (congrArg length hleaves).ge)]
      exact columnSignatures_nodup hne hids
    rw [OrderedMap.ofEntries_eq_self hkeys]
    exact OrderedMap.get?_of_mem hkeys hentry
  unfold buildColumnsLayout at h ⊢
  simp only [filter_nonempty hne, hagain] at h ⊢
  generalize buildColumnNodes (buildPreviousColumnIndex root) true columns g = built at h ⊢
  obtain ⟨nodes, g''⟩ := built
  match nodes with
  | [] => cases h
  | [only] =>
    cases h
    rfl
  | first :: second :: rest =>
    cases h
    rfl

/-! ## Cleaning up -/

def balancedColumns (leaves : List WorkspaceTileLeaf) (rows width : ℕ) : Columns :=
  let n := min (min leaves.length width) ((leaves.length + rows - 1) / rows)
  sliceColumns (leaves.length / n) n (leaves.length % n) leaves

variable {tab : WindowTab} {minWidth minHeight : ℚ}

theorem cleanUpWorkspaceTiles_eq (hroot : tab.workspaceLayout = some root)
    (hleaves : root.leaves ≠ []) (hwidth : 0 < minWidth) (hheight : 0 < minHeight)
    (area : TabContentArea) (g : IdGen) :
    cleanUpWorkspaceTiles tab area minWidth minHeight g =
      match buildColumnsLayout (balancedColumns root.leaves (rowsForHeight area minHeight)
        (columnsForWidth area minWidth)) none true root g with
      | (none, g) => (tab, g)
      | (some newLayout, g) => ({ tab with workspaceLayout := some newLayout }, g) := by
  have hcount : computeCleanUpColumnCount root.leaves.length area minWidth minHeight =
      some (min (min root.leaves.length (columnsForWidth area minWidth))
        ((root.leaves.length + rowsForHeight area minHeight - 1) /
          rowsForHeight area minHeight)) := by
    unfold computeCleanUpColumnCount floorQuotient
    dsimp only
    rw [if_neg hheight.ne', if_neg hwidth.ne']
    rfl
  unfold cleanUpWorkspaceTiles
  rw [hroot]
  simp only [getWorkspaceColumns_flatten, hcount, length_eq_zero_iff, if_neg hleaves]
  rfl

/-- The tab gets balanced columns; with the tiles told apart, another clean up changes nothing. -/
def CleansUp (tab : WindowTab) (root : WorkspaceTileNode) (area : TabContentArea)
    (minWidth minHeight : ℚ) (g : IdGen) : Prop :=
  ∃ root' g', cleanUpWorkspaceTiles tab area minWidth minHeight g =
      ({ tab with workspaceLayout := some root' }, g') ∧
    Balances root.leaves (rowsForHeight area minHeight) (columnsForWidth area minWidth)
      (getWorkspaceColumns root') ∧
    ((root.leaves.map (·.id)).Nodup → ∀ again,
      cleanUpWorkspaceTiles { tab with workspaceLayout := some root' } area minWidth minHeight
        again = ({ tab with workspaceLayout := some root' }, again))

/-- **Every clean up** of a tab that shows something, with positive minima. -/
theorem cleanUpWorkspaceTiles_cleansUp (hroot : tab.workspaceLayout = some root)
    (hleaves : root.leaves ≠ []) (hwidth : 0 < minWidth) (hheight : 0 < minHeight)
    (area : TabContentArea) (g : IdGen) : CleansUp tab root area minWidth minHeight g := by
  have hbalances : Balances root.leaves (rowsForHeight area minHeight)
      (columnsForWidth area minWidth) (balancedColumns _ _ _) :=
    sliceColumns_balances hleaves (le_max_left _ _) (le_max_left _ _) rfl
  have heq := cleanUpWorkspaceTiles_eq hroot hleaves hwidth hheight area g
  generalize hcolumns : balancedColumns root.leaves (rowsForHeight area minHeight)
    (columnsForWidth area minWidth) = columns at hbalances heq
  have hne := hbalances.nonempty
  have hkept := buildColumnsLayout_leaves columns none true root g
  rw [hbalances.kept] at hkept
  cases hbuilt : buildColumnsLayout columns none true root g with
  | mk layout g' =>
    rw [hbuilt] at heq hkept
    cases layout with
    | none => exact absurd hkept.symm hleaves
    | some root' =>
      replace hkept : root'.leaves = root.leaves := hkept
      refine ⟨root', g', heq, ?_, fun hids again => ?_⟩
      · rwa [(columnNodes_buildColumnsLayout hne hbuilt).2]
      · rw [cleanUpWorkspaceTiles_eq rfl (hkept ▸ hleaves) hwidth hheight, hkept, hcolumns,
          buildColumnsLayout_again hne (hbalances.kept.symm ▸ hids) hbuilt]

/-- Three columns, the first of them as a clean up in an area for three rows makes it. -/
def fiveTiles : WorkspaceTileNode :=
  .split ⟨"root", .horizontal, [50, 25, 25]⟩
    [.split ⟨"column", .vertical, [40, 30, 30]⟩
      [.leaf (emptyTile "a" "w1"), .leaf (emptyTile "b" "w2"), .leaf (emptyTile "c" "w3")],
    .leaf (emptyTile "d" "w4"), .leaf (emptyTile "e" "w5")]

def fiveTilesTab : WindowTab :=
  { TileOperation.oneTileTab "" "" with workspaceLayout := some fiveTiles }

/-- Of the five tiles two columns are made, and the first one keeps its node. -/
theorem cleanUpWorkspaceTiles_cleansUp_fiveTiles :
    CleansUp fiveTilesTab fiveTiles ⟨some 1600, some 1100⟩ 500 352 .sessionStart ∧
      (fiveTiles.leaves.map (·.id)).Nodup ∧
      let layout := (cleanUpWorkspaceTiles fiveTilesTab ⟨some 1600, some 1100⟩ 500 352
        .sessionStart).1.workspaceLayout
      (layout.map fun root => ((getWorkspaceColumns root).map (·.map (·.workspaceId)),
          root.splits.map (·.1.id))) =
        some ([["w1", "w2", "w3"], ["w4", "w5"]], ["root", "column", "ws-split-1-0"]) :=
  ⟨cleanUpWorkspaceTiles_cleansUp rfl (by decide) (by norm_num) (by norm_num) _ _,
    by decide, by decide +kernel⟩

def twinTab : WindowTab :=
  { TileOperation.oneTileTab "" "" with
    workspaceLayout := some (.split ⟨"root", .vertical, [25, 25, 25, 25]⟩
      [.leaf (emptyTile "a" "w1"), .leaf (emptyTile "b" "w2"), .leaf (emptyTile "a" "w3"),
        .leaf (emptyTile "b" "w4")]) }

/-- The two columns get the same id in the second clean up. -/
theorem twinTab_changes :
    let first := cleanUpWorkspaceTiles twinTab ⟨some 704, some 1000⟩ 500 352 .sessionStart
    (cleanUpWorkspaceTiles first.1 ⟨some 704, some 1000⟩ 500 352 first.2).1 ≠ first.1 := by
  decide +kernel

end Laborer.Panels
