import Laborer.Panels.WorkspaceTileRearrange

/-!
# Column layouts

Rebuilding a tab from columns, and the operations that do: dropping a workspace
on an edge, moving it below another one, and cleaning a tab up.

The ids of a rebuilt tree come from two places. A column whose leaves are
unchanged keeps the id of the node that held it; two columns never keep the
same id, because their signatures differ and a well-formed tree has each id
once. Every other split id is drawn.
-/

namespace Laborer.Panels

open Laborer.Library List Option LeafTree

/-! ## The columns of a tree -/

theorem columnNodes_split (info : SplitInfo) (cs : List WorkspaceTileNode) :
    columnNodes (.split info cs) =
      if info.direction = .horizontal then cs else [.split info cs] := rfl

theorem getWorkspaceColumns_eq (root : WorkspaceTileNode) :
    getWorkspaceColumns root = (columnNodes root).map LeafTree.leaves := by
  cases root with
  | leaf tile => rfl
  | split info cs =>
    by_cases h : info.direction = .horizontal <;> simp [getWorkspaceColumns, columnNodes_split, h]

theorem getWorkspaceColumns_flatten (root : WorkspaceTileNode) :
    (getWorkspaceColumns root).flatten = root.leaves := by
  rw [getWorkspaceColumns_eq]
  cases root with
  | leaf tile => rfl
  | split info cs =>
    by_cases h : info.direction = .horizontal <;> simp [columnNodes_split, h, flatMap_def]

variable {n root : WorkspaceTileNode}

theorem columnNodes_splits (h : n ∈ columnNodes root) : n.splits ⊆ root.splits := by
  cases root with
  | leaf tile => simp_all [columnNodes]
  | split info cs =>
    rw [columnNodes_split] at h
    split at h
    · intro e he
      rw [splits_split]
      exact mem_cons_of_mem _ (mem_flatMap.mpr ⟨n, h, he⟩)
    · rw [mem_singleton.mp h]
      exact List.Subset.refl _

theorem columnNodes_unique {n' : WorkspaceTileNode} (hwf : WellFormedTile root)
    (h : n ∈ columnNodes root) (h' : n' ∈ columnNodes root) (hid : nodeId n = nodeId n') :
    n = n' := by
  cases root with
  | leaf tile => simp_all [columnNodes]
  | split info cs =>
    rw [columnNodes_split] at h h'
    split at h
    · next hdir =>
      rw [if_pos hdir] at h'
      have hnodup := (nodup_cons.mp ((nodeIds_split_perm info cs).nodup_iff.mp hwf.nodeIds_nodup)).2
      by_contra hne
      have : Std.Symm (Function.onFun List.Disjoint (nodeIds (α := WorkspaceTileLeaf))) :=
        ⟨fun _ _ hd => List.Disjoint.symm hd⟩
      have hdisjoint := (nodup_flatMap.mp hnodup).2.forall h h' hne
      exact hdisjoint (nodeId_mem_nodeIds n) (hid ▸ nodeId_mem_nodeIds n')
    · next hdir =>
      rw [if_neg hdir] at h'
      rw [mem_singleton.mp h, mem_singleton.mp h']

variable {sig : List String}

theorem buildPreviousColumnIndex_get? (h : (buildPreviousColumnIndex root).get? sig = some n) :
    n ∈ columnNodes root ∧ sig = columnSignature n.leaves := by
  have hmem := OrderedMap.mem_of_get?_ofEntries h
  rw [getWorkspaceColumns_eq, List.map_map] at hmem
  have hzip : ((columnNodes root).map (columnSignature ∘ LeafTree.leaves)).zip (columnNodes root) =
      (columnNodes root).map fun n => (columnSignature n.leaves, n) := by
    generalize columnNodes root = nodes
    induction nodes with
    | nil => rfl
    | cons d ds ih => simp [ih]
  rw [hzip] at hmem
  obtain ⟨d, hd, heq⟩ := mem_map.mp hmem
  obtain ⟨hsig, rfl⟩ := Prod.mk.injEq .. ▸ heq
  exact ⟨hd, hsig.symm⟩

/-! ## Building one node per column -/

/-- The previous index holds a split with id `k` for a column signature. -/
def Reuses (prev : OrderedMap (List String) WorkspaceTileNode) (sig : List String)
    (k : String) : Prop :=
  ∃ info cs, prev.get? sig = some (.split info cs) ∧ info.id = k

theorem reuses_unique (hwf : WellFormedTile root) {sig' : List String} {k : String}
    (h : Reuses (buildPreviousColumnIndex root) sig k)
    (h' : Reuses (buildPreviousColumnIndex root) sig' k) : sig = sig' := by
  obtain ⟨info, cs, hget, rfl⟩ := h
  obtain ⟨info', cs', hget', hid⟩ := h'
  obtain ⟨hmem, rfl⟩ := buildPreviousColumnIndex_get? hget
  obtain ⟨hmem', rfl⟩ := buildPreviousColumnIndex_get? hget'
  rw [columnNodes_unique hwf hmem hmem' hid.symm]

variable {cs : List WorkspaceTileNode}

theorem reuses_splits {info : SplitInfo}
    (h : (buildPreviousColumnIndex root).get? sig = some (.split info cs)) :
    (info, cs.length) ∈ root.splits :=
  columnNodes_splits (buildPreviousColumnIndex_get? h).1 (by simp)

/-- The split ids of a list of column nodes: some kept from the previous
columns, the others drawn. -/
structure ColumnIds (prev : OrderedMap (List String) WorkspaceTileNode) (g g' : IdGen)
    (columns : Columns) (splitIds kept news : List String) : Prop where
  draws : IdGen.Draws g g' news
  perm : splitIds.Perm (kept ++ news)
  kept_nodup : kept.Nodup
  reuses : ∀ k ∈ kept, ∃ column ∈ columns, Reuses prev (columnSignature column) k

variable {g : IdGen}

theorem buildColumnNode_of_two_le
    {prev : OrderedMap (List String) WorkspaceTileNode} {equalizeRows : Bool}
    {column : List WorkspaceTileLeaf} (h : 2 ≤ column.length) :
    buildColumnNode prev equalizeRows column g =
      match prev.get? (columnSignature column) with
      | some (.split info _) =>
        (.split ⟨info.id, .vertical, if equalizeRows ∨ info.sizes.length ≠ column.length
          then equalSizes column else info.sizes⟩ (column.map .leaf), g)
      | _ => (.split ⟨(g.generateId "ws-split").1, .vertical, equalSizes column⟩
          (column.map .leaf), (g.generateId "ws-split").2) := by
  match column, h with
  | _ :: _ :: _, _ => rfl

theorem buildColumnNode_leaves (prev : OrderedMap (List String) WorkspaceTileNode)
    (equalizeRows : Bool) (column : List WorkspaceTileLeaf) (g : IdGen) :
    (buildColumnNode prev equalizeRows column g).1.leaves = column := by
  have hflat : ∀ info : SplitInfo, (LeafTree.split info (column.map .leaf)).leaves = column :=
    fun info => by simp [flatMap_map]
  unfold buildColumnNode
  split
  · rfl
  · split <;> exact hflat _

theorem buildColumnNodes_leaves (prev : OrderedMap (List String) WorkspaceTileNode)
    (equalizeRows : Bool) (columns : Columns) (g : IdGen) :
    (buildColumnNodes prev equalizeRows columns g).1.map LeafTree.leaves = columns := by
  induction columns generalizing g with
  | nil => rfl
  | cons column columns ih =>
    rw [buildColumnNodes, map_cons, buildColumnNode_leaves, ih]

/-- `buildColumnNode` yields a sound node. Its split id, if it is a split, is
kept or drawn. -/
theorem buildColumnNode_spec (hwf : WellFormedTile root)
    (equalizeRows : Bool) {column : List WorkspaceTileLeaf} (hne : column ≠ []) (g : IdGen) :
    let r := buildColumnNode (buildPreviousColumnIndex root) equalizeRows column g
    r.1.AllSplits SplitOk ∧
      ∃ kept news, ColumnIds (buildPreviousColumnIndex root) g r.2 [column]
        (r.1.splits.map (·.1.id)) kept news := by
  have hflat : ∀ info : SplitInfo, SplitOk info column.length →
      (LeafTree.split info (column.map .leaf)).AllSplits SplitOk := by
    intro info hok
    rw [allSplits_split, length_map]
    exact ⟨hok, by simp⟩
  have hids : ∀ info : SplitInfo, (LeafTree.split info (column.map .leaf)).splits.map (·.1.id) =
      [info.id] := by
    intro info
    simp [flatMap_map]
  by_cases hlen : 2 ≤ column.length
  swap
  · -- a single leaf is its own node
    have hpos := length_pos_iff.mpr hne
    obtain ⟨only, rfl⟩ : ∃ only, column = [only] := length_eq_one_iff.mp (by omega)
    exact ⟨by simp [buildColumnNode], [], [], .refl g, List.Perm.refl _, nodup_nil,
      fun _ h => absurd h not_mem_nil⟩
  · rw [buildColumnNode_of_two_le hlen]
    split
    · next info cs hget =>
      -- an unchanged column keeps its node's id
      have hrow : SplitOk ⟨info.id, .vertical, if equalizeRows ∨ info.sizes.length ≠ column.length
          then equalSizes column else info.sizes⟩ column.length := by
        split
        · exact splitOk_equalSizes hlen _ _
        · next hsizes =>
          obtain ⟨-, -, hpos, hsum⟩ := hwf.splits_ok _ (reuses_splits hget)
          exact ⟨hlen, by simpa using (not_or.mp hsizes).2, hpos, hsum⟩
      refine ⟨hflat _ hrow, [info.id], [], .refl g, ?_, ?_, ?_⟩
      · rw [hids]; exact List.Perm.refl _
      · exact nodup_singleton _
      · intro k hk
        rw [mem_singleton.mp hk]
        exact ⟨column, mem_singleton_self _, info, cs, hget, rfl⟩
    · have hrow := splitOk_equalSizes hlen (g.generateId "ws-split").1 .vertical
      refine ⟨hflat _ hrow, [], _, .generateId g "ws-split", ?_,
        nodup_nil, fun _ h => absurd h not_mem_nil⟩
      rw [hids]; exact List.Perm.refl _

theorem buildColumnNodes_spec (hwf : WellFormedTile root)
    (equalizeRows : Bool) {columns : Columns} (hne : ∀ column ∈ columns, column ≠ [])
    (hnodup : (columns.flatten.map (·.id)).Nodup) (g : IdGen) :
    let r := buildColumnNodes (buildPreviousColumnIndex root) equalizeRows columns g
    (∀ n ∈ r.1, n.AllSplits SplitOk) ∧
      ∃ kept news, ColumnIds (buildPreviousColumnIndex root) g r.2 columns
        (r.1.flatMap fun n => n.splits.map (·.1.id)) kept news := by
  induction columns generalizing g with
  | nil =>
    exact ⟨fun _ h => absurd h not_mem_nil, [], [], .refl g, List.Perm.refl _,
      nodup_nil, fun _ h => absurd h not_mem_nil⟩
  | cons column columns ih =>
    rw [forall_mem_cons] at hne
    rw [flatten_cons, map_append] at hnodup
    obtain ⟨-, hnodupRest, hdisjoint⟩ := nodup_append.mp hnodup
    obtain ⟨hok, kept, news, hcol⟩ := buildColumnNode_spec hwf equalizeRows hne.1 g
    obtain ⟨hokRest, keptRest, newsRest, hrest⟩ := ih hne.2 hnodupRest
      (buildColumnNode (buildPreviousColumnIndex root) equalizeRows column g).2
    refine ⟨?_, kept ++ keptRest, news ++ newsRest, hcol.draws.trans hrest.draws, ?_, ?_, ?_⟩
    · rw [buildColumnNodes, forall_mem_cons]
      exact ⟨hok, hokRest⟩
    · rw [buildColumnNodes, flatMap_cons]
      refine (hcol.perm.append hrest.perm).trans ?_
      rw [append_assoc, append_assoc]
      refine List.Perm.append_left kept ?_
      exact perm_append_comm_assoc news keptRest newsRest
    · -- a shared id would mean a shared signature, but columns have no leaf in common
      refine nodup_append.mpr ⟨hcol.kept_nodup, hrest.kept_nodup, ?_⟩
      rintro k hk k' hk' rfl
      obtain ⟨c, hc, hreuse⟩ := hcol.reuses k hk
      obtain ⟨c', hc', hreuse'⟩ := hrest.reuses k hk'
      rw [mem_singleton.mp hc] at hreuse
      have hsig := reuses_unique hwf hreuse hreuse'
      obtain ⟨leaf, hleaf⟩ := exists_mem_of_ne_nil column hne.1
      have hin : leaf.id ∈ columnSignature column := mem_map_of_mem hleaf
      rw [hsig] at hin
      obtain ⟨leaf', hleaf', heq⟩ := mem_map.mp hin
      exact hdisjoint leaf.id (mem_map_of_mem hleaf) leaf'.id
        (mem_map_of_mem (mem_flatten.mpr ⟨c', hc', hleaf'⟩)) heq.symm
    · intro k hk
      rcases mem_append.mp hk with hk | hk
      · obtain ⟨c, hc, hreuse⟩ := hcol.reuses k hk
        exact ⟨c, by simp_all, hreuse⟩
      · obtain ⟨c, hc, hreuse⟩ := hrest.reuses k hk
        exact ⟨c, mem_cons_of_mem _ hc, hreuse⟩

/-! ## Rebuilding the tree -/

/-- A tree over the leaves of `root` whose split ids are kept from `root` or
drawn is a rearrangement of `root`. -/
theorem rearranges_of_kept {g' : IdGen} {t' : WorkspaceTileNode}
    {kept news : List String} (hwf : WellFormedTile root) (hfresh : g.Fresh (nodeIds root))
    (hleaves : t'.leaves.Perm root.leaves) (hok : t'.AllSplits SplitOk)
    (hdraws : IdGen.Draws g g' news)
    (hperm : (t'.splits.map (·.1.id)).Perm (kept ++ news)) (hkept : kept.Nodup)
    (hsub : ∀ k ∈ kept, k ∈ root.splits.map (·.1.id)) : Rearranges g' root t' := by
  obtain ⟨-, hleafNodup, hdisjoint⟩ := nodup_append.mp hwf.nodeIds_nodup
  have hold : (kept ++ root.leaves.map HasNodeId.leafId).Nodup :=
    nodup_append.mpr ⟨hkept, hleafNodup, fun k hk => hdisjoint k (hsub k hk)⟩
  have hfreshOld : g.Fresh (kept ++ root.leaves.map HasNodeId.leafId) := by
    apply hfresh.mono
    intro k hk
    rcases mem_append.mp hk with hk | hk
    · exact mem_append_left _ (hsub k hk)
    · exact mem_append_right _ hk
  have hids : (nodeIds t').Perm (news ++ (kept ++ root.leaves.map HasNodeId.leafId)) := by
    refine (hperm.append (hleaves.map _)).trans ?_
    rw [← append_assoc]
    exact perm_append_comm.append_right _
  refine ⟨hleaves, ⟨?_, ?_, hok⟩, (hdraws.fresh hfreshOld).mono hids.subset⟩
  · exact hids.nodup_iff.mpr (hdraws.nodup_append hfreshOld hold)
  · exact (hleaves.map _).nodup_iff.mpr hwf.workspaceIds_nodup

theorem flatten_filter_nonempty (columns : Columns) :
    (columns.filter fun column => 0 < column.length).flatten = columns.flatten := by
  induction columns with
  | nil => rfl
  | cons column columns ih => cases column <;> simp_all

theorem buildColumnsLayout_leaves (columns : Columns) (columnSizes : Option (List ℚ))
    (equalizeRows : Bool) (root : WorkspaceTileNode) (g : IdGen) :
    optionLeaves (buildColumnsLayout columns columnSizes equalizeRows root g).1 =
      columns.flatten := by
  unfold buildColumnsLayout
  simp only
  rw [← flatten_filter_nonempty]
  generalize columns.filter (fun column => 0 < column.length) = nonEmpty
  have hleaves := buildColumnNodes_leaves (buildPreviousColumnIndex root) equalizeRows nonEmpty g
  generalize buildColumnNodes (buildPreviousColumnIndex root) equalizeRows nonEmpty g = built
    at hleaves ⊢
  obtain ⟨nodes, g'⟩ := built
  rw [← hleaves]
  match nodes with
  | [] => rfl
  | [only] => simp
  | first :: second :: rest => simp [flatMap_def]

theorem splitOk_columnWidths {columnSizes : Option (List ℚ)}
    {nodes : List WorkspaceTileNode} (hlen : 2 ≤ nodes.length)
    (hsizes : ∀ widths, columnSizes = some widths → widths.sum = 100) (id : String) :
    SplitOk ⟨id, .horizontal, columnWidths columnSizes nodes⟩ nodes.length := by
  unfold columnWidths
  split
  · next widths =>
    split
    · next hfit => exact ⟨hlen, hfit.1, hfit.2, hsizes widths rfl⟩
    · exact splitOk_equalSizes hlen _ _
  · exact splitOk_equalSizes hlen _ _

/-- The id of the new root is kept from a horizontal root, and then none of the
columns keeps it, or it is drawn. -/
theorem columnsRootId_spec (hwf : WellFormedTile root)
    (g : IdGen) {kept : List String} (hkept : kept.Nodup)
    (hsub : ∀ k ∈ kept, ∃ n ∈ columnNodes root, k = nodeId n ∧ k ∈ n.splits.map (·.1.id)) :
    ∃ kept' drawn, IdGen.Draws g (columnsRootId root g).2 drawn ∧ (∀ news : List String,
        ((columnsRootId root g).1 :: (kept ++ news)).Perm (kept' ++ (news ++ drawn))) ∧
      kept'.Nodup ∧
      ((∀ k ∈ kept, k ∈ root.splits.map (·.1.id)) → ∀ k ∈ kept', k ∈ root.splits.map (·.1.id)) := by
  have hdrawn : columnsRootId root g = g.generateId "ws-split" → ∃ kept' drawn,
      IdGen.Draws g (columnsRootId root g).2 drawn ∧ (∀ news : List String,
          ((columnsRootId root g).1 :: (kept ++ news)).Perm (kept' ++ (news ++ drawn))) ∧
        kept'.Nodup ∧
        ((∀ k ∈ kept, k ∈ root.splits.map (·.1.id)) →
          ∀ k ∈ kept', k ∈ root.splits.map (·.1.id)) := by
    intro heq
    rw [heq]
    refine ⟨kept, _, IdGen.Draws.generateId g "ws-split", fun news => ?_, hkept, fun h => h⟩
    rw [← append_assoc]
    exact (perm_append_singleton _ _).symm
  cases root with
  | leaf tile => exact hdrawn rfl
  | split info cs =>
    by_cases hdir : info.direction = .horizontal
    · have heq : columnsRootId (.split info cs) g = (info.id, g) := by simp [columnsRootId, hdir]
      rw [heq]
      refine ⟨info.id :: kept, [], IdGen.Draws.refl g, fun news => by simp, ?_, fun h => ?_⟩
      · refine nodup_cons.mpr ⟨fun hmem => ?_, hkept⟩
        obtain ⟨n, hn, hid, -⟩ := hsub _ hmem
        rw [columnNodes_split, if_pos hdir] at hn
        have hnodup := (nodeIds_split_perm info cs).nodup_iff.mp hwf.nodeIds_nodup
        apply (nodup_cons.mp hnodup).1
        exact mem_flatMap.mpr ⟨n, hn, hid ▸ nodeId_mem_nodeIds n⟩
      · rw [forall_mem_cons]
        exact ⟨by simp, h⟩
    · exact hdrawn (by simp [columnsRootId, hdir])

/-- Columns over all leaves of a well-formed tree rebuild into a rearrangement
of it, provided the requested widths add up to 100. -/
theorem buildColumnsLayout_rearranges
    (hwf : WellFormedTile root) (hfresh : g.Fresh (nodeIds root)) {columns : Columns}
    (hperm : columns.flatten.Perm root.leaves) {columnSizes : Option (List ℚ)}
    (hsizes : ∀ widths, columnSizes = some widths → widths.sum = 100) (equalizeRows : Bool) :
    ∃ root', (buildColumnsLayout columns columnSizes equalizeRows root g).1 = some root' ∧
      Rearranges (buildColumnsLayout columns columnSizes equalizeRows root g).2 root root' := by
  unfold buildColumnsLayout
  simp only
  rw [← flatten_filter_nonempty] at hperm
  have hne : ∀ column ∈ columns.filter fun column => 0 < column.length, column ≠ [] := by
    intro column hc
    rintro rfl
    simp at hc
  generalize columns.filter (fun column => 0 < column.length) = nonEmpty at hperm hne ⊢
  have hnodup : (nonEmpty.flatten.map (·.id)).Nodup :=
    (hperm.map _).nodup_iff.mpr (nodup_append.mp hwf.nodeIds_nodup).2.1
  have hleaves := buildColumnNodes_leaves (buildPreviousColumnIndex root) equalizeRows nonEmpty g
  obtain ⟨hok, kept, news, hcol⟩ := buildColumnNodes_spec hwf equalizeRows hne hnodup g
  have hsub : ∀ k ∈ kept, ∃ n ∈ columnNodes root, k = nodeId n ∧ k ∈ n.splits.map (·.1.id) := by
    intro k hk
    obtain ⟨column, -, info, cs, hget, rfl⟩ := hcol.reuses k hk
    exact ⟨_, (buildPreviousColumnIndex_get? hget).1, rfl, by simp⟩
  have hsubRoot : ∀ k ∈ kept, k ∈ root.splits.map (·.1.id) := by
    intro k hk
    obtain ⟨n, hn, -, hmem⟩ := hsub k hk
    exact map_subset _ (columnNodes_splits hn) hmem
  generalize buildColumnNodes (buildPreviousColumnIndex root) equalizeRows nonEmpty g = built
    at hleaves hok hcol ⊢
  obtain ⟨nodes, g'⟩ := built
  simp only at hleaves hok hcol ⊢
  have hflat : nodes.flatMap LeafTree.leaves = nonEmpty.flatten := by
    rw [← hleaves, flatMap_def]
  match nodes with
  | [] =>
    -- no node would mean no leaf
    rw [← hflat] at hperm
    exact absurd hperm.symm.eq_nil hwf.leaves_ne_nil
  | [only] =>
    refine ⟨only, rfl, ?_⟩
    refine rearranges_of_kept hwf hfresh ?_ (hok only (by simp)) hcol.draws ?_ hcol.kept_nodup
      hsubRoot
    · rw [← hflat] at hperm
      simpa using hperm
    · simpa using hcol.perm
  | first :: second :: rest =>
    refine ⟨_, rfl, ?_⟩
    have hlen : 2 ≤ (first :: second :: rest).length := by simp
    simp only
    generalize first :: second :: rest = nodes at hok hcol hflat hlen ⊢
    obtain ⟨keptRoot, newsRoot, hdraws, hids, hnodupRoot, hsubKept⟩ :=
      columnsRootId_spec hwf g' hcol.kept_nodup hsub
    refine rearranges_of_kept hwf hfresh ?_ ?_ (hcol.draws.trans hdraws) ?_ hnodupRoot ?_
    · rw [leaves_split, hflat]
      exact hperm
    · exact (allSplits_split _ _ _).mpr ⟨splitOk_columnWidths hlen hsizes _, hok⟩
    · rw [splits_split, map_cons, map_flatMap]
      refine (hcol.perm.cons _).trans ?_
      refine (hids news).trans ?_
      exact List.Perm.refl _
    · exact hsubKept hsubRoot

/-! ## Moving to an edge -/

section MoveToEdge

variable {source target : String} {column : List WorkspaceTileLeaf} {leaf : WorkspaceTileLeaf}
  {columns working : Columns} {i : ℕ} {root : WorkspaceTileNode} {tab : WindowTab}

theorem eraseP_of_not_mem (h : source ∉ column.map (·.workspaceId)) :
    column.eraseP (·.workspaceId = source) = column ∧
      column.find? (·.workspaceId = source) = none := by
  have hnone : ∀ leaf ∈ column, ¬ (decide (leaf.workspaceId = source)) = true := by
    intro leaf hleaf heq
    exact h (mem_map.mpr ⟨leaf, hleaf, of_decide_eq_true heq⟩)
  exact ⟨eraseP_of_forall_not hnone, find?_eq_none.mpr hnone⟩

theorem perm_cons_eraseP {p : WorkspaceTileLeaf → Bool} (h : column.find? p = some leaf) :
    (leaf :: column.eraseP p).Perm column := by
  induction column with
  | nil => simp at h
  | cons l ls ih =>
    cases hp : p l with
    | true =>
      rw [find?_cons_of_pos hp] at h
      cases h
      rw [eraseP_cons_of_pos hp]
    | false =>
      have hneg : ¬ p l = true := by simp [hp]
      rw [find?_cons_of_neg hneg] at h
      rw [eraseP_cons_of_neg hneg]
      exact (List.Perm.swap ..).trans ((ih h).cons l)

theorem extract_perm (hnodup : (columns.flatten.map (·.workspaceId)).Nodup)
    (h : (columns.filterMap fun column => column.find? (·.workspaceId = source)).getLast? =
      some leaf) :
    (leaf :: (columns.map fun column => column.eraseP (·.workspaceId = source)).flatten).Perm
      columns.flatten := by
  induction columns with
  | nil => simp at h
  | cons column columns ih =>
    rw [flatten_cons, map_append] at hnodup
    obtain ⟨-, hnodupRest, hdisjoint⟩ := nodup_append.mp hnodup
    rw [map_cons, flatten_cons, flatten_cons]
    by_cases hmem : source ∈ column.map (·.workspaceId)
    · -- the other columns do not have the source
      have hrest : ∀ c ∈ columns, source ∉ c.map (·.workspaceId) := by
        intro c hc hin
        refine hdisjoint source hmem source ?_ rfl
        obtain ⟨l, hl, heq⟩ := mem_map.mp hin
        exact mem_map.mpr ⟨l, mem_flatten.mpr ⟨c, hc, hl⟩, heq⟩
      have hsame : (columns.map fun c => c.eraseP (·.workspaceId = source)) = columns := by
        rw [List.map_congr_left fun c hc => (eraseP_of_not_mem (hrest c hc)).1, List.map_id']
      have hnone : (columns.filterMap fun c => c.find? (·.workspaceId = source)) = [] :=
        filterMap_eq_nil_iff.mpr fun c hc => (eraseP_of_not_mem (hrest c hc)).2
      obtain ⟨l, hl, hlw⟩ := mem_map.mp hmem
      obtain ⟨found, hfound⟩ := isSome_iff_exists.mp
        (find?_isSome (p := (·.workspaceId = source)) |>.mpr ⟨l, hl, decide_eq_true hlw⟩)
      rw [filterMap_cons_some hfound, hnone] at h
      cases h
      rw [hsame]
      exact (perm_cons_eraseP hfound).append_right _
    · obtain ⟨herase, hfind⟩ := eraseP_of_not_mem hmem
      rw [filterMap_cons_none hfind] at h
      rw [herase]
      exact perm_middle.symm.trans ((ih hnodupRest h).append_left column)

theorem lastColumnIndex_lt (h : lastColumnIndex columns target = some i) : i < columns.length := by
  have hstep : ∀ (xs : List (List WorkspaceTileLeaf × ℕ)) (found : Option ℕ),
      (∀ x ∈ xs, x.2 < columns.length) → (∀ j, found = some j → j < columns.length) →
      xs.foldl (fun found x =>
        if x.1.any (·.workspaceId = target) then some x.2 else found) found = some i →
      i < columns.length := by
    intro xs
    induction xs with
    | nil => exact fun found _ hfound hres => hfound i hres
    | cons x xs ih =>
      intro found hxs hfound hres
      rw [forall_mem_cons] at hxs
      refine ih _ hxs.2 ?_ hres
      intro j hj
      dsimp only at hj
      split at hj
      · cases hj; exact hxs.1
      · exact hfound j hj
  refine hstep columns.zipIdx none ?_ (by simp) h
  rintro ⟨column, j⟩ hx
  exact (mem_zipIdx' hx).1

theorem extractSourceLeaf_index
    (h : extractSourceLeaf columns source target = some (working, leaf, i)) :
    working = columns.map (fun column => column.eraseP (·.workspaceId = source)) ∧
      (columns.filterMap fun column => column.find? (·.workspaceId = source)).getLast? = some leaf ∧
      i < working.length := by
  unfold extractSourceLeaf at h
  simp only at h
  split at h
  · next found index hfound hindex =>
    cases h
    refine ⟨rfl, hfound, ?_⟩
    rw [length_map]
    split at hindex
    · exact (findIdx?_eq_some_iff_findIdx_eq.mp hindex).1
    · have := lastColumnIndex_lt hindex
      rwa [length_map] at this
  · cases h

theorem extractSourceLeaf_spec (hnodup : (columns.flatten.map (·.workspaceId)).Nodup)
    (h : extractSourceLeaf columns source target = some (working, leaf, i)) :
    (leaf :: working.flatten).Perm columns.flatten ∧ i < working.length := by
  obtain ⟨rfl, hfound, hi⟩ := extractSourceLeaf_index h
  exact ⟨extract_perm hnodup hfound, hi⟩

theorem extractSourceLeaf_subset
    (h : extractSourceLeaf columns source target = some (working, leaf, i)) :
    leaf :: working.flatten ⊆ columns.flatten := by
  obtain ⟨rfl, hfound, -⟩ := extractSourceLeaf_index h
  rw [cons_subset]
  constructor
  · obtain ⟨column, hcolumn, hfind⟩ := mem_filterMap.mp (mem_of_getLast? hfound)
    exact mem_flatten.mpr ⟨column, hcolumn, mem_of_find?_eq_some hfind⟩
  · intro tile htile
    obtain ⟨_, hmem, htile⟩ := mem_flatten.mp htile
    obtain ⟨column, hcolumn, rfl⟩ := mem_map.mp hmem
    exact mem_flatten.mpr ⟨column, hcolumn, eraseP_subset htile⟩

theorem flatten_set_perm {column' : List WorkspaceTileLeaf} (hi : columns[i]? = some column)
    (hperm : column'.Perm (leaf :: column)) :
    (columns.set i column').flatten.Perm (leaf :: columns.flatten) := by
  induction columns generalizing i with
  | nil => simp at hi
  | cons c cs ih =>
    cases i with
    | zero =>
      cases hi
      simpa using hperm.append_right cs.flatten
    | succ i =>
      rw [set_cons_succ, flatten_cons, flatten_cons]
      exact ((ih (by simpa using hi)).append_left c).trans perm_middle

theorem insertLeafAtEdge_perm {moved : Columns} (hi : i < working.length) {edge : WorkspaceDropEdge}
    (h : insertLeafAtEdge working leaf i target edge = some moved) :
    moved.flatten.Perm (leaf :: working.flatten) := by
  have hside : ∀ j ≤ working.length,
      (working.insertIdx j [leaf]).flatten.Perm (leaf :: working.flatten) := by
    intro j hj
    simpa using (perm_insertIdx [leaf] working hj).flatten
  have hrow : ∀ below, below ≤ 1 → ((working[i]?).bind fun column =>
      (column.findIdx? (·.workspaceId = target)).map fun row =>
        working.set i (column.insertIdx (row + below) leaf)) = some moved →
      moved.flatten.Perm (leaf :: working.flatten) := by
    intro below hbelow hmoved
    obtain ⟨column, hcolumn, hset⟩ := bind_eq_some_iff.mp hmoved
    obtain ⟨row, hrow, rfl⟩ := map_eq_some_iff.mp hset
    have hlt := (findIdx?_eq_some_iff_findIdx_eq.mp hrow).1
    exact flatten_set_perm hcolumn (perm_insertIdx leaf column (by omega))
  unfold insertLeafAtEdge at h
  simp only at h
  cases edge with
  | left => cases h; exact hside i hi.le
  | right => cases h; exact hside (i + 1) hi
  | top => apply hrow 0 (by omega); rw [← h]; cases working[i]? <;> rfl
  | bottom => apply hrow 1 le_rfl; rw [← h]; cases working[i]? <;> rfl

theorem previousColumnSizes_sum (hwf : WellFormedTile root)
    {n : ℕ} {widths : List ℚ} (h : previousColumnSizes root n = some widths) :
    widths.sum = 100 := by
  cases root with
  | leaf tile => cases h
  | split info cs =>
    unfold previousColumnSizes at h
    split at h
    · next info' cs' heq =>
      split at h
      · cases h
        cases heq
        exact ((allSplits_split _ _ _).mp hwf.splits_ok).1.2.2.2
      · cases h
    · cases h

theorem moveWorkspaceTileToEdge_rearranges {g : IdGen}
    (hroot : tab.workspaceLayout = some root) (hwf : WellFormedTile root)
    (hfresh : g.Fresh (nodeIds root)) (source target : String) (edge : WorkspaceDropEdge) :
    ∃ root', (moveWorkspaceTileToEdge tab source target edge g).1 =
        { tab with workspaceLayout := some root' } ∧
      Rearranges (moveWorkspaceTileToEdge tab source target edge g).2 root root' := by
  have hsame : tab = { tab with workspaceLayout := some root } := by rw [← hroot]
  have hcolumns : (getWorkspaceColumns root).flatten = root.leaves :=
    getWorkspaceColumns_flatten root
  unfold moveWorkspaceTileToEdge
  rw [hroot]
  simp only
  split
  · exact ⟨root, hsame, .refl hwf hfresh⟩
  · split
    · exact ⟨root, hsame, .refl hwf hfresh⟩
    · next working hmoved =>
      obtain ⟨⟨extracted, leaf, i⟩, hextract, hinsert⟩ := bind_eq_some_iff.mp hmoved
      have hnodup : ((getWorkspaceColumns root).flatten.map (·.workspaceId)).Nodup := by
        rw [hcolumns]
        exact hwf.workspaceIds_nodup
      obtain ⟨hout, hi⟩ := extractSourceLeaf_spec hnodup hextract
      have hperm : (working.filter fun column => 0 < column.length).flatten.Perm root.leaves := by
        rw [flatten_filter_nonempty, ← hcolumns]
        exact (insertLeafAtEdge_perm hi hinsert).trans hout
      split
      · exact ⟨root, hsame, .refl hwf hfresh⟩
      · obtain ⟨root', hbuilt, hrearranges⟩ := buildColumnsLayout_rearranges hwf hfresh hperm
          (fun widths h => previousColumnSizes_sum hwf h) false
        split
        · next hnone => rw [hnone] at hbuilt; cases hbuilt
        · next newLayout g' hsome =>
          rw [hsome] at hbuilt hrearranges
          cases hbuilt
          exact ⟨_, rfl, hrearranges⟩

/-- Dropping a workspace on an edge does nothing, or takes one frame out and
puts it back. -/
theorem moveWorkspaceTileToEdge_cases
    (hroot : tab.workspaceLayout = some root) (source target : String) (edge : WorkspaceDropEdge)
    (g : IdGen) : (moveWorkspaceTileToEdge tab source target edge g).1 = tab ∨ ∃ working leaf i,
        extractSourceLeaf (getWorkspaceColumns root) source target = some (working, leaf, i) ∧
        (tabLeaves (moveWorkspaceTileToEdge tab source target edge g).1).Perm
          (leaf :: working.flatten) := by
  unfold moveWorkspaceTileToEdge
  rw [hroot]
  simp only
  split
  · exact .inl rfl
  · split
    · exact .inl rfl
    · next moved hmoved =>
      obtain ⟨⟨working, leaf, i⟩, hextract, hinsert⟩ := bind_eq_some_iff.mp hmoved
      split
      · exact .inl rfl
      · split
        · exact .inl rfl
        · next newLayout g' hsome =>
          refine .inr ⟨working, leaf, i, hextract, ?_⟩
          have hleaves := congrArg (optionLeaves ·.1) hsome
          simp only [buildColumnsLayout_leaves, flatten_filter_nonempty,
            optionLeaves_some] at hleaves
          show newLayout.leaves.Perm _
          rw [← hleaves]
          exact insertLeafAtEdge_perm (extractSourceLeaf_index hextract).2.2 hinsert

theorem moveWorkspaceTileToEdge_leaves (hnodup : (tabWorkspaceIds tab).Nodup)
    (source target : String) (edge : WorkspaceDropEdge) (g : IdGen) :
    (tabLeaves (moveWorkspaceTileToEdge tab source target edge g).1).Perm (tabLeaves tab) := by
  cases hroot : tab.workspaceLayout with
  | none =>
    rw [moveWorkspaceTileToEdge, hroot]
  | some root =>
    have hcolumns : (getWorkspaceColumns root).flatten = tabLeaves tab := by
      rw [getWorkspaceColumns_flatten, tabLeaves, hroot, optionLeaves_some]
    rcases moveWorkspaceTileToEdge_cases hroot source target edge g with
      hsame | ⟨working, leaf, i, hextract, hperm⟩
    · rw [hsame]
    · rw [← hcolumns]
      refine hperm.trans (extractSourceLeaf_spec ?_ hextract).1
      rw [hcolumns]
      exact hnodup

theorem moveWorkspaceTileToEdge_subset (tab : WindowTab) (source target : String)
    (edge : WorkspaceDropEdge) (g : IdGen) :
    tabLeaves (moveWorkspaceTileToEdge tab source target edge g).1 ⊆ tabLeaves tab := by
  cases hroot : tab.workspaceLayout with
  | none =>
    rw [moveWorkspaceTileToEdge, hroot]
    exact List.Subset.refl _
  | some root =>
    have hcolumns : (getWorkspaceColumns root).flatten = tabLeaves tab := by
      rw [getWorkspaceColumns_flatten, tabLeaves, hroot, optionLeaves_some]
    rcases moveWorkspaceTileToEdge_cases hroot source target edge g with
      hsame | ⟨working, leaf, i, hextract, hperm⟩
    · rw [hsame]
      exact List.Subset.refl _
    · rw [← hcolumns]
      exact List.Subset.trans hperm.subset (extractSourceLeaf_subset hextract)

end MoveToEdge

/-! ## Moving below a workspace -/

theorem moveRowBelow_perm (info : SplitInfo) (cs : List WorkspaceTileNode) {i j : ℕ}
    (hi : i < cs.length) (parent : String) :
    ∃ cs', cs'.Perm cs ∧ moveRowBelow info cs i j parent =
      .split { info with sizes := equalSizes cs' } cs' := by
  unfold moveRowBelow
  split
  · exact ⟨cs, List.Perm.refl _, rfl⟩
  · rw [getElem?_eq_getElem hi]
    refine ⟨_, ?_, rfl⟩
    refine (perm_insertIdx _ _ ?_).trans (getElem_cons_eraseIdx_perm hi)
    split
    · next k hk => exact (findIdx?_eq_some_iff_findIdx_eq.mp hk).1
    · exact Nat.zero_le _

/-- Leaves and ids are permuted and splits stay sound. -/
structure Shuffles (t t' : WorkspaceTileNode) : Prop where
  leaves : t'.leaves.Perm t.leaves
  ids : (nodeIds t').Perm (nodeIds t)
  splits : t.AllSplits SplitOk → t'.AllSplits SplitOk

theorem Shuffles.child {c c' : WorkspaceTileNode} (h : Shuffles c c') (info : SplitInfo)
    (pre post : List WorkspaceTileNode) :
    Shuffles (.split info (pre ++ c :: post)) (.split info (pre ++ c' :: post)) where
  leaves := by
    simp only [leaves_split, flatMap_append, flatMap_cons]
    exact (h.leaves.append_right _).append_left _
  ids := by
    refine (nodeIds_split_perm _ _).trans (List.Perm.trans ?_ (nodeIds_split_perm _ _).symm)
    simp only [flatMap_append, flatMap_cons]
    exact ((h.ids.append_right _).append_left _).cons _
  splits := by
    intro hok
    simp only [allSplits_split, forall_mem_append, forall_mem_cons,
      length_append, length_cons] at hok ⊢
    exact ⟨hok.1, hok.2.1, h.splits hok.2.2.1, hok.2.2.2⟩

theorem Shuffles.children {info : SplitInfo} {cs' : List WorkspaceTileNode}
    (h : cs'.Perm cs) :
    Shuffles (.split info cs) (.split { info with sizes := equalSizes cs' } cs') where
  leaves := by
    simp only [leaves_split]
    exact h.flatMap_right _
  ids := by
    refine (nodeIds_split_perm _ _).trans (List.Perm.trans ?_ (nodeIds_split_perm _ _).symm)
    exact (h.flatMap_right _).cons _
  splits := by
    intro hok
    obtain ⟨hinfo, hcs⟩ := (allSplits_split _ _ _).mp hok
    refine (allSplits_split _ _ _).mpr ⟨splitOk_equalSizes ?_ _ _, fun c hc => ?_⟩
    · rw [h.length_eq]
      exact hinfo.1
    · exact hcs c (h.subset hc)

theorem moveBelowInSharedColumn_list {source parent : String} {cs' : List WorkspaceTileNode}
    (h : moveBelowInSharedColumn.list source parent cs = some cs') :
    ∃ pre c c' post, cs = pre ++ c :: post ∧ cs' = pre ++ c' :: post ∧
      moveBelowInSharedColumn source parent c = some c' := by
  induction cs generalizing cs' with
  | nil => simp [moveBelowInSharedColumn.list] at h
  | cons c cs ih =>
    rw [moveBelowInSharedColumn.list] at h
    split at h
    · next moved hmoved =>
      cases h
      exact ⟨[], c, moved, cs, rfl, rfl, hmoved⟩
    · obtain ⟨rest, hrest, rfl⟩ := map_eq_some_iff.mp h
      obtain ⟨pre, d, d', post, rfl, rfl, hd⟩ := ih hrest
      exact ⟨c :: pre, d, d', post, rfl, rfl, hd⟩

theorem moveBelowInSharedColumn_shuffles {source parent : String} {t : WorkspaceTileNode} :
    ∀ t', moveBelowInSharedColumn source parent t = some t' → Shuffles t t' := by
  induction t using childInduction with
  | leaf tile => intro t' h; cases h
  | split info cs ih =>
    intro t' h
    rw [moveBelowInSharedColumn] at h
    split at h
    · next i j hrows =>
      cases h
      have hi : i < cs.length := by
        split at hrows
        · obtain ⟨k, hk, hmap⟩ := bind_eq_some_iff.mp hrows
          obtain ⟨l, -, heq⟩ := map_eq_some_iff.mp hmap
          cases heq
          exact (findIdx?_eq_some_iff_findIdx_eq.mp hk).1
        · cases hrows
      obtain ⟨cs', hperm, heq⟩ := moveRowBelow_perm info cs (j := j) hi parent
      rw [heq]
      exact .children hperm
    · obtain ⟨cs', hlist, rfl⟩ := map_eq_some_iff.mp h
      obtain ⟨pre, c, c', post, rfl, rfl, hc⟩ := moveBelowInSharedColumn_list hlist
      exact (ih c (by simp) c' hc).child info pre post

variable {tab : WindowTab}

theorem moveWorkspaceTileBelow_rearranges
    (hroot : tab.workspaceLayout = some root) (hwf : WellFormedTile root)
    (hfresh : g.Fresh (nodeIds root)) (source parent : String) :
    ∃ root', (moveWorkspaceTileBelow tab source parent g).1 =
        { tab with workspaceLayout := some root' } ∧
      Rearranges (moveWorkspaceTileBelow tab source parent g).2 root root' := by
  have hedge := moveWorkspaceTileToEdge_rearranges hroot hwf hfresh source parent .bottom
  unfold moveWorkspaceTileBelow
  rw [hroot]
  simp only
  split
  · next node hnode =>
    have hshuffle := moveBelowInSharedColumn_shuffles node hnode
    exact ⟨node, rfl, .of_perm hwf hfresh hshuffle.leaves hshuffle.ids
      (hshuffle.splits hwf.splits_ok)⟩
  · exact hedge

theorem moveWorkspaceTileBelow_leaves (hnodup : (tabWorkspaceIds tab).Nodup)
    (source parent : String) (g : IdGen) :
    (tabLeaves (moveWorkspaceTileBelow tab source parent g).1).Perm (tabLeaves tab) := by
  have hedge := moveWorkspaceTileToEdge_leaves hnodup source parent .bottom g
  unfold moveWorkspaceTileBelow
  cases hroot : tab.workspaceLayout with
  | none => exact List.Perm.refl _
  | some root =>
    simp only
    split
    · next node hnode =>
      have hbefore : tabLeaves tab = root.leaves := by simp [tabLeaves, hroot]
      rw [hbefore]
      exact (moveBelowInSharedColumn_shuffles node hnode).leaves
    · exact hedge

theorem moveWorkspaceTileBelow_subset (tab : WindowTab) (source parent : String) (g : IdGen) :
    tabLeaves (moveWorkspaceTileBelow tab source parent g).1 ⊆ tabLeaves tab := by
  have hedge := moveWorkspaceTileToEdge_subset tab source parent .bottom g
  unfold moveWorkspaceTileBelow
  cases hroot : tab.workspaceLayout with
  | none => exact List.Subset.refl _
  | some root =>
    simp only
    split
    · next node hnode =>
      have hbefore : tabLeaves tab = root.leaves := by simp [tabLeaves, hroot]
      rw [hbefore]
      exact (moveBelowInSharedColumn_shuffles node hnode).leaves.subset
    · exact hedge

/-! ## Cleaning up -/

theorem sliceColumns_flatten (base n extra : ℕ) (leaves : List WorkspaceTileLeaf) :
    (sliceColumns base n extra leaves).flatten = leaves.take (base * n + min n extra) := by
  induction n generalizing extra leaves with
  | zero => simp [sliceColumns]
  | succ n ih =>
    rw [sliceColumns, flatten_cons, ih, ← take_add]
    congr 1
    rw [Nat.mul_succ]
    split <;> omega

theorem cleanUpWorkspaceTiles_rearranges
    (hroot : tab.workspaceLayout = some root) (hwf : WellFormedTile root)
    (hfresh : g.Fresh (nodeIds root)) (area : TabContentArea) (minWidth minHeight : ℚ) :
    ∃ root', (cleanUpWorkspaceTiles tab area minWidth minHeight g).1 =
        { tab with workspaceLayout := some root' } ∧
      Rearranges (cleanUpWorkspaceTiles tab area minWidth minHeight g).2 root root' := by
  have hsame : tab = { tab with workspaceLayout := some root } := by rw [← hroot]
  unfold cleanUpWorkspaceTiles
  rw [hroot]
  simp only [getWorkspaceColumns_flatten]
  split
  · exact ⟨root, hsame, .refl hwf hfresh⟩
  · split
    · exact ⟨root, hsame, .refl hwf hfresh⟩
    · next columnCount _ =>
      rcases Nat.eq_zero_or_pos columnCount with rfl | hpos
      · exact ⟨root, hsame, .refl hwf hfresh⟩
      have hall : (sliceColumns (root.leaves.length / columnCount) columnCount
          (root.leaves.length % columnCount) root.leaves).flatten = root.leaves := by
        rw [sliceColumns_flatten, Nat.min_eq_right (Nat.mod_lt _ hpos).le,
          Nat.div_add_mod', take_length]
      have hwidths : ∀ widths : List ℚ, none = some widths → widths.sum = 100 := by simp
      obtain ⟨root', hbuilt, hrearranges⟩ :=
        buildColumnsLayout_rearranges hwf hfresh (List.Perm.of_eq hall) hwidths true
      split
      · next hnone => rw [hnone] at hbuilt; cases hbuilt
      · next newLayout g' hsome =>
        rw [hsome] at hbuilt hrearranges
        cases hbuilt
        exact ⟨_, rfl, hrearranges⟩

end Laborer.Panels
