import Laborer.Panels.WorkspaceTileWellFormed
import Mathlib.Data.List.GetD

/-!
# Rearranging workspace tiles

Resizing, reordering, moving and cleaning up keep every leaf of a well-formed
tile tree, with its panel tabs, and leave a well-formed tree behind.
-/

namespace Laborer.Panels

open Laborer.Library List LeafTree

/-- `t'` is a well-formed tree with the leaves of `t` in some order, and the
generator `g'` is ahead of its node ids. -/
structure Rearranges (g' : IdGen) (t t' : WorkspaceTileNode) : Prop where
  leaves : t'.leaves.Perm t.leaves
  wellFormed : WellFormedTile t'
  fresh : g'.Fresh (nodeIds t')

variable {g : IdGen}

theorem Rearranges.refl {t : WorkspaceTileNode} (hwf : WellFormedTile t)
    (hfresh : g.Fresh (nodeIds t)) : Rearranges g t t :=
  ⟨List.Perm.refl _, hwf, hfresh⟩

theorem Rearranges.of_perm {t t' : WorkspaceTileNode} (hwf : WellFormedTile t)
    (hfresh : g.Fresh (nodeIds t)) (hleaves : t'.leaves.Perm t.leaves)
    (hids : (nodeIds t').Perm (nodeIds t)) (hsplits : t'.AllSplits SplitOk) : Rearranges g t t' :=
  ⟨hleaves, ⟨hids.nodup_iff.mpr hwf.nodeIds_nodup,
    (hleaves.map _).nodup_iff.mpr hwf.workspaceIds_nodup, hsplits⟩, hfresh.mono hids.subset⟩

/-! ## Resizing -/

section Resize

variable {splitNodeId : String} {newSizes : List ℚ} {t : WorkspaceTileNode}

theorem applySplitSizes_list_eq (cs : List WorkspaceTileNode) :
    applySplitSizes.list splitNodeId newSizes cs =
      cs.map (applySplitSizes splitNodeId newSizes) := by
  induction cs with
  | nil => rfl
  | cons c cs ih => rw [applySplitSizes.list, ih, map_cons]

theorem applySplitSizes_leaves (t : WorkspaceTileNode) :
    (applySplitSizes splitNodeId newSizes t).leaves = t.leaves := by
  induction t using childInduction with
  | leaf tile => rfl
  | split info cs ih =>
    rw [applySplitSizes, applySplitSizes_list_eq]
    split
    · simp
    · simp only [leaves_split, flatMap_map]
      exact flatMap_congr ih

theorem applySplitSizes_splitIds (t : WorkspaceTileNode) :
    (applySplitSizes splitNodeId newSizes t).splits.map (·.1.id) = t.splits.map (·.1.id) := by
  induction t using childInduction with
  | leaf tile => rfl
  | split info cs ih =>
    rw [applySplitSizes, applySplitSizes_list_eq]
    split
    · simp
    · simp only [splits_split, map_cons, flatMap_map, map_flatMap]
      rw [flatMap_congr ih]

/-- New sizes that suit every split they are given to keep the splits sound. -/
theorem applySplitSizes_splits (hok : t.AllSplits SplitOk)
    (hnew : ∀ e ∈ t.splits, e.1.id = splitNodeId → SplitOk { e.1 with sizes := newSizes } e.2) :
    (applySplitSizes splitNodeId newSizes t).AllSplits SplitOk := by
  induction t using childInduction with
  | leaf tile => simp [applySplitSizes]
  | split info cs ih =>
    rw [splits_split, forall_mem_cons] at hnew
    obtain ⟨hinfo, hcs⟩ := (allSplits_split _ _ _).mp hok
    rw [applySplitSizes, applySplitSizes_list_eq]
    split
    · next heq => exact (allSplits_split _ _ _).mpr ⟨hnew.1 heq, hcs⟩
    · rw [allSplits_split, length_map]
      refine ⟨hinfo, ?_⟩
      simp only [forall_mem_map]
      intro c hc
      exact ih c hc (hcs c hc) fun e he => hnew.2 e (mem_flatMap.mpr ⟨c, hc, he⟩)

theorem buildTilePath_list_mem {targetId : String} {cs : List WorkspaceTileNode}
    {path : List WorkspaceTileNode} (h : buildTilePath.list targetId cs = some path) :
    ∃ c ∈ cs, buildTilePath targetId c = some path := by
  induction cs with
  | nil => simp [buildTilePath.list] at h
  | cons c cs ih =>
    rw [buildTilePath.list] at h
    split at h
    · next p hp =>
      cases h
      exact ⟨c, mem_cons_self .., hp⟩
    · obtain ⟨d, hd, hpath⟩ := ih h
      exact ⟨d, mem_cons_of_mem _ hd, hpath⟩

theorem buildTilePath_splits {targetId : String} :
    ∀ path, buildTilePath targetId t = some path → ∀ n ∈ path, n.splits ⊆ t.splits := by
  induction t using childInduction with
  | leaf tile =>
    intro path h n hn
    simp only [buildTilePath] at h
    split at h
    · cases h; simp_all
    · simp at h
  | split info cs ih =>
    intro path h n hn
    rw [buildTilePath] at h
    split at h
    · cases h
      rw [mem_singleton.mp hn]
      exact List.Subset.refl _
    · obtain ⟨rest, hrest, rfl⟩ := Option.map_eq_some_iff.mp h
      obtain ⟨c, hc, hpath⟩ := buildTilePath_list_mem hrest
      rcases mem_cons.mp hn with rfl | hn
      · exact List.Subset.refl _
      · intro e he
        rw [splits_split]
        exact mem_cons_of_mem _ (mem_flatMap.mpr ⟨c, hc, ih c hc rest hpath n hn he⟩)

theorem applyResizeDelta_splitOk {info : SplitInfo} {n i : ℕ} {delta : ℚ} {sizes : List ℚ}
    (hok : SplitOk info n) (hi : i < n) (h : applyResizeDelta info n i delta = some sizes) :
    SplitOk { info with sizes } n := by
  obtain ⟨htwo, hlen, hpos, hsum⟩ := hok
  unfold applyResizeDelta at h
  split at h
  · simp at h
  · next hedge =>
    set j := if 0 < delta then i + 1 else i - 1 with hj
    have hne : i ≠ j := by
      rw [hj]
      split <;> grind
    simp only at h
    split at h
    · simp at h
    · next hjn =>
      split at h
      · simp at h
      · next hmin =>
        cases h
        have hi' : i < info.sizes.length := by omega
        have hj' : j < info.sizes.length := by omega
        rw [getD_eq_getElem _ _ hi', getD_eq_getElem _ _ hj'] at hmin ⊢
        simp only [not_or, not_lt, minTileSize] at hmin
        refine ⟨htwo, by simp [hlen], ?_, ?_⟩
        · intro s hs
          rcases mem_or_eq_of_mem_set hs with hs | rfl
          · rcases mem_or_eq_of_mem_set hs with hs | rfl
            · exact hpos s hs
            · linarith [hmin.1]
          · linarith [hmin.2]
        · -- what the neighbour loses the child gains
          rw [sum_set', sum_set']
          simp only [length_set, hi', hj', dite_true, getElem_set_ne hne]
          linarith

theorem computeTileResize_some {dir : ResizeDirection}
    {pairs : List (WorkspaceTileNode × WorkspaceTileNode)} {r : String × List ℚ}
    (h : computeTileResize dir pairs = some r) :
    ∃ info cs child, (LeafTree.split info cs, child) ∈ pairs ∧ r.1 = info.id ∧
      ∃ i < cs.length, ∃ delta, applyResizeDelta info cs.length i delta = some r.2 := by
  induction pairs with
  | nil => simp [computeTileResize] at h
  | cons p rest ih =>
    have hrest : computeTileResize dir rest = some r → ∃ info cs child,
        (LeafTree.split info cs, child) ∈ p :: rest ∧ r.1 = info.id ∧
          ∃ i < cs.length, ∃ delta, applyResizeDelta info cs.length i delta = some r.2 := by
      intro h
      obtain ⟨info, cs, child, hmem, hr⟩ := ih h
      exact ⟨info, cs, child, mem_cons_of_mem _ hmem, hr⟩
    match p with
    | (.leaf _, _) => exact hrest h
    | (.split info cs, child) =>
      rw [computeTileResize] at h
      split at h
      · exact hrest h
      · next delta _ =>
        split at h
        · exact hrest h
        · next i hi =>
          obtain ⟨sizes, hsizes, rfl⟩ := Option.map_eq_some_iff.mp h
          have hlt : i < cs.length := (findIdx?_eq_some_iff_findIdx_eq.mp hi).1
          exact ⟨info, cs, child, mem_cons_self .., rfl, i, hlt, delta, hsizes⟩

theorem split_unique (hwf : WellFormedTile t)
    {e e' : SplitInfo × ℕ} (he : e ∈ t.splits) (he' : e' ∈ t.splits) (h : e.1.id = e'.1.id) :
    e = e' := by
  have hnodup : (t.splits.map (·.1.id)).Nodup := (nodup_append.mp hwf.nodeIds_nodup).1
  exact inj_on_of_nodup_map hnodup he he' h

theorem resizeWorkspaceTiles_rearranges {tab : WindowTab} {root : WorkspaceTileNode} {g : IdGen}
    (hroot : tab.workspaceLayout = some root) (hwf : WellFormedTile root)
    (hfresh : g.Fresh (nodeIds root)) (targetId : String) (dir : ResizeDirection) :
    ∃ root', resizeWorkspaceTiles tab targetId dir =
        { tab with workspaceLayout := some root' } ∧ Rearranges g root root' := by
  have hsame : tab = { tab with workspaceLayout := some root } := by rw [← hroot]
  unfold resizeWorkspaceTiles
  rw [hroot]
  simp only
  split
  · exact ⟨root, hsame, .refl hwf hfresh⟩
  · next path hpath =>
    split
    · exact ⟨root, hsame, .refl hwf hfresh⟩
    · next splitNodeId newSizes hresize =>
      obtain ⟨info, cs, child, hmem, hid, i, hi, delta, hsizes⟩ := computeTileResize_some hresize
      have hpathMem : LeafTree.split info cs ∈ path := (of_mem_zip (mem_reverse.mp hmem)).1
      have hinfo : (info, cs.length) ∈ root.splits :=
        buildTilePath_splits path hpath _ hpathMem (by simp)
      refine ⟨_, rfl, .of_perm hwf hfresh ?_ ?_ (applySplitSizes_splits hwf.splits_ok ?_)⟩
      · rw [applySplitSizes_leaves]
      · simp only [nodeIds, applySplitSizes_leaves, applySplitSizes_splitIds]
        exact List.Perm.refl _
      · -- only the split found on the path has this id
        intro e he heq
        rw [split_unique hwf he hinfo (heq.trans hid)]
        exact applyResizeDelta_splitOk (hwf.splits_ok _ hinfo) hi hsizes

end Resize

/-! ## Reordering -/

theorem reorderStep_perm {state : List WorkspaceTileLeaf × OrderedMap String WorkspaceTileLeaf}
    (hnodup : (state.2.map Prod.fst).Nodup) (w : String) :
    ((reorderStep state w).1 ++ (reorderStep state w).2.values).Perm (state.1 ++ state.2.values) ∧
      ((reorderStep state w).2.map Prod.fst).Nodup := by
  unfold reorderStep
  split
  · next leaf hget =>
    refine ⟨?_, OrderedMap.nodup_keys_delete w hnodup⟩
    have hperm := ((OrderedMap.perm_cons_delete hnodup hget).map Prod.snd).symm
    simpa [OrderedMap.values] using hperm.append_left state.1
  · exact ⟨List.Perm.refl _, hnodup⟩

theorem foldl_reorderStep_perm (order : List String)
    (state : List WorkspaceTileLeaf × OrderedMap String WorkspaceTileLeaf)
    (hnodup : (state.2.map Prod.fst).Nodup) :
    ((order.foldl reorderStep state).1 ++ (order.foldl reorderStep state).2.values).Perm
      (state.1 ++ state.2.values) := by
  induction order generalizing state with
  | nil => exact List.Perm.refl _
  | cons w order ih =>
    obtain ⟨hperm, hnodup'⟩ := reorderStep_perm hnodup w
    exact (ih _ hnodup').trans hperm

theorem orderedLeaves_perm {leaves : List WorkspaceTileLeaf}
    (hnodup : (leaves.map (·.workspaceId)).Nodup) (order : List String) :
    (orderedLeaves leaves order).Perm leaves := by
  have hkeys : ((leaves.map fun leaf => (leaf.workspaceId, leaf)).map Prod.fst).Nodup := by
    simpa [Function.comp_def] using hnodup
  unfold orderedLeaves
  rw [OrderedMap.ofEntries_eq_self hkeys]
  refine (foldl_reorderStep_perm order _ hkeys).trans ?_
  simp [OrderedMap.values, Function.comp_def]

theorem flatMap_leaf_leaves (xs : List WorkspaceTileLeaf) :
    (xs.map (LeafTree.leaf (β := SplitInfo))).flatMap LeafTree.leaves = xs := by
  simp [flatMap_map]

theorem flatMap_leaf_splits (xs : List WorkspaceTileLeaf) :
    (xs.map (LeafTree.leaf (β := SplitInfo))).flatMap LeafTree.splits = [] := by
  simp [flatMap_map]

theorem wellFormed_flat {info : SplitInfo} {xs : List WorkspaceTileLeaf}
    (hids : (xs.map (·.id)).Nodup) (hid : info.id ∉ xs.map (·.id))
    (hworkspaces : (xs.map (·.workspaceId)).Nodup) (hok : SplitOk info xs.length) :
    WellFormedTile (.split info (xs.map .leaf)) where
  nodeIds_nodup := by
    simp only [nodeIds, splits_split, leaves_split, flatMap_leaf_leaves,
      flatMap_leaf_splits, map_cons, map_nil]
    exact nodup_cons.mpr ⟨hid, hids⟩
  workspaceIds_nodup := by
    simpa only [workspaceIds, leaves_split, flatMap_leaf_leaves] using hworkspaces
  splits_ok := by
    rw [allSplits_split, length_map]
    exact ⟨hok, by simp⟩

theorem reorderWorkspaceTiles_rearranges {tab : WindowTab} {root : WorkspaceTileNode}
    (hroot : tab.workspaceLayout = some root) (hwf : WellFormedTile root)
    (hfresh : g.Fresh (nodeIds root)) (order : List String) :
    ∃ root', (reorderWorkspaceTiles tab order g).1 = { tab with workspaceLayout := some root' } ∧
      Rearranges (reorderWorkspaceTiles tab order g).2 root root' := by
  have hsame : tab = { tab with workspaceLayout := some root } := by rw [← hroot]
  have hperm := orderedLeaves_perm hwf.workspaceIds_nodup order
  unfold reorderWorkspaceTiles
  rw [hroot]
  simp only
  split
  · exact ⟨root, hsame, .refl hwf hfresh⟩
  · next hmany =>
    simp only [getWorkspaceTileLeaves] at hmany
    split
    · exact ⟨root, hsame, .refl hwf hfresh⟩
    · split
      · next only hone =>
        rw [hone] at hperm
        have := hperm.length_eq
        rw [length_singleton] at this
        omega
      · generalize orderedLeaves root.leaves order = ordered at hperm
        have hlen : 2 ≤ ordered.length := by
          rw [hperm.length_eq]
          omega
        have hdraws := IdGen.Draws.generateId g "ws-split"
        have hleafIds : (ordered.map (·.id)).Perm (root.leaves.map (·.id)) := hperm.map _
        have hsub : root.leaves.map (·.id) ⊆ nodeIds root := subset_append_right _ _
        have hleafNodup : (ordered.map (·.id)).Nodup :=
          hleafIds.nodup_iff.mpr (nodup_append.mp hwf.nodeIds_nodup).2.1
        have hfreshLeaves : g.Fresh (ordered.map (·.id)) :=
          hfresh.mono (List.Subset.trans hleafIds.subset hsub)
        refine ⟨_, rfl, ⟨?_, wellFormed_flat hleafNodup ?_ ?_ ?_, ?_⟩⟩
        · rw [leaves_split, flatMap_leaf_leaves]
          exact hperm
        · exact (nodup_cons.mp (hdraws.nodup_append hfreshLeaves hleafNodup)).1
        · exact (hperm.map _).nodup_iff.mpr hwf.workspaceIds_nodup
        · exact splitOk_equalSizes hlen _ _
        · refine (hdraws.fresh hfreshLeaves).mono ?_
          simp only [nodeIds, splits_split, leaves_split, flatMap_leaf_leaves,
            flatMap_leaf_splits, map_cons, map_nil]
          exact List.Subset.refl _

end Laborer.Panels
