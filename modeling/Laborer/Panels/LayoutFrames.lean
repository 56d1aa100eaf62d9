import Laborer.Panels.WorkspaceUniqueness

/-!
# The frames of an edited layout

Where the workspace frames of a layout come from after each kind of edit: an
edit of window tabs keeps or drops them, an edit of one workspace rewrites its
frames, and moving a workspace drops frames and puts empty ones in.
-/

namespace Laborer.Panels

open Laborer.Library List LeafTree

theorem mem_getAllWorkspaceTileLeaves {layout : WindowLayout} {tile : WorkspaceTileLeaf} :
    tile ∈ getAllWorkspaceTileLeaves layout ↔ ∃ tab ∈ layout.tabs, tile ∈ tabLeaves tab :=
  mem_flatMap

/-! ## Window tabs -/

theorem removeWindowTab_tabs (layout : WindowLayout) (tabId : String) :
    (removeWindowTab layout tabId).tabs = layout.tabs.filter (·.id ≠ tabId) := by
  unfold removeWindowTab
  split
  · next hnone =>
    symm
    rw [filter_eq_self]
    intro tab htab
    have hne := findIdx?_eq_none_iff.mp hnone tab htab
    simpa using hne
  · next index hindex =>
    dsimp only
    split
    · next hempty => exact (eq_nil_of_length_eq_zero hempty).symm
    · split <;> rfl

theorem switchWindowTab_tabs (layout : WindowLayout) (tabId : String) :
    (switchWindowTab layout tabId).tabs = layout.tabs := by
  unfold switchWindowTab
  split <;> rfl

theorem switchWindowTabByIndex_tabs (layout : WindowLayout) (index : ℤ) :
    (switchWindowTabByIndex layout index).tabs = layout.tabs := by
  unfold switchWindowTabByIndex
  dsimp only
  split
  · rfl
  · split
    · rfl
    · split <;> rfl

theorem switchWindowTabRelative_tabs (layout : WindowLayout) (delta : ℤ) :
    (switchWindowTabRelative layout delta).tabs = layout.tabs := by
  unfold switchWindowTabRelative
  split
  · rfl
  · split <;> rfl

theorem eraseIdx_insertIdx_perm {α : Type} {xs : List α} {i j : ℕ} {moved : α}
    (hmoved : xs[i]? = some moved) (hj : j < xs.length) :
    ((xs.eraseIdx i).insertIdx j moved).Perm xs := by
  obtain ⟨hi, rfl⟩ := List.getElem?_eq_some_iff.mp hmoved
  refine (perm_insertIdx _ _ ?_).trans (getElem_cons_eraseIdx_perm hi)
  rw [length_eraseIdx_of_lt hi]
  omega

theorem reorderWindowTabs_tabs (layout : WindowLayout) (fromIndex toIndex : ℤ) :
    (reorderWindowTabs layout fromIndex toIndex).tabs.Perm layout.tabs := by
  unfold reorderWindowTabs
  dsimp only
  split
  · exact List.Perm.refl _
  · next hrange =>
    split
    · exact List.Perm.refl _
    · next moved hmoved => exact eraseIdx_insertIdx_perm hmoved (by omega)

theorem frames_renameWindowTab (layout : WindowLayout) (tabId label : String) :
    getAllWorkspaceTileLeaves (renameWindowTab layout tabId label) =
      getAllWorkspaceTileLeaves layout := by
  simp only [getAllWorkspaceTileLeaves_eq, renameWindowTab, flatMap_map]
  refine flatMap_congr fun tab _ => ?_
  split <;> rfl

/-! ## The frames of one workspace -/

theorem tabLeaves_map (tab : WindowTab) (f : WorkspaceTileLeaf → WorkspaceTileLeaf) :
    tabLeaves { tab with workspaceLayout := tab.workspaceLayout.map (·.mapLeaves f) } =
      (tabLeaves tab).map f := by
  simp only [tabLeaves]
  cases tab.workspaceLayout <;> simp

theorem frames_updateWorkspaceTileLeaf (layout : WindowLayout) (w : String)
    (transform : WorkspaceTileLeaf → WorkspaceTileLeaf) :
    getAllWorkspaceTileLeaves (updateWorkspaceTileLeaf layout w transform) =
      (getAllWorkspaceTileLeaves layout).map fun tile =>
        if tile.workspaceId = w then transform tile else tile := by
  simp only [getAllWorkspaceTileLeaves_eq, updateWorkspaceTileLeaf, flatMap_map, map_flatMap]
  exact flatMap_congr fun tab _ => tabLeaves_map tab _

theorem frames_saveFocusedPaneId (layout : WindowLayout) (paneId : String) :
    getAllWorkspaceTileLeaves (saveFocusedPaneId layout paneId) =
      (getAllWorkspaceTileLeaves layout).map (saveFocusInWorkspaceTile paneId) := by
  simp only [getAllWorkspaceTileLeaves_eq, saveFocusedPaneId, flatMap_map, map_flatMap]
  refine flatMap_congr fun tab _ => ?_
  simp only [tabLeaves]
  cases htab : tab.workspaceLayout <;> simp [htab]

/-- Every frame after an edit that threads a state is a frame before, or the
edited one of the workspace at some state that the edit keeps. -/
theorem frames_updateWorkspaceTileLeafState {σ : Type} {S : σ → Prop} (layout : WindowLayout)
    {w : String} {transform : WorkspaceTileLeaf → σ → WorkspaceTileLeaf × σ}
    (hS : ∀ tile s, S s → S (transform tile s).2) {s : σ} (hs : S s) :
    S (updateWorkspaceTileLeafState layout w transform s).2 ∧
      ∀ tile' ∈ getAllWorkspaceTileLeaves (updateWorkspaceTileLeafState layout w transform s).1,
        ∃ tile ∈ getAllWorkspaceTileLeaves layout, tile' = tile ∨
          tile.workspaceId = w ∧ ∃ s', S s' ∧ tile' = (transform tile s').1 := by
  unfold updateWorkspaceTileLeafState
  simp only [getAllWorkspaceTileLeaves_eq]
  generalize layout.tabs = tabs
  induction tabs generalizing s with
  | nil => exact ⟨hs, fun _ h => nomatch h⟩
  | cons tab tabs ih =>
    have hedit : ∀ tile s, S s →
        S (if tile.workspaceId = w then transform tile s else (tile, s)).2 := by
      intro tile s hs
      split
      · exact hS tile s hs
      · exact hs
    cases hroot : tab.workspaceLayout with
    | none =>
      obtain ⟨hlast, hframes⟩ := ih hs
      simp only [mapState, hroot, flatMap_cons]
      refine ⟨hlast, fun tile' htile' => ?_⟩
      rcases mem_append.mp htile' with htile' | htile'
      · exact ⟨tile', mem_append_left _ htile', .inl rfl⟩
      · obtain ⟨tile, htile, hfrom⟩ := hframes tile' htile'
        exact ⟨tile, mem_append_right _ htile, hfrom⟩
    | some root =>
      obtain ⟨hnext, hleaves⟩ := leaves_mapLeavesState hedit root hs
      obtain ⟨hlast, hframes⟩ := ih hnext
      simp only [mapState, hroot, flatMap_cons]
      refine ⟨hlast, fun tile' htile' => ?_⟩
      rcases mem_append.mp htile' with htile' | htile'
      · obtain ⟨tile, htile, s', hs', rfl⟩ := hleaves tile' htile'
        refine ⟨tile, mem_append_left _ (by simpa [tabLeaves, hroot] using htile), ?_⟩
        split
        · next hw => exact .inr ⟨hw, s', hs', rfl⟩
        · exact .inl rfl
      · obtain ⟨tile, htile, hfrom⟩ := hframes tile' htile'
        exact ⟨tile, mem_append_right _ htile, hfrom⟩

/-! ## Moving workspaces -/

section Move

variable {w : String}

theorem appendToColumn_leaves (column : WorkspaceTileNode) (tile : WorkspaceTileLeaf) (g : IdGen) :
    (appendToColumn column tile g).1.leaves = column.leaves ++ [tile] := by
  unfold appendToColumn
  dsimp only
  cases column with
  | leaf tile' => rfl
  | split info cs =>
    dsimp only
    split
    · simp
    · simp

theorem appendTile_leaves_subset (root : WorkspaceTileNode) (tile : WorkspaceTileLeaf)
    (g : IdGen) : (appendTile root tile g).1.leaves ⊆ tile :: root.leaves := by
  have hcolumn : ∀ column : WorkspaceTileNode,
      (appendToColumn column tile g).1.leaves ⊆ tile :: column.leaves := by
    intro column
    rw [appendToColumn_leaves]
    exact (perm_append_singleton tile column.leaves).subset
  unfold appendTile
  cases root with
  | leaf tile' => exact hcolumn _
  | split info cs =>
    dsimp only
    split
    · exact hcolumn _
    · split
      · exact subset_cons_self _ _
      · next column hget =>
        intro tile' htile'
        rw [leaves_split] at htile' ⊢
        obtain ⟨c, hc, htile'⟩ := mem_flatMap.mp htile'
        rcases mem_or_eq_of_mem_set hc with hc | rfl
        · exact mem_cons_of_mem _ (mem_flatMap.mpr ⟨c, hc, htile'⟩)
        · rcases mem_cons.mp (hcolumn column htile') with rfl | htile'
          · exact mem_cons_self ..
          · exact mem_cons_of_mem _ (mem_flatMap.mpr ⟨column, mem_of_getElem? hget, htile'⟩)

theorem splitTileRecursive_list_leaves {target : String} {dir : SplitDirection}
    {cs : List WorkspaceTileNode}
    (ih : ∀ c ∈ cs, ∀ g, ∀ tile ∈ (splitTileRecursive target w dir c g).1.leaves,
      tile ∈ c.leaves ∨ ∃ id, tile = emptyTile id w) (g : IdGen) :
    ∀ tile ∈ (splitTileRecursive.list target w dir cs g).1.flatMap LeafTree.leaves,
      tile ∈ cs.flatMap LeafTree.leaves ∨ ∃ id, tile = emptyTile id w := by
  induction cs generalizing g with
  | nil => exact fun _ h => nomatch h
  | cons c cs ihcs =>
    rw [forall_mem_cons] at ih
    intro tile htile
    rw [splitTileRecursive.list, flatMap_cons, mem_append] at htile
    rw [flatMap_cons, mem_append]
    rcases htile with htile | htile
    · exact (ih.1 g tile htile).imp_left .inl
    · exact (ihcs ih.2 _ tile htile).imp_left .inr

theorem splitTileRecursive_leaves_subset (target : String) (dir : SplitDirection)
    (t : WorkspaceTileNode) (g : IdGen) : ∀ tile ∈ (splitTileRecursive target w dir t g).1.leaves,
      tile ∈ t.leaves ∨ ∃ id, tile = emptyTile id w := by
  induction t using childInduction generalizing g with
  | leaf tile =>
    intro tile' htile'
    unfold splitTileRecursive at htile'
    split at htile'
    · rw [leaves_split] at htile'
      simp only [flatMap_cons, leaves_leaf, flatMap_nil, append_nil,
        mem_append, mem_singleton] at htile' ⊢
      exact htile'.imp_right fun h => ⟨(g.generateId "ws-tile").1, h⟩
    · exact .inl htile'
  | split info cs ih =>
    intro tile htile
    unfold splitTileRecursive at htile
    dsimp only at htile
    split at htile
    · next i hi =>
      rw [leaves_split, flatMap_append, flatMap_cons, mem_append, mem_append] at htile
      rw [leaves_split]
      rcases htile with htile | htile | htile
      · obtain ⟨c, hc, htile⟩ := mem_flatMap.mp htile
        exact .inl (mem_flatMap.mpr ⟨c, mem_of_mem_take hc, htile⟩)
      · exact .inr ⟨(g.generateId "ws-tile").1, mem_singleton.mp htile⟩
      · obtain ⟨c, hc, htile⟩ := mem_flatMap.mp htile
        exact .inl (mem_flatMap.mpr ⟨c, mem_of_mem_drop hc, htile⟩)
    · rw [leaves_split] at htile ⊢
      exact splitTileRecursive_list_leaves ih g tile htile

theorem addWorkspaceToTab_frames (tab : WindowTab) (below : Option String) (g : IdGen) :
    ∀ tile ∈ tabLeaves (addWorkspaceToTab tab w below g).1,
      tile ∈ tabLeaves tab ∨ ∃ id, tile = emptyTile id w := by
  cases hroot : tab.workspaceLayout with
  | none =>
    intro tile htile
    simp only [addWorkspaceToTab, hroot, tabLeaves, optionLeaves_some, leaves_leaf,
      mem_singleton] at htile
    exact .inr ⟨(g.generateId "ws-tile").1, htile⟩
  | some root =>
    have hbefore : tabLeaves tab = root.leaves := by simp [tabLeaves, hroot]
    have happend : ∀ g', ∀ tile ∈ (appendTile root (createWorkspaceTileLeaf g w).1 g').1.leaves,
        tile ∈ root.leaves ∨ ∃ id, tile = emptyTile id w := by
      intro g' tile htile
      rcases mem_cons.mp (appendTile_leaves_subset root _ g' htile) with htile | htile
      · exact .inr ⟨(g.generateId "ws-tile").1, htile⟩
      · exact .inl htile
    rw [hbefore]
    unfold addWorkspaceToTab
    rw [hroot]
    cases below with
    | none => exact happend _
    | some target =>
      dsimp only
      split
      · exact splitTileRecursive_leaves_subset target .vertical root _
      · exact happend _

theorem mapState_frames {f : WindowTab → IdGen → WindowTab × IdGen}
    (hf : ∀ tab g, ∀ tile ∈ tabLeaves (f tab g).1,
      tile ∈ tabLeaves tab ∨ ∃ id, tile = emptyTile id w) (tabs : List WindowTab) (g : IdGen) :
    ∀ tile ∈ (mapState f tabs g).1.flatMap tabLeaves,
      tile ∈ tabs.flatMap tabLeaves ∨ ∃ id, tile = emptyTile id w := by
  induction tabs generalizing g with
  | nil => exact fun _ h => nomatch h
  | cons tab tabs ih =>
    intro tile htile
    rw [mapState, flatMap_cons, mem_append] at htile
    rw [flatMap_cons, mem_append]
    rcases htile with htile | htile
    · exact (hf tab g tile htile).imp_left .inl
    · exact (ih _ tile htile).imp_left .inr

theorem removeWorkspaceFromLayout_frames (layout : WindowLayout) :
    getAllWorkspaceTileLeaves (removeWorkspaceFromLayout layout w removeWorkspaceFromTab) ⊆
      getAllWorkspaceTileLeaves layout := by
  unfold removeWorkspaceFromLayout
  split
  · exact List.Subset.refl _
  · simp only [getAllWorkspaceTileLeaves_eq, flatMap_map]
    intro tile htile
    obtain ⟨tab, htab, htile⟩ := mem_flatMap.mp htile
    refine mem_flatMap.mpr ⟨tab, htab, ?_⟩
    split at htile
    · rw [tabLeaves_removeWorkspaceFromTab] at htile
      exact mem_of_mem_filter htile
    · exact htile

theorem moveTo_frames (layout : WindowLayout) (targetTabId : String) (below : Option String)
    (g : IdGen) : ∀ tile ∈ getAllWorkspaceTileLeaves (moveTo layout w targetTabId below g).1,
      tile ∈ getAllWorkspaceTileLeaves layout ∨ ∃ id, tile = emptyTile id w := by
  unfold moveTo moveWorkspace
  dsimp only
  split
  · exact fun _ htile => .inl htile
  · intro tile htile
    have hadded := mapState_frames (w := w) (f := fun tab g =>
      if tab.id = targetTabId then addWorkspaceToTab tab w below g else (tab, g)) ?_ _ g tile htile
    · refine hadded.imp_left fun hmem => ?_
      split at hmem
      · exact removeWorkspaceFromLayout_frames layout hmem
      · exact hmem
    · intro tab g
      split
      · exact addWorkspaceToTab_frames tab below g
      · exact fun _ htile => .inl htile

theorem replaceTab_frames {layout : WindowLayout} {active updated : WindowTab}
    (hactive : active ∈ layout.tabs) (hsub : tabLeaves updated ⊆ tabLeaves active) :
    getAllWorkspaceTileLeaves (replaceTab layout active.id updated) ⊆
      getAllWorkspaceTileLeaves layout := by
  intro tile hmem
  obtain ⟨tab', htab', htile⟩ := mem_getAllWorkspaceTileLeaves.mp hmem
  obtain ⟨tab, htab, rfl⟩ := mem_map.mp htab'
  split at htile
  · exact mem_getAllWorkspaceTileLeaves.mpr ⟨active, hactive, hsub htile⟩
  · exact mem_getAllWorkspaceTileLeaves.mpr ⟨tab, htab, htile⟩

theorem handleMoveWorkspaceInTab_frames (layout : WindowLayout) (source target : String)
    (edge : WorkspaceDropEdge) (g : IdGen) :
    getAllWorkspaceTileLeaves (handleMoveWorkspaceInTab layout source target edge g).1 ⊆
      getAllWorkspaceTileLeaves layout := by
  unfold handleMoveWorkspaceInTab
  split
  · exact List.Subset.refl _
  · next active hactive =>
    dsimp only
    split
    · exact List.Subset.refl _
    · exact replaceTab_frames (mem_of_find?_eq_some hactive)
        (moveWorkspaceTileToEdge_subset active source target edge g)

theorem placeWorkspaceInActiveTab_frames (layout : WindowLayout) (anchor : Option String)
    (g : IdGen) :
    ∀ tile ∈ getAllWorkspaceTileLeaves (placeWorkspaceInActiveTab layout w anchor g).1,
      tile ∈ getAllWorkspaceTileLeaves layout ∨ ∃ id, tile = emptyTile id w := by
  have hself : ∀ tile ∈ getAllWorkspaceTileLeaves layout,
      tile ∈ getAllWorkspaceTileLeaves layout ∨ ∃ id, tile = emptyTile id w :=
    fun _ htile => .inl htile
  unfold placeWorkspaceInActiveTab
  cases hactive : getActiveWindowTab layout with
  | none => exact hself
  | some active =>
    dsimp only
    split
    · exact moveTo_frames layout active.id anchor g
    · cases anchor with
      | none => exact hself
      | some below =>
        unfold placeWorkspaceBelowAnchorInActiveTab
        rw [hactive]
        dsimp only
        split
        · exact hself
        · exact fun tile htile => .inl (replaceTab_frames (mem_of_find?_eq_some hactive)
            (moveWorkspaceTileBelow_subset active w below g) htile)

end Move

end Laborer.Panels
