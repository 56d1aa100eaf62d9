import Laborer.Library.Descent
import Laborer.Panels.FocusRuns

/-!
# The progressive close command

One press of the close command closes the innermost thing there is to close:
the focused pane, its panel tab, its workspace or its window tab, until only the
application is left.

A layout is measured by the numbers of panes of its panel tabs, with a zero for
each frame and window tab, in the multiset order: a press takes entries out, or
puts a smaller tree into the panel tabs that show the closed pane.
-/

namespace Laborer.Panels

open Laborer.Library List Option Function

/-! ## Pressing the close command -/

/-- The pane and the workspace that the command is about, from the layout
itself, and what `computeProgressiveCloseAction` returns for them. -/
def closeAction (layout : WindowLayout) : ProgressiveCloseAction :=
  let activePaneId := (getActiveWindowTab layout).bind resolveActivePaneForWindowTab
  let activeWorkspaceId :=
    (truthy activePaneId).bind fun paneId => (findPaneInActiveTab layout paneId).map (·.2)
  computeProgressiveCloseAction (some layout) activePaneId activeWorkspaceId

/-- Dispatch the action to its handler. Closing the application is a dialog that
leaves the layout as it is. -/
def executeProgressiveClose (layout : WindowLayout) : WindowLayout :=
  match closeAction layout with
  | .closePane paneId => handleClosePane layout paneId
  | .closePanelTab tabId workspaceId => handleRemovePanelTab layout workspaceId tabId
  | .closeWorkspace workspaceId => handleCloseWorkspace layout workspaceId
  | .closeWindowTab _ => handleCloseWindowTab layout none
  | .closeApp => layout

/-- One press: what the handler returns is stored, and decoded for the next press. -/
def pressClose (layout : WindowLayout) : WindowLayout :=
  ((decodeWindowLayout (encodeWindowLayout (executeProgressiveClose layout))).windowLayout).getD
    layout

/-! ## The weight of a layout -/

def panelSlots (layout : WindowLayout) : List (String × PanelTab) :=
  (getAllWorkspaceTileLeaves layout).flatMap fun tile =>
    tile.panelTabs.map fun tab => (tile.workspaceId, tab)

def paneCounts (layout : WindowLayout) : List ℕ :=
  (panelSlots layout).map fun slot => countLeaves slot.2.panelLayout

def containerCount (layout : WindowLayout) : ℕ :=
  layout.tabs.length + (getAllWorkspaceTileLeaves layout).length

/-- The numbers of panes of the panel tabs, and a zero for each window tab and
each frame. -/
def layoutWeight (layout : WindowLayout) : Multiset ℕ :=
  Multiset.replicate (containerCount layout) 0 + (paneCounts layout : Multiset ℕ)

/-- The layout got strictly smaller, in the multiset order on weights. -/
def Reduces (before after : WindowLayout) : Prop :=
  (layoutWeight after).IsDershowitzMannaLT (layoutWeight before)

theorem not_reduces_self (layout : WindowLayout) : ¬ Reduces layout layout :=
  not_isDershowitzMannaLT_self _

theorem paneCounts_eq (layout : WindowLayout) :
    paneCounts layout = (getAllWorkspaceTileLeaves layout).flatMap fun tile =>
      tile.panelTabs.map fun tab => countLeaves tab.panelLayout := by
  simp only [paneCounts, panelSlots, List.map_flatMap, List.map_map]
  rfl

structure Shrinks (before after : WindowLayout) : Prop where
  containers : containerCount after ≤ containerCount before
  panes : (paneCounts after).Sublist (paneCounts before)

namespace Shrinks

variable {before middle after : WindowLayout}

theorem of_frames (htabs : after.tabs.length ≤ before.tabs.length)
    (hframes : (getAllWorkspaceTileLeaves after).Sublist (getAllWorkspaceTileLeaves before)) :
    Shrinks before after := by
  refine ⟨Nat.add_le_add htabs hframes.length_le, ?_⟩
  rw [paneCounts_eq, paneCounts_eq]
  exact hframes.flatMap _

theorem weight_le (h : Shrinks before after) : layoutWeight after ≤ layoutWeight before :=
  add_le_add (Multiset.replicate_mono 0 h.containers)
    (Multiset.coe_le.mpr h.panes.subperm)

theorem reduces (h : Shrinks before after) (hlt : containerCount after < containerCount before ∨
      (paneCounts after).length < (paneCounts before).length) : Reduces before after := by
  apply isDershowitzMannaLT_of_lt
  refine lt_of_le_of_ne h.weight_le fun heq => ?_
  have hcard := congrArg Multiset.card heq
  simp only [layoutWeight, Multiset.card_add, Multiset.card_replicate, Multiset.coe_card] at hcard
  have hcontainers := h.containers
  have hpanes := h.panes.length_le
  omega

theorem reduces_trans (h : Reduces before middle) (h' : Shrinks middle after) :
    Reduces before after :=
  isDershowitzMannaLT_of_le_of h'.weight_le h

end Shrinks

/-! ## What the handlers take out -/

theorem layoutWeight_saveFocusedPaneId (layout : WindowLayout) (paneId : String) :
    layoutWeight (saveFocusedPaneId layout paneId) = layoutWeight layout := by
  have htabs : (saveFocusedPaneId layout paneId).tabs.length = layout.tabs.length := length_map _
  have hcounts : paneCounts (saveFocusedPaneId layout paneId) = paneCounts layout := by
    rw [paneCounts_eq, paneCounts_eq, frames_saveFocusedPaneId, flatMap_map]
    refine flatMap_congr fun tile _ => ?_
    rw [saveFocusInWorkspaceTile, List.map_map]
    refine map_congr_left fun tab _ => ?_
    dsimp only [comp_apply]
    split <;> rfl
  rw [layoutWeight, layoutWeight, hcounts, containerCount, containerCount, htabs,
    frames_saveFocusedPaneId, length_map]

theorem layoutWeight_focusIfAny (layout : WindowLayout) (paneId : Option String) :
    layoutWeight (focusIfAny layout paneId) = layoutWeight layout := by
  unfold focusIfAny
  split
  · rfl
  · exact layoutWeight_saveFocusedPaneId layout _

theorem handleCloseWindowTab_reduces {layout : WindowLayout} {active : WindowTab}
    (hactive : getActiveWindowTab layout = some active) (hid : active.id ≠ "") :
    Reduces layout (handleCloseWindowTab layout none) := by
  have hmem := mem_of_find?_eq_some hactive
  have hactiveId := find?_some hactive
  have hclosing : truthy ((none : Option String).or layout.activeTabId) = some active.id := by
    rw [none_or, ← of_decide_eq_true hactiveId]
    exact truthy_eq_some.mpr ⟨rfl, hid⟩
  have hany : layout.tabs.any (·.id = active.id) = true :=
    any_eq_true.mpr ⟨active, hmem, decide_eq_true rfl⟩
  have hlength : (removeWindowTab layout active.id).tabs.length < layout.tabs.length := by
    rw [removeWindowTab_tabs]
    exact length_filter_lt_length_iff_exists.mpr ⟨active, hmem, by simp⟩
  have hframes : (getAllWorkspaceTileLeaves (removeWindowTab layout active.id)).Sublist
      (getAllWorkspaceTileLeaves layout) := by
    rw [getAllWorkspaceTileLeaves_eq, getAllWorkspaceTileLeaves_eq, removeWindowTab_tabs]
    exact filter_sublist.flatMap _
  unfold handleCloseWindowTab
  rw [hclosing]
  dsimp only
  rw [if_pos hany, Reduces, commitWindowTabSwitchWithFocus, layoutWeight_focusIfAny]
  refine Shrinks.reduces (.of_frames hlength.le hframes) (.inl ?_)
  exact Nat.add_lt_add_of_lt_of_le hlength hframes.length_le

section Workspace

variable {layout : WindowLayout} {w : String}

theorem removeWorkspaceFromLayout_shrinks :
    Shrinks layout (removeWorkspaceFromLayout layout w removeWorkspaceFromTab) := by
  unfold removeWorkspaceFromLayout
  split
  · exact ⟨Nat.le_refl _, List.Sublist.refl _⟩
  · refine .of_frames (by rw [length_map]) ?_
    simp only [getAllWorkspaceTileLeaves_eq, flatMap_map]
    refine List.Sublist.flatMap_right _ fun tab _ => ?_
    split
    · rw [tabLeaves_removeWorkspaceFromTab]
      exact filter_sublist
    · exact List.Sublist.refl _

theorem handleCloseWorkspace_reduces {tile : WorkspaceTileLeaf}
    (htile : tile ∈ getAllWorkspaceTileLeaves layout) (hw : tile.workspaceId = w)
    (hid : tile.id ≠ "") : Reduces layout (handleCloseWorkspace layout w) := by
  refine removeWorkspaceFromLayout_shrinks.reduces (.inl ?_)
  cases hlocation : findWorkspaceLocation layout w with
  | none => exact absurd (findWorkspaceLocation_eq_none hlocation tile htile hw) hid
  | some location =>
    obtain ⟨tab, htab, htabId, found, hfound, hfoundW, -⟩ := findWorkspaceLocation_eq_some hlocation
    rw [removeWorkspaceFromLayout, hlocation]
    simp only [containerCount, getAllWorkspaceTileLeaves_eq, flatMap_map, length_map,
      length_flatMap]
    apply Nat.add_lt_add_left
    refine sum_lt_sum _ _ (fun tab' _ => ?_) ⟨tab, htab, ?_⟩
    · split
      · rw [tabLeaves_removeWorkspaceFromTab]
        exact length_filter_le _ _
      · exact Nat.le_refl _
    · rw [if_pos htabId, tabLeaves_removeWorkspaceFromTab]
      exact length_filter_lt_length_iff_exists.mpr ⟨found, hfound, by simp [hfoundW]⟩

theorem handleCloseWorkspace_noop (h : ∀ tile ∈ getAllWorkspaceTileLeaves layout,
    tile.workspaceId = w → tile.id = "") : handleCloseWorkspace layout w = layout := by
  have hlocation : findWorkspaceLocation layout w = none := by
    by_contra hsome
    obtain ⟨location, hlocation⟩ := ne_none_iff_exists'.mp hsome
    obtain ⟨tab, htab, -, found, hfound, hw, hne⟩ := findWorkspaceLocation_eq_some hlocation
    exact hne (h found (mem_getAllWorkspaceTileLeaves.mpr ⟨tab, htab, hfound⟩) hw)
  rw [handleCloseWorkspace, removeWorkspaceFromLayout, hlocation]

theorem removePanelTab_panelTabs (tabId : String) (tile : WorkspaceTileLeaf) :
    (removePanelTab tabId tile).panelTabs = tile.panelTabs.filter (·.id ≠ tabId) := by
  unfold removePanelTab
  split
  · next hnone =>
    symm
    rw [filter_eq_self]
    intro tab htab
    have hne := findIdx?_eq_none_iff.mp hnone tab htab
    simpa using hne
  · dsimp only
    split
    · next hempty => exact (eq_nil_of_length_eq_zero hempty).symm
    · split <;> rfl

theorem removePanelTab_reduces {tile : WorkspaceTileLeaf} {tab : PanelTab}
    (htile : tile ∈ getAllWorkspaceTileLeaves layout) (hw : tile.workspaceId = w)
    (htab : tab ∈ tile.panelTabs) :
    Reduces layout (updateWorkspaceTileLeaf layout w (removePanelTab tab.id)) := by
  have htabs : (updateWorkspaceTileLeaf layout w (removePanelTab tab.id)).tabs.length =
      layout.tabs.length := length_map _
  have hcontainers : containerCount (updateWorkspaceTileLeaf layout w (removePanelTab tab.id)) =
      containerCount layout := by
    rw [containerCount, containerCount, htabs, frames_updateWorkspaceTileLeaf, length_map]
  have hframe : ∀ tile : WorkspaceTileLeaf,
      (if tile.workspaceId = w then removePanelTab tab.id tile else tile).panelTabs.Sublist
        tile.panelTabs := by
    intro tile
    split
    · rw [removePanelTab_panelTabs]
      exact filter_sublist
    · exact List.Sublist.refl _
  refine Shrinks.reduces ⟨hcontainers.le, ?_⟩ (.inr ?_)
  · rw [paneCounts_eq, paneCounts_eq, frames_updateWorkspaceTileLeaf, flatMap_map]
    exact List.Sublist.flatMap_right _ fun tile _ => (hframe tile).map _
  · rw [paneCounts_eq, paneCounts_eq, frames_updateWorkspaceTileLeaf, flatMap_map,
      length_flatMap, length_flatMap]
    simp only [length_map]
    refine sum_lt_sum _ _ (fun tile _ => (hframe tile).length_le) ⟨tile, htile, ?_⟩
    rw [if_pos hw, removePanelTab_panelTabs]
    exact length_filter_lt_length_iff_exists.mpr ⟨tab, htab, by simp⟩

theorem handleRemovePanelTab_reduces {tile : WorkspaceTileLeaf} {tab : PanelTab}
    (htile : tile ∈ getAllWorkspaceTileLeaves layout) (hw : tile.workspaceId = w)
    (htab : tab ∈ tile.panelTabs) : Reduces layout (handleRemovePanelTab layout w tab.id) := by
  have hremoved := removePanelTab_reduces htile hw htab
  unfold handleRemovePanelTab autoCloseEmptyWorkspace
  dsimp only
  split
  · exact hremoved
  · split
    · exact hremoved
    · exact removeWorkspaceFromLayout_shrinks.reduces_trans hremoved

end Workspace

/-! ## Closing a pane -/

section Pane

variable {layout : WindowLayout} {paneId : String}

def PaneHeld (layout : WindowLayout) (paneId : String) : Prop :=
  ∃ tile ∈ getAllWorkspaceTileLeaves layout, ∃ tab ∈ getActivePanelTab tile,
    paneId ∈ getLeafIds tab.panelLayout

theorem findPaneHolder_isSome_iff :
    (findPaneHolder layout paneId).isSome ↔ PaneHeld layout paneId := by
  constructor
  · intro h
    obtain ⟨⟨tile, tab⟩, hholder⟩ := isSome_iff_exists.mp h
    obtain ⟨htile, hactive, -, hpane⟩ := LayoutOk.findPaneHolder_eq_some hholder
    exact ⟨tile, htile, tab, hactive, hpane⟩
  · rintro ⟨tile, htile, tab, hactive, hpane⟩
    obtain ⟨pane, hmem, hid⟩ := mem_getLeafIds.mp hpane
    have hleaf : (findLeaf tab.panelLayout paneId).isSome := by
      rw [findLeaf, find?_isSome]
      exact ⟨pane, hmem, decide_eq_true hid⟩
    rw [findPaneHolder, findSome?_isSome_iff]
    refine ⟨tile, htile, ?_⟩
    rw [mem_def.mp hactive, bind_some, isSome_map]
    exact hleaf

theorem putPanelTree_reduces {tile : WorkspaceTileLeaf} {tab : PanelTab}
    (htile : tile ∈ getAllWorkspaceTileLeaves layout) (htab : tab ∈ tile.panelTabs)
    {newTree : PanelNode} (hlt : countLeaves newTree < countLeaves tab.panelLayout)
    (focus : Option String) : Reduces layout (updateWorkspaceTileLeaf layout tile.workspaceId
      (putPanelTree tab.id newTree focus)) := by
  have hslots : paneCounts (updateWorkspaceTileLeaf layout tile.workspaceId
      (putPanelTree tab.id newTree focus)) = (panelSlots layout).map fun slot =>
        if slot.1 = tile.workspaceId ∧ slot.2.id = tab.id then countLeaves newTree
        else countLeaves slot.2.panelLayout := by
    rw [paneCounts_eq, frames_updateWorkspaceTileLeaf, flatMap_map, panelSlots, map_flatMap]
    refine flatMap_congr fun other _ => ?_
    rw [List.map_map]
    by_cases hw : other.workspaceId = tile.workspaceId
    · rw [if_pos hw, putPanelTree, List.map_map]
      refine map_congr_left fun twin _ => ?_
      dsimp only [comp_apply]
      by_cases hid : twin.id = tab.id
      · rw [if_pos hid, if_pos ⟨hw, hid⟩]
      · rw [if_neg hid, if_neg fun h => hid h.2]
    · rw [if_neg hw]
      refine map_congr_left fun twin _ => ?_
      rw [comp_apply, if_neg fun h => hw h.1]
  have htabs : (updateWorkspaceTileLeaf layout tile.workspaceId
      (putPanelTree tab.id newTree focus)).tabs.length = layout.tabs.length := length_map _
  rw [Reduces, layoutWeight, layoutWeight, hslots, containerCount, containerCount, htabs,
    frames_updateWorkspaceTileLeaf, length_map]
  apply isDershowitzMannaLT_add_left
  apply isDershowitzMannaLT_map (x := (tile.workspaceId, tab)) (a := countLeaves newTree)
  · exact mem_flatMap.mpr ⟨tile, htile, mem_map_of_mem htab⟩
  · exact if_pos ⟨rfl, rfl⟩
  · exact hlt
  · intro slot _
    split
    · exact .inr rfl
    · exact .inl rfl

theorem closePaneInLayout_reduces {tile : WorkspaceTileLeaf} {tab : PanelTab}
    (hholder : findPaneHolder layout paneId = some (tile, tab)) :
    (closePaneInLayout layout paneId).paneFound = true ∧
      Reduces layout (closePaneInLayout layout paneId).resultLayout := by
  obtain ⟨htile, -, htab, hpane⟩ := LayoutOk.findPaneHolder_eq_some hholder
  have hlt := closeLeaves_length_lt hpane
  rw [closeLeaves] at hlt
  unfold closePaneInLayout
  rw [hholder]
  dsimp only
  cases hclose : closePane paneId tab.panelLayout with
  | some newTree =>
    rw [hclose, elim_some] at hlt
    exact ⟨rfl, putPanelTree_reduces htile htab hlt _⟩
  | none => exact ⟨rfl, removePanelTab_reduces htile rfl htab⟩

theorem Reduces.to_empty {before after : WindowLayout} (h : Reduces before after) :
    Reduces before { tabs := [], activeTabId := none } := by
  refine isDershowitzMannaLT_of_le_of ?_ h
  exact Multiset.zero_le _

/-- **Closing a pane reduces the layout if a frame shows it, and does nothing otherwise.** -/
theorem handleClosePane_reduces (hpane : PaneHeld layout paneId) :
    Reduces layout (handleClosePane layout paneId) := by
  obtain ⟨⟨tile, tab⟩, hholder⟩ := isSome_iff_exists.mp (findPaneHolder_isSome_iff.mpr hpane)
  obtain ⟨hfound, hreduces⟩ := closePaneInLayout_reduces hholder
  unfold handleClosePane
  dsimp only
  rw [hfound, Bool.not_true, if_neg Bool.false_ne_true]
  split
  · exact hreduces
  · exact hreduces.to_empty

theorem handleClosePane_noop (hpane : ¬ PaneHeld layout paneId) :
    handleClosePane layout paneId = layout := by
  have hholder : findPaneHolder layout paneId = none := by
    rw [← not_isSome_iff_eq_none, findPaneHolder_isSome_iff]
    exact hpane
  rw [handleClosePane, closePaneInLayout, hholder]
  rfl

end Pane

/-! ## Decoded layouts -/

/-- What decoding settles: window tabs have ids, and a frame with panel tabs has
an active one. -/
structure DecodedShape (layout : WindowLayout) : Prop where
  named : ∀ tab ∈ layout.tabs, tab.id ≠ ""
  active : ∀ tile ∈ getAllWorkspaceTileLeaves layout, tile.panelTabs ≠ [] →
    (getActivePanelTab tile).isSome

theorem frames_repairTransforms (layout : WindowLayout) :
    getAllWorkspaceTileLeaves (repairTransforms layout) =
      ((layout.tabs.filter (·.id ≠ "")).flatMap tabLeaves).map repairTileLeafTransform := by
  rw [getAllWorkspaceTileLeaves_eq, repairTransforms, flatMap_map, map_flatMap]
  refine flatMap_congr fun tab _ => ?_
  cases hroot : tab.workspaceLayout with
  | none => simp [tabLeaves, repairWindowTabTransform, hroot]
  | some root =>
    simp [tabLeaves, repairWindowTabTransform, hroot, repairWorkspaceTileTransform,
      leaves_repairNode]

theorem decodedShape_repairTransforms (layout : WindowLayout) :
    DecodedShape (repairTransforms layout) where
  named := by
    intro tab htab
    obtain ⟨tab', htab', rfl⟩ := mem_map.mp htab
    exact of_decide_eq_true (mem_filter.mp htab').2
  active := by
    intro tile htile hne
    rw [frames_repairTransforms] at htile
    obtain ⟨tile', -, rfl⟩ := mem_map.mp htile
    exact getActivePanelTab_repair_isSome hne

theorem layoutWeight_repairTransforms (layout : WindowLayout) :
    layoutWeight (repairTransforms layout) ≤ layoutWeight layout := by
  have hframes : ((layout.tabs.filter (·.id ≠ "")).flatMap tabLeaves).Sublist
      (layout.tabs.flatMap tabLeaves) := filter_sublist.flatMap _
  apply Shrinks.weight_le
  constructor
  · rw [containerCount, containerCount, frames_repairTransforms, length_map,
      getAllWorkspaceTileLeaves_eq, repairTransforms, length_map]
    exact Nat.add_le_add (length_filter_le _ _) hframes.length_le
  · have htile : ∀ tile : WorkspaceTileLeaf,
        ((repairTileLeafTransform tile).panelTabs.map fun tab => countLeaves tab.panelLayout) =
          tile.panelTabs.map fun tab => countLeaves tab.panelLayout := by
      intro tile
      rw [repairTileLeafTransform, List.map_map]
      refine map_congr_left fun tab _ => ?_
      rw [comp_apply, repairPanelTabTransform, countLeaves, repairPanelNodeTransform,
        leaves_repairNode, length_map, countLeaves]
    rw [paneCounts_eq, paneCounts_eq, frames_repairTransforms, flatMap_map,
      getAllWorkspaceTileLeaves_eq]
    simp only [htile]
    exact hframes.flatMap _

theorem pressClose_eq (layout : WindowLayout) :
    pressClose layout = repairTransforms (executeProgressiveClose layout) := by
  rw [pressClose, decodeWindowLayout, decodeLayout_encode]
  rfl

/-! ## Which action is returned -/

/-- The condition on a layout: the pane that the active window tab resolves to is
shown by a frame and, where the first frame of its workspace has no panel tab, a
frame of that workspace has an id. -/
def CloseEffective (layout : WindowLayout) : Prop :=
  ∀ tab ∈ getActiveWindowTab layout, ∀ paneId ∈ resolveActivePaneForWindowTab tab,
    PaneHeld layout paneId ∧
      ∀ found ∈ findPaneInActiveTab layout paneId, found.2 ≠ "" →
        ∀ first ∈ tab.workspaceLayout.bind (findWorkspaceTileLeaf · found.2),
          first.panelTabs = [] →
            ∃ tile ∈ getAllWorkspaceTileLeaves layout, tile.workspaceId = found.2 ∧ tile.id ≠ ""

section Actions

variable {layout : WindowLayout}

theorem DecodedShape.findPaneInActiveTab_eq_some (h : DecodedShape layout) {tab : WindowTab}
    (htab : getActiveWindowTab layout = some tab) {paneId : String} {found : LeafNode × String}
    (hfound : findPaneInActiveTab layout paneId = some found) :
    ∃ tile ∈ tabLeaves tab, tile.workspaceId = found.2 ∧ ∃ panelTab,
      getActivePanelTab tile = some panelTab ∧ paneId ∈ getLeafIds panelTab.panelLayout := by
  obtain ⟨tile, htile, hsome⟩ := exists_of_findSome?_eq_some hfound
  rw [htab, bind_some] at htile
  obtain ⟨tree, htree, hleaf⟩ := bind_eq_some_iff.mp hsome
  obtain ⟨leaf, hfind, rfl⟩ := map_eq_some_iff.mp hleaf
  have hne : tile.panelTabs ≠ [] := by
    intro hnil
    simp [visiblePanelTree, getActivePanelTab, hnil] at htree
  have hmem := mem_getAllWorkspaceTileLeaves.mpr ⟨tab, mem_of_find?_eq_some htab, htile⟩
  obtain ⟨panelTab, hactive⟩ := isSome_iff_exists.mp (h.active tile hmem hne)
  refine ⟨tile, htile, rfl, panelTab, hactive, ?_⟩
  rw [visiblePanelTree, hactive, some_or, map_some, Option.some.injEq] at htree
  rw [htree]
  exact findLeaf_mem hfind

/-- The actions that are returned for a decoded layout, each with what the
condition comes to there. -/
inductive ReturnsAction (layout : WindowLayout) : ProgressiveCloseAction → Prop where
  | closeApp (h : CloseEffective layout) : ReturnsAction layout .closeApp
  | closeWindowTab {tab : WindowTab} (htab : getActiveWindowTab layout = some tab)
      (h : CloseEffective layout) : ReturnsAction layout (.closeWindowTab tab.id)
  | closePanelTab {tile : WorkspaceTileLeaf} {tab : PanelTab}
      (htile : tile ∈ getAllWorkspaceTileLeaves layout) (htab : tab ∈ tile.panelTabs)
      (h : CloseEffective layout) : ReturnsAction layout (.closePanelTab tab.id tile.workspaceId)
  | closeWorkspace {w : String} (h : CloseEffective layout ↔
      ∃ tile ∈ getAllWorkspaceTileLeaves layout, tile.workspaceId = w ∧ tile.id ≠ "") :
      ReturnsAction layout (.closeWorkspace w)
  | closePane {paneId : String} (h : CloseEffective layout ↔ PaneHeld layout paneId) :
      ReturnsAction layout (.closePane paneId)

theorem DecodedShape.returnsAction_found (h : DecodedShape layout) {tab : WindowTab}
    (htab : getActiveWindowTab layout = some tab) {paneId : String}
    (hpane : resolveActivePaneForWindowTab tab = some paneId) (hne : paneId ≠ "")
    {pane : LeafNode} {w : String} (hfound : findPaneInActiveTab layout paneId = some (pane, w))
    (hw : w ≠ "") : ReturnsAction layout
      (computeProgressiveCloseAction (some layout) (some paneId) (some w)) := by
  obtain ⟨tile, htile, htileW, panelTab, hactive, hmem⟩ := h.findPaneInActiveTab_eq_some htab hfound
  have hframe : ∀ frame ∈ tabLeaves tab, frame ∈ getAllWorkspaceTileLeaves layout :=
    fun frame hframe => mem_getAllWorkspaceTileLeaves.mpr ⟨tab, mem_of_find?_eq_some htab, hframe⟩
  have hheld : PaneHeld layout paneId := ⟨tile, hframe tile htile, panelTab, hactive, hmem⟩
  obtain ⟨root, hroot⟩ : ∃ root, tab.workspaceLayout = some root := by
    cases hroot : tab.workspaceLayout with
    | none =>
      rw [tabLeaves, hroot] at htile
      cases htile
    | some root => exact ⟨root, rfl⟩
  have htile' : tile ∈ root.leaves := by
    rwa [tabLeaves, hroot] at htile
  obtain ⟨first, hfirst⟩ : ∃ first, findWorkspaceTileLeaf root w = some first := by
    rw [← isSome_iff_exists, findWorkspaceTileLeaf, find?_isSome]
    exact ⟨tile, htile', decide_eq_true htileW⟩
  have hfirstMem : first ∈ root.leaves := mem_of_find?_eq_some hfirst
  have hfirstW : first.workspaceId = w := by
    simpa using find?_some hfirst
  have hfirstFrame : first ∈ getAllWorkspaceTileLeaves layout := by
    apply hframe
    rw [tabLeaves, hroot]
    exact hfirstMem
  have heffective : CloseEffective layout ↔ (first.panelTabs = [] →
      ∃ tile ∈ getAllWorkspaceTileLeaves layout, tile.workspaceId = w ∧ tile.id ≠ "") := by
    simp [CloseEffective, htab, hpane, hheld, hfound, hw, hroot, hfirst]
  unfold computeProgressiveCloseAction
  rw [truthy_eq_some.mpr ⟨rfl, hne⟩, truthy_eq_some.mpr ⟨rfl, hw⟩]
  dsimp only
  rw [htab]
  dsimp only
  rw [hroot, bind_some, hfirst]
  dsimp only
  cases hfirstActive : getActivePanelTab first with
  | none =>
    have hnil : first.panelTabs = [] := by
      by_contra hne
      have hsome := h.active first hfirstFrame hne
      rw [hfirstActive] at hsome
      cases hsome
    have hlength : ¬ (getWorkspaceTileLeaves root).length ≤ 1 := by
      intro hle
      have heq : tile = first := by
        obtain ⟨only, honly⟩ := length_eq_one_iff.mp
          (Nat.le_antisymm hle (length_pos_of_mem htile'))
        rw [getWorkspaceTileLeaves] at honly
        rw [honly, mem_singleton] at htile' hfirstMem
        rw [htile', hfirstMem]
      rw [heq, hfirstActive] at hactive
      cases hactive
    dsimp only
    rw [resolveEmptyWorkspaceAction, hroot]
    dsimp only
    rw [if_neg hlength]
    exact .closeWorkspace (by rw [heffective, forall_prop_of_true hnil])
  | some firstTab =>
    have hmemTab : firstTab ∈ first.panelTabs := mem_of_find?_eq_some hfirstActive
    have hholds : CloseEffective layout :=
      heffective.mpr fun hnil => absurd hnil (ne_nil_of_mem hmemTab)
    dsimp only
    split
    · exact .closePane (iff_of_true hholds hheld)
    · rw [← hfirstW]
      exact .closePanelTab hfirstFrame hmemTab hholds

theorem DecodedShape.returnsAction (h : DecodedShape layout) :
    ReturnsAction layout (closeAction layout) := by
  unfold closeAction
  dsimp only
  cases htab : getActiveWindowTab layout with
  | none =>
    have hholds : CloseEffective layout := by simp [CloseEffective, htab]
    have haction : computeProgressiveCloseAction (some layout) none none = .closeApp := by
      simp [computeProgressiveCloseAction, truthy, resolveNullPaneCloseAction, htab]
    exact haction ▸ .closeApp hholds
  | some tab =>
    rw [bind_some]
    cases hpane : resolveActivePaneForWindowTab tab with
    | none =>
      have hholds : CloseEffective layout := by simp [CloseEffective, htab, hpane]
      have haction : computeProgressiveCloseAction (some layout) none none =
          .closeWindowTab tab.id := by
        simp [computeProgressiveCloseAction, truthy, resolveNullPaneCloseAction, htab, hpane]
      exact haction ▸ .closeWindowTab htab hholds
    | some paneId =>
      obtain ⟨tile, htile, hresolved⟩ := resolveActivePaneForWindowTab_eq_some hpane
      have hne : paneId ≠ "" := (truthy_eq_some.mp hresolved).2
      rw [truthy_eq_some.mpr ⟨rfl, hne⟩, bind_some]
      -- without a workspace the pane itself is closed: the window tab has a frame
      have hnoWorkspace : ∀ wid, truthy wid = none →
          (CloseEffective layout ↔ PaneHeld layout paneId) →
          ReturnsAction layout (computeProgressiveCloseAction (some layout) (some paneId) wid) := by
        intro wid hnone hiff
        have hframes : (tab.workspaceLayout.elim [] getWorkspaceTileLeaves).length ≠ 0 :=
          length_pos_iff.mpr (ne_nil_of_mem htile) |>.ne'
        unfold computeProgressiveCloseAction
        rw [truthy_eq_some.mpr ⟨rfl, hne⟩, hnone]
        dsimp only
        rw [htab]
        dsimp only
        rw [if_neg hframes]
        exact .closePane hiff
      cases hfound : findPaneInActiveTab layout paneId with
      | none =>
        refine hnoWorkspace none rfl ?_
        simp [CloseEffective, htab, hpane, hfound]
      | some found =>
        obtain ⟨pane, w⟩ := found
        rw [map_some]
        by_cases hw : w = ""
        · refine hnoWorkspace (some w) ?_ ?_
          · rw [hw]
            rfl
          · simp [CloseEffective, htab, hpane, hfound, hw]
        · exact h.returnsAction_found htab hpane hne hfound hw

end Actions

/-! ## What a press does -/

section Press

variable {layout : WindowLayout}

theorem DecodedShape.closes (h : DecodedShape layout) (heffective : CloseEffective layout) :
    closeAction layout = .closeApp ∨ Reduces layout (executeProgressiveClose layout) := by
  have hreturns := h.returnsAction
  unfold executeProgressiveClose
  cases haction : closeAction layout with (try rw [haction] at hreturns)
  | closeApp => exact .inl rfl
  | closeWindowTab tabId =>
    cases hreturns with
    | closeWindowTab htab =>
      exact .inr (handleCloseWindowTab_reduces htab (h.named _ (mem_of_find?_eq_some htab)))
  | closePanelTab tabId w =>
    cases hreturns with
    | closePanelTab htile htab => exact .inr (handleRemovePanelTab_reduces htile rfl htab)
  | closeWorkspace w =>
    cases hreturns with
    | closeWorkspace hiff =>
      obtain ⟨tile, htile, hw, hid⟩ := hiff.mp heffective
      exact .inr (handleCloseWorkspace_reduces htile hw hid)
  | closePane paneId =>
    cases hreturns with
    | closePane hiff => exact .inr (handleClosePane_reduces (hiff.mp heffective))

theorem DecodedShape.stuck (h : DecodedShape layout) (heffective : ¬ CloseEffective layout) :
    closeAction layout ≠ .closeApp ∧ executeProgressiveClose layout = layout := by
  have hreturns := h.returnsAction
  unfold executeProgressiveClose
  cases haction : closeAction layout with rw [haction] at hreturns
  | closeApp =>
    cases hreturns with
    | closeApp hholds => exact absurd hholds heffective
  | closeWindowTab tabId =>
    cases hreturns with
    | closeWindowTab _ hholds => exact absurd hholds heffective
  | closePanelTab tabId w =>
    cases hreturns with
    | closePanelTab _ _ hholds => exact absurd hholds heffective
  | closeWorkspace w =>
    cases hreturns with
    | closeWorkspace hiff =>
      refine ⟨nofun, handleCloseWorkspace_noop fun tile htile hw => ?_⟩
      by_contra hid
      exact heffective (hiff.mpr ⟨tile, htile, hw, hid⟩)
  | closePane paneId =>
    cases hreturns with
    | closePane hiff =>
      exact ⟨nofun, handleClosePane_noop fun hheld => heffective (hiff.mpr hheld)⟩

theorem decodedShape_iterate {input : Json}
    (h : (decodeWindowLayout input).windowLayout = some layout)
    (n : ℕ) : DecodedShape (pressClose^[n] layout) := by
  cases n with
  | zero =>
    obtain ⟨decoded, rfl⟩ := decodeWindowLayout_repaired h
    exact decodedShape_repairTransforms decoded
  | succ n =>
    rw [iterate_succ_apply', pressClose_eq]
    exact decodedShape_repairTransforms _

theorem pressClose_fixed {input : Json}
    (h : (decodeWindowLayout input).windowLayout = some layout) {n : ℕ}
    (hnoop : executeProgressiveClose (pressClose^[n] layout) = pressClose^[n] layout) (m : ℕ) :
    pressClose^[m] (pressClose^[n] layout) = pressClose^[n] layout := by
  apply iterate_of_fixed
  obtain ⟨decoded, hdecoded⟩ : ∃ decoded, pressClose^[n] layout = repairTransforms decoded := by
    cases n with
    | zero => exact decodeWindowLayout_repaired h
    | succ n =>
      rw [iterate_succ_apply', pressClose_eq]
      exact ⟨_, rfl⟩
  rw [pressClose_eq, hnoop, hdecoded, repairTransforms_idem]

/-- **The close command, from any decoded layout.** An action other than closing
the application reduces the layout exactly when the condition holds, and the
command reaches the application exactly when it holds of every layout on the way. -/
theorem progressiveClose_iff {input : Json}
    (h : (decodeWindowLayout input).windowLayout = some layout) :
    ((closeAction layout ≠ .closeApp → Reduces layout (executeProgressiveClose layout)) ↔
        CloseEffective layout) ∧ ((∃ n, closeAction (pressClose^[n] layout) = .closeApp) ↔
        ∀ n, CloseEffective (pressClose^[n] layout)) := by
  refine ⟨⟨fun hreduces => ?_, fun heffective hne => ?_⟩, ?_, fun heffective => ?_⟩
  · by_contra heffective
    obtain ⟨hne, hnoop⟩ := (decodedShape_iterate h 0).stuck heffective
    rw [iterate_zero_apply] at hne hnoop
    have hself := hreduces hne
    rw [hnoop] at hself
    exact not_reduces_self layout hself
  · exact ((decodedShape_iterate h 0).closes heffective).resolve_left hne
  · rintro ⟨n, hn⟩ m
    -- a layout without the condition, or the application, is where the presses end
    by_contra heffective
    obtain ⟨hne, hnoop⟩ := (decodedShape_iterate h m).stuck heffective
    rcases Nat.le_total m n with hle | hle
    · obtain ⟨k, rfl⟩ := Nat.exists_eq_add_of_le' hle
      rw [iterate_add_apply, pressClose_fixed h hnoop k] at hn
      exact hne hn
    · obtain ⟨k, rfl⟩ := Nat.exists_eq_add_of_le' hle
      have happ : executeProgressiveClose (pressClose^[n] layout) = pressClose^[n] layout := by
        rw [executeProgressiveClose, hn]
      rw [iterate_add_apply, pressClose_fixed h happ k] at hne
      exact hne hn
  · have hwf : WellFounded fun after before : WindowLayout => Reduces before after :=
      InvImage.wf layoutWeight Multiset.wellFounded_isDershowitzMannaLT
    have hdescends : ∀ n, closeAction (pressClose^[n] layout) = .closeApp ∨
        Reduces (pressClose^[n] layout) (pressClose (pressClose^[n] layout)) := by
      intro n
      refine ((decodedShape_iterate h n).closes (heffective n)).imp_right fun hreduces => ?_
      rw [pressClose_eq]
      exact isDershowitzMannaLT_of_le_of (layoutWeight_repairTransforms _) hreduces
    exact exists_done_of_descends pressClose (closeAction · = .closeApp) hwf layout hdescends

end Press

/-! ## One pane, with and without its focus -/

open LayoutOperation (terminalPane focusedLayout)

theorem progressiveClose_focused :
    ((closeAction (focusedLayout "p1" (terminalPane "p1" "t1")) ≠ .closeApp →
        Reduces (focusedLayout "p1" (terminalPane "p1" "t1"))
          (executeProgressiveClose (focusedLayout "p1" (terminalPane "p1" "t1")))) ↔
        CloseEffective (focusedLayout "p1" (terminalPane "p1" "t1"))) ∧
      ((∃ n, closeAction (pressClose^[n] (focusedLayout "p1" (terminalPane "p1" "t1"))) =
          .closeApp) ↔
        ∀ n, CloseEffective (pressClose^[n] (focusedLayout "p1" (terminalPane "p1" "t1")))) := by
  have hdecoded : (decodeWindowLayout (encodeWindowLayout
      (focusedLayout "p1" (terminalPane "p1" "t1")))).windowLayout =
        some (focusedLayout "p1" (terminalPane "p1" "t1")) := by
    decide
  exact progressiveClose_iff hdecoded

/-- A focus that names no pane is closed again and again: every press leaves the
layout as it is, and the application is never reached. -/
theorem progressiveClose_stuck : (decodeWindowLayout (encodeWindowLayout
        (focusedLayout "gone" (terminalPane "p1" "t1")))).windowLayout =
        some (focusedLayout "gone" (terminalPane "p1" "t1")) ∧
      closeAction (focusedLayout "gone" (terminalPane "p1" "t1")) = .closePane "gone" ∧
      ¬ Reduces (focusedLayout "gone" (terminalPane "p1" "t1"))
        (executeProgressiveClose (focusedLayout "gone" (terminalPane "p1" "t1"))) ∧
      ∀ n, closeAction (pressClose^[n] (focusedLayout "gone" (terminalPane "p1" "t1"))) ≠
        .closeApp := by
  have haction : closeAction (focusedLayout "gone" (terminalPane "p1" "t1")) =
      .closePane "gone" := by
    decide
  have hnoop : executeProgressiveClose (focusedLayout "gone" (terminalPane "p1" "t1")) =
      focusedLayout "gone" (terminalPane "p1" "t1") := by
    decide
  have hpress : pressClose (focusedLayout "gone" (terminalPane "p1" "t1")) =
      focusedLayout "gone" (terminalPane "p1" "t1") := by
    decide
  refine ⟨by decide, haction, fun hreduces => ?_, fun n => ?_⟩
  · rw [hnoop] at hreduces
    exact not_reduces_self _ hreduces
  · rw [iterate_of_fixed hpress, haction]
    nofun

end Laborer.Panels
