import Laborer.Panels.DecodeFocus

/-!
# Runs of layout operations

Sequences of layout operations from a decoded layout keep every focus on a pane
of its panel tab, as long as no terminal is closed in the focused pane. That
closing moves no focus, unlike closing a pane.
-/

namespace Laborer.Panels

open Laborer.Library List

inductive LayoutOperation where
  | addWindowTab (tab : Option WindowTab) (randomTabName : String)
  | removeWindowTab (tabId : String)
  | switchWindowTab (tabId : String)
  | switchWindowTabByIndex (index : ℤ)
  | switchWindowTabRelative (delta : ℤ)
  | renameWindowTab (tabId label : String)
  | reorderWindowTabs (fromIndex toIndex : ℤ)
  | handleCloseWindowTab (tabId : Option String)
  | commitWindowTabSwitchWithFocus
  | addPanelTab (workspaceId : String) (panelType : PaneType) (options : AddPanelTabOptions)
  | removePanelTab (workspaceId tabId : String)
  | switchPanelTab (workspaceId tabId : String)
  | switchPanelTabByIndex (workspaceId : String) (index : ℤ)
  | switchPanelTabRelative (workspaceId : String) (delta : ℤ)
  | reorderPanelTabs (workspaceId : String) (fromIndex toIndex : ℤ)
  | handleRemovePanelTab (workspaceId tabId : String)
  | commitPanelTabSwitchWithFocus (workspaceId : String)
  | handleSplitPane (paneId : String) (direction : SplitDirection) (content : PaneContent)
  | handleAddPaneToWorkspace (workspaceId : String) (direction : SplitDirection)
  | handleClosePane (paneId : String)
  | closeTerminalInWindowLayout (terminalId : String)
  | saveFocusedPaneId (paneId : String)
  | handleSetActivePaneId (paneId : Option String)
  | navigateToTerminal (terminalId : String)
  | moveWorkspace (workspaceId targetTabId : String) (below : Option String)
  | removeWorkspaceFromLayout (workspaceId : String)
  | placeWorkspaceInActiveTab (workspaceId : String) (anchor : Option String)
  | handleMoveWorkspaceInTab (sourceWorkspaceId targetWorkspaceId : String)
      (edge : WorkspaceDropEdge)

namespace LayoutOperation

def step (op : LayoutOperation) (s : WindowLayout × IdGen) : WindowLayout × IdGen :=
  let layout := s.1
  let g := s.2
  match op with
  | addWindowTab tab name => Panels.addWindowTab layout tab name g
  | removeWindowTab tabId => (Panels.removeWindowTab layout tabId, g)
  | switchWindowTab tabId => (Panels.switchWindowTab layout tabId, g)
  | switchWindowTabByIndex index => (Panels.switchWindowTabByIndex layout index, g)
  | switchWindowTabRelative delta => (Panels.switchWindowTabRelative layout delta, g)
  | renameWindowTab tabId label => (Panels.renameWindowTab layout tabId label, g)
  | reorderWindowTabs fromIndex toIndex =>
    (Panels.reorderWindowTabs layout fromIndex toIndex, g)
  | handleCloseWindowTab tabId => (Panels.handleCloseWindowTab layout tabId, g)
  | commitWindowTabSwitchWithFocus => (Panels.commitWindowTabSwitchWithFocus layout, g)
  | addPanelTab w panelType options =>
    updateWorkspaceTileLeafState layout w (Panels.addPanelTab panelType options) g
  | removePanelTab w tabId =>
    (updateWorkspaceTileLeaf layout w (Panels.removePanelTab tabId), g)
  | switchPanelTab w tabId =>
    (updateWorkspaceTileLeaf layout w (Panels.switchPanelTab tabId), g)
  | switchPanelTabByIndex w index =>
    (updateWorkspaceTileLeaf layout w (Panels.switchPanelTabByIndex index), g)
  | switchPanelTabRelative w delta =>
    (updateWorkspaceTileLeaf layout w (Panels.switchPanelTabRelative delta), g)
  | reorderPanelTabs w fromIndex toIndex =>
    (updateWorkspaceTileLeaf layout w (Panels.reorderPanelTabs fromIndex toIndex), g)
  | handleRemovePanelTab w tabId => (Panels.handleRemovePanelTab layout w tabId, g)
  | commitPanelTabSwitchWithFocus w => (Panels.commitPanelTabSwitchWithFocus layout w, g)
  | handleSplitPane paneId direction content =>
    Panels.handleSplitPane layout paneId direction content g
  | handleAddPaneToWorkspace w direction => Panels.handleAddPaneToWorkspace layout w direction g
  | handleClosePane paneId => (Panels.handleClosePane layout paneId, g)
  | closeTerminalInWindowLayout terminalId =>
    (Panels.closeTerminalInWindowLayout layout terminalId, g)
  | saveFocusedPaneId paneId => (Panels.saveFocusedPaneId layout paneId, g)
  | handleSetActivePaneId paneId => (Panels.handleSetActivePaneId layout paneId, g)
  | navigateToTerminal terminalId =>
    ((Panels.navigateToTerminal layout terminalId).getD layout, g)
  | moveWorkspace w target below => moveTo layout w target below g
  | removeWorkspaceFromLayout w =>
    (Panels.removeWorkspaceFromLayout layout w removeWorkspaceFromTab, g)
  | placeWorkspaceInActiveTab w anchor => Panels.placeWorkspaceInActiveTab layout w anchor g
  | handleMoveWorkspaceInTab source target edge =>
    Panels.handleMoveWorkspaceInTab layout source target edge g

/-- The terminal's pane is not the focused one: no panel tab that loses the pane
has its focus there. A panel tab with a single pane is removed or kept whole. -/
def ClosesUnfocused (layout : WindowLayout) (terminalId : String) : Prop :=
  ∀ location ∈ findTerminalLocation layout terminalId,
    1 < locationPaneCount layout location →
      ∀ tile ∈ getAllWorkspaceTileLeaves layout, tile.workspaceId = location.workspaceId →
        ∀ tab ∈ tile.panelTabs, tab.id = location.panelTabId → 1 < countLeaves tab.panelLayout →
          tab.focusedPaneId ≠ some location.paneId

instance (layout : WindowLayout) (terminalId : String) :
    Decidable (ClosesUnfocused layout terminalId) :=
  inferInstanceAs (Decidable (∀ location ∈ findTerminalLocation layout terminalId, _))

/-- The condition on a step: given tabs are sound, the pane that is added gets
an id its tree does not have yet, unless no other panel tab is confused with the
tree's, and a closed terminal is not in the focused pane. -/
def Safe (op : LayoutOperation) (s : WindowLayout × IdGen) : Prop :=
  match op with
  | addWindowTab tab _ => ∀ t ∈ tab, ∀ tile ∈ tabLeaves t, FrameOk tile
  | addPanelTab _ _ options => ∀ tab ∈ options.tab, PanelTabOk tab
  | handleSplitPane paneId _ _ => ∀ holder ∈ findPaneHolder s.1 paneId,
      s.2.Fresh (getLeafIds holder.2.panelLayout) ∨
        LayoutOk.TwinsAlike s.1 holder.1.workspaceId holder.2
  | handleAddPaneToWorkspace w _ => s.2.Fresh (LayoutOk.paneIds s.1) ∨
      ∀ tile ∈ getAllWorkspaceTileLeaves s.1, tile.workspaceId = w →
        ∀ tab ∈ getActivePanelTab tile, ∀ twin ∈ tile.panelTabs, twin.id = tab.id →
          twin.panelLayout = tab.panelLayout
  | closeTerminalInWindowLayout terminalId => ClosesUnfocused s.1 terminalId
  | _ => True

/-- **One operation keeps the focus invariant.** -/
theorem step_layoutOk (op : LayoutOperation) (s : WindowLayout × IdGen) (h : LayoutOk s.1)
    (hsafe : op.Safe s) : LayoutOk (op.step s).1 := by
  obtain ⟨layout, g⟩ := s
  have hedit : ∀ {w} {edit : WorkspaceTileLeaf → WorkspaceTileLeaf},
      (∀ tile, FrameOk tile → FrameOk (edit tile)) →
      LayoutOk (updateWorkspaceTileLeaf layout w edit) :=
    fun hframe => h.updateWorkspaceTileLeaf fun tile _ _ hok => hframe tile hok
  have hsame : ∀ {layout' : WindowLayout}, layout'.tabs = layout.tabs → LayoutOk layout' :=
    fun htabs => h.of_tabs (by rw [htabs]; exact List.Subset.refl _)
  cases op with
  | addWindowTab tab name => exact h.addWindowTab hsafe name g
  | removeWindowTab tabId => exact h.removeWindowTab tabId
  | switchWindowTab tabId => exact h.switchWindowTab tabId
  | switchWindowTabByIndex index => exact hsame (switchWindowTabByIndex_tabs layout index)
  | switchWindowTabRelative delta => exact hsame (switchWindowTabRelative_tabs layout delta)
  | renameWindowTab tabId label =>
    apply h.of_subset
    show getAllWorkspaceTileLeaves (Panels.renameWindowTab layout tabId label) ⊆ _
    rw [frames_renameWindowTab]
    exact List.Subset.refl _
  | reorderWindowTabs fromIndex toIndex =>
    exact h.of_tabs (reorderWindowTabs_tabs layout fromIndex toIndex).subset
  | handleCloseWindowTab tabId => exact h.handleCloseWindowTab tabId
  | commitWindowTabSwitchWithFocus => exact h.focusIfAny _
  | addPanelTab w panelType options =>
    exact h.updateWorkspaceTileLeafState (S := fun _ => True) (fun _ _ _ => trivial)
      (fun _ _ g _ _ hok => hok.addPanelTab panelType hsafe g) trivial
  | removePanelTab w tabId => exact hedit fun _ hok => hok.removePanelTab tabId
  | switchPanelTab w tabId => exact hedit fun _ hok => hok.switchPanelTab tabId
  | switchPanelTabByIndex w index => exact hedit fun _ hok => hok.switchPanelTabByIndex index
  | switchPanelTabRelative w delta => exact hedit fun _ hok => hok.switchPanelTabRelative delta
  | reorderPanelTabs w fromIndex toIndex =>
    exact hedit fun _ hok => hok.reorderPanelTabs fromIndex toIndex
  | handleRemovePanelTab w tabId => exact h.handleRemovePanelTab w tabId
  | commitPanelTabSwitchWithFocus w => exact h.focusIfAny _
  | handleSplitPane paneId dir content =>
    exact h.handleSplitPane (fun tile tab hholder => hsafe (tile, tab) hholder) dir content
  | handleAddPaneToWorkspace w dir => exact h.handleAddPaneToWorkspace hsafe dir
  | handleClosePane paneId => exact h.handleClosePane paneId
  | closeTerminalInWindowLayout tid => exact h.closeTerminalInWindowLayout hsafe
  | saveFocusedPaneId paneId => exact h.saveFocusedPaneId paneId
  | handleSetActivePaneId paneId =>
    show LayoutOk (Panels.handleSetActivePaneId layout paneId)
    unfold Panels.handleSetActivePaneId
    split
    · exact h
    · exact h.saveFocusedPaneId _
  | navigateToTerminal tid =>
    show LayoutOk ((Panels.navigateToTerminal layout tid).getD layout)
    cases hnavigate : Panels.navigateToTerminal layout tid with
    | none => exact h
    | some layout' => exact h.navigateToTerminal tid layout' hnavigate
  | moveWorkspace w target below => exact h.of_frames (moveTo_frames layout target below g)
  | removeWorkspaceFromLayout w => exact h.of_subset (removeWorkspaceFromLayout_frames layout)
  | placeWorkspaceInActiveTab w anchor =>
    exact h.of_frames (placeWorkspaceInActiveTab_frames layout anchor g)
  | handleMoveWorkspaceInTab source target edge =>
    exact h.of_subset (handleMoveWorkspaceInTab_frames layout source target edge g)

/-- **Every focus stays on a pane of its panel tab**, and the focus of every
window tab resolves, in every layout that safe operations reach from a layout
decoded from a sound input. -/
theorem run_focusResolves {input : Json} (hsound : FocusInputSound input) {layout : WindowLayout}
    (hdecoded : (decodeWindowLayout input).windowLayout = some layout) (g : IdGen)
    {ops : List LayoutOperation} (hsafe : RunMeets step Safe (layout, g) ops) :
    ∀ s ∈ visited step (layout, g) ops, FocusResolves s.1 := by
  intro s hs
  apply LayoutOk.focusResolves
  revert s
  apply invariant_visited (P := fun s : WindowLayout × IdGen => LayoutOk s.1) step_layoutOk ?_ hsafe
  exact decodeWindowLayout_layoutOk hsound hdecoded

/-! ## One terminal, and its split -/

def terminalPane (id terminalId : String) : PanelNode :=
  .leaf { command := none, id, paneType := .terminal, terminalId := some terminalId,
          workspaceId := some "ws" }

def focusedTab (focusedPaneId : String) (tree : PanelNode) : PanelTab :=
  { focusedPaneId := some focusedPaneId, id := "panel", label := none, panelLayout := tree }

def focusedFrame (focusedPaneId : String) (tree : PanelNode) : WorkspaceTileLeaf :=
  { activePanelTabId := some "panel", id := "tile", panelTabs := [focusedTab focusedPaneId tree],
    workspaceId := "ws" }

def focusedLayout (focusedPaneId : String) (tree : PanelNode) : WindowLayout :=
  { activeTabId := some "tab"
    tabs := [{ focusedWorkspaceTileId := none, id := "tab", label := none,
               workspaceLayout := some (.leaf (focusedFrame focusedPaneId tree)) }] }

theorem focusedLayout_ok {focusedPaneId : String} {tree : PanelNode} (hforked : Forked tree)
    (hnamed : ∀ id ∈ getLeafIds tree, id ≠ "") (hfocus : focusedPaneId ∈ getLeafIds tree) :
    LayoutOk (focusedLayout focusedPaneId tree) := by
  intro tile htile
  rw [focusedLayout, getAllWorkspaceTileLeaves, flatMap_singleton, Option.elim_some,
    getWorkspaceTileLeaves, LeafTree.leaves_leaf, mem_singleton] at htile
  subst htile
  refine ⟨fun tab htab => ?_, fun _ => ⟨_, mem_singleton_self _, rfl⟩⟩
  rw [focusedFrame, mem_singleton] at htab
  subst htab
  refine ⟨hforked, hnamed, fun p hp => ?_⟩
  cases hp
  exact hfocus

/-- Splitting the pane of a terminal focuses the new pane, so that the terminal
can be closed. -/
theorem run_focusResolves_split :
    FocusResolves (finalState step (focusedLayout "p1" (terminalPane "p1" "t1"), .sessionStart)
      [handleSplitPane "p1" .vertical
        { command := none, paneType := none, terminalId := none, workspaceId := none },
        closeTerminalInWindowLayout "t1"]).1 := by
  have hok : LayoutOk (focusedLayout "p1" (terminalPane "p1" "t1")) :=
    focusedLayout_ok (forked_leaf _) (by decide) (by decide)
  refine run_focusResolves hok.inputSound ?_ _ ?_ _ (finalState_mem_visited _ _)
  · decide
  · refine ⟨?_, ?_, trivial⟩
    · intro holder hholder
      left
      apply IdGen.fresh_of_noDash
      revert holder
      decide
    · show ClosesUnfocused _ "t1"
      decide

def twoTerminals : PanelNode :=
  .split ⟨"s", .vertical, [50, 50]⟩ [terminalPane "p1" "t1", terminalPane "p2" "t2"]

/-- Closing a terminal in the focused pane leaves the focus on that pane, and
decoding takes a focus over that names no pane. -/
theorem closeTerminal_leavesFocus :
    ((decodeWindowLayout (encodeWindowLayout (focusedLayout "p1" twoTerminals))).windowLayout =
        some (focusedLayout "p1" twoTerminals) ∧ FocusResolves (focusedLayout "p1" twoTerminals) ∧
      ¬ FocusResolves ((closeTerminalInWindowLayout "t1").step
        (focusedLayout "p1" twoTerminals, .sessionStart)).1) ∧
    (decodeWindowLayout (encodeWindowLayout
        (focusedLayout "gone" (terminalPane "p1" "t1")))).windowLayout =
        some (focusedLayout "gone" (terminalPane "p1" "t1")) ∧
      ¬ FocusResolves (focusedLayout "gone" (terminalPane "p1" "t1")) := by
  refine ⟨⟨by decide, ?_, fun h => ?_⟩, by decide, fun h => ?_⟩
  · have hforked : Forked twoTerminals :=
      (forked_split _ _).mpr ⟨Nat.le_refl 2, by simp [terminalPane]⟩
    exact (focusedLayout_ok hforked (by decide) (by decide)).focusResolves
  · have hmem := h.focused (focusedFrame "p1" (terminalPane "p2" "t2")) (by decide)
      (focusedTab "p1" (terminalPane "p2" "t2")) (by decide) "p1" rfl
    exact absurd hmem (by decide)
  · have hmem := h.focused (focusedFrame "gone" (terminalPane "p1" "t1")) (by decide)
      (focusedTab "gone" (terminalPane "p1" "t1")) (by decide) "gone" rfl
    exact absurd hmem (by decide)

end LayoutOperation

end Laborer.Panels
