import Laborer.Panels.WindowLayoutUtils

/-!
# Panel layout actions

The layout part of the handlers in `use-panel-layout.ts`: what each of them
commits when it is applied to a layout. Spawning and killing terminals and
persisting the layout are effects of the handlers and are not part of it.
-/

namespace Laborer.Panels

open Laborer.Library

/-! ## Placing workspaces -/

/-- Replace the window tabs that carry the id of `updatedTab`. -/
def replaceTab (layout : WindowLayout) (activeTabId : String) (updatedTab : WindowTab) :
    WindowLayout :=
  { layout with
    tabs := layout.tabs.map fun tab => if tab.id = activeTabId then updatedTab else tab }

/-- Ensure a workspace exists in the active window tab. If it doesn't, move it
from its current location. -/
def ensureWorkspaceInActiveTab (layout : WindowLayout) (workspaceId : String) (g : IdGen) :
    WindowLayout × IdGen :=
  match getActiveWindowTab layout with
  | none => (layout, g)
  | some activeTab =>
    if (findWorkspaceLocation layout workspaceId).map (·.tabId) = some activeTab.id then (layout, g)
    else
      addWorkspaceToTabUnique layout workspaceId activeTab.id removeWorkspaceFromTab
        (fun tab id g => addWorkspaceToTab tab id none g) g

/-- `updatedTab === activeTab` after `moveWorkspaceTileBelow`: the same object
comes back when no shared column handles the move and no other arrangement of
the columns comes out. A shared column is rebuilt even if it comes out equal. -/
def keepsTab (activeTab : WindowTab) (workspaceId anchorWorkspaceId : String) (g : IdGen) : Prop :=
  activeTab.workspaceLayout.bind (moveBelowInSharedColumn workspaceId anchorWorkspaceId) = none ∧
    (moveWorkspaceTileBelow activeTab workspaceId anchorWorkspaceId g).1 = activeTab

instance (activeTab : WindowTab) (workspaceId anchorWorkspaceId : String) (g : IdGen) :
    Decidable (keepsTab activeTab workspaceId anchorWorkspaceId g) :=
  inferInstanceAs (Decidable (_ ∧ _))

/-- Reposition an already-open workspace below its requested group anchor. -/
def placeWorkspaceBelowAnchorInActiveTab (layout : WindowLayout)
    (workspaceId anchorWorkspaceId : String) (g : IdGen) : WindowLayout × IdGen :=
  match getActiveWindowTab layout with
  | none => (layout, g)
  | some activeTab =>
    let updatedTab := moveWorkspaceTileBelow activeTab workspaceId anchorWorkspaceId g
    if keepsTab activeTab workspaceId anchorWorkspaceId g then (layout, updatedTab.2)
    else (replaceTab layout activeTab.id updatedTab.1, updatedTab.2)

/-- Add or move a workspace directly below an optional group anchor. -/
def placeWorkspaceInActiveTab (layout : WindowLayout) (workspaceId : String)
    (anchorWorkspaceId : Option String) (g : IdGen) : WindowLayout × IdGen :=
  match getActiveWindowTab layout with
  | none => (layout, g)
  | some activeTab =>
    if (findWorkspaceLocation layout workspaceId).map (·.tabId) ≠ some activeTab.id then
      addWorkspaceToTabUnique layout workspaceId activeTab.id removeWorkspaceFromTab
        (fun tab id g => addWorkspaceToTab tab id anchorWorkspaceId g) g
    else
      match anchorWorkspaceId with
      | none => (layout, g)
      | some anchor => placeWorkspaceBelowAnchorInActiveTab layout workspaceId anchor g

/-- Move a workspace frame to an edge of another frame in the active window tab. -/
def handleMoveWorkspaceInTab (layout : WindowLayout)
    (sourceWorkspaceId targetWorkspaceId : String) (edge : WorkspaceDropEdge) (g : IdGen) :
    WindowLayout × IdGen :=
  match getActiveWindowTab layout with
  | none => (layout, g)
  | some activeTab =>
    let updatedTab := moveWorkspaceTileToEdge activeTab sourceWorkspaceId targetWorkspaceId edge g
    if updatedTab.1 = activeTab then (layout, updatedTab.2)
    else (replaceTab layout activeTab.id updatedTab.1, updatedTab.2)

/-! ## Panes -/

/-- The first frame, with its active panel tab, whose active panel tab has the
pane. -/
def findPaneHolder (layout : WindowLayout) (paneId : String) :
    Option (WorkspaceTileLeaf × PanelTab) :=
  (getAllWorkspaceTileLeaves layout).findSome? fun wsLeaf =>
    (getActivePanelTab wsLeaf).bind fun activePanelTab =>
      (findLeaf activePanelTab.panelLayout paneId).map fun _ => (wsLeaf, activePanelTab)

/-- In the panel tabs with the given id put a new tree, and focus the given
pane unless there is none. -/
def putPanelTree (panelTabId : String) (newTree : PanelNode) (focus : Option String)
    (leaf : WorkspaceTileLeaf) : WorkspaceTileLeaf :=
  { leaf with
    panelTabs := leaf.panelTabs.map fun tab =>
      if tab.id = panelTabId then
        { tab with panelLayout := newTree, focusedPaneId := focus.or tab.focusedPaneId }
      else tab }

structure ClosePaneResult where
  resultLayout : WindowLayout
  paneFound : Bool
  terminalIdsToRemove : List String

/-- Close a pane in the first frame that shows it, moving the focus to its
sibling. The last pane of a panel tab takes the tab with it. -/
def closePaneInLayout (layout : WindowLayout) (paneId : String) : ClosePaneResult :=
  match findPaneHolder layout paneId with
  | none => { resultLayout := layout, paneFound := false, terminalIdsToRemove := [] }
  | some (wsLeaf, activePanelTab) =>
    let tree := activePanelTab.panelLayout
    let terminalIdsToRemove := (truthy ((findLeaf tree paneId).bind (·.terminalId))).toList
    match closePane paneId tree with
    | some newTree =>
      { resultLayout := updateWorkspaceTileLeaf layout wsLeaf.workspaceId
          (putPanelTree activePanelTab.id newTree (findSiblingPaneId paneId tree))
        paneFound := true
        terminalIdsToRemove }
    | none =>
      { resultLayout := updateWorkspaceTileLeaf layout wsLeaf.workspaceId
          (removePanelTab activePanelTab.id)
        paneFound := true
        terminalIdsToRemove }

def hasContent (layout : WindowLayout) : Bool :=
  (getAllWorkspaceTileLeaves layout).any fun leaf => 0 < leaf.panelTabs.length

/-- Close a pane; the last panel tab takes all window tabs with it. -/
def handleClosePane (layout : WindowLayout) (paneId : String) : WindowLayout :=
  let result := closePaneInLayout layout paneId
  if !result.paneFound then layout
  else if hasContent result.resultLayout then result.resultLayout
  else { tabs := [], activeTabId := none }

/-- Split the pane and focus the new one. An agent pane is stored as a terminal. -/
def handleSplitPane (layout : WindowLayout) (paneId : String) (direction : SplitDirection)
    (newPaneContent : PaneContent) (g : IdGen) : WindowLayout × IdGen :=
  let effectiveContent :=
    if newPaneContent.paneType = some .agent then
      { newPaneContent with paneType := some .terminal }
    else newPaneContent
  match findPaneHolder layout paneId with
  | none => (layout, g)
  | some (wsLeaf, activePanelTab) =>
    let oldTree := activePanelTab.panelLayout
    let newTree := splitPane paneId direction effectiveContent oldTree g
    (updateWorkspaceTileLeaf layout wsLeaf.workspaceId
      (putPanelTree activePanelTab.id newTree.1
        ((findNewLeafAfterSplit oldTree newTree.1).map (·.id))), newTree.2)

def handleSetActivePaneId (layout : WindowLayout) (paneId : Option String) : WindowLayout :=
  match truthy (paneId.or ((getActiveWindowTab layout).bind resolveActivePaneForWindowTab)) with
  | none => layout
  | some validatedPaneId => saveFocusedPaneId layout validatedPaneId

/-! ## Assigning terminals -/

/-- Navigate to a terminal: switch the window tab and the panel tab and focus
the pane. -/
def navigateToTerminal (layout : WindowLayout) (terminalId : String) : Option WindowLayout :=
  (findTerminalLocation layout terminalId).map fun location =>
    let switched :=
      if layout.activeTabId ≠ some location.tabId then switchWindowTab layout location.tabId
      else layout
    saveFocusedPaneId
      (updateWorkspaceTileLeaf switched location.workspaceId (switchPanelTab location.panelTabId))
      location.paneId

def findEmptyTerminalPaneInTree (node : PanelNode) : Option String :=
  searchLeaves (fun pane =>
    if pane.paneType = .terminal ∧ pane.terminalId = none then some pane.id else none) node

def focusIfAny (layout : WindowLayout) (paneId : Option String) : WindowLayout :=
  match truthy paneId with
  | none => layout
  | some paneId => saveFocusedPaneId layout paneId

def singlePaneId (tab : PanelTab) : Option String :=
  match tab.panelLayout with
  | .leaf pane => some pane.id
  | .split _ _ => none

/-- Assign the terminal to the pane in the panel tabs selected by `inTab`. -/
def assignInTabs (inTab : PanelTab → Bool) (paneId terminalId : String) (command : Option String)
    (leaf : WorkspaceTileLeaf) : WorkspaceTileLeaf :=
  { leaf with
    panelTabs := leaf.panelTabs.map fun tab =>
      if inTab tab then
        { tab with panelLayout := assignTerminal paneId terminalId command tab.panelLayout }
      else tab }

/-- Assign a terminal to a given pane, else to an empty pane of the workspace's
active panel tab, else to a new pane. -/
def assignTerminalInWorkspace (layout : WindowLayout) (workspaceId terminalId : String)
    (paneId : Option String) (command : Option String) (g : IdGen) : WindowLayout × IdGen :=
  match truthy paneId with
  | some pane =>
    (saveFocusedPaneId
      (updateWorkspaceTileLeaf layout workspaceId
        (assignInTabs (fun _ => true) pane terminalId command)) pane, g)
  | none =>
    match (getAllWorkspaceTileLeaves layout).find? (·.workspaceId = workspaceId) with
    | none => (layout, g)
    | some wsLeaf =>
      match getActivePanelTab wsLeaf with
      | none =>
        -- a frame without panel tabs gets one with the terminal in it
        let updated := updateWorkspaceTileLeafState layout workspaceId
          (addPanelTab .terminal { AddPanelTabOptions.none with command, terminalId := terminalId })
          g
        let updatedLeaf :=
          (getAllWorkspaceTileLeaves updated.1).find? (·.workspaceId = workspaceId)
        (focusIfAny updated.1
          ((updatedLeaf.bind (·.panelTabs.getLast?)).bind singlePaneId), updated.2)
      | some activeTab =>
        match truthy (findEmptyTerminalPaneInTree activeTab.panelLayout) with
        | some emptyPaneId =>
          (saveFocusedPaneId
            (updateWorkspaceTileLeaf layout workspaceId
              (assignInTabs (fun tab => tab.id = activeTab.id) emptyPaneId terminalId command))
            emptyPaneId, g)
        | none =>
          match truthy (getLeafIds activeTab.panelLayout).getLast? with
          | none => (layout, g)
          | some lastPaneId =>
            let oldTree := activeTab.panelLayout
            let newTree := splitPane lastPaneId .vertical
              { command, paneType := some .terminal, terminalId := terminalId,
                workspaceId := workspaceId } oldTree g
            let newLeafId := (findNewLeafAfterSplit oldTree newTree.1).map (·.id)
            (focusIfAny
              (updateWorkspaceTileLeaf layout workspaceId
                (putPanelTree activeTab.id newTree.1 newLeafId)) newLeafId, newTree.2)

/-! ## Panel tabs -/

/-- What `handleAddPaneToWorkspace` does to a frame: append a pane to the active
panel tab and focus it, or open a panel tab. The state carries the id of the
pane added last. -/
def addPaneToFrame (direction : SplitDirection) (leaf : WorkspaceTileLeaf)
    (s : IdGen × Option String) : WorkspaceTileLeaf × IdGen × Option String :=
  match getActivePanelTab leaf with
  | none =>
    let withPanelTab := addPanelTab .terminal AddPanelTabOptions.none leaf s.1
    (withPanelTab.1, withPanelTab.2, (withPanelTab.1.panelTabs.getLast?.bind singlePaneId).or s.2)
  | some activePanelTab =>
    let panelLayout := appendPane activePanelTab.panelLayout direction
      { command := none, paneType := some .terminal, terminalId := none,
        workspaceId := some leaf.workspaceId } s.1
    let newPaneId := (findNewLeafAfterSplit activePanelTab.panelLayout panelLayout.1).map (·.id)
    (putPanelTree activePanelTab.id panelLayout.1 newPaneId leaf, panelLayout.2, newPaneId)

/-- Add a pane at the far edge of a workspace's active panel tab and reveal it.
A workspace that is open nowhere is left to `handleAddPanelTab`. -/
def handleAddPaneToWorkspace (layout : WindowLayout) (workspaceId : String)
    (direction : SplitDirection) (g : IdGen) : WindowLayout × IdGen :=
  match findWorkspaceLocation layout workspaceId with
  | none => (layout, g)
  | some location =>
    let base :=
      if layout.activeTabId = some location.tabId then layout
      else switchWindowTab layout location.tabId
    let updated := updateWorkspaceTileLeafState base workspaceId
      (addPaneToFrame direction) (g, none)
    match truthy updated.2.2 with
    | none => (layout, updated.2.1)
    | some newPaneId => (saveFocusedPaneId updated.1 newPaneId, updated.2.1)

/-- Remove a workspace whose frame in the active window tab has no panel tab
left. `none` when there is nothing to close. -/
def autoCloseEmptyWorkspace (newLayout : WindowLayout) (workspaceId : String) :
    Option WindowLayout :=
  match ((getActiveWindowTab newLayout).bind (·.workspaceLayout)).bind
      (findWorkspaceTileLeaf · workspaceId) with
  | none => none
  | some updatedLeaf =>
    if 0 < updatedLeaf.panelTabs.length then none
    else some (removeWorkspaceFromLayout newLayout workspaceId removeWorkspaceFromTab)

/-- Remove a panel tab, and the workspace when it was the last one. -/
def handleRemovePanelTab (layout : WindowLayout) (workspaceId tabId : String) : WindowLayout :=
  let newLayout := updateWorkspaceTileLeaf layout workspaceId (removePanelTab tabId)
  (autoCloseEmptyWorkspace newLayout workspaceId).getD newLayout

/-- Restore the focus of the active panel tab of a workspace after a switch. -/
def commitPanelTabSwitchWithFocus (newLayout : WindowLayout) (workspaceId : String) :
    WindowLayout :=
  let leaf := ((getActiveWindowTab newLayout).bind (·.workspaceLayout)).bind
    (findWorkspaceTileLeaf · workspaceId)
  focusIfAny newLayout ((leaf.bind getActivePanelTab).bind resolveActivePaneForPanelTab)

/-! ## Window tabs and workspaces -/

/-- Restore the focus of the active window tab after a switch. -/
def commitWindowTabSwitchWithFocus (newLayout : WindowLayout) : WindowLayout :=
  focusIfAny newLayout ((getActiveWindowTab newLayout).bind resolveActivePaneForWindowTab)

/-- Close a window tab, the active one if none is given, and restore the focus
of the next active one. -/
def handleCloseWindowTab (layout : WindowLayout) (tabId : Option String) : WindowLayout :=
  match truthy (tabId.or layout.activeTabId) with
  | none => layout
  | some closingTabId =>
    if layout.tabs.any (·.id = closingTabId) then
      commitWindowTabSwitchWithFocus (removeWindowTab layout closingTabId)
    else layout

def handleCloseWorkspace (layout : WindowLayout) (workspaceId : String) : WindowLayout :=
  removeWorkspaceFromLayout layout workspaceId removeWorkspaceFromTab

end Laborer.Panels
