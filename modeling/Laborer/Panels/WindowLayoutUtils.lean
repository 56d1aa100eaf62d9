import Laborer.Panels.PanelTabUtils

/-!
# Window layout operations

The functions of `window-layout-utils.ts` on the whole layout of a window:
window tabs, lookups, focus resolution, updates of one workspace's tile, and
the functions that keep a workspace in a single window tab.
-/

namespace Laborer.Panels

open Laborer.Library

/-! ## Window tabs -/

/-- Append a window tab and make it active. Without a given tab an empty one
is created; its label is drawn by `generateRandomTabName`. -/
def addWindowTab (layout : WindowLayout) (tab : Option WindowTab) (randomTabName : String)
    (g : IdGen) : WindowLayout × IdGen :=
  match tab with
  | some newTab => ({ tabs := layout.tabs ++ [newTab], activeTabId := some newTab.id }, g)
  | none =>
    let tabId := g.generateId "window-tab"
    let newTab : WindowTab :=
      { id := tabId.1, label := some randomTabName, workspaceLayout := none,
        focusedWorkspaceTileId := none }
    ({ tabs := layout.tabs ++ [newTab], activeTabId := some newTab.id }, tabId.2)

/-- Remove the window tabs with the given id. An active tab passes its role to
the tab on its right, else on its left. -/
def removeWindowTab (layout : WindowLayout) (tabId : String) : WindowLayout :=
  match layout.tabs.findIdx? (·.id = tabId) with
  | none => layout
  | some index =>
    let newTabs := layout.tabs.filter (·.id ≠ tabId)
    if newTabs.length = 0 then { tabs := [], activeTabId := none }
    else if layout.activeTabId ≠ some tabId then
      { tabs := newTabs, activeTabId := layout.activeTabId }
    else
      let nextIndex := min index (newTabs.length - 1)
      { tabs := newTabs, activeTabId := newTabs[nextIndex]?.map (·.id) }

def switchWindowTab (layout : WindowLayout) (tabId : String) : WindowLayout :=
  if layout.tabs.any (·.id = tabId) then { layout with activeTabId := some tabId } else layout

/-- Make the window tab at a 1-based index active; 9 is the last one. -/
def switchWindowTabByIndex (layout : WindowLayout) (index : ℤ) : WindowLayout :=
  if layout.tabs.length = 0 then layout
  else if index = 9 then { layout with activeTabId := layout.tabs.getLast?.map (·.id) }
  else
    let zeroIndex := index - 1
    if zeroIndex < 0 ∨ (layout.tabs.length : ℤ) ≤ zeroIndex then layout
    else { layout with activeTabId := layout.tabs[zeroIndex.toNat]?.map (·.id) }

def switchWindowTabRelative (layout : WindowLayout) (delta : ℤ) : WindowLayout :=
  if layout.tabs.length = 0 then layout
  else
    match layout.tabs.findIdx? fun t => some t.id = layout.activeTabId with
    | none => { layout with activeTabId := layout.tabs.head?.map (·.id) }
    | some currentIndex =>
      let newIndex := ((currentIndex : ℤ) + delta) % (layout.tabs.length : ℤ)
      { layout with activeTabId := layout.tabs[newIndex.toNat]?.map (·.id) }

def renameWindowTab (layout : WindowLayout) (tabId label : String) : WindowLayout :=
  { layout with
    tabs := layout.tabs.map fun tab =>
      if tab.id = tabId then { tab with label := some label } else tab }

def reorderWindowTabs (layout : WindowLayout) (fromIndex toIndex : ℤ) : WindowLayout :=
  let length : ℤ := layout.tabs.length
  if fromIndex < 0 ∨ length ≤ fromIndex ∨ toIndex < 0 ∨ length ≤ toIndex ∨ fromIndex = toIndex then
    layout
  else
    match layout.tabs[fromIndex.toNat]? with
    | none => layout
    | some moved =>
      { layout with
        tabs := (layout.tabs.eraseIdx fromIndex.toNat).insertIdx toIndex.toNat moved }

/-! ## Lookups -/

def findWorkspaceInTileTree (node : WorkspaceTileNode) (workspaceId : String) : Option String :=
  searchLeaves (fun tile => if tile.workspaceId = workspaceId then some tile.id else none) node

structure WorkspaceLocation where
  tabId : String
  tileId : String

def findWorkspaceLocation (layout : WindowLayout) (workspaceId : String) :
    Option WorkspaceLocation :=
  layout.tabs.findSome? fun tab =>
    (truthy (tab.workspaceLayout.bind (findWorkspaceInTileTree · workspaceId))).map fun tileId =>
      { tabId := tab.id, tileId }

structure TerminalLocation where
  tabId : String
  tileId : String
  workspaceId : String
  panelTabId : String
  paneId : String

def findTerminalInPanelTree (node : PanelNode) (terminalId : String) : Option String :=
  searchLeaves (fun pane => if pane.terminalId = some terminalId then some pane.id else none) node

/-- The location of a terminal among the panel tabs of a frame. -/
def findTerminalInWorkspaceTile (tabId : String) (tile : WorkspaceTileLeaf)
    (terminalId : String) : Option TerminalLocation :=
  tile.panelTabs.findSome? fun panelTab =>
    (truthy (findTerminalInPanelTree panelTab.panelLayout terminalId)).map fun paneId =>
      { tabId, tileId := tile.id, workspaceId := tile.workspaceId, panelTabId := panelTab.id,
        paneId }

def findTerminalInTileTree (tabId : String) (node : WorkspaceTileNode) (terminalId : String) :
    Option TerminalLocation :=
  node.leaves.findSome? fun tile => findTerminalInWorkspaceTile tabId tile terminalId

def findTerminalLocation (layout : WindowLayout) (terminalId : String) :
    Option TerminalLocation :=
  layout.tabs.findSome? fun tab =>
    tab.workspaceLayout.bind fun root => findTerminalInTileTree tab.id root terminalId

def getAllWorkspaceTileLeaves (layout : WindowLayout) : List WorkspaceTileLeaf :=
  layout.tabs.flatMap fun tab => tab.workspaceLayout.elim [] getWorkspaceTileLeaves

def getActiveWindowTab (layout : WindowLayout) : Option WindowTab :=
  layout.tabs.find? fun t => some t.id = layout.activeTabId

def findWorkspaceTileLeaf (node : WorkspaceTileNode) (workspaceId : String) :
    Option WorkspaceTileLeaf :=
  node.leaves.find? (·.workspaceId = workspaceId)

/-- The frames visible in the active window tab, with the pane tree each shows:
its active panel tab's, else its first panel tab's. -/
def visiblePanelTree (tile : WorkspaceTileLeaf) : Option PanelNode :=
  ((getActivePanelTab tile).or tile.panelTabs.head?).map (·.panelLayout)

/-- Find a pane among the visible panes of the active window tab, with the
workspace of its frame. -/
def findPaneInActiveTab (layout : WindowLayout) (paneId : String) : Option (LeafNode × String) :=
  (((getActiveWindowTab layout).bind (·.workspaceLayout)).elim [] getWorkspaceTileLeaves).findSome?
    fun tile => (visiblePanelTree tile).bind fun tree =>
      (findLeaf tree paneId).map fun leaf => (leaf, tile.workspaceId)

/-! ## Focus resolution -/

/-- The focused pane of a panel tab, else its first pane. -/
def resolveActivePaneForPanelTab (tab : PanelTab) : Option String :=
  (truthy tab.focusedPaneId).or (getFirstLeafId tab.panelLayout)

/-- The pane of a frame's active panel tab, else of its first panel tab. -/
def resolveActivePaneFromLeaf (leaf : WorkspaceTileLeaf) : Option String :=
  (truthy ((getActivePanelTab leaf).bind resolveActivePaneForPanelTab)).or
    (truthy (leaf.panelTabs.head?.bind resolveActivePaneForPanelTab))

/-- The pane that gets focus in a window tab: that of the focused frame when it
has one, else of the first frame that has one. -/
def resolveActivePaneForWindowTab (tab : WindowTab) : Option String :=
  let leaves := tab.workspaceLayout.elim [] getWorkspaceTileLeaves
  let focused :=
    (truthy tab.focusedWorkspaceTileId).bind fun tileId =>
      (leaves.find? (·.id = tileId)).bind resolveActivePaneFromLeaf
  (truthy focused).or (leaves.findSome? fun leaf => truthy (resolveActivePaneFromLeaf leaf))

def findTileLeafContainingPane (node : WorkspaceTileNode) (paneId : String) : Option String :=
  searchLeaves (fun tile =>
    if tile.panelTabs.any fun tab => containsPane tab.panelLayout paneId then some tile.id
    else none) node

/-- Record the pane as focused on the panel tabs that contain it. -/
def saveFocusInWorkspaceTile (paneId : String) (tile : WorkspaceTileLeaf) : WorkspaceTileLeaf :=
  { tile with
    panelTabs := tile.panelTabs.map fun tab =>
      if containsPane tab.panelLayout paneId then { tab with focusedPaneId := some paneId }
      else tab }

/-- Record the pane as focused in every panel tab that contains it, and its
frame as the focused frame of the window tab. -/
def saveFocusedPaneId (layout : WindowLayout) (paneId : String) : WindowLayout :=
  { layout with
    tabs := layout.tabs.map fun tab =>
      match tab.workspaceLayout with
      | none => tab
      | some root =>
        { tab with
          workspaceLayout := some (root.mapLeaves (saveFocusInWorkspaceTile paneId))
          focusedWorkspaceTileId :=
            (findTileLeafContainingPane root paneId).or tab.focusedWorkspaceTileId } }

/-! ## Updating a workspace's tile -/

def updateWorkspaceTileLeaf (layout : WindowLayout) (workspaceId : String)
    (transform : WorkspaceTileLeaf → WorkspaceTileLeaf) : WindowLayout :=
  { layout with
    tabs := layout.tabs.map fun tab =>
      { tab with
        workspaceLayout := tab.workspaceLayout.map fun root =>
          root.mapLeaves fun leaf =>
            if leaf.workspaceId = workspaceId then transform leaf else leaf } }

def mapState {α σ : Type} (f : α → σ → α × σ) : List α → σ → List α × σ
  | [], s => ([], s)
  | a :: rest, s =>
    let head := f a s
    let tail := mapState f rest head.2
    (head.1 :: tail.1, tail.2)

/-- `updateWorkspaceTileLeaf` with a transform that changes a state, such as the
id generator. -/
def updateWorkspaceTileLeafState {σ : Type} (layout : WindowLayout) (workspaceId : String)
    (transform : WorkspaceTileLeaf → σ → WorkspaceTileLeaf × σ) (s : σ) : WindowLayout × σ :=
  let tabs := mapState (fun tab s =>
    match tab.workspaceLayout with
    | none => (tab, s)
    | some root =>
      let newRoot := root.mapLeavesState
        (fun leaf s => if leaf.workspaceId = workspaceId then transform leaf s else (leaf, s)) s
      ({ tab with workspaceLayout := some newRoot.1 }, newRoot.2)) layout.tabs s
  ({ layout with tabs := tabs.1 }, tabs.2)

/-! ## Workspace uniqueness -/

def removeWorkspaceFromLayout (layout : WindowLayout) (workspaceId : String)
    (removeFromTab : WindowTab → String → WindowTab) : WindowLayout :=
  match findWorkspaceLocation layout workspaceId with
  | none => layout
  | some location =>
    { layout with
      tabs := layout.tabs.map fun tab =>
        if tab.id = location.tabId then removeFromTab tab workspaceId else tab }

/-- Move a workspace to a window tab: remove it where it is found, then add it
to the target. -/
def moveWorkspace (layout : WindowLayout) (workspaceId targetTabId : String)
    (removeFromTab : WindowTab → String → WindowTab)
    (addToTab : WindowTab → String → IdGen → WindowTab × IdGen) (g : IdGen) :
    WindowLayout × IdGen :=
  let existing := findWorkspaceLocation layout workspaceId
  if existing.map (·.tabId) = some targetTabId then (layout, g)
  else
    let intermediate :=
      match existing with
      | some _ => removeWorkspaceFromLayout layout workspaceId removeFromTab
      | none => layout
    let tabs := mapState (fun tab g =>
      if tab.id = targetTabId then addToTab tab workspaceId g else (tab, g)) intermediate.tabs g
    ({ intermediate with tabs := tabs.1 }, tabs.2)

/-- Add a workspace to a window tab after removing it from any other. -/
def addWorkspaceToTabUnique (layout : WindowLayout) (workspaceId targetTabId : String)
    (removeFromTab : WindowTab → String → WindowTab)
    (addToTab : WindowTab → String → IdGen → WindowTab × IdGen) (g : IdGen) :
    WindowLayout × IdGen :=
  moveWorkspace layout workspaceId targetTabId removeFromTab addToTab g

/-! ## Progressive close -/

/-- What the close command does next. -/
inductive ProgressiveCloseAction where
  | closePane (paneId : String)
  | closePanelTab (tabId workspaceId : String)
  | closeWorkspace (workspaceId : String)
  | closeWindowTab (tabId : String)
  | closeApp
deriving DecidableEq

def resolveLastWorkspaceCloseAction (activeTab : WindowTab) : ProgressiveCloseAction :=
  .closeWindowTab activeTab.id

def resolveEmptyWorkspaceAction (activeTab : WindowTab) (activeWorkspaceId : String) :
    ProgressiveCloseAction :=
  match activeTab.workspaceLayout with
  | none => resolveLastWorkspaceCloseAction activeTab
  | some root =>
    if (getWorkspaceTileLeaves root).length ≤ 1 then resolveLastWorkspaceCloseAction activeTab
    else .closeWorkspace activeWorkspaceId

def resolveNullPaneCloseAction (layout : Option WindowLayout) : ProgressiveCloseAction :=
  match layout.bind getActiveWindowTab with
  | none => .closeApp
  | some activeTab =>
    match truthy (resolveActivePaneForWindowTab activeTab) with
    | some resolvedPaneId => .closePane resolvedPaneId
    | none => .closeWindowTab activeTab.id

/-- The close action for the state the user is in, from the pane outwards. -/
def computeProgressiveCloseAction (layout : Option WindowLayout) (activePaneId : Option String)
    (activeWorkspaceId : Option String) : ProgressiveCloseAction :=
  match truthy activePaneId, layout with
  | none, _ => resolveNullPaneCloseAction layout
  | some paneId, none => .closePane paneId
  | some paneId, some layout =>
    match getActiveWindowTab layout, truthy activeWorkspaceId with
    | none, _ => .closeApp
    | some activeTab, none =>
      if (activeTab.workspaceLayout.elim [] getWorkspaceTileLeaves).length = 0 then
        .closeWindowTab activeTab.id
      else .closePane paneId
    | some activeTab, some workspaceId =>
      match activeTab.workspaceLayout.bind (findWorkspaceTileLeaf · workspaceId) with
      | none => .closePane paneId
      | some workspaceLeaf =>
        match getActivePanelTab workspaceLeaf with
        | none => resolveEmptyWorkspaceAction activeTab workspaceId
        | some activePanelTab =>
          if 1 < countLeaves activePanelTab.panelLayout then .closePane paneId
          else .closePanelTab activePanelTab.id workspaceId

/-! ## Closing a terminal -/

def locationPaneCount (layout : WindowLayout) (location : TerminalLocation) : ℕ :=
  (layout.tabs.findSome? fun tab =>
    if tab.id ≠ location.tabId then none
    else
      tab.workspaceLayout.bind fun root =>
        (findWorkspaceTileLeaf root location.workspaceId).bind fun tile =>
          (tile.panelTabs.find? (·.id = location.panelTabId)).map fun panelTab =>
            countLeaves panelTab.panelLayout).getD 0

/-- Close a pane in the panel tabs with the given id. Unlike `closePaneInLayout`
this leaves the tab's focus where it was. -/
def closePaneInPanelTab (panelTabId paneId : String) (tab : PanelTab) : PanelTab :=
  if tab.id ≠ panelTabId then tab
  else
    match closePane paneId tab.panelLayout with
    | none => tab
    | some newLayout => { tab with panelLayout := newLayout }

/-- Close a terminal's pane, and its panel tab when it is the only pane there. -/
def closeTerminalInWindowLayout (layout : WindowLayout) (terminalId : String) : WindowLayout :=
  match findTerminalLocation layout terminalId with
  | none => layout
  | some location =>
    if locationPaneCount layout location ≤ 1 then
      updateWorkspaceTileLeaf layout location.workspaceId (removePanelTab location.panelTabId)
    else
      updateWorkspaceTileLeaf layout location.workspaceId fun leaf =>
        { leaf with
          panelTabs := leaf.panelTabs.map
            (closePaneInPanelTab location.panelTabId location.paneId) }

end Laborer.Panels
