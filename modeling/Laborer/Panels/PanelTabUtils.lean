import Laborer.Panels.PanelTreeUtils

/-!
# Panel tab operations

The functions of `panel-tab-utils.ts` on the panel tabs of one workspace tile.
-/

namespace Laborer.Panels

open Laborer.Library

/-- Options for a new panel tab. A given `tab` is appended as it is. -/
structure AddPanelTabOptions where
  command : Option String
  label : Option String
  tab : Option PanelTab
  terminalId : Option String

def AddPanelTabOptions.none : AddPanelTabOptions :=
  { command := .none, label := .none, tab := .none, terminalId := .none }

/-- Append a panel tab and make it active. The pane id is drawn even when a
tab is given. -/
def addPanelTab (panelType : PaneType) (options : AddPanelTabOptions)
    (workspace : WorkspaceTileLeaf) (g : IdGen) : WorkspaceTileLeaf × IdGen :=
  let paneId := g.generateId "pane"
  let newTab : PanelTab × IdGen :=
    match options.tab with
    | some tab => (tab, paneId.2)
    | none =>
      let tabId := paneId.2.generateId "panel-tab"
      ({ id := tabId.1
         label := options.label
         panelLayout := .leaf
           { id := paneId.1
             command := options.command
             paneType := panelType
             terminalId := options.terminalId
             workspaceId := some workspace.workspaceId }
         focusedPaneId := some paneId.1 }, tabId.2)
  ({ workspace with
      panelTabs := workspace.panelTabs ++ [newTab.1]
      activePanelTabId := some newTab.1.id }, newTab.2)

/-- Remove the panel tabs with the given id. An active tab passes its role to
the tab on its right, else on its left. -/
def removePanelTab (tabId : String) (workspace : WorkspaceTileLeaf) : WorkspaceTileLeaf :=
  match workspace.panelTabs.findIdx? (·.id = tabId) with
  | none => workspace
  | some index =>
    let newTabs := workspace.panelTabs.filter (·.id ≠ tabId)
    if newTabs.length = 0 then { workspace with panelTabs := [], activePanelTabId := none }
    else if workspace.activePanelTabId ≠ some tabId then { workspace with panelTabs := newTabs }
    else
      let nextIndex := min index (newTabs.length - 1)
      { workspace with
        panelTabs := newTabs
        activePanelTabId := newTabs[nextIndex]?.map (·.id) }

def switchPanelTab (tabId : String) (workspace : WorkspaceTileLeaf) : WorkspaceTileLeaf :=
  if workspace.panelTabs.any (·.id = tabId) then
    { workspace with activePanelTabId := some tabId }
  else workspace

/-- Make the panel tab at a 1-based index active; 9 is the last one. -/
def switchPanelTabByIndex (index : ℤ) (workspace : WorkspaceTileLeaf) : WorkspaceTileLeaf :=
  if workspace.panelTabs.length = 0 then workspace
  else if index = 9 then
    { workspace with activePanelTabId := workspace.panelTabs.getLast?.map (·.id) }
  else
    let zeroIndex := index - 1
    if zeroIndex < 0 ∨ (workspace.panelTabs.length : ℤ) ≤ zeroIndex then workspace
    else
      { workspace with
        activePanelTabId := workspace.panelTabs[zeroIndex.toNat]?.map (·.id) }

def switchPanelTabRelative (delta : ℤ) (workspace : WorkspaceTileLeaf) : WorkspaceTileLeaf :=
  if workspace.panelTabs.length = 0 then workspace
  else
    match workspace.panelTabs.findIdx? fun t => some t.id = workspace.activePanelTabId with
    | none => { workspace with activePanelTabId := workspace.panelTabs.head?.map (·.id) }
    | some currentIndex =>
      let newIndex := ((currentIndex : ℤ) + delta) % (workspace.panelTabs.length : ℤ)
      { workspace with
        activePanelTabId := workspace.panelTabs[newIndex.toNat]?.map (·.id) }

def reorderPanelTabs (fromIndex toIndex : ℤ) (workspace : WorkspaceTileLeaf) :
    WorkspaceTileLeaf :=
  let length : ℤ := workspace.panelTabs.length
  if fromIndex < 0 ∨ length ≤ fromIndex ∨ toIndex < 0 ∨ length ≤ toIndex ∨ fromIndex = toIndex then
    workspace
  else
    match workspace.panelTabs[fromIndex.toNat]? with
    | none => workspace
    | some moved =>
      { workspace with
        panelTabs := (workspace.panelTabs.eraseIdx fromIndex.toNat).insertIdx toIndex.toNat moved }

def getActivePanelTab (workspace : WorkspaceTileLeaf) : Option PanelTab :=
  workspace.panelTabs.find? fun t => some t.id = workspace.activePanelTabId

end Laborer.Panels
