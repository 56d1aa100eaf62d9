import Laborer.Library.Json
import Laborer.Panels.Types

/-!
# Decoding a persisted layout

`decodeWindowLayout` turns an arbitrary JSON value into a layout. The strict
path is the schema decoder followed by repair transforms; when the schema
rejects the value, the lenient path recovers it field by field, trying the
schema decoder again on every part.

Pane trees and tile trees differ in the tag and the leaf alone, so each function
on nodes is written once with the leaf as a parameter.
-/

namespace Laborer.Panels

open Laborer.Library

/-! ## Schema decoders -/

/-- `Schema.optional(Schema.String)`: absent, or a string. -/
def decodeOptionalString (raw : Json) (key : String) : Option (Option String) :=
  match raw.get? key with
  | none => some none
  | some value => value.str?.map some

def decodePaneType : String → Option PaneType
  | "agent" => some .agent
  | "terminal" => some .terminal
  | _ => none

def decodeSplitDirection : String → Option SplitDirection
  | "horizontal" => some .horizontal
  | "vertical" => some .vertical
  | _ => none

def decodeLeafNode (raw : Json) : Option LeafNode := do
  let command ← decodeOptionalString raw "command"
  let id ← raw.getStr? "id"
  let paneType ← (raw.getStr? "paneType").bind decodePaneType
  let terminalId ← decodeOptionalString raw "terminalId"
  let workspaceId ← decodeOptionalString raw "workspaceId"
  return { command, id, paneType, terminalId, workspaceId }

section Nodes

variable {α : Type} (leafTag splitTag : String)

/-- The split schemas, the tag aside: `children` holds what the node schema
makes of each child, and each of them has to decode. -/
def decodeSplit (raw : Json) (children : Option (List (Option (LeafTree SplitInfo α)))) :
    Option (LeafTree SplitInfo α) := do
  let id ← raw.getStr? "id"
  let direction ← (raw.getStr? "direction").bind decodeSplitDirection
  let children ← children.bind (·.mapM fun child => child)
  let sizes ← (raw.getArr? "sizes").bind (·.mapM Json.num?)
  return .split { id, direction, sizes } children

/-- The node schemas: the union of a leaf and a split schema, told apart by tag. -/
def decodeNode (decodeLeaf : Json → Option α) : Json → Option (LeafTree SplitInfo α) :=
  Json.recurse fun raw resultsAt =>
    if raw.getStr? "_tag" = some leafTag then (decodeLeaf raw).map .leaf
    else if raw.getStr? "_tag" = some splitTag then decodeSplit raw (resultsAt "children")
    else none

end Nodes

def decodePanelNode : Json → Option PanelNode :=
  decodeNode "LeafNode" "SplitNode" decodeLeafNode

def decodePanelTab (raw : Json) : Option PanelTab := do
  let id ← raw.getStr? "id"
  let label ← decodeOptionalString raw "label"
  let panelLayout ← (raw.get? "panelLayout").bind decodePanelNode
  let focusedPaneId ← decodeOptionalString raw "focusedPaneId"
  return { focusedPaneId, id, label, panelLayout }

def decodeTileLeaf (raw : Json) : Option WorkspaceTileLeaf := do
  let id ← raw.getStr? "id"
  let workspaceId ← raw.getStr? "workspaceId"
  let panelTabs ← (raw.getArr? "panelTabs").bind (·.mapM decodePanelTab)
  let activePanelTabId ← decodeOptionalString raw "activePanelTabId"
  return { activePanelTabId, id, panelTabs, workspaceId }

def decodeTileNode : Json → Option WorkspaceTileNode :=
  decodeNode "WorkspaceTileLeaf" "WorkspaceTileSplit" decodeTileLeaf

def decodeOptionalTileNode (raw : Json) (key : String) : Option (Option WorkspaceTileNode) :=
  match raw.get? key with
  | none => some none
  | some value => (decodeTileNode value).map some

def decodeWindowTab (raw : Json) : Option WindowTab := do
  let focusedWorkspaceTileId ← decodeOptionalString raw "focusedWorkspaceTileId"
  let id ← raw.getStr? "id"
  let label ← decodeOptionalString raw "label"
  let workspaceLayout ← decodeOptionalTileNode raw "workspaceLayout"
  return { focusedWorkspaceTileId, id, label, workspaceLayout }

def decodeLayout (raw : Json) : Option WindowLayout := do
  let tabs ← (raw.getArr? "tabs").bind (·.mapM decodeWindowTab)
  let activeTabId ← decodeOptionalString raw "activeTabId"
  return { activeTabId, tabs }

/-! ## Repair transforms -/

/-- Sizes are kept when there is a positive one for each child, else equalized. -/
def repairSizesTransform (sizes : List ℚ) (expectedLength : ℕ) : List ℚ :=
  if sizes.length = expectedLength ∧ ∀ s ∈ sizes, 0 < s then sizes
  else List.replicate expectedLength (100 / expectedLength)

/-- The current id when it names a tab, else the first tab. An empty id counts
as none. -/
def resolveActiveId (current : Option String) (validIds : List String) : Option String :=
  match current with
  | none => validIds.head?
  | some id => if id ≠ "" ∧ id ∈ validIds then some id else validIds.head?

/-- `resolveActiveTabId`: the same for window tabs. -/
def resolveActiveTabId (activeTabId : Option String) (tabs : List WindowTab) : Option String :=
  resolveActiveId activeTabId (tabs.map (·.id))

section Repair

variable {α : Type} (repairLeaf : α → α)

/-- Repair a tree from the leaves up: a split with one child is that child, and
the sizes of any other split are repaired. -/
def repairNode : LeafTree SplitInfo α → LeafTree SplitInfo α
  | .leaf a => .leaf (repairLeaf a)
  | .split info children => collapse info (list children)
where
  /-- A split over repaired children. -/
  collapse (info : SplitInfo) : List (LeafTree SplitInfo α) → LeafTree SplitInfo α
    | [only] => only
    | repairedChildren =>
      .split { info with sizes := repairSizesTransform info.sizes repairedChildren.length }
        repairedChildren
  /-- The children repaired. -/
  list : List (LeafTree SplitInfo α) → List (LeafTree SplitInfo α)
    | [] => []
    | child :: rest => repairNode child :: list rest

end Repair

def repairPanelNodeTransform : PanelNode → PanelNode :=
  repairNode id

def repairPanelTabTransform (tab : PanelTab) : PanelTab :=
  { tab with panelLayout := repairPanelNodeTransform tab.panelLayout }

/-- Repair the panel tabs of a frame and resolve its active one. -/
def repairTileLeafTransform (tile : WorkspaceTileLeaf) : WorkspaceTileLeaf :=
  let repairedTabs := tile.panelTabs.map repairPanelTabTransform
  { tile with
    panelTabs := repairedTabs
    activePanelTabId := resolveActiveId tile.activePanelTabId (repairedTabs.map (·.id)) }

def repairWorkspaceTileTransform : WorkspaceTileNode → WorkspaceTileNode :=
  repairNode repairTileLeafTransform

def repairWindowTabTransform (tab : WindowTab) : WindowTab :=
  { tab with workspaceLayout := tab.workspaceLayout.map repairWorkspaceTileTransform }

/-- Drop window tabs without an id, repair the others and resolve the active one. -/
def repairTransforms (layout : WindowLayout) : WindowLayout :=
  let repairedTabs := (layout.tabs.filter (·.id ≠ "")).map repairWindowTabTransform
  { tabs := repairedTabs, activeTabId := resolveActiveTabId layout.activeTabId repairedTabs }

/-! ## Lenient recovery -/

/-- A string under the key that is not empty. -/
def getNonEmptyStr? (raw : Json) (key : String) : Option String :=
  (raw.getStr? key).filter (· ≠ "")

/-- Recover a pane; optional fields that are not strings are dropped, and
`command` always is. -/
def lenientDecodeLeafNode (raw : Json) : Option LeafNode := do
  let id ← getNonEmptyStr? raw "id"
  let paneType ← (raw.getStr? "paneType").bind decodePaneType
  return { command := none, id, paneType, terminalId := raw.getStr? "terminalId",
           workspaceId := raw.getStr? "workspaceId" }

section Nodes

variable {α : Type} (leafTag splitTag : String)

/-- The sizes of a recovered split; what is not an array of numbers is replaced. -/
def lenientSizes (raw : Json) (expectedLength : ℕ) : List ℚ :=
  repairSizesTransform (((raw.getArr? "sizes").bind (·.mapM Json.num?)).getD []) expectedLength

/-- Recover a split from the children that could be recovered. -/
def lenientDecodeSplit (raw : Json)
    (children : Option (List (Option (LeafTree SplitInfo α)))) : Option (LeafTree SplitInfo α) := do
  let id ← getNonEmptyStr? raw "id"
  let direction ← (raw.getStr? "direction").bind decodeSplitDirection
  let validChildren ← children.map fun cs => cs.filterMap fun child => child
  match validChildren with
  | [] => none
  | [only] => return only
  | _ => return .split { id, direction, sizes := lenientSizes raw validChildren.length }
          validChildren

/-- Recover a node: take it as it is when the schema accepts it, else by tag. -/
def lenientDecodeNode (decodeLeaf lenientDecodeLeaf : Json → Option α) :
    Json → Option (LeafTree SplitInfo α) :=
  Json.recurse fun raw resultsAt =>
    match decodeNode leafTag splitTag decodeLeaf raw with
    | some node => some node
    | none =>
      if raw.getStr? "_tag" = some leafTag then (lenientDecodeLeaf raw).map .leaf
      else if raw.getStr? "_tag" = some splitTag then lenientDecodeSplit raw (resultsAt "children")
      else none

end Nodes

def lenientDecodePanelNode : Json → Option PanelNode :=
  lenientDecodeNode "LeafNode" "SplitNode" decodeLeafNode lenientDecodeLeafNode

/-- Recover a panel tab; it needs an id and a pane tree. -/
def lenientDecodePanelTab (raw : Json) : Option PanelTab :=
  match (decodePanelTab raw).filter (·.id ≠ "") with
  | some tab => some tab
  | none => do
    let id ← getNonEmptyStr? raw "id"
    let panelLayout ← (raw.get? "panelLayout").bind lenientDecodePanelNode
    return { focusedPaneId := raw.getStr? "focusedPaneId", id, label := raw.getStr? "label",
             panelLayout }

/-- Recover a frame with the panel tabs that could be recovered. -/
def lenientDecodeTileLeaf (raw : Json) : Option WorkspaceTileLeaf := do
  let id ← getNonEmptyStr? raw "id"
  let workspaceId ← getNonEmptyStr? raw "workspaceId"
  let panelTabs := ((raw.getArr? "panelTabs").getD []).filterMap lenientDecodePanelTab
  return { activePanelTabId := resolveActiveId (raw.getStr? "activePanelTabId")
             (panelTabs.map (·.id))
           id, panelTabs, workspaceId }

def lenientDecodeTileNode : Json → Option WorkspaceTileNode :=
  lenientDecodeNode "WorkspaceTileLeaf" "WorkspaceTileSplit" decodeTileLeaf lenientDecodeTileLeaf

/-- The value of a tab's layout field, unless it is null. -/
def rawWorkspaceLayout (raw : Json) : Option Json :=
  match raw.get? "workspaceLayout" with
  | some .null => none
  | value => value

/-- Recover a window tab; it needs an id. The focused frame is not recovered. -/
def lenientDecodeWindowTab (raw : Json) : Option WindowTab :=
  match (decodeWindowTab raw).filter (·.id ≠ "") with
  | some tab => some tab
  | none => do
    let id ← getNonEmptyStr? raw "id"
    return { focusedWorkspaceTileId := none, id, label := raw.getStr? "label",
             workspaceLayout := (rawWorkspaceLayout raw).bind lenientDecodeTileNode }

structure RepairWindowLayoutResult where
  wasRepaired : Bool
  windowLayout : Option WindowLayout

/-- Recover a layout; without an array of tabs there is none. -/
def lenientDecodeWindowLayout (input : Json) : RepairWindowLayoutResult :=
  match input.getArr? "tabs" with
  | none => { windowLayout := none, wasRepaired := true }
  | some rawTabs =>
    match rawTabs.filterMap lenientDecodeWindowTab with
    | [] => { windowLayout := some { tabs := [], activeTabId := none }, wasRepaired := true }
    | validTabs =>
      let activeTabId := resolveActiveTabId (input.getStr? "activeTabId") validTabs
      { windowLayout := some (repairTransforms { tabs := validTabs, activeTabId })
        wasRepaired := true }

/-- Decode a persisted layout and say whether anything was repaired. -/
def decodeWindowLayout (input : Json) : RepairWindowLayoutResult :=
  match decodeLayout input with
  | some decoded =>
    { windowLayout := some (repairTransforms decoded)
      wasRepaired := decide (repairTransforms decoded ≠ decoded) }
  | none => lenientDecodeWindowLayout input

/-! ## Encoding

A layout as the value that is stored; keys of absent fields are left out. -/

def optionalField (key : String) (value : Option String) : List (String × Json) :=
  value.toList.map fun s => (key, .str s)

def encodeSplitDirection : SplitDirection → String
  | .horizontal => "horizontal"
  | .vertical => "vertical"

def encodePaneType : PaneType → String
  | .agent => "agent"
  | .terminal => "terminal"

section Nodes

variable {α : Type} (splitTag : String) (encodeLeaf : α → Json)

def encodeNode : LeafTree SplitInfo α → Json
  | .leaf a => encodeLeaf a
  | .split info children =>
    .obj [("_tag", .str splitTag), ("id", .str info.id),
      ("direction", .str (encodeSplitDirection info.direction)),
      ("children", .arr (list children)), ("sizes", .arr (info.sizes.map .num))]
where
  /-- The children as stored values. -/
  list : List (LeafTree SplitInfo α) → List Json
    | [] => []
    | child :: rest => encodeNode child :: list rest

end Nodes

def encodeLeafNode (pane : LeafNode) : Json :=
  .obj ([("_tag", .str "LeafNode"), ("id", .str pane.id),
    ("paneType", .str (encodePaneType pane.paneType))] ++ optionalField "command" pane.command ++
    optionalField "terminalId" pane.terminalId ++ optionalField "workspaceId" pane.workspaceId)

def encodePanelNode : PanelNode → Json :=
  encodeNode "SplitNode" encodeLeafNode

def encodePanelTab (tab : PanelTab) : Json :=
  .obj ([("id", .str tab.id), ("panelLayout", encodePanelNode tab.panelLayout)] ++
    optionalField "label" tab.label ++ optionalField "focusedPaneId" tab.focusedPaneId)

def encodeTileLeaf (tile : WorkspaceTileLeaf) : Json :=
  .obj ([("_tag", .str "WorkspaceTileLeaf"), ("id", .str tile.id),
    ("workspaceId", .str tile.workspaceId), ("panelTabs", .arr (tile.panelTabs.map encodePanelTab))]
    ++ optionalField "activePanelTabId" tile.activePanelTabId)

def encodeTileNode : WorkspaceTileNode → Json :=
  encodeNode "WorkspaceTileSplit" encodeTileLeaf

def encodeWindowTab (tab : WindowTab) : Json :=
  .obj ([("id", .str tab.id)] ++ optionalField "label" tab.label ++
    optionalField "focusedWorkspaceTileId" tab.focusedWorkspaceTileId ++
    tab.workspaceLayout.toList.map fun root => ("workspaceLayout", encodeTileNode root))

def encodeWindowLayout (layout : WindowLayout) : Json :=
  .obj ([("tabs", .arr (layout.tabs.map encodeWindowTab))] ++
    optionalField "activeTabId" layout.activeTabId)

end Laborer.Panels
