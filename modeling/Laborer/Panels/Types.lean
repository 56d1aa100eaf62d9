import Laborer.Library.LeafTree
import Mathlib.Data.Rat.Defs

/-!
# Layout data model

The hierarchical panel layout of `packages/shared/src/types.ts`: a window holds
tabs, a tab holds a tree of workspace tiles, a tile holds panel tabs, and a
panel tab holds a tree of panes. Both trees are split trees with percentages;
sizes are exact rationals in place of floating-point numbers.

An optional field of the source is an `Option`; an absent key and an explicit
`undefined` are the same value there.
-/

namespace Laborer.Panels

open Laborer.Library List

inductive SplitDirection where
  | horizontal
  | vertical
deriving DecidableEq

inductive PaneType where
  | agent
  | terminal
deriving DecidableEq

/-- The fields of a split node other than its children: those of `SplitNode`
and of `WorkspaceTileSplit` alike. -/
structure SplitInfo where
  id : String
  direction : SplitDirection
  sizes : List ℚ
deriving DecidableEq

/-- A pane. `command` is the spawn intent its terminal was created with. -/
structure LeafNode where
  command : Option String
  id : String
  paneType : PaneType
  terminalId : Option String
  workspaceId : Option String
deriving DecidableEq

/-- The split tree of panes inside a panel tab. -/
abbrev PanelNode := LeafTree SplitInfo LeafNode

structure PanelTab where
  focusedPaneId : Option String
  id : String
  label : Option String
  panelLayout : PanelNode
deriving DecidableEq

structure WorkspaceTileLeaf where
  activePanelTabId : Option String
  id : String
  panelTabs : List PanelTab
  workspaceId : String
deriving DecidableEq

/-- The split tree of workspace frames inside a window tab. -/
abbrev WorkspaceTileNode := LeafTree SplitInfo WorkspaceTileLeaf

structure WindowTab where
  focusedWorkspaceTileId : Option String
  id : String
  label : Option String
  workspaceLayout : Option WorkspaceTileNode
deriving DecidableEq

structure WindowLayout where
  activeTabId : Option String
  tabs : List WindowTab
deriving DecidableEq

/-! ## Node ids -/

class HasNodeId (α : Type) where
  leafId : α → String

instance : HasNodeId LeafNode := ⟨LeafNode.id⟩

instance : HasNodeId WorkspaceTileLeaf := ⟨WorkspaceTileLeaf.id⟩

section NodeIds

variable {α : Type} [HasNodeId α]

/-- `node.id`, for a leaf or a split. -/
def nodeId : LeafTree SplitInfo α → String
  | .leaf a => HasNodeId.leafId a
  | .split b _ => b.id

def nodeIds (t : LeafTree SplitInfo α) : List String :=
  t.splits.map (·.1.id) ++ t.leaves.map HasNodeId.leafId

@[simp] theorem nodeIds_leaf (a : α) :
    nodeIds (.leaf a : LeafTree SplitInfo α) = [HasNodeId.leafId a] := rfl

theorem nodeId_mem_nodeIds (t : LeafTree SplitInfo α) : nodeId t ∈ nodeIds t := by
  cases t <;> simp [nodeIds, nodeId]

theorem nodeIds_split_perm (b : SplitInfo) (cs : List (LeafTree SplitInfo α)) :
    (nodeIds (.split b cs)).Perm (b.id :: cs.flatMap nodeIds) := by
  simp only [nodeIds, LeafTree.splits_split, LeafTree.leaves_split, map_cons,
    cons_append, map_flatMap]
  exact (flatMap_append_perm cs _ _).cons b.id

end NodeIds

/-- The panes of a panel tree, left to right. -/
abbrev getLeafNodes (node : PanelNode) : List LeafNode := node.leaves

/-- `getWorkspaceTileLeaves`: the workspace frames of a tile tree, left to right. -/
abbrev getWorkspaceTileLeaves (node : WorkspaceTileNode) : List WorkspaceTileLeaf := node.leaves

end Laborer.Panels
