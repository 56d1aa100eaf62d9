import Laborer.Library.OrderedMap
import Laborer.Panels.IdUtils
import Laborer.Panels.Types
import Mathlib.Data.Rat.Floor

/-!
# Workspace tile operations

The functions of `workspace-tile-utils.ts` that edit the workspace tile tree of
one window tab. Functions that call `generateId` take the generator and return
it advanced.

The source returns the same object when nothing changed and compares references
(`!==`). Every edit that builds a new object there changes the number of leaves,
or does not depend on the comparison, so structural comparison decides the same.
-/

namespace Laborer.Panels

open Laborer.Library

/-! ## Constants -/

/-- `MIN_TILE_SIZE`: a tile is never resized below this percentage. -/
def minTileSize : ℚ := 5

def resizeStep : ℚ := 5

def maxWorkspaceRowsPerColumn : ℕ := 4

inductive WorkspaceDropEdge where
  | top
  | bottom
  | left
  | right
deriving DecidableEq

inductive ResizeDirection where
  | left
  | right
  | up
  | down

/-! ## Internal helpers -/

/-- `xs.map(() => 100 / xs.length)`: one equal share for every entry. -/
def equalSizes {α : Type} (xs : List α) : List ℚ :=
  xs.map fun _ => 100 / xs.length

def createWorkspaceTileLeaf (g : IdGen) (workspaceId : String) : WorkspaceTileLeaf × IdGen :=
  let tileId := g.generateId "ws-tile"
  ({ activePanelTabId := none, id := tileId.1, panelTabs := [], workspaceId }, tileId.2)

def isTileOf (workspaceId : String) : WorkspaceTileNode → Bool
  | .leaf tile => tile.workspaceId = workspaceId
  | .split _ _ => false

/-- The nodes from the root to the node with the given id, both included. -/
def buildTilePath (targetId : String) : WorkspaceTileNode → Option (List WorkspaceTileNode)
  | .leaf tile => if tile.id = targetId then some [.leaf tile] else none
  | .split info children =>
    if info.id = targetId then some [.split info children]
    else (list children).map (.split info children :: ·)
where
  /-- The path into the first child that has one. -/
  list : List WorkspaceTileNode → Option (List WorkspaceTileNode)
    | [] => none
    | child :: rest =>
      match buildTilePath targetId child with
      | some path => some path
      | none => list rest

/-! ## Remove workspace tile -/

/-- Remove every leaf of the workspace; `none` when nothing of the tree is left.
A split that lost or changed a child collapses onto a single remaining child,
else its sizes are equalized. -/
def removeTileRecursive (workspaceId : String) : WorkspaceTileNode → Option WorkspaceTileNode
  | .leaf tile => if tile.workspaceId = workspaceId then none else some (.leaf tile)
  | .split info children =>
    let results := list children
    if results = children.map some then some (.split info children)
    else
      match results.filterMap id with
      | [] => none
      | [only] => some only
      | newChildren => some (.split { info with sizes := equalSizes newChildren } newChildren)
where
  /-- The result for each child. -/
  list : List WorkspaceTileNode → List (Option WorkspaceTileNode)
    | [] => []
    | child :: rest => removeTileRecursive workspaceId child :: list rest

/-! ## Split workspace tile -/

/-- Place a new workspace beside the target leaf. When the target is a direct
child of a split of the same direction the new tile is inserted next to it,
otherwise the target leaf is wrapped in a new split. -/
def splitTileRecursive (targetWorkspaceId newWorkspaceId : String) (direction : SplitDirection) :
    WorkspaceTileNode → IdGen → WorkspaceTileNode × IdGen
  | .leaf tile, g =>
    if tile.workspaceId = targetWorkspaceId then
      let newTile := createWorkspaceTileLeaf g newWorkspaceId
      let splitId := newTile.2.generateId "ws-split"
      (.split ⟨splitId.1, direction, [50, 50]⟩ [.leaf tile, .leaf newTile.1], splitId.2)
    else (.leaf tile, g)
  | .split info children, g =>
    let targetIndex :=
      if info.direction = direction then children.findIdx? (isTileOf targetWorkspaceId) else none
    match targetIndex with
    | some i =>
      let newTile := createWorkspaceTileLeaf g newWorkspaceId
      let newChildren := children.take (i + 1) ++ .leaf newTile.1 :: children.drop (i + 1)
      (.split { info with sizes := equalSizes newChildren } newChildren, newTile.2)
    | none =>
      let newChildren := list children g
      (.split info newChildren.1, newChildren.2)
where
  /-- The children rewritten left to right, threading the id generator. -/
  list : List WorkspaceTileNode → IdGen → List WorkspaceTileNode × IdGen
    | [], g => ([], g)
    | child :: rest, g =>
      let newChild :=
        splitTileRecursive targetWorkspaceId newWorkspaceId direction child g
      let newRest := list rest newChild.2
      (newChild.1 :: newRest.1, newRest.2)

/-! ## Add, remove and split in a window tab -/

/-- Index of the first smallest count, found by the source's left-to-right scan. -/
def fewestLeavesIndex (leafCounts : List ℕ) : ℕ :=
  (List.range' 1 (leafCounts.length - 1)).foldl
    (fun targetIndex i =>
      if leafCounts.getD i 0 < leafCounts.getD targetIndex 0 then i else targetIndex) 0

/-- The column extended by a tile: appended to a vertical split, else stacked
below whatever the column holds. -/
def appendToColumn (targetColumn : WorkspaceTileNode) (newTile : WorkspaceTileLeaf) (g : IdGen) :
    WorkspaceTileNode × IdGen :=
  let wrapped :=
    let splitId := g.generateId "ws-split"
    (LeafTree.split ⟨splitId.1, .vertical, [50, 50]⟩ [targetColumn, .leaf newTile], splitId.2)
  match targetColumn with
  | .leaf _ => wrapped
  | .split info children =>
    if info.direction = .vertical then
      let newChildren := children ++ [.leaf newTile]
      (.split { info with sizes := equalSizes newChildren } newChildren, g)
    else wrapped

/-- Add a tile at the end of a tile tree: stacked under a leaf or a vertical
root, into the column with the fewest workspaces under a horizontal root. -/
def appendTile (root : WorkspaceTileNode) (newTile : WorkspaceTileLeaf) (g : IdGen) :
    WorkspaceTileNode × IdGen :=
  match root with
  | .leaf _ => appendToColumn root newTile g
  | .split info children =>
    if info.direction = .vertical then appendToColumn root newTile g
    else
      let leafCounts := children.map fun child => (getWorkspaceTileLeaves child).length
      let targetIndex := fewestLeavesIndex leafCounts
      match children[targetIndex]? with
      | none => (root, g)
      | some targetColumn =>
        let newColumn := appendToColumn targetColumn newTile g
        (.split info (children.set targetIndex newColumn.1), newColumn.2)

/-- Add a workspace to a window tab, below `belowWorkspaceId` when that
workspace is open, otherwise at the end of the layout. -/
def addWorkspaceToTab (tab : WindowTab) (workspaceId : String)
    (belowWorkspaceId : Option String) (g : IdGen) : WindowTab × IdGen :=
  let newTile := createWorkspaceTileLeaf g workspaceId
  match tab.workspaceLayout with
  | none => ({ tab with workspaceLayout := some (.leaf newTile.1) }, newTile.2)
  | some root =>
    let appended (g : IdGen) : WindowTab × IdGen :=
      let layout := appendTile root newTile.1 g
      ({ tab with workspaceLayout := some layout.1 }, layout.2)
    match belowWorkspaceId with
    | none => appended newTile.2
    | some below =>
      let placed := splitTileRecursive below workspaceId .vertical root newTile.2
      if placed.1 ≠ root then ({ tab with workspaceLayout := some placed.1 }, placed.2)
      else appended placed.2

def removeWorkspaceFromTab (tab : WindowTab) (workspaceId : String) : WindowTab :=
  match tab.workspaceLayout with
  | none => tab
  | some root => { tab with workspaceLayout := removeTileRecursive workspaceId root }

/-- Split a workspace's tile to place a new workspace beside it. -/
def splitWorkspaceTile (tab : WindowTab) (workspaceId newWorkspaceId : String)
    (direction : SplitDirection) (g : IdGen) : WindowTab × IdGen :=
  match tab.workspaceLayout with
  | none => (tab, g)
  | some root =>
    let newLayout := splitTileRecursive workspaceId newWorkspaceId direction root g
    ({ tab with workspaceLayout := some newLayout.1 }, newLayout.2)

/-! ## Resize -/

/-- The change a keyboard direction makes to a split of the given orientation. -/
def getResizeDelta : ResizeDirection → SplitDirection → Option ℚ
  | .right, .horizontal => some resizeStep
  | .left, .horizontal => some (-resizeStep)
  | .down, .vertical => some resizeStep
  | .up, .vertical => some (-resizeStep)
  | _, _ => none

/-- The sizes of a split after moving `delta` points between a child and its
neighbour; `none` without a neighbour or below the minimum. -/
def applyResizeDelta (info : SplitInfo) (childCount childIndex : ℕ) (delta : ℚ) :
    Option (List ℚ) :=
  if delta ≤ 0 ∧ childIndex = 0 then none
  else
    let siblingIndex := if 0 < delta then childIndex + 1 else childIndex - 1
    if childCount ≤ siblingIndex then none
    else
      let newSize := info.sizes.getD childIndex 50 + delta
      let newSiblingSize := info.sizes.getD siblingIndex 50 - delta
      if newSize < minTileSize ∨ newSiblingSize < minTileSize then none
      else some ((info.sizes.set childIndex newSize).set siblingIndex newSiblingSize)

/-- Walk up from the target: `(ancestor, child)` pairs of the path, innermost
first. The first ancestor whose orientation matches decides. -/
def computeTileResize (direction : ResizeDirection) :
    List (WorkspaceTileNode × WorkspaceTileNode) → Option (String × List ℚ)
  | [] => none
  | (.leaf _, _) :: rest => computeTileResize direction rest
  | (.split info children, childInPath) :: rest =>
    match getResizeDelta direction info.direction with
    | none => computeTileResize direction rest
    | some delta =>
      match children.findIdx? (fun c => nodeId c = nodeId childInPath) with
      | none => computeTileResize direction rest
      | some childIndex =>
        (applyResizeDelta info children.length childIndex delta).map (info.id, ·)

def applySplitSizes (splitNodeId : String) (newSizes : List ℚ) :
    WorkspaceTileNode → WorkspaceTileNode
  | .leaf tile => .leaf tile
  | .split info children =>
    if info.id = splitNodeId then .split { info with sizes := newSizes } children
    else .split info (list children)
where
  /-- `applySplitSizes` along a list of children. -/
  list : List WorkspaceTileNode → List WorkspaceTileNode
    | [] => []
    | child :: rest => applySplitSizes splitNodeId newSizes child :: list rest

/-- Move `RESIZE_STEP` points between a tile and its neighbour. -/
def resizeWorkspaceTiles (tab : WindowTab) (targetId : String) (direction : ResizeDirection) :
    WindowTab :=
  match tab.workspaceLayout with
  | none => tab
  | some root =>
    match buildTilePath targetId root with
    | none => tab
    | some path =>
      match computeTileResize direction (path.zip path.tail).reverse with
      | none => tab
      | some (splitNodeId, newSizes) =>
        { tab with workspaceLayout := some (applySplitSizes splitNodeId newSizes root) }

/-! ## Reorder -/

/-- One step of the ordering loop: move the named leaf, if still there, to the result. -/
def reorderStep (state : List WorkspaceTileLeaf × OrderedMap String WorkspaceTileLeaf)
    (workspaceId : String) : List WorkspaceTileLeaf × OrderedMap String WorkspaceTileLeaf :=
  match state.2.get? workspaceId with
  | some leaf => (state.1 ++ [leaf], state.2.delete workspaceId)
  | none => state

/-- The leaves in the requested order, the unmentioned ones at the end. -/
def orderedLeaves (leaves : List WorkspaceTileLeaf) (workspaceOrder : List String) :
    List WorkspaceTileLeaf :=
  let remaining := OrderedMap.ofEntries (leaves.map fun leaf => (leaf.workspaceId, leaf))
  let state := workspaceOrder.foldl reorderStep ([], remaining)
  state.1 ++ state.2.values

/-- Rebuild the layout as one flat split in the given workspace order. -/
def reorderWorkspaceTiles (tab : WindowTab) (workspaceOrder : List String) (g : IdGen) :
    WindowTab × IdGen :=
  match tab.workspaceLayout with
  | none => (tab, g)
  | some root =>
    let leaves := getWorkspaceTileLeaves root
    if leaves.length ≤ 1 then (tab, g)
    else
      let ordered := orderedLeaves leaves workspaceOrder
      let orderChanged := ordered.zipIdx.any fun (leaf, i) =>
        some leaf.workspaceId ≠ (leaves[i]?).map (·.workspaceId)
      if !orderChanged then (tab, g)
      else
        match ordered with
        | [only] => ({ tab with workspaceLayout := some (.leaf only) }, g)
        | _ =>
          let rootDirection :=
            match root with
            | .leaf _ => SplitDirection.vertical
            | .split info _ => info.direction
          let splitId := g.generateId "ws-split"
          ({ tab with
              workspaceLayout := some
                (.split ⟨splitId.1, rootDirection, equalSizes ordered⟩ (ordered.map .leaf)) },
            splitId.2)

/-! ## Column-based layout -/

/-- A column arrangement: for each column its leaves from top to bottom. -/
abbrev Columns := List (List WorkspaceTileLeaf)

/-- A horizontal root has one column per child; any other root is one column. -/
def getWorkspaceColumns : WorkspaceTileNode → Columns
  | .leaf tile => [[tile]]
  | .split info children =>
    if info.direction = .horizontal then children.map getWorkspaceTileLeaves
    else [getWorkspaceTileLeaves (.split info children)]

/-- The ordered leaf ids of a column, its identity across rebuilds. -/
def columnSignature (column : List WorkspaceTileLeaf) : List String :=
  column.map (·.id)

def columnNodes (root : WorkspaceTileNode) : List WorkspaceTileNode :=
  match root with
  | .leaf _ => [root]
  | .split info children => if info.direction = .horizontal then children else [root]

/-- Each existing column's signature with the node that holds the column. -/
def buildPreviousColumnIndex (previousRoot : WorkspaceTileNode) :
    OrderedMap (List String) WorkspaceTileNode :=
  OrderedMap.ofEntries
    (((getWorkspaceColumns previousRoot).map columnSignature).zip (columnNodes previousRoot))

/-- The node for one column. A previous split with the same leaves in the same
order keeps its id, and its row sizes unless they are to be equalized. -/
def buildColumnNode (previousBySignature : OrderedMap (List String) WorkspaceTileNode)
    (equalizeRows : Bool) (column : List WorkspaceTileLeaf) (g : IdGen) :
    WorkspaceTileNode × IdGen :=
  let fresh :=
    let splitId := g.generateId "ws-split"
    (LeafTree.split ⟨splitId.1, .vertical, equalSizes column⟩ (column.map .leaf), splitId.2)
  match column with
  | [only] => (.leaf only, g)
  | _ =>
    match previousBySignature.get? (columnSignature column) with
    | some (.split info _) =>
      let sizes :=
        if equalizeRows ∨ info.sizes.length ≠ column.length then equalSizes column else info.sizes
      (.split ⟨info.id, .vertical, sizes⟩ (column.map .leaf), g)
    | _ => fresh

/-- `buildColumnNode` for every column in order, threading the id generator. -/
def buildColumnNodes (previousBySignature : OrderedMap (List String) WorkspaceTileNode)
    (equalizeRows : Bool) : Columns → IdGen → List WorkspaceTileNode × IdGen
  | [], g => ([], g)
  | column :: rest, g =>
    let node := buildColumnNode previousBySignature equalizeRows column g
    let nodes := buildColumnNodes previousBySignature equalizeRows rest node.2
    (node.1 :: nodes.1, nodes.2)

/-- The column widths: the given ones when they fit, else equal ones. -/
def columnWidths (columnSizes : Option (List ℚ)) (nodes : List WorkspaceTileNode) : List ℚ :=
  match columnSizes with
  | some widths =>
    if widths.length = nodes.length ∧ ∀ size ∈ widths, 0 < size then widths else equalSizes nodes
  | none => equalSizes nodes

/-- The id of a horizontal root: that of the previous one, if it was horizontal. -/
def columnsRootId (previousRoot : WorkspaceTileNode) (g : IdGen) : String × IdGen :=
  match previousRoot with
  | .split info _ =>
    if info.direction = .horizontal then (info.id, g) else g.generateId "ws-split"
  | .leaf _ => g.generateId "ws-split"

/-- A tile tree from columns: one column is its own node, several are the
children of a horizontal root. -/
def buildColumnsLayout (columns : Columns) (columnSizes : Option (List ℚ)) (equalizeRows : Bool)
    (previousRoot : WorkspaceTileNode) (g : IdGen) : Option WorkspaceTileNode × IdGen :=
  let nonEmpty := columns.filter fun column => 0 < column.length
  let children :=
    buildColumnNodes (buildPreviousColumnIndex previousRoot) equalizeRows nonEmpty g
  match children.1 with
  | [] => (none, children.2)
  | [only] => (some only, children.2)
  | nodes =>
    let rootId := columnsRootId previousRoot children.2
    (some (.split ⟨rootId.1, .horizontal, columnWidths columnSizes nodes⟩ nodes), rootId.2)

/-- The workspace ids of a column arrangement, compared to detect a change. -/
def columnsArrangement (columns : Columns) : List (List String) :=
  columns.map fun column => column.map (·.workspaceId)

/-! ## Move to an edge -/

def lastColumnIndex (columns : Columns) (workspaceId : String) : Option ℕ :=
  columns.zipIdx.foldl
    (fun found (column, columnIndex) =>
      if column.any (·.workspaceId = workspaceId) then some columnIndex else found) none

/-- The columns without the source's leaves, the leaf taken out of the last
column that had one, and the column of the target. -/
def extractSourceLeaf (columns : Columns) (sourceWorkspaceId targetWorkspaceId : String) :
    Option (Columns × WorkspaceTileLeaf × ℕ) :=
  let working := columns.map fun column => column.eraseP (·.workspaceId = sourceWorkspaceId)
  let sourceLeaf :=
    (columns.filterMap fun column => column.find? (·.workspaceId = sourceWorkspaceId)).getLast?
  let targetColumnIndex :=
    if sourceWorkspaceId = targetWorkspaceId then
      columns.findIdx? fun column => column.any (·.workspaceId = sourceWorkspaceId)
    else lastColumnIndex working targetWorkspaceId
  match sourceLeaf, targetColumnIndex with
  | some leaf, some index => some (working, leaf, index)
  | _, _ => none

/-- Insert the leaf at the requested edge of the target: as a column of its own
on the sides, inside the target's column above or below it. -/
def insertLeafAtEdge (working : Columns) (sourceLeaf : WorkspaceTileLeaf)
    (targetColumnIndex : ℕ) (targetWorkspaceId : String) (edge : WorkspaceDropEdge) :
    Option Columns :=
  let atRow (below : ℕ) : Option Columns :=
    match working[targetColumnIndex]? with
    | none => none
    | some targetColumn =>
      (targetColumn.findIdx? (·.workspaceId = targetWorkspaceId)).map fun targetRow =>
        working.set targetColumnIndex (targetColumn.insertIdx (targetRow + below) sourceLeaf)
  match edge with
  | .left => some (working.insertIdx targetColumnIndex [sourceLeaf])
  | .right => some (working.insertIdx (targetColumnIndex + 1) [sourceLeaf])
  | .top => atRow 0
  | .bottom => atRow 1

/-- The widths of a horizontal root, kept when the number of columns is. -/
def previousColumnSizes (root : WorkspaceTileNode) (columnCount : ℕ) : Option (List ℚ) :=
  match root with
  | .split info children =>
    if info.direction = .horizontal ∧ children.length = columnCount then some info.sizes else none
  | .leaf _ => none

def moveWorkspaceTileToEdge (tab : WindowTab) (sourceWorkspaceId targetWorkspaceId : String)
    (edge : WorkspaceDropEdge) (g : IdGen) : WindowTab × IdGen :=
  match tab.workspaceLayout with
  | none => (tab, g)
  | some root =>
    if sourceWorkspaceId = targetWorkspaceId ∧ (edge = .top ∨ edge = .bottom) then (tab, g)
    else
      let columns := getWorkspaceColumns root
      let moved :=
        (extractSourceLeaf columns sourceWorkspaceId targetWorkspaceId).bind
          fun (working, sourceLeaf, targetColumnIndex) =>
            insertLeafAtEdge working sourceLeaf targetColumnIndex targetWorkspaceId edge
      match moved with
      | none => (tab, g)
      | some working =>
        let nextColumns := working.filter fun column => 0 < column.length
        if columnsArrangement nextColumns = columnsArrangement columns then (tab, g)
        else
          let previousSizes := previousColumnSizes root nextColumns.length
          match buildColumnsLayout nextColumns previousSizes false root g with
          | (none, g) => (tab, g)
          | (some newLayout, g) => ({ tab with workspaceLayout := some newLayout }, g)

/-! ## Move below a workspace -/

/-- Move the source row directly below the parent row of one vertical split and
equalize the rows. Looking for the parent after the source was taken out finds
nothing when both are the same row; the row is then put first. -/
def moveRowBelow (info : SplitInfo) (children : List WorkspaceTileNode)
    (sourceIndex parentIndex : ℕ) (parentWorkspaceId : String) : WorkspaceTileNode :=
  if sourceIndex = parentIndex + 1 then
    .split { info with sizes := equalSizes children } children
  else
    match children[sourceIndex]? with
    | none => .split info children
    | some source =>
      let without := children.eraseIdx sourceIndex
      let nextParentIndex :=
        match without.findIdx? (isTileOf parentWorkspaceId) with
        | some i => i + 1
        | none => 0
      let moved := without.insertIdx nextParentIndex source
      .split { info with sizes := equalSizes moved } moved

/-- Reorder direct rows of the first vertical column that holds both
workspaces; `none` when there is no such column. -/
def moveBelowInSharedColumn (sourceWorkspaceId parentWorkspaceId : String) :
    WorkspaceTileNode → Option WorkspaceTileNode
  | .leaf _ => none
  | .split info children =>
    let rows :=
      if info.direction = .vertical then
        (children.findIdx? (isTileOf sourceWorkspaceId)).bind fun sourceIndex =>
          (children.findIdx? (isTileOf parentWorkspaceId)).map fun parentIndex =>
            (sourceIndex, parentIndex)
      else none
    match rows with
    | some (sourceIndex, parentIndex) =>
      some (moveRowBelow info children sourceIndex parentIndex parentWorkspaceId)
    | none => (list children).map (.split info)
where
  /-- The children with the first one that handles the move replaced. -/
  list : List WorkspaceTileNode → Option (List WorkspaceTileNode)
    | [] => none
    | child :: rest =>
      match moveBelowInSharedColumn sourceWorkspaceId parentWorkspaceId child with
      | some moved => some (moved :: rest)
      | none => (list rest).map (child :: ·)

def moveWorkspaceTileBelow (tab : WindowTab) (sourceWorkspaceId parentWorkspaceId : String)
    (g : IdGen) : WindowTab × IdGen :=
  match tab.workspaceLayout with
  | none => (tab, g)
  | some root =>
    match moveBelowInSharedColumn sourceWorkspaceId parentWorkspaceId root with
    | some node => ({ tab with workspaceLayout := some node }, g)
    | none => moveWorkspaceTileToEdge tab sourceWorkspaceId parentWorkspaceId .bottom g

/-! ## Clean up -/

/-- Pixel dimensions of a tab's content area; `none` is a measurement that is
not a finite number. -/
structure TabContentArea where
  heightPx : Option ℚ
  widthPx : Option ℚ

/-- Fall back to the minimum when a measurement is missing or nonsensical. -/
def usableSize (measuredPx : Option ℚ) (minimumPx : ℚ) : ℚ :=
  match measuredPx with
  | some px => if 0 < px then px else minimumPx
  | none => minimumPx

/-- `Math.floor(size / minimum)` of a usable size: division by a zero minimum
is `Infinity` (`⊤`), or `NaN` (`none`) when the size is that zero minimum. -/
def floorQuotient (size minimum : ℚ) : Option (WithTop ℤ) :=
  if minimum = 0 then if size = 0 then none else some ⊤
  else some (⌊size / minimum⌋ : ℤ)

/-- Number of columns for `count` workspaces: the fewest that give every frame
its minimum height with at most four rows each, as far as the width allows.
`none` is `NaN`. -/
def computeCleanUpColumnCount (count : ℕ) (area : TabContentArea)
    (minColumnWidthPx minTileHeightPx : ℚ) : Option ℕ :=
  let width := usableSize area.widthPx minColumnWidthPx
  let height := usableSize area.heightPx minTileHeightPx
  match floorQuotient height minTileHeightPx, floorQuotient width minColumnWidthPx with
  | some rows, some columns =>
    let rowsPerColumn :=
      match rows with
      | ⊤ => maxWorkspaceRowsPerColumn
      | (n : ℤ) => max 1 (min maxWorkspaceRowsPerColumn n.toNat)
    let columnsForHeight := (count + rowsPerColumn - 1) / rowsPerColumn
    match columns with
    | ⊤ => some (min count columnsForHeight)
    | (n : ℤ) => some (min (min count (max 1 n.toNat)) columnsForHeight)
  | _, _ => none

/-- Consecutive slices of the leaves: `extra` of them one longer than `base`. -/
def sliceColumns (base : ℕ) : ℕ → ℕ → List WorkspaceTileLeaf → Columns
  | 0, _, _ => []
  | columnCount + 1, extra, leaves =>
    let size := base + if 0 < extra then 1 else 0
    leaves.take size :: sliceColumns base columnCount (extra - 1) (leaves.drop size)

/-- Repack a tab's workspaces into balanced columns in reading order. -/
def cleanUpWorkspaceTiles (tab : WindowTab) (area : TabContentArea)
    (minColumnWidthPx minTileHeightPx : ℚ) (g : IdGen) : WindowTab × IdGen :=
  match tab.workspaceLayout with
  | none => (tab, g)
  | some root =>
    let leaves := (getWorkspaceColumns root).flatten
    if leaves.length = 0 then (tab, g)
    else
      match computeCleanUpColumnCount leaves.length area minColumnWidthPx minTileHeightPx with
      | none => (tab, g)
      | some columnCount =>
        let nextColumns :=
          sliceColumns (leaves.length / columnCount) columnCount (leaves.length % columnCount)
            leaves
        match buildColumnsLayout nextColumns none true root g with
        | (none, g) => (tab, g)
        | (some newLayout, g) => ({ tab with workspaceLayout := some newLayout }, g)

end Laborer.Panels
