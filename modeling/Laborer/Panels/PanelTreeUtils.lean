import Laborer.Panels.WorkspaceTileUtils

/-!
# Pane tree operations

The functions of `panel-tree-utils.ts` on the split tree of panes inside one
panel tab. A string result that the source tests with `if (found)` is dropped
when it is empty; `truthy` marks these places.
-/

namespace Laborer.Panels

open Laborer.Library List

/-- What `if (s)` lets through for an optional string: a non-empty one. -/
def truthy (s : Option String) : Option String :=
  s.filter (· ≠ "")

/-- Depth-first search of a leaf for a string. A result from below a split is
passed over when it is empty. -/
def searchLeaves {α : Type} (f : α → Option String) : LeafTree SplitInfo α → Option String
  | .leaf a => f a
  | .split _ children => list children
where
  /-- The first truthy result among the children. -/
  list : List (LeafTree SplitInfo α) → Option String
    | [] => none
    | child :: rest =>
      match truthy (searchLeaves f child) with
      | some found => some found
      | none => list rest

theorem truthy_eq_some {s : Option String} {x : String} :
    truthy s = some x ↔ s = some x ∧ x ≠ "" := by
  simp [truthy, Option.filter_eq_some_iff]

theorem searchLeaves_list_eq {α : Type} (f : α → Option String) (cs : List (LeafTree SplitInfo α)) :
    searchLeaves.list f cs = cs.findSome? fun c => truthy (searchLeaves f c) := by
  induction cs with
  | nil => rfl
  | cons c cs ih =>
    rw [searchLeaves.list, findSome?_cons, ih]
    cases truthy (searchLeaves f c) <;> rfl

theorem truthy_searchLeaves {α : Type} (f : α → Option String) (t : LeafTree SplitInfo α) :
    truthy (searchLeaves f t) = t.leaves.findSome? fun a => truthy (f a) := by
  induction t using LeafTree.childInduction with
  | leaf a => simp [searchLeaves]
  | split info cs ih =>
    rw [searchLeaves, searchLeaves_list_eq, LeafTree.leaves_split]
    induction cs with
    | nil => rfl
    | cons c cs ihcs =>
      rw [forall_mem_cons] at ih
      rw [findSome?_cons, flatMap_cons, findSome?_append, ← ih.1, ← ihcs ih.2]
      cases hc : truthy (searchLeaves f c) with
      | none => rfl
      | some x =>
        exact truthy_eq_some.mpr ⟨rfl, (truthy_eq_some.mp hc).2⟩

/-! ## Leaf queries -/

/-- The first pane id found depth-first; an empty id below a split is passed over. -/
def getFirstLeafId (node : PanelNode) : Option String :=
  searchLeaves (fun pane => some pane.id) node

def getLeafIds (node : PanelNode) : List String :=
  node.leaves.map (·.id)

def findLeaf (node : PanelNode) (paneId : String) : Option LeafNode :=
  node.leaves.find? (·.id = paneId)

def containsPane (node : PanelNode) (paneId : String) : Bool :=
  node.leaves.any (·.id = paneId)

def countLeaves (node : PanelNode) : ℕ :=
  node.leaves.length

/-! ## Split pane -/

/-- Requested content of a new pane; every field may be left out. -/
structure PaneContent where
  command : Option String
  paneType : Option PaneType
  terminalId : Option String
  workspaceId : Option String

/-- A pane next to a sibling, in the sibling's workspace unless told otherwise. -/
def createSiblingPane (siblingWorkspaceId : Option String) (content : PaneContent) (g : IdGen) :
    LeafNode × IdGen :=
  let paneId := g.generateId "pane"
  ({ id := paneId.1
     command := content.command
     paneType := content.paneType.getD .terminal
     terminalId := content.terminalId
     workspaceId := content.workspaceId.or siblingWorkspaceId }, paneId.2)

def isPane (paneId : String) : PanelNode → Bool
  | .leaf pane => pane.id = paneId
  | .split _ _ => false

/-- Split a pane: insert the sibling next to it in a split of the same
direction, otherwise wrap the pane in a new split. -/
def splitPane (paneId : String) (direction : SplitDirection) (content : PaneContent) :
    PanelNode → IdGen → PanelNode × IdGen
  | .leaf pane, g =>
    if pane.id = paneId then
      let newPane := createSiblingPane pane.workspaceId content g
      let splitId := newPane.2.generateId "split"
      (.split ⟨splitId.1, direction, [50, 50]⟩ [.leaf pane, .leaf newPane.1], splitId.2)
    else (.leaf pane, g)
  | .split info children, g =>
    let target :=
      if info.direction = direction then
        (children.findIdx? (isPane paneId)).bind fun i =>
          match children[i]? with
          | some (.leaf pane) => some (i, pane)
          | _ => none
      else none
    match target with
    | some (i, pane) =>
      let newPane := createSiblingPane pane.workspaceId content g
      let newChildren := children.take (i + 1) ++ .leaf newPane.1 :: children.drop (i + 1)
      (.split { info with sizes := equalSizes newChildren } newChildren, newPane.2)
    | none =>
      let newChildren := list children g
      (.split info newChildren.1, newChildren.2)
where
  /-- The children rewritten left to right, threading the id generator. -/
  list : List PanelNode → IdGen → List PanelNode × IdGen
    | [], g => ([], g)
    | child :: rest, g =>
      let newChild := splitPane paneId direction content child g
      let newRest := list rest newChild.2
      (newChild.1 :: newRest.1, newRest.2)

/-- The last pane of a subtree; a split without children has none. -/
def getLastEdgeLeaf : PanelNode → Option LeafNode
  | .leaf pane => some pane
  | .split _ children => list children
where
  /-- The last pane of the last child. -/
  list : List PanelNode → Option LeafNode
    | [] => none
    | [child] => getLastEdgeLeaf child
    | _ :: child :: rest => list (child :: rest)

/-- Append a pane after the entire tree: inside a root split of the same
direction, otherwise beside the root in a new split. -/
def appendPane (root : PanelNode) (direction : SplitDirection) (content : PaneContent)
    (g : IdGen) : PanelNode × IdGen :=
  let newPane := createSiblingPane ((getLastEdgeLeaf root).bind (·.workspaceId)) content g
  let wrapped :=
    let splitId := newPane.2.generateId "split"
    (LeafTree.split ⟨splitId.1, direction, [50, 50]⟩ [root, .leaf newPane.1], splitId.2)
  match root with
  | .leaf _ => wrapped
  | .split info children =>
    if info.direction = direction then
      let newChildren := children ++ [.leaf newPane.1]
      (.split { info with sizes := equalSizes newChildren } newChildren, newPane.2)
    else wrapped

/-! ## Close pane -/

/-- What remains of a split after a removal: nothing, its only child, or a
split with equal sizes. -/
def collapseChildren (info : SplitInfo) : List PanelNode → Option PanelNode
  | [] => none
  | [only] => some only
  | children => some (.split { info with sizes := equalSizes children } children)

/-- Close a pane. A direct child is removed first; otherwise the pane is closed
in every child. `none` when nothing of the tree is left. -/
def closePane (paneId : String) : PanelNode → Option PanelNode
  | .leaf pane => if pane.id = paneId then none else some (.leaf pane)
  | .split info children =>
    match children.findIdx? (isPane paneId) with
    | some targetIndex => collapseChildren info (children.eraseIdx targetIndex)
    | none =>
      let results := list children
      if results = children.map some then some (.split info children)
      else collapseChildren info (results.filterMap id)
where
  /-- The result for each child. -/
  list : List PanelNode → List (Option PanelNode)
    | [] => []
    | child :: rest => closePane paneId child :: list rest

/-- Where focus goes when a pane is closed: the first pane of the sibling
after it, else of the one before it. -/
def findSiblingPaneId (paneId : String) : PanelNode → Option String
  | .leaf _ => none
  | .split _ children =>
    match children.findIdx? (isPane paneId) with
    | some idx =>
      let before := if idx = 0 then none else children[idx - 1]?
      (children[idx + 1]?.or before).bind getFirstLeafId
    | none => list children
where
  /-- The first truthy result among the children. -/
  list : List PanelNode → Option String
    | [] => none
    | child :: rest =>
      match truthy (findSiblingPaneId paneId child) with
      | some found => some found
      | none => list rest

/-- The pane that a split added: the first id that was not there before. -/
def findNewLeafAfterSplit (before after : PanelNode) : Option LeafNode :=
  (truthy ((getLeafIds after).find? fun id => id ∉ getLeafIds before)).bind (findLeaf after)

/-! ## Updating one pane -/

/-- Assign a terminal and its spawn command to the panes with the given id. -/
def assignTerminal (paneId terminalId : String) (command : Option String) (node : PanelNode) :
    PanelNode :=
  node.mapLeaves fun pane =>
    if pane.id = paneId then { pane with terminalId := some terminalId, command } else pane

end Laborer.Panels
