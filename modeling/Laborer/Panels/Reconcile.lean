import Laborer.Panels.WindowLayoutUtils

/-!
# Respawning stale terminals

At start-up the layout may name terminals that no longer exist. Their panes are
collected (`getStaleTerminalLeavesHierarchical`), a terminal is spawned for each
(`respawnStaleTerminals`), and the layout is rewritten with the new ids
(`reconcileWindowLayout`).

What an attempt to spawn does is an input: it may succeed, be refused while the
server is initializing, fail, or time out, and then still come up later.
-/

namespace Laborer.Panels

open Laborer.Library List

/-! ## Panes of a layout -/

def tilePanes (tile : WorkspaceTileLeaf) : List LeafNode :=
  tile.panelTabs.flatMap fun tab => getLeafNodes tab.panelLayout

/-- The panes of a layout, in the order the source walks them. -/
def layoutPanes (layout : WindowLayout) : List LeafNode :=
  (getAllWorkspaceTileLeaves layout).flatMap tilePanes

def mapPanesInTile (f : LeafNode → LeafNode) (tile : WorkspaceTileLeaf) : WorkspaceTileLeaf :=
  { tile with
    panelTabs := tile.panelTabs.map fun tab =>
      { tab with panelLayout := tab.panelLayout.mapLeaves f } }

def mapPanes (f : LeafNode → LeafNode) (layout : WindowLayout) : WindowLayout :=
  { layout with
    tabs := layout.tabs.map fun tab =>
      { tab with workspaceLayout := tab.workspaceLayout.map (·.mapLeaves (mapPanesInTile f)) } }

/-! ## Stale panes -/

structure StaleTerminalLeaf where
  command : Option String
  paneId : String
  terminalId : String
  workspaceId : Option String
deriving DecidableEq

/-- A pane is stale when its terminal is not among the live ones. -/
def staleLeaf? (liveTerminalIds : List String) (pane : LeafNode) : Option StaleTerminalLeaf :=
  match pane.terminalId with
  | none => none
  | some terminalId =>
    if terminalId ∈ liveTerminalIds then none
    else some { command := pane.command, paneId := pane.id, terminalId,
                workspaceId := pane.workspaceId }

def getStaleTerminalLeavesHierarchical (layout : WindowLayout) (liveTerminalIds : List String) :
    List StaleTerminalLeaf :=
  (layoutPanes layout).filterMap (staleLeaf? liveTerminalIds)

/-! ## Rewriting terminal ids -/

def reconcileLeaf (liveTerminalIds : List String) (respawnedIds : OrderedMap String String)
    (pane : LeafNode) : LeafNode :=
  match pane.terminalId with
  | none => pane
  | some terminalId =>
    if terminalId ∈ liveTerminalIds then pane
    else { pane with terminalId := respawnedIds.get? terminalId }

def reconcileWindowLayout (layout : WindowLayout) (liveTerminalIds : List String)
    (respawnedIds : OrderedMap String String) : WindowLayout :=
  mapPanes (reconcileLeaf liveTerminalIds respawnedIds) layout

/-! ## Spawning with retries -/

inductive AttemptOutcome where
  /-- The spawn returned a terminal in time. -/
  | spawned (id : String)
  /-- It failed with a message that includes `still initializing`. -/
  | initializing
  /-- It failed otherwise. -/
  | failed
  /-- It did not return in time; the terminal may still come up. -/
  | timedOut (late : Option String)
deriving DecidableEq

/-- The loop of `retryOnInitializing` from a given attempt on. -/
def retryFrom (attempts : ℕ → AttemptOutcome) : ℕ → ℕ → Option String
  | retriesLeft, attempt =>
    match attempts attempt, retriesLeft with
    | .spawned id, _ => some id
    | .initializing, retriesLeft + 1 => retryFrom attempts retriesLeft (attempt + 1)
    | _, _ => none

/-- Try until a terminal is spawned, as long as the server is initializing. A
timeout is not tried again. -/
def retryOnInitializing (maxRetries : ℕ) (attempts : ℕ → AttemptOutcome) : Option String :=
  retryFrom attempts maxRetries 0

/-- The terminals that come up through the attempts that are made, after a
timeout included. -/
def terminalsStarted (attempts : ℕ → AttemptOutcome) : ℕ → ℕ → List String
  | retriesLeft, attempt =>
    match attempts attempt, retriesLeft with
    | .spawned id, _ => [id]
    | .initializing, retriesLeft + 1 => terminalsStarted attempts retriesLeft (attempt + 1)
    | .timedOut late, _ => late.toList
    | _, _ => []

/-! ## Respawning -/

structure Respawns where
  respawnedIds : OrderedMap String String
  failedStaleIds : List String
deriving DecidableEq

/-- A spawn is attempted for a pane with a workspace and a terminal id. -/
def attempted (leaf : StaleTerminalLeaf) : Bool :=
  (truthy leaf.workspaceId).isSome && leaf.terminalId ≠ ""

/-- Record the result of a spawn under the old terminal id. -/
def recordRespawn (leaf : StaleTerminalLeaf) (result : Option String) (respawns : Respawns) :
    Respawns :=
  match result with
  | some id => { respawns with respawnedIds := respawns.respawnedIds.set leaf.terminalId id }
  | none => { respawns with failedStaleIds := respawns.failedStaleIds ++ [leaf.terminalId] }

def respawnOne (maxRetries : ℕ) (respawns : Respawns)
    (entry : StaleTerminalLeaf × (ℕ → AttemptOutcome)) : Respawns :=
  if attempted entry.1 then
    recordRespawn entry.1 (retryOnInitializing maxRetries entry.2) respawns
  else respawns

def respawnStaleTerminals (maxRetries : ℕ)
    (staleLeaves : List (StaleTerminalLeaf × (ℕ → AttemptOutcome))) : Respawns :=
  staleLeaves.foldl (respawnOne maxRetries) { respawnedIds := [], failedStaleIds := [] }

/-- The ids that the reconciliation treats as live: terminals whose respawn
failed keep their panes. -/
def effectiveLiveIds (liveIds : List String) (respawns : Respawns) : List String :=
  liveIds ++ respawns.failedStaleIds

/-! ## Rewriting panes -/

@[simp] theorem tilePanes_mapPanesInTile (f : LeafNode → LeafNode) (tile : WorkspaceTileLeaf) :
    tilePanes (mapPanesInTile f tile) = (tilePanes tile).map f := by
  simp [tilePanes, mapPanesInTile, flatMap_map, map_flatMap]

theorem getAllWorkspaceTileLeaves_mapPanes (f : LeafNode → LeafNode) (layout : WindowLayout) :
    getAllWorkspaceTileLeaves (mapPanes f layout) =
      (getAllWorkspaceTileLeaves layout).map (mapPanesInTile f) := by
  simp only [getAllWorkspaceTileLeaves, mapPanes, flatMap_map, map_flatMap]
  refine flatMap_congr fun tab _ => ?_
  cases tab.workspaceLayout with
  | none => rfl
  | some root => simp [getWorkspaceTileLeaves]

@[simp] theorem layoutPanes_mapPanes (f : LeafNode → LeafNode) (layout : WindowLayout) :
    layoutPanes (mapPanes f layout) = (layoutPanes layout).map f := by
  simp only [layoutPanes, getAllWorkspaceTileLeaves_mapPanes, flatMap_map, map_flatMap,
    tilePanes_mapPanesInTile]

theorem mapPanesInTile_mapPanesInTile (f g : LeafNode → LeafNode) (tile : WorkspaceTileLeaf) :
    mapPanesInTile g (mapPanesInTile f tile) = mapPanesInTile (g ∘ f) tile := by
  simp [mapPanesInTile]

theorem mapPanes_mapPanes (f g : LeafNode → LeafNode) (layout : WindowLayout) :
    mapPanes g (mapPanes f layout) = mapPanes (g ∘ f) layout := by
  have hcomp : mapPanesInTile g ∘ mapPanesInTile f = mapPanesInTile (g ∘ f) :=
    funext (mapPanesInTile_mapPanesInTile f g)
  simp only [mapPanes, map_map]
  congr 1
  refine map_congr_left fun tab _ => ?_
  cases h : tab.workspaceLayout <;> simp [h, hcomp]

theorem mapPanes_congr {f g : LeafNode → LeafNode} {layout : WindowLayout}
    (h : ∀ pane ∈ layoutPanes layout, f pane = g pane) : mapPanes f layout = mapPanes g layout := by
  simp only [mapPanes]
  congr 1
  refine map_congr_left fun tab htab => ?_
  cases hroot : tab.workspaceLayout with
  | none => rfl
  | some root =>
    have htiles : root.mapLeaves (mapPanesInTile f) = root.mapLeaves (mapPanesInTile g) := by
      refine LeafTree.mapLeaves_congr fun tile htile => ?_
      simp only [mapPanesInTile]
      congr 1
      refine map_congr_left fun panelTab hpanelTab => ?_
      congr 1
      refine LeafTree.mapLeaves_congr fun pane hpane => h pane ?_
      refine mem_flatMap.mpr ⟨tile, mem_flatMap.mpr ⟨tab, htab, ?_⟩,
        mem_flatMap.mpr ⟨panelTab, hpanelTab, hpane⟩⟩
      simpa [hroot] using htile
    simp [htiles]

theorem mapPanes_id (layout : WindowLayout) : mapPanes id layout = layout := by
  have htile : mapPanesInTile id = id := by
    funext tile
    simp [mapPanesInTile]
  have htab : (fun tab : WindowTab =>
      { tab with workspaceLayout := tab.workspaceLayout.map (·.mapLeaves (mapPanesInTile id)) }) =
      id := by
    funext tab
    cases h : tab.workspaceLayout <;> simp [htile, ← h]
  simp [mapPanes, htab]

end Laborer.Panels
