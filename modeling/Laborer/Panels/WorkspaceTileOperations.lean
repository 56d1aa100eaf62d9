import Laborer.Library.Runs
import Laborer.Panels.WorkspaceTileColumns

/-!
# All workspace tile operations together

The eight edits of a window tab as one type of operations, with what each does
to the multiset of workspace frames. A frame is compared with all its panel
tabs, so an equation between multisets says that no terminal is lost.
-/

namespace Laborer.Panels

open Laborer.Library List

inductive TileOperation where
  | addWorkspaceToTab (workspaceId : String) (belowWorkspaceId : Option String)
  | removeWorkspaceFromTab (workspaceId : String)
  | splitWorkspaceTile (workspaceId newWorkspaceId : String) (direction : SplitDirection)
  | resizeWorkspaceTiles (nodeId : String) (direction : ResizeDirection)
  | reorderWorkspaceTiles (workspaceOrder : List String)
  | moveWorkspaceTileToEdge (source target : String) (edge : WorkspaceDropEdge)
  | moveWorkspaceTileBelow (source parent : String)
  | cleanUpWorkspaceTiles (area : TabContentArea) (minColumnWidthPx minTileHeightPx : ℚ)

namespace TileOperation

def run (op : TileOperation) (tab : WindowTab) (g : IdGen) : WindowTab × IdGen :=
  match op with
  | addWorkspaceToTab w below => Panels.addWorkspaceToTab tab w below g
  | removeWorkspaceFromTab w => (Panels.removeWorkspaceFromTab tab w, g)
  | splitWorkspaceTile w new direction => Panels.splitWorkspaceTile tab w new direction g
  | resizeWorkspaceTiles id direction => (Panels.resizeWorkspaceTiles tab id direction, g)
  | reorderWorkspaceTiles order => Panels.reorderWorkspaceTiles tab order g
  | moveWorkspaceTileToEdge source target edge =>
    Panels.moveWorkspaceTileToEdge tab source target edge g
  | moveWorkspaceTileBelow source parent => Panels.moveWorkspaceTileBelow tab source parent g
  | cleanUpWorkspaceTiles area minWidth minHeight =>
    Panels.cleanUpWorkspaceTiles tab area minWidth minHeight g

end TileOperation

/-! ## Tabs -/

def tabNodeIds (tab : WindowTab) : List String :=
  tab.workspaceLayout.elim [] nodeIds

/-- A tab that is empty or holds a well-formed tile tree. -/
def WellFormedTab (tab : WindowTab) : Prop :=
  ∀ root, tab.workspaceLayout = some root → WellFormedTile root

namespace TileOperation

/-- The workspace an edit adds to the tab, if any. A split adds one when its
target is in the tab. -/
def adds (op : TileOperation) (tab : WindowTab) : Option String :=
  match op with
  | addWorkspaceToTab w _ => some w
  | splitWorkspaceTile w new _ => if w ∈ tabWorkspaceIds tab then some new else none
  | _ => none

def removes : TileOperation → Option String
  | removeWorkspaceFromTab w => some w
  | _ => none

/-- The frames after the edit: one empty frame more for each added workspace,
those of a removed workspace gone, and otherwise the same ones. -/
def LeavesAfter (op : TileOperation) (before after : WindowTab) : Prop :=
  match op.adds before, op.removes with
  | some w, _ => ∃ id, (tabLeaves after : Multiset WorkspaceTileLeaf) =
      emptyTile id w ::ₘ (tabLeaves before : Multiset WorkspaceTileLeaf)
  | none, some w => (tabLeaves after : Multiset WorkspaceTileLeaf) =
      (tabLeaves before : Multiset WorkspaceTileLeaf).filter fun leaf => leaf.workspaceId ≠ w
  | none, none => (tabLeaves after : Multiset WorkspaceTileLeaf) = tabLeaves before

/-- What every edit establishes: a well-formed tab, a generator ahead of its
ids, and the right frames. -/
structure Sound (op : TileOperation) (before after : WindowTab) (g' : IdGen) : Prop where
  wellFormed : WellFormedTab after
  fresh : g'.Fresh (tabNodeIds after)
  leaves : op.LeavesAfter before after

variable {op : TileOperation} {tab : WindowTab}

theorem sound_of_rearranges {after : WindowTab} {g' : IdGen}
    {root : WorkspaceTileNode} (hroot : tab.workspaceLayout = some root)
    (hadds : op.adds tab = none) (hremoves : op.removes = none)
    (h : ∃ root', after = { tab with workspaceLayout := some root' } ∧
      Rearranges g' root root') : op.Sound tab after g' := by
  obtain ⟨root', rfl, hleaves, hwf, hfresh⟩ := h
  refine ⟨?_, hfresh, ?_⟩
  · intro r hr
    cases hr
    exact hwf
  · rw [LeavesAfter, hadds, hremoves]
    simp only [tabLeaves, hroot, optionLeaves_some]
    exact Multiset.coe_eq_coe.mpr hleaves

variable {g : IdGen} {w : String}

theorem sound_of_inserts {after : WindowTab} {g' : IdGen}
    {root root' : WorkspaceTileNode} (hroot : tab.workspaceLayout = some root)
    (hadds : op.adds tab = some w) (hwf : WellFormedTile root) (hfresh : g.Fresh (nodeIds root))
    (hnew : w ∉ workspaceIds root) (hafter : after = { tab with workspaceLayout := some root' })
    (h : Inserts g g' w root root') : op.Sound tab after g' := by
  obtain ⟨hwf', hfresh'⟩ := h.wellFormed hwf hfresh hnew
  obtain ⟨id, hleaves⟩ := h.leaves
  subst hafter
  refine ⟨?_, hfresh', ?_⟩
  · intro r hr
    cases hr
    exact hwf'
  · rw [LeavesAfter, hadds]
    refine ⟨id, ?_⟩
    simp only [tabLeaves, hroot, optionLeaves_some]
    exact Multiset.coe_eq_coe.mpr hleaves

theorem sound_refl
    (hwf : WellFormedTab tab) (hfresh : g.Fresh (tabNodeIds tab)) (hadds : op.adds tab = none)
    (hremoves : op.removes = none) : op.Sound tab tab g :=
  ⟨hwf, hfresh, by rw [LeavesAfter, hadds, hremoves]⟩

theorem sound_add (hwf : WellFormedTab tab)
    (hfresh : g.Fresh (tabNodeIds tab)) (hnew : w ∉ tabWorkspaceIds tab) (below : Option String) :
    (addWorkspaceToTab w below).Sound tab ((addWorkspaceToTab w below).run tab g).1
      ((addWorkspaceToTab w below).run tab g).2 := by
  cases hroot : tab.workspaceLayout with
  | some root =>
    obtain ⟨root', hafter, hins⟩ := addWorkspaceToTab_inserts hroot
      (acceptsTile_of_splitOk (hwf root hroot).splits_ok) (hwf root hroot).workspaceIds_nodup
      w below g
    refine sound_of_inserts hroot rfl (hwf root hroot) ?_ ?_ hafter hins
    · simpa [tabNodeIds, hroot] using hfresh
    · simpa [tabWorkspaceIds, tabLeaves, hroot, workspaceIds] using hnew
  | none =>
    -- an empty tab gets a single leaf
    have hrun : (addWorkspaceToTab w below).run tab g =
        ({ tab with workspaceLayout := some (.leaf (createWorkspaceTileLeaf g w).1) },
          (createWorkspaceTileLeaf g w).2) := by
      simp [run, Panels.addWorkspaceToTab, hroot]
    rw [hrun]
    refine ⟨?_, ?_, (g.generateId "ws-tile").1, ?_⟩
    · intro r hr
      cases hr
      exact ⟨nodup_singleton _, nodup_singleton _, LeafTree.allSplits_leaf _ _⟩
    · have hids : g.Fresh [] := fun _ _ _ => not_mem_nil
      exact (IdGen.Draws.generateId g "ws-tile").fresh hids
    · simp only [tabLeaves, hroot, optionLeaves_none, optionLeaves_some]
      rfl

theorem sound_remove (hwf : WellFormedTab tab) (hfresh : g.Fresh (tabNodeIds tab)) (w : String) :
    (removeWorkspaceFromTab w).Sound tab (Panels.removeWorkspaceFromTab tab w) g := by
  have hleaves : (removeWorkspaceFromTab w).LeavesAfter tab
      (Panels.removeWorkspaceFromTab tab w) := by
    show (tabLeaves (Panels.removeWorkspaceFromTab tab w) : Multiset WorkspaceTileLeaf) = _
    rw [tabLeaves_removeWorkspaceFromTab]
    rfl
  suffices WellFormedTab (Panels.removeWorkspaceFromTab tab w) ∧
      g.Fresh (tabNodeIds (Panels.removeWorkspaceFromTab tab w)) from ⟨this.1, this.2, hleaves⟩
  cases hroot : tab.workspaceLayout with
  | none =>
    simp only [Panels.removeWorkspaceFromTab, hroot]
    exact ⟨hwf, hfresh⟩
  | some root =>
    simp only [Panels.removeWorkspaceFromTab, hroot]
    refine ⟨?_, ?_⟩
    · intro r hr
      exact (removeTileRecursive_wellFormed (hwf root hroot) hr).1
    · cases hrem : removeTileRecursive w root with
      | none => exact fun _ _ _ => not_mem_nil
      | some root' =>
        have hsub := (removeTileRecursive_wellFormed (hwf root hroot) hrem).2.subset
        refine hfresh.mono ?_
        simpa [tabNodeIds, hroot] using hsub

theorem sound_split (hwf : WellFormedTab tab)
    (hfresh : g.Fresh (tabNodeIds tab)) {new : String} {dir : SplitDirection}
    (hnew : w ∈ tabWorkspaceIds tab → new ∉ tabWorkspaceIds tab) :
    (splitWorkspaceTile w new dir).Sound tab (Panels.splitWorkspaceTile tab w new dir g).1
      (Panels.splitWorkspaceTile tab w new dir g).2 := by
  cases hroot : tab.workspaceLayout with
  | none =>
    have hadds : (splitWorkspaceTile w new dir).adds tab = none := by
      simp [adds, tabWorkspaceIds, tabLeaves, hroot]
    simpa [Panels.splitWorkspaceTile, hroot] using sound_refl hwf hfresh hadds rfl
  | some root =>
    have hids : tabWorkspaceIds tab = workspaceIds root := by
      simp [tabWorkspaceIds, tabLeaves, hroot, workspaceIds]
    have hfreshRoot : g.Fresh (nodeIds root) := by simpa [tabNodeIds, hroot] using hfresh
    simp only [Panels.splitWorkspaceTile, hroot]
    by_cases hmem : w ∈ workspaceIds root
    · have hadds : (splitWorkspaceTile w new dir).adds tab = some new := by
        simp [adds, hids, hmem]
      exact sound_of_inserts hroot hadds (hwf root hroot) hfreshRoot (hids ▸ hnew (hids ▸ hmem)) rfl
        (splitTileRecursive_inserts new dir hmem (hwf root hroot).workspaceIds_nodup g)
    · have hadds : (splitWorkspaceTile w new dir).adds tab = none := by
        simp [adds, hids, hmem]
      rw [splitTileRecursive_of_not_mem hmem]
      exact sound_of_rearranges hroot hadds rfl ⟨root, rfl, .refl (hwf root hroot) hfreshRoot⟩

/-- **Soundness of the tile operations**: on a well-formed tab every edit that
adds no workspace twice yields a well-formed tab and loses no frame. -/
theorem run_sound (op : TileOperation) (hwf : WellFormedTab tab)
    (hfresh : g.Fresh (tabNodeIds tab))
    (hnew : ∀ w, op.adds tab = some w → w ∉ tabWorkspaceIds tab) :
    op.Sound tab (op.run tab g).1 (op.run tab g).2 := by
  -- the edits that rearrange return an empty tab as it is
  have hrearrange : op.adds tab = none → op.removes = none →
      (tab.workspaceLayout = none → op.run tab g = (tab, g)) →
      (∀ root, tab.workspaceLayout = some root → WellFormedTile root → g.Fresh (nodeIds root) →
        ∃ root', (op.run tab g).1 = { tab with workspaceLayout := some root' } ∧
          Rearranges (op.run tab g).2 root root') →
      op.Sound tab (op.run tab g).1 (op.run tab g).2 := by
    intro hadds hremoves hempty hroots
    cases hroot : tab.workspaceLayout with
    | none =>
      rw [hempty hroot]
      exact sound_refl hwf hfresh hadds hremoves
    | some root =>
      have hfreshRoot : g.Fresh (nodeIds root) := by simpa [tabNodeIds, hroot] using hfresh
      exact sound_of_rearranges hroot hadds hremoves (hroots root hroot (hwf root hroot) hfreshRoot)
  cases op with
  | addWorkspaceToTab w below => exact sound_add hwf hfresh (hnew w rfl) below
  | removeWorkspaceFromTab w => exact sound_remove hwf hfresh w
  | splitWorkspaceTile w new dir =>
    exact sound_split hwf hfresh fun hmem => hnew new (by simp [adds, hmem])
  | resizeWorkspaceTiles id dir =>
    exact hrearrange rfl rfl (fun h => by simp [run, Panels.resizeWorkspaceTiles, h])
      fun root hroot hwf hfresh => resizeWorkspaceTiles_rearranges hroot hwf hfresh id dir
  | reorderWorkspaceTiles order =>
    exact hrearrange rfl rfl (fun h => by simp [run, Panels.reorderWorkspaceTiles, h])
      fun root hroot hwf hfresh => reorderWorkspaceTiles_rearranges hroot hwf hfresh order
  | moveWorkspaceTileToEdge source target edge =>
    exact hrearrange rfl rfl (fun h => by simp [run, Panels.moveWorkspaceTileToEdge, h])
      fun root hroot hwf hfresh =>
        moveWorkspaceTileToEdge_rearranges hroot hwf hfresh source target edge
  | moveWorkspaceTileBelow source parent =>
    exact hrearrange rfl rfl (fun h => by simp [run, Panels.moveWorkspaceTileBelow, h])
      fun root hroot hwf hfresh => moveWorkspaceTileBelow_rearranges hroot hwf hfresh source parent
  | cleanUpWorkspaceTiles area minWidth minHeight =>
    exact hrearrange rfl rfl (fun h => by simp [run, Panels.cleanUpWorkspaceTiles, h])
      fun root hroot hwf hfresh =>
        cleanUpWorkspaceTiles_rearranges hroot hwf hfresh area minWidth minHeight

/-- **Tile operations keep tabs well-formed and lose no workspace.** The added
workspace must not be in the tab already, and the ids to be drawn must not be
ids of the tab. -/
theorem run_wellFormed (op : TileOperation) (tab : WindowTab) (g : IdGen)
    (hwf : WellFormedTab tab) (hfresh : g.Fresh (tabNodeIds tab))
    (hnew : ∀ w, op.adds tab = some w → w ∉ tabWorkspaceIds tab) :
    WellFormedTab (op.run tab g).1 ∧ op.LeavesAfter tab (op.run tab g).1 :=
  have hsound := run_sound op hwf hfresh hnew
  ⟨hsound.wellFormed, hsound.leaves⟩

/-! ## One workspace, one tile -/

def oneTileTab (tileId workspaceId : String) : WindowTab :=
  { focusedWorkspaceTileId := none
    id := "tab"
    label := none
    workspaceLayout := some (.leaf (emptyTile tileId workspaceId)) }

theorem oneTileTab_wellFormed (tileId wid : String) : WellFormedTab (oneTileTab tileId wid) := by
  intro root hroot
  cases hroot
  exact ⟨nodup_singleton _, nodup_singleton _, LeafTree.allSplits_leaf _ _⟩

/-- Adding a second workspace next to the first. -/
theorem run_wellFormed_oneTileTab :
    WellFormedTab ((addWorkspaceToTab "w2" none).run (oneTileTab "t1" "w1") .sessionStart).1 ∧
      (addWorkspaceToTab "w2" none).LeavesAfter (oneTileTab "t1" "w1")
        ((addWorkspaceToTab "w2" none).run (oneTileTab "t1" "w1") .sessionStart).1 := by
  apply run_wellFormed
  · exact oneTileTab_wellFormed "t1" "w1"
  · exact IdGen.fresh_of_noDash _ (by decide)
  · intro w hw
    cases hw
    decide

/-- Three ways out of the conditions: adding the workspace the tab shows
duplicates it, splitting a workspace the tab does not show adds nothing, and an
id persisted by an earlier session can be drawn again. -/
theorem addWorkspaceToTab_duplicates :
    ¬ WellFormedTab ((addWorkspaceToTab "w1" none).run (oneTileTab "t1" "w1") .sessionStart).1 ∧
      ((splitWorkspaceTile "w2" "w3" .vertical).run (oneTileTab "t1" "w1") .sessionStart).1 =
        oneTileTab "t1" "w1" ∧ ¬ WellFormedTab
        ((addWorkspaceToTab "w2" none).run (oneTileTab "ws-tile-1-0" "w1") .sessionStart).1 := by
  refine ⟨fun h => ?_, by decide, fun h => ?_⟩
  · exact absurd (h _ rfl).workspaceIds_nodup (by decide)
  · exact absurd (h _ rfl).nodeIds_nodup (by decide)

end TileOperation

end Laborer.Panels
