import Laborer.Panels.DecodeSound
import Laborer.Panels.FocusInvariant

/-!
# The focus of a decoded layout

Decoding takes `focusedPaneId` over without looking at the tree. A decoded
layout has the focus invariant when the stored panel tabs had it: with respect
to the panes that are recovered, not to those that were stored.
-/

namespace Laborer.Panels

open Laborer.Library List Option LeafTree

/-! ## Stored leaves -/

section Nodes

variable {α : Type} {leafTag splitTag : String} {decodeLeaf lenientDecodeLeaf : Json → Option α}

def storedLeaves (leafTag splitTag : String) : Json → List Json :=
  Json.recurse fun raw resultsAt =>
    if raw.getStr? "_tag" = some leafTag then [raw]
    else if raw.getStr? "_tag" = some splitTag then ((resultsAt "children").getD []).flatten
    else []

theorem storedLeaves_eq (raw : Json) :
    storedLeaves leafTag splitTag raw =
      if raw.getStr? "_tag" = some leafTag then [raw]
      else if raw.getStr? "_tag" = some splitTag then
        ((raw.getArr? "children").getD []).flatMap (storedLeaves leafTag splitTag)
      else [] := by
  rw [storedLeaves, Json.recurse_eq]
  dsimp only
  cases raw.getArr? "children" <;> simp [flatMap_def]

theorem forall_leaves_split {info : SplitInfo} {cs : List (LeafTree SplitInfo α)}
    {P : α → Prop} (h : ∀ c ∈ cs, ∀ a ∈ c.leaves, P a) :
    ∀ a ∈ (LeafTree.split info cs).leaves, P a := by
  intro a ha
  rw [leaves_split] at ha
  obtain ⟨c, hc, ha⟩ := mem_flatMap.mp ha
  exact h c hc a ha

theorem decodeNode_leaves (raw : Json) : ∀ t, decodeNode leafTag splitTag decodeLeaf raw = some t →
      ∀ a ∈ t.leaves, ∃ rawLeaf ∈ storedLeaves leafTag splitTag raw,
        decodeLeaf rawLeaf = some a := by
  induction raw using Json.arrayInduction with
  | step raw ih =>
    intro t h
    rw [decodeNode_eq] at h
    rw [storedLeaves_eq]
    by_cases hleaf : raw.getStr? "_tag" = some leafTag
    · rw [if_pos hleaf] at h
      obtain ⟨a, ha, rfl⟩ := map_eq_some_iff.mp h
      intro a' ha'
      rw [leaves_leaf, mem_singleton] at ha'
      exact ⟨raw, by simp [hleaf], by rw [ha, ha']⟩
    · rw [if_neg hleaf] at h
      by_cases hsplit : raw.getStr? "_tag" = some splitTag
      · rw [if_pos hsplit] at h
        obtain ⟨id, -, h⟩ := bind_eq_some_iff.mp h
        obtain ⟨dir, -, h⟩ := bind_eq_some_iff.mp h
        obtain ⟨cs, hcs, h⟩ := bind_eq_some_iff.mp h
        obtain ⟨sizes, -, h⟩ := bind_eq_some_iff.mp h
        cases h
        obtain ⟨results, hresults, hcs⟩ := bind_eq_some_iff.mp hcs
        obtain ⟨items, hitems, rfl⟩ := map_eq_some_iff.mp hresults
        rw [Json.mapM_eq_some_iff, List.map_id'] at hcs
        refine forall_leaves_split fun c hc a ha => ?_
        have hmem : some c ∈ items.map (decodeNode leafTag splitTag decodeLeaf) := by
          rw [hcs]
          exact mem_map_of_mem hc
        obtain ⟨item, hitem, hdecoded⟩ := mem_map.mp hmem
        obtain ⟨rawLeaf, hrawLeaf, hdecodedLeaf⟩ :=
          ih "children" items hitems item hitem c hdecoded a ha
        rw [if_neg hleaf, if_pos hsplit, hitems, getD_some]
        exact ⟨rawLeaf, mem_flatMap.mpr ⟨item, hitem, hrawLeaf⟩, hdecodedLeaf⟩
      · rw [if_neg hsplit] at h
        cases h

theorem lenientDecodeNode_leaves (raw : Json) :
    ∀ t, lenientDecodeNode leafTag splitTag decodeLeaf lenientDecodeLeaf raw = some t →
      ∀ a ∈ t.leaves, ∃ rawLeaf ∈ storedLeaves leafTag splitTag raw,
        decodeLeaf rawLeaf = some a ∨ lenientDecodeLeaf rawLeaf = some a := by
  induction raw using Json.arrayInduction with
  | step raw ih =>
    intro t h
    rw [lenientDecodeNode_eq] at h
    cases hstrict : decodeNode leafTag splitTag decodeLeaf raw with
    | some node =>
      rw [hstrict] at h
      cases h
      intro a ha
      obtain ⟨rawLeaf, hrawLeaf, hdecoded⟩ := decodeNode_leaves raw _ hstrict a ha
      exact ⟨rawLeaf, hrawLeaf, .inl hdecoded⟩
    | none =>
      rw [hstrict] at h
      rw [storedLeaves_eq]
      by_cases hleaf : raw.getStr? "_tag" = some leafTag
      · rw [if_pos hleaf] at h
        obtain ⟨a, ha, rfl⟩ := map_eq_some_iff.mp h
        intro a' ha'
        rw [leaves_leaf, mem_singleton] at ha'
        exact ⟨raw, by simp [hleaf], .inr (by rw [ha, ha'])⟩
      · rw [if_neg hleaf] at h
        by_cases hsplit : raw.getStr? "_tag" = some splitTag
        · rw [if_pos hsplit] at h
          obtain ⟨id, -, h⟩ := bind_eq_some_iff.mp h
          obtain ⟨dir, -, h⟩ := bind_eq_some_iff.mp h
          obtain ⟨valid, hvalid, h⟩ := bind_eq_some_iff.mp h
          obtain ⟨results, hresults, rfl⟩ := map_eq_some_iff.mp hvalid
          obtain ⟨items, hitems, rfl⟩ := map_eq_some_iff.mp hresults
          rw [if_neg hleaf, if_pos hsplit, hitems, getD_some]
          -- every recovered child was stored
          have hchildren : ∀ c ∈ (items.map (lenientDecodeNode leafTag splitTag decodeLeaf
              lenientDecodeLeaf)).filterMap (fun child => child), ∀ a ∈ c.leaves,
              ∃ rawLeaf ∈ items.flatMap (storedLeaves leafTag splitTag),
                decodeLeaf rawLeaf = some a ∨ lenientDecodeLeaf rawLeaf = some a := by
            intro c hc a ha
            obtain ⟨result, hresult, rfl⟩ := mem_filterMap.mp hc
            obtain ⟨item, hitem, hrecovered⟩ := mem_map.mp hresult
            obtain ⟨rawLeaf, hrawLeaf, hdecoded⟩ :=
              ih "children" items hitems item hitem c hrecovered a ha
            exact ⟨rawLeaf, mem_flatMap.mpr ⟨item, hitem, hrawLeaf⟩, hdecoded⟩
          split at h
          · cases h
          · next only honly =>
            cases h
            exact hchildren _ (by rw [honly]; exact mem_singleton_self _)
          · cases h
            exact forall_leaves_split hchildren
        · rw [if_neg hsplit] at h
          cases h

end Nodes

/-! ## Repairing a pane tree -/

theorem leaves_repairNode {α : Type} (repairLeaf : α → α) (t : LeafTree SplitInfo α) :
    (repairNode repairLeaf t).leaves = t.leaves.map repairLeaf := by
  induction t using childInduction with
  | leaf a => rfl
  | split info cs ih =>
    have hchildren : (repairNode.collapse info (cs.map (repairNode repairLeaf))).leaves =
        (cs.map (repairNode repairLeaf)).flatMap LeafTree.leaves := by
      match cs.map (repairNode repairLeaf) with
      | [] => rfl
      | [only] => simp [repairNode.collapse]
      | _ :: _ :: _ => rw [repairNode.collapse, leaves_split]; simp
    rw [repairNode_split, hchildren, leaves_split, map_flatMap, flatMap_map]
    exact flatMap_congr ih

def NoChildlessSplit (t : PanelNode) : Prop :=
  t.AllSplits fun _ n => 0 < n

theorem forked_repair {t : PanelNode} (h : NoChildlessSplit t) :
    Forked (repairPanelNodeTransform t) := by
  unfold repairPanelNodeTransform
  induction t using childInduction with
  | leaf pane => exact forked_leaf _
  | split info cs ih =>
    obtain ⟨hlength, hcs⟩ := (allSplits_split _ info cs).mp h
    have hchildren : ∀ c ∈ cs.map (repairNode id), Forked c := by
      intro c' hc'
      obtain ⟨c, hc, rfl⟩ := mem_map.mp hc'
      exact ih c hc (hcs c hc)
    rw [repairNode_split]
    have hlength' : 0 < (cs.map (repairNode (id : LeafNode → LeafNode))).length := by
      rwa [length_map]
    match cs.map (repairNode id), hchildren, hlength' with
    | [only], hchildren, _ => exact hchildren only (List.mem_singleton_self _)
    | c :: d :: rest, hchildren, _ => exact (forked_split _ _).mpr ⟨by simp, hchildren⟩

theorem getLeafIds_repair (t : PanelNode) :
    getLeafIds (repairPanelNodeTransform t) = getLeafIds t := by
  rw [getLeafIds, repairPanelNodeTransform, leaves_repairNode, List.map_id, getLeafIds]

/-! ## Stored panel tabs -/

def storedPanelTabs (input : Json) : List Json :=
  ((input.getArr? "tabs").getD []).flatMap fun rawTab =>
    ((rawTab.get? "workspaceLayout").elim []
      (storedLeaves "WorkspaceTileLeaf" "WorkspaceTileSplit")).flatMap fun rawTile =>
        (rawTile.getArr? "panelTabs").getD []

/-- The pane tree that is recovered from a stored panel tab has panes with ids
and no childless split, and the stored focus is one of its panes. -/
def StoredFocusSound (raw : Json) : Prop :=
  ∀ tree, (raw.get? "panelLayout").bind lenientDecodePanelNode = some tree →
    NoChildlessSplit tree ∧ (∀ id ∈ getLeafIds tree, id ≠ "") ∧
      ∀ p, raw.getStr? "focusedPaneId" = some p → p ∈ getLeafIds tree

/-- **The condition on inputs**: every stored panel tab is sound in this sense. -/
def FocusInputSound (input : Json) : Prop :=
  ∀ raw ∈ storedPanelTabs input, StoredFocusSound raw

variable {raw : Json}

theorem lenientDecodePanelNode_of_strict {t : PanelNode}
    (h : decodePanelNode raw = some t) : lenientDecodePanelNode raw = some t := by
  unfold decodePanelNode at h
  rw [lenientDecodePanelNode, lenientDecodeNode_eq, h]

theorem getStr?_of_decodeOptionalString {key : String} {value : Option String}
    (h : decodeOptionalString raw key = some value) {s : String} (hs : value = some s) :
    raw.getStr? key = some s := by
  unfold decodeOptionalString at h
  split at h
  · cases h
    cases hs
  · next v hv =>
    obtain ⟨s', hs', heq⟩ := map_eq_some_iff.mp h
    cases heq
    cases hs
    rw [Json.getStr?, hv, bind_some, hs']

variable {tab : PanelTab}

theorem panelTabOk_of_stored (hsound : StoredFocusSound raw)
    (htree : (raw.get? "panelLayout").bind lenientDecodePanelNode = some tab.panelLayout)
    (hfocus : ∀ p, tab.focusedPaneId = some p → raw.getStr? "focusedPaneId" = some p) :
    PanelTabOk (repairPanelTabTransform tab) := by
  obtain ⟨hsplits, hnamed, hfocused⟩ := hsound _ htree
  refine ⟨forked_repair hsplits, ?_, ?_⟩
  · show ∀ id ∈ getLeafIds (repairPanelNodeTransform tab.panelLayout), id ≠ ""
    rw [getLeafIds_repair]
    exact hnamed
  · intro p hp
    show p ∈ getLeafIds (repairPanelNodeTransform tab.panelLayout)
    rw [getLeafIds_repair]
    exact hfocused p (hfocus p hp)

theorem decodePanelTab_ok (hsound : StoredFocusSound raw)
    (h : decodePanelTab raw = some tab) : PanelTabOk (repairPanelTabTransform tab) := by
  obtain ⟨id, -, h⟩ := bind_eq_some_iff.mp h
  obtain ⟨label, -, h⟩ := bind_eq_some_iff.mp h
  obtain ⟨tree, htree, h⟩ := bind_eq_some_iff.mp h
  obtain ⟨focus, hfocus, h⟩ := bind_eq_some_iff.mp h
  cases h
  obtain ⟨rawTree, hrawTree, htree⟩ := bind_eq_some_iff.mp htree
  refine panelTabOk_of_stored hsound ?_ fun p hp => getStr?_of_decodeOptionalString hfocus hp
  rw [hrawTree, bind_some, lenientDecodePanelNode_of_strict htree]

theorem lenientDecodePanelTab_ok (hsound : StoredFocusSound raw)
    (h : lenientDecodePanelTab raw = some tab) : PanelTabOk (repairPanelTabTransform tab) := by
  unfold lenientDecodePanelTab at h
  split at h
  · next tab' hstrict =>
    cases h
    exact decodePanelTab_ok hsound (filter_eq_some_iff.mp hstrict).1
  · obtain ⟨id, -, h⟩ := bind_eq_some_iff.mp h
    obtain ⟨tree, htree, h⟩ := bind_eq_some_iff.mp h
    cases h
    exact panelTabOk_of_stored hsound htree fun p hp => hp

/-! ## Stored frames -/

/-- The panel tabs of a frame are sound when they are repaired. -/
def RepairsOk (tile : WorkspaceTileLeaf) : Prop :=
  ∀ tab ∈ tile.panelTabs, PanelTabOk (repairPanelTabTransform tab)

variable {tile : WorkspaceTileLeaf}

theorem exists_active_repair (hne : (repairTileLeafTransform tile).panelTabs ≠ []) :
    ∃ tab ∈ (repairTileLeafTransform tile).panelTabs,
      some tab.id = (repairTileLeafTransform tile).activePanelTabId := by
  obtain ⟨hnames, hnone⟩ := resolveActiveId_resolved tile.activePanelTabId
    ((tile.panelTabs.map repairPanelTabTransform).map (·.id))
  cases hactive : resolveActiveId tile.activePanelTabId
      ((tile.panelTabs.map repairPanelTabTransform).map (·.id)) with
  | none => exact absurd (map_eq_nil_iff.mp (hnone.mp hactive)) hne
  | some id =>
    obtain ⟨tab, htab, hid⟩ := mem_map.mp (hnames id hactive)
    refine ⟨tab, htab, ?_⟩
    show some tab.id = resolveActiveId _ _
    rw [hactive, hid]

theorem getActivePanelTab_repair_isSome (hne : (repairTileLeafTransform tile).panelTabs ≠ []) :
    (getActivePanelTab (repairTileLeafTransform tile)).isSome := by
  obtain ⟨tab, htab, hid⟩ := exists_active_repair hne
  rw [getActivePanelTab, find?_isSome]
  exact ⟨tab, htab, decide_eq_true hid⟩

theorem RepairsOk.frameOk (h : RepairsOk tile) : FrameOk (repairTileLeafTransform tile) where
  tabs := by
    intro tab' htab'
    obtain ⟨tab, htab, rfl⟩ := mem_map.mp htab'
    exact h tab htab
  active := exists_active_repair

theorem repairsOk_of_stored
    (hsound : ∀ rawTab ∈ (raw.getArr? "panelTabs").getD [], StoredFocusSound rawTab)
    (h : decodeTileLeaf raw = some tile ∨ lenientDecodeTileLeaf raw = some tile) :
    RepairsOk tile := by
  rcases h with h | h
  · obtain ⟨id, -, h⟩ := bind_eq_some_iff.mp h
    obtain ⟨w, -, h⟩ := bind_eq_some_iff.mp h
    obtain ⟨tabs, htabs, h⟩ := bind_eq_some_iff.mp h
    obtain ⟨active, -, h⟩ := bind_eq_some_iff.mp h
    cases h
    obtain ⟨items, hitems, htabs⟩ := bind_eq_some_iff.mp htabs
    rw [Json.mapM_eq_some_iff] at htabs
    intro tab htab
    have hmem : some tab ∈ items.map decodePanelTab := by
      rw [htabs]
      exact mem_map_of_mem htab
    obtain ⟨item, hitem, hdecoded⟩ := mem_map.mp hmem
    exact decodePanelTab_ok (hsound item (by rw [hitems]; exact hitem)) hdecoded
  · obtain ⟨id, -, h⟩ := bind_eq_some_iff.mp h
    obtain ⟨w, -, h⟩ := bind_eq_some_iff.mp h
    cases h
    intro tab htab
    obtain ⟨item, hitem, hdecoded⟩ := mem_filterMap.mp htab
    exact lenientDecodePanelTab_ok (hsound item hitem) hdecoded

theorem repairsOk_of_windowTab (hsound : ∀ rawTab ∈ ((raw.get? "workspaceLayout").elim []
      (storedLeaves "WorkspaceTileLeaf" "WorkspaceTileSplit")).flatMap fun rawTile =>
        (rawTile.getArr? "panelTabs").getD [], StoredFocusSound rawTab) {tab : WindowTab}
    (h : decodeWindowTab raw = some tab ∨ lenientDecodeWindowTab raw = some tab) :
    ∀ tile ∈ tabLeaves tab, RepairsOk tile := by
  -- a tree that comes from the stored layout, by either decoder
  have htree : ∀ rawLayout root, raw.get? "workspaceLayout" = some rawLayout →
      (decodeTileNode rawLayout = some root ∨ lenientDecodeTileNode rawLayout = some root) →
      ∀ tile ∈ root.leaves, RepairsOk tile := by
    intro rawLayout root hraw hroot tile htile
    have hstored : ∃ rawTile ∈ storedLeaves "WorkspaceTileLeaf" "WorkspaceTileSplit" rawLayout,
        decodeTileLeaf rawTile = some tile ∨ lenientDecodeTileLeaf rawTile = some tile := by
      rcases hroot with hroot | hroot
      · obtain ⟨rawTile, hmem, hdecoded⟩ := decodeNode_leaves rawLayout root hroot tile htile
        exact ⟨rawTile, hmem, .inl hdecoded⟩
      · exact lenientDecodeNode_leaves rawLayout root hroot tile htile
    obtain ⟨rawTile, hmem, hdecoded⟩ := hstored
    refine repairsOk_of_stored (fun rawTab hrawTab => hsound rawTab ?_) hdecoded
    rw [hraw, elim_some]
    exact mem_flatMap.mpr ⟨rawTile, hmem, hrawTab⟩
  have hstrict : decodeWindowTab raw = some tab → ∀ tile ∈ tabLeaves tab, RepairsOk tile := by
    intro h
    obtain ⟨focused, -, h⟩ := bind_eq_some_iff.mp h
    obtain ⟨id, -, h⟩ := bind_eq_some_iff.mp h
    obtain ⟨label, -, h⟩ := bind_eq_some_iff.mp h
    obtain ⟨root, hroot, h⟩ := bind_eq_some_iff.mp h
    cases h
    unfold decodeOptionalTileNode at hroot
    split at hroot
    · cases hroot
      exact fun _ htile => nomatch htile
    · next rawLayout hraw =>
      obtain ⟨tree, hdecoded, rfl⟩ := map_eq_some_iff.mp hroot
      exact htree rawLayout tree hraw (.inl hdecoded)
  rcases h with h | h
  · exact hstrict h
  · unfold lenientDecodeWindowTab at h
    split at h
    · next tab' hfilter =>
      cases h
      exact hstrict (filter_eq_some_iff.mp hfilter).1
    · obtain ⟨id, -, h⟩ := bind_eq_some_iff.mp h
      cases h
      intro tile htile
      simp only [tabLeaves] at htile
      cases hlayout : (rawWorkspaceLayout raw).bind lenientDecodeTileNode with
      | none =>
        rw [hlayout] at htile
        cases htile
      | some root =>
        rw [hlayout] at htile
        obtain ⟨rawLayout, hraw, hroot⟩ := bind_eq_some_iff.mp hlayout
        refine htree rawLayout root ?_ (.inr hroot) tile htile
        unfold rawWorkspaceLayout at hraw
        split at hraw
        · cases hraw
        · exact hraw

variable {layout : WindowLayout}

theorem repairTransforms_ok (h : ∀ tab ∈ layout.tabs, ∀ tile ∈ tabLeaves tab, RepairsOk tile) :
    LayoutOk (repairTransforms layout) := by
  intro tile' htile'
  obtain ⟨tab', htab', htile'⟩ := mem_getAllWorkspaceTileLeaves.mp htile'
  obtain ⟨tab, htab, rfl⟩ := mem_map.mp htab'
  cases hroot : tab.workspaceLayout with
  | none =>
    simp only [tabLeaves, repairWindowTabTransform, hroot, map_none] at htile'
    cases htile'
  | some root =>
    simp only [tabLeaves, repairWindowTabTransform, hroot, map_some, optionLeaves_some,
      repairWorkspaceTileTransform, leaves_repairNode] at htile'
    obtain ⟨tile, htile, rfl⟩ := mem_map.mp htile'
    refine (h tab (mem_of_mem_filter htab) tile ?_).frameOk
    rw [tabLeaves, hroot]
    exact htile

/-- **A layout decoded from a sound input has the focus invariant.** -/
theorem decodeWindowLayout_layoutOk {input : Json} (hsound : FocusInputSound input)
    (h : (decodeWindowLayout input).windowLayout = some layout) :
    LayoutOk layout := by
  have htabs : ∀ rawTab ∈ (input.getArr? "tabs").getD [], ∀ tab,
      (decodeWindowTab rawTab = some tab ∨ lenientDecodeWindowTab rawTab = some tab) →
      ∀ tile ∈ tabLeaves tab, RepairsOk tile := by
    intro rawTab hrawTab tab htab
    refine repairsOk_of_windowTab (fun raw hraw => hsound raw ?_) htab
    exact mem_flatMap.mpr ⟨rawTab, hrawTab, hraw⟩
  unfold decodeWindowLayout at h
  split at h
  · next decoded hdecoded =>
    cases h
    obtain ⟨tabs, hitems, hdecoded⟩ := bind_eq_some_iff.mp hdecoded
    obtain ⟨active, -, hdecoded⟩ := bind_eq_some_iff.mp hdecoded
    cases hdecoded
    obtain ⟨items, hitems, hmapM⟩ := bind_eq_some_iff.mp hitems
    rw [Json.mapM_eq_some_iff] at hmapM
    refine repairTransforms_ok fun tab htab => ?_
    have hmem : some tab ∈ items.map decodeWindowTab := by
      rw [hmapM]
      exact mem_map_of_mem htab
    obtain ⟨item, hitem, hdecodedTab⟩ := mem_map.mp hmem
    exact htabs item (by rw [hitems]; exact hitem) tab (.inl hdecodedTab)
  · unfold lenientDecodeWindowLayout at h
    split at h
    · cases h
    · next items hitems =>
      have hlenient : ∀ tab ∈ items.filterMap lenientDecodeWindowTab,
          ∀ tile ∈ tabLeaves tab, RepairsOk tile := by
        intro tab htab
        obtain ⟨item, hitem, hdecodedTab⟩ := mem_filterMap.mp htab
        exact htabs item (by rw [hitems]; exact hitem) tab (.inr hdecodedTab)
      split at h
      · cases h
        exact fun _ htile => nomatch htile
      · cases h
        exact repairTransforms_ok hlenient

/-! ## Stored again -/

theorem storedLeaves_encodeNode {α : Type} {leafTag splitTag : String} {encodeLeaf : α → Json}
    (hne : splitTag ≠ leafTag) (htag : ∀ a, (encodeLeaf a).getStr? "_tag" = some leafTag)
    (t : LeafTree SplitInfo α) :
    storedLeaves leafTag splitTag (encodeNode splitTag encodeLeaf t) = t.leaves.map encodeLeaf := by
  induction t using childInduction with
  | leaf a =>
    rw [encodeNode, storedLeaves_eq, if_pos (htag a)]
    rfl
  | split info cs ih =>
    rw [encodeNode, encodeNode_list_eq, storedLeaves_eq]
    simp only [Json.getStr?, Json.getArr?, Json.get?_cons, Json.str?, Json.arr?, if_true,
      String.reduceEq, if_false, bind_some, Option.some.injEq, hne, getD_some,
      leaves_split, map_flatMap, flatMap_map]
    exact flatMap_congr ih

theorem storedPanelTabs_encode (layout : WindowLayout) :
    storedPanelTabs (encodeWindowLayout layout) =
      (getAllWorkspaceTileLeaves layout).flatMap fun tile => tile.panelTabs.map encodePanelTab := by
  have hleaves : ∀ root : WorkspaceTileNode,
      storedLeaves "WorkspaceTileLeaf" "WorkspaceTileSplit" (encodeTileNode root) =
        root.leaves.map encodeTileLeaf := by
    apply storedLeaves_encodeNode
    · decide
    · intro tile
      simp [encodeTileLeaf, Json.getStr?, Json.str?]
  have htabs : ∀ tile : WorkspaceTileLeaf,
      ((encodeTileLeaf tile).getArr? "panelTabs").getD [] = tile.panelTabs.map encodePanelTab := by
    intro tile
    simp [encodeTileLeaf, Json.getArr?, Json.arr?]
  have hlayout : ((encodeWindowLayout layout).getArr? "tabs").getD [] =
      layout.tabs.map encodeWindowTab := by
    simp [encodeWindowLayout, Json.getArr?, Json.arr?]
  rw [storedPanelTabs, hlayout, flatMap_map, getAllWorkspaceTileLeaves_eq, flatMap_assoc]
  refine flatMap_congr fun tab _ => ?_
  obtain ⟨focusedWorkspaceTileId, id, label, workspaceLayout⟩ := tab
  cases workspaceLayout with
  | none =>
    cases focusedWorkspaceTileId <;> cases label <;>
      simp [encodeWindowTab, optionalField, tabLeaves]
  | some root =>
    have hroot : (encodeWindowTab ⟨focusedWorkspaceTileId, id, label, some root⟩).get?
        "workspaceLayout" = some (encodeTileNode root) := by
      cases focusedWorkspaceTileId <;> cases label <;> simp [encodeWindowTab, optionalField]
    rw [hroot, elim_some, hleaves, flatMap_map]
    exact flatMap_congr fun tile _ => htabs tile

/-- **A layout with the invariant is stored as a sound input.** -/
theorem LayoutOk.inputSound (h : LayoutOk layout) :
    FocusInputSound (encodeWindowLayout layout) := by
  intro raw hraw
  rw [storedPanelTabs_encode] at hraw
  obtain ⟨tile, htile, hraw⟩ := mem_flatMap.mp hraw
  obtain ⟨tab, htab, rfl⟩ := mem_map.mp hraw
  have hok := (h tile htile).tabs tab htab
  have hlayout : (encodePanelTab tab).get? "panelLayout" =
    some (encodePanelNode tab.panelLayout) := by
    simp [encodePanelTab]
  have hfocus : (encodePanelTab tab).getStr? "focusedPaneId" = tab.focusedPaneId := by
    obtain ⟨focusedPaneId, id, label, panelLayout⟩ := tab
    cases focusedPaneId <;> cases label <;>
      simp [encodePanelTab, optionalField, Json.getStr?, Json.str?]
  intro tree htree
  rw [hlayout, bind_some, lenientDecodePanelNode_of_strict (decodePanelNode_encode _)] at htree
  cases htree
  refine ⟨fun e he => Nat.lt_of_lt_of_le Nat.zero_lt_two (hok.forked e he), hok.named, ?_⟩
  rw [hfocus]
  exact hok.focused

end Laborer.Panels
