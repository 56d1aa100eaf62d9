import Laborer.Library.Runs
import Laborer.Panels.UsePanelLayout
import Laborer.Panels.WorkspaceTileColumns

/-!
# One tile per workspace

The operations that place a workspace in a window layout are meant to keep each
workspace in at most one tile, and a moved workspace with its panel tabs. They
remove the tile where it is found and build a new, empty one in the target;
`MoveKeeps` and `PlaceKeeps` list the cases in which nothing is lost.
-/

namespace Laborer.Panels

open Laborer.Library List

/-! ## The frames of a layout -/

/-- Each workspace occupies at most one tile across all window tabs. -/
def AtMostOneTile (layout : WindowLayout) : Prop :=
  ((getAllWorkspaceTileLeaves layout).map (·.workspaceId)).Nodup

instance (layout : WindowLayout) : Decidable (AtMostOneTile layout) :=
  inferInstanceAs (Decidable (List.Nodup _))

theorem getAllWorkspaceTileLeaves_eq (layout : WindowLayout) :
    getAllWorkspaceTileLeaves layout = layout.tabs.flatMap tabLeaves := rfl

theorem map_workspaceId_flatMap (tabs : List WindowTab) :
    (tabs.flatMap tabLeaves).map (·.workspaceId) = tabs.flatMap tabWorkspaceIds := by
  rw [map_flatMap]
  rfl

variable {tab : WindowTab} {tabs : List WindowTab} {w : String}

theorem tab_unique (hone : ((tabs.flatMap tabLeaves).map (·.workspaceId)).Nodup)
    {tab' : WindowTab} (htab : tab ∈ tabs) (htab' : tab' ∈ tabs)
    (hw : w ∈ tabWorkspaceIds tab) (hw' : w ∈ tabWorkspaceIds tab') : tab = tab' := by
  rw [map_workspaceId_flatMap] at hone
  by_contra hne
  have : Std.Symm (Function.onFun List.Disjoint tabWorkspaceIds) :=
    ⟨fun _ _ hd => List.Disjoint.symm hd⟩
  exact (nodup_flatMap.mp hone).2.forall htab htab' hne hw hw'

theorem tabWorkspaceIds_nodup (hone : ((tabs.flatMap tabLeaves).map (·.workspaceId)).Nodup) :
    ∀ tab ∈ tabs, (tabWorkspaceIds tab).Nodup := by
  rw [map_workspaceId_flatMap] at hone
  exact (nodup_flatMap.mp hone).1

/-! ## Locating a workspace -/

theorem findWorkspaceInTileTree_eq_some {id : String} {t : WorkspaceTileNode}
    (h : truthy (findWorkspaceInTileTree t w) = some id) :
    ∃ tile ∈ t.leaves, tile.workspaceId = w ∧ tile.id = id ∧ id ≠ "" := by
  rw [findWorkspaceInTileTree, truthy_searchLeaves] at h
  obtain ⟨tile, htile, hfound⟩ := exists_of_findSome?_eq_some h
  obtain ⟨hid, hne⟩ := truthy_eq_some.mp hfound
  split at hid
  · next hw =>
    cases hid
    exact ⟨tile, htile, hw, rfl, hne⟩
  · cases hid

theorem findWorkspaceInTileTree_eq_none {t : WorkspaceTileNode}
    (h : truthy (findWorkspaceInTileTree t w) = none) :
    ∀ tile ∈ t.leaves, tile.workspaceId = w → tile.id = "" := by
  rw [findWorkspaceInTileTree, truthy_searchLeaves, findSome?_eq_none_iff] at h
  intro tile htile hw
  have hnone := h tile htile
  rw [if_pos hw] at hnone
  by_contra hne
  rw [truthy_eq_some.mpr ⟨rfl, hne⟩] at hnone
  cases hnone

variable {layout : WindowLayout}

theorem findWorkspaceLocation_eq_some
    {location : WorkspaceLocation} (h : findWorkspaceLocation layout w = some location) :
    ∃ tab ∈ layout.tabs, tab.id = location.tabId ∧
      ∃ tile ∈ tabLeaves tab, tile.workspaceId = w ∧ tile.id ≠ "" := by
  obtain ⟨tab, htab, hfound⟩ := exists_of_findSome?_eq_some h
  obtain ⟨id, hid, rfl⟩ := Option.map_eq_some_iff.mp hfound
  cases hroot : tab.workspaceLayout with
  | none =>
    rw [hroot] at hid
    cases hid
  | some root =>
    rw [hroot] at hid
    obtain ⟨tile, htile, hw, rfl, hne⟩ := findWorkspaceInTileTree_eq_some hid
    exact ⟨tab, htab, rfl, tile, by simpa [tabLeaves, hroot] using htile, hw, hne⟩

theorem findWorkspaceLocation_eq_none (h : findWorkspaceLocation layout w = none) :
    ∀ tile ∈ getAllWorkspaceTileLeaves layout, tile.workspaceId = w → tile.id = "" := by
  rw [findWorkspaceLocation, findSome?_eq_none_iff] at h
  intro tile htile hw
  obtain ⟨tab, htab, hmem⟩ := mem_flatMap.mp htile
  have hnone := h tab htab
  rw [Option.map_eq_none_iff] at hnone
  cases hroot : tab.workspaceLayout with
  | none => simp [hroot] at hmem
  | some root =>
    rw [hroot] at hnone hmem
    exact findWorkspaceInTileTree_eq_none hnone tile hmem hw

/-! ## Removing from the tabs, adding to the tabs -/

theorem removeFromTabs_leaves {tabId : String}
    (honly : ∀ tab ∈ tabs, w ∈ tabWorkspaceIds tab → tab.id = tabId) :
    (tabs.map fun tab => if tab.id = tabId then removeWorkspaceFromTab tab w else tab).flatMap
        tabLeaves = (tabs.flatMap tabLeaves).filter fun tile => tile.workspaceId ≠ w := by
  rw [flatMap_map, filter_flatMap]
  refine flatMap_congr fun tab htab => ?_
  split
  · exact tabLeaves_removeWorkspaceFromTab tab
  · next hid =>
    symm
    rw [filter_eq_self]
    intro tile htile
    refine decide_eq_true fun hw => hid (honly tab htab ?_)
    exact mem_map.mpr ⟨tile, htile, hw⟩

/-- The window tabs a workspace added under the given tab id ends up in. -/
def receivers (layout : WindowLayout) (targetTabId : String) : List WindowTab :=
  layout.tabs.filter fun tab =>
    tab.id = targetTabId ∧ ∀ root ∈ tab.workspaceLayout, AcceptsTile root

theorem addWorkspaceToTab_of_not_accepts {root : WorkspaceTileNode}
    (hroot : tab.workspaceLayout = some root) (h : ¬ AcceptsTile root) (w : String)
    (below : Option String) (g : IdGen) :
    tabLeaves (addWorkspaceToTab tab w below g).1 = tabLeaves tab := by
  cases root with
  | leaf tile => exact absurd trivial h
  | split info cs =>
    obtain ⟨hdir, hcs⟩ := not_or.mp h
    rw [not_ne_iff] at hcs
    subst hcs
    have happend : ∀ tile g, appendTile (.split info []) tile g = (.split info [], g) := by
      intro tile g
      simp [appendTile, hdir]
    unfold addWorkspaceToTab
    rw [hroot]
    cases below with
    | none => simp [happend, tabLeaves, hroot]
    | some target =>
      have hplaced : ∀ g, splitTileRecursive target w .vertical (.split info []) g =
          (.split info [], g) := splitTileRecursive_of_not_mem (by simp)
      simp [hplaced, happend, tabLeaves, hroot]

theorem addWorkspaceToTab_leaves (haccepts : ∀ root ∈ tab.workspaceLayout, AcceptsTile root)
    (hnodup : (tabWorkspaceIds tab).Nodup) (w : String) (below : Option String) (g : IdGen) :
    ∃ id, (tabLeaves (addWorkspaceToTab tab w below g).1).Perm
      (emptyTile id w :: tabLeaves tab) := by
  cases hroot : tab.workspaceLayout with
  | none =>
    refine ⟨(g.generateId "ws-tile").1, ?_⟩
    simp only [addWorkspaceToTab, hroot, tabLeaves, optionLeaves_some, optionLeaves_none]
    exact List.Perm.refl _
  | some root =>
    have hids : (workspaceIds root).Nodup := by
      simpa [tabWorkspaceIds, tabLeaves, hroot, workspaceIds] using hnodup
    obtain ⟨root', hafter, hins⟩ :=
      addWorkspaceToTab_inserts hroot (haccepts root hroot) hids w below g
    rw [hafter]
    simpa [tabLeaves, hroot] using hins.leaves

theorem addToTabs_leaves (targetTabId w : String) (below : Option String)
    (hnodup : ∀ tab ∈ tabs, (tabWorkspaceIds tab).Nodup) (g : IdGen) :
    ∃ ids : List String, ids.length = (tabs.filter fun tab =>
        tab.id = targetTabId ∧ ∀ root ∈ tab.workspaceLayout, AcceptsTile root).length ∧
      ((mapState (fun tab g =>
        if tab.id = targetTabId then addWorkspaceToTab tab w below g else (tab, g))
          tabs g).1.flatMap tabLeaves).Perm
        (ids.map (emptyTile · w) ++ tabs.flatMap tabLeaves) := by
  induction tabs generalizing g with
  | nil => exact ⟨[], rfl, List.Perm.refl _⟩
  | cons tab tabs ih =>
    rw [forall_mem_cons] at hnodup
    simp only [mapState, flatMap_cons]
    by_cases hid : tab.id = targetTabId
    · simp only [hid, if_true]
      obtain ⟨ids, hlen, hperm⟩ := ih hnodup.2 (addWorkspaceToTab tab w below g).2
      by_cases haccepts : ∀ root ∈ tab.workspaceLayout, AcceptsTile root
      · obtain ⟨id, hid'⟩ := addWorkspaceToTab_leaves haccepts hnodup.1 w below g
        refine ⟨id :: ids, ?_, ?_⟩
        · rw [filter_cons_of_pos (by simpa [hid] using haccepts), length_cons, length_cons, hlen]
        · refine (hid'.append hperm).trans ?_
          rw [map_cons, cons_append, cons_append]
          exact (perm_append_comm_assoc _ _ _).cons _
      · refine ⟨ids, ?_, ?_⟩
        · rw [filter_cons_of_neg (by simpa [hid] using haccepts), hlen]
        · push Not at haccepts
          obtain ⟨root, hroot, hnot⟩ := haccepts
          rw [addWorkspaceToTab_of_not_accepts hroot hnot]
          exact (hperm.append_left _).trans (perm_append_comm_assoc _ _ _)
    · obtain ⟨ids, hlen, hperm⟩ := ih hnodup.2 g
      refine ⟨ids, ?_, ?_⟩
      · rw [filter_cons_of_neg (by simp [hid]), hlen]
      · simp only [hid, if_false]
        exact (hperm.append_left _).trans (perm_append_comm_assoc _ _ _)

@[simp] theorem removeWorkspaceFromTab_id (tab : WindowTab) (w : String) :
    (removeWorkspaceFromTab tab w).id = tab.id := by
  unfold removeWorkspaceFromTab
  split <;> rfl

theorem receivers_remove {tabId targetTabId : String} (hne : tabId ≠ targetTabId) :
    ((layout.tabs.map fun tab =>
      if tab.id = tabId then removeWorkspaceFromTab tab w else tab).filter
      fun tab => tab.id = targetTabId ∧ ∀ root ∈ tab.workspaceLayout, AcceptsTile root).length =
      (receivers layout targetTabId).length := by
  rw [filter_map, length_map, receivers]
  congr 1
  refine filter_congr fun tab _ => ?_
  by_cases hid : tab.id = tabId
  · simp [hid, hne]
  · simp [hid]

/-! ## Moving a workspace -/

def moveTo (layout : WindowLayout) (w targetTabId : String) (below : Option String) (g : IdGen) :
    WindowLayout × IdGen :=
  moveWorkspace layout w targetTabId removeWorkspaceFromTab
    (fun tab id g => addWorkspaceToTab tab id below g) g

section Move

variable {layout : WindowLayout} {w targetTabId : String}

theorem moveTo_inPlace {location : WorkspaceLocation}
    (hloc : findWorkspaceLocation layout w = some location) (hid : location.tabId = targetTabId)
    (below : Option String) (g : IdGen) : moveTo layout w targetTabId below g = (layout, g) := by
  simp [moveTo, moveWorkspace, hloc, hid]

theorem moveTo_absent (targetTabId : String) (hone : AtMostOneTile layout)
    (hloc : findWorkspaceLocation layout w = none) (below : Option String) (g : IdGen) :
    ∃ ids : List String, ids.length = (receivers layout targetTabId).length ∧
      (getAllWorkspaceTileLeaves (moveTo layout w targetTabId below g).1).Perm
        (ids.map (emptyTile · w) ++ getAllWorkspaceTileLeaves layout) := by
  have hadd := addToTabs_leaves targetTabId w below (tabWorkspaceIds_nodup hone) g
  simpa [moveTo, moveWorkspace, hloc, getAllWorkspaceTileLeaves_eq, receivers] using hadd

theorem moveTo_elsewhere (hone : AtMostOneTile layout) {location : WorkspaceLocation}
    (hloc : findWorkspaceLocation layout w = some location) (hid : location.tabId ≠ targetTabId)
    (below : Option String) (g : IdGen) :
    ∃ ids : List String, ids.length = (receivers layout targetTabId).length ∧
      (getAllWorkspaceTileLeaves (moveTo layout w targetTabId below g).1).Perm
        (ids.map (emptyTile · w) ++
          (getAllWorkspaceTileLeaves layout).filter fun tile => tile.workspaceId ≠ w) := by
  obtain ⟨tab, htab, htabId, tile, htile, hw, -⟩ := findWorkspaceLocation_eq_some hloc
  have honly : ∀ tab' ∈ layout.tabs, w ∈ tabWorkspaceIds tab' → tab'.id = location.tabId := by
    intro tab' htab' hmem
    rw [← htabId, tab_unique hone htab htab' (mem_map.mpr ⟨tile, htile, hw⟩) hmem]
  have hleaves := removeFromTabs_leaves honly
  have hkept : (((layout.tabs.map fun tab =>
      if tab.id = location.tabId then removeWorkspaceFromTab tab w else tab).flatMap
        tabLeaves).map (·.workspaceId)).Nodup := by
    rw [hleaves]
    exact hone.sublist (filter_sublist.map _)
  obtain ⟨ids, hlen, hperm⟩ := addToTabs_leaves targetTabId w below (tabWorkspaceIds_nodup hkept) g
  rw [hleaves] at hperm
  rw [receivers_remove hid] at hlen
  refine ⟨ids, hlen, ?_⟩
  simpa [moveTo, moveWorkspace, removeWorkspaceFromLayout, hloc, hid,
    getAllWorkspaceTileLeaves_eq] using hperm

/-- The moves that lose nothing: a workspace that is nowhere goes into at most
one tab; one already in the target stays; one that cannot be located because
its frame has no id finds no receiver; one without panel tabs goes into exactly
one tab. -/
inductive MoveKeeps (layout : WindowLayout) (w targetTabId : String) : Prop
  | absent (hw : ∀ tile ∈ getAllWorkspaceTileLeaves layout, tile.workspaceId ≠ w)
      (hone : (receivers layout targetTabId).length ≤ 1)
  | inPlace (tab : WindowTab) (htab : tab ∈ layout.tabs) (hid : tab.id = targetTabId)
      (tile : WorkspaceTileLeaf) (htile : tile ∈ tabLeaves tab) (hw : tile.workspaceId = w)
      (hne : tile.id ≠ "")
  | unlocated (tile : WorkspaceTileLeaf) (htile : tile ∈ getAllWorkspaceTileLeaves layout)
      (hw : tile.workspaceId = w) (hid : tile.id = "") (hnone : receivers layout targetTabId = [])
  | empty (tile : WorkspaceTileLeaf) (htile : tile ∈ getAllWorkspaceTileLeaves layout)
      (hw : tile.workspaceId = w) (hne : tile.id ≠ "") (hempty : tile.panelTabs = [])
      (hone : (receivers layout targetTabId).length = 1)

/-- Every frame except those of the removed workspace is still there, with its
panel tabs. -/
def KeepsFrames (removed : Option String) (before after : WindowLayout) : Prop :=
  ∀ tile ∈ getAllWorkspaceTileLeaves before, removed ≠ some tile.workspaceId →
    ∃ tile' ∈ getAllWorkspaceTileLeaves after,
      tile'.workspaceId = tile.workspaceId ∧ tile'.panelTabs = tile.panelTabs

theorem KeepsFrames.refl (removed : Option String) (layout : WindowLayout) :
    KeepsFrames removed layout layout :=
  fun tile htile _ => ⟨tile, htile, rfl, rfl⟩

theorem KeepsFrames.of_perm {before after : WindowLayout} (removed : Option String)
    (h : (getAllWorkspaceTileLeaves after).Perm (getAllWorkspaceTileLeaves before)) :
    KeepsFrames removed before after :=
  fun tile htile _ => ⟨tile, h.mem_iff.mpr htile, rfl, rfl⟩

theorem AtMostOneTile.of_perm {before after : WindowLayout} (hone : AtMostOneTile before)
    (h : (getAllWorkspaceTileLeaves after).Perm (getAllWorkspaceTileLeaves before)) :
    AtMostOneTile after :=
  (h.map _).nodup_iff.mpr hone

/-- **One move.** A move of one of the listed kinds keeps every workspace in at
most one tile, with its panel tabs. -/
theorem moveTo_keeps (hone : AtMostOneTile layout) (hmove : MoveKeeps layout w targetTabId)
    (below : Option String) (g : IdGen) : AtMostOneTile (moveTo layout w targetTabId below g).1 ∧
      KeepsFrames none layout (moveTo layout w targetTabId below g).1 := by
  have hself : AtMostOneTile layout ∧ KeepsFrames none layout layout :=
    ⟨hone, KeepsFrames.refl none layout⟩
  -- a tile of the workspace is the only one
  have hunique : ∀ tile ∈ getAllWorkspaceTileLeaves layout,
      ∀ tile' ∈ getAllWorkspaceTileLeaves layout,
        tile.workspaceId = w → tile'.workspaceId = w → tile = tile' :=
    fun tile htile tile' htile' hw hw' =>
      inj_on_of_nodup_map hone htile htile' (hw.trans hw'.symm)
  cases hloc : findWorkspaceLocation layout w with
  | some location =>
    obtain ⟨tab, htab, htabId, tile, htile, hw, hne⟩ := findWorkspaceLocation_eq_some hloc
    have htileAll : tile ∈ getAllWorkspaceTileLeaves layout := mem_flatMap.mpr ⟨tab, htab, htile⟩
    by_cases hid : location.tabId = targetTabId
    · rw [moveTo_inPlace hloc hid]
      exact hself
    · cases hmove with
      | absent habsent => exact absurd hw (habsent tile htileAll)
      | inPlace tab' htab' hid' tile' htile' hw' =>
        have heq := tab_unique hone htab htab' (mem_map.mpr ⟨tile, htile, hw⟩)
          (mem_map.mpr ⟨tile', htile', hw'⟩)
        subst heq
        exact absurd (htabId.symm.trans hid') hid
      | unlocated tile' htile' hw' hid' =>
        rw [hunique tile htileAll tile' htile' hw hw'] at hne
        exact absurd hid' hne
      | empty tile' htile' hw' hne' hempty hreceivers =>
        obtain ⟨ids, hlen, hperm⟩ := moveTo_elsewhere hone hloc hid below g
        rw [hreceivers] at hlen
        obtain ⟨id, rfl⟩ := length_eq_one_iff.mp hlen
        rw [map_singleton, singleton_append] at hperm
        refine ⟨?_, ?_⟩
        · refine (hperm.map _).nodup_iff.mpr (nodup_cons.mpr ⟨?_, ?_⟩)
          · intro hmem
            obtain ⟨other, hother, heq⟩ := mem_map.mp hmem
            exact of_decide_eq_true (mem_filter.mp hother).2 heq
          · exact hone.sublist (filter_sublist.map _)
        · intro other hother _
          by_cases hw'' : other.workspaceId = w
          · -- the moved frame was empty, and so is its successor
            refine ⟨emptyTile id w, hperm.mem_iff.mpr (mem_cons_self ..), hw''.symm, ?_⟩
            rw [hunique other hother tile' htile' hw'' hw', hempty]
            rfl
          · refine ⟨other, hperm.mem_iff.mpr (mem_cons_of_mem _ ?_), rfl, rfl⟩
            exact mem_filter.mpr ⟨hother, decide_eq_true hw''⟩
  | none =>
    have hnoId := findWorkspaceLocation_eq_none hloc
    obtain ⟨ids, hlen, hperm⟩ := moveTo_absent targetTabId hone hloc below g
    have hkeeps : KeepsFrames none layout (moveTo layout w targetTabId below g).1 :=
      fun tile htile _ => ⟨tile, hperm.mem_iff.mpr (mem_append_right _ htile), rfl, rfl⟩
    refine ⟨?_, hkeeps⟩
    cases hmove with
    | inPlace tab htab _ tile htile hw hne =>
      exact absurd (hnoId tile (mem_flatMap.mpr ⟨tab, htab, htile⟩) hw) hne
    | empty tile htile hw hne => exact absurd (hnoId tile htile hw) hne
    | unlocated tile htile hw hid hnone =>
      rw [hnone, length_nil, length_eq_zero_iff] at hlen
      rw [hlen] at hperm
      exact hone.of_perm hperm
    | absent habsent hle =>
      match ids, hlen with
      | [], _ => exact hone.of_perm hperm
      | [id], _ =>
        refine (hperm.map _).nodup_iff.mpr (nodup_cons.mpr ⟨fun hmem => ?_, hone⟩)
        obtain ⟨other, hother, heq⟩ := mem_map.mp hmem
        exact habsent other hother heq
      | _ :: _ :: _, hlen =>
        simp only [length_cons] at hlen
        omega

end Move

/-! ## Placing a workspace below an anchor -/

/-- Putting back a tab with the same frames changes the order of the frames
only, when no other tab has its id. -/
theorem replaceTab_leaves {updated : WindowTab} (htab : tab ∈ layout.tabs)
    (hone : (layout.tabs.filter fun t => t.id = tab.id).length = 1)
    (hperm : (tabLeaves updated).Perm (tabLeaves tab)) :
    (getAllWorkspaceTileLeaves (replaceTab layout tab.id updated)).Perm
      (getAllWorkspaceTileLeaves layout) := by
  have honly : ∀ t ∈ layout.tabs, t.id = tab.id → t = tab := by
    obtain ⟨only, honly⟩ := length_eq_one_iff.mp hone
    have hmem : ∀ t ∈ layout.tabs, t.id = tab.id → t = only := by
      intro t ht hid
      have : t ∈ layout.tabs.filter fun t => t.id = tab.id :=
        mem_filter.mpr ⟨ht, decide_eq_true hid⟩
      rw [honly] at this
      exact mem_singleton.mp this
    intro t ht hid
    rw [hmem t ht hid, hmem tab htab rfl]
  simp only [getAllWorkspaceTileLeaves_eq, replaceTab, flatMap_map]
  refine List.Perm.flatMap_left _ fun t ht => ?_
  split
  · next hid =>
    rw [honly t ht hid]
    exact hperm
  · exact List.Perm.refl _

/-- The placements that lose nothing: without an active tab there is nothing to
do; a workspace that is elsewhere has to be moved without loss; one in the
active tab stays, or its rows are rearranged in the only tab with that id. -/
inductive PlaceKeeps (layout : WindowLayout) (w : String) (anchor : Option String) (g : IdGen) :
    Prop
  | noActiveTab (hactive : getActiveWindowTab layout = none)
  | moved (active : WindowTab) (hactive : getActiveWindowTab layout = some active)
      (hmove : MoveKeeps layout w active.id)
      (helsewhere : (findWorkspaceLocation layout w).map (·.tabId) ≠ some active.id)
  | noAnchor (active : WindowTab) (hactive : getActiveWindowTab layout = some active)
      (hhere : (findWorkspaceLocation layout w).map (·.tabId) = some active.id)
      (hanchor : anchor = none)
  | unmoved (active : WindowTab) (hactive : getActiveWindowTab layout = some active)
      (hhere : (findWorkspaceLocation layout w).map (·.tabId) = some active.id)
      (below : String) (hanchor : anchor = some below) (hkeeps : keepsTab active w below g)
  | rearranged (active : WindowTab) (hactive : getActiveWindowTab layout = some active)
      (hhere : (findWorkspaceLocation layout w).map (·.tabId) = some active.id)
      (hone : (layout.tabs.filter fun t => t.id = active.id).length = 1)

theorem placeWorkspaceInActiveTab_keeps
    {anchor : Option String} {g : IdGen} (hone : AtMostOneTile layout)
    (hplace : PlaceKeeps layout w anchor g) :
    AtMostOneTile (placeWorkspaceInActiveTab layout w anchor g).1 ∧
      KeepsFrames none layout (placeWorkspaceInActiveTab layout w anchor g).1 := by
  have hself : AtMostOneTile layout ∧ KeepsFrames none layout layout :=
    ⟨hone, KeepsFrames.refl none layout⟩
  cases hplace with
  | noActiveTab hactive =>
    simpa [placeWorkspaceInActiveTab, hactive] using hself
  | moved active hactive hmove helsewhere =>
    have hmoved := moveTo_keeps hone hmove anchor g
    simpa [placeWorkspaceInActiveTab, hactive, helsewhere, addWorkspaceToTabUnique, moveTo]
      using hmoved
  | noAnchor active hactive hhere hanchor =>
    simpa [placeWorkspaceInActiveTab, hactive, hhere, hanchor] using hself
  | unmoved active hactive hhere below hanchor hkeeps =>
    simpa [placeWorkspaceInActiveTab, placeWorkspaceBelowAnchorInActiveTab, hactive, hhere,
      hanchor, hkeeps] using hself
  | rearranged active hactive hhere hunique =>
    cases anchor with
    | none => simpa [placeWorkspaceInActiveTab, hactive, hhere] using hself
    | some below =>
      by_cases hkeeps : keepsTab active w below g
      · simpa [placeWorkspaceInActiveTab, placeWorkspaceBelowAnchorInActiveTab, hactive, hhere,
          hkeeps] using hself
      · have hmem : active ∈ layout.tabs := mem_of_find?_eq_some hactive
        have hperm := replaceTab_leaves hmem hunique
          (moveWorkspaceTileBelow_leaves (tabWorkspaceIds_nodup hone active hmem) w below g)
        have hafter : (placeWorkspaceInActiveTab layout w (some below) g).1 =
            replaceTab layout active.id (moveWorkspaceTileBelow active w below g).1 := by
          simp [placeWorkspaceInActiveTab, placeWorkspaceBelowAnchorInActiveTab, hactive, hhere,
            hkeeps]
        rw [hafter]
        exact ⟨hone.of_perm hperm, .of_perm none hperm⟩

/-! ## Removing a workspace -/

theorem removeWorkspaceFromLayout_keeps (hone : AtMostOneTile layout) (w : String) :
    AtMostOneTile (removeWorkspaceFromLayout layout w removeWorkspaceFromTab) ∧
      KeepsFrames (some w) layout (removeWorkspaceFromLayout layout w removeWorkspaceFromTab) := by
  cases hloc : findWorkspaceLocation layout w with
  | none =>
    rw [removeWorkspaceFromLayout, hloc]
    exact ⟨hone, KeepsFrames.refl _ layout⟩
  | some location =>
    obtain ⟨tab, htab, htabId, tile, htile, hw, -⟩ := findWorkspaceLocation_eq_some hloc
    have hleaves : getAllWorkspaceTileLeaves
        (removeWorkspaceFromLayout layout w removeWorkspaceFromTab) =
        (getAllWorkspaceTileLeaves layout).filter fun tile => tile.workspaceId ≠ w := by
      rw [removeWorkspaceFromLayout, hloc]
      apply removeFromTabs_leaves
      intro tab' htab' hmem
      rw [← htabId, tab_unique hone htab htab' (mem_map.mpr ⟨tile, htile, hw⟩) hmem]
    refine ⟨?_, fun other hother hne => ⟨other, ?_, rfl, rfl⟩⟩
    · rw [AtMostOneTile, hleaves]
      exact hone.sublist (filter_sublist.map _)
    · rw [hleaves]
      refine mem_filter.mpr ⟨hother, decide_eq_true fun heq => hne ?_⟩
      rw [heq]

/-! ## Sequences of placements -/

inductive WorkspacePlacement where
  | addWorkspaceToTabUnique (workspaceId targetTabId : String) (below : Option String)
  | moveWorkspace (workspaceId targetTabId : String) (below : Option String)
  | removeWorkspaceFromLayout (workspaceId : String)
  | placeWorkspaceInActiveTab (workspaceId : String) (anchor : Option String)

namespace WorkspacePlacement

def step (op : WorkspacePlacement) (s : WindowLayout × IdGen) : WindowLayout × IdGen :=
  match op with
  | addWorkspaceToTabUnique w target below =>
    Panels.addWorkspaceToTabUnique s.1 w target removeWorkspaceFromTab
      (fun tab id g => addWorkspaceToTab tab id below g) s.2
  | moveWorkspace w target below =>
    Panels.moveWorkspace s.1 w target removeWorkspaceFromTab
      (fun tab id g => addWorkspaceToTab tab id below g) s.2
  | removeWorkspaceFromLayout w =>
    (Panels.removeWorkspaceFromLayout s.1 w removeWorkspaceFromTab, s.2)
  | placeWorkspaceInActiveTab w anchor => Panels.placeWorkspaceInActiveTab s.1 w anchor s.2

def removes : WorkspacePlacement → Option String
  | removeWorkspaceFromLayout w => some w
  | _ => none

/-- The operation is of a kind that loses nothing in the given state. -/
def Keeps (op : WorkspacePlacement) (s : WindowLayout × IdGen) : Prop :=
  match op with
  | addWorkspaceToTabUnique w target _ => MoveKeeps s.1 w target
  | moveWorkspace w target _ => MoveKeeps s.1 w target
  | removeWorkspaceFromLayout _ => True
  | placeWorkspaceInActiveTab w anchor => PlaceKeeps s.1 w anchor s.2

/-- **One placement** of a kind that loses nothing keeps every workspace in at
most one tile and every frame that is not removed with its panel tabs. -/
theorem step_keeps (op : WorkspacePlacement) (s : WindowLayout × IdGen)
    (hone : AtMostOneTile s.1) (hok : op.Keeps s) :
    AtMostOneTile (op.step s).1 ∧ KeepsFrames op.removes s.1 (op.step s).1 := by
  cases op with
  | addWorkspaceToTabUnique w target below => exact moveTo_keeps hone hok below s.2
  | moveWorkspace w target below => exact moveTo_keeps hone hok below s.2
  | removeWorkspaceFromLayout w => exact removeWorkspaceFromLayout_keeps hone w
  | placeWorkspaceInActiveTab w anchor => exact placeWorkspaceInActiveTab_keeps hone hok

/-- **Workspaces stay unique and keep their panel tabs** along every run of
placements that are of a kind that loses nothing. -/
theorem run_keepsWorkspaces (s : WindowLayout × IdGen) (hone : AtMostOneTile s.1)
    (ops : List WorkspacePlacement) (hok : RunMeets step Keeps s ops) :
    (∀ t ∈ visited step s ops, AtMostOneTile t.1) ∧
      ∀ t ∈ transitions step s ops, KeepsFrames t.2.1.removes t.1.1 t.2.2.1 := by
  have hstep : ∀ op s, AtMostOneTile s.1 → Keeps op s → AtMostOneTile (step op s).1 :=
    fun op s hone hok => (step_keeps op s hone hok).1
  constructor
  · exact invariant_visited (P := fun s => AtMostOneTile s.1) hstep hone hok
  · intro t ht
    apply invariant_transitions (P := fun s => AtMostOneTile s.1)
      (Q := fun s op s' => KeepsFrames op.removes s.1 s'.1) hstep ?_ hone hok t ht
    exact fun op s hone hok => (step_keeps op s hone hok).2

/-! ## A workspace with a terminal -/

def terminalTab (id paneId terminalId : String) : PanelTab :=
  { focusedPaneId := some paneId
    id
    label := none
    panelLayout := .leaf
      { command := none, id := paneId, paneType := .terminal, terminalId := some terminalId,
        workspaceId := some "ws-1" } }

/-- Two window tabs; the first shows `ws-1` with a terminal and `ws-2` without. -/
def twoTabs : WindowLayout :=
  { activeTabId := some "tab-1"
    tabs :=
      [{ focusedWorkspaceTileId := none, id := "tab-1", label := none,
         workspaceLayout := some (.split ⟨"split", .vertical, [50, 50]⟩
          [.leaf { activePanelTabId := some "panel", id := "tile-1",
                   panelTabs := [terminalTab "panel" "pane" "term"], workspaceId := "ws-1" },
           .leaf (emptyTile "tile-2" "ws-2")]) },
       { focusedWorkspaceTileId := none, id := "tab-2", label := none, workspaceLayout := none }] }

/-- Moving the workspace without panel tabs, then removing the other one. -/
theorem run_keepsWorkspaces_twoTabs : (∀ t ∈ visited step (twoTabs, .sessionStart)
        [moveWorkspace "ws-2" "tab-2" none, removeWorkspaceFromLayout "ws-1"], AtMostOneTile t.1) ∧
    ∀ t ∈ transitions step (twoTabs, .sessionStart)
        [moveWorkspace "ws-2" "tab-2" none, removeWorkspaceFromLayout "ws-1"],
      KeepsFrames t.2.1.removes t.1.1 t.2.2.1 := by
  apply run_keepsWorkspaces
  · decide
  · refine ⟨?_, trivial, trivial⟩
    exact .empty (emptyTile "tile-2" "ws-2") (by decide) rfl (by decide) rfl (by decide)

/-- A workspace moved with its terminal arrives without it, and one moved to a
tab that does not exist is gone. -/
theorem moveWorkspace_losesFrame : AtMostOneTile twoTabs ∧ ¬ KeepsFrames none twoTabs
        ((moveWorkspace "ws-1" "tab-2" none).step (twoTabs, .sessionStart)).1 ∧
      "ws-2" ∈ (getAllWorkspaceTileLeaves twoTabs).map (·.workspaceId) ∧
      "ws-2" ∉ (getAllWorkspaceTileLeaves
        ((moveWorkspace "ws-2" "tab-9" none).step (twoTabs, .sessionStart)).1).map
          (·.workspaceId) := by
  refine ⟨by decide, fun h => ?_, by decide, by decide⟩
  obtain ⟨tile', htile', hw, htabs⟩ := h
    { activePanelTabId := some "panel", id := "tile-1",
      panelTabs := [terminalTab "panel" "pane" "term"], workspaceId := "ws-1" }
    (by decide) (by simp)
  revert tile'
  decide

end WorkspacePlacement

end Laborer.Panels
