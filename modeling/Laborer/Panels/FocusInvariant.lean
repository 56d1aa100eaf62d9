import Laborer.Panels.LayoutFrames
import Laborer.Panels.PanelTreeFocus

/-!
# The focused pane of every panel tab

The invariant behind keyboard commands: every panel tab's `focusedPaneId` names
a pane of its own tree, and every frame with panel tabs has an active one. Each
edit of the layout keeps it, where necessary under a condition on the edit.
-/

namespace Laborer.Panels

open Laborer.Library List Option

/-! ## The invariant -/

/-- A panel tab whose focus is one of its panes. That edits keep this depends on
the panes having ids and on splits having at least two children. -/
structure PanelTabOk (tab : PanelTab) : Prop where
  forked : Forked tab.panelLayout
  named : ∀ id ∈ getLeafIds tab.panelLayout, id ≠ ""
  focused : ∀ p, tab.focusedPaneId = some p → p ∈ getLeafIds tab.panelLayout

structure FrameOk (tile : WorkspaceTileLeaf) : Prop where
  tabs : ∀ tab ∈ tile.panelTabs, PanelTabOk tab
  active : tile.panelTabs ≠ [] → ∃ tab ∈ tile.panelTabs, some tab.id = tile.activePanelTabId

def LayoutOk (layout : WindowLayout) : Prop :=
  ∀ tile ∈ getAllWorkspaceTileLeaves layout, FrameOk tile

/-- Every focused pane is a pane of its panel tab, and the focus of a window tab
that has any pane resolves to a pane of an active panel tab. -/
structure FocusResolves (layout : WindowLayout) : Prop where
  focused : ∀ tile ∈ getAllWorkspaceTileLeaves layout, ∀ tab ∈ tile.panelTabs,
    ∀ p, tab.focusedPaneId = some p → p ∈ getLeafIds tab.panelLayout
  resolves : ∀ tab ∈ layout.tabs,
    (∃ tile ∈ tabLeaves tab, ∃ panelTab ∈ tile.panelTabs, getLeafIds panelTab.panelLayout ≠ []) →
      ∃ p, resolveActivePaneForWindowTab tab = some p ∧
        ∃ tile ∈ tabLeaves tab, ∃ panelTab,
          getActivePanelTab tile = some panelTab ∧ p ∈ getLeafIds panelTab.panelLayout

/-! ## What the invariant gives -/

variable {tab : PanelTab}

theorem PanelTabOk.resolves (h : PanelTabOk tab) :
    ∃ p, truthy (resolveActivePaneForPanelTab tab) = some p ∧ p ∈ getLeafIds tab.panelLayout := by
  unfold resolveActivePaneForPanelTab
  cases hfocus : truthy tab.focusedPaneId with
  | some p =>
    obtain ⟨hsome, hne⟩ := truthy_eq_some.mp hfocus
    exact ⟨p, truthy_eq_some.mpr ⟨rfl, hne⟩, h.focused p hsome⟩
  | none =>
    obtain ⟨p, hp⟩ := getFirstLeafId_truthy h.forked.leaves_ne_nil h.named
    exact ⟨p, hp, getFirstLeafId_mem (truthy_eq_some.mp hp).1⟩

variable {tile : WorkspaceTileLeaf}

theorem FrameOk.getActivePanelTab (h : FrameOk tile) (htabs : tile.panelTabs ≠ []) :
    ∃ tab, getActivePanelTab tile = some tab ∧ tab ∈ tile.panelTabs := by
  obtain ⟨tab, htab, hid⟩ := h.active htabs
  have hsome : (Panels.getActivePanelTab tile).isSome := by
    rw [Panels.getActivePanelTab, find?_isSome]
    exact ⟨tab, htab, decide_eq_true hid⟩
  obtain ⟨active, hactive⟩ := isSome_iff_exists.mp hsome
  exact ⟨active, hactive, mem_of_find?_eq_some hactive⟩

variable {p : String}

theorem FrameOk.resolved (h : FrameOk tile)
    (hp : truthy (resolveActivePaneFromLeaf tile) = some p) :
    ∃ tab, Panels.getActivePanelTab tile = some tab ∧ p ∈ getLeafIds tab.panelLayout := by
  have hne : tile.panelTabs ≠ [] := by
    intro hnil
    rw [resolveActivePaneFromLeaf, Panels.getActivePanelTab, hnil] at hp
    cases hp
  obtain ⟨active, hactive, hmem⟩ := h.getActivePanelTab hne
  obtain ⟨p', hp', hleaf⟩ := (h.tabs active hmem).resolves
  rw [resolveActivePaneFromLeaf, hactive, bind_some, hp', some_or] at hp
  obtain ⟨heq, -⟩ := truthy_eq_some.mp hp
  cases heq
  exact ⟨active, hactive, hleaf⟩

theorem FrameOk.resolves (h : FrameOk tile)
    (htabs : tile.panelTabs ≠ []) : ∃ p, truthy (resolveActivePaneFromLeaf tile) = some p := by
  obtain ⟨active, hactive, hmem⟩ := h.getActivePanelTab htabs
  obtain ⟨p, hp, -⟩ := (h.tabs active hmem).resolves
  refine ⟨p, ?_⟩
  rw [resolveActivePaneFromLeaf, hactive, bind_some, hp, some_or]
  exact truthy_eq_some.mpr ⟨rfl, (truthy_eq_some.mp hp).2⟩

theorem resolveActivePaneForWindowTab_eq_some {tab : WindowTab}
    (h : resolveActivePaneForWindowTab tab = some p) :
    ∃ tile ∈ tabLeaves tab, truthy (resolveActivePaneFromLeaf tile) = some p := by
  unfold resolveActivePaneForWindowTab at h
  rcases or_eq_some_iff.mp h with hfocused | ⟨-, hfirst⟩
  · obtain ⟨hbind, hne⟩ := truthy_eq_some.mp hfocused
    obtain ⟨tileId, -, hfind⟩ := bind_eq_some_iff.mp hbind
    obtain ⟨tile, htile, hresolved⟩ := bind_eq_some_iff.mp hfind
    exact ⟨tile, mem_of_find?_eq_some htile, truthy_eq_some.mpr ⟨hresolved, hne⟩⟩
  · obtain ⟨tile, htile, hresolved⟩ := exists_of_findSome?_eq_some hfirst
    exact ⟨tile, htile, hresolved⟩

theorem resolveActivePaneForWindowTab_isSome {tab : WindowTab} (htile : tile ∈ tabLeaves tab)
    (hp : truthy (resolveActivePaneFromLeaf tile) = some p) :
    ∃ p', resolveActivePaneForWindowTab tab = some p' := by
  rw [← isSome_iff_exists, resolveActivePaneForWindowTab, isSome_or,
    Bool.or_eq_true, findSome?_isSome_iff]
  exact .inr ⟨tile, htile, by rw [hp]; rfl⟩

/-- **The invariant resolves the focus.** -/
theorem LayoutOk.focusResolves {layout : WindowLayout} (h : LayoutOk layout) :
    FocusResolves layout where
  focused := fun tile htile tab htab => ((h tile htile).tabs tab htab).focused
  resolves := by
    rintro tab htab ⟨tile, htile, panelTab, hpanelTab, -⟩
    have hframes : ∀ tile ∈ tabLeaves tab, FrameOk tile :=
      fun tile htile => h tile (mem_getAllWorkspaceTileLeaves.mpr ⟨tab, htab, htile⟩)
    obtain ⟨p, hp⟩ := (hframes tile htile).resolves (ne_nil_of_mem hpanelTab)
    obtain ⟨p', hp'⟩ := resolveActivePaneForWindowTab_isSome htile hp
    obtain ⟨tile', htile', hresolved⟩ := resolveActivePaneForWindowTab_eq_some hp'
    exact ⟨p', hp', tile', htile', (hframes tile' htile').resolved hresolved⟩

/-! ## Edits of one frame -/

theorem frameOk_of_noTabs (h : tile.panelTabs = []) : FrameOk tile where
  tabs := by
    rw [h]
    exact fun _ htab => nomatch htab
  active := fun hne => absurd h hne

theorem frameOk_emptyTile (id w : String) : FrameOk (emptyTile id w) :=
  frameOk_of_noTabs rfl

namespace FrameOk

variable {tile : WorkspaceTileLeaf} (h : FrameOk tile)

include h

theorem mapTabs {f : PanelTab → PanelTab} (hid : ∀ tab, (f tab).id = tab.id)
    (hf : ∀ tab ∈ tile.panelTabs, PanelTabOk (f tab)) :
    FrameOk { tile with panelTabs := tile.panelTabs.map f } where
  tabs := by
    intro tab' htab'
    obtain ⟨tab, htab, rfl⟩ := mem_map.mp htab'
    exact hf tab htab
  active := by
    intro hne
    obtain ⟨tab, htab, hactive⟩ := h.active fun hnil => hne (by rw [hnil]; rfl)
    exact ⟨f tab, mem_map.mpr ⟨tab, htab, rfl⟩, by rw [hid]; exact hactive⟩

theorem activate {id : Option String} (hid : ∃ tab ∈ tile.panelTabs, some tab.id = id) :
    FrameOk { tile with activePanelTabId := id } :=
  ⟨h.tabs, fun _ => hid⟩

theorem addPanelTab (panelType : PaneType) {options : AddPanelTabOptions}
    (hgiven : ∀ tab ∈ options.tab, PanelTabOk tab) (g : IdGen) :
    FrameOk (Panels.addPanelTab panelType options tile g).1 := by
  have hadd : ∀ tab : PanelTab, PanelTabOk tab →
      FrameOk { tile with
        panelTabs := tile.panelTabs ++ [tab], activePanelTabId := some tab.id } := by
    refine fun tab htab => ⟨?_, fun _ => ⟨tab, by simp, rfl⟩⟩
    intro tab' htab'
    rcases mem_append.mp htab' with htab' | htab'
    · exact h.tabs tab' htab'
    · rw [mem_singleton.mp htab']
      exact htab
  unfold Panels.addPanelTab
  cases hoption : options.tab with
  | some tab => exact hadd tab (hgiven tab hoption)
  | none =>
    -- the new tab has one pane, which is focused
    apply hadd
    refine ⟨forked_leaf _, ?_, ?_⟩
    · intro id hid
      rw [getLeafIds_leaf, mem_singleton] at hid
      rw [hid]
      exact g.idAt_ne_empty _ _
    · intro p hp
      cases hp
      exact mem_singleton_self _

theorem removePanelTab (tabId : String) : FrameOk (Panels.removePanelTab tabId tile) := by
  have hkept : ∀ tab ∈ tile.panelTabs.filter (·.id ≠ tabId), PanelTabOk tab :=
    fun tab htab => h.tabs tab (mem_of_mem_filter htab)
  unfold Panels.removePanelTab
  split
  · exact h
  · next index hindex =>
    dsimp only
    split
    · exact frameOk_of_noTabs rfl
    · next hlength =>
      split
      · next hother =>
        refine ⟨hkept, fun _ => ?_⟩
        have hlt := (findIdx?_eq_some_iff_findIdx_eq.mp hindex).1
        obtain ⟨tab, htab, hactive⟩ := h.active (ne_nil_of_length_pos (by omega))
        refine ⟨tab, mem_filter.mpr ⟨htab, decide_eq_true fun hid => hother ?_⟩, hactive⟩
        rw [← hactive, hid]
      · refine ⟨hkept, fun _ => ?_⟩
        have hlt : min index ((tile.panelTabs.filter (·.id ≠ tabId)).length - 1) <
            (tile.panelTabs.filter (·.id ≠ tabId)).length := by omega
        refine ⟨_, getElem_mem hlt, ?_⟩
        rw [getElem?_eq_getElem hlt]
        rfl

theorem switchPanelTab (tabId : String) : FrameOk (Panels.switchPanelTab tabId tile) := by
  unfold Panels.switchPanelTab
  split
  · next hany =>
    obtain ⟨tab, htab, hid⟩ := any_eq_true.mp hany
    exact h.activate ⟨tab, htab, by rw [of_decide_eq_true hid]⟩
  · exact h

theorem activateAt {i : ℕ} (hi : i < tile.panelTabs.length) :
    FrameOk { tile with activePanelTabId := tile.panelTabs[i]?.map (·.id) } := by
  apply h.activate
  refine ⟨tile.panelTabs[i], getElem_mem hi, ?_⟩
  rw [getElem?_eq_getElem hi]
  rfl

theorem switchPanelTabByIndex (index : ℤ) : FrameOk (Panels.switchPanelTabByIndex index tile) := by
  unfold Panels.switchPanelTabByIndex
  dsimp only
  split
  · exact h
  · next hlength =>
    split
    · rw [getLast?_eq_getElem?]
      exact h.activateAt (by omega)
    · split
      · exact h
      · exact h.activateAt (by omega)

theorem switchPanelTabRelative (delta : ℤ) :
    FrameOk (Panels.switchPanelTabRelative delta tile) := by
  unfold Panels.switchPanelTabRelative
  split
  · exact h
  · next hlength =>
    split
    · rw [head?_eq_getElem?]
      exact h.activateAt (by omega)
    · next current _ =>
      have hnonneg := Int.emod_nonneg ((current : ℤ) + delta)
        (by omega : (tile.panelTabs.length : ℤ) ≠ 0)
      have hlt := Int.emod_lt_of_pos ((current : ℤ) + delta)
        (by omega : (0 : ℤ) < tile.panelTabs.length)
      exact h.activateAt (by omega)

theorem reorderPanelTabs (fromIndex toIndex : ℤ) :
    FrameOk (Panels.reorderPanelTabs fromIndex toIndex tile) := by
  unfold Panels.reorderPanelTabs
  dsimp only
  split
  · exact h
  · next hrange =>
    split
    · exact h
    · next moved hmoved =>
      have hperm := eraseIdx_insertIdx_perm hmoved
        (by omega : toIndex.toNat < tile.panelTabs.length)
      refine ⟨fun tab htab => h.tabs tab (hperm.mem_iff.mp htab), fun _ => ?_⟩
      obtain ⟨tab, htab, hactive⟩ := h.active (ne_nil_of_mem (mem_of_getElem? hmoved))
      exact ⟨tab, hperm.mem_iff.mpr htab, hactive⟩

theorem saveFocusInWorkspaceTile (paneId : String) :
    FrameOk (Panels.saveFocusInWorkspaceTile paneId tile) := by
  refine h.mapTabs (fun tab => by split <;> rfl) fun tab htab => ?_
  split
  · next hcontains =>
    refine ⟨(h.tabs tab htab).forked, (h.tabs tab htab).named, fun p hp => ?_⟩
    cases hp
    exact containsPane_iff.mp hcontains
  · exact h.tabs tab htab

/-- Putting a new tree into the panel tabs with an id: the new focus, or the old
one where there is none, has to be a pane of the new tree. -/
theorem putPanelTree {panelTabId : String} {newTree : PanelNode} {focus : Option String}
    (hforked : Forked newTree) (hnamed : ∀ id ∈ getLeafIds newTree, id ≠ "")
    (hfocus : ∀ tab ∈ tile.panelTabs, tab.id = panelTabId →
      ∀ p, focus.or tab.focusedPaneId = some p → p ∈ getLeafIds newTree) :
    FrameOk (Panels.putPanelTree panelTabId newTree focus tile) := by
  refine h.mapTabs (fun tab => by split <;> rfl) fun tab htab => ?_
  split
  · next hid => exact ⟨hforked, hnamed, hfocus tab htab hid⟩
  · exact h.tabs tab htab

end FrameOk

theorem Forked.leaf_or_two_le {t : PanelNode} (h : Forked t) :
    (∃ pane, t = .leaf pane) ∨ 2 ≤ countLeaves t := by
  cases t with
  | leaf pane => exact .inl ⟨pane, rfl⟩
  | split info cs =>
    right
    obtain ⟨hlength, hcs⟩ := (forked_split info cs).mp h
    match cs, hlength with
    | c :: d :: rest, _ =>
      rw [countLeaves, LeafTree.leaves_split, flatMap_cons, flatMap_cons,
        length_append, length_append]
      have hc := length_pos_of_ne_nil (hcs c (by simp)).leaves_ne_nil
      have hd := length_pos_of_ne_nil (hcs d (by simp)).leaves_ne_nil
      omega

theorem PanelTabOk.closePane (h : PanelTabOk tab) {paneId : String}
    {newTree : PanelNode} (hclose : closePane paneId tab.panelLayout = some newTree) :
    Forked newTree ∧ (∀ id ∈ getLeafIds newTree, id ≠ "") ∧
      ∀ id ∈ getLeafIds tab.panelLayout, id ≠ paneId → id ∈ getLeafIds newTree := by
  have hleft : closeLeaves paneId tab.panelLayout = newTree.leaves := by
    rw [closeLeaves, hclose, elim_some]
  refine ⟨closePane_forked h.forked hclose, fun id hid => ?_, fun id hid hne => ?_⟩
  · obtain ⟨pane, hpane, hpaneId⟩ := mem_getLeafIds.mp hid
    rw [← hleft] at hpane
    exact h.named id (mem_getLeafIds.mpr ⟨pane, (closeLeaves_sublist _).subset hpane, hpaneId⟩)
  · obtain ⟨pane, hpane, rfl⟩ := mem_getLeafIds.mp hid
    rw [mem_getLeafIds, ← hleft]
    exact ⟨pane, mem_closeLeaves hpane hne, rfl⟩

theorem PanelTabOk.closePaneInPanelTab (h : PanelTabOk tab)
    {panelTabId paneId : String} (hother : tab.id = panelTabId → 1 < countLeaves tab.panelLayout →
      tab.focusedPaneId ≠ some paneId) :
    PanelTabOk (closePaneInPanelTab panelTabId paneId tab) := by
  unfold Panels.closePaneInPanelTab
  split
  · exact h
  · next hid =>
    split
    · exact h
    · next newTree hclose =>
      obtain ⟨hforked, hnamed, hkept⟩ := h.closePane hclose
      refine ⟨hforked, hnamed, fun p hp => hkept p (h.focused p hp) ?_⟩
      rintro rfl
      rcases h.forked.leaf_or_two_le with ⟨pane, hleaf⟩ | htwo
      · -- the only pane is the closed one, and nothing would be left
        have hmem := h.focused p hp
        rw [hleaf, getLeafIds_leaf, mem_singleton] at hmem
        rw [hleaf, Panels.closePane, if_pos hmem.symm] at hclose
        cases hclose
      · exact hother (not_not.mp hid) htwo hp

/-! ## Edits of the layout -/

namespace LayoutOk

variable {layout : WindowLayout} {layout' : WindowLayout} {w : String} {tile : WorkspaceTileLeaf}
  {g : IdGen}

section

variable (h : LayoutOk layout)
include h

theorem of_frames (hframes : ∀ tile ∈ getAllWorkspaceTileLeaves layout',
      tile ∈ getAllWorkspaceTileLeaves layout ∨ ∃ id, tile = emptyTile id w) :
    LayoutOk layout' := by
  intro tile htile
  rcases hframes tile htile with htile | ⟨id, rfl⟩
  · exact h tile htile
  · exact frameOk_emptyTile id w

theorem of_subset (hframes : getAllWorkspaceTileLeaves layout' ⊆ getAllWorkspaceTileLeaves layout) :
    LayoutOk layout' :=
  fun tile htile => h tile (hframes htile)

theorem of_tabs (htabs : layout'.tabs ⊆ layout.tabs) : LayoutOk layout' := by
  refine h.of_subset fun tile htile => ?_
  obtain ⟨tab, htab, htile⟩ := mem_getAllWorkspaceTileLeaves.mp htile
  exact mem_getAllWorkspaceTileLeaves.mpr ⟨tab, htabs htab, htile⟩

theorem updateWorkspaceTileLeaf {transform : WorkspaceTileLeaf → WorkspaceTileLeaf}
    (htransform : ∀ tile ∈ getAllWorkspaceTileLeaves layout, tile.workspaceId = w →
      FrameOk tile → FrameOk (transform tile)) :
    LayoutOk (Panels.updateWorkspaceTileLeaf layout w transform) := by
  intro tile' htile'
  rw [frames_updateWorkspaceTileLeaf] at htile'
  obtain ⟨tile, htile, rfl⟩ := mem_map.mp htile'
  split
  · next hw => exact htransform tile htile hw (h tile htile)
  · exact h tile htile

theorem updateWorkspaceTileLeafState {σ : Type} {S : σ → Prop}
    {transform : WorkspaceTileLeaf → σ → WorkspaceTileLeaf × σ}
    (hS : ∀ tile s, S s → S (transform tile s).2)
    (htransform : ∀ tile ∈ getAllWorkspaceTileLeaves layout, ∀ s, S s → tile.workspaceId = w →
      FrameOk tile → FrameOk (transform tile s).1) {s : σ} (hs : S s) :
    LayoutOk (Panels.updateWorkspaceTileLeafState layout w transform s).1 := by
  intro tile' htile'
  obtain ⟨tile, htile, rfl | ⟨hw, s', hs', rfl⟩⟩ :=
    (frames_updateWorkspaceTileLeafState layout hS hs).2 tile' htile'
  · exact h _ htile
  · exact htransform tile htile s' hs' hw (h tile htile)

theorem saveFocusedPaneId (paneId : String) :
    LayoutOk (Panels.saveFocusedPaneId layout paneId) := by
  intro tile' htile'
  rw [frames_saveFocusedPaneId] at htile'
  obtain ⟨tile, htile, rfl⟩ := mem_map.mp htile'
  exact (h tile htile).saveFocusInWorkspaceTile paneId

theorem focusIfAny (paneId : Option String) : LayoutOk (Panels.focusIfAny layout paneId) := by
  unfold Panels.focusIfAny
  split
  · exact h
  · exact h.saveFocusedPaneId _

theorem removeWindowTab (tabId : String) : LayoutOk (Panels.removeWindowTab layout tabId) := by
  apply h.of_tabs
  rw [removeWindowTab_tabs]
  exact filter_sublist.subset

theorem switchWindowTab (tabId : String) : LayoutOk (Panels.switchWindowTab layout tabId) := by
  apply h.of_tabs
  rw [switchWindowTab_tabs]
  exact List.Subset.refl _

theorem addWindowTab {tab : Option WindowTab}
    (htab : ∀ t ∈ tab, ∀ tile ∈ tabLeaves t, FrameOk tile) (name : String) (g : IdGen) :
    LayoutOk (Panels.addWindowTab layout tab name g).1 := by
  intro tile hmem
  obtain ⟨t, ht, htile⟩ := mem_getAllWorkspaceTileLeaves.mp hmem
  unfold Panels.addWindowTab at ht
  cases tab with
  | some newTab =>
    rcases mem_append.mp ht with ht | ht
    · exact h tile (mem_getAllWorkspaceTileLeaves.mpr ⟨t, ht, htile⟩)
    · rw [mem_singleton.mp ht] at htile
      exact htab newTab rfl tile htile
  | none =>
    rcases mem_append.mp ht with ht | ht
    · exact h tile (mem_getAllWorkspaceTileLeaves.mpr ⟨t, ht, htile⟩)
    · rw [mem_singleton.mp ht] at htile
      cases htile

theorem handleCloseWindowTab (tabId : Option String) :
    LayoutOk (Panels.handleCloseWindowTab layout tabId) := by
  unfold Panels.handleCloseWindowTab
  split
  · exact h
  · split
    · exact (h.removeWindowTab _).focusIfAny _
    · exact h

theorem handleRemovePanelTab (w tabId : String) :
    LayoutOk (Panels.handleRemovePanelTab layout w tabId) := by
  have hremoved : LayoutOk (Panels.updateWorkspaceTileLeaf layout w (removePanelTab tabId)) :=
    h.updateWorkspaceTileLeaf fun _ _ _ hok => hok.removePanelTab tabId
  unfold Panels.handleRemovePanelTab autoCloseEmptyWorkspace
  dsimp only
  split
  · exact hremoved
  · split
    · exact hremoved
    · exact hremoved.of_subset (removeWorkspaceFromLayout_frames _)

theorem navigateToTerminal (tid : String) :
    ∀ layout' ∈ Panels.navigateToTerminal layout tid, LayoutOk layout' := by
  intro layout' hlayout'
  obtain ⟨location, -, rfl⟩ := map_eq_some_iff.mp hlayout'
  apply saveFocusedPaneId
  apply updateWorkspaceTileLeaf
  · split
    · exact h.switchWindowTab _
    · exact h
  · exact fun _ _ _ hok => hok.switchPanelTab _

end

/-! ## Panes -/

/-- The panel tabs with the id of the given one, in the frames of the workspace,
all have the given tree. -/
def TwinsAlike (layout : WindowLayout) (w : String) (tab : PanelTab) : Prop :=
  ∀ tile ∈ getAllWorkspaceTileLeaves layout, tile.workspaceId = w →
    ∀ twin ∈ tile.panelTabs, twin.id = tab.id → twin.panelLayout = tab.panelLayout

theorem findPaneHolder_eq_some {paneId : String} {tab : PanelTab}
    (hholder : findPaneHolder layout paneId = some (tile, tab)) :
    tile ∈ getAllWorkspaceTileLeaves layout ∧ getActivePanelTab tile = some tab ∧
      tab ∈ tile.panelTabs ∧ paneId ∈ getLeafIds tab.panelLayout := by
  obtain ⟨tile', htile', hfound⟩ := exists_of_findSome?_eq_some hholder
  obtain ⟨tab', hactive, hleaf⟩ := bind_eq_some_iff.mp hfound
  obtain ⟨pane, hpane, heq⟩ := map_eq_some_iff.mp hleaf
  cases heq
  exact ⟨htile', hactive, mem_of_find?_eq_some hactive, findLeaf_mem hpane⟩

theorem frameOk_addsPanes {tab : PanelTab} (htile : FrameOk tile)
    (htab : PanelTabOk tab) {result : PanelNode × IdGen}
    (hadds : AddsPanes g tab.panelLayout result) (hnext : AddsNext g result.1)
    (hfresh : g.Fresh (getLeafIds tab.panelLayout) ∨
      ∀ twin ∈ tile.panelTabs, twin.id = tab.id → twin.panelLayout = tab.panelLayout) :
    FrameOk (putPanelTree tab.id result.1
      ((findNewLeafAfterSplit tab.panelLayout result.1).map (·.id)) tile) := by
  have hnamed : ∀ id ∈ getLeafIds result.1, id ≠ "" := by
    intro id hid
    rcases hadds.ids id hid with hid | ⟨n, rfl⟩
    · exact htab.named id hid
    · exact g.idAt_ne_empty "pane" n
  refine htile.putPanelTree (hadds.forked htab.forked) hnamed fun twin htwin hid p hp => ?_
  cases hnew : findNewLeafAfterSplit tab.panelLayout result.1 with
  | some pane =>
    rw [hnew, map_some, some_or] at hp
    cases hp
    exact findNewLeafAfterSplit_mem hnew
  | none =>
    -- the old focus stays, which the tree still has
    rw [hnew, map_none, none_or] at hp
    rcases hfresh with hfresh | halike
    · obtain ⟨pane, hpane⟩ := findNewLeafAfterSplit_isSome hfresh hnext hnamed
      rw [hpane] at hnew
      cases hnew
    · apply hadds.kept
      rw [← halike twin htwin hid]
      exact (htile.tabs twin htwin).focused p hp

theorem handleSplitPane (h : LayoutOk layout) {paneId : String}
    (hfresh : ∀ tile tab, findPaneHolder layout paneId = some (tile, tab) →
      g.Fresh (getLeafIds tab.panelLayout) ∨ TwinsAlike layout tile.workspaceId tab)
    (dir : SplitDirection) (content : PaneContent) :
    LayoutOk (Panels.handleSplitPane layout paneId dir content g).1 := by
  unfold Panels.handleSplitPane
  dsimp only
  split
  · exact h
  · next holder tab hholder =>
    obtain ⟨hmem, -, htab, hpane⟩ := findPaneHolder_eq_some hholder
    apply h.updateWorkspaceTileLeaf
    intro tile htile hw hok
    obtain ⟨hadds, hnext⟩ := splitPane_addsPanes paneId dir _ tab.panelLayout g
    exact frameOk_addsPanes hok ((h holder hmem).tabs tab htab) hadds (hnext hpane)
      ((hfresh holder tab hholder).imp_right fun halike => halike tile htile hw)

def paneIds (layout : WindowLayout) : List String :=
  (getAllWorkspaceTileLeaves layout).flatMap fun tile =>
    tile.panelTabs.flatMap fun tab => getLeafIds tab.panelLayout

theorem addPaneToFrame (h : FrameOk tile) (dir : SplitDirection) (s : IdGen × Option String)
    (hfresh : ∀ tab, getActivePanelTab tile = some tab → s.1.Fresh (getLeafIds tab.panelLayout) ∨
      ∀ twin ∈ tile.panelTabs, twin.id = tab.id → twin.panelLayout = tab.panelLayout) :
    FrameOk (Panels.addPaneToFrame dir tile s).1 := by
  unfold Panels.addPaneToFrame
  split
  · dsimp only
    apply h.addPanelTab
    intro tab htab
    cases htab
  · next tab hactive =>
    obtain ⟨hadds, hnext⟩ := appendPane_addsPanes tab.panelLayout dir
      { command := none, paneType := some .terminal, terminalId := none,
        workspaceId := some tile.workspaceId } s.1
    exact frameOk_addsPanes h (h.tabs tab (mem_of_find?_eq_some hactive)) hadds hnext
      (hfresh tab hactive)

theorem addPaneToFrame_gen (dir : SplitDirection) (tile : WorkspaceTileLeaf)
    (s : IdGen × Option String) : (Panels.addPaneToFrame dir tile s).2.1.random = s.1.random ∧
      s.1.counter ≤ (Panels.addPaneToFrame dir tile s).2.1.counter := by
  unfold Panels.addPaneToFrame
  split
  · refine ⟨rfl, ?_⟩
    show s.1.counter ≤ s.1.counter + 1 + 1
    omega
  · next tab _ =>
    obtain ⟨hadds, -⟩ := appendPane_addsPanes tab.panelLayout dir
      { command := none, paneType := some .terminal, terminalId := none,
        workspaceId := some tile.workspaceId } s.1
    exact ⟨hadds.random, hadds.counter⟩

theorem handleAddPaneToWorkspace (h : LayoutOk layout)
    (hfresh : g.Fresh (paneIds layout) ∨ ∀ tile ∈ getAllWorkspaceTileLeaves layout,
      tile.workspaceId = w → ∀ tab, getActivePanelTab tile = some tab →
        ∀ twin ∈ tile.panelTabs, twin.id = tab.id → twin.panelLayout = tab.panelLayout)
    (dir : SplitDirection) : LayoutOk (Panels.handleAddPaneToWorkspace layout w dir g).1 := by
  unfold Panels.handleAddPaneToWorkspace
  split
  · exact h
  · next location _ =>
    dsimp only
    generalize hbase : (if layout.activeTabId = some location.tabId then layout
      else Panels.switchWindowTab layout location.tabId) = base
    have htabs : base.tabs = layout.tabs := by
      rw [← hbase]
      split
      · rfl
      · exact switchWindowTab_tabs layout _
    have hframes : getAllWorkspaceTileLeaves base = getAllWorkspaceTileLeaves layout := by
      rw [getAllWorkspaceTileLeaves_eq, getAllWorkspaceTileLeaves_eq, htabs]
    have hok : LayoutOk base := h.of_subset (by rw [hframes]; exact List.Subset.refl _)
    have hupdated : LayoutOk (Panels.updateWorkspaceTileLeafState base w
        (Panels.addPaneToFrame dir) (g, none)).1 := by
      apply hok.updateWorkspaceTileLeafState (S := fun s : IdGen × Option String =>
        s.1.random = g.random ∧ g.counter ≤ s.1.counter)
      · rintro tile s ⟨hrandom, hcounter⟩
        obtain ⟨hrandom', hcounter'⟩ := addPaneToFrame_gen dir tile s
        exact ⟨hrandom'.trans hrandom, Nat.le_trans hcounter hcounter'⟩
      · rintro tile htile s ⟨hrandom, hcounter⟩ hw hframe
        rw [hframes] at htile
        refine addPaneToFrame hframe dir s fun tab hactive => ?_
        rcases hfresh with hfresh | halike
        · -- the ids still to be drawn are drawn later than in the state before
          left
          intro pre n hn hmem
          rw [IdGen.idAt_congr hrandom] at hmem
          refine hfresh pre n (Nat.lt_of_le_of_lt hcounter hn) ?_
          exact mem_flatMap.mpr ⟨tile, htile,
            mem_flatMap.mpr ⟨tab, mem_of_find?_eq_some hactive, hmem⟩⟩
        · exact .inr (halike tile htile hw tab hactive)
      · exact ⟨rfl, Nat.le_refl _⟩
    split
    · exact h
    · exact hupdated.saveFocusedPaneId _

theorem handleClosePane (h : LayoutOk layout) (paneId : String) :
    LayoutOk (Panels.handleClosePane layout paneId) := by
  have hclosed : LayoutOk (closePaneInLayout layout paneId).resultLayout := by
    unfold closePaneInLayout
    split
    · exact h
    · next holder tab hholder =>
      obtain ⟨hmem, -, htab, hpane⟩ := findPaneHolder_eq_some hholder
      have hok := (h holder hmem).tabs tab htab
      dsimp only
      split
      · next newTree hclose =>
        obtain ⟨hforked, hnamed, -⟩ := hok.closePane hclose
        obtain ⟨sibling, hsibling⟩ := findSiblingPaneId_truthy hok.forked hok.named hpane
          (by rw [hclose]; exact some_ne_none _)
        have hfound := (truthy_eq_some.mp hsibling).1
        apply h.updateWorkspaceTileLeaf
        refine fun tile _ _ hframe => hframe.putPanelTree hforked hnamed fun _ _ _ p hp => ?_
        -- the focus moves to the sibling, which is left
        rw [hfound, some_or] at hp
        cases hp
        have hleft := findSiblingPaneId_mem hfound
        rwa [closeLeaves, hclose, elim_some] at hleft
      · exact h.updateWorkspaceTileLeaf fun _ _ _ hframe => hframe.removePanelTab _
  unfold Panels.handleClosePane
  dsimp only
  split
  · exact h
  · split
    · exact hclosed
    · intro _ htile
      cases htile

theorem closeTerminalInWindowLayout (h : LayoutOk layout) {tid : String}
    (hother : ∀ location, findTerminalLocation layout tid = some location →
      1 < locationPaneCount layout location →
      ∀ tile ∈ getAllWorkspaceTileLeaves layout, tile.workspaceId = location.workspaceId →
        ∀ tab ∈ tile.panelTabs, tab.id = location.panelTabId → 1 < countLeaves tab.panelLayout →
          tab.focusedPaneId ≠ some location.paneId) :
    LayoutOk (Panels.closeTerminalInWindowLayout layout tid) := by
  unfold Panels.closeTerminalInWindowLayout
  split
  · exact h
  · next location hlocation =>
    split
    · exact h.updateWorkspaceTileLeaf fun _ _ _ hframe => hframe.removePanelTab _
    · next hcount =>
      apply h.updateWorkspaceTileLeaf
      intro tile htile hw hframe
      refine hframe.mapTabs (fun tab => ?_) fun tab htab => ?_
      · unfold closePaneInPanelTab
        split
        · rfl
        · split <;> rfl
      · apply (hframe.tabs tab htab).closePaneInPanelTab
        exact hother location hlocation (by omega) tile htile hw tab htab

end LayoutOk

end Laborer.Panels
