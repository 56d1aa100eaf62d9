import Laborer.Panels.DecodeWindowLayout
import Mathlib.Tactic.Positivity

/-!
# What decoding guarantees

The layouts that `decodeWindowLayout` returns are fixed points of decoding, and
their active ids name tabs. Their splits and ids are in order exactly when the
parts of the input that the schema decoder took over are: the recovery checks
what it rebuilds, the strict path does not.
-/

namespace Laborer.Panels

open Laborer.Library List Option LeafTree

/-! ## Clean layouts -/

/-- A split with an id, at least two children and a positive size for each. -/
def CleanSplit (info : SplitInfo) (n : ℕ) : Prop :=
  info.id ≠ "" ∧ 2 ≤ n ∧ info.sizes.length = n ∧ ∀ s ∈ info.sizes, 0 < s

def CleanNode {α : Type} (leafOk : α → Prop) (t : LeafTree SplitInfo α) : Prop :=
  t.AllSplits CleanSplit ∧ ∀ a ∈ t.leaves, leafOk a

def CleanPane (pane : LeafNode) : Prop :=
  pane.id ≠ ""

def CleanPanelTab (tab : PanelTab) : Prop :=
  tab.id ≠ "" ∧ CleanNode CleanPane tab.panelLayout

/-- The active id names one of the tabs, and is undefined only without tabs. -/
def ActiveResolved (active : Option String) (ids : List String) : Prop :=
  (∀ id, active = some id → id ∈ ids) ∧ (active = none ↔ ids = [])

/-- A frame has an id, its panel tabs are in order and its active one exists. -/
def CleanTileLeaf (tile : WorkspaceTileLeaf) : Prop :=
  tile.id ≠ "" ∧ (∀ tab ∈ tile.panelTabs, CleanPanelTab tab) ∧
    ActiveResolved tile.activePanelTabId (tile.panelTabs.map (·.id))

/-- A layout in normal form: everything in it is in order, and decoding it again
returns it with nothing repaired. -/
structure CleanLayout (layout : WindowLayout) : Prop where
  tabs : ∀ tab ∈ layout.tabs, tab.id ≠ "" ∧ ∀ root ∈ tab.workspaceLayout,
    CleanNode CleanTileLeaf root
  active : ActiveResolved layout.activeTabId (layout.tabs.map (·.id))
  stable : decodeWindowLayout (encodeWindowLayout layout) =
    { windowLayout := some layout, wasRepaired := false }

/-! ## Repairing -/

theorem repairSizesTransform_spec (sizes : List ℚ) (n : ℕ) :
    (repairSizesTransform sizes n).length = n ∧ ∀ s ∈ repairSizesTransform sizes n, 0 < s := by
  unfold repairSizesTransform
  split
  · next h => exact h
  · refine ⟨length_replicate, fun s hs => ?_⟩
    obtain ⟨hn, rfl⟩ := mem_replicate.mp hs
    positivity

theorem repairSizesTransform_idem (sizes : List ℚ) (n : ℕ) :
    repairSizesTransform (repairSizesTransform sizes n) n = repairSizesTransform sizes n := by
  have hspec := repairSizesTransform_spec sizes n
  rw [repairSizesTransform, if_pos hspec]

theorem resolveActiveId_resolved (current : Option String) (ids : List String) :
    ActiveResolved (resolveActiveId current ids) ids := by
  have hhead : ActiveResolved ids.head? ids := by
    refine ⟨fun id hid => mem_of_head? hid, ?_⟩
    exact head?_eq_none_iff
  unfold resolveActiveId
  cases current with
  | none => exact hhead
  | some id =>
    simp only
    split
    · next h =>
      refine ⟨fun id' hid' => by cases hid'; exact h.2, ?_⟩
      constructor
      · intro hnone; cases hnone
      · rintro rfl
        exact absurd h.2 not_mem_nil
    · exact hhead

theorem resolveActiveId_idem (current : Option String) (ids : List String) :
    resolveActiveId (resolveActiveId current ids) ids = resolveActiveId current ids := by
  have hhead : resolveActiveId ids.head? ids = ids.head? := by
    cases ids with
    | nil => rfl
    | cons id ids => simp [resolveActiveId]
  cases current with
  | none => exact hhead
  | some id =>
    by_cases h : id ≠ "" ∧ id ∈ ids
    · have hres : resolveActiveId (some id) ids = some id := by simp [resolveActiveId, h]
      rw [hres, hres]
    · have hres : resolveActiveId (some id) ids = ids.head? := by
        simp only [resolveActiveId, h, if_false]
      rw [hres, hhead]

section Repair

variable {α : Type} {repairLeaf : α → α}

theorem repairNode_list_eq (cs : List (LeafTree SplitInfo α)) :
    repairNode.list repairLeaf cs = cs.map (repairNode repairLeaf) := by
  induction cs with
  | nil => rfl
  | cons c cs ih => rw [repairNode.list, ih, map_cons]

@[simp] theorem repairNode_leaf (a : α) :
    repairNode repairLeaf (.leaf a) = .leaf (repairLeaf a) := rfl

theorem repairNode_split (info : SplitInfo) (cs : List (LeafTree SplitInfo α)) :
    repairNode repairLeaf (.split info cs) =
      repairNode.collapse info (cs.map (repairNode repairLeaf)) := by
  rw [repairNode, repairNode_list_eq]

theorem collapse_of_length_ne_one (info : SplitInfo) {cs : List (LeafTree SplitInfo α)}
    (h : cs.length ≠ 1) :
    repairNode.collapse info cs =
      .split { info with sizes := repairSizesTransform info.sizes cs.length } cs := by
  match cs, h with
  | [], _ => rfl
  | _ :: _ :: _, _ => rfl

theorem repairNode_idem (hleaf : ∀ a, repairLeaf (repairLeaf a) = repairLeaf a)
    (t : LeafTree SplitInfo α) :
    repairNode repairLeaf (repairNode repairLeaf t) = repairNode repairLeaf t := by
  induction t using childInduction with
  | leaf a => simp [hleaf]
  | split info cs ih =>
    have hchildren : (cs.map (repairNode repairLeaf)).map (repairNode repairLeaf) =
        cs.map (repairNode repairLeaf) := by
      rw [List.map_map]
      exact map_congr_left ih
    rw [repairNode_split]
    by_cases hlen : (cs.map (repairNode repairLeaf)).length = 1
    · obtain ⟨only, honly⟩ := length_eq_one_iff.mp hlen
      rw [honly] at hchildren ⊢
      simpa [repairNode.collapse] using hchildren
    · rw [collapse_of_length_ne_one info hlen, repairNode_split, hchildren,
        collapse_of_length_ne_one _ hlen]
      simp only [repairSizesTransform_idem]

end Repair

theorem repairPanelTabTransform_idem (tab : PanelTab) :
    repairPanelTabTransform (repairPanelTabTransform tab) = repairPanelTabTransform tab := by
  have hidem : repairPanelNodeTransform (repairPanelNodeTransform tab.panelLayout) =
      repairPanelNodeTransform tab.panelLayout :=
    repairNode_idem (fun _ => rfl) tab.panelLayout
  simp only [repairPanelTabTransform, hidem]

theorem repairTileLeafTransform_idem (tile : WorkspaceTileLeaf) :
    repairTileLeafTransform (repairTileLeafTransform tile) = repairTileLeafTransform tile := by
  have htabs : (tile.panelTabs.map repairPanelTabTransform).map repairPanelTabTransform =
      tile.panelTabs.map repairPanelTabTransform := by
    rw [List.map_map]
    exact map_congr_left fun tab _ => repairPanelTabTransform_idem tab
  simp only [repairTileLeafTransform, htabs, resolveActiveId_idem]

theorem repairWindowTabTransform_idem (tab : WindowTab) :
    repairWindowTabTransform (repairWindowTabTransform tab) = repairWindowTabTransform tab := by
  simp only [repairWindowTabTransform, repairWorkspaceTileTransform, Option.map_map]
  congr 1
  cases tab.workspaceLayout with
  | none => rfl
  | some root => exact congrArg some (repairNode_idem repairTileLeafTransform_idem root)

/-- **Repairing is idempotent.** -/
theorem repairTransforms_idem (layout : WindowLayout) :
    repairTransforms (repairTransforms layout) = repairTransforms layout := by
  have hfilter : ((layout.tabs.filter (·.id ≠ "")).map repairWindowTabTransform).filter
      (·.id ≠ "") = (layout.tabs.filter (·.id ≠ "")).map repairWindowTabTransform := by
    rw [filter_eq_self]
    intro tab htab
    obtain ⟨tab', htab', rfl⟩ := mem_map.mp htab
    exact (mem_filter.mp htab').2
  have htabs : (((layout.tabs.filter (·.id ≠ "")).map repairWindowTabTransform).filter
      (·.id ≠ "")).map repairWindowTabTransform =
        (layout.tabs.filter (·.id ≠ "")).map repairWindowTabTransform := by
    rw [hfilter, List.map_map]
    exact map_congr_left fun tab _ => repairWindowTabTransform_idem tab
  simp only [repairTransforms, htabs, resolveActiveTabId, resolveActiveId_idem]

theorem decodeWindowLayout_repaired {input : Json} {layout : WindowLayout}
    (h : (decodeWindowLayout input).windowLayout = some layout) :
    ∃ decoded, layout = repairTransforms decoded := by
  unfold decodeWindowLayout at h
  split at h
  · next decoded _ => cases h; exact ⟨decoded, rfl⟩
  · unfold lenientDecodeWindowLayout at h
    split at h
    · cases h
    · split at h
      · cases h
        exact ⟨{ tabs := [], activeTabId := none }, rfl⟩
      · cases h
        exact ⟨_, rfl⟩

/-! ## Writing and reading back -/

theorem decodeSplitDirection_encode (direction : SplitDirection) :
    decodeSplitDirection (encodeSplitDirection direction) = some direction := by
  cases direction <;> rfl

theorem decodePaneType_encode (paneType : PaneType) :
    decodePaneType (encodePaneType paneType) = some paneType := by
  cases paneType <;> rfl

section Nodes

variable {α : Type} {leafTag splitTag : String} {decodeLeaf : Json → Option α}

theorem decodeNode_eq (raw : Json) :
    decodeNode leafTag splitTag decodeLeaf raw =
      if raw.getStr? "_tag" = some leafTag then (decodeLeaf raw).map .leaf
      else if raw.getStr? "_tag" = some splitTag then
        decodeSplit raw ((raw.getArr? "children").map
          (·.map (decodeNode leafTag splitTag decodeLeaf)))
      else none := by
  rw [decodeNode, Json.recurse_eq]

variable {encodeLeaf : α → Json}

theorem encodeNode_list_eq (cs : List (LeafTree SplitInfo α)) :
    encodeNode.list splitTag encodeLeaf cs = cs.map (encodeNode splitTag encodeLeaf) := by
  induction cs with
  | nil => rfl
  | cons c cs ih => rw [encodeNode.list, ih, map_cons]

theorem decodeNode_encodeNode (hne : splitTag ≠ leafTag)
    (htag : ∀ a, (encodeLeaf a).getStr? "_tag" = some leafTag)
    (hleaf : ∀ a, decodeLeaf (encodeLeaf a) = some a) (t : LeafTree SplitInfo α) :
    decodeNode leafTag splitTag decodeLeaf (encodeNode splitTag encodeLeaf t) = some t := by
  induction t using childInduction with
  | leaf a =>
    rw [decodeNode_eq, encodeNode, if_pos (htag a), hleaf]
    rfl
  | split info cs ih =>
    have hresults : (cs.map (encodeNode splitTag encodeLeaf)).map
        (decodeNode leafTag splitTag decodeLeaf) = cs.map some := by
      rw [List.map_map]
      exact map_congr_left ih
    have hchildren : (cs.map some).mapM (fun child => child) = some cs :=
      Json.mapM_map_eq_some fun _ _ => rfl
    have hsizes : (info.sizes.map Json.num).mapM Json.num? = some info.sizes :=
      Json.mapM_map_eq_some fun _ _ => rfl
    rw [decodeNode_eq, encodeNode, encodeNode_list_eq]
    simp only [Json.getStr?, Json.getArr?, Json.get?_cons, Json.str?, Json.arr?, decodeSplit,
      if_true, String.reduceEq, if_false, bind_some, map_some, Option.some.injEq, hne,
      decodeSplitDirection_encode, hresults, hchildren, hsizes]
    rfl

end Nodes

theorem decodeLeafNode_encode (pane : LeafNode) :
    decodeLeafNode (encodeLeafNode pane) = some pane := by
  obtain ⟨command, id, paneType, tid, workspaceId⟩ := pane
  cases command <;> cases tid <;> cases workspaceId <;>
    simp [decodeLeafNode, encodeLeafNode, decodeOptionalString, Json.getStr?, Json.str?,
      decodePaneType_encode, optionalField]

theorem decodePanelNode_encode (t : PanelNode) : decodePanelNode (encodePanelNode t) = some t := by
  apply decodeNode_encodeNode
  · decide
  · intro pane
    simp [encodeLeafNode, Json.getStr?, Json.str?]
  · exact decodeLeafNode_encode

theorem decodePanelTab_encode (tab : PanelTab) :
    decodePanelTab (encodePanelTab tab) = some tab := by
  obtain ⟨focusedPaneId, id, label, panelLayout⟩ := tab
  cases focusedPaneId <;> cases label <;>
    simp [decodePanelTab, encodePanelTab, decodeOptionalString, Json.getStr?, Json.str?,
      decodePanelNode_encode, optionalField]

theorem decodeTileLeaf_encode (tile : WorkspaceTileLeaf) :
    decodeTileLeaf (encodeTileLeaf tile) = some tile := by
  have htabs : (tile.panelTabs.map encodePanelTab).mapM decodePanelTab = some tile.panelTabs :=
    Json.mapM_map_eq_some fun tab _ => decodePanelTab_encode tab
  obtain ⟨activePanelTabId, id, panelTabs, workspaceId⟩ := tile
  cases activePanelTabId <;>
    simp_all [decodeTileLeaf, encodeTileLeaf, decodeOptionalString, Json.getStr?, Json.getArr?,
      Json.str?, Json.arr?, optionalField]

theorem decodeTileNode_encode (t : WorkspaceTileNode) :
    decodeTileNode (encodeTileNode t) = some t := by
  apply decodeNode_encodeNode
  · decide
  · intro tile
    simp [encodeTileLeaf, Json.getStr?, Json.str?]
  · exact decodeTileLeaf_encode

theorem decodeWindowTab_encode (tab : WindowTab) :
    decodeWindowTab (encodeWindowTab tab) = some tab := by
  obtain ⟨focusedWorkspaceTileId, id, label, workspaceLayout⟩ := tab
  cases focusedWorkspaceTileId <;> cases label <;> cases workspaceLayout <;>
    simp [decodeWindowTab, encodeWindowTab, decodeOptionalString, decodeOptionalTileNode,
      Json.getStr?, Json.str?, decodeTileNode_encode, optionalField]

/-- **Round trip**: the schema decoder reads a stored layout back. -/
theorem decodeLayout_encode (layout : WindowLayout) :
    decodeLayout (encodeWindowLayout layout) = some layout := by
  have htabs : (layout.tabs.map encodeWindowTab).mapM decodeWindowTab = some layout.tabs :=
    Json.mapM_map_eq_some fun tab _ => decodeWindowTab_encode tab
  obtain ⟨activeTabId, tabs⟩ := layout
  cases activeTabId <;>
    simp_all [decodeLayout, encodeWindowLayout, decodeOptionalString, Json.getArr?, Json.str?,
      Json.arr?, optionalField]

theorem decodeWindowLayout_stable {input : Json} {layout : WindowLayout}
    (h : (decodeWindowLayout input).windowLayout = some layout) :
    decodeWindowLayout (encodeWindowLayout layout) =
      { windowLayout := some layout, wasRepaired := false } := by
  obtain ⟨decoded, rfl⟩ := decodeWindowLayout_repaired h
  simp [decodeWindowLayout, decodeLayout_encode, repairTransforms_idem]

/-! ## Parts that are taken over in order -/

/-- What has to hold of a node for its repaired form to be in order: a split
with one child is replaced by the child, any other one needs an id and children. -/
def SoundNode {α : Type} (leafOk : α → Prop) : LeafTree SplitInfo α → Prop
  | .leaf a => leafOk a
  | .split info children =>
    (children.length ≠ 1 → info.id ≠ "" ∧ children ≠ []) ∧ list children
where
  /-- All children are in order. -/
  list : List (LeafTree SplitInfo α) → Prop
    | [] => True
    | child :: rest => SoundNode leafOk child ∧ list rest

/-- A frame is in order: the active id is resolved by the repair. -/
def SoundTileLeaf (tile : WorkspaceTileLeaf) : Prop :=
  tile.id ≠ "" ∧ ∀ tab ∈ tile.panelTabs, tab.id ≠ "" ∧ SoundNode CleanPane tab.panelLayout

section Nodes

variable {α : Type} {leafOk : α → Prop}

theorem soundNode_list_iff (cs : List (LeafTree SplitInfo α)) :
    SoundNode.list leafOk cs ↔ ∀ c ∈ cs, SoundNode leafOk c := by
  induction cs with
  | nil => simp [SoundNode.list]
  | cons c cs ih => rw [SoundNode.list, ih, forall_mem_cons]

theorem soundNode_split_iff (info : SplitInfo) (cs : List (LeafTree SplitInfo α)) :
    SoundNode leafOk (.split info cs) ↔
      (cs.length ≠ 1 → info.id ≠ "" ∧ cs ≠ []) ∧ ∀ c ∈ cs, SoundNode leafOk c := by
  rw [SoundNode, soundNode_list_iff]

theorem cleanNode_split_iff (info : SplitInfo) {cs : List (LeafTree SplitInfo α)}
    (hlen : cs.length ≠ 1) :
    CleanNode leafOk
        (.split { info with sizes := repairSizesTransform info.sizes cs.length } cs) ↔
      (info.id ≠ "" ∧ cs ≠ []) ∧ ∀ c ∈ cs, CleanNode leafOk c := by
  have hsizes := repairSizesTransform_spec info.sizes cs.length
  have htwo : 2 ≤ cs.length ↔ cs ≠ [] := by
    cases cs with
    | nil => simp
    | cons c cs => simp only [length_cons] at hlen ⊢; simp; omega
  simp only [CleanNode, allSplits_split, leaves_split, mem_flatMap, CleanSplit, hsizes.1, htwo]
  constructor
  · rintro ⟨⟨⟨hid, hne, -⟩, hsplits⟩, hleaves⟩
    exact ⟨⟨hid, hne⟩, fun c hc => ⟨hsplits c hc, fun a ha => hleaves a ⟨c, hc, ha⟩⟩⟩
  · rintro ⟨⟨hid, hne⟩, hcs⟩
    refine ⟨⟨⟨hid, hne, trivial, hsizes.2⟩, fun c hc => (hcs c hc).1⟩, fun a hleaf => ?_⟩
    obtain ⟨c, hc, ha⟩ := hleaf
    exact (hcs c hc).2 a ha

theorem cleanNode_repairNode_iff {repairLeaf : α → α} (t : LeafTree SplitInfo α) :
    CleanNode leafOk (repairNode repairLeaf t) ↔ SoundNode (fun a => leafOk (repairLeaf a)) t := by
  induction t using childInduction with
  | leaf a => simp [CleanNode, SoundNode]
  | split info cs ih =>
    rw [repairNode_split, soundNode_split_iff]
    by_cases hlen : cs.length = 1
    · obtain ⟨only, rfl⟩ := length_eq_one_iff.mp hlen
      simpa [repairNode.collapse] using ih only (mem_singleton_self _)
    · have hlen' : (cs.map (repairNode repairLeaf)).length ≠ 1 := by rwa [List.length_map]
      rw [collapse_of_length_ne_one info hlen', cleanNode_split_iff info hlen']
      simp only [List.forall_mem_map, ne_eq, List.map_eq_nil_iff, hlen, not_false_eq_true,
        true_imp_iff]
      exact and_congr_right fun _ => forall₂_congr fun c hc => ih c hc

end Nodes

theorem cleanTileLeaf_repair_iff (tile : WorkspaceTileLeaf) :
    CleanTileLeaf (repairTileLeafTransform tile) ↔ SoundTileLeaf tile := by
  have hactive := resolveActiveId_resolved tile.activePanelTabId
    ((tile.panelTabs.map repairPanelTabTransform).map (·.id))
  have htab : ∀ tab : PanelTab, CleanPanelTab (repairPanelTabTransform tab) ↔
      tab.id ≠ "" ∧ SoundNode CleanPane tab.panelLayout := fun tab =>
    and_congr_right fun _ => cleanNode_repairNode_iff tab.panelLayout
  simp only [CleanTileLeaf, SoundTileLeaf, repairTileLeafTransform, List.forall_mem_map, htab]
  exact and_congr_right fun _ => and_iff_left hactive

def SoundTabs (layout : WindowLayout) : Prop :=
  ∀ tab ∈ layout.tabs, tab.id ≠ "" → ∀ root ∈ tab.workspaceLayout, SoundNode SoundTileLeaf root

theorem repairTransforms_tabs_iff (layout : WindowLayout) :
    (∀ tab ∈ (repairTransforms layout).tabs, tab.id ≠ "" ∧
      ∀ root ∈ tab.workspaceLayout, CleanNode CleanTileLeaf root) ↔ SoundTabs layout := by
  have hroot : ∀ root : WorkspaceTileNode,
      CleanNode CleanTileLeaf (repairWorkspaceTileTransform root) ↔
        SoundNode SoundTileLeaf root := by
    intro root
    rw [repairWorkspaceTileTransform, cleanNode_repairNode_iff]
    simp only [cleanTileLeaf_repair_iff]
  simp only [repairTransforms, SoundTabs, List.forall_mem_map, List.mem_filter,
    repairWindowTabTransform, Option.mem_def, Option.map_eq_some_iff, forall_exists_index,
    and_imp, forall_apply_eq_imp_iff₂, hroot, decide_eq_true_eq]
  refine forall₂_congr fun tab _ => ?_
  constructor
  · intro h hid
    exact (h hid).2
  · intro h hid
    exact ⟨hid, h hid⟩

/-! ## Inputs whose parts are in order

The recovery descends through a malformed value and takes over, as they are, the
parts that the schema decoder accepts. Only these can be out of order. -/

section Nodes

variable {α : Type} (leafTag splitTag : String) (decodeLeaf lenientDecodeLeaf : Json → Option α)
  (leafOk : α → Prop) (rawLeafSound : Json → Prop)

def NodeInputSound : Json → Prop :=
  Json.recurse fun raw resultsAt =>
    match decodeNode leafTag splitTag decodeLeaf raw with
    | some node => SoundNode leafOk node
    | none =>
      if raw.getStr? "_tag" = some leafTag then rawLeafSound raw
      else if raw.getStr? "_tag" = some splitTag then
        (getNonEmptyStr? raw "id").isSome → ((raw.getStr? "direction").bind
          decodeSplitDirection).isSome → ∀ results ∈ resultsAt "children", ∀ p ∈ results, p
      else True

variable {leafTag splitTag decodeLeaf lenientDecodeLeaf leafOk rawLeafSound}

theorem lenientDecodeNode_eq (raw : Json) :
    lenientDecodeNode leafTag splitTag decodeLeaf lenientDecodeLeaf raw =
      match decodeNode leafTag splitTag decodeLeaf raw with
      | some node => some node
      | none =>
        if raw.getStr? "_tag" = some leafTag then (lenientDecodeLeaf raw).map .leaf
        else if raw.getStr? "_tag" = some splitTag then
          lenientDecodeSplit raw ((raw.getArr? "children").map
            (·.map (lenientDecodeNode leafTag splitTag decodeLeaf lenientDecodeLeaf)))
        else none :=
  Json.recurse_eq _ raw

theorem nodeInputSound_eq (raw : Json) :
    NodeInputSound leafTag splitTag decodeLeaf leafOk rawLeafSound raw =
      match decodeNode leafTag splitTag decodeLeaf raw with
      | some node => SoundNode leafOk node
      | none =>
        if raw.getStr? "_tag" = some leafTag then rawLeafSound raw
        else if raw.getStr? "_tag" = some splitTag then
          (getNonEmptyStr? raw "id").isSome → ((raw.getStr? "direction").bind
            decodeSplitDirection).isSome →
              ∀ results ∈ (raw.getArr? "children").map
                (·.map (NodeInputSound leafTag splitTag decodeLeaf leafOk rawLeafSound)),
                ∀ p ∈ results, p
        else True := by
  rw [NodeInputSound, Json.recurse_eq]

theorem getNonEmptyStr?_ne_empty {raw : Json} {key id : String}
    (h : getNonEmptyStr? raw key = some id) : id ≠ "" := by
  have hne := (filter_eq_some_iff.mp h).2
  simpa using hne

theorem lenientDecodeSplit_sound_iff (raw : Json)
    (children : Option (List (Option (LeafTree SplitInfo α)))) :
    (∀ node, lenientDecodeSplit raw children = some node → SoundNode leafOk node) ↔
      ((getNonEmptyStr? raw "id").isSome → ((raw.getStr? "direction").bind
        decodeSplitDirection).isSome → ∀ cs ∈ children, ∀ child ∈ cs,
          ∀ node, child = some node → SoundNode leafOk node) := by
  unfold lenientDecodeSplit
  cases hid : getNonEmptyStr? raw "id" with
  | none => simp
  | some id =>
    cases hdir : (raw.getStr? "direction").bind decodeSplitDirection with
    | none => simp
    | some direction =>
      cases children with
      | none => simp
      | some cs =>
        have hvalid : (∀ child ∈ cs, ∀ node, child = some node → SoundNode leafOk node) ↔
            ∀ node ∈ cs.filterMap fun child => child, SoundNode leafOk node := by
          simp only [mem_filterMap]
          exact ⟨fun h node ⟨child, hchild, heq⟩ => h child hchild node heq,
            fun h child hchild node heq => h node ⟨child, hchild, heq⟩⟩
        simp only [bind_eq_bind, bind_some, map_some, isSome_some,
          true_imp_iff, mem_def, Option.some.injEq, forall_eq', hvalid]
        -- nothing recovered, one child recovered, or a split over the children
        match cs.filterMap fun child => child with
        | [] => simp
        | [only] => simp
        | first :: second :: rest =>
          simp only [Option.pure_def, Option.some.injEq, forall_eq', soundNode_split_iff]
          constructor
          · exact fun h => h.2
          · exact fun h => ⟨fun _ => ⟨getNonEmptyStr?_ne_empty hid, by simp⟩, h⟩

theorem lenientDecodeNode_sound_iff
    (hleaf : ∀ raw, (∀ a, lenientDecodeLeaf raw = some a → leafOk a) ↔ rawLeafSound raw)
    (raw : Json) :
    (∀ node, lenientDecodeNode leafTag splitTag decodeLeaf lenientDecodeLeaf raw = some node →
      SoundNode leafOk node) ↔
      NodeInputSound leafTag splitTag decodeLeaf leafOk rawLeafSound raw := by
  induction raw using Json.arrayInduction with
  | step raw ih =>
    rw [lenientDecodeNode_eq, nodeInputSound_eq]
    cases decodeNode leafTag splitTag decodeLeaf raw with
    | some node => simp
    | none =>
      by_cases hleafTag : raw.getStr? "_tag" = some leafTag
      · simp only [hleafTag, if_true, ← hleaf]
        constructor
        · intro h a ha
          exact h (.leaf a) (by rw [ha]; rfl)
        · intro h node hnode
          obtain ⟨a, ha, rfl⟩ := map_eq_some_iff.mp hnode
          exact h a ha
      · by_cases hsplitTag : raw.getStr? "_tag" = some splitTag
        · rw [if_neg hleafTag, if_pos hsplitTag, if_neg hleafTag, if_pos hsplitTag,
            lenientDecodeSplit_sound_iff]
          refine imp_congr_right fun _ => imp_congr_right fun _ => ?_
          cases hchildren : raw.getArr? "children" with
          | none => simp
          | some items =>
            simp only [Option.map_some, Option.mem_def, Option.some.injEq, forall_eq',
              List.forall_mem_map]
            exact forall₂_congr fun item hitem => ih "children" items hchildren item hitem
        · simp [hleafTag, hsplitTag]

end Nodes

/-- The parts taken over from a raw pane tree are in order; a recovered pane is. -/
def PanelNodeInputSound : Json → Prop :=
  NodeInputSound "LeafNode" "SplitNode" decodeLeafNode CleanPane fun _ => True

def PanelTabInputSound (raw : Json) : Prop :=
  match (decodePanelTab raw).filter (·.id ≠ "") with
  | some tab => SoundNode CleanPane tab.panelLayout
  | none => (getNonEmptyStr? raw "id").isSome →
      ∀ layout ∈ raw.get? "panelLayout", PanelNodeInputSound layout

def TileLeafInputSound (raw : Json) : Prop :=
  (getNonEmptyStr? raw "id").isSome → (getNonEmptyStr? raw "workspaceId").isSome →
    ∀ rawTab ∈ (raw.getArr? "panelTabs").getD [], PanelTabInputSound rawTab

def TileNodeInputSound : Json → Prop :=
  NodeInputSound "WorkspaceTileLeaf" "WorkspaceTileSplit" decodeTileLeaf SoundTileLeaf
    TileLeafInputSound

/-- The parts taken over from a raw window tab are in order. -/
def WindowTabInputSound (raw : Json) : Prop :=
  match (decodeWindowTab raw).filter (·.id ≠ "") with
  | some tab => ∀ root ∈ tab.workspaceLayout, SoundNode SoundTileLeaf root
  | none => (getNonEmptyStr? raw "id").isSome →
      ∀ layout ∈ rawWorkspaceLayout raw, TileNodeInputSound layout

/-- **The condition on inputs**: the parts of the input that are taken over as
they are, where the schema decoder accepts them, are in order. -/
def InputSound (input : Json) : Prop :=
  match decodeLayout input with
  | some layout => SoundTabs layout
  | none => ∀ rawTab ∈ (input.getArr? "tabs").getD [], WindowTabInputSound rawTab

theorem lenientDecodePanelNode_sound_iff (raw : Json) :
    (∀ node, lenientDecodePanelNode raw = some node → SoundNode CleanPane node) ↔
      PanelNodeInputSound raw := by
  apply lenientDecodeNode_sound_iff
  intro raw
  refine iff_true_intro fun pane hpane => ?_
  obtain ⟨id, hid, hrest⟩ := bind_eq_some_iff.mp hpane
  obtain ⟨paneType, -, heq⟩ := bind_eq_some_iff.mp hrest
  cases heq
  exact getNonEmptyStr?_ne_empty hid

theorem lenientDecodePanelTab_sound_iff (raw : Json) :
    (∀ tab, lenientDecodePanelTab raw = some tab →
      tab.id ≠ "" ∧ SoundNode CleanPane tab.panelLayout) ↔ PanelTabInputSound raw := by
  unfold lenientDecodePanelTab PanelTabInputSound
  cases hstrict : (decodePanelTab raw).filter (·.id ≠ "") with
  | some tab =>
    have hid : tab.id ≠ "" := by simpa using (filter_eq_some_iff.mp hstrict).2
    simp [hid]
  | none =>
    cases hid : getNonEmptyStr? raw "id" with
    | none => simp
    | some id =>
      cases hlayout : raw.get? "panelLayout" with
      | none => simp
      | some layout =>
        simp only [bind_eq_bind, bind_some, isSome_some, true_imp_iff,
          mem_def, Option.some.injEq, forall_eq', ← lenientDecodePanelNode_sound_iff]
        constructor
        · intro h node hnode
          exact (h _ (by rw [hnode]; rfl)).2
        · intro h tab htab
          obtain ⟨node, hnode, heq⟩ := bind_eq_some_iff.mp htab
          cases heq
          exact ⟨getNonEmptyStr?_ne_empty hid, h node hnode⟩

theorem lenientDecodeTileLeaf_sound_iff (raw : Json) :
    (∀ tile, lenientDecodeTileLeaf raw = some tile → SoundTileLeaf tile) ↔
      TileLeafInputSound raw := by
  unfold lenientDecodeTileLeaf TileLeafInputSound
  cases hid : getNonEmptyStr? raw "id" with
  | none => simp
  | some id =>
    cases hworkspace : getNonEmptyStr? raw "workspaceId" with
    | none => simp
    | some workspaceId =>
      simp only [Option.bind_eq_bind, Option.bind_some, Option.isSome_some, true_imp_iff,
        Option.pure_def, Option.some.injEq, forall_eq', SoundTileLeaf,
        ← lenientDecodePanelTab_sound_iff, List.mem_filterMap, forall_exists_index, and_imp]
      constructor
      · intro h rawTab hrawTab tab htab
        exact h.2 tab rawTab hrawTab htab
      · intro h
        exact ⟨getNonEmptyStr?_ne_empty hid, fun tab rawTab hrawTab htab =>
          h rawTab hrawTab tab htab⟩

theorem lenientDecodeTileNode_sound_iff (raw : Json) :
    (∀ node, lenientDecodeTileNode raw = some node → SoundNode SoundTileLeaf node) ↔
      TileNodeInputSound raw :=
  lenientDecodeNode_sound_iff lenientDecodeTileLeaf_sound_iff raw

theorem lenientDecodeWindowTab_sound_iff (raw : Json) :
    (∀ tab, lenientDecodeWindowTab raw = some tab →
      tab.id ≠ "" → ∀ root ∈ tab.workspaceLayout, SoundNode SoundTileLeaf root) ↔
      WindowTabInputSound raw := by
  unfold lenientDecodeWindowTab WindowTabInputSound
  cases hstrict : (decodeWindowTab raw).filter (·.id ≠ "") with
  | some tab =>
    have hid : tab.id ≠ "" := by simpa using (filter_eq_some_iff.mp hstrict).2
    simp [hid]
  | none =>
    cases hid : getNonEmptyStr? raw "id" with
    | none => simp
    | some id =>
      have hne := getNonEmptyStr?_ne_empty hid
      cases hlayout : rawWorkspaceLayout raw with
      | none => simp [hne]
      | some layout =>
        simp only [Option.bind_eq_bind, Option.bind_some, Option.isSome_some, true_imp_iff,
          Option.pure_def, Option.mem_def, Option.some.injEq, forall_eq',
          ← lenientDecodeTileNode_sound_iff]
        exact ⟨fun h node hnode => h hne node hnode, fun h _ node hnode => h node hnode⟩

/-- **Decoding yields normal forms exactly on sound inputs.** -/
theorem decodeWindowLayout_clean_iff (input : Json) :
    (∀ layout, (decodeWindowLayout input).windowLayout = some layout → CleanLayout layout) ↔
      InputSound input := by
  -- of a repaired layout only the tile trees are in question
  have hrepaired : ∀ decoded,
      (decodeWindowLayout input).windowLayout = some (repairTransforms decoded) →
      (CleanLayout (repairTransforms decoded) ↔ SoundTabs decoded) := by
    intro decoded h
    rw [← repairTransforms_tabs_iff]
    exact ⟨fun hclean => hclean.tabs,
      fun htabs => ⟨htabs, resolveActiveId_resolved _ _, decodeWindowLayout_stable h⟩⟩
  unfold InputSound
  cases hstrict : decodeLayout input with
  | some decoded =>
    have hdecode : (decodeWindowLayout input).windowLayout = some (repairTransforms decoded) := by
      simp [decodeWindowLayout, hstrict]
    simp only [hdecode, Option.some.injEq, forall_eq']
    exact hrepaired decoded hdecode
  | none =>
    have hlenient : decodeWindowLayout input = lenientDecodeWindowLayout input := by
      simp [decodeWindowLayout, hstrict]
    cases htabs : input.getArr? "tabs" with
    | none => simp [hlenient, lenientDecodeWindowLayout, htabs]
    | some rawTabs =>
      have hsound : (∀ rawTab ∈ rawTabs, WindowTabInputSound rawTab) ↔
          ∀ tab ∈ rawTabs.filterMap lenientDecodeWindowTab,
            tab.id ≠ "" → ∀ root ∈ tab.workspaceLayout, SoundNode SoundTileLeaf root := by
        simp only [← lenientDecodeWindowTab_sound_iff, mem_filterMap, forall_exists_index, and_imp]
        exact ⟨fun h tab rawTab hraw heq => h rawTab hraw tab heq,
          fun h rawTab hraw tab heq => h tab rawTab hraw heq⟩
      simp only [getD_some, hsound]
      have hdecode : ∃ decoded : WindowLayout,
        decoded.tabs = rawTabs.filterMap lenientDecodeWindowTab ∧
          (decodeWindowLayout input).windowLayout = some (repairTransforms decoded) := by
        simp only [hlenient, lenientDecodeWindowLayout, htabs]
        cases rawTabs.filterMap lenientDecodeWindowTab with
        | nil => exact ⟨{ tabs := [], activeTabId := none }, rfl, rfl⟩
        | cons tab tabs => exact ⟨_, rfl, rfl⟩
      obtain ⟨decoded, htabsEq, hdecode⟩ := hdecode
      simp only [hdecode, Option.some.injEq, forall_eq', ← htabsEq]
      exact hrepaired decoded hdecode

/-! ## A layout taken over with a childless split -/

/-- A window tab whose panel tab has the given pane tree, all of it in a form
that the schema accepts. -/
def storedTree (tree : PanelNode) : Json :=
  encodeWindowLayout
    { activeTabId := some "tab"
      tabs := [{ focusedWorkspaceTileId := none, id := "tab", label := none,
                 workspaceLayout := some (.leaf
                  { activePanelTabId := some "panel", id := "tile", workspaceId := "ws",
                    panelTabs := [{ focusedPaneId := none, id := "panel", label := none,
                                    panelLayout := tree }] }) }] }

/-- A split without children, and a pane without an id, are taken over and
returned. -/
theorem decodeWindowLayout_keepsChildless :
    (∃ layout, (decodeWindowLayout (storedTree (.split ⟨"split", .vertical, []⟩ []))).windowLayout =
        some layout ∧ ¬ CleanLayout layout) ∧
      ∃ layout, (decodeWindowLayout (storedTree (.leaf
          { command := none, id := "", paneType := .terminal, terminalId := none,
            workspaceId := none }))).windowLayout = some layout ∧ ¬ CleanLayout layout := by
  refine ⟨⟨_, rfl, fun h => ?_⟩, ⟨_, rfl, fun h => ?_⟩⟩
  · obtain ⟨-, htabs⟩ := h.tabs _ (mem_singleton_self _)
    obtain ⟨-, hleaves⟩ := htabs _ rfl
    obtain ⟨-, hpanels, -⟩ := hleaves _ (mem_singleton_self _)
    obtain ⟨-, hsplits, -⟩ := hpanels _ (mem_singleton_self _)
    have htwo := (hsplits _ (mem_singleton_self _)).2.1
    exact absurd htwo (by decide)
  · obtain ⟨-, htabs⟩ := h.tabs _ (mem_singleton_self _)
    obtain ⟨-, hleaves⟩ := htabs _ rfl
    obtain ⟨-, hpanels, -⟩ := hleaves _ (mem_singleton_self _)
    obtain ⟨-, -, hpanes⟩ := hpanels _ (mem_singleton_self _)
    exact hpanes _ (mem_singleton_self _) rfl

end Laborer.Panels
