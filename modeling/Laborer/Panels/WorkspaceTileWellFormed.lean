import Laborer.Panels.WorkspaceTileUtils
import Mathlib.Tactic.Positivity

/-!
# Well-formed workspace tile trees

What a workspace tile tree has to satisfy, and how the edit operations of
`WorkspaceTileUtils` change it. Three relations describe the edits: `Inserts`
(one empty tile more), `Rearranges` (the same leaves in another place) and a
plain equation for removal; each is proved once per way of building a node.
-/

namespace Laborer.Panels

open Laborer.Library List LeafTree

/-! ## Well-formedness -/

/-- A split with `n` children has at least two of them and one positive
percentage for each, adding up to 100. -/
def SplitOk (info : SplitInfo) (n : ℕ) : Prop :=
  2 ≤ n ∧ info.sizes.length = n ∧ (∀ s ∈ info.sizes, 0 < s) ∧ info.sizes.sum = 100

def workspaceIds (t : WorkspaceTileNode) : List String :=
  t.leaves.map (·.workspaceId)

/-- A tile tree with distinct node ids, distinct workspaces and sound splits. -/
structure WellFormedTile (t : WorkspaceTileNode) : Prop where
  nodeIds_nodup : (nodeIds t).Nodup
  workspaceIds_nodup : (workspaceIds t).Nodup
  splits_ok : t.AllSplits SplitOk

@[simp] theorem workspaceIds_leaf (tile : WorkspaceTileLeaf) :
    workspaceIds (.leaf tile) = [tile.workspaceId] := rfl

@[simp] theorem workspaceIds_split (info : SplitInfo) (cs : List WorkspaceTileNode) :
    workspaceIds (.split info cs) = cs.flatMap workspaceIds := by
  simp only [workspaceIds, leaves_split, map_flatMap]
  rfl

variable {t : WorkspaceTileNode}

theorem WellFormedTile.leaves_ne_nil (h : WellFormedTile t) : t.leaves ≠ [] :=
  LeafTree.leaves_ne_nil (fun _ _ hok => Nat.lt_of_lt_of_le Nat.zero_lt_two hok.1) h.splits_ok

/-! ## Equal sizes -/

variable {α : Type}

theorem length_equalSizes (xs : List α) : (equalSizes xs).length = xs.length := by
  simp [equalSizes]

variable {xs : List α}

theorem sum_equalSizes (h : xs ≠ []) : (equalSizes xs).sum = 100 := by
  have hlen : (xs.length : ℚ) ≠ 0 := by simpa using h
  simp only [equalSizes, map_const', sum_replicate, nsmul_eq_mul]
  field_simp

theorem pos_of_mem_equalSizes {s : ℚ} (h : s ∈ equalSizes xs) : 0 < s := by
  obtain ⟨x, hx, rfl⟩ := mem_map.mp h
  have hlen : 0 < xs.length := length_pos_of_mem hx
  positivity

theorem splitOk_equalSizes (h : 2 ≤ xs.length) (id : String)
    (dir : SplitDirection) : SplitOk ⟨id, dir, equalSizes xs⟩ xs.length := by
  have hne : xs ≠ [] := by rintro rfl; simp at h
  exact ⟨h, length_equalSizes xs, fun s hs => pos_of_mem_equalSizes hs, sum_equalSizes hne⟩

theorem splitOk_halves (id : String) (dir : SplitDirection) : SplitOk ⟨id, dir, [50, 50]⟩ 2 := by
  refine ⟨le_rfl, rfl, by simp, ?_⟩
  norm_num

/-! ## Inserting an empty tile -/

def emptyTile (id workspaceId : String) : WorkspaceTileLeaf :=
  { activePanelTabId := none, id, panelTabs := [], workspaceId }

/-- `t'` has the leaves of `t` and one new empty tile; every new node id was
drawn on the way from `g` to `g'`. -/
structure Inserts (g g' : IdGen) (workspaceId : String) (t t' : WorkspaceTileNode) : Prop where
  leaves : ∃ id, t'.leaves.Perm (emptyTile id workspaceId :: t.leaves)
  ids : ∃ news, IdGen.Draws g g' news ∧ (nodeIds t').Perm (news ++ nodeIds t)
  splits : t.AllSplits SplitOk → t'.AllSplits SplitOk

variable {g g' : IdGen} {w : String}

theorem Inserts.child {c c' : WorkspaceTileNode}
    (h : Inserts g g' w c c') (info : SplitInfo) (pre post : List WorkspaceTileNode) :
    Inserts g g' w (.split info (pre ++ c :: post)) (.split info (pre ++ c' :: post)) where
  leaves := by
    obtain ⟨id, hperm⟩ := h.leaves
    refine ⟨id, ?_⟩
    simp only [leaves_split, flatMap_append, flatMap_cons]
    have hmid : (c'.leaves ++ post.flatMap LeafTree.leaves).Perm
        (emptyTile id w :: (c.leaves ++ post.flatMap LeafTree.leaves)) :=
      hperm.append_right _
    exact (hmid.append_left _).trans perm_middle
  ids := by
    obtain ⟨news, hdraws, hperm⟩ := h.ids
    refine ⟨news, hdraws, ?_⟩
    have hsplit := nodeIds_split_perm info (pre ++ c :: post)
    have hsplit' := nodeIds_split_perm info (pre ++ c' :: post)
    simp only [flatMap_append, flatMap_cons] at hsplit hsplit'
    refine hsplit'.trans (List.Perm.trans ?_ (hsplit.symm.append_left news))
    have hmid : (nodeIds c' ++ post.flatMap nodeIds).Perm
        (news ++ (nodeIds c ++ post.flatMap nodeIds)) := by
      rw [← append_assoc]
      exact hperm.append_right _
    have hpre : (pre.flatMap nodeIds ++ (nodeIds c' ++ post.flatMap nodeIds)).Perm
        (news ++ (pre.flatMap nodeIds ++ (nodeIds c ++ post.flatMap nodeIds))) :=
      (hmid.append_left _).trans (perm_append_comm_assoc _ _ _)
    exact (hpre.cons info.id).trans perm_middle.symm
  splits := by
    intro hok
    simp only [allSplits_split, forall_mem_append, forall_mem_cons,
      length_append, length_cons] at hok ⊢
    exact ⟨hok.1, hok.2.1, h.splits hok.2.2.1, hok.2.2.2⟩

theorem Inserts.insertChild (w : String) (info : SplitInfo) (pre post : List WorkspaceTileNode) :
    Inserts g (createWorkspaceTileLeaf g w).2 w (.split info (pre ++ post))
      (.split { info with
          sizes := equalSizes (pre ++ LeafTree.leaf (createWorkspaceTileLeaf g w).1 :: post) }
        (pre ++ .leaf (createWorkspaceTileLeaf g w).1 :: post)) where
  leaves := by
    refine ⟨(g.generateId "ws-tile").1, ?_⟩
    simp only [leaves_split, flatMap_append, flatMap_cons, leaves_leaf]
    exact perm_middle
  ids := by
    refine ⟨_, IdGen.Draws.generateId g "ws-tile", ?_⟩
    have hsplit := nodeIds_split_perm info (pre ++ post)
    refine (nodeIds_split_perm _ _).trans (List.Perm.trans ?_ (hsplit.symm.cons _))
    simp only [flatMap_append, flatMap_cons, nodeIds_leaf]
    exact (perm_middle.cons info.id).trans (List.Perm.swap ..)
  splits := by
    intro hok
    simp only [allSplits_split, forall_mem_append, forall_mem_cons,
      allSplits_leaf, true_and] at hok ⊢
    refine ⟨splitOk_equalSizes ?_ _ _, hok.2⟩
    have htwo : 2 ≤ (pre ++ post).length := hok.1.1
    simp only [length_append, length_cons] at htwo ⊢
    omega

theorem Inserts.wrap {id : String} (hid : IdGen.Draws g g' [id]) (w : String)
    (dir : SplitDirection) (t : WorkspaceTileNode) :
    Inserts g (g'.generateId "ws-split").2 w t
      (.split ⟨(g'.generateId "ws-split").1, dir, [50, 50]⟩ [t, .leaf (emptyTile id w)])
    where
  leaves := by
    refine ⟨id, ?_⟩
    simp only [leaves_split, flatMap_cons, flatMap_nil, leaves_leaf, append_nil]
    exact perm_append_singleton _ _
  ids := by
    refine ⟨_, hid.trans (IdGen.Draws.generateId g' "ws-split"), ?_⟩
    refine (nodeIds_split_perm _ _).trans ?_
    simp only [flatMap_cons, flatMap_nil, nodeIds_leaf, append_nil, cons_append, nil_append]
    exact ((perm_append_singleton _ _).cons _).trans (List.Perm.swap ..)
  splits := by
    intro hok
    simp only [allSplits_split, forall_mem_cons, allSplits_leaf]
    exact ⟨splitOk_halves _ _, hok, trivial, fun _ h => absurd h not_mem_nil⟩

/-! ## Splitting a tile -/

section Split

variable {target : String} {cs : List WorkspaceTileNode}

theorem isTileOf_eq_true {w : String} {c : WorkspaceTileNode}
    (h : isTileOf w c = true) : ∃ tile, c = .leaf tile ∧ tile.workspaceId = w := by
  cases c with
  | leaf tile => exact ⟨tile, rfl, by simpa [isTileOf] using h⟩
  | split info cs => simp [isTileOf] at h

theorem findIdx?_isTileOf_eq_none {w : String}
    (h : ∀ c ∈ cs, w ∉ workspaceIds c) : cs.findIdx? (isTileOf w) = none := by
  rw [findIdx?_eq_none_iff]
  intro c hc
  rw [Bool.eq_false_iff]
  intro htile
  obtain ⟨tile, rfl, hw⟩ := isTileOf_eq_true htile
  exact h _ hc (by simp [hw])

theorem splitTileRecursive_list_of_not_mem {new : String} {dir : SplitDirection}
    (h : ∀ c ∈ cs, ∀ g, splitTileRecursive target new dir c g = (c, g)) (g : IdGen) :
    splitTileRecursive.list target new dir cs g = (cs, g) := by
  induction cs with
  | nil => rfl
  | cons c cs ih =>
    rw [forall_mem_cons] at h
    simp only [splitTileRecursive.list, h.1, ih h.2]

theorem splitTileRecursive_of_not_mem {new : String} {dir : SplitDirection}
    {t : WorkspaceTileNode} (h : target ∉ workspaceIds t)
    (g : IdGen) : splitTileRecursive target new dir t g = (t, g) := by
  induction t using childInduction generalizing g with
  | leaf tile =>
    have hne : tile.workspaceId ≠ target := by simpa [eq_comm] using h
    simp [splitTileRecursive, hne]
  | split info cs ih =>
    have hcs : ∀ c ∈ cs, target ∉ workspaceIds c := by simpa using h
    have hlist := splitTileRecursive_list_of_not_mem (fun c hc g => ih c hc (hcs c hc) g) g
    simp [splitTileRecursive, findIdx?_isTileOf_eq_none hcs, hlist]

/-- The child holding the target is the only one that is rewritten. -/
theorem splitTileRecursive_list_of_mem (new : String) (dir : SplitDirection)
    (hmem : target ∈ cs.flatMap workspaceIds) (hnodup : (cs.flatMap workspaceIds).Nodup)
    (g : IdGen) : ∃ pre c post, cs = pre ++ c :: post ∧ target ∈ workspaceIds c ∧
      splitTileRecursive.list target new dir cs g =
        (pre ++ (splitTileRecursive target new dir c g).1 :: post,
          (splitTileRecursive target new dir c g).2) := by
  induction cs with
  | nil => simp at hmem
  | cons c cs ih =>
    rw [flatMap_cons] at hmem hnodup
    obtain ⟨-, hnodupRest, hdisjoint⟩ := nodup_append.mp hnodup
    by_cases hc : target ∈ workspaceIds c
    · have hrest : ∀ d ∈ cs, ∀ g, splitTileRecursive target new dir d g = (d, g) := by
        intro d hd g
        refine splitTileRecursive_of_not_mem (fun hmem' => ?_) g
        exact hdisjoint target hc target (mem_flatMap.mpr ⟨d, hd, hmem'⟩) rfl
      refine ⟨[], c, cs, rfl, hc, ?_⟩
      simp [splitTileRecursive.list, splitTileRecursive_list_of_not_mem hrest]
    · have hrest : target ∈ cs.flatMap workspaceIds := by simpa [hc] using hmem
      obtain ⟨pre, d, post, rfl, hd, heq⟩ := ih hrest hnodupRest
      refine ⟨c :: pre, d, post, rfl, hd, ?_⟩
      simp [splitTileRecursive.list, splitTileRecursive_of_not_mem hc, heq]

theorem splitTileRecursive_inserts (new : String) (dir : SplitDirection)
    {t : WorkspaceTileNode} (hmem : target ∈ workspaceIds t)
    (hnodup : (workspaceIds t).Nodup) (g : IdGen) :
    Inserts g (splitTileRecursive target new dir t g).2 new t
      (splitTileRecursive target new dir t g).1 := by
  induction t using childInduction generalizing g with
  | leaf tile =>
    have heq : tile.workspaceId = target := by simpa [eq_comm] using hmem
    simp only [splitTileRecursive, heq, if_true]
    exact Inserts.wrap (IdGen.Draws.generateId g "ws-tile") new dir (.leaf tile)
  | split info cs ih =>
    rw [workspaceIds_split] at hmem hnodup
    rw [splitTileRecursive]
    split
    · -- the target is a direct child of a split of this direction: insert next to it
      next i _ =>
      have h := Inserts.insertChild (g := g) new info (cs.take (i + 1)) (cs.drop (i + 1))
      rwa [take_append_drop] at h
    · obtain ⟨pre, c, post, rfl, hc, heq⟩ :=
        splitTileRecursive_list_of_mem new dir hmem hnodup g
      have hnodupChild : (workspaceIds c).Nodup := by
        simp only [flatMap_append, flatMap_cons] at hnodup
        exact (nodup_append.mp (nodup_append.mp hnodup).2.1).1
      simp only [heq]
      exact (ih c (by simp) hc hnodupChild g).child info pre post

end Split

/-! ## Adding a workspace -/

variable {t' : WorkspaceTileNode}

theorem Inserts.drop {g₁ g₂ : IdGen} {xs : List String} (hdrop : IdGen.Draws g g₁ xs)
    (h : Inserts g₁ g₂ w t t') :
    Inserts g g₂ w t t' where
  leaves := h.leaves
  ids := by
    obtain ⟨news, hdraws, hperm⟩ := h.ids
    exact ⟨news, hdrop.trans_drop hdraws, hperm⟩
  splits := h.splits

theorem fewestLeavesIndex_lt {counts : List ℕ} (h : counts ≠ []) :
    fewestLeavesIndex counts < counts.length := by
  have hstep : ∀ is : List ℕ, (∀ i ∈ is, i < counts.length) → ∀ start, start < counts.length →
      is.foldl (fun best i => if counts.getD i 0 < counts.getD best 0 then i else best) start <
        counts.length := by
    intro is
    induction is with
    | nil => exact fun _ start hstart => hstart
    | cons i is ih =>
      intro his start hstart
      rw [forall_mem_cons] at his
      apply ih his.2
      show (if _ then _ else _) < _
      split
      · exact his.1
      · exact hstart
  apply hstep
  · intro i hi
    rw [mem_range'_1] at hi
    omega
  · exact length_pos_iff.mpr h

section Append

variable {g g' : IdGen} {w : String}

theorem appendToColumn_inserts (hdraws : g' = (createWorkspaceTileLeaf g w).2)
    (t : WorkspaceTileNode) : Inserts g (appendToColumn t (createWorkspaceTileLeaf g w).1 g').2 w t
      (appendToColumn t (createWorkspaceTileLeaf g w).1 g').1 := by
  subst hdraws
  have hwrap := Inserts.wrap (IdGen.Draws.generateId g "ws-tile") w .vertical t
  unfold appendToColumn
  cases t with
  | leaf tile => exact hwrap
  | split info cs =>
    by_cases hdir : info.direction = .vertical
    · have h := Inserts.insertChild (g := g) w info cs []
      simpa [hdir] using h
    · simp only [hdir, if_false]
      exact hwrap

/-- A tree that an appended tile finds a place in: any but a horizontal split
without columns. -/
def AcceptsTile : WorkspaceTileNode → Prop
  | .leaf _ => True
  | .split info children => info.direction = .vertical ∨ children ≠ []

instance : DecidablePred AcceptsTile
  | .leaf _ => inferInstanceAs (Decidable True)
  | .split _ _ => inferInstanceAs (Decidable (_ ∨ _))

theorem acceptsTile_of_splitOk {t : WorkspaceTileNode} (hok : t.AllSplits SplitOk) :
    AcceptsTile t := by
  cases t with
  | leaf tile => trivial
  | split info cs =>
    right
    rintro rfl
    have htwo := ((allSplits_split _ _ _).mp hok).1.1
    simp at htwo

theorem appendTile_inserts {t : WorkspaceTileNode} (haccepts : AcceptsTile t) :
    Inserts g (appendTile t (createWorkspaceTileLeaf g w).1 (createWorkspaceTileLeaf g w).2).2 w t
      (appendTile t (createWorkspaceTileLeaf g w).1 (createWorkspaceTileLeaf g w).2).1 := by
  have hcolumn := appendToColumn_inserts (g := g) (w := w) rfl
  unfold appendTile
  cases t with
  | leaf tile => exact hcolumn (.leaf tile)
  | split info cs =>
    by_cases hdir : info.direction = .vertical
    · simpa [hdir] using hcolumn (.split info cs)
    · -- a horizontal root: one column is extended, and there is a column
      have hcs : cs ≠ [] := haccepts.resolve_left hdir
      have hcounts : (cs.map fun child => (getWorkspaceTileLeaves child).length) ≠ [] := by
        simpa using hcs
      have hlt := fewestLeavesIndex_lt hcounts
      rw [length_map] at hlt
      simp only [hdir, if_false]
      generalize fewestLeavesIndex
        (cs.map fun child => (getWorkspaceTileLeaves child).length) = i at hlt ⊢
      have hchild := (hcolumn cs[i]).child info (cs.take i) (cs.drop (i + 1))
      rw [getElem_cons_drop hlt, take_append_drop] at hchild
      simp only [getElem?_eq_getElem hlt, set_eq_take_append_cons_drop, hlt, if_true]
      exact hchild

end Append

theorem Inserts.workspaceIds
    (h : Inserts g g' w t t') : (workspaceIds t').Perm (w :: workspaceIds t) := by
  obtain ⟨id, hperm⟩ := h.leaves
  exact hperm.map _

theorem Inserts.ne (h : Inserts g g' w t t') : t' ≠ t := by
  rintro rfl
  have hlen := h.workspaceIds.length_eq
  simp at hlen

theorem Inserts.wellFormed
    (h : Inserts g g' w t t') (hwf : WellFormedTile t) (hfresh : g.Fresh (nodeIds t))
    (hnew : w ∉ Panels.workspaceIds t) : WellFormedTile t' ∧ g'.Fresh (nodeIds t') := by
  obtain ⟨news, hdraws, hperm⟩ := h.ids
  refine ⟨⟨?_, ?_, h.splits hwf.splits_ok⟩, (hdraws.fresh hfresh).mono hperm.subset⟩
  · exact hperm.nodup_iff.mpr (hdraws.nodup_append hfresh hwf.nodeIds_nodup)
  · exact h.workspaceIds.nodup_iff.mpr (nodup_cons.mpr ⟨hnew, hwf.workspaceIds_nodup⟩)

theorem addWorkspaceToTab_inserts {tab : WindowTab} {root : WorkspaceTileNode}
    (hroot : tab.workspaceLayout = some root) (haccepts : AcceptsTile root)
    (hnodup : (workspaceIds root).Nodup) (w : String) (below : Option String) (g : IdGen) :
    ∃ root', (addWorkspaceToTab tab w below g).1 = { tab with workspaceLayout := some root' } ∧
      Inserts g (addWorkspaceToTab tab w below g).2 w root root' := by
  have happend := appendTile_inserts (g := g) (w := w) haccepts
  unfold addWorkspaceToTab
  rw [hroot]
  cases below with
  | none => exact ⟨_, rfl, happend⟩
  | some target =>
    by_cases hmem : target ∈ workspaceIds root
    · have hsplit := splitTileRecursive_inserts w .vertical hmem hnodup
        (createWorkspaceTileLeaf g w).2
      simp only [ne_eq, hsplit.ne, not_false_eq_true, if_true]
      -- the tile drawn first is dropped, the split draws its own
      exact ⟨_, rfl, hsplit.drop (IdGen.Draws.generateId g "ws-tile")⟩
    · simp only [splitTileRecursive_of_not_mem hmem, ne_eq, not_true_eq_false, if_false]
      exact ⟨_, rfl, happend⟩

/-! ## Removing a workspace -/

section Remove

variable {w : String}

theorem removeTileRecursive_list_eq (cs : List WorkspaceTileNode) :
    removeTileRecursive.list w cs = cs.map (removeTileRecursive w) := by
  induction cs with
  | nil => rfl
  | cons c cs ih => rw [removeTileRecursive.list, ih, map_cons]

theorem removeTileRecursive_split (info : SplitInfo) (cs : List WorkspaceTileNode) :
    (removeTileRecursive w (.split info cs) = some (.split info cs) ∧
      cs.filterMap (removeTileRecursive w) = cs) ∨
    (removeTileRecursive w (.split info cs) = none ∧
      cs.filterMap (removeTileRecursive w) = []) ∨
    (∃ only, removeTileRecursive w (.split info cs) = some only ∧
      cs.filterMap (removeTileRecursive w) = [only]) ∨
    (2 ≤ (cs.filterMap (removeTileRecursive w)).length ∧
      removeTileRecursive w (.split info cs) =
        some (.split { info with sizes := equalSizes (cs.filterMap (removeTileRecursive w)) }
          (cs.filterMap (removeTileRecursive w)))) := by
  rw [removeTileRecursive, removeTileRecursive_list_eq]
  have hrem : (cs.map (removeTileRecursive w)).filterMap id =
      cs.filterMap (removeTileRecursive w) := by
    rw [filterMap_map]
    rfl
  rw [hrem]
  by_cases hsame : cs.map (removeTileRecursive w) = cs.map some
  · left
    rw [← hrem, hsame, if_pos rfl, filterMap_map]
    exact ⟨rfl, by simp⟩
  · rw [if_neg hsame]
    match hres : cs.filterMap (removeTileRecursive w) with
    | [] => exact .inr (.inl ⟨rfl, rfl⟩)
    | [only] => exact .inr (.inr (.inl ⟨only, rfl, rfl⟩))
    | c :: d :: rest => exact .inr (.inr (.inr ⟨by simp, rfl⟩))

/-- The leaves of a tree that may have been removed entirely. -/
def optionLeaves (t : Option WorkspaceTileNode) : List WorkspaceTileLeaf :=
  t.elim [] LeafTree.leaves

@[simp] theorem optionLeaves_none : optionLeaves none = [] := rfl

@[simp] theorem optionLeaves_some (t : WorkspaceTileNode) : optionLeaves (some t) = t.leaves :=
  rfl

def tabLeaves (tab : WindowTab) : List WorkspaceTileLeaf :=
  optionLeaves tab.workspaceLayout

def tabWorkspaceIds (tab : WindowTab) : List String :=
  (tabLeaves tab).map (·.workspaceId)

theorem flatMap_filterMap_eq {f : WorkspaceTileNode → Option WorkspaceTileNode}
    (cs : List WorkspaceTileNode) :
    (cs.filterMap f).flatMap LeafTree.leaves = cs.flatMap fun c => optionLeaves (f c) := by
  induction cs with
  | nil => rfl
  | cons c cs ih => cases h : f c <;> simp [h, ih]

theorem removeTileRecursive_leaves (t : WorkspaceTileNode) :
    optionLeaves (removeTileRecursive w t) = t.leaves.filter fun tile => tile.workspaceId ≠ w := by
  induction t using childInduction with
  | leaf tile =>
    by_cases h : tile.workspaceId = w <;> simp [removeTileRecursive, h]
  | split info cs ih =>
    have hleft : (cs.filterMap (removeTileRecursive w)).flatMap LeafTree.leaves =
        (LeafTree.split info cs).leaves.filter fun tile => tile.workspaceId ≠ w := by
      rw [flatMap_filterMap_eq, leaves_split, filter_flatMap]
      exact flatMap_congr fun c hc => ih c hc
    rw [← hleft]
    rcases removeTileRecursive_split (w := w) info cs with h | h | ⟨only, h⟩ | h
    · rw [h.1, h.2]; simp
    · rw [h.1, h.2]; simp
    · rw [h.1, h.2]; simp
    · rw [h.2]; simp

theorem removeTileRecursive_splitIds (t : WorkspaceTileNode) :
    ∀ t', removeTileRecursive w t = some t' →
      (t'.splits.map (·.1.id)).Sublist (t.splits.map (·.1.id)) := by
  induction t using childInduction with
  | leaf tile =>
    intro t' h
    simp only [removeTileRecursive] at h
    split at h
    · simp at h
    · cases h; simp
  | split info cs ih =>
    have hchildren : (((cs.filterMap (removeTileRecursive w)).flatMap LeafTree.splits).map
        (·.1.id)).Sublist ((cs.flatMap LeafTree.splits).map (·.1.id)) := by
      clear info
      induction cs with
      | nil => simp
      | cons c cs ihcs =>
        rw [forall_mem_cons] at ih
        have hrest := ihcs ih.2
        cases hc : removeTileRecursive w c with
        | none =>
          rw [filterMap_cons_none hc, flatMap_cons, map_append]
          exact hrest.trans (sublist_append_right _ _)
        | some c' =>
          rw [filterMap_cons_some hc, flatMap_cons, flatMap_cons, map_append, map_append]
          exact (ih.1 c' hc).append hrest
    intro t' ht'
    rw [splits_split, map_cons]
    rcases removeTileRecursive_split (w := w) info cs with h | h | ⟨only, h⟩ | h
    · rw [h.1] at ht'; cases ht'; simp
    · rw [h.1] at ht'; simp at ht'
    · rw [h.1] at ht'
      cases ht'
      rw [h.2] at hchildren
      exact List.Sublist.cons _ (by simpa using hchildren)
    · rw [h.2] at ht'
      cases ht'
      rw [splits_split, map_cons]
      exact hchildren.cons_cons _

theorem removeTileRecursive_splits (t : WorkspaceTileNode) (hok : t.AllSplits SplitOk) :
    ∀ t', removeTileRecursive w t = some t' → t'.AllSplits SplitOk := by
  induction t using childInduction with
  | leaf tile =>
    intro t' h
    simp only [removeTileRecursive] at h
    split at h
    · simp at h
    · cases h; simp
  | split info cs ih =>
    obtain ⟨hinfo, hcs⟩ := (allSplits_split _ _ _).mp hok
    have hchildren : ∀ c' ∈ cs.filterMap (removeTileRecursive w), c'.AllSplits SplitOk := by
      intro c' hc'
      obtain ⟨c, hc, hrem⟩ := mem_filterMap.mp hc'
      exact ih c hc (hcs c hc) c' hrem
    intro t' ht'
    rcases removeTileRecursive_split (w := w) info cs with h | h | ⟨only, h⟩ | h
    · rw [h.1] at ht'; cases ht'; exact hok
    · rw [h.1] at ht'; simp at ht'
    · rw [h.1] at ht'
      cases ht'
      exact hchildren t' (by simp [h.2])
    · rw [h.2] at ht'
      cases ht'
      exact (allSplits_split _ _ _).mpr ⟨splitOk_equalSizes h.1 _ _, hchildren⟩

theorem tabLeaves_removeWorkspaceFromTab (tab : WindowTab) :
    tabLeaves (removeWorkspaceFromTab tab w) =
      (tabLeaves tab).filter fun tile => tile.workspaceId ≠ w := by
  unfold removeWorkspaceFromTab
  cases hroot : tab.workspaceLayout with
  | none => simp [tabLeaves, hroot]
  | some root =>
    simp only [tabLeaves, hroot, optionLeaves_some]
    exact removeTileRecursive_leaves root

theorem removeTileRecursive_wellFormed {t t' : WorkspaceTileNode} (hwf : WellFormedTile t)
    (h : removeTileRecursive w t = some t') :
    WellFormedTile t' ∧ (nodeIds t').Sublist (nodeIds t) := by
  have hleaves : t'.leaves.Sublist t.leaves := by
    have heq := removeTileRecursive_leaves (w := w) t
    rw [h, optionLeaves_some] at heq
    rw [heq]
    exact filter_sublist
  have hids : (nodeIds t').Sublist (nodeIds t) :=
    (removeTileRecursive_splitIds t t' h).append (hleaves.map _)
  exact ⟨⟨hwf.nodeIds_nodup.sublist hids, hwf.workspaceIds_nodup.sublist (hleaves.map _),
    removeTileRecursive_splits t hwf.splits_ok t' h⟩, hids⟩

end Remove

end Laborer.Panels
