import Laborer.Panels.PanelTreeUtils
import Mathlib.Algebra.Order.BigOperators.Group.List

/-!
# Panes that an edit keeps

What closing, splitting and appending do to the panes of a panel tree, as far as
the focus is concerned: which panes are left, where the focus can go, and that
a split with fewer than two children never arises.
-/

namespace Laborer.Panels

open Laborer.Library List Option LeafTree

def Forked (t : PanelNode) : Prop :=
  t.AllSplits fun _ n => 2 ≤ n

@[simp] theorem forked_leaf (pane : LeafNode) : Forked (.leaf pane) :=
  allSplits_leaf _ pane

@[simp] theorem forked_split (info : SplitInfo) (cs : List PanelNode) :
    Forked (.split info cs) ↔ 2 ≤ cs.length ∧ ∀ c ∈ cs, Forked c :=
  allSplits_split _ info cs

variable {t : PanelNode}

theorem Forked.leaves_ne_nil (h : Forked t) : t.leaves ≠ [] :=
  LeafTree.leaves_ne_nil (fun _ _ hn => by omega) h

@[simp] theorem getLeafIds_leaf (pane : LeafNode) : getLeafIds (.leaf pane) = [pane.id] := rfl

@[simp] theorem getLeafIds_split (info : SplitInfo) (cs : List PanelNode) :
    getLeafIds (.split info cs) = cs.flatMap getLeafIds := by
  rw [getLeafIds, leaves_split, map_flatMap]
  rfl

theorem mem_getLeafIds {id : String} : id ∈ getLeafIds t ↔ ∃ pane ∈ t.leaves, pane.id = id :=
  mem_map

theorem containsPane_iff {paneId : String} :
    containsPane t paneId = true ↔ paneId ∈ getLeafIds t := by
  simp [containsPane, getLeafIds]

theorem findLeaf_mem {paneId : String} {pane : LeafNode}
    (h : findLeaf t paneId = some pane) : paneId ∈ getLeafIds t := by
  have hid := find?_some h
  exact mem_getLeafIds.mpr ⟨pane, mem_of_find?_eq_some h, by simpa using hid⟩

/-! ## The first pane -/

theorem getFirstLeafId_mem {id : String} (h : getFirstLeafId t = some id) : id ∈ getLeafIds t := by
  cases t with
  | leaf pane =>
    cases h
    exact mem_singleton_self _
  | split info cs =>
    -- a result from below a split is not empty
    have htruthy : truthy (getFirstLeafId (.split info cs)) = some id := by
      unfold getFirstLeafId searchLeaves at h ⊢
      rw [h]
      refine truthy_eq_some.mpr ⟨rfl, ?_⟩
      induction cs with
      | nil => cases h
      | cons c cs ih =>
        rw [searchLeaves.list] at h
        cases hc : truthy (searchLeaves (fun pane : LeafNode => some pane.id) c) with
        | none =>
          rw [hc] at h
          exact ih h
        | some found =>
          rw [hc] at h
          cases h
          exact (truthy_eq_some.mp hc).2
    unfold getFirstLeafId at htruthy
    rw [truthy_searchLeaves] at htruthy
    obtain ⟨pane, hpane, hid⟩ := exists_of_findSome?_eq_some htruthy
    cases (truthy_eq_some.mp hid).1
    exact mem_getLeafIds.mpr ⟨pane, hpane, rfl⟩

theorem getFirstLeafId_truthy (hleaves : t.leaves ≠ [])
    (hnamed : ∀ id ∈ getLeafIds t, id ≠ "") : ∃ id, truthy (getFirstLeafId t) = some id := by
  unfold getFirstLeafId
  rw [truthy_searchLeaves]
  obtain ⟨pane, hpane⟩ := exists_mem_of_ne_nil _ hleaves
  rw [← isSome_iff_exists, findSome?_isSome_iff]
  refine ⟨pane, hpane, ?_⟩
  have hid : truthy (some pane.id) = some pane.id :=
    truthy_eq_some.mpr ⟨rfl, hnamed _ (mem_getLeafIds.mpr ⟨pane, hpane, rfl⟩)⟩
  rw [hid]
  rfl

/-! ## Closing a pane -/

section Close

variable {paneId : String} {t : PanelNode}

def closeLeaves (paneId : String) (t : PanelNode) : List LeafNode :=
  (closePane paneId t).elim [] LeafTree.leaves

theorem isPane_iff : isPane paneId t = true ↔ ∃ pane, t = .leaf pane ∧ pane.id = paneId := by
  cases t <;> simp [isPane]

theorem closePane_list_eq (cs : List PanelNode) :
    closePane.list paneId cs = cs.map (closePane paneId) := by
  induction cs with
  | nil => rfl
  | cons c cs ih => rw [closePane.list, ih, map_cons]

theorem collapseChildren_leaves (info : SplitInfo) (cs : List PanelNode) :
    (collapseChildren info cs).elim [] LeafTree.leaves = cs.flatMap LeafTree.leaves := by
  match cs with
  | [] => rfl
  | [only] => simp [collapseChildren]
  | c :: d :: rest => simp [collapseChildren]

theorem collapseChildren_forked {info : SplitInfo} {cs : List PanelNode}
    (hcs : ∀ c ∈ cs, Forked c) (h : collapseChildren info cs = some t) : Forked t := by
  match cs with
  | [] => cases h
  | [only] =>
    cases h
    exact hcs _ (mem_singleton_self _)
  | c :: d :: rest =>
    cases h
    exact (forked_split _ _).mpr ⟨by simp, hcs⟩

theorem collapseChildren_ne_none {info : SplitInfo} {cs : List PanelNode} (h : cs ≠ []) :
    collapseChildren info cs ≠ none := by
  match cs with
  | [] => exact absurd rfl h
  | [_] => simp [collapseChildren]
  | _ :: _ :: _ => simp [collapseChildren]

theorem closePane_split (paneId : String) (info : SplitInfo) (cs : List PanelNode) :
    (∃ i pane, cs.findIdx? (isPane paneId) = some i ∧ cs[i]? = some (.leaf pane) ∧
      pane.id = paneId ∧
      closePane paneId (.split info cs) = collapseChildren info (cs.eraseIdx i)) ∨
    (cs.findIdx? (isPane paneId) = none ∧
      closePane paneId (.split info cs) = some (.split info cs) ∧
      cs.map (closePane paneId) = cs.map some) ∨ (cs.findIdx? (isPane paneId) = none ∧
      closePane paneId (.split info cs) =
        collapseChildren info (cs.filterMap (closePane paneId))) := by
  rw [closePane, closePane_list_eq]
  cases hidx : cs.findIdx? (isPane paneId) with
  | some i =>
    obtain ⟨hlt, hpane, -⟩ := findIdx?_eq_some_iff_getElem.mp hidx
    obtain ⟨pane, hleaf, hid⟩ := isPane_iff.mp hpane
    exact .inl ⟨i, pane, rfl, by rw [getElem?_eq_getElem hlt, hleaf], hid, rfl⟩
  | none =>
    dsimp only
    split
    · next hsame => exact .inr (.inl ⟨rfl, rfl, hsame⟩)
    · refine .inr (.inr ⟨rfl, ?_⟩)
      rw [filterMap_map]
      rfl

theorem closeLeaves_split (paneId : String) (info : SplitInfo) (cs : List PanelNode) :
    (∃ i pane, cs.findIdx? (isPane paneId) = some i ∧ cs[i]? = some (.leaf pane) ∧
      pane.id = paneId ∧
      closeLeaves paneId (.split info cs) = (cs.eraseIdx i).flatMap LeafTree.leaves) ∨
    (cs.findIdx? (isPane paneId) = none ∧
      closeLeaves paneId (.split info cs) = cs.flatMap (closeLeaves paneId)) := by
  rcases closePane_split paneId info cs with
    ⟨i, pane, hidx, hi, hid, hclose⟩ | ⟨hidx, hclose, hsame⟩ | ⟨hidx, hclose⟩
  · exact .inl ⟨i, pane, hidx, hi, hid, by rw [closeLeaves, hclose, collapseChildren_leaves]⟩
  · refine .inr ⟨hidx, ?_⟩
    rw [closeLeaves, hclose, elim_some, leaves_split]
    refine flatMap_congr fun c hc => ?_
    have hkept : closePane paneId c = some c := map_inj_left.mp hsame c hc
    rw [closeLeaves, hkept, elim_some]
  · refine .inr ⟨hidx, ?_⟩
    rw [closeLeaves, hclose, collapseChildren_leaves]
    clear hidx hclose
    induction cs with
    | nil => rfl
    | cons c cs ih =>
      rw [flatMap_cons, ← ih, closeLeaves]
      cases hc : closePane paneId c <;> simp [hc]

theorem closeLeaves_sublist (t : PanelNode) : (closeLeaves paneId t).Sublist t.leaves := by
  induction t using childInduction with
  | leaf pane =>
    unfold closeLeaves closePane
    split
    · exact nil_sublist _
    · exact List.Sublist.refl _
  | split info cs ih =>
    rw [leaves_split]
    rcases closeLeaves_split paneId info cs with ⟨i, pane, -, hi, -, hleft⟩ | ⟨-, hleft⟩
    · rw [hleft]
      exact (eraseIdx_sublist cs i).flatMap _
    · rw [hleft]
      exact List.Sublist.flatMap_right cs ih

theorem mem_closeLeaves {pane : LeafNode} (hpane : pane ∈ t.leaves)
    (hne : pane.id ≠ paneId) : pane ∈ closeLeaves paneId t := by
  induction t using childInduction with
  | leaf pane' =>
    rw [leaves_leaf, mem_singleton] at hpane
    subst hpane
    simp [closeLeaves, closePane, hne]
  | split info cs ih =>
    rw [leaves_split] at hpane
    obtain ⟨c, hc, hmem⟩ := mem_flatMap.mp hpane
    rcases closeLeaves_split paneId info cs with
      ⟨i, closed, -, hi, hid, hleft⟩ | ⟨-, hleft⟩
    · rw [hleft]
      refine mem_flatMap.mpr ⟨c, ?_, hmem⟩
      -- the child that was taken out is the closed pane, not this one
      obtain ⟨j, hj⟩ := mem_iff_getElem?.mp hc
      refine mem_eraseIdx_iff_getElem?.mpr ⟨j, fun hji => hne ?_, hj⟩
      rw [hji, hi] at hj
      cases hj
      rw [leaves_leaf, mem_singleton] at hmem
      rw [hmem, hid]
    · rw [hleft]
      exact mem_flatMap.mpr ⟨c, hc, ih c hc hmem⟩

theorem closeLeaves_length_lt (h : paneId ∈ getLeafIds t) :
    (closeLeaves paneId t).length < t.leaves.length := by
  induction t using childInduction with
  | leaf pane =>
    rw [getLeafIds_leaf, mem_singleton] at h
    simp [closeLeaves, closePane, h]
  | split info cs ih =>
    rw [leaves_split]
    rcases closeLeaves_split paneId info cs with ⟨i, pane, -, hi, -, hleft⟩ | ⟨-, hleft⟩
    · obtain ⟨hlt, helem⟩ := List.getElem?_eq_some_iff.mp hi
      have hsplit : cs = cs.take i ++ .leaf pane :: cs.drop (i + 1) := by
        rw [← helem, cons_getElem_drop_succ, take_append_drop]
      rw [hleft, eraseIdx_eq_take_drop_succ]
      conv_rhs => rw [hsplit]
      simp
    · rw [hleft, length_flatMap, length_flatMap]
      rw [getLeafIds_split] at h
      obtain ⟨c, hc, hmem⟩ := mem_flatMap.mp h
      exact sum_lt_sum _ _ (fun c _ => (closeLeaves_sublist c).length_le) ⟨c, hc, ih c hc hmem⟩

theorem closePane_forked {t' : PanelNode} (hforked : Forked t)
    (h : closePane paneId t = some t') : Forked t' := by
  induction t using childInduction generalizing t' with
  | leaf pane =>
    unfold closePane at h
    split at h
    · cases h
    · cases h
      exact hforked
  | split info cs ih =>
    obtain ⟨-, hcs⟩ := (forked_split info cs).mp hforked
    rcases closePane_split paneId info cs with
      ⟨i, pane, -, -, -, hclose⟩ | ⟨-, hclose, -⟩ | ⟨-, hclose⟩
    · rw [hclose] at h
      exact collapseChildren_forked (fun c hc => hcs c ((eraseIdx_sublist cs i).subset hc)) h
    · rw [hclose] at h
      cases h
      exact hforked
    · rw [hclose] at h
      refine collapseChildren_forked (fun c' hc' => ?_) h
      obtain ⟨c, hc, hclosed⟩ := mem_filterMap.mp hc'
      exact ih c hc (hcs c hc) hclosed

theorem closePane_split_ne_none {info : SplitInfo} {cs : List PanelNode}
    (hforked : Forked (.split info cs)) : closePane paneId (.split info cs) ≠ none := by
  suffices h : ∀ t : PanelNode, Forked t → ∀ info cs, t = .split info cs →
      closePane paneId t ≠ none from h _ hforked info cs rfl
  clear hforked info cs
  intro t
  induction t using childInduction with
  | leaf pane => exact fun _ _ _ h => nomatch h
  | split info cs ih =>
    intro hforked _ _ _
    obtain ⟨hlength, hcs⟩ := (forked_split info cs).mp hforked
    rcases closePane_split paneId info cs with
      ⟨i, pane, -, hi, -, hclose⟩ | ⟨-, hclose, -⟩ | ⟨hidx, hclose⟩
    · rw [hclose]
      apply collapseChildren_ne_none
      apply ne_nil_of_length_pos
      rw [length_eraseIdx_of_lt (List.getElem?_eq_some_iff.mp hi).1]
      omega
    · rw [hclose]
      exact some_ne_none _
    · rw [hclose]
      apply collapseChildren_ne_none
      -- the first child is another pane or a split, and is left
      obtain ⟨c, hc⟩ := exists_mem_of_length_pos (by omega : 0 < cs.length)
      have hother : isPane paneId c = false := findIdx?_eq_none_iff.mp hidx c hc
      have hleft : closePane paneId c ≠ none := by
        cases c with
        | leaf pane =>
          unfold isPane at hother
          unfold closePane
          rw [if_neg (of_decide_eq_false hother)]
          exact some_ne_none _
        | split info' cs' => exact ih _ hc (hcs _ hc) info' cs' rfl
      obtain ⟨c', hc'⟩ := ne_none_iff_exists'.mp hleft
      exact ne_nil_of_mem (mem_filterMap.mpr ⟨c, hc, hc'⟩)

theorem closePane_child_ne_none {info : SplitInfo} {cs : List PanelNode} {c : PanelNode}
    (hforked : Forked (.split info cs)) (hidx : cs.findIdx? (isPane paneId) = none)
    (hc : c ∈ cs) : closePane paneId c ≠ none := by
  have hother : isPane paneId c = false := findIdx?_eq_none_iff.mp hidx c hc
  cases c with
  | leaf pane =>
    rw [closePane, if_neg (of_decide_eq_false hother)]
    exact some_ne_none _
  | split info' cs' => exact closePane_split_ne_none (((forked_split info cs).mp hforked).2 _ hc)

/-! ## The sibling of a closed pane -/

theorem findSiblingPaneId_list_eq (cs : List PanelNode) : findSiblingPaneId.list paneId cs =
      cs.findSome? fun c => truthy (findSiblingPaneId paneId c) := by
  induction cs with
  | nil => rfl
  | cons c cs ih =>
    rw [findSiblingPaneId.list, findSome?_cons, ih]
    cases truthy (findSiblingPaneId paneId c) <;> rfl

theorem neighbour_mem_eraseIdx {cs : List PanelNode} {i : ℕ} {d : PanelNode}
    (h : cs[i + 1]?.or (if i = 0 then none else cs[i - 1]?) = some d) : d ∈ cs.eraseIdx i := by
  refine mem_eraseIdx_iff_getElem?.mpr ?_
  cases hnext : cs[i + 1]? with
  | some d' =>
    rw [hnext, some_or, Option.some.injEq] at h
    exact ⟨i + 1, by omega, h ▸ hnext⟩
  | none =>
    rw [hnext, none_or] at h
    split at h
    · cases h
    · exact ⟨i - 1, by omega, h⟩

/-- **The focus goes to a pane that is left.** -/
theorem findSiblingPaneId_mem {sibling : String} (h : findSiblingPaneId paneId t = some sibling) :
    sibling ∈ (closeLeaves paneId t).map (·.id) := by
  induction t using childInduction generalizing sibling with
  | leaf pane => cases h
  | split info cs ih =>
    unfold findSiblingPaneId at h
    rcases closeLeaves_split paneId info cs with
      ⟨i, pane, hidx, -, -, hleft⟩ | ⟨hidx, hleft⟩
    · simp only [hidx] at h
      obtain ⟨d, hd, hfirst⟩ := bind_eq_some_iff.mp h
      obtain ⟨first, hmem, hid⟩ := mem_getLeafIds.mp (getFirstLeafId_mem hfirst)
      rw [hleft]
      exact mem_map.mpr ⟨first, mem_flatMap.mpr ⟨d, neighbour_mem_eraseIdx hd, hmem⟩, hid⟩
    · simp only [hidx, findSiblingPaneId_list_eq] at h
      obtain ⟨c, hc, hfound⟩ := exists_of_findSome?_eq_some h
      obtain ⟨first, hmem, hid⟩ := mem_map.mp (ih c hc (truthy_eq_some.mp hfound).1)
      rw [hleft]
      exact mem_map.mpr ⟨first, mem_flatMap.mpr ⟨c, hc, hmem⟩, hid⟩

/-- **A closed pane has a sibling**, unless it was the whole tree. -/
theorem findSiblingPaneId_truthy (hforked : Forked t)
    (hnamed : ∀ id ∈ getLeafIds t, id ≠ "") (hmem : paneId ∈ getLeafIds t)
    (hleft : closePane paneId t ≠ none) :
    ∃ sibling, truthy (findSiblingPaneId paneId t) = some sibling := by
  induction t using childInduction with
  | leaf pane =>
    rw [getLeafIds_leaf, mem_singleton] at hmem
    exact absurd (by simp [closePane, hmem]) hleft
  | split info cs ih =>
    obtain ⟨hlength, hcs⟩ := (forked_split info cs).mp hforked
    rw [getLeafIds_split] at hnamed hmem
    have hnamedChild : ∀ c ∈ cs, ∀ id ∈ getLeafIds c, id ≠ "" :=
      fun c hc id hid => hnamed id (mem_flatMap.mpr ⟨c, hc, hid⟩)
    unfold findSiblingPaneId
    cases hidx : cs.findIdx? (isPane paneId) with
    | some i =>
      -- the pane is a child, and has a child next to it
      have hlt := (findIdx?_eq_some_iff_getElem.mp hidx).1
      have hneighbour : ∃ d, cs[i + 1]?.or (if i = 0 then none else cs[i - 1]?) = some d := by
        by_cases hnext : i + 1 < cs.length
        · exact ⟨cs[i + 1], by rw [getElem?_eq_getElem hnext, some_or]⟩
        · rw [getElem?_eq_none (by omega), none_or, if_neg (by omega)]
          exact ⟨cs[i - 1], getElem?_eq_getElem (by omega)⟩
      obtain ⟨d, hd⟩ := hneighbour
      have hdmem := (eraseIdx_sublist cs i).subset (neighbour_mem_eraseIdx hd)
      simp only [hd, bind_some]
      exact getFirstLeafId_truthy (hcs d hdmem).leaves_ne_nil (hnamedChild d hdmem)
    | none =>
      -- the pane is below a child, which is a split
      simp only [findSiblingPaneId_list_eq]
      obtain ⟨c, hc, hmemc⟩ := mem_flatMap.mp hmem
      have hclosed := closePane_child_ne_none hforked hidx hc
      obtain ⟨sibling, hsibling⟩ := ih c hc (hcs c hc) (hnamedChild c hc) hmemc hclosed
      have hfound : (cs.findSome? fun c => truthy (findSiblingPaneId paneId c)).isSome := by
        rw [findSome?_isSome_iff]
        exact ⟨c, hc, by rw [hsibling]; rfl⟩
      obtain ⟨found, hfound⟩ := isSome_iff_exists.mp hfound
      obtain ⟨c', -, hfound'⟩ := exists_of_findSome?_eq_some hfound
      exact ⟨found, truthy_eq_some.mpr ⟨hfound, (truthy_eq_some.mp hfound').2⟩⟩

end Close

/-! ## Adding a pane -/

/-- An edit that only adds panes with generated ids. -/
structure AddsPanes (g : IdGen) (t : PanelNode) (result : PanelNode × IdGen) : Prop where
  ids : ∀ id ∈ getLeafIds result.1, id ∈ getLeafIds t ∨ ∃ n, id = g.idAt "pane" n
  kept : getLeafIds t ⊆ getLeafIds result.1
  forked : Forked t → Forked result.1
  random : result.2.random = g.random
  counter : g.counter ≤ result.2.counter

/-- The id that the next call generates is in the tree. -/
def AddsNext (g : IdGen) (result : PanelNode) : Prop :=
  ∃ n, g.counter < n ∧ g.idAt "pane" n ∈ getLeafIds result

theorem AddsPanes.refl (g : IdGen) (t : PanelNode) : AddsPanes g t (t, g) :=
  ⟨fun _ h => .inl h, List.Subset.refl _, id, rfl, Nat.le_refl _⟩

theorem addsPanes_insertChild (g : IdGen) (info info' : SplitInfo)
    (pre post : List PanelNode) (wid : Option String) (content : PaneContent) :
    AddsPanes g (.split info (pre ++ post))
        (.split info' (pre ++ .leaf (createSiblingPane wid content g).1 :: post),
          (createSiblingPane wid content g).2) ∧ AddsNext g
        (.split info' (pre ++ .leaf (createSiblingPane wid content g).1 :: post)) := by
  have hids : getLeafIds (.split info' (pre ++ .leaf (createSiblingPane wid content g).1 :: post)) =
      pre.flatMap getLeafIds ++ g.idAt "pane" (g.counter + 1) :: post.flatMap getLeafIds := by
    rw [getLeafIds_split, flatMap_append, flatMap_cons]
    rfl
  refine ⟨⟨?_, ?_, ?_, rfl, Nat.le_succ _⟩, g.counter + 1, Nat.lt_succ_self _, ?_⟩
  · intro id hid
    rw [hids, mem_append, mem_cons] at hid
    rw [getLeafIds_split, flatMap_append, mem_append]
    rcases hid with hid | hid | hid
    · exact .inl (.inl hid)
    · exact .inr ⟨_, hid⟩
    · exact .inl (.inr hid)
  · rw [hids, getLeafIds_split, flatMap_append]
    intro id hid
    rw [mem_append, mem_cons]
    exact (mem_append.mp hid).imp_right .inr
  · intro hforked
    obtain ⟨hlength, hcs⟩ := (forked_split _ _).mp hforked
    rw [length_append] at hlength
    refine (forked_split _ _).mpr ⟨?_, ?_⟩
    · simp only [length_append, length_cons]
      omega
    · intro c hc
      rw [mem_append, mem_cons] at hc
      rcases hc with hc | rfl | hc
      · exact hcs c (mem_append_left _ hc)
      · exact forked_leaf _
      · exact hcs c (mem_append_right _ hc)
  · rw [hids]
    exact mem_append_right _ (mem_cons_self ..)

theorem addsPanes_wrap (g : IdGen) (t : PanelNode) (info : SplitInfo)
    (wid : Option String) (content : PaneContent) : AddsPanes g t
        (.split info [t, .leaf (createSiblingPane wid content g).1],
          ((createSiblingPane wid content g).2.generateId "split").2) ∧
      AddsNext g (.split info [t, .leaf (createSiblingPane wid content g).1]) := by
  have hids : getLeafIds (.split info [t, .leaf (createSiblingPane wid content g).1]) =
      getLeafIds t ++ [g.idAt "pane" (g.counter + 1)] := by
    rw [getLeafIds_split, flatMap_cons, flatMap_cons, flatMap_nil]
    rfl
  refine ⟨⟨?_, ?_, ?_, rfl, ?_⟩, g.counter + 1, Nat.lt_succ_self _, ?_⟩
  · intro id hid
    rw [hids, mem_append, mem_singleton] at hid
    exact hid.imp_right fun h => ⟨_, h⟩
  · rw [hids]
    exact subset_append_left _ _
  · intro hforked
    refine (forked_split _ _).mpr ⟨Nat.le_refl 2, ?_⟩
    simpa using hforked
  · show g.counter ≤ g.counter + 1 + 1
    omega
  · rw [hids]
    exact mem_append_right _ (mem_singleton_self _)

section Split

variable (paneId : String) (dir : SplitDirection) (content : PaneContent)

theorem splitPane_list_addsPanes {cs : List PanelNode}
    (ih : ∀ c ∈ cs, ∀ g, AddsPanes g c (splitPane paneId dir content c g) ∧
      (paneId ∈ getLeafIds c → AddsNext g (splitPane paneId dir content c g).1))
    (info : SplitInfo) (g : IdGen) : (AddsPanes g (.split info cs)
        (.split info (splitPane.list paneId dir content cs g).1,
          (splitPane.list paneId dir content cs g).2) ∧ (paneId ∈ getLeafIds (.split info cs) →
        AddsNext g (.split info (splitPane.list paneId dir content cs g).1))) ∧
    ((∀ c ∈ cs, Forked c) → ∀ c ∈ (splitPane.list paneId dir content cs g).1, Forked c) ∧
    (splitPane.list paneId dir content cs g).1.length = cs.length := by
  induction cs generalizing g with
  | nil =>
    refine ⟨⟨.refl g _, fun h => ?_⟩, fun h => h, rfl⟩
    rw [getLeafIds_split] at h
    cases h
  | cons c cs ihcs =>
    rw [forall_mem_cons] at ih
    obtain ⟨hadds, hnext⟩ := ih.1 g
    obtain ⟨⟨hrest, hnextRest⟩, hforked, hlength⟩ := ihcs ih.2 (splitPane paneId dir content c g).2
    have hidAt : ∀ n, (splitPane paneId dir content c g).2.idAt "pane" n =
        g.idAt "pane" n := fun n => IdGen.idAt_congr hadds.random "pane" n
    have hforkedAll : (∀ c' ∈ c :: cs, Forked c') →
        ∀ c' ∈ (splitPane.list paneId dir content (c :: cs) g).1, Forked c' := by
      rw [splitPane.list, forall_mem_cons, forall_mem_cons]
      exact fun h => ⟨hadds.forked h.1, hforked h.2⟩
    have hlengthAll : (splitPane.list paneId dir content (c :: cs) g).1.length =
        (c :: cs).length := by
      rw [splitPane.list, length_cons, length_cons, hlength]
    have hids := hrest.ids
    have hkept := hrest.kept
    simp only [getLeafIds_split, hidAt] at hids hkept hnextRest
    refine ⟨⟨⟨?_, ?_, ?_, hrest.random.trans hadds.random,
      Nat.le_trans hadds.counter hrest.counter⟩, ?_⟩, hforkedAll, hlengthAll⟩
    · simp only [splitPane.list, getLeafIds_split, flatMap_cons, mem_append]
      rintro id (hid | hid)
      · exact (hadds.ids id hid).imp_left .inl
      · exact (hids id hid).imp_left .inr
    · simp only [splitPane.list, getLeafIds_split, flatMap_cons]
      exact append_subset.mpr ⟨List.Subset.trans hadds.kept (subset_append_left _ _),
          List.Subset.trans hkept (subset_append_right _ _)⟩
    · intro h
      obtain ⟨htwo, hcs⟩ := (forked_split _ _).mp h
      exact (forked_split _ _).mpr ⟨by rw [hlengthAll]; exact htwo, hforkedAll hcs⟩
    · simp only [AddsNext, splitPane.list, getLeafIds_split, flatMap_cons, mem_append]
      rintro (hmem | hmem)
      · obtain ⟨n, hn, hid⟩ := hnext hmem
        exact ⟨n, hn, .inl hid⟩
      · obtain ⟨n, hn, hid⟩ := hnextRest hmem
        rw [getLeafIds_split, hidAt] at hid
        exact ⟨n, Nat.lt_of_le_of_lt hadds.counter hn, .inr hid⟩

/-- **Splitting adds panes only**, and one for the pane that is split. -/
theorem splitPane_addsPanes (t : PanelNode) (g : IdGen) :
    AddsPanes g t (splitPane paneId dir content t g) ∧
      (paneId ∈ getLeafIds t → AddsNext g (splitPane paneId dir content t g).1) := by
  induction t using childInduction generalizing g with
  | leaf pane =>
    unfold splitPane
    split
    · obtain ⟨hadds, hnext⟩ := addsPanes_wrap g (.leaf pane) ⟨_, dir, [50, 50]⟩
        pane.workspaceId content
      exact ⟨hadds, fun _ => hnext⟩
    · next hid =>
      exact ⟨.refl g _, fun hmem => absurd (mem_singleton.mp hmem).symm hid⟩
  | split info cs ih =>
    unfold splitPane
    dsimp only
    split
    · next i pane htarget =>
      obtain ⟨hadds, hnext⟩ := addsPanes_insertChild g info
        { info with sizes := equalSizes (cs.take (i + 1) ++
          .leaf (createSiblingPane pane.workspaceId content g).1 :: cs.drop (i + 1)) }
        (cs.take (i + 1)) (cs.drop (i + 1)) pane.workspaceId content
      rw [take_append_drop] at hadds
      exact ⟨hadds, fun _ => hnext⟩
    · exact (splitPane_list_addsPanes paneId dir content ih info g).1

end Split

/-- **Appending adds one pane.** -/
theorem appendPane_addsPanes (root : PanelNode) (dir : SplitDirection)
    (content : PaneContent) (g : IdGen) : AddsPanes g root (appendPane root dir content g) ∧
      AddsNext g (appendPane root dir content g).1 := by
  have hwrap := fun id => addsPanes_wrap g root ⟨id, dir, [50, 50]⟩
    ((getLastEdgeLeaf root).bind (·.workspaceId)) content
  cases root with
  | leaf pane => exact hwrap _
  | split info cs =>
    unfold appendPane
    dsimp only
    split
    · have hinsert := addsPanes_insertChild g info
        { info with sizes := equalSizes (cs ++ [.leaf (createSiblingPane
          ((getLastEdgeLeaf (.split info cs)).bind (·.workspaceId)) content g).1]) }
        cs [] ((getLastEdgeLeaf (.split info cs)).bind (·.workspaceId)) content
      rw [append_nil] at hinsert
      exact hinsert
    · exact hwrap _

theorem findNewLeafAfterSplit_mem {before after : PanelNode} {pane : LeafNode}
    (h : findNewLeafAfterSplit before after = some pane) : pane.id ∈ getLeafIds after := by
  obtain ⟨id, -, hfind⟩ := bind_eq_some_iff.mp h
  exact mem_getLeafIds.mpr ⟨pane, mem_of_find?_eq_some hfind, rfl⟩

theorem findNewLeafAfterSplit_isSome {g : IdGen} {before after : PanelNode}
    (hfresh : g.Fresh (getLeafIds before)) (hnext : AddsNext g after)
    (hnamed : ∀ id ∈ getLeafIds after, id ≠ "") :
    ∃ pane, findNewLeafAfterSplit before after = some pane := by
  obtain ⟨n, hn, hmem⟩ := hnext
  have hnew : ((getLeafIds after).find? fun id => id ∉ getLeafIds before).isSome := by
    rw [find?_isSome]
    exact ⟨_, hmem, decide_eq_true (hfresh "pane" n hn)⟩
  obtain ⟨id, hid⟩ := isSome_iff_exists.mp hnew
  obtain ⟨pane, hpane, hpaneId⟩ := mem_getLeafIds.mp (mem_of_find?_eq_some hid)
  have hfound : (findLeaf after id).isSome := by
    rw [findLeaf, find?_isSome]
    exact ⟨pane, hpane, decide_eq_true hpaneId⟩
  obtain ⟨found, hfound⟩ := isSome_iff_exists.mp hfound
  refine ⟨found, ?_⟩
  have htruthy : truthy (some id) = some id :=
    truthy_eq_some.mpr ⟨rfl, hnamed id (mem_of_find?_eq_some hid)⟩
  rw [findNewLeafAfterSplit, hid, htruthy, bind_some, hfound]

end Laborer.Panels
