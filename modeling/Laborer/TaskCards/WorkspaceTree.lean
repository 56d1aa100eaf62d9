import Laborer.Library.Acyclic
import Mathlib.Data.List.Perm.Subperm

/-!
# The tree of the workspaces

The workspaces of a project nest below the workspaces that their parents name. One walk over the
parents decides where a workspace nests, another gives its path.
-/

namespace Laborer.TaskCards

open Library List Option

structure WorkspaceTreeInput where
  id : String
  parentTaskId : Option String
deriving DecidableEq

structure WorkspaceForest where
  roots : List WorkspaceTreeInput
  children : WorkspaceTreeInput → List WorkspaceTreeInput

section Source

variable (workspaceList : List WorkspaceTreeInput)

def byId (id : String) : Option WorkspaceTreeInput :=
  workspaceList.reverse.find? (·.id = id)

/-- The step of both walks; an empty parent is none. -/
def follow (workspace : WorkspaceTreeInput) : Option WorkspaceTreeInput :=
  workspace.parentTaskId.bind fun parentTaskId =>
    if parentTaskId = "" then none else byId workspaceList parentTaskId

/-- The walk of `resolveParent`: whether it comes to a node again. It has no answer when it takes
more than so many rounds. -/
def revisits : ℕ → List WorkspaceTreeInput → Option WorkspaceTreeInput → Option Bool
  | _, _, none => some false
  | 0, _, some _ => none
  | rounds + 1, seen, some ancestor =>
    if ancestor ∈ seen then some true
    else revisits rounds (ancestor :: seen) (follow workspaceList ancestor)

/-- The parent that the node is pushed to, if any. -/
def resolveParent (workspace : WorkspaceTreeInput) : Option (Option WorkspaceTreeInput) :=
  match workspace.parentTaskId with
  | none => some none
  | some parentTaskId =>
    let parent := byId workspaceList parentTaskId
    (revisits workspaceList workspaceList.length [workspace] parent).map fun repeated =>
      if repeated then none else parent

def buildWorkspaceTree : WorkspaceForest where
  roots := workspaceList.filter fun workspace => resolveParent workspaceList workspace = some none
  children parent := workspaceList.filter fun workspace =>
    resolveParent workspaceList workspace = some (some parent)

def walkPath (target : WorkspaceTreeInput) :
    ℕ → List String → List WorkspaceTreeInput → Option WorkspaceTreeInput →
      Option (List WorkspaceTreeInput)
  | _, _, path, none => some path
  | 0, _, _, some _ => none
  | rounds + 1, seen, path, some current =>
    if current.id ∈ seen then some [target]
    else walkPath target rounds (current.id :: seen) (current :: path)
      (follow workspaceList current)

def buildWorkspacePath (workspaceId : String) : Option (List WorkspaceTreeInput) :=
  match workspaceList.find? (·.id = workspaceId) with
  | none => some []
  | some target => walkPath workspaceList target (workspaceList.length + 1) [] [] (some target)

end Source

/-! ## What the walks find -/

variable {ws : List WorkspaceTreeInput} {w parent : WorkspaceTreeInput}

def parentOf (ws : List WorkspaceTreeInput) (w : WorkspaceTreeInput) :
    Option WorkspaceTreeInput :=
  w.parentTaskId.bind (byId ws)

theorem find?_id_eq_some_iff (hids : (ws.map (·.id)).Nodup) {id : String} :
    ws.find? (·.id = id) = some w ↔ w ∈ ws ∧ w.id = id := by
  constructor
  · intro hfind
    exact ⟨mem_of_find?_eq_some hfind, by simpa using find?_some hfind⟩
  · rintro ⟨hmem, rfl⟩
    cases hfind : ws.find? (·.id = w.id) with
    | none => exact absurd (find?_eq_none.mp hfind w hmem) (by simp)
    | some found =>
      have hid : found.id = w.id := by simpa using find?_some hfind
      rw [inj_on_of_nodup_map hids (mem_of_find?_eq_some hfind) hmem hid]

theorem byId_eq_some_iff (hids : (ws.map (·.id)).Nodup) {id : String} :
    byId ws id = some w ↔ w ∈ ws ∧ w.id = id := by
  rw [byId, find?_id_eq_some_iff (by rwa [map_reverse, nodup_reverse]), mem_reverse]

theorem parentOf_eq_some_iff (hids : (ws.map (·.id)).Nodup) : parentOf ws w = some parent ↔
      parent ∈ ws ∧ w.parentTaskId = some parent.id := by
  simp only [parentOf, Option.bind_eq_some_iff, byId_eq_some_iff hids]
  grind

theorem follow_eq_some_iff (hids : (ws.map (·.id)).Nodup) : follow ws w = some parent ↔
      parentOf ws w = some parent ∧ parent.id ≠ "" := by
  rw [parentOf_eq_some_iff hids, follow, Option.bind_eq_some_iff]
  constructor
  · rintro ⟨id, hid, hfollow⟩
    split at hfollow
    · cases hfollow
    · next hne =>
      obtain ⟨hmem, rfl⟩ := (byId_eq_some_iff hids).mp hfollow
      exact ⟨⟨hmem, hid⟩, hne⟩
  · rintro ⟨⟨hmem, hid⟩, hne⟩
    exact ⟨parent.id, hid, by rw [if_neg hne, (byId_eq_some_iff hids).mpr ⟨hmem, rfl⟩]⟩

theorem follow_restricts (ws : List WorkspaceTreeInput) (w : WorkspaceTreeInput) :
    follow ws w = none ∨ follow ws w = parentOf ws w := by
  unfold follow parentOf
  cases w.parentTaskId with
  | none => exact .inl rfl
  | some id => by_cases hid : id = "" <;> simp [hid]

theorem mem_of_follow (h : follow ws w = some parent) : parent ∈ ws := by
  rcases follow_restricts ws w with hnone | heq
  · simp [hnone] at h
  · obtain ⟨id, -, hfind⟩ := Option.bind_eq_some_iff.mp (heq.symm.trans h)
    exact mem_reverse.mp (mem_of_find?_eq_some hfind)

theorem subset_of_follow {chain : List WorkspaceTreeInput}
    (h : LinkChain (follow ws) w chain) (hmem : w ∈ ws) : chain ⊆ ws := by
  induction h with
  | last _ => simpa using hmem
  | next hsome _ ih => exact cons_subset.mpr ⟨hmem, ih (mem_of_follow hsome)⟩

theorem revisits_of_chain {chain seen : List WorkspaceTreeInput} {rounds : ℕ}
    (h : LinkChain (follow ws) w chain) (hseen : chain.Disjoint seen)
    (hrounds : chain.length ≤ rounds) : revisits ws rounds seen (some w) = some false := by
  have hnodup := h.nodup
  induction h generalizing seen rounds with
  | last hnone =>
    obtain ⟨rounds, rfl⟩ := Nat.exists_eq_add_of_le' hrounds
    rw [singleton_disjoint] at hseen
    simp [revisits, hseen, hnone]
  | next hsome _ ih =>
    obtain ⟨rounds, rfl⟩ := Nat.exists_eq_add_of_le' (Nat.le_trans (Nat.le_add_left 1 _) hrounds)
    rw [disjoint_cons_left] at hseen
    simp only [revisits, hseen.1, reduceIte, hsome]
    obtain ⟨hfirst, hnodup⟩ := nodup_cons.mp hnodup
    exact ih (disjoint_cons_right.mpr ⟨hfirst, hseen.2⟩) (by simp at hrounds; omega) hnodup

theorem chain_of_revisits {seen : List WorkspaceTreeInput} {rounds : ℕ}
    (h : revisits ws rounds seen (some w) = some false) :
    ∃ chain, LinkChain (follow ws) w chain ∧ chain.Disjoint seen := by
  induction rounds generalizing w seen with
  | zero => simp [revisits] at h
  | succ rounds ih =>
    simp only [revisits] at h
    split at h
    · simp at h
    · next hseen =>
      cases hfollow : follow ws w with
      | none => exact ⟨_, .last hfollow, by simpa using hseen⟩
      | some parent =>
        rw [hfollow] at h
        obtain ⟨chain, hchain, hdisjoint⟩ := ih h
        obtain ⟨hmem, hdisjoint⟩ := disjoint_cons_right.mp hdisjoint
        exact ⟨_, .next hfollow hchain, disjoint_cons_left.mpr ⟨hseen, hdisjoint⟩⟩

/-- The walk ends within as many rounds as there are workspaces that it has not seen. -/
theorem revisits_ne_none {seen : List WorkspaceTreeInput} {rounds : ℕ} (hnodup : seen.Nodup)
    (hsub : seen ⊆ ws) (hmem : w ∈ ws) (hrounds : ws.length < rounds + seen.length) :
    revisits ws rounds seen (some w) ≠ none := by
  induction rounds generalizing w seen with
  | zero =>
    have hlength := (subperm_of_subset hnodup hsub).length_le
    omega
  | succ rounds ih =>
    simp only [revisits]
    split
    · simp
    · next hseen =>
      cases hfollow : follow ws w with
      | none => cases rounds <;> simp [revisits]
      | some parent =>
        exact ih (nodup_cons.mpr ⟨hseen, hnodup⟩) (cons_subset.mpr ⟨hmem, hsub⟩)
          (mem_of_follow hfollow) (by simp; omega)

theorem resolveParent_ne_none (hids : (ws.map (·.id)).Nodup)
    (hmem : w ∈ ws) : resolveParent ws w ≠ none := by
  unfold resolveParent
  split
  · simp
  · next id hid =>
    simp only [ne_eq, Option.map_eq_none_iff]
    cases hfind : byId ws id with
    | none => cases ws.length <;> simp [revisits]
    | some parent =>
      exact revisits_ne_none (nodup_singleton _) (by simpa using hmem)
        ((byId_eq_some_iff hids).mp hfind).1 (by simp)

theorem resolveParent_eq_some_iff (hids : (ws.map (·.id)).Nodup) :
    resolveParent ws w = some (some parent) ↔ parentOf ws w = some parent ∧
        ∃ chain, LinkChain (follow ws) parent chain ∧ w ∉ chain := by
  unfold resolveParent parentOf
  cases hid : w.parentTaskId with
  | none => simp
  | some id =>
    simp only [Option.map_eq_some_iff, Option.bind_some]
    constructor
    · rintro ⟨repeated, hrevisits, hparent⟩
      cases repeated with
      | true => simp at hparent
      | false =>
        simp only [Bool.false_eq_true, reduceIte] at hparent
        rw [hparent] at hrevisits
        obtain ⟨chain, hchain, hdisjoint⟩ := chain_of_revisits hrevisits
        exact ⟨hparent, chain, hchain, by simpa using hdisjoint⟩
    · rintro ⟨hparent, chain, hchain, hnot⟩
      have hsub := subset_of_follow hchain ((byId_eq_some_iff hids).mp hparent).1
      refine ⟨false, ?_, hparent⟩
      rw [hparent]
      exact revisits_of_chain hchain (by simpa using hnot)
        (subperm_of_subset hchain.nodup hsub).length_le

theorem walkPath_of_chain {target : WorkspaceTreeInput} {chain path : List WorkspaceTreeInput}
    {seen : List String} {rounds : ℕ} (h : LinkChain (follow ws) w chain)
    (hids : (chain.map (·.id)).Nodup) (hseen : (chain.map (·.id)).Disjoint seen)
    (hrounds : chain.length ≤ rounds) :
    walkPath ws target rounds seen path (some w) = some (chain.reverse ++ path) := by
  induction h generalizing seen path rounds with
  | last hnone =>
    obtain ⟨rounds, rfl⟩ := Nat.exists_eq_add_of_le' hrounds
    rw [map_singleton, singleton_disjoint] at hseen
    simp [walkPath, hseen, hnone]
  | next hsome _ ih =>
    obtain ⟨rounds, rfl⟩ := Nat.exists_eq_add_of_le' (Nat.le_trans (Nat.le_add_left 1 _) hrounds)
    rw [map_cons, disjoint_cons_left] at hseen
    obtain ⟨hfirst, hids⟩ := nodup_cons.mp hids
    simp only [walkPath, hseen.1, reduceIte, hsome]
    rw [ih hids (disjoint_cons_right.mpr ⟨hfirst, hseen.2⟩) (by simp at hrounds; omega)]
    simp

theorem walkPath_of_not_ends {target : WorkspaceTreeInput} {path : List WorkspaceTreeInput}
    {seen : List String} {rounds : ℕ} (h : ¬Ends (follow ws) w)
    (hnodup : seen.Nodup) (hsub : seen ⊆ ws.map (·.id)) (hmem : w ∈ ws)
    (hrounds : ws.length < rounds + seen.length) :
    walkPath ws target rounds seen path (some w) = some [target] := by
  induction rounds generalizing w seen path with
  | zero =>
    have hlength := (subperm_of_subset hnodup hsub).length_le
    simp at hlength hrounds
    omega
  | succ rounds ih =>
    simp only [walkPath]
    split
    · rfl
    · next hseen =>
      cases hfollow : follow ws w with
      | none => exact absurd ⟨_, .last hfollow⟩ h
      | some parent =>
        refine ih (fun ⟨chain, hchain⟩ => h ⟨_, .next hfollow hchain⟩)
          (nodup_cons.mpr ⟨hseen, hnodup⟩) (cons_subset.mpr ⟨mem_map_of_mem hmem, hsub⟩)
          (mem_of_follow hfollow) (by simp; omega)

theorem buildWorkspacePath_eq (hids : (ws.map (·.id)).Nodup) (hmem : w ∈ ws) :
    buildWorkspacePath ws w.id = walkPath ws w (ws.length + 1) [] [] (some w) := by
  rw [buildWorkspacePath, (find?_id_eq_some_iff hids).mpr ⟨hmem, rfl⟩]

theorem buildWorkspacePath_of_chain (hids : (ws.map (·.id)).Nodup)
    (hmem : w ∈ ws) {chain : List WorkspaceTreeInput} (h : LinkChain (follow ws) w chain) :
    buildWorkspacePath ws w.id = some chain.reverse := by
  have hsub := subperm_of_subset h.nodup (subset_of_follow h hmem)
  rw [buildWorkspacePath_eq hids hmem, walkPath_of_chain h ?_ (disjoint_nil_right _)
    (Nat.le_succ_of_le hsub.length_le), append_nil]
  exact h.nodup.map_on fun x hx y hy =>
    inj_on_of_nodup_map hids (subset_of_follow h hmem hx) (subset_of_follow h hmem hy)

theorem buildWorkspacePath_of_not_ends (hids : (ws.map (·.id)).Nodup)
    (hmem : w ∈ ws) (h : ¬Ends (follow ws) w) : buildWorkspacePath ws w.id = some [w] := by
  rw [buildWorkspacePath_eq hids hmem]
  exact walkPath_of_not_ends h nodup_nil (nil_subset _) hmem (by simp)

/-! ## The forest -/

/-- From a root of the forest down to the workspace. -/
inductive PathTo (forest : WorkspaceForest) : WorkspaceTreeInput → List WorkspaceTreeInput → Prop
  | root {w : WorkspaceTreeInput} (h : w ∈ forest.roots) : PathTo forest w [w]
  | child {w parent : WorkspaceTreeInput} {path : List WorkspaceTreeInput}
      (rest : PathTo forest parent path) (h : w ∈ forest.children parent) :
      PathTo forest w (path ++ [w])

/-- Each workspace is once in the forest, in order among its siblings, and below its parent just
when the parents end; the path is the way down to it. -/
structure IsLineage (ws : List WorkspaceTreeInput) : Prop where
  once : ((buildWorkspaceTree ws).roots ++
    ws.flatMap (buildWorkspaceTree ws).children).Perm ws
  ordered : (buildWorkspaceTree ws).roots <+ ws ∧
    ∀ parent, (buildWorkspaceTree ws).children parent <+ ws
  nested : ∀ w ∈ ws, ∀ parent,
    w ∈ (buildWorkspaceTree ws).children parent ↔
      parentOf ws w = some parent ∧ Ends (parentOf ws) w
  path : ∀ w ∈ ws, ∃ path,
    buildWorkspacePath ws w.id = some path ∧
      PathTo (buildWorkspaceTree ws) w path

/-- Who has a workspace with the empty id as parent has no children, and the parents of that one
do not end. -/
def EmptyIdApart (ws : List WorkspaceTreeInput) : Prop :=
  ∀ empty ∈ ws, empty.id = "" → ∀ w ∈ ws, w ≠ empty →
    w.parentTaskId = some "" → ¬Ends (follow ws) empty ∧
      ∀ child ∈ ws, child.parentTaskId ≠ some w.id

theorem mem_children_iff (hids : (ws.map (·.id)).Nodup) :
    w ∈ (buildWorkspaceTree ws).children parent ↔ w ∈ ws ∧ parentOf ws w = some parent ∧
        ∃ chain, LinkChain (follow ws) parent chain ∧ w ∉ chain := by
  simp [buildWorkspaceTree, resolveParent_eq_some_iff hids]

theorem mem_roots_iff (hids : (ws.map (·.id)).Nodup) : w ∈ (buildWorkspaceTree ws).roots ↔ w ∈ ws ∧
      ∀ parent, w ∉ (buildWorkspaceTree ws).children parent := by
  simp only [buildWorkspaceTree, mem_filter, decide_eq_true_eq, not_and]
  refine and_congr_right fun hmem => ?_
  have hanswer := resolveParent_ne_none hids hmem
  cases hresolve : resolveParent ws w with
  | none => exact absurd hresolve hanswer
  | some found => cases found <;> simp [hmem]

theorem forest_perm (hids : (ws.map (·.id)).Nodup) : ((buildWorkspaceTree ws).roots ++
      ws.flatMap (buildWorkspaceTree ws).children).Perm ws := by
  have hnodup : ws.Nodup := hids.of_map
  refine (perm_ext_iff_of_nodup ?_ hnodup).mpr fun w => ?_
  · refine nodup_append.mpr
      ⟨hnodup.filter _, nodup_flatMap.mpr ⟨fun _ _ => hnodup.filter _, ?_⟩, ?_⟩
    · refine hnodup.imp fun {parent other} hne w hmem hmem' => hne ?_
      have hparent := ((mem_children_iff hids).mp hmem).2.1
      exact some.inj (hparent.symm.trans ((mem_children_iff hids).mp hmem').2.1)
    · rintro w hroot _ hchild rfl
      obtain ⟨parent, -, hchild⟩ := mem_flatMap.mp hchild
      exact ((mem_roots_iff hids).mp hroot).2 parent hchild
  · rw [mem_append, mem_flatMap, mem_roots_iff hids]
    constructor
    · rintro (⟨hmem, -⟩ | ⟨parent, -, hchild⟩)
      · exact hmem
      · exact ((mem_children_iff hids).mp hchild).1
    · intro hmem
      by_cases hchild : ∃ parent, w ∈ (buildWorkspaceTree ws).children parent
      · obtain ⟨parent, hchild⟩ := hchild
        have hparent := ((mem_children_iff hids).mp hchild).2.1
        exact .inr ⟨parent, ((parentOf_eq_some_iff hids).mp hparent).1, hchild⟩
      · exact .inl ⟨hmem, not_exists.mp hchild⟩

/-! ## Exactly when the walks agree -/

theorem pathTo_of_chain (hids : (ws.map (·.id)).Nodup) (hnested : ∀ w ∈ ws, ∀ parent,
      w ∈ (buildWorkspaceTree ws).children parent ↔
        parentOf ws w = some parent ∧ Ends (parentOf ws) w)
    {chain : List WorkspaceTreeInput} (h : LinkChain (parentOf ws) w chain) (hmem : w ∈ ws) :
    PathTo (buildWorkspaceTree ws) w chain.reverse := by
  induction h with
  | last hnone =>
    refine .root ((mem_roots_iff hids).mpr ⟨hmem, fun parent hchild => ?_⟩)
    exact Option.some_ne_none parent (((hnested _ hmem parent).mp hchild).1.symm.trans hnone)
  | next hsome rest ih =>
    rw [reverse_cons]
    exact .child (ih ((parentOf_eq_some_iff hids).mp hsome).1)
      ((hnested _ hmem _).mpr ⟨hsome, _, .next hsome rest⟩)

theorem EmptyIdApart.follow_of_parentOf (h : EmptyIdApart ws)
    (hids : (ws.map (·.id)).Nodup) {chain : List WorkspaceTreeInput}
    (hchain : LinkChain (parentOf ws) w chain) (hmem : w ∈ ws) : LinkChain (follow ws) w chain := by
  have hnodup := hchain.nodup
  induction hchain with
  | last hnone =>
    refine .last ((follow_restricts ws _).elim id fun heq => heq.trans hnone)
  | @next w parent rest hsome hrest ih =>
    obtain ⟨hparent, hid⟩ := (parentOf_eq_some_iff hids).mp hsome
    refine .next ((follow_eq_some_iff hids).mpr ⟨hsome, fun hempty => ?_⟩)
      (ih hparent (nodup_cons.mp hnodup).2)
    have hne : w ≠ parent := by
      rintro rfl
      cases hrest <;> simp at hnodup
    rw [hempty] at hid
    have hends : Ends (parentOf ws) parent := ⟨_, hrest⟩
    exact (h parent hparent hempty w hmem hne hid).1 (hends.restrict (follow_restricts ws))

/-- What is followed from a parent to an end are all its links. -/
theorem EmptyIdApart.parentOf_of_follow (h : EmptyIdApart ws)
    (hids : (ws.map (·.id)).Nodup) {chain : List WorkspaceTreeInput}
    (hchain : LinkChain (follow ws) parent chain) (hmem : w ∈ ws)
    (hparent : parentOf ws w = some parent) (hnot : w ∉ chain) :
    LinkChain (parentOf ws) parent chain := by
  have hnodup := hchain.nodup
  induction hchain generalizing w with
  | @last parent hnone =>
    obtain ⟨hparent, hid⟩ := (parentOf_eq_some_iff hids).mp hparent
    have hends : Ends (follow ws) parent := ⟨_, .last hnone⟩
    refine .last (Option.eq_none_iff_forall_ne_some.mpr fun empty hsome => ?_)
    obtain ⟨hempty, hid'⟩ := (parentOf_eq_some_iff hids).mp hsome
    have hemptyId : empty.id = "" := by
      by_contra hne
      simp [(follow_eq_some_iff hids).mpr ⟨hsome, hne⟩] at hnone
    by_cases heq : parent = empty
    · subst heq
      rw [hemptyId] at hid
      exact (h parent hparent hemptyId w hmem (by simpa using hnot) hid).1 hends
    · rw [hemptyId] at hid'
      exact (h empty hempty hemptyId parent hparent heq hid').2 w hmem hid
  | next hsome _ ih =>
    obtain ⟨hsome', -⟩ := (follow_eq_some_iff hids).mp hsome
    obtain ⟨hfirst, hnodup⟩ := nodup_cons.mp hnodup
    exact .next hsome' (ih ((parentOf_eq_some_iff hids).mp hparent).1 hsome' hfirst hnodup)

theorem EmptyIdApart.nested (h : EmptyIdApart ws) (hids : (ws.map (·.id)).Nodup) (hmem : w ∈ ws) :
    w ∈ (buildWorkspaceTree ws).children parent ↔
      parentOf ws w = some parent ∧ Ends (parentOf ws) w := by
  rw [mem_children_iff hids, and_iff_right hmem]
  refine and_congr_right fun hparent => ?_
  constructor
  · rintro ⟨chain, hchain, hnot⟩
    exact ⟨_, .next hparent (h.parentOf_of_follow hids hchain hmem hparent hnot)⟩
  · rintro ⟨chain, hchain⟩
    have hnodup := hchain.nodup
    cases hchain with
    | last hnone => simp [hnone] at hparent
    | next hsome rest =>
      cases hsome.symm.trans hparent
      exact ⟨_, h.follow_of_parentOf hids rest ((parentOf_eq_some_iff hids).mp hsome).1,
        (nodup_cons.mp hnodup).1⟩

theorem EmptyIdApart.isLineage (h : EmptyIdApart ws)
    (hids : (ws.map (·.id)).Nodup) : IsLineage ws where
  once := forest_perm hids
  ordered := ⟨filter_sublist, fun _ => filter_sublist⟩
  nested := fun _ hmem _ => h.nested hids hmem
  path := by
    intro w hmem
    by_cases hends : Ends (parentOf ws) w
    · obtain ⟨chain, hchain⟩ := hends
      exact ⟨_, buildWorkspacePath_of_chain hids hmem (h.follow_of_parentOf hids hchain hmem),
        pathTo_of_chain hids (fun _ hmem _ => h.nested hids hmem) hchain hmem⟩
    refine ⟨[w], ?_, .root ((mem_roots_iff hids).mpr
      ⟨hmem, fun parent hchild => hends ((h.nested hids hmem).mp hchild).2⟩)⟩
    by_cases hfollows : Ends (follow ws) w
    · obtain ⟨chain, hchain⟩ := hfollows
      have hnodup := hchain.nodup
      cases hchain with
      | last hnone => exact buildWorkspacePath_of_chain hids hmem (.last hnone)
      | next hsome rest =>
        obtain ⟨hparent, -⟩ := (follow_eq_some_iff hids).mp hsome
        exact absurd ⟨_, .next hparent
          (h.parentOf_of_follow hids rest hmem hparent (nodup_cons.mp hnodup).1)⟩ hends
    · exact buildWorkspacePath_of_not_ends hids hmem hfollows

/-- The tree and the paths agree with the parents just when no empty id comes between. -/
theorem isLineage_iff (hids : (ws.map (·.id)).Nodup) : IsLineage ws ↔ EmptyIdApart ws := by
  refine ⟨fun h empty hempty hemptyId w hmem hne hid => ?_, fun h => h.isLineage hids⟩
  have hparent : parentOf ws w = some empty :=
    (parentOf_eq_some_iff hids).mpr ⟨hempty, by rwa [hemptyId]⟩
  have hfollow : follow ws w = none := by simp [follow, hid]
  -- the path does not go up to the parent, so the workspace is a root
  obtain ⟨path, hpath, hto⟩ := h.path w hmem
  rw [buildWorkspacePath_of_chain hids hmem (.last hfollow)] at hpath
  cases hpath
  have hroot : w ∈ (buildWorkspaceTree ws).roots := by
    generalize hsingle : [w].reverse = path at hto
    cases hto with
    | root h => exact h
    | child rest _ =>
      have hlength := congrArg List.length hsingle
      cases rest <;> simp at hlength
  have hnot := ((mem_roots_iff hids).mp hroot).2 empty
  have hstuck : ¬Ends (parentOf ws) w := fun hends =>
    hnot ((h.nested w hmem empty).mpr ⟨hparent, hends⟩)
  constructor
  · rintro ⟨chain, hchain⟩
    have hmeets : w ∈ chain := by
      by_contra hapart
      exact hnot ((mem_children_iff hids).mpr ⟨hmem, hparent, chain, hchain, hapart⟩)
    have hnodup := hchain.nodup
    cases hchain with
    | last _ => exact hne (mem_singleton.mp hmeets)
    | next hsome rest =>
      obtain ⟨hsome', -⟩ := (follow_eq_some_iff hids).mp hsome
      have hchild := (mem_children_iff hids).mpr ⟨hempty, hsome', _, rest, (nodup_cons.mp hnodup).1⟩
      obtain ⟨-, chain, hchain⟩ := (h.nested empty hempty _).mp hchild
      exact hstuck ⟨_, .next hparent hchain⟩
  · intro child hchild hchildId
    have hchildParent := (parentOf_eq_some_iff hids).mpr ⟨hmem, hchildId⟩
    have hapart : child ≠ w := by
      rintro rfl
      rw [hid] at hchildId
      exact hne (inj_on_of_nodup_map hids hmem hempty
        ((some.inj hchildId).symm.trans hemptyId.symm))
    have hnests := (mem_children_iff hids).mpr
      ⟨hchild, hchildParent, _, .last hfollow, by simpa using hapart⟩
    exact hstuck (((h.nested child hchild w).mp hnests).2.of_next hchildParent)

/-- **The tree and the paths are one lineage**, whatever the parents are: the ids are made by the
programs, and none of them is empty. -/
theorem workspaces_isLineage (hids : (ws.map (·.id)).Nodup) (hnonempty : ∀ w ∈ ws, w.id ≠ "") :
    IsLineage ws := by
  refine (isLineage_iff hids).mpr fun empty hempty hemptyId => ?_
  exact absurd hemptyId (hnonempty empty hempty)

theorem workspaces_isLineage_mixed : IsLineage
    [⟨"c", some "b"⟩, ⟨"a", none⟩, ⟨"b", some "a"⟩, ⟨"x", some "y"⟩, ⟨"y", some "x"⟩] :=
  workspaces_isLineage (by decide) (by decide)

end Laborer.TaskCards
