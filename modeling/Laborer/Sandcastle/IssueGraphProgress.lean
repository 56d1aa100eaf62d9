import Laborer.Library.Acyclic
import Laborer.Sandcastle.IssueGraphCorrect

/-!
# Progress of the issue graph scheduler

A spec whose issues wait for each other without a cycle should always have a leaf
to run. The scheduler counts a blocker as done when the shared pull request has
its marker, and only leaves have markers: a leaf that waits for a container, all
of whose leaves are implemented, keeps waiting. The results say exactly when a
root with a remaining leaf gets a runnable one.
-/

namespace Laborer.Sandcastle

open Laborer.Library Relation List LeafTree

variable {ε : Type}

/-! ## The issues below a root -/

section Below

variable (children : List IssueTree)

def leavesBelow : List DescendantLeaf :=
  children.flatMap LeafTree.leaves

def containersBelow : List GitHubIssue :=
  (children.flatMap LeafTree.splits).map (·.1)

def issuesBelow : List GitHubIssue :=
  (leavesBelow children).map (·.issue) ++ containersBelow children

/-- The blockers of every issue below the root are below it. -/
def BlockedWithin : Prop :=
  ∀ issue ∈ issuesBelow children, ∀ blocker ∈ issue.openBlockers,
    ∃ other ∈ issuesBelow children, other.number = blocker.number

/-- An issue below the root waits for its blockers and for its children. -/
def Needs (n m : ℕ) : Prop :=
  ∃ issue ∈ issuesBelow children, issue.number = n ∧
    (m ∈ issue.openBlockers.map (·.number) ∨ m ∈ issue.childNumbers)

end Below

inductive HasRoot (source : IssueGraphSource ε) (root : GitHubIssue) : ℕ → Prop
  | here {n : ℕ} : fetchIssue source n = .ok root → root.parentNumber = none → HasRoot source root n
  | above {n parentNumber : ℕ} {issue : GitHubIssue} : fetchIssue source n = .ok issue →
      issue.parentNumber = some parentNumber → HasRoot source root parentNumber →
        HasRoot source root n

/-! ## Waiting -/

section Waiting

variable (pullRequest : Option ExistingPullRequest) (children : List IssueTree)

structure WaitsFor (leaf other : DescendantLeaf) : Prop where
  mem : leaf ∈ leavesBelow children
  other_mem : other ∈ leavesBelow children
  remaining : IsRemaining pullRequest (leavesBelow children) other
  blocks : other.issue.number ∈ leaf.issue.openBlockers.map (·.number)

/-- An issue below the root that no marker will name: a container, or a leaf that
was closed without being implemented. -/
def NeverImplemented (n : ℕ) : Prop :=
  (∃ container ∈ containersBelow children, container.number = n) ∨
    ∃ leaf ∈ leavesBelow children, leaf.issue.number = n ∧ leaf.issue.state = .closed ∧
      ¬ IsImplemented pullRequest (leavesBelow children) n

/-- **The condition on a graph**: some remaining leaf waits for no issue of that
kind, neither itself nor through the remaining leaves it waits for. -/
def HasFreeLeaf : Prop :=
  ∃ leaf ∈ leavesBelow children, IsRemaining pullRequest (leavesBelow children) leaf ∧
    ∀ other, ReflTransGen (WaitsFor pullRequest children) leaf other →
      ∀ blocker ∈ other.issue.openBlockers, ¬ NeverImplemented pullRequest children blocker.number

end Waiting

section FreeLeaf

variable {source : IssueGraphSource ε} {root : GitHubIssue} {children : List IssueTree}
  {pullRequest : Option ExistingPullRequest}

theorem Unfolds.parts {load : ℕ → Except (ScheduleError ε) GitHubIssue} {parent : GitHubIssue}
    {path : List IssueIdentity} {tree : IssueTree} (h : Unfolds load parent path tree) :
    (∀ leaf ∈ tree.leaves, load leaf.issue.number = .ok leaf.issue ∧ leaf.issue.childNumbers = []) ∧
      ∀ e ∈ tree.splits, load e.1.number = .ok e.1 ∧ e.1.childNumbers ≠ [] := by
  induction h with
  | leaf hload _ hchildless =>
    refine ⟨fun leaf hleaf => ?_, fun e he => ?_⟩
    · rw [leaves_leaf, mem_singleton] at hleaf
      subst hleaf
      exact ⟨hload, hchildless⟩
    · rw [splits_leaf] at he
      cases he
  | split hload _ hcontainer _ _ ih =>
    refine ⟨fun leaf hleaf => ?_, fun e he => ?_⟩
    · rw [leaves_split] at hleaf
      obtain ⟨c, hc, hleaf⟩ := mem_flatMap.mp hleaf
      exact (ih c hc).1 leaf hleaf
    · rw [splits_split, mem_cons] at he
      rcases he with rfl | he
      · exact ⟨hload, hcontainer⟩
      · obtain ⟨c, hc, he⟩ := mem_flatMap.mp he
        exact (ih c hc).2 e he

theorem SpecTree.container_not_implemented (htree : SpecTree source root children)
    {container : GitHubIssue} (hcontainer : container ∈ containersBelow children) :
    ¬ IsImplemented pullRequest (leavesBelow children) container.number := by
  rintro ⟨-, hmem⟩
  obtain ⟨leaf, hleaf, hnumber⟩ := mem_map.mp hmem
  obtain ⟨c, hc, hleaf⟩ := mem_flatMap.mp hleaf
  obtain ⟨e, he, rfl⟩ := mem_map.mp hcontainer
  obtain ⟨d, hd, he⟩ := mem_flatMap.mp he
  obtain ⟨hload, hchildless⟩ := (htree.unfolds c hc).parts.1 leaf hleaf
  obtain ⟨hload', hnonempty⟩ := (htree.unfolds d hd).parts.2 e he
  rw [hnumber, hload'] at hload
  rw [← Except.ok.inj hload] at hchildless
  exact hnonempty hchildless

theorem SpecTree.neverImplemented (htree : SpecTree source root children) {n : ℕ}
    (h : NeverImplemented pullRequest children n) :
    ¬ IsImplemented pullRequest (leavesBelow children) n := by
  rcases h with ⟨container, hcontainer, rfl⟩ | ⟨_, _, _, _, hnot⟩
  · exact htree.container_not_implemented hcontainer
  · exact hnot

theorem hasFreeLeaf_of_ready (htree : SpecTree source root children) {leaf : DescendantLeaf}
    (hleaf : leaf ∈ leavesBelow children)
    (hready : IsReady pullRequest (leavesBelow children) leaf) :
    HasFreeLeaf pullRequest children := by
  refine ⟨leaf, hleaf, hready.1, fun other hreach blocker hblocker hnever => ?_⟩
  have hother : other = leaf := by
    rcases hreach.cases_head with heq | ⟨next, hwaits, -⟩
    · exact heq.symm
    · obtain ⟨blocker', hblocker', hnumber⟩ := mem_map.mp hwaits.blocks
      have himplemented := hready.2 blocker' hblocker'
      rw [hnumber] at himplemented
      exact absurd himplemented hwaits.remaining.2
  rw [hother] at hblocker
  exact htree.neverImplemented hnever (hready.2 blocker hblocker)

theorem acyclic_waitsFor (pullRequest : Option ExistingPullRequest)
    (hacyclic : Acyclic (Needs children)) : Acyclic (WaitsFor pullRequest children) := by
  apply hacyclic.of_map (fun leaf : DescendantLeaf => leaf.issue.number)
  intro leaf other hwaits
  refine ⟨leaf.issue, ?_, rfl, .inl hwaits.blocks⟩
  exact mem_append_left _ (mem_map_of_mem hwaits.mem)

/-- **Progress**: from a free leaf, the leaves it waits for lead to a ready one. -/
theorem exists_ready_of_hasFreeLeaf (hwithin : BlockedWithin children)
    (hacyclic : Acyclic (Needs children)) (hfree : HasFreeLeaf pullRequest children) :
    ∃ leaf ∈ leavesBelow children, IsReady pullRequest (leavesBelow children) leaf := by
  obtain ⟨leaf, hleaf, hremaining, hfree⟩ := hfree
  obtain ⟨last, hreach, hlast⟩ := (acyclic_waitsFor pullRequest hacyclic).exists_sink
    (leavesBelow children) (fun _ _ h => h.other_mem) leaf
  -- everything on the way is a remaining leaf
  have hlastLeaf : last ∈ leavesBelow children ∧
      IsRemaining pullRequest (leavesBelow children) last := by
    rcases hreach.cases_tail with heq | ⟨_, -, hwaits⟩
    · rw [heq]
      exact ⟨hleaf, hremaining⟩
    · exact ⟨hwaits.other_mem, hwaits.remaining⟩
  refine ⟨last, hlastLeaf.1, hlastLeaf.2, fun blocker hblocker => ?_⟩
  by_contra hnot
  have hissue : last.issue ∈ issuesBelow children := mem_append_left _ (mem_map_of_mem hlastLeaf.1)
  obtain ⟨other, hother, hnumber⟩ := hwithin last.issue hissue blocker hblocker
  apply hfree last hreach blocker hblocker
  rcases mem_append.mp hother with hother | hother
  · obtain ⟨otherLeaf, hotherLeaf, rfl⟩ := mem_map.mp hother
    cases hstate : otherLeaf.issue.state with
    | closed => exact .inr ⟨otherLeaf, hotherLeaf, hnumber, hstate, hnot⟩
    | opened =>
      -- an open leaf that is not implemented would be waited for
      refine absurd ⟨hlastLeaf.1, hotherLeaf, ⟨hstate, ?_⟩, ?_⟩ (hlast otherLeaf)
      · rwa [hnumber]
      · exact mem_map.mpr ⟨blocker, hblocker, hnumber.symm⟩
  · exact .inl ⟨other, hother, hnumber⟩

/-- **A leaf is ready exactly when one is free.** -/
theorem exists_ready_iff (htree : SpecTree source root children) (hwithin : BlockedWithin children)
    (hacyclic : Acyclic (Needs children)) :
    (∃ leaf ∈ leavesBelow children, IsReady pullRequest (leavesBelow children) leaf) ↔
      HasFreeLeaf pullRequest children := by
  constructor
  · rintro ⟨leaf, hleaf, hready⟩
    exact hasFreeLeaf_of_ready htree hleaf hready
  · exact exists_ready_of_hasFreeLeaf hwithin hacyclic

end FreeLeaf

/-! ## One tree, one root -/

section Unique

theorem eq_of_map_eq {α β : Type} {f : α → β} {xs ys : List α} (h : xs.map f = ys.map f)
    (hf : ∀ x ∈ xs, ∀ y ∈ ys, f x = f y → x = y) : xs = ys := by
  induction xs generalizing ys with
  | nil => exact (map_eq_nil_iff.mp h.symm).symm
  | cons x xs ih =>
    cases ys with
    | nil => cases h
    | cons y ys =>
      rw [map_cons, map_cons, List.cons.injEq] at h
      rw [hf x mem_cons_self y mem_cons_self h.1]
      congr 1
      exact ih h.2 fun x hx y hy => hf x (mem_cons_of_mem _ hx) y (mem_cons_of_mem _ hy)

theorem Unfolds.unique {load : ℕ → Except (ScheduleError ε) GitHubIssue} {parent : GitHubIssue}
    {path : List IssueIdentity} {tree tree' : IssueTree} (h : Unfolds load parent path tree)
    (h' : Unfolds load parent path tree') (hnumber : tree.issue.number = tree'.issue.number) :
    tree = tree' := by
  induction h generalizing tree' with
  | leaf hload _ hchildless =>
    cases h' with
    | leaf hload' =>
      rw [IssueTree.issue, IssueTree.issue] at hnumber
      rw [hnumber, hload'] at hload
      rw [Except.ok.inj hload]
    | split hload' _ hnonempty =>
      rw [IssueTree.issue, IssueTree.issue] at hnumber
      rw [hnumber, hload'] at hload
      rw [Except.ok.inj hload] at hnonempty
      exact absurd hchildless hnonempty
  | split hload _ hnonempty hnumbers _ ih =>
    cases h' with
    | leaf hload' _ hchildless =>
      rw [IssueTree.issue, IssueTree.issue] at hnumber
      rw [hnumber, hload'] at hload
      rw [Except.ok.inj hload] at hchildless
      exact absurd hchildless hnonempty
    | split hload' _ _ hnumbers' hunfolds' =>
      rw [IssueTree.issue, IssueTree.issue] at hnumber
      rw [hnumber, hload'] at hload
      have hchild := Except.ok.inj hload
      subst hchild
      rw [eq_of_map_eq (hnumbers.symm.trans hnumbers') fun c hc c' hc' hnumber =>
        ih c hc (hunfolds' c' hc') hnumber]

variable {source : IssueGraphSource ε} {root : GitHubIssue} {children children' : List IssueTree}

theorem SpecTree.unique (h : SpecTree source root children) (h' : SpecTree source root children') :
    children = children' := by
  apply eq_of_map_eq (h.numbers.symm.trans h'.numbers)
  intro c hc c' hc' hnumber
  exact (h.unfolds c hc).unique (h'.unfolds c' hc') hnumber

theorem HasRoot.unique {root' : GitHubIssue} {n : ℕ} (h : HasRoot source root n)
    (h' : HasRoot source root' n) : root = root' := by
  induction h with
  | here hload hnone =>
    cases h' with
    | here hload' _ =>
      rw [hload'] at hload
      exact (Except.ok.inj hload).symm
    | above hload' hsome _ =>
      rw [hload'] at hload
      rw [Except.ok.inj hload, hnone] at hsome
      cases hsome
  | above hload hsome _ ih =>
    cases h' with
    | here hload' hnone =>
      rw [hload'] at hload
      rw [Except.ok.inj hload, hsome] at hnone
      cases hnone
    | above hload' hsome' habove =>
      rw [hload'] at hload
      rw [Except.ok.inj hload, hsome] at hsome'
      cases hsome'
      exact ih habove

theorem climb_hasRoot {fuel : ℕ} {current : GitHubIssue} {path : List ℕ}
    (hcurrent : fetchIssue source current.number = .ok current)
    (h : climb (fetchIssue source) fuel current path = .ok root) :
    HasRoot source root current.number := by
  induction fuel generalizing current path with
  | zero =>
    unfold climb at h
    cases hparent : current.parentNumber with
    | none =>
      simp only [hparent] at h
      cases h
      exact .here hcurrent hparent
    | some parentNumber =>
      simp only [hparent] at h
      split at h <;> cases h
  | succ fuel ih =>
    unfold climb at h
    cases hparent : current.parentNumber with
    | none =>
      simp only [hparent] at h
      cases h
      exact .here hcurrent hparent
    | some parentNumber =>
      simp only [hparent] at h
      split at h
      · cases h
      · obtain ⟨parent, hfetch, h⟩ := bind_eq_ok.mp h
        split at h
        · cases h
        · have hnumber := (fetchIssue_eq_ok hfetch).2
          have hroot := ih (by rw [hnumber, hfetch]) h
          rw [hnumber] at hroot
          exact .above hcurrent hparent hroot

theorem findRoot_hasRoot {fuel n : ℕ} (h : findRoot (fetchIssue source) fuel n = .ok root) :
    HasRoot source root n := by
  obtain ⟨current, hcurrent, h⟩ := bind_eq_ok.mp h
  have hnumber := (fetchIssue_eq_ok hcurrent).2
  have hroot := climb_hasRoot (by rw [hnumber, hcurrent]) h
  rwa [hnumber] at hroot

end Unique

/-! ## The decision about a root -/

section Decides

variable {source : IssueGraphSource ε} {root : GitHubIssue} {children : List IssueTree}
  {pullRequest : Option ExistingPullRequest}

/-- With a remaining leaf, a ready leaf decides between running and waiting. -/
theorem scheduleSpec_decides {branch : String} {found : Descendants} {decision : Decision}
    (hremains : ∃ leaf ∈ found.leaves, IsRemaining pullRequest found.leaves leaf)
    (h : scheduleSpec (ε := ε) root branch pullRequest found = .ok decision) :
    ((∃ leaf ∈ found.leaves, IsReady pullRequest found.leaves leaf) →
        ∃ r, decision = .runnable r) ∧
      ((¬ ∃ leaf ∈ found.leaves, IsReady pullRequest found.leaves leaf) →
        ∃ w, decision = .waiting w) := by
  unfold scheduleSpec at h
  obtain ⟨latestReviewedHead, -, h⟩ := bind_eq_ok.mp h
  obtain ⟨_, -, h⟩ := bind_eq_ok.mp h
  obtain ⟨_, -, h⟩ := bind_eq_ok.mp h
  rw [find?_remainingLeaves] at h
  cases hfind : found.leaves.find? fun leaf => IsReady pullRequest found.leaves leaf with
  | some selected =>
    simp only [hfind] at h
    cases h
    refine ⟨fun _ => ⟨_, rfl⟩, fun hnone => absurd ⟨selected, ?_, ?_⟩ hnone⟩
    · exact mem_of_find?_eq_some hfind
    · simpa using find?_some hfind
  | none =>
    simp only [hfind] at h
    have hblocked : ¬ ∃ leaf ∈ found.leaves, IsReady pullRequest found.leaves leaf := by
      rintro ⟨leaf, hleaf, hready⟩
      exact find?_eq_none.mp hfind leaf hleaf (decide_eq_true hready)
    rw [remainingLeaves_eq] at h
    split at h
    · cases h
      exact ⟨fun hready => absurd hready hblocked, fun _ => ⟨_, rfl⟩⟩
    · next hempty =>
      obtain ⟨leaf, hleaf, hremaining⟩ := hremains
      have hmem : leaf ∈ found.leaves.filter fun leaf =>
          IsRemaining pullRequest found.leaves leaf :=
        mem_filter.mpr ⟨hleaf, decide_eq_true hremaining⟩
      exact absurd (length_pos_of_mem hmem) hempty

theorem scheduleRoot_decides {fuel : ℕ} {decision : Decision}
    (htree : SpecTree source root children) (hshared : SharedPullRequest source root pullRequest)
    (hremains : ∃ leaf ∈ leavesBelow children, IsRemaining pullRequest (leavesBelow children) leaf)
    (h : scheduleRoot source (fetchIssue source) fuel root = .ok decision) :
    ((∃ leaf ∈ leavesBelow children, IsReady pullRequest (leavesBelow children) leaf) →
        ∃ r, decision = .runnable r) ∧
      ((¬ ∃ leaf ∈ leavesBelow children, IsReady pullRequest (leavesBelow children) leaf) →
        ∃ w, decision = .waiting w) := by
  have hcontainer : ¬ root.childNumbers.length = 0 := fun hzero =>
    htree.nonempty (length_eq_zero_iff.mp hzero)
  unfold scheduleRoot at h
  simp only [lift_eq] at h
  rw [if_neg hcontainer] at h
  obtain ⟨pullRequest', hpullRequest, h⟩ := bind_eq_ok.mp h
  obtain ⟨_, -, h⟩ := bind_eq_ok.mp h
  obtain ⟨found, hfound, h⟩ := bind_eq_ok.mp h
  obtain ⟨children', hnumbers, hunfolds, hleaves⟩ := visitChildren_addsTrees fuel _ _ _ _ hfound
  -- the pull request and the tree are the given ones
  have hsame : pullRequest' = pullRequest := by
    have heq := fromSource_eq_ok hpullRequest
    rw [hshared] at heq
    exact (Except.ok.inj heq).symm
  have htree' : children' = children :=
    SpecTree.unique ⟨htree.topmost, htree.nonempty, hnumbers, hunfolds⟩ htree
  subst hsame htree'
  rw [nil_append] at hleaves
  rw [leavesBelow, ← hleaves] at hremains ⊢
  exact scheduleSpec_decides hremains h

end Decides

/-! ## The schedule -/

section Schedule

variable {source : IssueGraphSource ε} {root : GitHubIssue}

theorem decided_iff {fuel : ℕ} {roots : List GitHubIssue} (hfound : RootsFound source roots)
    (hdecided : ∀ root ∈ roots, scheduleRoot source (fetchIssue source) fuel root =
      .ok (decisionOf source fuel root)) (hroot : root ∈ roots) :
    ((∃ r ∈ (roots.map (decisionOf source fuel)).filterMap Decision.runnable?,
        r.root = identity root) ↔ ∃ r, decisionOf source fuel root = .runnable r) ∧
      ((∃ w ∈ (roots.map (decisionOf source fuel)).filterMap Decision.waiting?,
        w.root = identity root) ↔ ∃ w, decisionOf source fuel root = .waiting w) := by
  have hcorrect : ∀ other ∈ roots, DecisionCorrect source other (decisionOf source fuel other) :=
    fun other hother => scheduleRoot_correct (hfound.topmost other hother) (hdecided other hother)
  -- a root is known by its identity
  have hsame : ∀ other ∈ roots, identity other = identity root → other = root :=
    fun other hother hid => (hfound.topmost other hother).eq_of_number (hfound.topmost root hroot)
      (congrArg IssueIdentity.number hid)
  simp only [mem_filterMap, mem_map, exists_exists_and_eq_and]
  refine ⟨⟨?_, ?_⟩, ?_, ?_⟩
  · rintro ⟨r, ⟨other, hother, hsome⟩, hid⟩
    cases hdecision : decisionOf source fuel other with
    | runnable r' =>
      rw [hdecision] at hsome
      cases hsome
      have habout := hcorrect other hother
      rw [hdecision] at habout
      rw [← hsame other hother (habout.1.symm.trans hid)]
      exact ⟨r, hdecision⟩
    | _ => rw [hdecision] at hsome; cases hsome
  · rintro ⟨r, hdecision⟩
    have habout := hcorrect root hroot
    rw [hdecision] at habout
    exact ⟨r, ⟨root, hroot, by rw [hdecision]; rfl⟩, habout.1⟩
  · rintro ⟨w, ⟨other, hother, hsome⟩, hid⟩
    cases hdecision : decisionOf source fuel other with
    | waiting w' =>
      rw [hdecision] at hsome
      cases hsome
      have habout := hcorrect other hother
      rw [hdecision] at habout
      rw [← hsame other hother (habout.1.symm.trans hid)]
      exact ⟨w, hdecision⟩
    | _ => rw [hdecision] at hsome; cases hsome
  · rintro ⟨w, hdecision⟩
    have habout := hcorrect root hroot
    rw [hdecision] at habout
    exact ⟨w, ⟨root, hroot, by rw [hdecision]; rfl⟩, habout.1⟩

/-- **Progress of the scheduler**: the schedule that is returned runs a leaf of
a root with a remaining leaf exactly when some leaf is free, and lets the root
wait otherwise. -/
theorem scheduleIssueGraph_progress (source : IssueGraphSource ε) (known : List ℕ)
    (hknown : ∀ number issue, source.issue number = .ok issue → number ∈ known)
    (fuel : ℕ) (hfuel : known.length < fuel) (ready : List ℕ) :
    (scheduleIssueGraph source fuel ready).1 ≠ .error .outOfFuel ∧
      ∀ schedule, (scheduleIssueGraph source fuel ready).1 = .ok schedule →
        ∀ root children pullRequest, SpecTree source root children →
          (∃ n ∈ ready, HasRoot source root n) → SharedPullRequest source root pullRequest →
          BlockedWithin children → Acyclic (Needs children) → (∃ leaf ∈ leavesBelow children,
            IsRemaining pullRequest (leavesBelow children) leaf) →
          ((∃ r ∈ schedule.runnable, r.root = identity root) ↔ HasFreeLeaf pullRequest children) ∧
            ((∃ w ∈ schedule.waiting, w.root = identity root) ↔
              ¬ HasFreeLeaf pullRequest children) := by
  have hfetched : ∀ number issue, fetchIssue source number = .ok issue → number ∈ known :=
    fun number issue h => hknown number issue (fetchIssue_eq_ok h).1
  have hresult : (scheduleIssueGraph source fuel ready).1 =
      scheduleWith source (fetchIssue source) fuel ready :=
    (computes_scheduleWith source fuel ready _ (consistent_empty _)).1
  rw [hresult]
  refine ⟨scheduleWith_ne_outOfFuel hfetched fuel hfuel ready, ?_⟩
  intro schedule h root children pullRequest htree hready hshared hwithin hacyclic hremains
  obtain ⟨roots, hroots, h⟩ := bind_eq_ok.mp h
  obtain ⟨hfound, hmembers, hall⟩ := findRoots_spec ready [] roots ⟨nodup_nil, by simp⟩ hroots
  obtain ⟨hdecided, rfl⟩ := (scheduleRoots_eq_ok roots _ schedule).mp h
  -- the root of the ready issue is the given one
  obtain ⟨n, hn, hroot⟩ := hready
  obtain ⟨root', hroot'⟩ := hall n hn
  have hmem : root ∈ roots := by
    rw [hroot.unique (findRoot_hasRoot hroot')]
    exact (hmembers root').mpr (.inr ⟨n, hn, hroot'⟩)
  have hdecides := scheduleRoot_decides htree hshared hremains (hdecided root hmem)
  rw [exists_ready_iff htree hwithin hacyclic] at hdecides
  obtain ⟨hruns, hwaits⟩ := decided_iff hfound hdecided hmem
  rw [foldl_push]
  simp only [nil_append]
  rw [hruns, hwaits]
  by_cases hfree : HasFreeLeaf pullRequest children
  · obtain ⟨r, hr⟩ := hdecides.1 hfree
    simp [hr, hfree]
  · obtain ⟨w, hw⟩ := hdecides.2 hfree
    simp [hw, hfree]

end Schedule

/-! ## A leaf that waits for a container -/

section Examples

def sourceOf (issues : List GitHubIssue) (pullRequest : Option ExistingPullRequest) :
    IssueGraphSource String where
  baseBranch := "master"
  issue number :=
    match issues.find? (·.number = number) with
    | some issue => .ok issue
    | none => .error "missing issue"
  pullRequest _ := .ok pullRequest

def specIssue : GitHubIssue :=
  { number := 1, title := "Spec", childNumbers := [2, 3], openBlockers := [], parentNumber := none
    state := .opened }

def partIssue : GitHubIssue :=
  { number := 2, title := "Part", childNumbers := [4], openBlockers := [], parentNumber := some 1
    state := .opened }

def lastIssue (openBlockers : List IssueIdentity) : GitHubIssue :=
  { number := 3, title := "Last", childNumbers := [], openBlockers, parentNumber := some 1
    state := .opened }

def firstIssue : GitHubIssue :=
  { number := 4, title := "First", childNumbers := [], openBlockers := [], parentNumber := some 2
    state := .opened }

def specTrees (openBlockers : List IssueIdentity) : List IssueTree :=
  [.split partIssue [.leaf
      { ancestorPath := [identity specIssue, identity partIssue, identity firstIssue]
        issue := firstIssue, parent := partIssue }],
    .leaf { ancestorPath := [identity specIssue, identity (lastIssue openBlockers)]
            issue := lastIssue openBlockers, parent := specIssue }]

/-- The shared pull request after the leaf of the container was implemented. -/
def sharedPullRequest : ExistingPullRequest :=
  { baseRefName := "master"
    body := "<!-- sandcastle-implemented:#4@aaaaaaaaaaaaaaaaaaaaaaaaaaaaaaaaaaaaaaaa -->"
    headRefName := "sandcastle/spec-1", isCrossRepository := false, isDraft := true
    state := .opened, url := "https://github.test/pull/1" }

def specSource (openBlockers : List IssueIdentity) : IssueGraphSource String :=
  sourceOf [specIssue, partIssue, lastIssue openBlockers, firstIssue] (some sharedPullRequest)

theorem specTree_specSource (openBlockers : List IssueIdentity) :
    SpecTree (specSource openBlockers) specIssue (specTrees openBlockers) where
  topmost := ⟨rfl, rfl⟩
  nonempty := by decide
  numbers := rfl
  unfolds := by
    intro c hc
    rw [specTrees, mem_cons, mem_singleton] at hc
    rcases hc with rfl | rfl
    · refine .split rfl rfl (by decide) rfl fun c hc => ?_
      rw [mem_singleton.mp hc]
      exact .leaf rfl rfl rfl
    · exact .leaf rfl rfl rfl

theorem hasRoot_specSource (openBlockers : List IssueIdentity) :
    HasRoot (specSource openBlockers) specIssue 3 := by
  have hload : fetchIssue (specSource openBlockers) 3 = .ok (lastIssue openBlockers) := rfl
  exact .above hload rfl (.here rfl rfl)

/-- The trees satisfy the premises when the blockers are the container or its leaf. -/
theorem specTrees_ordered (openBlockers : List IssueIdentity)
    (h : ∀ blocker ∈ openBlockers, blocker.number = 2 ∨ blocker.number = 4) :
    BlockedWithin (specTrees openBlockers) ∧ Acyclic (Needs (specTrees openBlockers)) := by
  have hissues : issuesBelow (specTrees openBlockers) =
      [firstIssue, lastIssue openBlockers, partIssue] := rfl
  constructor
  · intro issue hissue blocker hblocker
    rw [hissues] at hissue ⊢
    simp only [mem_cons, not_mem_nil, or_false] at hissue
    rcases hissue with rfl | rfl | rfl
    · cases hblocker
    · rcases h blocker hblocker with hnumber | hnumber
      · exact ⟨partIssue, by simp, hnumber.symm⟩
      · exact ⟨firstIssue, by simp, hnumber.symm⟩
    · cases hblocker
  · -- the last leaf comes after the container, and the container after its leaf
    apply acyclic_of_rank fun n => if n = 3 then 2 else if n = 2 then 1 else 0
    rintro n m ⟨issue, hissue, rfl, hneeds⟩
    rw [hissues] at hissue
    simp only [mem_cons, not_mem_nil, or_false] at hissue
    rcases hissue with rfl | rfl | rfl
    · simp [firstIssue] at hneeds
    · rcases hneeds with hblocks | hchild
      · obtain ⟨blocker, hblocker, rfl⟩ := mem_map.mp hblocks
        rcases h blocker hblocker with hnumber | hnumber <;> simp [hnumber, lastIssue]
      · simp [lastIssue] at hchild
    · simp only [partIssue, map_nil, not_mem_nil, false_or, mem_singleton] at hneeds
      subst hneeds
      decide

/-- A leaf whose blocker is an implemented leaf is run. -/
theorem scheduleIssueGraph_progress_leafBlocker :
    ∃ schedule, (scheduleIssueGraph (specSource [⟨4, "First"⟩]) 5 [3]).1 = .ok schedule ∧
      ((∃ r ∈ schedule.runnable, r.root = identity specIssue) ↔
        HasFreeLeaf (some sharedPullRequest) (specTrees [⟨4, "First"⟩])) := by
  have hknown : ∀ number issue, (specSource [⟨4, "First"⟩]).issue number = .ok issue →
      number ∈ [1, 2, 3, 4] := by
    intro number issue h
    simp only [specSource, sourceOf] at h
    split at h
    · next found hfound =>
      have hmem := mem_of_find?_eq_some hfound
      have hnumber : found.number = number := by
        simpa using find?_some hfound
      rw [← hnumber]
      simp only [mem_cons, not_mem_nil, or_false] at hmem
      rcases hmem with rfl | rfl | rfl | rfl <;> decide
    · cases h
  obtain ⟨hwithin, hacyclic⟩ := specTrees_ordered [⟨4, "First"⟩] (by decide)
  have hroot : HasRoot (specSource [⟨4, "First"⟩]) specIssue 3 := hasRoot_specSource _
  obtain ⟨-, hprogress⟩ :=
    scheduleIssueGraph_progress (specSource [⟨4, "First"⟩]) [1, 2, 3, 4] hknown 5 (by decide) [3]
  refine ⟨_, rfl, ?_⟩
  exact (hprogress _ rfl specIssue (specTrees [⟨4, "First"⟩]) (some sharedPullRequest)
    (specTree_specSource _) ⟨3, mem_singleton_self 3, hroot⟩ rfl hwithin hacyclic
    (by decide)).1

/-- A leaf whose blocker is a container waits although the only leaf of the
container is implemented: nothing of the spec is run. -/
theorem scheduleIssueGraph_containerBlocker :
    SpecTree (specSource [⟨2, "Part"⟩]) specIssue (specTrees [⟨2, "Part"⟩]) ∧
      HasRoot (specSource [⟨2, "Part"⟩]) specIssue 3 ∧
      SharedPullRequest (specSource [⟨2, "Part"⟩]) specIssue (some sharedPullRequest) ∧
      BlockedWithin (specTrees [⟨2, "Part"⟩]) ∧ Acyclic (Needs (specTrees [⟨2, "Part"⟩])) ∧
      (∃ leaf ∈ leavesBelow (specTrees [⟨2, "Part"⟩]), IsRemaining (some sharedPullRequest)
        (leavesBelow (specTrees [⟨2, "Part"⟩])) leaf) ∧
      ∃ schedule, (scheduleIssueGraph (specSource [⟨2, "Part"⟩]) 5 [3]).1 = .ok schedule ∧
        schedule.runnable = [] ∧ schedule.waiting.map (·.root) = [identity specIssue] := by
  obtain ⟨hwithin, hacyclic⟩ := specTrees_ordered [⟨2, "Part"⟩] (by decide)
  refine ⟨specTree_specSource _, hasRoot_specSource _, rfl, hwithin, hacyclic, by decide, _, rfl,
    ?_, ?_⟩
  · decide
  · decide

end Examples

end Laborer.Sandcastle
