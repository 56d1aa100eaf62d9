import Laborer.Library.LeafTree
import Laborer.Sandcastle.IssueGraphScheduler

/-!
# Correctness of the issue graph scheduler

The scheduler reads no issue twice and ends for every finite graph. When it
returns, the descendants of a scheduled root form a finite tree, and the
decision about the root is read off the leaves of that tree in depth-first
order. The decisions about different roots do not depend on each other, so
neither the order of the ready issues nor repetitions in it matter.
-/

namespace Laborer.Sandcastle

open Laborer.Library List

variable {ε : Type}

/-! ## What is expected -/

/-- The tree of the issues below a root; its leaves are in depth-first order. -/
abbrev IssueTree := LeafTree GitHubIssue DescendantLeaf

def IssueTree.issue : IssueTree → GitHubIssue
  | .leaf leaf => leaf.issue
  | .split issue _ => issue

/-- A tree unfolds the graph below an issue: parent and child links agree all
the way down, and every leaf knows its path. -/
inductive Unfolds (load : ℕ → Except (ScheduleError ε) GitHubIssue) :
    GitHubIssue → List IssueIdentity → IssueTree → Prop
  | leaf {parent child : GitHubIssue} {path : List IssueIdentity} :
      load child.number = .ok child → child.parentNumber = some parent.number →
        child.childNumbers = [] →
          Unfolds load parent path
            (.leaf { ancestorPath := path ++ [identity child], issue := child, parent })
  | split {parent child : GitHubIssue} {path : List IssueIdentity} {children : List IssueTree} :
      load child.number = .ok child → child.parentNumber = some parent.number →
        child.childNumbers ≠ [] →
          child.childNumbers = children.map (IssueTree.issue · |>.number) →
            (∀ c ∈ children, Unfolds load child (path ++ [identity child]) c) →
              Unfolds load parent path (.split child children)

section Expected

variable (source : IssueGraphSource ε)

def Topmost (root : GitHubIssue) : Prop :=
  fetchIssue source root.number = .ok root ∧ root.parentNumber = none

/-- The issues below a root form the given trees. -/
structure SpecTree (root : GitHubIssue) (children : List IssueTree) : Prop where
  topmost : Topmost source root
  nonempty : root.childNumbers ≠ []
  numbers : root.childNumbers = children.map (IssueTree.issue · |>.number)
  unfolds : ∀ c ∈ children, Unfolds (fetchIssue source) root [identity root] c

def SharedPullRequest (root : GitHubIssue) (pullRequest : Option ExistingPullRequest) : Prop :=
  source.pullRequest s!"sandcastle/spec-{root.number}" = .ok pullRequest

section Leaves

variable (pullRequest : Option ExistingPullRequest) (leaves : List DescendantLeaf)

def IsImplemented (number : ℕ) : Prop :=
  (∃ marker ∈ implementedMarkers pullRequest, marker.issueNumber = number) ∧
    number ∈ leaves.map (·.issue.number)

instance (number : ℕ) : Decidable (IsImplemented pullRequest leaves number) :=
  inferInstanceAs (Decidable ((∃ marker ∈ _, _ = _) ∧ _ ∈ _))

def IsRemaining (leaf : DescendantLeaf) : Prop :=
  leaf.issue.state = .opened ∧ ¬ IsImplemented pullRequest leaves leaf.issue.number

instance (leaf : DescendantLeaf) : Decidable (IsRemaining pullRequest leaves leaf) :=
  inferInstanceAs (Decidable (_ = _ ∧ ¬ _))

def IsReady (leaf : DescendantLeaf) : Prop :=
  IsRemaining pullRequest leaves leaf ∧
    ∀ blocker ∈ leaf.issue.openBlockers, IsImplemented pullRequest leaves blocker.number

instance (leaf : DescendantLeaf) : Decidable (IsReady pullRequest leaves leaf) :=
  inferInstanceAs (Decidable (_ ∧ ∀ _ ∈ _, _))

/-- What a waiting root says about a leaf. -/
def waitingLeaf (leaf : DescendantLeaf) : WaitingLeaf :=
  { ancestorPath := leaf.ancestorPath
    leaf := identity leaf.issue
    openBlockers := leaf.issue.openBlockers.filter fun blocker =>
      ¬ IsImplemented pullRequest leaves blocker.number }

end Leaves

/-- A runnable issue is an open standalone issue without blockers, or the first
ready leaf of its root. -/
inductive RunnableCorrect (r : RunnableIssue) : Prop
  | standalone (root : GitHubIssue) (topmost : Topmost source root)
      (childless : root.childNumbers = []) (root_eq : r.root = identity root)
      (kind : r.kind = .standalone) (issue : r.issue = identity root)
      (opened : root.state = .opened) (unblocked : root.openBlockers = [])
  | specLeaf (root : GitHubIssue) (children : List IssueTree) (tree : SpecTree source root children)
      (root_eq : r.root = identity root) (kind : r.kind = .specLeaf)
      (shared : SharedPullRequest source root r.pullRequest)
      (before : List DescendantLeaf) (selected : DescendantLeaf) (after : List DescendantLeaf)
      (leaves : children.flatMap LeafTree.leaves = before ++ selected :: after)
      (ready : IsReady r.pullRequest (children.flatMap LeafTree.leaves) selected)
      (first : ∀ leaf ∈ before, ¬ IsReady r.pullRequest (children.flatMap LeafTree.leaves) leaf)
      (issue : r.issue = identity selected.issue)
      (ancestorPath : r.ancestorPath = selected.ancestorPath)
      (parent : r.parent = some (identity selected.parent))

/-- A waiting root lists exactly its remaining leaves, none of which is ready. -/
inductive WaitingCorrect (w : WaitingIssueRoot) : Prop
  | standalone (root : GitHubIssue) (topmost : Topmost source root)
      (childless : root.childNumbers = []) (root_eq : w.root = identity root)
      (opened : root.state = .opened) (blocked : root.openBlockers ≠ [])
      (leaves : w.blockedLeaves = [{ ancestorPath := [identity root], leaf := identity root,
                                     openBlockers := root.openBlockers }])
  | spec (root : GitHubIssue) (children : List IssueTree) (tree : SpecTree source root children)
      (root_eq : w.root = identity root) (shared : SharedPullRequest source root w.pullRequest)
      (leaves : w.blockedLeaves =
        ((children.flatMap LeafTree.leaves).filter fun leaf =>
          IsRemaining w.pullRequest (children.flatMap LeafTree.leaves) leaf).map
            (waitingLeaf w.pullRequest (children.flatMap LeafTree.leaves)))
      (remains : w.blockedLeaves ≠ [])
      (blocked : ∀ leaf ∈ children.flatMap LeafTree.leaves,
        ¬ IsReady w.pullRequest (children.flatMap LeafTree.leaves) leaf)

inductive FinalizeCorrect (f : FinalizeIssueSpec) : Prop
  | spec (root : GitHubIssue) (children : List IssueTree) (tree : SpecTree source root children)
      (root_eq : f.root = identity root)
      (shared : SharedPullRequest source root (some f.pullRequest))
      (done : ∀ leaf ∈ children.flatMap LeafTree.leaves,
        ¬ IsRemaining (some f.pullRequest) (children.flatMap LeafTree.leaves) leaf)

def IssueGraphSchedule.roots (schedule : IssueGraphSchedule) : List IssueIdentity :=
  schedule.runnable.map (·.root) ++ schedule.waiting.map (·.root) ++
    schedule.finalize.map (·.root)

/-- **Correctness of a schedule.** -/
structure ScheduleCorrect (schedule : IssueGraphSchedule) : Prop where
  oneResult : (schedule.roots.map (·.number)).Nodup
  runnable : ∀ r ∈ schedule.runnable, RunnableCorrect source r
  waiting : ∀ w ∈ schedule.waiting, WaitingCorrect source w
  finalize : ∀ f ∈ schedule.finalize, FinalizeCorrect source f

structure SameDecisions (schedule schedule' : IssueGraphSchedule) : Prop where
  runnable : schedule.runnable.Perm schedule'.runnable
  waiting : schedule.waiting.Perm schedule'.waiting
  finalize : schedule.finalize.Perm schedule'.finalize

end Expected

/-! ## The walks without the cache -/

@[simp] theorem lift_eq {α : Type} (x : Except (ScheduleError ε) α) :
    (lift x : Except (ScheduleError ε) α) = x := by
  cases x <;> rfl

section Cache

variable (source : IssueGraphSource ε)

theorem computes_lift {α : Type} (x : Except (ScheduleError ε) α) :
    Computes (fetchIssue source) (lift x) x := by
  cases x with
  | ok a => exact computes_pure a
  | error e => exact computes_throw e

theorem computes_climb (fuel : ℕ) (current : GitHubIssue) (path : List ℕ) :
    Computes (fetchIssue source) (climb (loadIssue source) fuel current path)
      (climb (fetchIssue source) fuel current path) := by
  induction fuel generalizing current path with
  | zero =>
    unfold climb
    cases current.parentNumber with
    | none => exact computes_pure _
    | some parentNumber =>
      dsimp only
      split
      · exact computes_throw _
      · exact computes_throw _
  | succ fuel ih =>
    unfold climb
    cases current.parentNumber with
    | none => exact computes_pure _
    | some parentNumber =>
      dsimp only
      split
      · exact computes_throw _
      · refine computes_bind (computes_cachedLoad _) fun parent => ?_
        split
        · exact computes_throw _
        · exact ih parent _

theorem computes_findRoots (fuel : ℕ) (ready : List ℕ) (roots : List GitHubIssue)
    (seenRoots : List ℕ) :
    Computes (fetchIssue source) (findRoots (loadIssue source) fuel ready roots seenRoots)
      (findRoots (fetchIssue source) fuel ready roots seenRoots) := by
  induction ready generalizing roots seenRoots with
  | nil => exact computes_pure _
  | cons readyNumber rest ih =>
    refine computes_bind (computes_bind (computes_cachedLoad _) fun current =>
      computes_climb source fuel current []) fun root => ?_
    split
    · exact ih _ _
    · exact ih _ _

theorem computes_visitEach (rootNumber : ℕ)
    {visit : GitHubIssue → List IssueIdentity → Descendants →
      Reading ℕ GitHubIssue (ScheduleError ε) Descendants}
    {visit' : GitHubIssue → List IssueIdentity → Descendants →
      Except (ScheduleError ε) Descendants}
    (hvisit : ∀ parent path found,
      Computes (fetchIssue source) (visit parent path found) (visit' parent path found))
    (parent : GitHubIssue) (path : List IssueIdentity) (rest directChildren : List ℕ)
    (found : Descendants) :
    Computes (fetchIssue source)
      (visitEach (loadIssue source) rootNumber visit parent path rest directChildren found)
      (visitEach (fetchIssue source) rootNumber visit' parent path rest directChildren found) := by
  induction rest generalizing directChildren found with
  | nil => exact computes_pure _
  | cons childNumber rest ih =>
    unfold visitEach
    split
    · exact computes_throw _
    · refine computes_bind (computes_cachedLoad _) fun child => ?_
      split
      · exact computes_throw _
      · refine computes_bind ?_ fun found => ih _ found
        unfold takeChild
        split
        · exact computes_pure _
        · exact hvisit _ _ _

theorem computes_visitChildren (rootNumber fuel : ℕ) (parent : GitHubIssue)
    (path : List IssueIdentity) (found : Descendants) :
    Computes (fetchIssue source)
      (visitChildren (loadIssue source) rootNumber fuel parent path found)
      (visitChildren (fetchIssue source) rootNumber fuel parent path found) := by
  induction fuel generalizing parent path found with
  | zero => exact computes_throw _
  | succ fuel ih => exact computes_visitEach source rootNumber ih parent path _ [] found

theorem computes_scheduleRoot (fuel : ℕ) (root : GitHubIssue) :
    Computes (fetchIssue source) (scheduleRoot source (loadIssue source) fuel root)
      (scheduleRoot source (fetchIssue source) fuel root) := by
  unfold scheduleRoot
  simp only [lift_eq]
  split
  · exact computes_lift source _
  · refine computes_bind (computes_lift source _) fun pullRequest => ?_
    refine computes_bind (computes_lift source _) fun _ => ?_
    refine computes_bind (computes_visitChildren source _ fuel _ _ _) fun found => ?_
    exact computes_lift source _

/-- **The cache is transparent**: the scheduler computes what it would by
reading the source directly, and reads no issue twice. -/
theorem computes_scheduleWith (fuel : ℕ) (ready : List ℕ) :
    Computes (fetchIssue source) (scheduleWith source (loadIssue source) fuel ready)
      (scheduleWith source (fetchIssue source) fuel ready) := by
  refine computes_bind (computes_findRoots source fuel ready [] []) fun roots => ?_
  generalize ({ finalize := [], runnable := [], waiting := [] } : IssueGraphSchedule) = schedule
  induction roots generalizing schedule with
  | nil => exact computes_pure _
  | cons root rest ih =>
    exact computes_bind (computes_scheduleRoot source fuel root) fun decision => ih _

end Cache

/-! ## Enough fuel -/

section Fuel

variable {source : IssueGraphSource ε} {rootNumber : ℕ}

theorem fromSource_eq_ok {α : Type} {x : Except ε α} {a : α}
    (h : fromSource x = .ok a) : x = .ok a := by
  cases x with
  | error e => cases h
  | ok a' =>
    cases h
    rfl

theorem fetchIssue_eq_ok {number : ℕ} {issue : GitHubIssue}
    (h : fetchIssue source number = .ok issue) :
    source.issue number = .ok issue ∧ issue.number = number := by
  obtain ⟨loaded, hloaded, hcheck⟩ := bind_eq_ok.mp h
  split at hcheck
  · cases hcheck
  · next hnumber =>
    cases hcheck
    exact ⟨fromSource_eq_ok hloaded, not_not.mp hnumber⟩

theorem fromSource_ne_outOfFuel {α : Type} (x : Except ε α) : fromSource x ≠ .error .outOfFuel := by
  cases x <;> simp [fromSource]

theorem fetchIssue_ne_outOfFuel (number : ℕ) : fetchIssue source number ≠ .error .outOfFuel := by
  refine except_bind_ne_error (fromSource_ne_outOfFuel _) fun loaded _ => ?_
  split
  · exact fun h => nomatch h
  · exact fun h => nomatch h

theorem assertPullRequestIsRecoverable_ne_outOfFuel (branch : String)
    (pullRequest : Option ExistingPullRequest) (baseBranch : String) :
    assertPullRequestIsRecoverable (ε := ε) branch pullRequest baseBranch ≠
      .error .outOfFuel := by
  unfold assertPullRequestIsRecoverable
  split
  · exact fun h => nomatch h
  · split
    · exact fun h => nomatch h
    · split <;> exact fun h => nomatch h

/-- The known issues that a walk has not met yet. -/
def unmet (known met : List ℕ) : List ℕ := known.filter (· ∉ met)

theorem unmet_length_le {known met met' : List ℕ} (h : met ⊆ met') :
    (unmet known met').length ≤ (unmet known met).length :=
  (monotone_filter_right known fun n hn => by
    simp only [decide_eq_true_eq] at hn ⊢
    exact fun hmem => hn (h hmem)).length_le

theorem unmet_length_lt {known met : List ℕ} {number : ℕ} (hknown : number ∈ known)
    (hnew : number ∉ met) : (unmet known (met ++ [number])).length < (unmet known met).length := by
  have hsplit : unmet known (met ++ [number]) = (unmet known met).filter (· ≠ number) := by
    simp only [unmet, filter_filter]
    refine filter_congr fun n _ => ?_
    simp [and_comm]
  rw [hsplit]
  refine length_filter_lt_length_iff_exists.mpr ⟨number, ?_, by simp⟩
  exact mem_filter.mpr ⟨hknown, by simpa using hnew⟩

theorem visitEach_visited {visit : GitHubIssue → List IssueIdentity → Descendants →
      Except (ScheduleError ε) Descendants}
    (hvisit : ∀ parent path found found', visit parent path found = .ok found' →
      found.visited ⊆ found'.visited)
    (parent : GitHubIssue) (path : List IssueIdentity) (rest directChildren : List ℕ)
    (found found' : Descendants)
    (h : visitEach (fetchIssue source) rootNumber visit parent path rest directChildren found =
      .ok found') : found.visited ⊆ found'.visited := by
  induction rest generalizing directChildren found with
  | nil =>
    cases h
    exact List.Subset.refl _
  | cons childNumber rest ih =>
    unfold visitEach at h
    split at h
    · cases h
    · obtain ⟨child, -, h⟩ := bind_eq_ok.mp h
      split at h
      · cases h
      · obtain ⟨next, hnext, h⟩ := bind_eq_ok.mp h
        have hstep : found.visited ⊆ next.visited := by
          unfold takeChild at hnext
          split at hnext
          · cases hnext
            exact subset_append_left _ _
          · exact List.Subset.trans (subset_append_left _ _) (hvisit _ _ _ _ hnext)
        exact List.Subset.trans hstep (ih _ next h)

theorem visitChildren_visited (fuel : ℕ) (parent : GitHubIssue)
    (path : List IssueIdentity) (found found' : Descendants)
    (h : visitChildren (fetchIssue source) rootNumber fuel parent path found = .ok found') :
    found.visited ⊆ found'.visited := by
  induction fuel generalizing parent path found found' with
  | zero => cases h
  | succ fuel ih => exact visitEach_visited ih parent path _ [] found found' h

theorem scheduleStandalone_ne_outOfFuel (root : GitHubIssue) :
    scheduleStandalone source root ≠ .error .outOfFuel := by
  unfold scheduleStandalone
  split
  · exact fun h => nomatch h
  · refine except_bind_ne_error (fromSource_ne_outOfFuel _) fun pullRequest _ => ?_
    refine except_bind_ne_error (assertPullRequestIsRecoverable_ne_outOfFuel _ _ _) fun _ _ => ?_
    split <;> exact fun h => nomatch h

theorem scheduleSpec_ne_outOfFuel (root : GitHubIssue) (branch : String)
    (pullRequest : Option ExistingPullRequest) (found : Descendants) :
    scheduleSpec (ε := ε) root branch pullRequest found ≠ .error .outOfFuel := by
  refine except_bind_ne_error ?_ fun latestReviewedHead _ => ?_
  · unfold reviewedHead reviewedHeadFromBody
    split
    · exact fun h => nomatch h
    · dsimp only
      split <;> exact fun h => nomatch h
  refine except_bind_ne_error ?_ fun _ _ => ?_
  · unfold assertDescendantStateIsConsistent
    dsimp only
    split
    · exact fun h => nomatch h
    · split <;> exact fun h => nomatch h
  refine except_bind_ne_error ?_ fun _ _ => ?_
  · unfold assertPullRequestCanScheduleRemaining
    split
    · exact fun h => nomatch h
    · split
      · exact fun h => nomatch h
      · split
        · exact fun h => nomatch h
        · split <;> exact fun h => nomatch h
  split
  · exact fun h => nomatch h
  · split
    · exact fun h => nomatch h
    · split
      · exact fun h => nomatch h
      · split
        · split <;> exact fun h => nomatch h
        · exact fun h => nomatch h

variable {known : List ℕ}
  (hknown : ∀ number issue, fetchIssue source number = .ok issue → number ∈ known)

include hknown

/-- The way up meets a new issue in every round. -/
theorem climb_ne_outOfFuel (fuel : ℕ) (current : GitHubIssue) (path : List ℕ)
    (hcurrent : current.number ∈ known) (hfuel : (unmet known path).length ≤ fuel) :
    climb (fetchIssue source) fuel current path ≠ .error .outOfFuel := by
  induction fuel generalizing current path with
  | zero =>
    unfold climb
    cases current.parentNumber with
    | none => exact fun h => nomatch h
    | some parentNumber =>
      dsimp only
      split
      · exact fun h => nomatch h
      · next hnew =>
        have hlt := unmet_length_lt hcurrent hnew
        omega
  | succ fuel ih =>
    unfold climb
    cases current.parentNumber with
    | none => exact fun h => nomatch h
    | some parentNumber =>
      dsimp only
      split
      · exact fun h => nomatch h
      · next hnew =>
        refine except_bind_ne_error (fetchIssue_ne_outOfFuel _) fun parent hparent => ?_
        split
        · exact fun h => nomatch h
        · have hlt := unmet_length_lt hcurrent hnew
          refine ih parent _ ?_ (by omega)
          rw [(fetchIssue_eq_ok hparent).2]
          exact hknown _ _ hparent

theorem findRoots_ne_outOfFuel (fuel : ℕ) (hfuel : known.length ≤ fuel) (ready : List ℕ)
    (roots : List GitHubIssue) (seenRoots : List ℕ) :
    findRoots (fetchIssue source) fuel ready roots seenRoots ≠ .error .outOfFuel := by
  induction ready generalizing roots seenRoots with
  | nil => exact fun h => nomatch h
  | cons readyNumber rest ih =>
    refine except_bind_ne_error ?_ fun root _ => ?_
    · refine except_bind_ne_error (fetchIssue_ne_outOfFuel _) fun current hcurrent => ?_
      apply climb_ne_outOfFuel hknown
      · rw [(fetchIssue_eq_ok hcurrent).2]
        exact hknown _ _ hcurrent
      · exact Nat.le_trans (length_filter_le _ _) hfuel
    · split
      · exact ih _ _
      · exact ih _ _

/-- The walk below a root meets a new issue whenever it goes deeper. -/
theorem visitChildren_ne_outOfFuel (fuel : ℕ) (parent : GitHubIssue)
    (path : List IssueIdentity) (found : Descendants)
    (hfuel : (unmet known found.visited).length < fuel) :
    visitChildren (fetchIssue source) rootNumber fuel parent path found ≠ .error .outOfFuel := by
  induction fuel generalizing parent path found with
  | zero => omega
  | succ fuel ih =>
    unfold visitChildren
    generalize parent.childNumbers = rest
    generalize ([] : List ℕ) = directChildren
    -- the children one after the other; what was met stays met
    induction rest generalizing directChildren found with
    | nil => exact fun h => nomatch h
    | cons childNumber rest ihrest =>
      unfold visitEach
      split
      · exact fun h => nomatch h
      · next hnew =>
        rw [not_or] at hnew
        refine except_bind_ne_error (fetchIssue_ne_outOfFuel _) fun child hchild => ?_
        split
        · exact fun h => nomatch h
        · have hlt := unmet_length_lt (hknown _ _ hchild) hnew.2
          refine except_bind_ne_error ?_ fun next hnext => ihrest next ?_ _
          · unfold takeChild
            split
            · exact fun h => nomatch h
            · exact ih _ _ _ (by dsimp only; omega)
          · have hsub : found.visited ++ [childNumber] ⊆ next.visited := by
              unfold takeChild at hnext
              split at hnext
              · cases hnext
                exact List.Subset.refl _
              · exact visitChildren_visited fuel _ _ _ _ hnext
            have hle : (unmet known next.visited).length ≤
                (unmet known (found.visited ++ [childNumber])).length := unmet_length_le hsub
            omega

theorem scheduleRoot_ne_outOfFuel (fuel : ℕ) (hfuel : known.length < fuel) (root : GitHubIssue) :
    scheduleRoot source (fetchIssue source) fuel root ≠ .error .outOfFuel := by
  unfold scheduleRoot
  simp only [lift_eq]
  split
  · exact scheduleStandalone_ne_outOfFuel root
  · refine except_bind_ne_error (fromSource_ne_outOfFuel _) fun pullRequest _ => ?_
    refine except_bind_ne_error (assertPullRequestIsRecoverable_ne_outOfFuel _ _ _) fun _ _ => ?_
    refine except_bind_ne_error ?_ fun found _ => scheduleSpec_ne_outOfFuel _ _ _ _
    exact visitChildren_ne_outOfFuel hknown fuel _ _ _
      (Nat.lt_of_le_of_lt (length_filter_le _ _) hfuel)

/-- **The scheduler ends**: with more fuel than there are issues it does not run
out. -/
theorem scheduleWith_ne_outOfFuel (fuel : ℕ) (hfuel : known.length < fuel) (ready : List ℕ) :
    scheduleWith source (fetchIssue source) fuel ready ≠ .error .outOfFuel := by
  refine except_bind_ne_error (findRoots_ne_outOfFuel hknown fuel (Nat.le_of_lt hfuel) ready
    [] []) fun roots hroots => ?_
  clear hroots
  generalize ({ finalize := [], runnable := [], waiting := [] } : IssueGraphSchedule) = schedule
  induction roots generalizing schedule with
  | nil => exact fun h => nomatch h
  | cons root rest ih =>
    exact except_bind_ne_error (scheduleRoot_ne_outOfFuel hknown fuel hfuel root) fun decision _ =>
      ih _

end Fuel

/-! ## The roots -/

section Roots

variable {source : IssueGraphSource ε} {fuel : ℕ}

theorem climb_topmost (fuel : ℕ) (current root : GitHubIssue) (path : List ℕ)
    (hcurrent : fetchIssue source current.number = .ok current)
    (h : climb (fetchIssue source) fuel current path = .ok root) : Topmost source root := by
  induction fuel generalizing current path with
  | zero =>
    unfold climb at h
    cases hparent : current.parentNumber with
    | none =>
      simp only [hparent] at h
      cases h
      exact ⟨hcurrent, hparent⟩
    | some parentNumber =>
      simp only [hparent] at h
      split at h <;> cases h
  | succ fuel ih =>
    unfold climb at h
    cases hparent : current.parentNumber with
    | none =>
      simp only [hparent] at h
      cases h
      exact ⟨hcurrent, hparent⟩
    | some parentNumber =>
      simp only [hparent] at h
      split at h
      · cases h
      · obtain ⟨parent, hfetch, h⟩ := bind_eq_ok.mp h
        split at h
        · cases h
        · refine ih parent _ ?_ h
          rw [(fetchIssue_eq_ok hfetch).2]
          exact hfetch

theorem findRoot_topmost {readyNumber : ℕ} {root : GitHubIssue}
    (h : findRoot (fetchIssue source) fuel readyNumber = .ok root) : Topmost source root := by
  obtain ⟨current, hcurrent, h⟩ := bind_eq_ok.mp h
  refine climb_topmost fuel current root [] ?_ h
  rw [(fetchIssue_eq_ok hcurrent).2]
  exact hcurrent

theorem Topmost.eq_of_number {root root' : GitHubIssue} (h : Topmost source root)
    (h' : Topmost source root') (hnumber : root.number = root'.number) : root = root' := by
  have hfetch := h.1
  rw [hnumber, h'.1] at hfetch
  exact (Except.ok.inj hfetch).symm

/-- The roots found so far: each once, and each of them topmost. -/
structure RootsFound (source : IssueGraphSource ε) (roots : List GitHubIssue) : Prop where
  nodup : (roots.map (·.number)).Nodup
  topmost : ∀ root ∈ roots, Topmost source root

/-- **The roots** are the topmost ancestors of the ready issues, each once. -/
theorem findRoots_spec (ready : List ℕ) (roots result : List GitHubIssue)
    (hroots : RootsFound source roots)
    (h : findRoots (fetchIssue source) fuel ready roots (roots.map (·.number)) = .ok result) :
    RootsFound source result ∧ (∀ root, root ∈ result ↔ root ∈ roots ∨
        ∃ n ∈ ready, findRoot (fetchIssue source) fuel n = .ok root) ∧
      ∀ n ∈ ready, ∃ root, findRoot (fetchIssue source) fuel n = .ok root := by
  induction ready generalizing roots with
  | nil =>
    cases h
    exact ⟨hroots, by simp, by simp⟩
  | cons readyNumber rest ih =>
    obtain ⟨root, hroot, h⟩ := bind_eq_ok.mp h
    have htopmost := findRoot_topmost hroot
    simp only [mem_cons, exists_eq_or_imp, forall_eq_or_imp]
    split at h
    · next hseen =>
      -- a root with this number was found before, and it is this one
      obtain ⟨root', hmem, hnumber⟩ := mem_map.mp hseen
      have hsame := (hroots.topmost root' hmem).eq_of_number htopmost hnumber
      subst hsame
      obtain ⟨hresult, hmembers, hall⟩ := ih roots hroots h
      refine ⟨hresult, fun r => ?_, ⟨root', hroot⟩, hall⟩
      rw [hmembers, hroot, Except.ok.injEq, ← or_assoc]
      exact or_congr_left (iff_self_or.mpr fun heq => heq ▸ hmem)
    · next hnew =>
      have hnext : RootsFound source (roots ++ [root]) := by
        refine ⟨?_, fun r hr => ?_⟩
        · rw [map_append]
          exact nodup_append.mpr ⟨hroots.nodup, nodup_singleton _, fun a ha b hb heq =>
            hnew (by rw [map_singleton, mem_singleton] at hb; exact hb ▸ heq ▸ ha)⟩
        · rcases mem_append.mp hr with hr | hr
          · exact hroots.topmost r hr
          · rw [mem_singleton.mp hr]
            exact htopmost
      have hseen : (roots ++ [root]).map (·.number) = roots.map (·.number) ++ [root.number] := by
        rw [map_append, map_singleton]
      rw [← hseen] at h
      obtain ⟨hresult, hmembers, hall⟩ := ih _ hnext h
      refine ⟨hresult, fun r => ?_, ⟨root, hroot⟩, hall⟩
      rw [hmembers, hroot, Except.ok.injEq, mem_append, mem_singleton, or_assoc, eq_comm (a := r)]

theorem findRoots_total (ready : List ℕ) (roots : List GitHubIssue) (seenRoots : List ℕ)
    (h : ∀ n ∈ ready, ∃ root, findRoot (fetchIssue source) fuel n = .ok root) :
    ∃ result, findRoots (fetchIssue source) fuel ready roots seenRoots = .ok result := by
  induction ready generalizing roots seenRoots with
  | nil => exact ⟨roots, rfl⟩
  | cons readyNumber rest ih =>
    rw [forall_mem_cons] at h
    obtain ⟨root, hroot⟩ := h.1
    unfold findRoots
    rw [hroot]
    show ∃ result, (if root.number ∈ seenRoots then _ else _) = Except.ok result
    split
    · exact ih _ _ h.2
    · exact ih _ _ h.2

end Roots

/-! ## The descendants -/

section Below

variable {source : IssueGraphSource ε} {rootNumber : ℕ}

/-- What the walk below an issue adds: trees that unfold its children. -/
def AddsTrees (source : IssueGraphSource ε) (parent : GitHubIssue) (path : List IssueIdentity)
    (numbers : List ℕ) (found found' : Descendants) : Prop :=
  ∃ children : List IssueTree, numbers = children.map (IssueTree.issue · |>.number) ∧
    (∀ c ∈ children, Unfolds (fetchIssue source) parent path c) ∧
    found'.leaves = found.leaves ++ children.flatMap LeafTree.leaves

theorem visitEach_addsTrees
    {visit : GitHubIssue → List IssueIdentity → Descendants →
      Except (ScheduleError ε) Descendants}
    (hvisit : ∀ parent path found found', visit parent path found = .ok found' →
      AddsTrees source parent path parent.childNumbers found found')
    (parent : GitHubIssue) (path : List IssueIdentity) (rest directChildren : List ℕ)
    (found found' : Descendants)
    (h : visitEach (fetchIssue source) rootNumber visit parent path rest directChildren found =
      .ok found') : AddsTrees source parent path rest found found' := by
  induction rest generalizing directChildren found with
  | nil =>
    cases h
    exact ⟨[], rfl, by simp, by simp⟩
  | cons childNumber rest ih =>
    unfold visitEach at h
    split at h
    · cases h
    obtain ⟨child, hfetch, h⟩ := bind_eq_ok.mp h
    split at h
    · cases h
    next hparent =>
    obtain ⟨next, hnext, h⟩ := bind_eq_ok.mp h
    obtain ⟨children, hnumbers, hunfolds, hleaves⟩ := ih _ next h
    have hnumber := (fetchIssue_eq_ok hfetch).2
    have hload : fetchIssue source child.number = .ok child := by rw [hnumber, hfetch]
    -- the child is a leaf, or a container whose own walk adds its trees
    have htree : ∃ tree : IssueTree, tree.issue = child ∧
        Unfolds (fetchIssue source) parent path tree ∧
          next.leaves = found.leaves ++ tree.leaves := by
      unfold takeChild at hnext
      split at hnext
      · next hchildless =>
        cases hnext
        exact ⟨.leaf _, rfl, .leaf hload (not_not.mp hparent)
          (length_eq_zero_iff.mp hchildless), rfl⟩
      · next hcontainer =>
        obtain ⟨below, hbelow, hsub, hadded⟩ := hvisit _ _ _ _ hnext
        refine ⟨.split child below, rfl, .split hload (not_not.mp hparent) (fun hnil => ?_) hbelow
          hsub, by rw [hadded, LeafTree.leaves_split]⟩
        exact hcontainer (by rw [hnil, length_nil])
    obtain ⟨tree, rfl, htree, hadded⟩ := htree
    refine ⟨tree :: children, by rw [map_cons, ← hnumbers, hnumber], ?_, ?_⟩
    · exact forall_mem_cons.mpr ⟨htree, hunfolds⟩
    · rw [hleaves, hadded, flatMap_cons, append_assoc]

/-- **The walk is depth-first**: it collects the leaves of the unfolded trees. -/
theorem visitChildren_addsTrees (fuel : ℕ) (parent : GitHubIssue) (path : List IssueIdentity)
    (found found' : Descendants)
    (h : visitChildren (fetchIssue source) rootNumber fuel parent path found = .ok found') :
    AddsTrees source parent path parent.childNumbers found found' := by
  induction fuel generalizing parent path found found' with
  | zero => cases h
  | succ fuel ih => exact visitEach_addsTrees ih parent path _ [] found found' h

end Below

/-! ## The decisions -/

section Decisions

variable {source : IssueGraphSource ε} {decision : Decision} {root : GitHubIssue}

def DecisionCorrect (source : IssueGraphSource ε) (root : GitHubIssue) : Decision → Prop
  | .nothing => True
  | .runnable r => r.root = identity root ∧ RunnableCorrect source r
  | .waiting w => w.root = identity root ∧ WaitingCorrect source w
  | .finalize f => f.root = identity root ∧ FinalizeCorrect source f

theorem scheduleStandalone_correct
    (htopmost : Topmost source root) (hchildless : root.childNumbers = [])
    (h : scheduleStandalone source root = .ok decision) : DecisionCorrect source root decision := by
  unfold scheduleStandalone at h
  split at h
  · cases h
    trivial
  · next hopened =>
    rw [not_not] at hopened
    obtain ⟨pullRequest, -, h⟩ := bind_eq_ok.mp h
    obtain ⟨_, -, h⟩ := bind_eq_ok.mp h
    split at h
    · next hunblocked =>
      cases h
      exact ⟨rfl, .standalone root htopmost hchildless rfl rfl rfl hopened
        (length_eq_zero_iff.mp hunblocked)⟩
    · next hblocked =>
      cases h
      refine ⟨rfl, .standalone root htopmost hchildless rfl hopened (fun hnil => hblocked ?_) rfl⟩
      rw [hnil, length_nil]

section Leaves

variable (pullRequest : Option ExistingPullRequest) (leaves : List DescendantLeaf)

theorem mem_implementedNumbers (number : ℕ) :
    number ∈ implementedNumbers pullRequest leaves ↔ IsImplemented pullRequest leaves number := by
  simp only [implementedNumbers, validMarkers, IsImplemented, mem_map, mem_filter,
    decide_eq_true_eq]
  constructor
  · rintro ⟨marker, ⟨hmarker, leaf, hleaf, hnumber⟩, rfl⟩
    exact ⟨⟨marker, hmarker, rfl⟩, leaf, hleaf, hnumber⟩
  · rintro ⟨⟨marker, hmarker, rfl⟩, leaf, hleaf, hnumber⟩
    exact ⟨marker, ⟨hmarker, leaf, hleaf, hnumber⟩, rfl⟩

theorem remainingLeaves_eq : remainingLeaves (implementedNumbers pullRequest leaves) leaves =
      leaves.filter fun leaf => IsRemaining pullRequest leaves leaf := by
  refine filter_congr fun leaf _ => decide_eq_decide.mpr ?_
  rw [mem_implementedNumbers]
  rfl

theorem unresolvedBlockers_eq (leaf : DescendantLeaf) :
    unresolvedBlockers (implementedNumbers pullRequest leaves) leaf =
      leaf.issue.openBlockers.filter fun blocker =>
        ¬ IsImplemented pullRequest leaves blocker.number := by
  refine filter_congr fun blocker _ => ?_
  simp only [mem_implementedNumbers]

theorem unresolvedBlockers_length (leaf : DescendantLeaf) :
    (unresolvedBlockers (implementedNumbers pullRequest leaves) leaf).length = 0 ↔
      ∀ blocker ∈ leaf.issue.openBlockers, IsImplemented pullRequest leaves blocker.number := by
  rw [unresolvedBlockers_eq, length_eq_zero_iff, filter_eq_nil_iff]
  simp

theorem find?_remainingLeaves :
    ((remainingLeaves (implementedNumbers pullRequest leaves) leaves).find? fun leaf =>
        (unresolvedBlockers (implementedNumbers pullRequest leaves) leaf).length = 0) =
      leaves.find? fun leaf => IsReady pullRequest leaves leaf := by
  rw [remainingLeaves_eq, find?_filter]
  congr 1
  funext leaf
  rw [decide_eq_decide, decide_eq_true_eq, decide_eq_true_eq, unresolvedBlockers_length]
  rfl

end Leaves

/-- **The decision about a root with children** is correct for the tree below it. -/
theorem scheduleSpec_correct {children : List IssueTree}
    {pullRequest : Option ExistingPullRequest} {found : Descendants}
    (htree : SpecTree source root children) (hshared : SharedPullRequest source root pullRequest)
    (hleaves : found.leaves = children.flatMap LeafTree.leaves) (branch : String)
    (h : scheduleSpec (ε := ε) root branch pullRequest found = .ok decision) :
    DecisionCorrect source root decision := by
  obtain ⟨latestReviewedHead, -, h⟩ := bind_eq_ok.mp h
  obtain ⟨_, -, h⟩ := bind_eq_ok.mp h
  obtain ⟨_, -, h⟩ := bind_eq_ok.mp h
  rw [find?_remainingLeaves, hleaves] at h
  cases hfind : (children.flatMap LeafTree.leaves).find? fun leaf =>
      IsReady pullRequest (children.flatMap LeafTree.leaves) leaf with
  | some selected =>
    simp only [hfind] at h
    cases h
    obtain ⟨hready, before, after, hsplit, hbefore⟩ := find?_eq_some_iff_append.mp hfind
    refine ⟨rfl, .specLeaf root children htree rfl rfl hshared before selected after hsplit
      (of_decide_eq_true hready) (fun leaf hleaf => ?_) rfl rfl rfl⟩
    simpa using hbefore leaf hleaf
  | none =>
    simp only [hfind] at h
    have hblocked : ∀ leaf ∈ children.flatMap LeafTree.leaves,
        ¬ IsReady pullRequest (children.flatMap LeafTree.leaves) leaf := by
      simpa using find?_eq_none.mp hfind
    rw [remainingLeaves_eq] at h
    split at h
    · next hremains =>
      cases h
      refine ⟨rfl, .spec root children htree rfl hshared ?_ (fun hnil => ?_) hblocked⟩
      · refine map_congr_left fun leaf _ => ?_
        rw [waitingLeaf, ← unresolvedBlockers_eq]
      · rw [map_eq_nil_iff] at hnil
        rw [hnil] at hremains
        exact absurd hremains (Nat.lt_irrefl 0)
    · next hnone =>
      -- no leaf remains, so the root is done, or finalized by its pull request
      have hdone : ∀ leaf ∈ children.flatMap LeafTree.leaves,
          ¬ IsRemaining pullRequest (children.flatMap LeafTree.leaves) leaf := by
        intro leaf hleaf hremaining
        apply hnone
        apply length_pos_of_mem
        exact mem_filter.mpr ⟨hleaf, decide_eq_true hremaining⟩
      cases pullRequest with
      | none =>
        cases h
        trivial
      | some pullRequest =>
        dsimp only at h
        split at h
        · split at h
          · cases h
          · cases h
            exact ⟨rfl, .spec root children htree rfl hshared hdone⟩
        · cases h
          trivial

/-- **One root**: whatever is decided about it is correct. -/
theorem scheduleRoot_correct {fuel : ℕ} (htopmost : Topmost source root)
    (h : scheduleRoot source (fetchIssue source) fuel root = .ok decision) :
    DecisionCorrect source root decision := by
  unfold scheduleRoot at h
  simp only [lift_eq] at h
  split at h
  · next hchildless =>
    exact scheduleStandalone_correct htopmost (length_eq_zero_iff.mp hchildless) h
  · next hcontainer =>
    obtain ⟨pullRequest, hpullRequest, h⟩ := bind_eq_ok.mp h
    obtain ⟨_, -, h⟩ := bind_eq_ok.mp h
    obtain ⟨found, hfound, h⟩ := bind_eq_ok.mp h
    obtain ⟨children, hnumbers, hunfolds, hleaves⟩ := visitChildren_addsTrees fuel _ _ _ _ hfound
    refine scheduleSpec_correct ⟨htopmost, fun hnil => ?_, hnumbers, hunfolds⟩
      (fromSource_eq_ok hpullRequest) ?_ _ h
    · exact hcontainer (by rw [hnil, length_nil])
    · rw [hleaves, nil_append]

end Decisions

/-! ## The schedule -/

section Assembly

variable {source : IssueGraphSource ε} {fuel : ℕ}

def decisionOf (source : IssueGraphSource ε) (fuel : ℕ) (root : GitHubIssue) : Decision :=
  match scheduleRoot source (fetchIssue source) fuel root with
  | .ok decision => decision
  | .error _ => .nothing

theorem scheduleRoots_eq_ok (roots : List GitHubIssue) (schedule result : IssueGraphSchedule) :
    scheduleRoots source (fetchIssue source) fuel roots schedule = .ok result ↔
      (∀ root ∈ roots, scheduleRoot source (fetchIssue source) fuel root =
        .ok (decisionOf source fuel root)) ∧
      result = (roots.map (decisionOf source fuel)).foldl IssueGraphSchedule.push schedule := by
  induction roots generalizing schedule with
  | nil => exact ⟨fun h => ⟨by simp, (Except.ok.inj h).symm⟩, fun h => congrArg _ h.2.symm⟩
  | cons root rest ih =>
    unfold scheduleRoots
    rw [bind_eq_ok, forall_mem_cons, map_cons, foldl_cons]
    constructor
    · rintro ⟨decision, hdecision, h⟩
      have hof : decisionOf source fuel root = decision := by rw [decisionOf, hdecision]
      obtain ⟨hrest, hresult⟩ := (ih _).mp h
      exact ⟨⟨by rw [hof, hdecision], hrest⟩, by rw [hof, hresult]⟩
    · rintro ⟨⟨hroot, hrest⟩, hresult⟩
      exact ⟨_, hroot, (ih _).mpr ⟨hrest, hresult⟩⟩

def Decision.runnable? : Decision → Option RunnableIssue
  | .runnable issue => some issue
  | _ => none

def Decision.waiting? : Decision → Option WaitingIssueRoot
  | .waiting root => some root
  | _ => none

def Decision.finalize? : Decision → Option FinalizeIssueSpec
  | .finalize spec => some spec
  | _ => none

theorem foldl_push (decisions : List Decision) (schedule : IssueGraphSchedule) :
    decisions.foldl IssueGraphSchedule.push schedule =
      { finalize := schedule.finalize ++ decisions.filterMap Decision.finalize?
        runnable := schedule.runnable ++ decisions.filterMap Decision.runnable?
        waiting := schedule.waiting ++ decisions.filterMap Decision.waiting? } := by
  induction decisions generalizing schedule with
  | nil => simp
  | cons decision rest ih =>
    rw [foldl_cons, ih]
    cases decision <;> simp [IssueGraphSchedule.push, filterMap_cons, Decision.finalize?,
        Decision.runnable?, Decision.waiting?]

def Decision.root? : Decision → Option IssueIdentity
  | .nothing => none
  | .runnable r => some r.root
  | .waiting w => some w.root
  | .finalize f => some f.root

theorem roots_perm (decisions : List Decision) : (decisions.foldl IssueGraphSchedule.push
      { finalize := [], runnable := [], waiting := [] }).roots.Perm
        (decisions.filterMap Decision.root?) := by
  rw [foldl_push]
  simp only [IssueGraphSchedule.roots, nil_append]
  induction decisions with
  | nil => exact .refl _
  | cons decision rest ih =>
    cases decision with
    | nothing => exact ih
    | runnable r => exact ih.cons r.root
    | waiting w =>
      rw [append_assoc] at ih ⊢
      exact perm_middle.trans (ih.cons w.root)
    | finalize f => exact perm_middle.trans (ih.cons f.root)

theorem roots_nodup (fuel : ℕ) {roots : List GitHubIssue} (hroots : RootsFound source roots)
    (hdecided : ∀ root ∈ roots, scheduleRoot source (fetchIssue source) fuel root =
      .ok (decisionOf source fuel root)) :
    (((roots.map (decisionOf source fuel)).filterMap Decision.root?).map (·.number)).Nodup := by
  -- the decision about a root names that root, if any
  have hroot : ∀ root ∈ roots, (decisionOf source fuel root).root? = none ∨
      (decisionOf source fuel root).root? = some (identity root) := by
    intro root hmem
    have hcorrect := scheduleRoot_correct (hroots.topmost root hmem) (hdecided root hmem)
    cases hdecision : decisionOf source fuel root with
    | nothing => exact .inl rfl
    | _ => rw [hdecision] at hcorrect; exact .inr (congrArg some hcorrect.1)
  refine List.Nodup.sublist ?_ hroots.nodup
  clear hdecided hroots
  induction roots with
  | nil => exact .slnil
  | cons root rest ih =>
    rw [forall_mem_cons] at hroot
    rcases hroot.1 with hnone | hsome
    · simpa [hnone] using (ih hroot.2).cons root.number
    · simpa [hsome, identity] using (ih hroot.2).cons_cons root.number

theorem scheduleWith_correct {ready : List ℕ} {schedule : IssueGraphSchedule}
    (h : scheduleWith source (fetchIssue source) fuel ready = .ok schedule) :
    ScheduleCorrect source schedule := by
  obtain ⟨roots, hroots, h⟩ := bind_eq_ok.mp h
  obtain ⟨hfound, -, -⟩ := findRoots_spec ready [] roots ⟨nodup_nil, by simp⟩ hroots
  obtain ⟨hdecided, rfl⟩ := (scheduleRoots_eq_ok roots _ schedule).mp h
  have hcorrect : ∀ decision ∈ roots.map (decisionOf source fuel),
      ∃ root, DecisionCorrect source root decision := by
    intro decision hmem
    obtain ⟨root, hroot, rfl⟩ := mem_map.mp hmem
    exact ⟨root, scheduleRoot_correct (hfound.topmost root hroot) (hdecided root hroot)⟩
  refine ⟨?_, ?_, ?_, ?_⟩
  · exact ((roots_perm _).map _).nodup_iff.mpr (roots_nodup fuel hfound hdecided)
  all_goals
    rw [foldl_push]
    simp only [nil_append, mem_filterMap]
    rintro x ⟨decision, hmem, hsome⟩
    obtain ⟨root, hdecision⟩ := hcorrect decision hmem
    cases decision <;> cases hsome
    exact hdecision.2

theorem scheduleWith_perm {ready ready' : List ℕ}
    {schedule : IssueGraphSchedule} (hready : ∀ n, n ∈ ready' ↔ n ∈ ready)
    (h : scheduleWith source (fetchIssue source) fuel ready = .ok schedule) :
    ∃ schedule', scheduleWith source (fetchIssue source) fuel ready' = .ok schedule' ∧
      SameDecisions schedule schedule' := by
  obtain ⟨roots, hroots, h⟩ := bind_eq_ok.mp h
  obtain ⟨hfound, hmembers, htotal⟩ := findRoots_spec ready [] roots ⟨nodup_nil, by simp⟩ hroots
  have htotal' : ∀ n ∈ ready', ∃ root, findRoot (fetchIssue source) fuel n = .ok root :=
    fun n hn => htotal n ((hready n).mp hn)
  obtain ⟨roots', hroots'⟩ := findRoots_total ready' [] [] htotal'
  obtain ⟨hfound', hmembers', -⟩ := findRoots_spec ready' [] roots' ⟨nodup_nil, by simp⟩ hroots'
  -- the same roots are found, each once
  have hperm : roots.Perm roots' := by
    refine (perm_ext_iff_of_nodup hfound.nodup.of_map hfound'.nodup.of_map).mpr fun root => ?_
    rw [hmembers, hmembers']
    simp only [hready]
  obtain ⟨hdecided, rfl⟩ := (scheduleRoots_eq_ok roots _ schedule).mp h
  refine ⟨_, bind_eq_ok.mpr ⟨roots', hroots', (scheduleRoots_eq_ok roots' _ _).mpr
    ⟨fun root hroot => hdecided root (hperm.mem_iff.mpr hroot), rfl⟩⟩, ?_⟩
  rw [foldl_push, foldl_push]
  exact ⟨((hperm.map _).filterMap _).append_left [], ((hperm.map _).filterMap _).append_left [],
    ((hperm.map _).filterMap _).append_left []⟩

/-- **The scheduler is correct** on every finite graph: it ends after reading
each issue at most once, what it returns is correct, and the order and the
number of times in which the ready issues are named do not matter. -/
theorem scheduleIssueGraph_correct (source : IssueGraphSource ε) (known : List ℕ)
    (hknown : ∀ number issue, source.issue number = .ok issue → number ∈ known)
    (fuel : ℕ) (hfuel : known.length < fuel) (ready : List ℕ) :
    (scheduleIssueGraph source fuel ready).1 ≠ .error .outOfFuel ∧
      (scheduleIssueGraph source fuel ready).2.length ≤ known.length + 1 ∧
      ∀ schedule, (scheduleIssueGraph source fuel ready).1 = .ok schedule →
        ScheduleCorrect source schedule ∧ ∀ ready', (∀ n, n ∈ ready' ↔ n ∈ ready) →
            ∃ schedule', (scheduleIssueGraph source fuel ready').1 = .ok schedule' ∧
              SameDecisions schedule schedule' := by
  have hfetched : ∀ number issue, fetchIssue source number = .ok issue → number ∈ known :=
    fun number issue h => hknown number issue (fetchIssue_eq_ok h).1
  -- the cache is transparent, so the results are those without it
  have hresult : ∀ ready, (scheduleIssueGraph source fuel ready).1 =
      scheduleWith source (fetchIssue source) fuel ready := fun ready =>
    (computes_scheduleWith source fuel ready _ (consistent_empty _)).1
  have hreads := (computes_scheduleWith source fuel ready _ (consistent_empty _)).2.2
  refine ⟨?_, hreads.length_le hfetched, fun schedule h => ⟨?_, fun ready' hready => ?_⟩⟩
  · rw [hresult]
    exact scheduleWith_ne_outOfFuel hfetched fuel hfuel ready
  · rw [hresult] at h
    exact scheduleWith_correct h
  · rw [hresult] at h
    rw [hresult]
    exact scheduleWith_perm hready h

def twoLeaves : IssueGraphSource String where
  baseBranch := "master"
  issue
    | 1 => .ok { number := 1, title := "Spec", childNumbers := [2, 3], openBlockers := []
                 parentNumber := none, state := .opened }
    | 2 => .ok { number := 2, title := "First leaf", childNumbers := []
                 openBlockers := [{ number := 3, title := "Second leaf" }]
                 parentNumber := some 1, state := .opened }
    | 3 => .ok { number := 3, title := "Second leaf", childNumbers := [], openBlockers := []
                 parentNumber := some 1, state := .opened }
    | _ => .error "missing issue"
  pullRequest _ := .ok none

/-- A spec whose first leaf is blocked by the second. -/
theorem scheduleIssueGraph_correct_twoLeaves :
    (scheduleIssueGraph twoLeaves 4 [3, 1, 3]).2.length ≤ 4 ∧
      ∃ schedule, (scheduleIssueGraph twoLeaves 4 [3, 1, 3]).1 = .ok schedule ∧
        schedule.runnable.map (·.issue.number) = [3] ∧ schedule.waiting = [] ∧
          schedule.finalize = [] ∧
        ScheduleCorrect twoLeaves schedule := by
  have hknown : ∀ number issue, twoLeaves.issue number = .ok issue → number ∈ [1, 2, 3] := by
    intro number issue h
    unfold twoLeaves at h
    dsimp only at h
    split at h
    · decide
    · decide
    · decide
    · cases h
  obtain ⟨-, hreads, hcorrect⟩ :=
    scheduleIssueGraph_correct twoLeaves [1, 2, 3] hknown 4 (by decide) [3, 1, 3]
  exact ⟨hreads, _, rfl, rfl, rfl, rfl, (hcorrect _ rfl).1⟩

end Assembly

end Laborer.Sandcastle
