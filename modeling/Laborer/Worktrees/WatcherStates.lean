import Laborer.Library.Ownership
import Laborer.Library.Runs
import Laborer.Worktrees.RepositoryWatchCoordinator

/-!
# The states of the watchers

What a run shows of a project, and the invariant: a project has at most one open watcher
or the start of one, every live subscription is held by a watcher, by a start or by an
unsubscription in flight, and an event that waits for a reconciliation has its timer.
-/

namespace Laborer.Worktrees

open Library List

/-! ## What a run shows -/

/-- The last call for a project, of a log that has the newest first. -/
def lastCall (projectId : String) : List WatchNote → Option WatchCall
  | [] => none
  | .called other call :: older => if other = projectId then some call else lastCall projectId older
  | .delivered _ :: older => lastCall projectId older
  | .reconciling _ :: older => lastCall projectId older
  | .refreshing _ :: older => lastCall projectId older

/-- A worktree event of a watched project waits for a reconciliation. -/
def owed (projectId : String) : List WatchNote → Bool
  | [] => false
  | .delivered other :: older =>
    (other = projectId && lastCall projectId older = some .watch) || owed projectId older
  | .reconciling other :: older => other ≠ projectId && owed projectId older
  | .called other .unwatch :: older => other ≠ projectId && owed projectId older
  | .called _ .watch :: older => owed projectId older
  | .refreshing _ :: older => owed projectId older

def WatchNote.projectId : WatchNote → String
  | .called projectId _ => projectId
  | .delivered projectId => projectId
  | .reconciling projectId => projectId
  | .refreshing projectId => projectId

section Log

variable {pid : String} {entry : WatchNote} {log : List WatchNote}

theorem owed_cons_of_ne (h : entry.projectId ≠ pid) : owed pid (entry :: log) = owed pid log := by
  cases entry with (try have hother : other ≠ pid := h)
  | called other call =>
    cases call with
    | watch => rfl
    | unwatch => simp [owed, hother]
  | delivered other =>
    simp [owed, hother]
  | reconciling other =>
    simp [owed, hother]
  | refreshing => rfl

/-- Where no event waits, each was followed by a reconciliation, or by the end of the
watch. -/
theorem reconciling_of_not_owed {older newer : List WatchNote}
    (hlog : log = newer ++ .delivered pid :: older) (howed : owed pid log = false)
    (hwatched : lastCall pid older = some .watch)
    (hstays : .called pid .unwatch ∉ newer) : .reconciling pid ∈ newer := by
  subst hlog
  induction newer with
  | nil => simp [owed, hwatched] at howed
  | cons entry newer ih =>
    rw [mem_cons, not_or] at hstays
    rw [mem_cons]
    by_cases hentry : entry = .reconciling pid
    · exact .inl hentry.symm
    · right
      apply ih hstays.2
      rw [cons_append] at howed
      by_cases hproject : entry.projectId = pid
      · cases entry with
        | called other call =>
          cases hproject
          cases call with
          | watch => exact howed
          | unwatch => exact absurd rfl hstays.1
        | delivered other =>
          simp only [owed, Bool.or_eq_false_iff] at howed
          exact howed.2
        | reconciling other => exact absurd (congrArg _ hproject) hentry
        | refreshing => exact howed
      · rwa [owed_cons_of_ne hproject] at howed

end Log

/-! ## Programs and subscriptions -/

/-- The projects that a program is to start. -/
def WatchFiber.targets : WatchFiber → List String
  | .resolvingIdentity projectId _ _ => [projectId]
  | .resolvingConfig target rest => (target :: rest).map (·.projectId)
  | .subscribingGitDir target _ rest => (target :: rest).map (·.projectId)
  | .subscribingWorktrees target _ rest => (target :: rest).map (·.projectId)
  | .subscribingRepoRoot target _ _ _ rest => (target :: rest).map (·.projectId)
  | .switchingToWorktrees _ => []
  | .reconcilingAll _ projects => projects.map (·.projectId)
  | .refreshingAll _ projects => projects.map (·.projectId)

/-- The subscriptions that a start has made so far. -/
def WatchFiber.carried : WatchFiber → List ℕ
  | .subscribingWorktrees _ gitDir _ => gitDir.toList
  | .subscribingRepoRoot _ _ gitDir worktrees _ => gitDir.toList ++ worktrees.toList
  | _ => []

/-- Who holds a subscription: a watcher, a start, or an unsubscription in flight. -/
inductive SubscriptionOwner where
  | watcher (watcher : ℕ)
  | fiber (fiber : ℕ)
  | ending
deriving DecidableEq

namespace WatchCoordinator

def concerned (s : WatchCoordinator) : WatchFiber → List String
  | .switchingToWorktrees watcher => (s.watchers watcher).toList.map (·.projectId)
  | program => program.targets

def Busy (s : WatchCoordinator) (fiber : ℕ) (projectId : String) : Prop :=
  ∃ program ∈ s.fibers fiber, projectId ∈ s.concerned program

def Starts (s : WatchCoordinator) (fiber : ℕ) (projectId : String) : Prop :=
  ∃ program ∈ s.fibers fiber, projectId ∈ program.targets

def Owns (s : WatchCoordinator) : SubscriptionOwner → ℕ → Prop
  | .watcher watcher, subscription =>
    ∃ state ∈ s.watchers watcher, subscription ∈ state.subscriptionIds
  | .fiber fiber, subscription => ∃ program ∈ s.fibers fiber, subscription ∈ program.carried
  | .ending, subscription => s.unsubscribing subscription = true

def OpenFor (s : WatchCoordinator) (projectId : String) (watcher : ℕ) : Prop :=
  ∃ state, s.watchers watcher = some state ∧ state.projectId = projectId ∧ state.closed = false

/-- The project has a watcher, or the start of one waits. -/
def Attended (s : WatchCoordinator) (projectId : String) : Prop :=
  s.statesRef projectId ≠ none ∨ ∃ fiber, s.Starts fiber projectId

/-! ## The invariant -/

/-- A project has at most one open watcher, and no start waits beside it. -/
structure Shape (s : WatchCoordinator) : Prop where
  maps : s.projectWatcherStatesMap = s.statesRef
  watcherBound : ∀ watcher state, s.watchers watcher = some state → watcher < s.nextWatcher
  fiberBound : ∀ fiber program, s.fibers fiber = some program → fiber < s.nextFiber
  opened : ∀ projectId watcher, s.statesRef projectId = some watcher ↔ s.OpenFor projectId watcher
  closedEmpty : ∀ watcher state, s.watchers watcher = some state → state.closed = true →
    state.subscriptionIds = []
  vacant : ∀ fiber projectId, s.Starts fiber projectId → s.statesRef projectId = none
  once : ∀ fiber fiber' projectId, s.Busy fiber projectId → s.Busy fiber' projectId →
    fiber = fiber'
  targetsNodup : ∀ fiber program, s.fibers fiber = some program → program.targets.Nodup
  switching : ∀ fiber watcher, s.fibers fiber = some (.switchingToWorktrees watcher) →
    ∃ state, s.watchers watcher = some state ∧ state.closed = false ∧
      state.worktreesSubscriptionId = none

/-- Every live subscription is held, and by one only. -/
structure Held (s : WatchCoordinator) : Prop where
  owned : Owned (fun subscription => s.live subscription = true) s.Owns
  fresh : ∀ subscription, s.live subscription = true → subscription < s.nextSubscription

/-- The watchers and the starts are those that the calls ask for, and an event that waits
for a reconciliation has its timer. -/
structure Told (s : WatchCoordinator) : Prop where
  watched : ∀ projectId, lastCall projectId s.log = some .watch ↔ s.Attended projectId
  owes : ∀ projectId, owed projectId s.log = true →
    ∃ watcher state, s.statesRef projectId = some watcher ∧ s.watchers watcher = some state ∧
      state.worktreeTimer = true

end WatchCoordinator

end Laborer.Worktrees
