import Laborer.Worktrees.PrPollRuns
import Laborer.Worktrees.SyncPollRuns

/-!
# The polls of both services

The sync status and the pull requests of the workspaces are polled by two services, each with a
map of its own. Their calls interleave in any order.
-/

namespace Laborer.Worktrees

open Library

structure PollingServices where
  sync : WorkspaceSyncService
  watcher : PrWatcher

inductive PollingStep where
  | sync (event : SyncStep)
  | watcher (event : WatcherStep)

namespace PollingServices

def initial : PollingServices where
  sync := .initial
  watcher := .initial

def step (event : PollingStep) (s : PollingServices) : PollingServices :=
  match event with
  | .sync event => { s with sync := s.sync.step event }
  | .watcher event => { s with watcher := s.watcher.step event }

def Calm (event : PollingStep) (s : PollingServices) : Prop :=
  match event with
  | .sync event => s.sync.Calm event
  | .watcher event => s.watcher.Calm event

instance (event : PollingStep) (s : PollingServices) : Decidable (Calm event s) :=
  match event with
  | .sync event => WorkspaceSyncService.decidableCalm event s.sync
  | .watcher event => PrWatcher.decidableCalm event s.watcher

structure Sound (s : PollingServices) : Prop where
  sync : s.sync.Quiet → s.sync.Settled
  watcher : s.watcher.Quiet → s.watcher.Settled

/-- Both services start a workspace, its pull request is checked, and the watcher stops. -/
def startedInBoth : List PollingStep :=
  [.sync (.startPolling "w"), .watcher (.startPolling "w"),
    .watcher (.proceeds (.reserved "w" []) .yes), .sync (.proceeds (.ensuring "w" []) true),
    .sync (.proceeds (.enrolling "w" []) true), .watcher (.proceeds (.forking "w" []) .yes),
    .watcher (.polls 0 .yes), .watcher (.polls 0 .yes), .watcher (.polls 0 .yes),
    .sync (.proceeds (.forking "w" []) true), .watcher (.proceeds (.recording "w" 0 []) .yes),
    .watcher (.proceeds (.releasing "w" []) .yes), .watcher (.polls 0 .yes),
    .sync (.proceeds (.recording "w" 0 []) true), .watcher (.stopPolling "w"),
    .watcher (.proceeds (.stopping "w" (.interrupting 0)) .yes),
    .watcher (.proceeds (.stopping "w" .clearingStates) .yes),
    .watcher (.proceeds (.stopping "w" .clearingReviews) .yes)]

/-- The bootstrap and a start of a new workspace both find it without a poll. -/
def startedTwice : List PollingStep :=
  [.sync (.bootstrapPolling ["w"]), .sync (.proceeds (.bootstrapping ["w"]) true),
    .sync (.startPolling "w"), .sync (.proceeds (.ensuring "w" []) true),
    .sync (.proceeds (.ensuring "w" []) true), .sync (.proceeds (.enrolling "w" []) true),
    .sync (.proceeds (.forking "w" []) true), .sync (.proceeds (.forking "w" []) true),
    .sync (.proceeds (.recording "w" 0 []) true), .sync (.proceeds (.recording "w" 1 []) true)]

end PollingServices

end Laborer.Worktrees
