import Laborer.Library.OrderedMap
import Laborer.Library.Runs

/-!
# Polling pull requests

The polls of the workspaces and the calls that start and stop them. A start reserves the
workspace, forks its poll and records it, each in a step of its own, and a poll that finds its
workspace gone stops itself. Of the two caches only the keys are kept here, and what a check
writes into the database is left out.
-/

namespace Laborer.Worktrees

open Library

/-! ## The state -/

/-- How far a stop has come once it has taken a poll out of the map. -/
inductive StopPhase where
  | interrupting (fiber : ℕ)
  | clearingStates
  | clearingReviews
deriving DecidableEq

/-- How far a check has come; one that finds no workspace stops the polling of it. -/
inductive CheckPhase where
  | reading
  | loading
  | caching
  | reporting
  | givingUp
  | stopping (phase : StopPhase)
deriving DecidableEq

/-- A call at one of its yields. A refresh starts one workspace after the other: `rest` are
those after the one that is being started. -/
inductive WatcherCall where
  | reserved (workspaceId : String) (rest : List String)
  | forking (workspaceId : String) (rest : List String)
  | recording (workspaceId : String) (fiber : ℕ) (rest : List String)
  | releasing (workspaceId : String) (rest : List String)
  | refreshing (rest : List String)
  | stopping (workspaceId : String) (phase : StopPhase)
  | interruptingAll (fibers : List ℕ)
  | clearingAllStates
  | clearingAllReviews
  | checking (workspaceId : String) (phase : CheckPhase)
deriving DecidableEq

/-- A polling fiber; it has no check while it sleeps. -/
structure Poll where
  workspaceId : String
  check : Option CheckPhase

structure PrWatcher where
  pollingFibers : OrderedMap String ℕ
  startingWorkspaces : String → Bool
  /-- The workspaces with an entry. -/
  previousPrState : String → Bool
  reviewSummaryCache : String → Bool
  /-- The running fibers. -/
  polls : ℕ → Option Poll
  nextFiber : ℕ
  calls : List WatcherCall
  /-- Recorded of the calls: the workspaces whose last call was a start. -/
  wanted : String → Bool

/-- What the database answers, whether the workspace is there, or the review request, whether
there is a summary to keep. -/
inductive WatcherAnswer where
  | yes
  | no
  | failed
deriving DecidableEq

inductive WatcherStep where
  | startPolling (workspaceId : String)
  | refreshPolling (workspaceIds : List String)
  | stopPolling (workspaceId : String)
  | stopAllPolling
  | checkPr (workspaceId : String)
  | proceeds (call : WatcherCall) (answer : WatcherAnswer)
  | polls (fiber : ℕ) (answer : WatcherAnswer)

namespace PrWatcher

def initial : PrWatcher where
  pollingFibers := []
  startingWorkspaces := fun _ => false
  previousPrState := fun _ => false
  reviewSummaryCache := fun _ => false
  polls := fun _ => none
  nextFiber := 0
  calls := []
  wanted := fun _ => false

/-! ## Starting -/

/-- The refresh goes on with the workspaces that are left. -/
def refreshRest (rest : List String) (s : PrWatcher) : PrWatcher :=
  if rest = [] then s else { s with calls := .refreshing rest :: s.calls }

/-- `startPolling` up to its reservation. -/
def reserve (workspaceId : String) (rest : List String) (s : PrWatcher) : PrWatcher :=
  let s := { s with wanted := Function.update s.wanted workspaceId true }
  if s.startingWorkspaces workspaceId then s.refreshRest rest
  else
    { s with
      startingWorkspaces := Function.update s.startingWorkspaces workspaceId true
      calls := .reserved workspaceId rest :: s.calls }

def fork (workspaceId : String) (s : PrWatcher) : PrWatcher :=
  { s with
    polls := Function.update s.polls s.nextFiber
      (some { workspaceId := workspaceId, check := none })
    nextFiber := s.nextFiber + 1 }

/-! ## Stopping -/

def takePoll (workspaceId : String) (s : PrWatcher) : PrWatcher :=
  { s with
    pollingFibers := s.pollingFibers.delete workspaceId
    wanted := Function.update s.wanted workspaceId false }

/-- The steps of `stopPolling` after that, and what is left of it. -/
def stopStep (workspaceId : String) (phase : StopPhase) (s : PrWatcher) :
    Option StopPhase × PrWatcher :=
  match phase with
  | .interrupting fiber =>
    (some .clearingStates, { s with polls := Function.update s.polls fiber none })
  | .clearingStates =>
    (some .clearingReviews,
      { s with previousPrState := Function.update s.previousPrState workspaceId false })
  | .clearingReviews =>
    (none, { s with reviewSummaryCache := Function.update s.reviewSummaryCache workspaceId false })

/-! ## Checking -/

/-- One step of `checkPr`, and what is left of it. -/
def checkStep (workspaceId : String) (phase : CheckPhase) (answer : WatcherAnswer) (s : PrWatcher) :
    Option CheckPhase × PrWatcher :=
  match phase with
  | .reading =>
    (match answer with
      | .yes => some .loading
      | .no => some .givingUp
      | .failed => none, s)
  | .loading =>
    (some .caching,
      if answer = .yes then
        { s with reviewSummaryCache := Function.update s.reviewSummaryCache workspaceId true }
      else s)
  | .caching =>
    (some .reporting,
      { s with previousPrState := Function.update s.previousPrState workspaceId true })
  | .reporting => (none, s)
  | .givingUp =>
    ((s.pollingFibers.get? workspaceId).map fun fiber => .stopping (.interrupting fiber),
      s.takePoll workspaceId)
  | .stopping phase =>
    ((s.stopStep workspaceId phase).1.map .stopping, (s.stopStep workspaceId phase).2)

def setPoll (fiber : ℕ) (poll : Poll) (s : PrWatcher) : PrWatcher :=
  { s with polls := Function.update s.polls fiber (some poll) }

/-- One step of a polling fiber, which is gone once it has interrupted itself. -/
def pollStep (fiber : ℕ) (answer : WatcherAnswer) (s : PrWatcher) : PrWatcher :=
  match s.polls fiber with
  | none => s
  | some poll =>
    match poll.check with
    | none => s.setPoll fiber { poll with check := some .reading }
    | some phase =>
      let (next, after) := s.checkStep poll.workspaceId phase answer
      if (after.polls fiber).isSome then after.setPoll fiber { poll with check := next }
      else after

/-! ## Steps -/

def addCalls (calls : List WatcherCall) (s : PrWatcher) : PrWatcher :=
  { s with calls := calls ++ s.calls }

/-- `stopPolling` up to the interruption. -/
def stopPolling (workspaceId : String) (s : PrWatcher) : PrWatcher :=
  (s.takePoll workspaceId).addCalls
    ((s.pollingFibers.get? workspaceId).toList.map fun fiber =>
      .stopping workspaceId (.interrupting fiber))

/-- `stopAllPolling` up to the interruptions. -/
def stopAllPolling (s : PrWatcher) : PrWatcher :=
  { s with
    pollingFibers := []
    wanted := fun _ => false
    calls := .interruptingAll s.pollingFibers.values :: s.calls }

def callStep (call : WatcherCall) (answer : WatcherAnswer) (s : PrWatcher) : PrWatcher :=
  match call with
  | .reserved workspaceId rest =>
    if (s.pollingFibers.get? workspaceId).isSome then s.addCalls [.releasing workspaceId rest]
    else s.addCalls [.forking workspaceId rest]
  | .forking workspaceId rest =>
    (s.fork workspaceId).addCalls [.recording workspaceId s.nextFiber rest]
  | .recording workspaceId fiber rest =>
    { s with pollingFibers := s.pollingFibers.set workspaceId fiber }.addCalls
      [.releasing workspaceId rest]
  | .releasing workspaceId rest =>
    { s with
      startingWorkspaces :=
        Function.update s.startingWorkspaces workspaceId false }.refreshRest rest
  | .refreshing [] => s
  | .refreshing (workspaceId :: rest) => s.reserve workspaceId rest
  | .stopping workspaceId phase =>
    (s.stopStep workspaceId phase).2.addCalls
      ((s.stopStep workspaceId phase).1.toList.map (.stopping workspaceId))
  | .interruptingAll [] => s.addCalls [.clearingAllStates]
  | .interruptingAll (fiber :: fibers) =>
    { s with polls := Function.update s.polls fiber none }.addCalls [.interruptingAll fibers]
  | .clearingAllStates =>
    { s with previousPrState := fun _ => false }.addCalls [.clearingAllReviews]
  | .clearingAllReviews => { s with reviewSummaryCache := fun _ => false }
  | .checking workspaceId phase =>
    (s.checkStep workspaceId phase answer).2.addCalls
      ((s.checkStep workspaceId phase answer).1.toList.map (.checking workspaceId))

def step (event : WatcherStep) (s : PrWatcher) : PrWatcher :=
  match event with
  | .startPolling workspaceId => s.reserve workspaceId []
  | .refreshPolling workspaceIds => s.refreshRest workspaceIds
  | .stopPolling workspaceId => s.stopPolling workspaceId
  | .stopAllPolling => s.stopAllPolling
  | .checkPr workspaceId => s.addCalls [.checking workspaceId .reading]
  | .proceeds call answer =>
    if call ∈ s.calls then { s with calls := s.calls.erase call }.callStep call answer else s
  | .polls fiber answer => s.pollStep fiber answer

end PrWatcher

end Laborer.Worktrees
