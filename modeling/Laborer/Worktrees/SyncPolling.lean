import Laborer.Library.OrderedMap
import Laborer.Library.Runs

/-!
# Polling the sync status

The polls of the workspaces and the calls that start and stop them. A start finds that the
workspace has no poll, enrolls its repository in background fetching, forks the poll and records
it, with nothing that reserves the workspace meanwhile. What git answers is left out.
-/

namespace Laborer.Worktrees

open Library

/-! ## The state -/

/-- How far a stop has come once it has looked for the poll. -/
inductive SyncStopPhase where
  | interrupting (fiber : ℕ)
  | unfetching
  | forgetting
deriving DecidableEq

inductive SyncCheckPhase where
  | reading
  | ensuring
  | enrolling
  | status
deriving DecidableEq

/-- A call at one of its yields. A bootstrap starts one workspace after the other: `rest` are
those after the one that is being started. -/
inductive SyncCall where
  | ensuring (workspaceId : String) (rest : List String)
  | enrolling (workspaceId : String) (rest : List String)
  | forking (workspaceId : String) (rest : List String)
  | recording (workspaceId : String) (fiber : ℕ) (rest : List String)
  | bootstrapping (rest : List String)
  | stopping (workspaceId : String) (phase : SyncStopPhase)
  | interruptingAll (fibers : List ℕ)
  | unfetchingAll
  | forgettingAll
  | checking (workspaceId : String) (phase : SyncCheckPhase)
deriving DecidableEq

/-- A polling fiber; it has no check while it sleeps. -/
structure SyncPoll where
  workspaceId : String
  check : Option SyncCheckPhase

structure WorkspaceSyncService where
  pollingFibers : OrderedMap String ℕ
  fetchedWorkspaces : String → Bool
  /-- The running fibers. -/
  polls : ℕ → Option SyncPoll
  nextFiber : ℕ
  calls : List SyncCall
  /-- Recorded of the calls: the workspaces whose last call was a start. -/
  wanted : String → Bool

/-- Calls, and the steps of calls and polls. The answer is that of the database, whether the
workspace is there. -/
inductive SyncStep where
  | startPolling (workspaceId : String)
  | bootstrapPolling (workspaceIds : List String)
  | stopPolling (workspaceId : String)
  | stopAllPolling
  | checkStatus (workspaceId : String)
  | proceeds (call : SyncCall) (answer : Bool)
  | polls (fiber : ℕ) (answer : Bool)

namespace WorkspaceSyncService

def initial : WorkspaceSyncService where
  pollingFibers := []
  fetchedWorkspaces := fun _ => false
  polls := fun _ => none
  nextFiber := 0
  calls := []
  wanted := fun _ => false

def addCalls (calls : List SyncCall) (s : WorkspaceSyncService) : WorkspaceSyncService :=
  { s with calls := calls ++ s.calls }

/-! ## Starting -/

/-- The bootstrap goes on with the workspaces that are left. -/
def bootstrapRest (rest : List String) : List SyncCall :=
  if rest = [] then [] else [.bootstrapping rest]

/-- `startPolling` up to `ensureBackgroundFetch`. -/
def startPolling (workspaceId : String) (rest : List String) (s : WorkspaceSyncService) :
    WorkspaceSyncService :=
  let s := { s with wanted := Function.update s.wanted workspaceId true }
  if (s.pollingFibers.get? workspaceId).isSome then s.addCalls (bootstrapRest rest)
  else s.addCalls [.ensuring workspaceId rest]

/-- The step of `ensureBackgroundFetch` that remembers the workspace. -/
def remember (workspaceId : String) (s : WorkspaceSyncService) : WorkspaceSyncService :=
  { s with fetchedWorkspaces := Function.update s.fetchedWorkspaces workspaceId true }

def fork (workspaceId : String) (s : WorkspaceSyncService) : WorkspaceSyncService :=
  { s with
    polls := Function.update s.polls s.nextFiber
      (some { workspaceId := workspaceId, check := none })
    nextFiber := s.nextFiber + 1 }

/-! ## Stopping -/

/-- `stopPolling` up to the interruption, which there is only when it has found a poll. -/
def stopPolling (workspaceId : String) (s : WorkspaceSyncService) : WorkspaceSyncService :=
  { s with
    pollingFibers := s.pollingFibers.delete workspaceId
    wanted := Function.update s.wanted workspaceId false }.addCalls
      [.stopping workspaceId
        (((s.pollingFibers.get? workspaceId).map SyncStopPhase.interrupting).getD .unfetching)]

def stopAllPolling (s : WorkspaceSyncService) : WorkspaceSyncService :=
  { s with
    pollingFibers := []
    wanted := fun _ => false }.addCalls [.interruptingAll s.pollingFibers.values]

/-! ## Checking -/

/-- One step of `checkStatus`, and what is left of it. -/
def checkStep (workspaceId : String) (phase : SyncCheckPhase) (answer : Bool)
    (s : WorkspaceSyncService) : Option SyncCheckPhase × WorkspaceSyncService :=
  match phase with
  | .reading => (if answer then some .ensuring else none, s)
  | .ensuring =>
    (some (if s.fetchedWorkspaces workspaceId then .status else .enrolling), s.remember workspaceId)
  | .enrolling => (some .status, s)
  | .status => (none, s)

def setPoll (fiber : ℕ) (poll : SyncPoll) (s : WorkspaceSyncService) : WorkspaceSyncService :=
  { s with polls := Function.update s.polls fiber (some poll) }

/-- One step of a polling fiber; a check that fails is tried again like any other. -/
def pollStep (fiber : ℕ) (answer : Bool) (s : WorkspaceSyncService) : WorkspaceSyncService :=
  match s.polls fiber with
  | none => s
  | some poll =>
    match poll.check with
    | none => s.setPoll fiber { poll with check := some .reading }
    | some phase =>
      (s.checkStep poll.workspaceId phase answer).2.setPoll fiber
        { poll with check := (s.checkStep poll.workspaceId phase answer).1 }

/-! ## Steps -/

def callStep (call : SyncCall) (answer : Bool) (s : WorkspaceSyncService) : WorkspaceSyncService :=
  match call with
  | .ensuring workspaceId rest =>
    if s.fetchedWorkspaces workspaceId then s.addCalls [.forking workspaceId rest]
    else (s.remember workspaceId).addCalls [.enrolling workspaceId rest]
  | .enrolling workspaceId rest => s.addCalls [.forking workspaceId rest]
  | .forking workspaceId rest =>
    (s.fork workspaceId).addCalls [.recording workspaceId s.nextFiber rest]
  | .recording workspaceId fiber rest =>
    { s with pollingFibers := s.pollingFibers.set workspaceId fiber }.addCalls (bootstrapRest rest)
  | .bootstrapping [] => s
  | .bootstrapping (workspaceId :: rest) => s.startPolling workspaceId rest
  | .stopping workspaceId (.interrupting fiber) =>
    { s with polls := Function.update s.polls fiber none }.addCalls
      [.stopping workspaceId .unfetching]
  | .stopping workspaceId .unfetching => s.addCalls [.stopping workspaceId .forgetting]
  | .stopping workspaceId .forgetting =>
    { s with fetchedWorkspaces := Function.update s.fetchedWorkspaces workspaceId false }
  | .interruptingAll [] => s.addCalls [.unfetchingAll]
  | .interruptingAll (fiber :: fibers) =>
    { s with polls := Function.update s.polls fiber none }.addCalls [.interruptingAll fibers]
  | .unfetchingAll => s.addCalls [.forgettingAll]
  | .forgettingAll => { s with fetchedWorkspaces := fun _ => false }
  | .checking workspaceId phase =>
    (s.checkStep workspaceId phase answer).2.addCalls
      ((s.checkStep workspaceId phase answer).1.toList.map (.checking workspaceId))

def step (event : SyncStep) (s : WorkspaceSyncService) : WorkspaceSyncService :=
  match event with
  | .startPolling workspaceId => s.startPolling workspaceId []
  | .bootstrapPolling workspaceIds => s.addCalls (bootstrapRest workspaceIds)
  | .stopPolling workspaceId => s.stopPolling workspaceId
  | .stopAllPolling => s.stopAllPolling
  | .checkStatus workspaceId => s.addCalls [.checking workspaceId .reading]
  | .proceeds call answer =>
    if call ∈ s.calls then { s with calls := s.calls.erase call }.callStep call answer else s
  | .polls fiber answer => s.pollStep fiber answer

end WorkspaceSyncService

end Laborer.Worktrees
