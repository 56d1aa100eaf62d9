import Laborer.Library.OrderedMap
import Laborer.Library.Runs

/-!
# Background fetching

The fetch loops of the repositories and the calls that start and stop them. A start waits
for git twice and a stop waits for the loop that it interrupts; between two waits other
calls are taken. What a loop does is left out, and so is the cache of its intervals.
-/

namespace Laborer.Worktrees

open Library

/-! ## The state -/

/-- A schedule of a repository; its loop is known by number. -/
structure FetchScheduleState where
  fiber : ℕ
  workspaceIds : List String

/-- The ids of a schedule that a workspace is added to. -/
def FetchScheduleState.add (schedule : FetchScheduleState) (workspaceId : String) :
    FetchScheduleState :=
  { schedule with
    workspaceIds :=
      if workspaceId ∈ schedule.workspaceIds then schedule.workspaceIds
      else schedule.workspaceIds ++ [workspaceId] }

def FetchScheduleState.remaining (schedule : FetchScheduleState) (workspaceId : String) :
    List String :=
  schedule.workspaceIds.filter (· ≠ workspaceId)

structure FetchLoop where
  worktreePath : String
  repoRoot : String
deriving DecidableEq

/-- A call that waits: a start for one of the two answers of git, a stop for the end of a
loop, and a stop of everything for the ends of the loops that are left. -/
inductive FetchCall where
  | resolvingRepoRoot (workspaceId worktreePath : String)
  | resolvingFetchHead (workspaceId worktreePath repoRoot : String)
  | interrupting (fiber : ℕ)
  | interruptingAll (fibers : List ℕ)
deriving DecidableEq

structure BackgroundFetch where
  schedules : OrderedMap String FetchScheduleState
  workspaceToRepo : OrderedMap String String
  /-- The running loops. -/
  loops : ℕ → Option FetchLoop
  nextFiber : ℕ
  calls : List FetchCall
  /-- Recorded of the calls: the workspaces that were started and not stopped since. -/
  started : String → Bool

inductive FetchEvent where
  | startFetching (workspaceId : String) (worktreePath : Option String)
  | repoRootResolved (workspaceId worktreePath : String) (commonDir : Option String)
  | fetchHeadResolved (workspaceId worktreePath repoRoot : String)
  | stopFetching (workspaceId : String)
  | stopAllFetching
  | interrupted (fiber : ℕ)
  | interruptedNext (fibers : List ℕ)

namespace BackgroundFetch

def initial : BackgroundFetch where
  schedules := []
  workspaceToRepo := []
  loops := fun _ => none
  nextFiber := 0
  calls := []
  started := fun _ => false

/-! ## Starting -/

/-- The directory that git names, or the worktree where git fails. -/
def resolveRepoRoot (worktreePath : String) (commonDir : Option String) : String :=
  commonDir.getD worktreePath

/-- `startFetching` up to its first answer. -/
def startFetching (workspaceId : String) (worktreePath : Option String) (s : BackgroundFetch) :
    BackgroundFetch :=
  let s := { s with started := Function.update s.started workspaceId true }
  match worktreePath with
  | none => s
  | some worktreePath =>
    { s with calls := .resolvingRepoRoot workspaceId worktreePath :: s.calls }

/-- `startFetching` from its first answer on. -/
def repoRootResolved (workspaceId worktreePath : String) (commonDir : Option String)
    (s : BackgroundFetch) : BackgroundFetch :=
  let call := FetchCall.resolvingRepoRoot workspaceId worktreePath
  if call ∈ s.calls then
    let repoRoot := resolveRepoRoot worktreePath commonDir
    match s.schedules.get? repoRoot with
    | some schedule =>
      { s with
        calls := s.calls.erase call
        schedules := s.schedules.set repoRoot (schedule.add workspaceId)
        workspaceToRepo := s.workspaceToRepo.set workspaceId repoRoot }
    | none =>
      { s with
        calls := .resolvingFetchHead workspaceId worktreePath repoRoot :: s.calls.erase call }
  else s

/-- `startFetching` from its second answer on. -/
def fetchHeadResolved (workspaceId worktreePath repoRoot : String) (s : BackgroundFetch) :
    BackgroundFetch :=
  let call := FetchCall.resolvingFetchHead workspaceId worktreePath repoRoot
  if call ∈ s.calls then
    { s with
      calls := s.calls.erase call
      loops := Function.update s.loops s.nextFiber (some { worktreePath, repoRoot })
      nextFiber := s.nextFiber + 1
      schedules := s.schedules.set repoRoot { fiber := s.nextFiber, workspaceIds := [workspaceId] }
      workspaceToRepo := s.workspaceToRepo.set workspaceId repoRoot }
  else s

/-! ## Stopping -/

/-- `stopFetching` up to the interruption. -/
def stopFetching (workspaceId : String) (s : BackgroundFetch) : BackgroundFetch :=
  let s := { s with started := Function.update s.started workspaceId false }
  match s.workspaceToRepo.get? workspaceId with
  | none => s
  | some repoRoot =>
    let s := { s with workspaceToRepo := s.workspaceToRepo.delete workspaceId }
    match s.schedules.get? repoRoot with
    | none => s
    | some schedule =>
      -- the last workspace that leaves stops the loop
      if schedule.remaining workspaceId = [] then
        { s with
          schedules := s.schedules.delete repoRoot
          calls := .interrupting schedule.fiber :: s.calls }
      else
        { s with
          schedules := s.schedules.set repoRoot
            { schedule with workspaceIds := schedule.remaining workspaceId } }

def interrupted (fiber : ℕ) (s : BackgroundFetch) : BackgroundFetch :=
  if .interrupting fiber ∈ s.calls then
    { s with
      calls := s.calls.erase (.interrupting fiber)
      loops := Function.update s.loops fiber none }
  else s

/-- `stopAllFetching` before the loops that are left. -/
def interruptRest (fibers : List ℕ) (s : BackgroundFetch) : BackgroundFetch :=
  match fibers with
  | [] => { s with workspaceToRepo := [] }
  | fiber :: fibers => { s with calls := .interruptingAll (fiber :: fibers) :: s.calls }

def stopAllFetching (s : BackgroundFetch) : BackgroundFetch :=
  interruptRest (s.schedules.values.map (·.fiber))
    { s with schedules := [], started := fun _ => false }

/-- The first of the loops that are left has ended. -/
def interruptedNext (fibers : List ℕ) (s : BackgroundFetch) : BackgroundFetch :=
  match fibers with
  | [] => s
  | fiber :: rest =>
    if .interruptingAll (fiber :: rest) ∈ s.calls then
      interruptRest rest
        { s with
          calls := s.calls.erase (.interruptingAll (fiber :: rest))
          loops := Function.update s.loops fiber none }
    else s

/-! ## Steps -/

def step : FetchEvent → BackgroundFetch → BackgroundFetch
  | .startFetching workspaceId worktreePath => startFetching workspaceId worktreePath
  | .repoRootResolved workspaceId worktreePath commonDir =>
    repoRootResolved workspaceId worktreePath commonDir
  | .fetchHeadResolved workspaceId worktreePath repoRoot =>
    fetchHeadResolved workspaceId worktreePath repoRoot
  | .stopFetching workspaceId => stopFetching workspaceId
  | .stopAllFetching => stopAllFetching
  | .interrupted fiber => interrupted fiber
  | .interruptedNext fibers => interruptedNext fibers

end BackgroundFetch

end Laborer.Worktrees
