import Mathlib.Data.List.Basic

/-!
# The repository watch coordinator

The watchers of the registered projects. A watch is started by a program that waits for
the identity and the configuration of the repository and for up to three subscriptions;
between two waits other calls, timers, answers and file events are taken. When a timer fires
is left open, and so are the answers.

What is written and never read (the maps of the subscriptions) and the texts of the warnings
are left out.
-/

namespace Laborer.Worktrees

/-! ## File events -/

/-- `fileName.split('/')`. -/
def pathSegments (fileName : String) : List (List Char) :=
  fileName.toList.splitOn '/'

def isBranchRelatedEvent (fileName : Option String) : Bool :=
  fileName.any fun fileName => "HEAD".toList.isSuffixOf fileName.toList

def worktreeMetadataFiles : List (List Char) :=
  ["HEAD".toList, "commondir".toList, "gitdir".toList, "locked".toList]

def isWorktreeRelatedEvent : Option String → Bool
  | none => false
  | some fileName =>
    fileName = "worktrees" ||
      ("worktrees/".toList.isPrefixOf fileName.toList &&
        match pathSegments fileName with
        | [_, directory] => directory ≠ []
        | [_, _, file] => file ∈ worktreeMetadataFiles
        | _ => false)

/-- The same for a name relative to the directory of the worktrees. -/
def isWorktreesDirMetadataEvent (fileName : Option String) : Bool :=
  fileName.any fun fileName => isWorktreeRelatedEvent (some ("worktrees/" ++ fileName))

/-! ## The state -/

/-- A watcher. Subscriptions and watchers are known by number. -/
structure ProjectWatcherState where
  projectId : String
  repoPath : String
  gitDirPath : String
  gitDirRootSubscriptionId : Option ℕ
  worktreesSubscriptionId : Option ℕ
  repoRootSubscriptionId : Option ℕ
  worktreeTimer : Bool := false
  branchTimer : Bool := false
  recoveryTimer : Bool := false
  closed : Bool := false

structure WatchTarget where
  canonicalGitCommonDir : String
  projectId : String
  projectName : String
  repoPath : String

inductive SubscriptionPurpose where
  | gitDir | worktrees | repoRoot
deriving DecidableEq

/-- A program that waits, with what it does next: a start of a watch and the starts of
`watchAll` that follow it, the subscription that a watcher adds, or the loops of
`watchAll` over its projects. -/
inductive WatchFiber where
  | resolvingIdentity (projectId repoPath : String) (projectName : Option String)
  | resolvingConfig (target : WatchTarget) (rest : List WatchTarget)
  | subscribingGitDir (target : WatchTarget) (hasWorktreesDir : Bool) (rest : List WatchTarget)
  | subscribingWorktrees (target : WatchTarget) (gitDir : Option ℕ) (rest : List WatchTarget)
  | subscribingRepoRoot (target : WatchTarget) (hasWorktreesDir : Bool)
      (gitDir worktrees : Option ℕ) (rest : List WatchTarget)
  | switchingToWorktrees (watcher : ℕ)
  | reconcilingAll (rest projects : List WatchTarget)
  | refreshingAll (rest projects : List WatchTarget)

inductive WatchCall where
  | watch | unwatch
deriving DecidableEq

/-- What is recorded of a run: the calls, the worktree events that a subscription of a
project delivers, and the reconciliations and refreshes that start. -/
inductive WatchNote where
  | called (projectId : String) (call : WatchCall)
  | delivered (projectId : String)
  | reconciling (projectId : String)
  | refreshing (projectId : String)
deriving DecidableEq

structure WatchCoordinator where
  /-- Every watcher that became visible, the closed ones included. -/
  watchers : ℕ → Option ProjectWatcherState
  nextWatcher : ℕ
  statesRef : String → Option ℕ
  projectWatcherStatesMap : String → Option ℕ
  /-- The project and the purpose of a subscription, from its registration on. -/
  subscriptions : ℕ → Option (String × SubscriptionPurpose)
  nextSubscription : ℕ
  /-- The subscriptions of the file watcher. -/
  live : ℕ → Bool
  /-- The subscriptions that the file watcher was asked to end. -/
  unsubscribing : ℕ → Bool
  fibers : ℕ → Option WatchFiber
  nextFiber : ℕ
  /-- The newest first. -/
  log : List WatchNote

namespace ProjectWatcherState

def subscriptionIds (state : ProjectWatcherState) : List ℕ :=
  state.gitDirRootSubscriptionId.toList ++ state.worktreesSubscriptionId.toList ++
    state.repoRootSubscriptionId.toList

def close (state : ProjectWatcherState) : ProjectWatcherState :=
  { state with
    closed := true
    worktreeTimer := false
    branchTimer := false
    recoveryTimer := false
    gitDirRootSubscriptionId := none
    worktreesSubscriptionId := none
    repoRootSubscriptionId := none }

def scheduleReconcile (state : ProjectWatcherState) : ProjectWatcherState :=
  if state.closed then state else { state with worktreeTimer := true }

def scheduleBranchRefresh (state : ProjectWatcherState) : ProjectWatcherState :=
  if state.closed then state else { state with branchTimer := true }

end ProjectWatcherState

namespace WatchCoordinator

def init : WatchCoordinator where
  watchers := fun _ => none
  nextWatcher := 0
  statesRef := fun _ => none
  projectWatcherStatesMap := fun _ => none
  subscriptions := fun _ => none
  nextSubscription := 0
  live := fun _ => false
  unsubscribing := fun _ => false
  fibers := fun _ => none
  nextFiber := 0
  log := []

def note (s : WatchCoordinator) (entry : WatchNote) : WatchCoordinator :=
  { s with log := entry :: s.log }

def modifyWatcher (s : WatchCoordinator) (watcher : ℕ)
    (f : ProjectWatcherState → ProjectWatcherState) : WatchCoordinator :=
  { s with watchers := Function.update s.watchers watcher ((s.watchers watcher).map f) }

def setFiber (s : WatchCoordinator) (fiber : ℕ) (program : Option WatchFiber) : WatchCoordinator :=
  { s with fibers := Function.update s.fibers fiber program }

def spawn (s : WatchCoordinator) (program : WatchFiber) : WatchCoordinator :=
  { s.setFiber s.nextFiber (some program) with nextFiber := s.nextFiber + 1 }

/-! ## Calls -/

/-- `closeState`, which asks for the end of the subscriptions without waiting for it. -/
def closeState (s : WatchCoordinator) (watcher : ℕ) : WatchCoordinator :=
  match s.watchers watcher with
  | none => s
  | some state =>
    { s.modifyWatcher watcher .close with
      unsubscribing := fun subscription =>
        decide (subscription ∈ state.subscriptionIds) || s.unsubscribing subscription }

/-- `unwatchProject`, up to the record of the call. -/
def unwatch (s : WatchCoordinator) (projectId : String) : WatchCoordinator :=
  match s.statesRef projectId with
  | none => s
  | some watcher =>
    { s.closeState watcher with
      projectWatcherStatesMap := Function.update s.projectWatcherStatesMap projectId none
      statesRef := Function.update s.statesRef projectId none }

/-- `watchProject`, up to the record of the call. -/
def watch (s : WatchCoordinator) (projectId repoPath : String) (projectName : Option String)
    (preResolvedGitCommonDir : Option String) : WatchCoordinator :=
  let s := s.unwatch projectId
  match preResolvedGitCommonDir with
  | some canonicalGitCommonDir =>
    s.spawn (.resolvingConfig
      { canonicalGitCommonDir, projectId, projectName := projectName.getD projectId, repoPath } [])
  | none => s.spawn (.resolvingIdentity projectId repoPath projectName)

/-! ## Answers -/

/-- The answer to a subscription, which is registered as it arrives. -/
def answerSubscription (s : WatchCoordinator) (projectId : String)
    (purpose : SubscriptionPurpose) (succeeded : Bool) : Option ℕ × WatchCoordinator :=
  if succeeded then
    (some s.nextSubscription, { s with
      subscriptions := Function.update s.subscriptions s.nextSubscription
        (some (projectId, purpose))
      live := Function.update s.live s.nextSubscription true
      nextSubscription := s.nextSubscription + 1 })
  else (none, s)

/-- The watcher that a start ends with. -/
def startedState (target : WatchTarget) (hasWorktreesDir : Bool)
    (gitDir worktrees repoRoot : Option ℕ) : ProjectWatcherState where
  projectId := target.projectId
  repoPath := target.repoPath
  gitDirPath := target.canonicalGitCommonDir
  gitDirRootSubscriptionId := gitDir
  worktreesSubscriptionId := worktrees
  repoRootSubscriptionId := repoRoot
  -- `scheduleRecovery`
  recoveryTimer := gitDir.isNone || repoRoot.isNone || (hasWorktreesDir && worktrees.isNone)

/-- The end of a start: the watcher becomes visible, in the place of any other. -/
def publish (s : WatchCoordinator) (state : ProjectWatcherState) : WatchCoordinator :=
  { s with
    watchers := Function.update s.watchers s.nextWatcher (some state)
    nextWatcher := s.nextWatcher + 1
    statesRef := Function.update s.statesRef state.projectId (some s.nextWatcher)
    projectWatcherStatesMap :=
      Function.update s.projectWatcherStatesMap state.projectId (some s.nextWatcher) }

def nextStart : List WatchTarget → Option WatchFiber
  | [] => none
  | target :: rest => some (.resolvingConfig target rest)

def subscribed (s : WatchCoordinator) (fiber : ℕ) (succeeded : Bool) : WatchCoordinator :=
  match s.fibers fiber with
  | some (.subscribingGitDir target hasWorktreesDir rest) =>
    let (gitDir, s) := s.answerSubscription target.projectId .gitDir succeeded
    s.setFiber fiber (some (if hasWorktreesDir then .subscribingWorktrees target gitDir rest
      else .subscribingRepoRoot target false gitDir none rest))
  | some (.subscribingWorktrees target gitDir rest) =>
    let (worktrees, s) := s.answerSubscription target.projectId .worktrees succeeded
    s.setFiber fiber (some (.subscribingRepoRoot target true gitDir worktrees rest))
  | some (.subscribingRepoRoot target hasWorktreesDir gitDir worktrees rest) =>
    let (repoRoot, s) := s.answerSubscription target.projectId .repoRoot succeeded
    (s.publish (startedState target hasWorktreesDir gitDir worktrees repoRoot)).setFiber fiber
      (nextStart rest)
  | some (.switchingToWorktrees watcher) =>
    match s.watchers watcher with
    | none => s
    | some state =>
      let (worktrees, s) := s.answerSubscription state.projectId .worktrees succeeded
      let add (state : ProjectWatcherState) : ProjectWatcherState :=
        { state with worktreesSubscriptionId := worktrees }
      let s := s.modifyWatcher watcher add
      let s := match s.statesRef state.projectId with
        | none => s
        | some current => s.modifyWatcher current add
      (s.note (.reconciling state.projectId)).setFiber fiber none
  | _ => s

/-! ## File events -/

/-- `switchToWorktreesWatcher` at a watcher that is open, over whether the directory is
there. -/
def switchToWorktreesWatcher (s : WatchCoordinator) (watcher : ℕ) (state : ProjectWatcherState)
    (worktreesDirExists : Bool) : Bool × WatchCoordinator :=
  if state.worktreesSubscriptionId ≠ none ∨ ¬ worktreesDirExists then (false, s)
  else (true, s.spawn (.switchingToWorktrees watcher))

def handleGitDirEvent (s : WatchCoordinator) (watcher : ℕ) (state : ProjectWatcherState)
    (fileName : Option String) (worktreesDirExists : Bool) : WatchCoordinator :=
  let s :=
    if fileName = some "worktrees" then
      let (switched, s) := s.switchToWorktreesWatcher watcher state worktreesDirExists
      if switched then s else s.modifyWatcher watcher .scheduleReconcile
    else s
  let s :=
    if isBranchRelatedEvent fileName then s.modifyWatcher watcher .scheduleBranchRefresh else s
  if isWorktreeRelatedEvent fileName then s.modifyWatcher watcher .scheduleReconcile else s

def handleWorktreesEvent (s : WatchCoordinator) (watcher : ℕ) (fileName : Option String) :
    WatchCoordinator :=
  if isWorktreesDirMetadataEvent fileName then
    (s.modifyWatcher watcher .scheduleReconcile).modifyWatcher watcher .scheduleBranchRefresh
  else s

/-- Whether an event tells of the worktrees of a project. -/
def isWorktreeEvent (purpose : SubscriptionPurpose) (fileName : Option String) : Bool :=
  match purpose with
  | .gitDir => isWorktreeRelatedEvent fileName
  | .worktrees => isWorktreesDirMetadataEvent fileName
  | .repoRoot => false

def handleFileEvent (s : WatchCoordinator) (subscription : ℕ) (fileName : Option String)
    (worktreesDirExists : Bool) : WatchCoordinator :=
  match s.subscriptions subscription with
  | none => s
  | some (projectId, purpose) =>
    let s := if isWorktreeEvent purpose fileName then s.note (.delivered projectId) else s
    match s.projectWatcherStatesMap projectId with
    | none => s
    | some watcher =>
      match s.watchers watcher with
      | none => s
      | some state =>
        if state.closed then s
        else
          match purpose with
          | .gitDir => s.handleGitDirEvent watcher state fileName worktreesDirExists
          | .worktrees => s.handleWorktreesEvent watcher fileName
          | .repoRoot => s

/-! ## Timers -/

/-- A timer of a watcher fires: it is no longer pending, and an open watcher acts. -/
def fire (s : WatchCoordinator) (watcher : ℕ) (pending : ProjectWatcherState → Bool)
    (clear : ProjectWatcherState → ProjectWatcherState)
    (act : ProjectWatcherState → WatchCoordinator → WatchCoordinator) : WatchCoordinator :=
  match s.watchers watcher with
  | none => s
  | some state =>
    if pending state then
      let s := s.modifyWatcher watcher clear
      if state.closed then s else act state s
    else s

def recover (state : ProjectWatcherState) (s : WatchCoordinator) : WatchCoordinator :=
  match (s.statesRef state.projectId).bind s.watchers with
  | none => s
  | some latest => s.watch latest.projectId latest.repoPath none none

/-! ## Steps -/

inductive WatchEvent where
  | watchProject (projectId repoPath : String) (projectName canonicalGitCommonDir : Option String)
  | unwatchProject (projectId : String)
  /-- The call for the projects of the database, whose rows have their identity. -/
  | watchAll (projects : List WatchTarget)
  | identityResolved (fiber : ℕ) (identity : Option (String × String))
  | configResolved (fiber : ℕ) (hasWorktreesDir : Bool)
  | subscribed (fiber : ℕ) (succeeded : Bool)
  | unsubscribed (subscription : ℕ) (succeeded : Bool)
  /-- The loops of `watchAll` go on. -/
  | advanced (fiber : ℕ)
  | worktreeTimer (watcher : ℕ)
  | branchTimer (watcher : ℕ)
  | recoveryTimer (watcher : ℕ)
  | fileEvent (subscription : ℕ) (fileName : Option String) (worktreesDirExists : Bool)

def step (event : WatchEvent) (s : WatchCoordinator) : WatchCoordinator :=
  match event with
  | .watchProject projectId repoPath projectName canonicalGitCommonDir =>
    (s.note (.called projectId .watch)).watch projectId repoPath projectName canonicalGitCommonDir
  | .unwatchProject projectId => (s.note (.called projectId .unwatch)).unwatch projectId
  | .watchAll projects =>
    { s with log := (projects.map fun project : WatchTarget =>
        WatchNote.called project.projectId .watch) ++ s.log }.spawn
      (.reconcilingAll projects projects)
  | .identityResolved fiber identity =>
    match s.fibers fiber, identity with
    | some (.resolvingIdentity _ _ _), none => s.setFiber fiber none
    | some (.resolvingIdentity projectId _ projectName), some (canonicalRoot, gitCommonDir) =>
      s.setFiber fiber (some (.resolvingConfig
        { canonicalGitCommonDir := gitCommonDir, projectId,
          projectName := projectName.getD projectId, repoPath := canonicalRoot } []))
    | _, _ => s
  | .configResolved fiber hasWorktreesDir =>
    match s.fibers fiber with
    | some (.resolvingConfig target rest) =>
      s.setFiber fiber (some (.subscribingGitDir target hasWorktreesDir rest))
    | _ => s
  | .subscribed fiber succeeded => s.subscribed fiber succeeded
  | .unsubscribed subscription succeeded =>
    if s.unsubscribing subscription then
      { s with
        unsubscribing := Function.update s.unsubscribing subscription false
        live := if succeeded then Function.update s.live subscription false else s.live }
    else s
  | .advanced fiber =>
    match s.fibers fiber with
    | some (.reconcilingAll (target :: rest) projects) =>
      (s.note (.reconciling target.projectId)).setFiber fiber (some (.reconcilingAll rest projects))
    | some (.reconcilingAll [] projects) =>
      s.setFiber fiber (some (.refreshingAll projects projects))
    | some (.refreshingAll (target :: rest) projects) =>
      (s.note (.refreshing target.projectId)).setFiber fiber (some (.refreshingAll rest projects))
    | some (.refreshingAll [] projects) => s.setFiber fiber (nextStart projects)
    | _ => s
  | .worktreeTimer watcher =>
    s.fire watcher (·.worktreeTimer) (fun state => { state with worktreeTimer := false })
      fun state s => s.note (.reconciling state.projectId)
  | .branchTimer watcher =>
    s.fire watcher (·.branchTimer) (fun state => { state with branchTimer := false })
      fun state s => s.note (.refreshing state.projectId)
  | .recoveryTimer watcher =>
    s.fire watcher (·.recoveryTimer) (fun state => { state with recoveryTimer := false }) recover
  | .fileEvent subscription fileName worktreesDirExists =>
    s.handleFileEvent subscription fileName worktreesDirExists

end WatchCoordinator

end Laborer.Worktrees
