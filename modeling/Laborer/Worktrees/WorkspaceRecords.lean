import Laborer.Database.StateOperations

/-!
# Workspace records

The view of a task that owns a local worktree, the lookups behind it, and the
updates of a task that the server makes on its own.
-/

namespace Laborer.Worktrees

open Laborer.Library Laborer.Database

/-! ## Records -/

inductive WorkspaceStatus where
  | creating | running | errored

inductive WorkspaceOrigin where
  | laborer | external

/-- A workspace record; its time of creation is kept as the number of milliseconds. -/
structure WorkspaceRecord where
  baseBranch : Option String
  baseSha : Option String
  branchName : String
  createdAt : ℤ
  errorMessage : Option String := none
  id : String
  origin : WorkspaceOrigin
  prApprovals : Option ℤ := none
  prAuthorLogin : Option String := none
  prBaseBranch : Option String := none
  prCheckStatus : Option PullRequestCheckStatus := none
  prChecks : Option (List PullRequestCheckRun) := none
  prMergeStatus : Option PullRequestMergeStatus := none
  prNumber : Option ℤ := none
  prReviewDecision : Option PullRequestReviewDecision := none
  prState : Option PullRequestState := none
  prTitle : Option String := none
  prUnresolvedThreads : Option ℤ := none
  prUrl : Option String := none
  projectId : String
  status : WorkspaceStatus
  taskSource : String
  worktreePath : String

def rootWorkspaceIdPrefix : String := "root-"

def rootWorkspaceBranchLabel : String := "root"

def rootWorkspaceId (projectId : String) : String :=
  rootWorkspaceIdPrefix ++ projectId

def projectIdFromRootWorkspaceId (workspaceId : String) : Option String :=
  if rootWorkspaceIdPrefix.toList.isPrefixOf workspaceId.toList then
    some (String.ofList (workspaceId.toList.drop rootWorkspaceIdPrefix.toList.length))
  else none

/-- The project with the longest root path among those that hold the task. -/
def projectForTask (task : LaborerTask) (projects : List Project) : Option Project :=
  ((projects.filter fun project => pathContains project.rootPath task.rootPath).insertionSort
    fun left right => jsLength right.rootPath ≤ jsLength left.rootPath).head?

def workspaceStatus (task : LaborerTask) : WorkspaceStatus :=
  match task.worktreeStatus with
  | some .errored => .errored
  | some .provisioning => .creating
  | some .ready | none => .running

def toWorkspaceRecord (task : LaborerTask) (project : Project) : Option WorkspaceRecord :=
  task.worktreePath.map fun worktreePath =>
    { baseBranch := task.baseBranch
      baseSha := task.baseSha
      -- a detached worktree is labelled by the title of its task
      branchName := task.branchName.getD task.title
      createdAt := task.createdAt
      errorMessage := task.worktreeError
      id := task.id
      origin := if task.source = .worktree then .external else .laborer
      prApprovals := task.prApprovals
      prAuthorLogin := task.prAuthorLogin
      prBaseBranch := task.prBaseBranch
      prCheckStatus := task.prCheckStatus
      prChecks := task.prChecks
      prMergeStatus := task.prMergeStatus
      prNumber := task.prNumber
      prReviewDecision := task.prReviewDecision
      prState := task.prState
      prTitle := task.prTitle
      prUnresolvedThreads := task.prUnresolvedThreads
      prUrl := task.prUrl
      projectId := project.id
      status := workspaceStatus task
      taskSource := task.id
      worktreePath }

def rootWorkspaceRecord (project : Project) : WorkspaceRecord where
  baseBranch := none
  baseSha := none
  branchName := project.branchName.getD rootWorkspaceBranchLabel
  createdAt := project.createdAt
  id := rootWorkspaceId project.id
  origin := .external
  projectId := project.id
  status := .running
  taskSource := rootWorkspaceId project.id
  worktreePath := project.rootPath

/-! ## Reading -/

/-- `COALESCE(sort_order, created_at)`. -/
def projectOrder (project : Project) : ℚ :=
  project.sortOrder.getD project.createdAt

/-- `ORDER BY COALESCE(sort_order, created_at), id`. -/
def listProjects (db : LaborerDatabase) : Except DatabaseError (List Project) :=
  boundedRows ((db.projects.rows.insertionSort fun p p' =>
    projectOrder p < projectOrder p' ∨ (projectOrder p = projectOrder p' ∧ p.id ≤ p'.id)).take
      (maxTableRows + 1)) .projects

/-- `ORDER BY updated_at DESC, created_at DESC, id DESC`. -/
def laterTask (t t' : LaborerTask) : Prop :=
  t'.updatedAt < t.updatedAt ∨ (t.updatedAt = t'.updatedAt ∧
    (t'.createdAt < t.createdAt ∨ (t.createdAt = t'.createdAt ∧ t'.id ≤ t.id)))

instance (t t' : LaborerTask) : Decidable (laterTask t t') :=
  inferInstanceAs (Decidable (_ ∨ _))

/-- The row that `findTaskByWorktreePath` reads. -/
def worktreeRow (db : LaborerDatabase) (worktreePath : String) : Option LaborerTask :=
  ((db.tasks.rows.filter (·.worktreePath = some worktreePath)).insertionSort laterTask).head?

def findTaskByWorktreePath (db : LaborerDatabase) (worktreePath : String) :
    Except DatabaseError (Option LaborerTask) :=
  match worktreeRow db worktreePath with
  | none => pure none
  | some row => some <$> LaborerDatabase.rowToTask row

def findWorkspaceRecord (db : LaborerDatabase) (workspaceId : String) :
    Except DatabaseError (Option WorkspaceRecord) :=
  match projectIdFromRootWorkspaceId workspaceId with
  | some rootProjectId => do
    let projects ← listProjects db
    pure ((projects.find? (·.id = rootProjectId)).map rootWorkspaceRecord)
  | none => do
    match ← db.findTask workspaceId with
    | none => pure none
    | some task =>
      let projects ← listProjects db
      pure ((projectForTask task projects).bind (toWorkspaceRecord task))

/-! ## Facts that the server observes -/

/-- Whether a patch has a field with another value than the task. -/
def patchChangesTask (task : LaborerTask) (patch : LaborerTaskPatch) : Bool :=
  patch.actionName.any (· ≠ task.actionName) || patch.baseBranch.any (· ≠ task.baseBranch) ||
  patch.baseSha.any (· ≠ task.baseSha) || patch.branchName.any (· ≠ task.branchName) ||
  patch.description.any (· ≠ task.description) || patch.executionId.any (· ≠ task.executionId) ||
  patch.executionStatus.any (· ≠ task.executionStatus) ||
  patch.parentTaskId.any (· ≠ task.parentTaskId) ||
  patch.prAuthorLogin.any (· ≠ task.prAuthorLogin) ||
  patch.prBaseBranch.any (· ≠ task.prBaseBranch) ||
  patch.prCheckStatus.any (· ≠ task.prCheckStatus) ||
  -- two lists of checks are never the same object
  patch.prChecks.any (fun checks => checks.isSome || task.prChecks.isSome) ||
  patch.prIsDraft.any (· ≠ task.prIsDraft) || patch.prMergeStatus.any (· ≠ task.prMergeStatus) ||
  patch.prNumber.any (· ≠ task.prNumber) || patch.prApprovals.any (· ≠ task.prApprovals) ||
  patch.prReviewDecision.any (· ≠ task.prReviewDecision) ||
  patch.prState.any (· ≠ task.prState) || patch.prTitle.any (· ≠ task.prTitle) ||
  patch.prUnresolvedThreads.any (· ≠ task.prUnresolvedThreads) ||
  patch.prUrl.any (· ≠ task.prUrl) || patch.rootPath.any (· ≠ task.rootPath) ||
  patch.setupCompletedAt.any (· ≠ task.setupCompletedAt) ||
  patch.slackPermalink.any (· ≠ task.slackPermalink) ||
  patch.sortOrder.any (· ≠ task.sortOrder) || patch.status.any (· ≠ task.status) ||
  patch.title.any (· ≠ task.title) || patch.worktreeError.any (· ≠ task.worktreeError) ||
  patch.worktreePath.any (· ≠ task.worktreePath) ||
  patch.worktreeStatus.any (· ≠ task.worktreeStatus)

/-- One attempt of `updateServerTaskFacts`: it reads the row it writes, so no other
writer can come between. -/
def updateServerTaskFacts (db : LaborerDatabase) (taskId : String) (patch : LaborerTaskPatch)
    (operationId : Option String) (changedAt : ℤ) :
    Except DatabaseError (Option LaborerTask × LaborerDatabase) := do
  match ← db.findTask taskId with
  | none => pure (none, db)
  | some task =>
    if patchChangesTask task patch then
      match
        NativeLaborerDatabase.updateTask taskId task.revision patch operationId changedAt db with
      | (.ok result, db) => pure (some result.row, db)
      | (.error e, _) => throw e
    else pure (some task, db)

def findWorkspaceTask (db : LaborerDatabase) (id : String) (taskSource : Option String)
    (worktreePath : String) : Except DatabaseError (Option LaborerTask) :=
  match taskSource with
  | some taskSource => db.findTask taskSource
  | none => do
    match ← db.findTask id with
    | some task => pure (some task)
    | none => findTaskByWorktreePath db worktreePath

end Laborer.Worktrees
