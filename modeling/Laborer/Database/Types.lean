import Mathlib.Data.Rat.Defs

/-!
# Rows and inputs

The rows of the shared database as its reading functions return them, the inputs
of its writes, and what the writes throw. Numbers are exact; a JSON text column is
kept as the value it holds.
-/

namespace Laborer.Database

/-! ## Tasks -/

inductive TaskStatus where
  | todo | inProgress | inReview | done | cancelled
deriving DecidableEq

inductive TaskSource where
  | execution | manual | slackUrl | agent | worktree
deriving DecidableEq

inductive ExecutionStatus where
  | queued | running | cancelling | completed | failed | cancelled | needsAttention
deriving DecidableEq

inductive WorktreeStatus where
  | provisioning | ready | errored
deriving DecidableEq

inductive PullRequestState where
  | open | closed | merged
deriving DecidableEq

inductive PullRequestMergeStatus where
  | clean | conflicting | unknown
deriving DecidableEq

inductive PullRequestCheckStatus where
  | pending | success | failure
deriving DecidableEq

inductive PullRequestReviewDecision where
  | approved | changesRequested | reviewRequired
deriving DecidableEq

inductive PullRequestCheckRunBucket where
  | success | failure | pending | skipped | cancelled
deriving DecidableEq

structure PullRequestCheckRun where
  bucket : PullRequestCheckRunBucket
  durationMs : Option ℚ
  group : Option String
  name : String
  url : Option String
deriving DecidableEq

structure LaborerTask where
  actionName : Option String
  baseBranch : Option String
  baseSha : Option String
  branchName : Option String
  createdAt : ℤ
  description : Option String
  executionId : Option String
  executionStatus : Option ExecutionStatus
  id : String
  /-- In application order. -/
  labelIds : List String
  parentTaskId : Option String
  prApprovals : Option ℤ
  prAuthorLogin : Option String
  prBaseBranch : Option String
  prCheckStatus : Option PullRequestCheckStatus
  prChecks : Option (List PullRequestCheckRun)
  prIsDraft : Bool
  prMergeStatus : Option PullRequestMergeStatus
  prNumber : Option ℤ
  prReviewDecision : Option PullRequestReviewDecision
  prState : Option PullRequestState
  prTitle : Option String
  prUnresolvedThreads : Option ℤ
  prUrl : Option String
  revision : ℤ
  rootPath : String
  setupCompletedAt : Option ℤ
  slackPermalink : Option String
  sortOrder : Option ℚ
  source : TaskSource
  status : TaskStatus
  taskNumber : ℕ
  title : String
  updatedAt : ℤ
  worktreeError : Option String
  worktreePath : Option String
  worktreeStatus : Option WorktreeStatus
deriving DecidableEq

/-- The input of `insertTask`. An absent field and `null` are the same, but for the
sort order. -/
structure NewLaborerTask where
  actionName : Option String := none
  baseBranch : Option String := none
  baseSha : Option String := none
  branchName : Option String := none
  createdAt : Option ℤ := none
  description : Option String := none
  executionId : Option String := none
  executionStatus : Option ExecutionStatus := none
  id : String
  labelIds : List String := []
  parentTaskId : Option String := none
  prApprovals : Option ℤ := none
  prAuthorLogin : Option String := none
  prBaseBranch : Option String := none
  prCheckStatus : Option PullRequestCheckStatus := none
  prChecks : Option (List PullRequestCheckRun) := none
  prIsDraft : Bool := false
  prMergeStatus : Option PullRequestMergeStatus := none
  prNumber : Option ℤ := none
  prReviewDecision : Option PullRequestReviewDecision := none
  prState : Option PullRequestState := none
  prTitle : Option String := none
  prUnresolvedThreads : Option ℤ := none
  prUrl : Option String := none
  rootPath : String
  setupCompletedAt : Option ℤ := none
  slackPermalink : Option String := none
  sortOrder : Option (Option ℚ) := none
  source : TaskSource
  status : TaskStatus
  title : String
  worktreeError : Option String := none
  worktreePath : Option String := none
  worktreeStatus : Option WorktreeStatus := none

structure AdoptedWorktree where
  baseBranch : Option String := none
  baseSha : Option String := none
  branchName : Option String
  id : String
  parentTaskId : Option String := none
  rootPath : String
  title : String
  worktreePath : String
  worktreePathAliases : List String

/-- The fields that `updateTask` can set; `none` is an absent field. -/
structure LaborerTaskPatch where
  actionName : Option (Option String) := none
  baseBranch : Option (Option String) := none
  baseSha : Option (Option String) := none
  branchName : Option (Option String) := none
  description : Option (Option String) := none
  executionId : Option (Option String) := none
  executionStatus : Option (Option ExecutionStatus) := none
  parentTaskId : Option (Option String) := none
  prAuthorLogin : Option (Option String) := none
  prBaseBranch : Option (Option String) := none
  prCheckStatus : Option (Option PullRequestCheckStatus) := none
  prChecks : Option (Option (List PullRequestCheckRun)) := none
  prIsDraft : Option Bool := none
  prMergeStatus : Option (Option PullRequestMergeStatus) := none
  prNumber : Option (Option ℤ) := none
  prApprovals : Option (Option ℤ) := none
  prReviewDecision : Option (Option PullRequestReviewDecision) := none
  prState : Option (Option PullRequestState) := none
  prTitle : Option (Option String) := none
  prUnresolvedThreads : Option (Option ℤ) := none
  prUrl : Option (Option String) := none
  rootPath : Option String := none
  setupCompletedAt : Option (Option ℤ) := none
  slackPermalink : Option (Option String) := none
  sortOrder : Option (Option ℚ) := none
  status : Option TaskStatus := none
  title : Option String := none
  worktreeError : Option (Option String) := none
  worktreePath : Option (Option String) := none
  worktreeStatus : Option (Option WorktreeStatus) := none
deriving DecidableEq

/-! ## Tasks of the task database -/

structure Task where
  actionName : Option String
  branchName : Option String
  createdAt : ℤ
  description : Option String
  executionId : Option String
  executionStatus : Option ExecutionStatus
  id : String
  labelIds : List String
  revision : ℤ
  rootPath : String
  slackPermalink : Option String
  source : TaskSource
  status : TaskStatus
  taskNumber : ℕ
  title : String
  updatedAt : ℤ
  worktreePath : Option String
deriving DecidableEq

structure NewTask where
  actionName : Option String := none
  branchName : Option String := none
  createdAt : Option ℤ := none
  description : Option String := none
  executionId : Option String := none
  executionStatus : Option ExecutionStatus := none
  id : String
  rootPath : String
  slackPermalink : Option String := none
  source : TaskSource
  status : TaskStatus
  title : String
  worktreePath : Option String := none

/-- The fields that `update` can set; `none` is an absent field. -/
structure TaskPatch where
  title : Option String := none
  status : Option TaskStatus := none
  executionStatus : Option (Option ExecutionStatus) := none
  slackPermalink : Option (Option String) := none
  worktreePath : Option (Option String) := none
  branchName : Option (Option String) := none
  description : Option (Option String) := none
deriving DecidableEq

/-! ## Projects, settings and labels -/

structure Project where
  branchName : Option String
  canonicalGitCommonDir : String
  color : Option String
  createdAt : ℤ
  iconDataUrl : Option String
  id : String
  name : String
  repoId : String
  revision : ℤ
  rootPath : String
  sortOrder : Option ℚ
  updatedAt : ℤ
deriving DecidableEq

structure NewProject where
  branchName : Option String := none
  canonicalGitCommonDir : String
  color : Option String := none
  createdAt : Option ℤ := none
  iconDataUrl : Option String := none
  id : String
  name : String
  repoId : String
  rootPath : String

/-- The fields that `updateProject` can set; `none` is an absent field. -/
structure ProjectPatch where
  branchName : Option (Option String) := none
  canonicalGitCommonDir : Option String := none
  color : Option (Option String) := none
  iconDataUrl : Option (Option String) := none
  name : Option String := none
  repoId : Option String := none
  rootPath : Option String := none
  sortOrder : Option (Option ℚ) := none
deriving DecidableEq

structure ProjectReorderAssignment where
  expectedRevision : ℤ
  projectId : String
  sortOrder : Option ℚ

structure AppSetting where
  createdAt : ℤ
  key : String
  revision : ℤ
  updatedAt : ℤ
  value : String
deriving DecidableEq

inductive LabelColor where
  | red | orange | amber | emerald | teal | blue | violet | pink
deriving DecidableEq

structure Label where
  color : LabelColor
  createdAt : ℤ
  id : String
  name : String
  revision : ℤ
  updatedAt : ℤ
deriving DecidableEq

structure NewLabel where
  color : Option LabelColor := none
  createdAt : Option ℤ := none
  id : Option String := none
  name : String

structure LabelPatch where
  color : Option LabelColor := none
  name : Option String := none

/-! ## Review comments -/

inductive ReviewCommentSide where
  | additions | deletions
deriving DecidableEq

inductive ReviewCommentStatus where
  | open | resolved
deriving DecidableEq

inductive ReviewCommentAuthor where
  | human | agent
deriving DecidableEq

structure ReviewCommentReply where
  author : ReviewCommentAuthor
  body : String
  createdAt : ℤ
  id : String
  threadId : String
deriving DecidableEq

structure ReviewCommentThreadRow where
  createdAt : ℤ
  endLine : ℤ
  filePath : String
  id : String
  revision : ℤ
  side : ReviewCommentSide
  startLine : ℤ
  status : ReviewCommentStatus
  updatedAt : ℤ
  workspaceId : String
deriving DecidableEq

structure ReviewCommentThread extends ReviewCommentThreadRow where
  replies : List ReviewCommentReply
deriving DecidableEq

structure NewReviewCommentThread where
  body : String
  createdAt : Option ℤ := none
  endLine : ℤ
  filePath : String
  id : Option String := none
  replyId : Option String := none
  side : ReviewCommentSide
  startLine : ℤ
  workspaceId : String

structure NewReviewCommentReply where
  body : String
  createdAt : Option ℤ := none
  id : Option String := none
  threadId : String

/-! ## Ledger entries -/

/-- A row of `task_changes`, but for its sequence. -/
structure TaskChange where
  changedAt : ℤ
  operationId : Option String
  taskId : String

inductive StateChangeTable where
  | projects | appSettings | labels | reviewCommentThreads
deriving DecidableEq

/-- A row of `state_changes`, but for its sequence. -/
structure StateChange where
  changedAt : ℤ
  operationId : Option String
  rowId : String
  tableName : StateChangeTable

/-! ## Failures -/

/-- The row that a stale write met. -/
inductive CurrentRow where
  | task (row : LaborerTask)
  | project (row : Project)
  | setting (row : AppSetting)
  | label (row : Label)
  | reviewCommentThread (row : ReviewCommentThread)
deriving DecidableEq

inductive LaborerDatabaseTable where
  | tasks | projects | appSettings | labels | reviewCommentThreads | reviewCommentReplies
deriving DecidableEq

inductive DatabaseError where
  /-- A plain `Error`. -/
  | error (message : String)
  /-- A constraint or a limit of SQLite. -/
  | sql (message : String)
  | staleRevision (table : LaborerDatabaseTable) (rowId : String) (expectedRevision : Option ℤ)
      (current : Option CurrentRow)
  | taskStaleRevision (taskId : String) (expectedRevision : ℤ) (current : Option Task)
  | labelNameConflict (labelName : String) (existing : Option Label)
  | unknownLabel (taskId : String) (labelIds : List String)
  | cursorGap (ledger : String) (cursor : ℤ)
  | reviewCommentInvalid (message : String)
  | reviewCommentNotFound (id message : String)
  | reviewCommentAuthorMismatch (author : ReviewCommentAuthor) (id message : String)
deriving DecidableEq

structure MutationResult (Row : Type) where
  cursor : ℕ
  row : Row

end Laborer.Database
