import Laborer.Database.StateOperations

/-!
# The task database

The writes of the task database, which share the file with the native server
database, and `readChanges`, which its readers follow the tasks by.
-/

namespace Laborer.Database

open Laborer.Library

def maxSnapshotTasks : ℕ := 10000

def maxSafeInteger : ℤ := 2 ^ 53 - 1

/-- The columns that the task database selects. -/
def LaborerTask.toTask (row : LaborerTask) : Task where
  actionName := row.actionName
  branchName := row.branchName
  createdAt := row.createdAt
  description := row.description
  executionId := row.executionId
  executionStatus := row.executionStatus
  id := row.id
  labelIds := row.labelIds
  revision := row.revision
  rootPath := row.rootPath
  slackPermalink := row.slackPermalink
  source := row.source
  status := row.status
  taskNumber := row.taskNumber
  title := row.title
  updatedAt := row.updatedAt
  worktreePath := row.worktreePath

/-- The `SET` list of `update`. -/
def TaskPatch.apply (patch : TaskPatch) (changedAt : ℤ) (row : LaborerTask) : LaborerTask :=
  { row with
    title := patch.title.getD row.title
    status := patch.status.getD row.status
    executionStatus := patch.executionStatus.getD row.executionStatus
    slackPermalink := patch.slackPermalink.getD row.slackPermalink
    worktreePath := patch.worktreePath.getD row.worktreePath
    branchName := patch.branchName.getD row.branchName
    description := patch.description.getD row.description
    updatedAt := changedAt
    revision := row.revision + 1 }

inductive TaskRead where
  | snapshot (cursor : ℕ) (tasks : List Task)
  | delta (cursor : ℕ) (tasks : List Task) (deletedTaskIds : List String)

namespace TaskDatabase

open LaborerDatabase

def find (db : LaborerDatabase) (id : String) : Option Task :=
  (db.tasks.find id).map LaborerTask.toTask

def findByExecutionId (db : LaborerDatabase) (executionId : String) : Option Task :=
  (db.tasks.rows.find? (·.executionId = some executionId)).map LaborerTask.toTask

/-! ## Writes -/

/-- The row that `insert` writes; the trigger gives it its number. -/
def newTaskRow (input : NewTask) (sortOrder : ℚ) (changedAt : ℤ) : LaborerTask where
  actionName := input.actionName
  baseBranch := none
  baseSha := none
  branchName := input.branchName
  createdAt := input.createdAt.getD changedAt
  description := input.description
  executionId := input.executionId
  executionStatus := input.executionStatus
  id := input.id
  labelIds := []
  parentTaskId := none
  prApprovals := none
  prAuthorLogin := none
  prBaseBranch := none
  prCheckStatus := none
  prChecks := none
  prIsDraft := false
  prMergeStatus := none
  prNumber := none
  prReviewDecision := none
  prState := none
  prTitle := none
  prUnresolvedThreads := none
  prUrl := none
  revision := 1
  rootPath := input.rootPath
  setupCompletedAt := none
  slackPermalink := input.slackPermalink
  sortOrder := some sortOrder
  source := input.source
  status := input.status
  taskNumber := 0
  title := input.title
  updatedAt := changedAt
  worktreeError := none
  worktreePath := input.worktreePath
  worktreeStatus := none

/-- The transaction of `insert`: whether a row was inserted. -/
def insertRow (input : NewTask) (changedAt : ℤ) :
    LaborerDatabase → Except DatabaseError Bool × LaborerDatabase :=
  transaction fun db =>
    -- `ON CONFLICT(execution_id) DO NOTHING`
    if input.executionId.isSome ∧ db.tasks.rows.any (·.executionId = input.executionId) then
      pure (false, db)
    else do
      let sortOrder := db.nextTaskSortOrder input.status
      let db ← db.insertTaskRow (newTaskRow input sortOrder changedAt)
      pure (true, (db.appendTaskChange input.id changedAt none).2)

def insert (input : NewTask) (changedAt : ℤ) (db : LaborerDatabase) :
    Except DatabaseError (Task × Bool) × LaborerDatabase :=
  match insertRow input changedAt db with
  | (.error e, db) => (.error e, db)
  | (.ok inserted, db) =>
    let task :=
      if inserted then find db input.id
      else (input.executionId.filter (· ≠ "")).bind (findByExecutionId db)
    match task with
    | none => (.error (.error s!"Inserted task {input.id} could not be read"), db)
    | some task => (.ok (task, inserted), db)

/-- Without an expected revision the last write wins. -/
def update (id : String) (expectedRevision : Option ℤ) (patch : TaskPatch) (changedAt : ℤ) :
    LaborerDatabase → Except DatabaseError Task × LaborerDatabase :=
  transaction fun db =>
    if patch = {} then throw (.error "A task update requires at least one field")
    else do
      let (changes, db) ← db.updateTaskRow id expectedRevision (patch.apply changedAt) fun _ => rfl
      if changes = 0 then
        match expectedRevision with
        | none => throw (.error s!"Task not found: {id}")
        | some expectedRevision => throw (.taskStaleRevision id expectedRevision (find db id))
      else
        let (_, db) := db.appendTaskChange id changedAt none
        match find db id with
        | none => throw (.error s!"Updated task {id} could not be read")
        | some task => pure (task, db)

/-! ## Reads -/

def cursorNeedsSnapshot (sequence : ℕ) (minimum maximum : Option ℕ) : Bool :=
  (maximum.isNone && 0 < sequence) || maximum.any (· < sequence) || minimum.any (sequence + 1 < ·)

def changesAreContiguous (sequence : ℕ) (changes : List (ℕ × TaskChange)) : Bool :=
  changes.zipIdx.all fun (change, index) => change.1 = sequence + index + 1

def snapshotUnsafe (db : LaborerDatabase) : Except DatabaseError TaskRead :=
  let rows := (db.tasks.rows.insertionSort
    fun r r' => before r.createdAt r.id r'.createdAt r'.id).take (maxSnapshotTasks + 1)
  if maxSnapshotTasks < rows.length then
    throw (.error s!"Task database snapshot exceeds the {maxSnapshotTasks} task limit")
  else pure (.snapshot (db.taskChanges.maximum.getD 0) (rows.map LaborerTask.toTask))

def readChanges (sequence limit : ℤ) (db : LaborerDatabase) : Except DatabaseError TaskRead :=
  if ¬ (0 ≤ sequence ∧ sequence ≤ maxSafeInteger) then
    throw (.error "A task change cursor must be a nonnegative integer")
  else if ¬ (1 ≤ limit ∧ limit ≤ 1000) then
    throw (.error "A task change limit must be between 1 and 1000")
  else if cursorNeedsSnapshot sequence.toNat db.taskChanges.minimum db.taskChanges.maximum then
    snapshotUnsafe db
  else
    let changes := db.taskChanges.after sequence.toNat limit.toNat
    if ¬ changesAreContiguous sequence.toNat changes then snapshotUnsafe db
    else
      let taskIds := distinct (changes.map (·.2.taskId))
      pure (.delta (((changes.map Prod.fst).getLast?).getD sequence.toNat)
        (taskIds.filterMap (find db)) (taskIds.filter fun id => (find db id).isNone))

end TaskDatabase

end Laborer.Database
