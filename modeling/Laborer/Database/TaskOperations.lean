import Laborer.Database.Statements
import Laborer.Library.OrderedMap
import Laborer.Library.Text
import Mathlib.Algebra.Order.Ring.Unbundled.Rat

/-!
# Task and label operations

The operations of the native server database on tasks and labels. Each is one
transaction; what a function throws before it begins the transaction is thrown
inside it here, which changes as little.
-/

namespace Laborer.Database

open Laborer.Library

def maxTaskLabels : ℕ := 32

def maxLabelNameLength : ℕ := 60

def maxTableRows : ℕ := 10000

/-- What SQLite accepts as a pattern of `LIKE`, in bytes. -/
def maxLikePatternLength : ℕ := 50000

def LaborerDatabaseTable.name : LaborerDatabaseTable → String
  | .tasks => "tasks"
  | .projects => "projects"
  | .appSettings => "app_settings"
  | .labels => "labels"
  | .reviewCommentThreads => "review_comment_threads"
  | .reviewCommentReplies => "review_comment_replies"

def boundedRows {ρ : Type} (rows : List ρ) (table : LaborerDatabaseTable) :
    Except DatabaseError (List ρ) :=
  if maxTableRows < rows.length then
    throw (.error s!"Laborer database {table.name} read exceeds the {maxTableRows} row limit")
  else pure rows

def pathContains (parent child : String) : Bool :=
  parent = child ||
    (if parent.toList.getLast? = some '/' then parent.toList else parent.toList ++ ['/']).isPrefixOf
      child.toList

def maxPullRequestCheckRuns : ℕ := 60

def serializeCheckRuns (runs : Option (List PullRequestCheckRun)) :
    Option (List PullRequestCheckRun) :=
  match runs with
  | none | some [] => none
  | some runs => some (runs.take maxPullRequestCheckRuns)

/-! ## Label names -/

def labelName (value : String) : Except DatabaseError String :=
  let trimmed := jsTrim value
  if jsLength trimmed = 0 then throw (.error "A label name must not be blank")
  else if maxLabelNameLength < jsLength trimmed then
    throw (.error s!"A label name must be {maxLabelNameLength} characters or fewer")
  else pure trimmed

def labelColors : List LabelColor :=
  [.red, .orange, .amber, .emerald, .teal, .blue, .violet, .pink]

/-- The color of a name, over `toLowerCase`. -/
def labelColorForName (toLowerCase : String → String) (name : String) : LabelColor :=
  let hash := (toLowerCase (jsTrim name)).toList.foldl
    (fun hash character => (hash * 31 + character.toNat) % 2 ^ 31) 0
  (labelColors[hash % labelColors.length]?).getD .red

namespace LaborerDatabase

/-! ## Helpers -/

def findLabel (db : LaborerDatabase) (id : String) : Option Label :=
  db.labels.find id

def findLabelByName (db : LaborerDatabase) (name : String) : Option Label :=
  db.labels.rows.find? fun label => asciiLower label.name = asciiLower name

def requireLabel (db : LaborerDatabase) (id : String) : Except DatabaseError Label :=
  match db.findLabel id with
  | none => throw (.error s!"Label {id} could not be read after mutation")
  | some label => pure label

def staleTask {α : Type} (db : LaborerDatabase) (id : String) (expectedRevision : Option ℤ) :
    Except DatabaseError α := do
  let current ← db.findTask id
  throw (.staleRevision .tasks id expectedRevision (current.map .task))

def staleLabel {α : Type} (db : LaborerDatabase) (id : String) (expectedRevision : Option ℤ) :
    Except DatabaseError α :=
  throw (.staleRevision .labels id expectedRevision ((db.findLabel id).map .label))

def nextTaskSortOrder (db : LaborerDatabase) (status : TaskStatus) : ℚ :=
  (((db.tasks.rows.filter (·.status = status)).filterMap (·.sortOrder)).min?).getD 0 - 1

def taskSortOrder (db : LaborerDatabase) (input : NewLaborerTask) : Option ℚ :=
  input.sortOrder.getD (some (db.nextTaskSortOrder input.status))

def unknownLabelIds (db : LaborerDatabase) (labelIds : List String) : List String :=
  labelIds.filter fun id => (db.labels.find id).isNone

def requireKnownLabels (db : LaborerDatabase) (taskId : String) (labelIds : List String) :
    Except DatabaseError Unit :=
  let unknown := db.unknownLabelIds labelIds
  if 0 < unknown.length then throw (.unknownLabel taskId unknown) else pure ()

def relabelled (labelIds : List String) (changedAt : ℤ) (row : LaborerTask) : LaborerTask :=
  { row with labelIds, updatedAt := changedAt, revision := row.revision + 1 }

/-- `UPDATE tasks SET label_ids = …`, which touches no index. -/
def relabelTaskRow (db : LaborerDatabase) (id : String) (expectedRevision : Option ℤ)
    (labelIds : List String) (changedAt : ℤ) : ℕ × LaborerDatabase :=
  let (changes, tasks) := db.tasks.updateWhere id
    (fun row => expectedRevision.all (· = row.revision))
    (relabelled (distinct labelIds) changedAt) fun _ => rfl
  (changes, { db with tasks })

def checkLabelRow (db : LaborerDatabase) (row : Label) : Except DatabaseError Unit :=
  if db.labels.rows.any fun other =>
      other.id ≠ row.id ∧ asciiLower other.name = asciiLower row.name then
    throw (.sql "UNIQUE constraint failed: index 'labels_name_unique'")
  else pure ()

/-- The test of `updateLabel` that no other label has the new name. -/
def requireFreeLabelName (db : LaborerDatabase) (id : String) (name : Option String) :
    Except DatabaseError Unit :=
  match name.bind db.findLabelByName with
  | none => pure ()
  | some conflict =>
    if conflict.id ≠ id then throw (.labelNameConflict (name.getD "") (some conflict)) else pure ()

def insertLabelRow (db : LaborerDatabase) (row : Label) : Except DatabaseError LaborerDatabase :=
  match db.labels.insert row with
  | none => throw (.sql "UNIQUE constraint failed: labels.id")
  | some labels => do
    db.checkLabelRow row
    pure { db with labels }

/-- `UPDATE labels SET … WHERE id = ? AND revision = ?`. -/
def updateLabelRow (db : LaborerDatabase) (id : String) (expectedRevision : Option ℤ)
    (name : String) (color : LabelColor) (changedAt : ℤ) :
    Except DatabaseError (ℕ × LaborerDatabase) :=
  let (changes, labels) := db.labels.updateWhere id
    (fun row => expectedRevision.all (· = row.revision))
    (fun row => { row with name, color, updatedAt := changedAt, revision := row.revision + 1 })
    fun _ => rfl
  match changes, labels.find id with
  | 0, _ | _, none => pure (0, db)
  | changes, some row => do
    db.checkLabelRow row
    pure (changes, { db with labels })

/-- One turn of the loop over the tasks that may carry a label. -/
def stripLabelFromTask (labelId : String) (changedAt : ℤ) (operationId : Option String)
    (db : LaborerDatabase) (row : LaborerTask) : LaborerDatabase :=
  if labelId ∈ row.labelIds then
    let (_, db) := db.relabelTaskRow row.id none (row.labelIds.filter (· ≠ labelId)) changedAt
    (db.appendTaskChange row.id changedAt operationId).2
  else db

def labelPattern (labelId : String) : List Char :=
  '%' :: jsonString labelId ++ ['%']

def stripLabelFromTasks (db : LaborerDatabase) (labelId : String) (changedAt : ℤ)
    (operationId : Option String) : Except DatabaseError LaborerDatabase :=
  -- the pattern is looked at once there is a row to match
  if db.tasks.rows ≠ [] ∧ maxLikePatternLength < (String.ofList (labelPattern labelId)).utf8ByteSize
  then throw (.sql "LIKE or GLOB pattern too complex")
  else do
    let rows := (db.tasks.rows.filter fun row =>
      like (labelPattern labelId) (jsonStrings row.labelIds)).take (maxTableRows + 1)
    let rows ← boundedRows rows .tasks
    pure (rows.foldl (stripLabelFromTask labelId changedAt operationId) db)

end LaborerDatabase

namespace NativeLaborerDatabase

open LaborerDatabase

abbrev writeTransaction {α : Type}
    (operation : LaborerDatabase → Except DatabaseError (α × LaborerDatabase)) :
    LaborerDatabase → Except DatabaseError α × LaborerDatabase :=
  transaction operation

theorem write_eq_ok {α : Type} {db db' : LaborerDatabase} {a : α}
    {operation : LaborerDatabase → Except DatabaseError (α × LaborerDatabase)} :
    writeTransaction operation db = (.ok a, db') ↔ operation db = .ok (a, db') :=
  transaction_eq_ok

/-! ## Tasks -/

/-- The row that `insertTask` writes; the trigger gives it its number. -/
def newTaskRow (input : NewLaborerTask) (labelIds : List String) (sortOrder : Option ℚ)
    (changedAt : ℤ) : LaborerTask where
  actionName := input.actionName
  baseBranch := input.baseBranch
  baseSha := input.baseSha
  branchName := input.branchName
  createdAt := input.createdAt.getD changedAt
  description := input.description
  executionId := input.executionId
  executionStatus := input.executionStatus
  id := input.id
  labelIds := distinct labelIds
  parentTaskId := input.parentTaskId
  prApprovals := input.prApprovals
  prAuthorLogin := input.prAuthorLogin
  prBaseBranch := input.prBaseBranch
  prCheckStatus := input.prCheckStatus
  prChecks := serializeCheckRuns input.prChecks
  prIsDraft := input.prIsDraft
  prMergeStatus := input.prMergeStatus
  prNumber := input.prNumber
  prReviewDecision := input.prReviewDecision
  prState := input.prState
  prTitle := input.prTitle
  prUnresolvedThreads := input.prUnresolvedThreads
  prUrl := input.prUrl
  revision := 1
  rootPath := input.rootPath
  setupCompletedAt := input.setupCompletedAt
  slackPermalink := input.slackPermalink
  sortOrder := sortOrder
  source := input.source
  status := input.status
  taskNumber := 0
  title := input.title
  updatedAt := changedAt
  worktreeError := input.worktreeError
  worktreePath := input.worktreePath
  worktreeStatus := input.worktreeStatus

def insertTask (input : NewLaborerTask) (operationId : Option String) (changedAt : ℤ) :
    LaborerDatabase → Except DatabaseError (MutationResult LaborerTask) × LaborerDatabase :=
  writeTransaction fun db =>
    let labelIds := distinct input.labelIds
    if maxTaskLabels < labelIds.length then
      throw (.error s!"A task carries at most {maxTaskLabels} labels")
    else do
      db.requireKnownLabels input.id labelIds
      let sortOrder := db.taskSortOrder input
      let db ← db.insertTaskRow (newTaskRow input labelIds sortOrder changedAt)
      let (cursor, db) := db.appendTaskChange input.id changedAt operationId
      let row ← db.requireTask input.id
      pure ({ row, cursor }, db)

/-- The row that `adoptWorktreeTask` writes. -/
def adoptedTaskRow (input : AdoptedWorktree) (changedAt : ℤ) : LaborerTask where
  actionName := none
  baseBranch := input.baseBranch
  baseSha := input.baseSha
  branchName := input.branchName
  createdAt := changedAt
  description := none
  executionId := none
  executionStatus := none
  id := input.id
  labelIds := []
  parentTaskId := input.parentTaskId
  prApprovals := none
  prAuthorLogin := none
  prBaseBranch := none
  prCheckStatus := none
  prChecks := none
  prIsDraft := false
  prMergeStatus := none
  prNumber := none
  prReviewDecision := none
  prState := none
  prTitle := none
  prUnresolvedThreads := none
  prUrl := none
  revision := 1
  rootPath := input.rootPath
  setupCompletedAt := none
  slackPermalink := none
  sortOrder := none
  source := .worktree
  status := .inProgress
  taskNumber := 0
  title := input.title
  updatedAt := changedAt
  worktreeError := none
  worktreePath := some input.worktreePath
  worktreeStatus := some .ready

/-- Whether a task has the worktree, under one of its paths or by its branch. -/
def worktreeClaimed (db : LaborerDatabase) (input : AdoptedWorktree) : Bool :=
  let aliases := distinct (input.worktreePath :: input.worktreePathAliases)
  db.tasks.rows.any (fun row => row.worktreePath.any (· ∈ aliases)) ||
    (input.branchName.isSome &&
      ((db.tasks.rows.filter fun row => row.branchName = input.branchName).take maxTableRows).any
        fun row => pathContains row.rootPath input.rootPath ||
          pathContains input.rootPath row.rootPath)

def adoptWorktreeTask (input : AdoptedWorktree) (changedAt : ℤ) :
    LaborerDatabase → Except DatabaseError (Option LaborerTask) × LaborerDatabase :=
  writeTransaction fun db =>
    if worktreeClaimed db input then pure (none, db)
    else do
      let db ← db.insertTaskRow (adoptedTaskRow input changedAt)
      let (_, db) := db.appendTaskChange input.id changedAt none
      let row ← db.requireTask input.id
      pure (some row, db)

end NativeLaborerDatabase

/-- The `SET` list of `updateTask`. -/
def LaborerTaskPatch.apply (patch : LaborerTaskPatch) (changedAt : ℤ) (row : LaborerTask) :
    LaborerTask where
  actionName := patch.actionName.getD row.actionName
  baseBranch := patch.baseBranch.getD row.baseBranch
  baseSha := patch.baseSha.getD row.baseSha
  branchName := patch.branchName.getD row.branchName
  createdAt := row.createdAt
  description := patch.description.getD row.description
  executionId := patch.executionId.getD row.executionId
  executionStatus := patch.executionStatus.getD row.executionStatus
  id := row.id
  labelIds := row.labelIds
  parentTaskId := patch.parentTaskId.getD row.parentTaskId
  prApprovals := patch.prApprovals.getD row.prApprovals
  prAuthorLogin := patch.prAuthorLogin.getD row.prAuthorLogin
  prBaseBranch := patch.prBaseBranch.getD row.prBaseBranch
  prCheckStatus := patch.prCheckStatus.getD row.prCheckStatus
  prChecks := (patch.prChecks.map serializeCheckRuns).getD row.prChecks
  prIsDraft := patch.prIsDraft.getD row.prIsDraft
  prMergeStatus := patch.prMergeStatus.getD row.prMergeStatus
  prNumber := patch.prNumber.getD row.prNumber
  prReviewDecision := patch.prReviewDecision.getD row.prReviewDecision
  prState := patch.prState.getD row.prState
  prTitle := patch.prTitle.getD row.prTitle
  prUnresolvedThreads := patch.prUnresolvedThreads.getD row.prUnresolvedThreads
  prUrl := patch.prUrl.getD row.prUrl
  revision := row.revision + 1
  rootPath := patch.rootPath.getD row.rootPath
  setupCompletedAt := patch.setupCompletedAt.getD row.setupCompletedAt
  slackPermalink := patch.slackPermalink.getD row.slackPermalink
  sortOrder := patch.sortOrder.getD row.sortOrder
  source := row.source
  status := patch.status.getD row.status
  taskNumber := row.taskNumber
  title := patch.title.getD row.title
  updatedAt := changedAt
  worktreeError := patch.worktreeError.getD row.worktreeError
  worktreePath := patch.worktreePath.getD row.worktreePath
  worktreeStatus := patch.worktreeStatus.getD row.worktreeStatus

namespace NativeLaborerDatabase

open LaborerDatabase

def updateTask (id : String) (expectedRevision : ℤ) (patch : LaborerTaskPatch)
    (operationId : Option String) (changedAt : ℤ) :
    LaborerDatabase → Except DatabaseError (MutationResult LaborerTask) × LaborerDatabase :=
  writeTransaction fun db =>
    if patch = {} then throw (.error "A task update requires at least one field")
    else do
      let (changes, db) ← db.updateTaskRow id (some expectedRevision) (patch.apply changedAt)
        fun _ => rfl
      if changes = 0 then db.staleTask id (some expectedRevision)
      else do
        let (cursor, db) := db.appendTaskChange id changedAt operationId
        let row ← db.requireTask id
        pure ({ row, cursor }, db)

def deleteTask (id : String) (expectedRevision : ℤ) (operationId : Option String)
    (changedAt : ℤ) :
    LaborerDatabase → Except DatabaseError (MutationResult LaborerTask) × LaborerDatabase :=
  writeTransaction fun db => do
    let row ← db.findTask id
    let (changes, db) := db.deleteTaskRow id expectedRevision
    match changes, row with
    | 0, _ | _, none => db.staleTask id (some expectedRevision)
    | _, some row =>
      let (cursor, db) := db.appendTaskChange id changedAt operationId
      pure ({ row, cursor }, db)

/-! ## Labels -/

/-- `createLabel`, over `toLowerCase` and the id that is minted when none is given. -/
def createLabel (toLowerCase : String → String) (taskUlid : String) (input : NewLabel)
    (operationId : Option String) (changedAt : ℤ) :
    LaborerDatabase → Except DatabaseError (MutationResult Label) × LaborerDatabase :=
  writeTransaction fun db => do
    let id := input.id.getD taskUlid
    let name ← labelName input.name
    let color := input.color.getD (labelColorForName toLowerCase name)
    let createdAt := input.createdAt.getD changedAt
    match db.findLabel id with
    | some existing => pure ({ cursor := db.stateCursor, row := existing }, db)
    | none =>
      match db.findLabelByName name with
      | some conflict => throw (.labelNameConflict name (some conflict))
      | none => do
        let db ← db.insertLabelRow
          { id, name, color, createdAt, updatedAt := changedAt, revision := 1 }
        let (cursor, db) := db.appendStateChange .labels id changedAt operationId
        let row ← db.requireLabel id
        pure ({ cursor, row }, db)

/-- Without an expected revision the last write wins. -/
def updateLabel (id : String) (expectedRevision : Option ℤ) (patch : LabelPatch)
    (operationId : Option String) (changedAt : ℤ) :
    LaborerDatabase → Except DatabaseError (MutationResult Label) × LaborerDatabase :=
  writeTransaction fun db =>
    if patch.name = none ∧ patch.color = none then
      throw (.error "A label update requires a name and/or a color")
    else do
      let name ← patch.name.mapM labelName
      match db.findLabel id with
      | none => db.staleLabel id expectedRevision
      | some current =>
        if expectedRevision.any (· ≠ current.revision) then db.staleLabel id expectedRevision
        else do
          db.requireFreeLabelName id name
          let (changes, db) ← db.updateLabelRow id expectedRevision (name.getD current.name)
            (patch.color.getD current.color) changedAt
          if changes = 0 then db.staleLabel id expectedRevision
          else do
            let (cursor, db) := db.appendStateChange .labels id changedAt operationId
            let row ← db.requireLabel id
            pure ({ cursor, row }, db)

def deleteLabel (id : String) (expectedRevision : Option ℤ) (operationId : Option String)
    (changedAt : ℤ) :
    LaborerDatabase → Except DatabaseError (MutationResult Label) × LaborerDatabase :=
  writeTransaction fun db => do
    let row := db.findLabel id
    let (changes, labels) := db.labels.deleteWhere id
      fun row => expectedRevision.all (· = row.revision)
    let db := { db with labels }
    match changes, row with
    | 0, _ | _, none => db.staleLabel id expectedRevision
    | _, some row => do
      let db ← db.stripLabelFromTasks id changedAt operationId
      let (cursor, db) := db.appendStateChange .labels id changedAt operationId
      pure ({ cursor, row }, db)

def requireTaskForLabels (db : LaborerDatabase) (taskId : String) :
    Except DatabaseError LaborerTask := do
  match ← db.findTask taskId with
  | none => throw (.staleRevision .tasks taskId none none)
  | some current => pure current

def writeTaskLabels (taskId : String) (expectedRevision : Option ℤ) (requested : List String)
    (operationId : Option String) (changedAt : ℤ) (db : LaborerDatabase) :
    Except DatabaseError (MutationResult LaborerTask × LaborerDatabase) :=
  if maxTaskLabels < requested.length then
    throw (.error s!"A task carries at most {maxTaskLabels} labels")
  else do
    let _ ← requireTaskForLabels db taskId
    db.requireKnownLabels taskId requested
    let (changes, db) := db.relabelTaskRow taskId expectedRevision requested changedAt
    if changes = 0 then db.staleTask taskId expectedRevision
    else do
      let (cursor, db) := db.appendTaskChange taskId changedAt operationId
      let row ← db.requireTask taskId
      pure ({ cursor, row }, db)

def setTaskLabels (taskId : String) (expectedRevision : Option ℤ) (labelIds : List String)
    (operationId : Option String) (changedAt : ℤ) :
    LaborerDatabase → Except DatabaseError (MutationResult LaborerTask) × LaborerDatabase :=
  writeTransaction fun db =>
    let requested := distinct labelIds
    if maxTaskLabels < requested.length then
      throw (.error s!"A task carries at most {maxTaskLabels} labels")
    else writeTaskLabels taskId expectedRevision requested operationId changedAt db

def addTaskLabels (taskId : String) (labelIds : List String) (operationId : Option String)
    (changedAt : ℤ) :
    LaborerDatabase → Except DatabaseError (MutationResult LaborerTask) × LaborerDatabase :=
  writeTransaction fun db => do
    let current ← requireTaskForLabels db taskId
    let additions := (distinct labelIds).filter (· ∉ current.labelIds)
    if additions.length = 0 then do
      -- nothing to add: the ledger stays quiet
      db.requireKnownLabels taskId (distinct labelIds)
      pure ({ cursor := db.taskCursor, row := current }, db)
    else writeTaskLabels taskId none (current.labelIds ++ additions) operationId changedAt db

def removeTaskLabels (taskId : String) (labelIds : List String) (operationId : Option String)
    (changedAt : ℤ) :
    LaborerDatabase → Except DatabaseError (MutationResult LaborerTask) × LaborerDatabase :=
  writeTransaction fun db => do
    let current ← requireTaskForLabels db taskId
    let remaining := current.labelIds.filter (· ∉ labelIds)
    if remaining.length = current.labelIds.length then
      pure ({ cursor := db.taskCursor, row := current }, db)
    else writeTaskLabels taskId none remaining operationId changedAt db

end NativeLaborerDatabase

end Laborer.Database
