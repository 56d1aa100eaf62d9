import Laborer.Database.TaskDatabase

/-!
# What an operation writes

An operation that succeeds does one of a few things to the tasks and their ledger,
or leaves them alone and accounts for what it does to the other tables in theirs.
The invariants of the database are derived from these.
-/

namespace Laborer.Database

open Laborer.Library

/-- What an entry of the state ledger names. -/
def StateChange.key (change : StateChange) : StateChangeTable × String :=
  (change.tableName, change.rowId)

/-- The tables that the client keeps a collection of. -/
inductive SharedCollectionName where
  | labels | projects | reviewComments | settings | tasks

def StateChangeTable.collection : StateChangeTable → SharedCollectionName
  | .projects => .projects
  | .appSettings => .settings
  | .labels => .labels
  | .reviewCommentThreads => .reviewComments

namespace LaborerDatabase

/-! ## Tasks -/

/-- A row that the unique indexes and the foreign key of `tasks` allow. -/
structure TaskRowAllowed (tasks : TaskTable) (row : LaborerTask) : Prop where
  executionIdFree : row.executionId.isSome →
    ∀ other ∈ tasks.rows, other.id ≠ row.id → other.executionId ≠ row.executionId
  taskNumberFree : ∀ other ∈ tasks.rows, other.id ≠ row.id → other.rootPath = row.rootPath →
    other.taskNumber ≠ row.taskNumber
  parentExists : ∀ parent ∈ row.parentTaskId, parent ≠ row.id → tasks.find parent ≠ none

/-- The row that an insertion of a row leaves, with its number. -/
def numbered (db : LaborerDatabase) (row : LaborerTask) : LaborerTask :=
  { row with
    taskNumber := assignedTaskNumber
      (bumpTaskNumberCounter db.taskNumberCounters row.rootPath) row.rootPath }

/-- Label ids as a task may carry them. -/
structure LabelIdsAllowed (labels : LabelTable) (labelIds : List String) : Prop where
  nodup : labelIds.Nodup
  length_le : labelIds.length ≤ maxTaskLabels
  known : ∀ id ∈ labelIds, (labels.find id).isSome

def stripped (labelId : String) (changedAt : ℤ) (row : LaborerTask) : LaborerTask :=
  if labelId ∈ row.labelIds then
    relabelled (distinct (row.labelIds.filter (· ≠ labelId))) changedAt row
  else row

theorem stripped_id (labelId : String) (changedAt : ℤ) (row : LaborerTask) :
    (stripped labelId changedAt row).id = row.id := by
  unfold stripped
  split <;> rfl

def carriers (db : LaborerDatabase) (labelId : String) : List LaborerTask :=
  db.tasks.rows.filter fun row => labelId ∈ row.labelIds

/-- The task when the one with the given id is deleted. -/
def orphaned (id : String) (row : LaborerTask) : LaborerTask :=
  if row.parentTaskId = some id then { row with parentTaskId := none } else row

theorem orphaned_id (id : String) (row : LaborerTask) : (orphaned id row).id = row.id := by
  unfold orphaned
  split <;> rfl

theorem orphaned_labelIds (id : String) (row : LaborerTask) :
    (orphaned id row).labelIds = row.labelIds := by
  unfold orphaned
  split <;> rfl

def withoutTask (tasks : TaskTable) (id : String) : TaskTable :=
  (tasks.erase id).mapRows (orphaned id) (orphaned_id id)

/-! ## The other tables -/

inductive StateRow where
  | project (row : Project)
  | setting (row : AppSetting)
  | label (row : Label)
  | reviewCommentThread (row : ReviewCommentThread)

def threadOf (db : LaborerDatabase) (row : ReviewCommentThreadRow) : ReviewCommentThread :=
  { row with
    replies := (db.reviewCommentReplies.rows.filter (·.threadId = row.id)).insertionSort
      fun r r' => before r.createdAt r.id r'.createdAt r'.id }

/-- The row that an entry of the state ledger names. -/
def stateRow (db : LaborerDatabase) : StateChangeTable × String → Option StateRow
  | (.projects, id) => (db.projects.find id).map .project
  | (.appSettings, key) => (db.settings.find key).map .setting
  | (.labels, id) => (db.labels.find id).map .label
  | (.reviewCommentThreads, id) =>
    (db.reviewCommentThreads.find id).map fun row => .reviewCommentThread (db.threadOf row)

/-! ## Writes -/

/-- A write that leaves the tasks and the existing labels alone, and names each row
that it changes in an entry. -/
structure StateWrites (operationId : Option String) (db : LaborerDatabase)
    (entries : List StateChange) (db' : LaborerDatabase) : Prop where
  tasks : db'.tasks = db.tasks
  counters : db'.taskNumberCounters = db.taskNumberCounters
  taskChanges : db'.taskChanges = db.taskChanges
  labels : ∀ id, (db.labels.find id).isSome → (db'.labels.find id).isSome
  stateChanges : db'.stateChanges = db.stateChanges.appendAll entries
  operationIds : ∀ entry ∈ entries, entry.operationId = operationId
  accounted : ∀ key ∉ entries.map StateChange.key, db'.stateRow key = db.stateRow key

/-- A task at a revision, and the root path that it is given. -/
structure Move where
  id : String
  revision : ℤ
  rootPath : String

/-- What an operation asks for one task: a root path, or its deletion. -/
structure Intent where
  moves : Option Move := none
  deletes : Option String := none

/-- **What an operation that succeeds writes**, under an operation id and with
entries for some collections. -/
inductive Writes (operationId : Option String) (intent : Intent) (db : LaborerDatabase) :
    List SharedCollectionName → LaborerDatabase → Prop
  | nothing : Writes operationId intent db [] db
  | insertedTask (row : LaborerTask) (tasks : TaskTable) (changedAt : ℤ)
      (labelIds : LabelIdsAllowed db.labels row.labelIds)
      (allowed : TaskRowAllowed db.tasks (db.numbered row))
      (inserted : db.tasks.insert (db.numbered row) = some tasks) :
      Writes operationId intent db [.tasks]
        { db with
          tasks
          taskNumberCounters := bumpTaskNumberCounter db.taskNumberCounters row.rootPath
          taskChanges := db.taskChanges.append { changedAt, operationId, taskId := row.id } }
  | updatedTask (id : String) (f : LaborerTask → LaborerTask) (hf : ∀ row, (f row).id = row.id)
      (row : LaborerTask) (changedAt : ℤ) (found : db.tasks.find id = some row)
      (labelIds : (f row).labelIds = row.labelIds)
      (taskNumber : (f row).taskNumber = row.taskNumber)
      (rootPath : (f row).rootPath = row.rootPath ∨
        intent.moves = some { id, revision := row.revision, rootPath := (f row).rootPath })
      (allowed : TaskRowAllowed db.tasks (f row)) :
      Writes operationId intent db [.tasks]
        { db with
          tasks := db.tasks.modify id f hf
          taskChanges := db.taskChanges.append { changedAt, operationId, taskId := id } }
  | relabelledTask (id : String) (labelIds : List String) (changedAt : ℤ) (row : LaborerTask)
      (found : db.tasks.find id = some row) (allowed : LabelIdsAllowed db.labels labelIds) :
      Writes operationId intent db [.tasks]
        { db with
          tasks := db.tasks.modify id (relabelled labelIds changedAt) fun _ => rfl
          taskChanges := db.taskChanges.append { changedAt, operationId, taskId := id } }
  | deletedTask (id : String) (changedAt : ℤ) (row : LaborerTask)
      (found : db.tasks.find id = some row) (intended : intent.deletes = some id) :
      Writes operationId intent db [.tasks]
        { db with
          tasks := withoutTask db.tasks id
          taskChanges := db.taskChanges.append { changedAt, operationId, taskId := id } }
  | deletedLabel (id : String) (changedAt : ℤ) (row : Label)
      (found : db.labels.find id = some row) :
      Writes operationId intent db (.labels :: if db.carriers id = [] then [] else [.tasks])
        { db with
          labels := db.labels.erase id
          tasks := db.tasks.mapRows (stripped id changedAt) (stripped_id id changedAt)
          taskChanges := db.taskChanges.appendAll ((db.carriers id).map fun row =>
            { changedAt, operationId, taskId := row.id })
          stateChanges := db.stateChanges.append
            { changedAt, operationId, rowId := id, tableName := .labels } }
  | wroteState (db' : LaborerDatabase) (entries : List StateChange)
      (writes : StateWrites operationId db entries db') :
      Writes operationId intent db (entries.map (·.tableName.collection)) db'

end LaborerDatabase

end Laborer.Database
