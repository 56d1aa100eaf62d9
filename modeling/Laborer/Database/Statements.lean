import Laborer.Database.Types
import Laborer.Library.ChangeFeed
import Laborer.Library.Table
import Laborer.Library.Transactions

/-!
# The tables and their statements

The shared database with the constraints of its schema, and the statements that
the operations are made of. A statement that breaks a constraint throws; the
transaction around it restores the rest.
-/

namespace Laborer.Database

open Laborer.Library

/-! ## The tables -/

structure TaskNumberCounter where
  rootPath : String
  nextNumber : ℕ

abbrev TaskTable := Table LaborerTask LaborerTask.id

abbrev LabelTable := Table Label Label.id

structure LaborerDatabase where
  tasks : TaskTable
  taskNumberCounters : Table TaskNumberCounter TaskNumberCounter.rootPath
  projects : Table Project Project.id
  settings : Table AppSetting AppSetting.key
  labels : LabelTable
  reviewCommentThreads : Table ReviewCommentThreadRow ReviewCommentThreadRow.id
  reviewCommentReplies : Table ReviewCommentReply ReviewCommentReply.id
  taskChanges : Ledger TaskChange
  stateChanges : Ledger StateChange

def seedLabels (now : ℤ) : LabelTable where
  rows :=
    [{ id := "01KDVDNA00DEFA0000000000FE", name := "FE", color := .blue, createdAt := now,
       updatedAt := now, revision := 1 },
     { id := "01KDVDNA00DEFA0000000000BE", name := "BE", color := .violet, createdAt := now,
       updatedAt := now, revision := 1 },
     { id := "01KDVDNA00DEFA00000000FSTK", name := "Full Stack", color := .emerald,
       createdAt := now, updatedAt := now, revision := 1 }]
  keysNodup := by
    simp

def LaborerDatabase.migrated (now : ℤ) : LaborerDatabase where
  tasks := .empty
  taskNumberCounters := .empty
  projects := .empty
  settings := .empty
  labels := seedLabels now
  reviewCommentThreads := .empty
  reviewCommentReplies := .empty
  taskChanges := .empty
  stateChanges := .empty

namespace LaborerDatabase

/-! ## Tasks -/

/-- `rowToTask`. The types and the checks of the columns exclude its other failures. -/
def rowToTask (row : LaborerTask) : Except DatabaseError LaborerTask :=
  if row.prApprovals.any (· < 0) then
    throw (.error "Laborer database contains an invalid tasks.pr_approvals")
  else pure row

def findTask (db : LaborerDatabase) (id : String) : Except DatabaseError (Option LaborerTask) :=
  match db.tasks.find id with
  | none => pure none
  | some row => some <$> rowToTask row

def requireTask (db : LaborerDatabase) (id : String) : Except DatabaseError LaborerTask := do
  match ← db.findTask id with
  | none => throw (.error s!"Task {id} could not be read after mutation")
  | some row => pure row

/-- The unique indexes and the foreign key of `tasks`, for a row that is about to
be written. -/
def checkTaskRow (tasks : TaskTable) (row : LaborerTask) : Except DatabaseError Unit :=
  if row.executionId.isSome ∧ ∃ other ∈ tasks.rows, other.id ≠ row.id ∧
      other.executionId = row.executionId then
    throw (.sql "UNIQUE constraint failed: tasks.execution_id")
  else if ∃ other ∈ tasks.rows, other.id ≠ row.id ∧ other.rootPath = row.rootPath ∧
      other.taskNumber = row.taskNumber then
    throw (.sql "UNIQUE constraint failed: tasks.root_path, tasks.task_number")
  else if ∃ parent ∈ row.parentTaskId, parent ≠ row.id ∧ tasks.find parent = none then
    throw (.sql "FOREIGN KEY constraint failed")
  else pure ()

/-- The upsert of the trigger `tasks_assign_task_number`. -/
def bumpTaskNumberCounter (counters : Table TaskNumberCounter TaskNumberCounter.rootPath)
    (rootPath : String) : Table TaskNumberCounter TaskNumberCounter.rootPath :=
  match counters.insert { rootPath, nextNumber := 2 } with
  | some counters => counters
  | none =>
    counters.modify rootPath
      (fun counter => { counter with nextNumber := counter.nextNumber + 1 }) fun _ => rfl

/-- The number that the trigger assigns: one less than the counter it leaves. -/
def assignedTaskNumber (counters : Table TaskNumberCounter TaskNumberCounter.rootPath)
    (rootPath : String) : ℕ :=
  (counters.find rootPath).elim 0 fun counter => counter.nextNumber - 1

/-- `INSERT INTO tasks` and its trigger, which replaces the number of the row. -/
def insertTaskRow (db : LaborerDatabase) (row : LaborerTask) :
    Except DatabaseError LaborerDatabase := do
  let counters := bumpTaskNumberCounter db.taskNumberCounters row.rootPath
  let row := { row with taskNumber := assignedTaskNumber counters row.rootPath }
  match db.tasks.insert row with
  | none => throw (.sql "UNIQUE constraint failed: tasks.id")
  | some tasks => do
    checkTaskRow db.tasks row
    pure { db with tasks, taskNumberCounters := counters }

/-- `UPDATE tasks SET … WHERE id = ? AND revision = ?`, with the number of changed
rows; without a revision the guard is left out. -/
def updateTaskRow (db : LaborerDatabase) (id : String) (expectedRevision : Option ℤ)
    (f : LaborerTask → LaborerTask) (hf : ∀ row, (f row).id = row.id) :
    Except DatabaseError (ℕ × LaborerDatabase) :=
  match db.tasks.find id with
  | none => pure (0, db)
  | some row =>
    if expectedRevision.any (· ≠ row.revision) then pure (0, db)
    else do
      checkTaskRow db.tasks (f row)
      pure (1, { db with tasks := db.tasks.modify id f hf })

/-- `DELETE FROM tasks WHERE id = ? AND revision = ?`, with `ON DELETE SET NULL` for
the children. -/
def deleteTaskRow (db : LaborerDatabase) (id : String) (expectedRevision : ℤ) :
    ℕ × LaborerDatabase :=
  match db.tasks.find id with
  | none => (0, db)
  | some row =>
    if row.revision ≠ expectedRevision then (0, db)
    else
      (1, { db with
        tasks := (db.tasks.erase id).mapRows
          (fun row => if row.parentTaskId = some id then { row with parentTaskId := none } else row)
          fun row => by split <;> rfl })

def appendTaskChange (db : LaborerDatabase) (taskId : String) (changedAt : ℤ)
    (operationId : Option String) : ℕ × LaborerDatabase :=
  (db.taskChanges.last + 1,
    { db with taskChanges := db.taskChanges.append { changedAt, operationId, taskId } })

def taskCursor (db : LaborerDatabase) : ℕ :=
  db.taskChanges.maximum.getD 0

/-! ## The state ledger -/

def appendStateChange (db : LaborerDatabase) (tableName : StateChangeTable) (rowId : String)
    (changedAt : ℤ) (operationId : Option String) : ℕ × LaborerDatabase :=
  (db.stateChanges.last + 1,
    { db with
      stateChanges := db.stateChanges.append { changedAt, operationId, rowId, tableName } })

def stateCursor (db : LaborerDatabase) : ℕ :=
  db.stateChanges.maximum.getD 0

end LaborerDatabase

end Laborer.Database
