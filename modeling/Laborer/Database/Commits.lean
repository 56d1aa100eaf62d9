import Laborer.Database.Operation
import Laborer.Database.TaskBoardDatabase
import Laborer.Library.Revisions

/-!
# Commits

What an operation that succeeds leaves of the revisions and the ledgers: every row
that it changed is at its next revision, and has one new entry.
-/

namespace Laborer.Database

open Laborer.Library List

/-! ## Rows under their tables -/

abbrev RowKey := LaborerDatabaseTable × String

def StateChangeTable.table : StateChangeTable → LaborerDatabaseTable
  | .projects => .projects
  | .appSettings => .appSettings
  | .labels => .labels
  | .reviewCommentThreads => .reviewCommentThreads

def TaskChange.rowKey (change : TaskChange) : RowKey := (.tasks, change.taskId)

def StateChange.rowKey (change : StateChange) : RowKey := (change.tableName.table, change.rowId)

def CurrentRow.revision : CurrentRow → ℤ
  | .task row => row.revision
  | .project row => row.revision
  | .setting row => row.revision
  | .label row => row.revision
  | .reviewCommentThread row => row.revision

namespace LaborerDatabase

/-- The row under a key. Replies are rows of their thread. -/
def row (db : LaborerDatabase) : RowKey → Option CurrentRow
  | (.tasks, id) => (db.tasks.find id).map .task
  | (.projects, id) => (db.projects.find id).map .project
  | (.appSettings, key) => (db.settings.find key).map .setting
  | (.labels, id) => (db.labels.find id).map .label
  | (.reviewCommentThreads, id) =>
    (db.reviewCommentThreads.find id).map fun row => .reviewCommentThread (db.threadOf row)
  | (.reviewCommentReplies, _) => none

/-- **A commit**, with the entries that it appended to the two ledgers. -/
structure Commits (db db' : LaborerDatabase) (tasks : List TaskChange) (states : List StateChange) :
    Prop where
  taskChanges : db'.taskChanges = db.taskChanges.appendAll tasks
  stateChanges : db'.stateChanges = db.stateChanges.appendAll states
  revises : Revises CurrentRow.revision db.row db'.row
    (tasks.map TaskChange.rowKey ++ states.map StateChange.rowKey)

namespace Commits

variable {db db' db'' : LaborerDatabase} {operationId : Option String} {changedAt : ℤ}

theorem refl (db : LaborerDatabase) : Commits db db [] [] :=
  ⟨by simp, by simp, .refl _⟩

theorem key_notMem {table : LaborerDatabaseTable} {key key' : String}
    (h : (table, key') ≠ (table, key)) : key' ∉ [key] := by
  intro hmem
  rw [mem_singleton.mp hmem] at h
  exact h rfl

theorem task {tasks : TaskTable} (counters : Table TaskNumberCounter TaskNumberCounter.rootPath)
    {id : String} (h : Revises LaborerTask.revision db.tasks.find tasks.find [id]) :
    Commits db { db with
      tasks
      taskNumberCounters := counters
      taskChanges := db.taskChanges.append { changedAt, operationId, taskId := id } }
      [{ changedAt, operationId, taskId := id }] [] := by
  refine ⟨rfl, by simp, h.lift CurrentRow.task (fun _ => rfl) rfl rfl ?_⟩
  rintro ⟨table, id'⟩ hkey
  cases table with
  | tasks => exact congrArg (Option.map _) (h.same (key_notMem hkey))
  | _ => rfl

theorem entry {tableName : StateChangeTable} {rowId : String}
    (htasks : db'.taskChanges = db.taskChanges) (hstates : db'.stateChanges = db.stateChanges)
    (h : Revises CurrentRow.revision db.row db'.row [(tableName.table, rowId)]) :
    Commits db (db'.appendStateChange tableName rowId changedAt operationId).2
      [] [{ changedAt, operationId, rowId, tableName }] := by
  refine ⟨?_, ?_, h⟩
  · change db'.taskChanges = _
    rw [htasks, Ledger.appendAll_nil]
  · change db'.stateChanges.append _ = _
    rw [hstates]
    rfl

theorem project {projects : Table Project Project.id} {id : String}
    (h : Revises Project.revision db.projects.find projects.find [id]) :
    Commits db ({ db with projects }.appendStateChange .projects id changedAt operationId).2
      [] [{ changedAt, operationId, rowId := id, tableName := .projects }] := by
  refine .entry rfl rfl (h.lift CurrentRow.project (fun _ => rfl) rfl rfl ?_)
  rintro ⟨table, id'⟩ hkey
  cases table with
  | projects => exact congrArg (Option.map _) (h.same (key_notMem hkey))
  | _ => rfl

theorem setting {settings : Table AppSetting AppSetting.key} {key : String}
    (h : Revises AppSetting.revision db.settings.find settings.find [key]) :
    Commits db ({ db with settings }.appendStateChange .appSettings key changedAt operationId).2
      [] [{ changedAt, operationId, rowId := key, tableName := .appSettings }] := by
  refine .entry rfl rfl (h.lift CurrentRow.setting (fun _ => rfl) rfl rfl ?_)
  rintro ⟨table, key'⟩ hkey
  cases table with
  | appSettings =>
    exact congrArg (Option.map _) (h.same (key_notMem hkey))
  | _ => rfl

theorem label {labels : LabelTable} {id : String}
    (h : Revises Label.revision db.labels.find labels.find [id]) :
    Commits db ({ db with labels }.appendStateChange .labels id changedAt operationId).2
      [] [{ changedAt, operationId, rowId := id, tableName := .labels }] := by
  refine .entry rfl rfl (h.lift CurrentRow.label (fun _ => rfl) rfl rfl ?_)
  rintro ⟨table, id'⟩ hkey
  cases table with
  | labels => exact congrArg (Option.map _) (h.same (key_notMem hkey))
  | _ => rfl

theorem trans {tasks : List TaskChange} {states states' : List StateChange}
    (h : Commits db db' tasks states) (h' : Commits db' db'' [] states')
    (hdisjoint : (states.map StateChange.rowKey).Disjoint (states'.map StateChange.rowKey)) :
    Commits db db'' tasks (states ++ states') := by
  refine ⟨?_, ?_, ?_⟩
  · rw [h'.taskChanges, h.taskChanges, Ledger.appendAll_nil]
  · rw [h'.stateChanges, h.stateChanges, Ledger.appendAll_append]
  · rw [map_append, ← append_assoc]
    refine h.revises.trans h'.revises ?_
    intro key hkey hkey'
    rcases mem_append.mp hkey with hkey | hkey
    · obtain ⟨change, -, rfl⟩ := mem_map.mp hkey
      obtain ⟨change', -, heq⟩ := mem_map.mp hkey'
      -- no entry of the state ledger names a task
      cases htable : change'.tableName <;>
        simp [TaskChange.rowKey, StateChange.rowKey, StateChangeTable.table, htable] at heq
    · exact hdisjoint hkey hkey'

end Commits

end LaborerDatabase

end Laborer.Database
