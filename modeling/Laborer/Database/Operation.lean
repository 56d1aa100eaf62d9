import Laborer.Database.StateWrites
import Laborer.Library.Runs

/-!
# Operations

Every operation of the two databases as one type, and the step that each is for
the database. What succeeds writes as its lemma says, what fails writes nothing.
-/

namespace Laborer.Database

open Laborer.Library

/-- An operation with its arguments, the time it reads and the ids it mints. -/
inductive Operation where
  | insertTask (input : NewLaborerTask) (operationId : Option String) (changedAt : ℤ)
  | adoptWorktreeTask (input : AdoptedWorktree) (changedAt : ℤ)
  | updateTask (id : String) (expectedRevision : ℤ) (patch : LaborerTaskPatch)
      (operationId : Option String) (changedAt : ℤ)
  | deleteTask (id : String) (expectedRevision : ℤ) (operationId : Option String) (changedAt : ℤ)
  | insertProject (input : NewProject) (operationId : Option String) (changedAt : ℤ)
  | updateProject (id : String) (expectedRevision : ℤ) (patch : ProjectPatch)
      (operationId : Option String) (changedAt : ℤ)
  | moveProject (id : String) (expectedRevision : ℤ) (sortOrder : Option ℚ)
      (operationId : Option String) (changedAt : ℤ)
  | reorderProjects (assignments : List ProjectReorderAssignment) (operationId : String)
      (changedAt : ℤ)
  | deleteProject (id : String) (expectedRevision : ℤ) (operationId : Option String)
      (changedAt : ℤ)
  | createLabel (taskUlid : String) (input : NewLabel) (operationId : Option String)
      (changedAt : ℤ)
  | updateLabel (id : String) (expectedRevision : Option ℤ) (patch : LabelPatch)
      (operationId : Option String) (changedAt : ℤ)
  | deleteLabel (id : String) (expectedRevision : Option ℤ) (operationId : Option String)
      (changedAt : ℤ)
  | setTaskLabels (taskId : String) (expectedRevision : Option ℤ) (labelIds : List String)
      (operationId : Option String) (changedAt : ℤ)
  | addTaskLabels (taskId : String) (labelIds : List String) (operationId : Option String)
      (changedAt : ℤ)
  | removeTaskLabels (taskId : String) (labelIds : List String) (operationId : Option String)
      (changedAt : ℤ)
  | insertSetting (key value : String) (operationId : Option String) (changedAt : ℤ)
  | setSetting (key : String) (expectedRevision : ℤ) (value : String)
      (operationId : Option String) (changedAt : ℤ)
  | updateSetting (key : String) (expectedRevision : ℤ) (value : String)
      (operationId : Option String) (changedAt : ℤ)
  | deleteSetting (key : String) (expectedRevision : ℤ) (operationId : Option String)
      (changedAt : ℤ)
  | createReviewCommentThread (taskUlid replyUlid : String) (input : NewReviewCommentThread)
      (author : ReviewCommentAuthor) (operationId : Option String) (changedAt : ℤ)
  | appendReviewCommentReply (taskUlid : String) (input : NewReviewCommentReply)
      (author : ReviewCommentAuthor) (operationId : Option String) (changedAt : ℤ)
  | updateReviewCommentReply (replyId body : String) (author : ReviewCommentAuthor)
      (operationId : Option String) (changedAt : ℤ)
  | setReviewCommentThreadStatus (id : String) (expectedRevision : ℤ)
      (status : ReviewCommentStatus) (operationId : Option String) (changedAt : ℤ)
  | deleteReviewCommentThread (id : String) (expectedRevision : ℤ) (operationId : Option String)
      (changedAt : ℤ)
  | deleteReviewCommentThreadsForWorkspace (workspaceId : String) (operationId : Option String)
      (changedAt : ℤ)
  /-- `insert` of the task database. -/
  | insert (input : NewTask) (changedAt : ℤ)
  /-- `update` of the task database. -/
  | update (id : String) (expectedRevision : Option ℤ) (patch : TaskPatch) (changedAt : ℤ)

def forget {α : Type} (result : Except DatabaseError α × LaborerDatabase) :
    Except DatabaseError Unit × LaborerDatabase :=
  (result.1.map fun _ => (), result.2)

open NativeLaborerDatabase in
def Operation.run (toLowerCase : String → String) (db : LaborerDatabase) :
    Operation → Except DatabaseError Unit × LaborerDatabase
  | .insertTask input operationId changedAt =>
    forget (NativeLaborerDatabase.insertTask input operationId changedAt db)
  | .adoptWorktreeTask input changedAt =>
    forget (NativeLaborerDatabase.adoptWorktreeTask input changedAt db)
  | .updateTask id expectedRevision patch operationId changedAt =>
    forget (NativeLaborerDatabase.updateTask id expectedRevision patch operationId changedAt db)
  | .deleteTask id expectedRevision operationId changedAt =>
    forget (NativeLaborerDatabase.deleteTask id expectedRevision operationId changedAt db)
  | .insertProject input operationId changedAt =>
    forget (NativeLaborerDatabase.insertProject input operationId changedAt db)
  | .updateProject id expectedRevision patch operationId changedAt =>
    forget (NativeLaborerDatabase.updateProject id expectedRevision patch operationId changedAt db)
  | .moveProject id expectedRevision sortOrder operationId changedAt =>
    forget (NativeLaborerDatabase.moveProject id expectedRevision sortOrder operationId
      changedAt db)
  | .reorderProjects assignments operationId changedAt =>
    forget (NativeLaborerDatabase.reorderProjects assignments operationId changedAt db)
  | .deleteProject id expectedRevision operationId changedAt =>
    forget (NativeLaborerDatabase.deleteProject id expectedRevision operationId changedAt db)
  | .createLabel taskUlid input operationId changedAt =>
    forget (NativeLaborerDatabase.createLabel toLowerCase taskUlid input operationId changedAt db)
  | .updateLabel id expectedRevision patch operationId changedAt =>
    forget (NativeLaborerDatabase.updateLabel id expectedRevision patch operationId changedAt db)
  | .deleteLabel id expectedRevision operationId changedAt =>
    forget (NativeLaborerDatabase.deleteLabel id expectedRevision operationId changedAt db)
  | .setTaskLabels taskId expectedRevision labelIds operationId changedAt =>
    forget (NativeLaborerDatabase.setTaskLabels taskId expectedRevision labelIds operationId
      changedAt db)
  | .addTaskLabels taskId labelIds operationId changedAt =>
    forget (NativeLaborerDatabase.addTaskLabels taskId labelIds operationId changedAt db)
  | .removeTaskLabels taskId labelIds operationId changedAt =>
    forget (NativeLaborerDatabase.removeTaskLabels taskId labelIds operationId changedAt db)
  | .insertSetting key value operationId changedAt =>
    forget (NativeLaborerDatabase.insertSetting key value operationId changedAt db)
  | .setSetting key expectedRevision value operationId changedAt =>
    forget (NativeLaborerDatabase.setSetting key expectedRevision value operationId changedAt db)
  | .updateSetting key expectedRevision value operationId changedAt =>
    forget (NativeLaborerDatabase.updateSetting key expectedRevision value operationId changedAt db)
  | .deleteSetting key expectedRevision operationId changedAt =>
    forget (NativeLaborerDatabase.deleteSetting key expectedRevision operationId changedAt db)
  | .createReviewCommentThread taskUlid replyUlid input author operationId changedAt =>
    forget (NativeLaborerDatabase.createReviewCommentThread taskUlid replyUlid input author
      operationId changedAt db)
  | .appendReviewCommentReply taskUlid input author operationId changedAt =>
    forget (NativeLaborerDatabase.appendReviewCommentReply taskUlid input author operationId
      changedAt db)
  | .updateReviewCommentReply replyId body author operationId changedAt =>
    forget (NativeLaborerDatabase.updateReviewCommentReply replyId body author operationId
      changedAt db)
  | .setReviewCommentThreadStatus id expectedRevision status operationId changedAt =>
    forget (NativeLaborerDatabase.setReviewCommentThreadStatus id expectedRevision status
      operationId changedAt db)
  | .deleteReviewCommentThread id expectedRevision operationId changedAt =>
    forget (NativeLaborerDatabase.deleteReviewCommentThread id expectedRevision operationId
      changedAt db)
  | .deleteReviewCommentThreadsForWorkspace workspaceId operationId changedAt =>
    forget (NativeLaborerDatabase.deleteReviewCommentThreadsForWorkspace workspaceId operationId
      changedAt db)
  | .insert input changedAt => forget (TaskDatabase.insert input changedAt db)
  | .update id expectedRevision patch changedAt =>
    forget (TaskDatabase.update id expectedRevision patch changedAt db)

def Operation.intent : Operation → LaborerDatabase.Intent
  | .updateTask id expectedRevision patch _ _ =>
    { moves := patch.rootPath.map (.mk id expectedRevision) }
  | .deleteTask id _ _ _ => { deletes := some id }
  | _ => {}

def Operation.step (toLowerCase : String → String) (operation : Operation) (db : LaborerDatabase) :
    LaborerDatabase :=
  (operation.run toLowerCase db).2

/-! ## Failures -/

variable {db : LaborerDatabase} {result : Except DatabaseError α × LaborerDatabase} {α : Type}

theorem forget_eq_ok : forget result = (.ok (), db) ↔ ∃ a, result = (.ok a, db) := by
  obtain ⟨outcome, db'⟩ := result
  cases outcome with
  | error e => simp [forget, Except.map]
  | ok a =>
    simp [forget, Except.map]

variable {e : DatabaseError}

theorem forget_error (h : (forget result).1 = .error e) : result.1 = .error e := by
  obtain ⟨outcome, db'⟩ := result
  cases outcome with
  | error e' =>
    cases h
    rfl
  | ok a => cases h

variable {changedAt : ℤ}

theorem NativeLaborerDatabase.insertSetting_error {key value : String}
    {operationId : Option String} {db' : LaborerDatabase}
    (h : insertSetting key value operationId changedAt db = (.error e, db')) : db' = db := by
  have hsame : (insertSetting key value operationId changedAt db).2 = db :=
    transaction_error (congrArg Prod.fst h)
  rwa [h] at hsame

theorem NativeLaborerDatabase.setSetting_error {key value : String} {revision : ℤ}
    {operationId : Option String}
    (h : (setSetting key revision value operationId changedAt db).1 = .error e) :
    (setSetting key revision value operationId changedAt db).2 = db := by
  unfold setSetting at h ⊢
  split
  · next hrevision =>
    rw [if_pos hrevision] at h
    exact transaction_error h
  · next hrevision =>
    rw [if_neg hrevision] at h
    cases hinsert : insertSetting key value operationId changedAt db with
    | mk outcome db' =>
      rw [hinsert] at h
      cases outcome with
      | ok result => cases h
      | error e' =>
        dsimp only
        split
        · exact insertSetting_error hinsert
        · exact insertSetting_error hinsert

theorem TaskDatabase.insert_error {input : NewTask} (h : (insert input changedAt db).1 = .error e) :
    (insert input changedAt db).2 = db := by
  cases hinsert : insert input changedAt db with
  | mk outcome db' =>
    rw [hinsert] at h
    subst h
    exact (insert_writes hinsert).2 rfl

theorem forget_rollback
    (hrollback : ∀ e, result.1 = .error e → result.2 = db) (h : (forget result).1 = .error e) :
    (forget result).2 = db :=
  hrollback e (forget_error h)

/-- **An operation that fails leaves the database as it was.** -/
theorem Operation.run_error {toLowerCase : String → String} {operation : Operation}
    (h : (operation.run toLowerCase db).1 = .error e) : (operation.run toLowerCase db).2 = db := by
  cases operation with
  -- these two go on after their transaction
  | setSetting => exact forget_rollback (fun _ => NativeLaborerDatabase.setSetting_error) h
  | insert => exact forget_rollback (fun _ => TaskDatabase.insert_error) h
  | createLabel =>
    refine forget_rollback (fun _ he => ?_) h
    unfold NativeLaborerDatabase.createLabel at he ⊢
    exact transaction_error he
  | appendReviewCommentReply =>
    refine forget_rollback (fun _ he => ?_) h
    unfold NativeLaborerDatabase.appendReviewCommentReply at he ⊢
    exact transaction_error he
  | updateReviewCommentReply =>
    refine forget_rollback (fun _ he => ?_) h
    unfold NativeLaborerDatabase.updateReviewCommentReply at he ⊢
    exact transaction_error he
  | _ => exact forget_rollback (fun _ => transaction_error) h

/-! ## Successes -/

def LabelsOk (db : LaborerDatabase) : Prop :=
  ∀ row ∈ db.tasks.rows, LaborerDatabase.LabelIdsAllowed db.labels row.labelIds

open NativeLaborerDatabase in
/-- **What an operation that succeeds writes.** -/
theorem Operation.run_writes {toLowerCase : String → String} {db' : LaborerDatabase}
    (hlabels : LabelsOk db) {operation : Operation}
    (h : operation.run toLowerCase db = (.ok (), db')) :
    ∃ operationId collections,
      LaborerDatabase.Writes operationId operation.intent db collections db' := by
  have hnodup : ∀ row ∈ db.tasks.rows, row.labelIds.Nodup := fun row hrow =>
    (hlabels row hrow).nodup
  cases operation with obtain ⟨_, h⟩ := forget_eq_ok.mp h
  | insertTask => exact ⟨_, _, insertTask_writes h⟩
  | adoptWorktreeTask => exact ⟨_, _, adoptWorktreeTask_writes h⟩
  | updateTask => exact ⟨_, _, updateTask_writes h⟩
  | deleteTask => exact ⟨_, _, deleteTask_writes h⟩
  | insertProject => exact ⟨_, _, insertProject_writes h⟩
  | updateProject => exact ⟨_, _, updateProject_writes h⟩
  | moveProject => exact ⟨_, _, updateProject_writes h⟩
  | reorderProjects => exact ⟨_, _, reorderProjects_writes h⟩
  | deleteProject => exact ⟨_, _, deleteProject_writes h⟩
  | createLabel => exact ⟨_, _, createLabel_writes h⟩
  | updateLabel => exact ⟨_, _, updateLabel_writes h⟩
  | deleteLabel => exact ⟨_, _, deleteLabel_writes h⟩
  | setTaskLabels => exact ⟨_, _, setTaskLabels_writes h⟩
  | addTaskLabels =>
    obtain ⟨_, -, hwrites⟩ := addTaskLabels_writes hnodup h
    exact ⟨_, _, hwrites⟩
  | removeTaskLabels =>
    obtain ⟨_, -, hwrites⟩ := removeTaskLabels_writes hnodup h
    exact ⟨_, _, hwrites⟩
  | insertSetting => exact ⟨_, _, insertSetting_writes h⟩
  | setSetting => exact ⟨_, _, setSetting_writes h⟩
  | updateSetting => exact ⟨_, _, updateSetting_writes h⟩
  | deleteSetting => exact ⟨_, _, deleteSetting_writes h⟩
  | createReviewCommentThread =>
    exact ⟨_, _, createReviewCommentThread_writes h⟩
  | appendReviewCommentReply =>
    obtain ⟨_, -, hwrites⟩ := appendReviewCommentReply_writes h
    exact ⟨_, _, hwrites⟩
  | updateReviewCommentReply =>
    exact ⟨_, _, updateReviewCommentReply_writes h⟩
  | setReviewCommentThreadStatus =>
    exact ⟨_, _, setReviewCommentThreadStatus_writes h⟩
  | deleteReviewCommentThread =>
    exact ⟨_, _, deleteReviewCommentThread_writes h⟩
  | deleteReviewCommentThreadsForWorkspace =>
    exact ⟨_, _, deleteReviewCommentThreadsForWorkspace_writes h⟩
  | insert => exact ⟨_, _, (TaskDatabase.insert_writes h).1⟩
  | update =>
    exact ⟨_, _, TaskDatabase.update_writes h⟩

theorem Operation.step_writes {toLowerCase : String → String} (hlabels : LabelsOk db)
    (operation : Operation) : operation.step toLowerCase db = db ∨
      (operation.run toLowerCase db).1 = .ok () ∧ ∃ operationId collections,
        db.Writes operationId operation.intent collections (operation.step toLowerCase db) := by
  cases houtcome : (operation.run toLowerCase db).1 with
  | error e => exact .inl (run_error houtcome)
  | ok _ => exact .inr ⟨rfl, run_writes hlabels (Prod.ext houtcome rfl)⟩

end Laborer.Database
