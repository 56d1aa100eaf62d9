import Laborer.Database.StateCommits

/-!
# Writers

The writers of both database implementations, with the revisions that they are given.
What succeeds is a commit, and what throws leaves the database as it was.
-/

namespace Laborer.Database

open Laborer.Library

inductive BoardOperation where
  | insert (input : NewTask) (changedAt : ℤ)
  | update (id : String) (expectedRevision : Option ℤ) (patch : TaskPatch) (changedAt : ℤ)
  | move (id : String) (expectedRevision : ℤ) (status : TaskStatus) (changedAt : ℤ)
  | adoptWorktreeTask (input : AdoptedWorktree) (changedAt : ℤ)
  | transitionTaskForPr (input : PrTaskTransitionInput) (changedAt : ℤ)

def forgetBoard {α : Type} (result : Except BoardError α × LaborerDatabase) :
    Except BoardError Unit × LaborerDatabase :=
  (result.1.map fun _ => (), result.2)

def BoardOperation.run (toUpperCase : String → String) (db : LaborerDatabase) :
    BoardOperation → Except BoardError Unit × LaborerDatabase
  | .insert input changedAt => forgetBoard (TaskBoardDatabase.insert input changedAt db)
  | .update id expectedRevision patch changedAt =>
    forgetBoard (TaskBoardDatabase.update id expectedRevision patch changedAt db)
  | .move id expectedRevision status changedAt =>
    forgetBoard (TaskBoardDatabase.move id expectedRevision status changedAt db)
  | .adoptWorktreeTask input changedAt =>
    forgetBoard (TaskBoardDatabase.adoptWorktreeTask input changedAt db)
  | .transitionTaskForPr input changedAt =>
    forgetBoard (TaskBoardDatabase.transitionTaskForPr toUpperCase input changedAt db)

inductive Writer where
  | native (operation : Operation)
  | board (operation : BoardOperation)

def Writer.run (toLowerCase toUpperCase : String → String) (db : LaborerDatabase) :
    Writer → Except BoardError Unit × LaborerDatabase
  | .native operation =>
    ((operation.run toLowerCase db).1.mapError .database, (operation.run toLowerCase db).2)
  | .board operation => operation.run toUpperCase db

/-! ## Expected revisions -/

/-- The rows that an operation writes at a revision that it is given. -/
def Operation.expected : Operation → List (RowKey × ℤ)
  | .updateTask id revision _ _ _ => [((.tasks, id), revision)]
  | .deleteTask id revision _ _ => [((.tasks, id), revision)]
  | .setTaskLabels id revision _ _ _ => revision.toList.map fun revision => ((.tasks, id), revision)
  | .update id revision _ _ => revision.toList.map fun revision => ((.tasks, id), revision)
  | .updateProject id revision _ _ _ => [((.projects, id), revision)]
  | .moveProject id revision _ _ _ => [((.projects, id), revision)]
  | .reorderProjects assignments _ _ => assignments.map fun assignment =>
      ((.projects, assignment.projectId), assignment.expectedRevision)
  | .deleteProject id revision _ _ => [((.projects, id), revision)]
  | .updateLabel id revision _ _ _ => revision.toList.map fun revision => ((.labels, id), revision)
  | .deleteLabel id revision _ _ => revision.toList.map fun revision => ((.labels, id), revision)
  | .setSetting key revision _ _ _ => [((.appSettings, key), revision)]
  | .updateSetting key revision _ _ _ => [((.appSettings, key), revision)]
  | .deleteSetting key revision _ _ => [((.appSettings, key), revision)]
  | .setReviewCommentThreadStatus id revision _ _ _ => [((.reviewCommentThreads, id), revision)]
  | .deleteReviewCommentThread id revision _ _ => [((.reviewCommentThreads, id), revision)]
  | _ => []

def BoardOperation.expected : BoardOperation → List (RowKey × ℤ)
  | .update id revision _ _ => revision.toList.map fun revision => ((.tasks, id), revision)
  | .move id revision _ _ => [((.tasks, id), revision)]
  | _ => []

def Writer.expected : Writer → List (RowKey × ℤ)
  | .native operation => operation.expected
  | .board operation => operation.expected

/-- A write that answers for every row it changes: none of a review reply, and no
deletion of a task that is the parent of another. -/
def Operation.Covered (db : LaborerDatabase) : Operation → Prop
  | .createReviewCommentThread .. => False
  | .appendReviewCommentReply .. => False
  | .updateReviewCommentReply .. => False
  | .deleteTask id _ _ _ =>
    ∀ child ∈ db.tasks.rows, child.id ≠ id → child.parentTaskId ≠ some id
  | _ => True

def Writer.Covered (db : LaborerDatabase) : Writer → Prop
  | .native operation => operation.Covered db
  | .board _ => True

/-- What a writer is told that comes second, of the rows that the first left: the
row that it lost to, or that a task has the status already that it was to move to. -/
def Writer.Refused (before after : LaborerDatabase) : Writer → Except BoardError Unit → Prop
  | .board (.move id _ status _), outcome =>
    outcome = match TaskDatabase.find after id with
      | none => .error (.database (.error s!"Task not found: {id}"))
      | some task =>
        if task.status = status then .ok ()
        else .error (.database (.error s!"Task changed while moving: {id}"))
  | .board (.update id revision _ _), outcome =>
    ∃ r ∈ revision, outcome = .error (.caused s!"Task {id} has a stale revision"
      (.taskStaleRevision id r (TaskDatabase.find after id)))
  | .native (.update id revision _ _), outcome =>
    ∃ r ∈ revision,
      outcome = .error (.database (.taskStaleRevision id r (TaskDatabase.find after id)))
  | writer, outcome =>
    ∃ key ∈ writer.expected.map Prod.fst, after.row key ≠ before.row key ∧
      ∃ revision,
        outcome = .error (.database (.staleRevision key.1 key.2 revision (after.row key)))

/-! ## Every success is a commit -/

open NativeLaborerDatabase LaborerDatabase

variable {toLowerCase toUpperCase : String → String} {db db' : LaborerDatabase} {changedAt : ℤ}
  {e : BoardError}

/-- **What succeeds commits.** -/
theorem Operation.commits {operation : Operation} (hcovered : operation.Covered db)
    (h : operation.run toLowerCase db = (.ok (), db')) :
    ∃ tasks states, Commits db db' tasks states := by
  cases operation with obtain ⟨_, h⟩ := forget_eq_ok.mp h
  | insertTask => exact ⟨_, _, insertTask_commits h⟩
  | adoptWorktreeTask => exact ⟨_, _, NativeLaborerDatabase.adoptWorktreeTask_commits h⟩
  | updateTask => exact ⟨_, _, (updateTask_commits h).1⟩
  | deleteTask => exact ⟨_, _, (deleteTask_commits h).2.2 hcovered⟩
  | insertProject => exact ⟨_, insertProject_commits h⟩
  | updateProject => exact ⟨_, _, (updateProject_commits h).1⟩
  | moveProject => exact ⟨_, _, (updateProject_commits h).1⟩
  | reorderProjects => exact ⟨_, _, (reorderProjects_commits h).1⟩
  | deleteProject => exact ⟨_, _, (deleteProject_commits h).1⟩
  | createLabel => exact ⟨_, createLabel_commits h⟩
  | updateLabel => exact ⟨_, _, (updateLabel_commits h).1⟩
  | deleteLabel =>
    obtain ⟨tasks, hcommits⟩ := (deleteLabel_commits h).1
    exact ⟨tasks, _, hcommits⟩
  | setTaskLabels => exact ⟨_, _, (setTaskLabels_commits h).1⟩
  | addTaskLabels =>
    obtain ⟨tasks, hcommits⟩ := addTaskLabels_commits h
    exact ⟨tasks, _, hcommits⟩
  | removeTaskLabels =>
    obtain ⟨tasks, hcommits⟩ := removeTaskLabels_commits h
    exact ⟨tasks, _, hcommits⟩
  | insertSetting => exact ⟨_, _, (insertSetting_commits h).1⟩
  | setSetting => exact ⟨_, _, (setSetting_commits h).1⟩
  | updateSetting => exact ⟨_, _, (updateSetting_commits h).1⟩
  | deleteSetting => exact ⟨_, _, (deleteSetting_commits h).1⟩
  | setReviewCommentThreadStatus => exact ⟨_, _, (setReviewCommentThreadStatus_commits h).1⟩
  | deleteReviewCommentThread => exact ⟨_, _, (deleteReviewCommentThread_commits h).1⟩
  | deleteReviewCommentThreadsForWorkspace =>
    exact ⟨_, deleteReviewCommentThreadsForWorkspace_commits h⟩
  | insert =>
    obtain ⟨tasks, hcommits⟩ := TaskDatabase.insert_commits h
    exact ⟨tasks, _, hcommits⟩
  | update => exact ⟨_, _, (TaskDatabase.update_commits h).1⟩
  | _ => exact hcovered.elim

theorem forgetBoard_eq_ok {α : Type} {result : Except BoardError α × LaborerDatabase} :
    forgetBoard result = (.ok (), db) ↔ ∃ a, result = (.ok a, db) := by
  obtain ⟨outcome, db'⟩ := result
  cases outcome with
  | error e => simp [forgetBoard, Except.map]
  | ok a => simp [forgetBoard, Except.map]

theorem TaskBoardDatabase.insert_eq_ok {input : NewTask} {task : Task}
    (h : TaskBoardDatabase.insert input changedAt db = (.ok task, db')) :
    ∃ inserted, TaskDatabase.insert input changedAt db = (.ok (task, inserted), db') := by
  unfold TaskBoardDatabase.insert at h
  cases hinsert : TaskDatabase.insert input changedAt db with
  | mk outcome db₁ =>
    rw [hinsert] at h
    cases outcome with
    | error e => cases h
    | ok result =>
      cases h
      exact ⟨result.2, rfl⟩

theorem TaskBoardDatabase.update_eq_ok {id : String} {revision : Option ℤ} {patch : TaskPatch}
    {task : Task}
    (h : TaskBoardDatabase.update id revision patch changedAt db = (.ok task, db')) :
    TaskDatabase.update id revision patch changedAt db = (.ok task, db') := by
  unfold TaskBoardDatabase.update at h
  cases hupdate : TaskDatabase.update id revision patch changedAt db with
  | mk outcome db₁ =>
    rw [hupdate] at h
    cases outcome with
    | error e => cases h
    | ok task' =>
      cases h
      rfl

theorem BoardOperation.commits {operation : BoardOperation}
    (h : operation.run toUpperCase db = (.ok (), db')) : ∃ tasks, Commits db db' tasks [] := by
  cases operation with obtain ⟨_, h⟩ := forgetBoard_eq_ok.mp h
  | insert =>
    obtain ⟨_, h⟩ := TaskBoardDatabase.insert_eq_ok h
    exact TaskDatabase.insert_commits h
  | update => exact ⟨_, (TaskDatabase.update_commits (TaskBoardDatabase.update_eq_ok h)).1⟩
  | move =>
    rcases TaskBoardDatabase.move_commits h with rfl | ⟨hcommits, -⟩
    · exact ⟨_, .refl db'⟩
    · exact ⟨_, hcommits⟩
  | adoptWorktreeTask => exact TaskBoardDatabase.adoptWorktreeTask_commits h
  | transitionTaskForPr =>
    exact TaskBoardDatabase.transitionTaskForPr_commits h

theorem forgetBoard_rollback {α : Type} {result : Except BoardError α × LaborerDatabase}
    (hrollback : ∀ e, result.1 = .error e → result.2 = db)
    (h : (forgetBoard result).1 = .error e) : (forgetBoard result).2 = db := by
  obtain ⟨outcome, db'⟩ := result
  cases outcome with
  | error e' => exact hrollback e' rfl
  | ok a => cases h

theorem TaskBoardDatabase.transitionAttempts_error {input : PrTaskTransitionInput} {attempts : ℕ}
    (h : (transitionAttempts toUpperCase input changedAt attempts db).1 = .error e) :
    (transitionAttempts toUpperCase input changedAt attempts db).2 = db := by
  induction attempts with
  | zero => rfl
  | succ attempts ih =>
    have hrollback : ∀ e, (transitionAttempt toUpperCase input changedAt db).1 = .error e →
        (transitionAttempt toUpperCase input changedAt db).2 = db := fun _ => transaction_error
    unfold transitionAttempts at h ⊢
    cases hattempt : transitionAttempt toUpperCase input changedAt db with
    | mk outcome db₁ =>
      rw [hattempt] at h hrollback
      cases outcome with
      | ok updated => cases h
      | error error =>
        cases hrollback error rfl
        dsimp only at h ⊢
        by_cases hlast : error ≠ .stalePrTaskTransition ∨ attempts = 0
        · rw [if_pos hlast]
        · rw [if_neg hlast] at h ⊢
          exact ih h

theorem BoardOperation.run_error {operation : BoardOperation}
    (h : (operation.run toUpperCase db).1 = .error e) : (operation.run toUpperCase db).2 = db := by
  cases operation with (try refine forgetBoard_rollback (fun e he => ?_) h)
  | insert input changedAt =>
    unfold TaskBoardDatabase.insert at he ⊢
    cases hinsert : (TaskDatabase.insert input changedAt db).1 with
    | error e' => exact TaskDatabase.insert_error hinsert
    | ok result =>
      dsimp only at he
      rw [hinsert] at he
      cases he
  | update id revision patch changedAt =>
    unfold TaskBoardDatabase.update at he ⊢
    cases hupdate : (TaskDatabase.update id revision patch changedAt db).1 with
    | error e' => exact transaction_error hupdate
    | ok task =>
      dsimp only at he
      rw [hupdate] at he
      cases he
  | move id revision status changedAt =>
    unfold TaskBoardDatabase.move at he ⊢
    split
    · rfl
    · next hpositive =>
      rw [if_neg hpositive] at he
      exact transaction_error he
  | adoptWorktreeTask => exact forgetBoard_rollback (fun _ => transaction_error) h
  | transitionTaskForPr input changedAt =>
    unfold TaskBoardDatabase.transitionTaskForPr at he ⊢
    split
    · rfl
    · next hstate =>
      rw [if_neg hstate] at he
      exact TaskBoardDatabase.transitionAttempts_error he

theorem Writer.run_native (operation : Operation) :
    Writer.run toLowerCase toUpperCase db (.native operation) =
      ((operation.run toLowerCase db).1.mapError .database, (operation.run toLowerCase db).2) :=
  rfl

theorem Writer.run_eq_ok_native {operation : Operation} :
    Writer.run toLowerCase toUpperCase db (.native operation) = (.ok (), db') ↔
      operation.run toLowerCase db = (.ok (), db') := by
  rw [run_native]
  cases operation.run toLowerCase db with
  | mk outcome db₁ =>
    cases outcome with
    | error e => simp [Except.mapError]
    | ok result => simp [Except.mapError]

/-- **A writer commits, or throws and leaves the database as it was.** -/
theorem Writer.commits_or_throws {writer : Writer} (hcovered : writer.Covered db) :
    (∃ db' tasks states, writer.run toLowerCase toUpperCase db = (.ok (), db') ∧
      Commits db db' tasks states) ∨
        ∃ e, writer.run toLowerCase toUpperCase db = (.error e, db) := by
  cases writer with
  | native operation =>
    cases hrun : operation.run toLowerCase db with
    | mk outcome db' =>
      cases outcome with
      | ok result =>
        obtain ⟨tasks, states, hcommits⟩ := Operation.commits hcovered hrun
        exact .inl ⟨db', tasks, states, run_eq_ok_native.mpr hrun, hcommits⟩
      | error e =>
        have hsame : (operation.run toLowerCase db).2 = db :=
          Operation.run_error (congrArg Prod.fst hrun)
        rw [hrun] at hsame
        obtain rfl : db' = db := hsame
        refine .inr ⟨.database e, ?_⟩
        rw [run_native, hrun]
        rfl
  | board operation =>
    cases hrun : operation.run toUpperCase db with
    | mk outcome db' =>
      cases outcome with
      | ok result =>
        obtain ⟨tasks, hcommits⟩ := BoardOperation.commits hrun
        exact .inl ⟨db', tasks, [], hrun, hcommits⟩
      | error e =>
        have hsame : (operation.run toUpperCase db).2 = db :=
          BoardOperation.run_error (congrArg Prod.fst hrun)
        rw [hrun] at hsame
        obtain rfl : db' = db := hsame
        exact .inr ⟨e, hrun⟩

end Laborer.Database
