import Laborer.Database.Commits

/-!
# Commits of task and label operations

One lemma for each operation: the entries of its commit, and the revision that it
found where it was given one.
-/

namespace Laborer.Database

open Laborer.Library List Table

def LaborerDatabase.TaskAt (db : LaborerDatabase) (id : String) (revision : ℤ) : Prop :=
  ∃ row, db.tasks.find id = some row ∧ row.revision = revision

namespace LaborerDatabase.Commits

variable {db : LaborerDatabase} {operationId : Option String} {changedAt : ℤ}

theorem deletedTask {id : String} {row : LaborerTask} (hfind : db.tasks.find id = some row)
    (hchildren : ∀ child ∈ db.tasks.rows, child.id ≠ id → child.parentTaskId ≠ some id) :
    Commits db { db with
      tasks := withoutTask db.tasks id
      taskChanges := db.taskChanges.append { changedAt, operationId, taskId := id } }
      [{ changedAt, operationId, taskId := id }] [] := by
  have hsame : (withoutTask db.tasks id).find = (db.tasks.erase id).find := by
    funext id'
    rw [withoutTask, find_mapRows, find_erase]
    by_cases hid : id' = id
    · rw [if_pos hid]
      rfl
    · rw [if_neg hid]
      cases hother : db.tasks.find id' with
      | none => rfl
      | some other =>
        have hparent := hchildren other (mem_of_find hother)
          fun heq => hid ((key_of_find hother).symm.trans heq)
        exact congrArg some (if_neg hparent)
  apply Commits.task db.taskNumberCounters
  rw [hsame]
  exact .erased hfind

theorem stripped_revision {labelId : String} {row : LaborerTask} (changedAt : ℤ)
    (h : labelId ∈ row.labelIds) :
    (stripped labelId changedAt row).revision = row.revision + 1 := by
  rw [stripped, if_pos h]
  rfl

theorem strippedTasks (db : LaborerDatabase) (id : String) :
    Commits db { db with
      tasks := db.tasks.mapRows (stripped id changedAt) (stripped_id id changedAt)
      taskChanges := db.taskChanges.appendAll ((db.carriers id).map fun row =>
        { changedAt, operationId, taskId := row.id }) }
      ((db.carriers id).map fun row => { changedAt, operationId, taskId := row.id }) [] := by
  refine ⟨rfl, by simp, ?_⟩
  have hkeys : (((db.carriers id).map fun row =>
        ({ changedAt, operationId, taskId := row.id } : TaskChange)).map TaskChange.rowKey) =
      (db.carriers id).map fun row => (LaborerDatabaseTable.tasks, row.id) := by
    rw [map_map]
    rfl
  have hcarrier : ∀ taskId, (LaborerDatabaseTable.tasks, taskId) ∈
      ((db.carriers id).map fun row => (LaborerDatabaseTable.tasks, row.id)) ↔
        ∃ task, db.tasks.find taskId = some task ∧ id ∈ task.labelIds := by
    intro taskId
    rw [mem_map]
    constructor
    · rintro ⟨task, htask, heq⟩
      cases heq
      obtain ⟨hrow, hcarries⟩ := mem_filter.mp htask
      exact ⟨task, find_key hrow, of_decide_eq_true hcarries⟩
    · rintro ⟨task, htask, hcarries⟩
      obtain ⟨hrow, rfl⟩ := find_eq_some_iff.mp htask
      exact ⟨task, mem_filter.mpr ⟨hrow, decide_eq_true hcarries⟩, rfl⟩
  rw [hkeys, map_nil, append_nil]
  refine ⟨?_, ?_, ?_⟩
  · have hids : ((db.carriers id).map LaborerTask.id).Nodup :=
      db.tasks.keysNodup.sublist (filter_sublist.map _)
    apply List.Nodup.of_map Prod.snd
    rwa [map_map]
  · rintro ⟨table, key⟩
    have hother : table ≠ .tasks → (table, key) ∉
        (db.carriers id).map fun row => (LaborerDatabaseTable.tasks, row.id) := by
      intro hne hmem
      obtain ⟨_, _, heq⟩ := mem_map.mp hmem
      cases heq
      exact hne rfl
    cases table with
    | tasks =>
      rw [hcarrier]
      change _ ↔ ((db.tasks.mapRows _ (stripped_id id changedAt)).find key).map CurrentRow.task ≠
        (db.tasks.find key).map CurrentRow.task
      rw [find_mapRows]
      cases htask : db.tasks.find key with
      | none => simp
      | some task =>
        by_cases hcarries : id ∈ task.labelIds
        · -- a carrier has another revision
          have hchanged : stripped id changedAt task ≠ task := by
            intro heq
            have := stripped_revision changedAt hcarries
            rw [heq] at this
            omega
          simp [hcarries, hchanged]
        · have hsame : stripped id changedAt task = task := if_neg hcarries
          simp [hcarries, hsame]
    | _ => exact iff_of_false (hother (by simp)) (not_not.mpr rfl)
  · intro key hkey row' hrow'
    obtain ⟨task, htask, rfl⟩ := mem_map.mp hkey
    obtain ⟨hrow, hcarries⟩ := mem_filter.mp htask
    have hfound : db.tasks.find task.id = some task := find_key hrow
    change ((db.tasks.mapRows _ (stripped_id id changedAt)).find task.id).map CurrentRow.task =
      some row' at hrow'
    rw [find_mapRows, hfound] at hrow'
    cases hrow'
    change (stripped id changedAt task).revision = revisionAt _ ((db.tasks.find task.id).map _) + 1
    rw [hfound, stripped_revision changedAt (of_decide_eq_true hcarries)]
    rfl

end LaborerDatabase.Commits

namespace NativeLaborerDatabase

open LaborerDatabase

variable {db db' : LaborerDatabase} {operationId : Option String} {changedAt : ℤ}
  {result : MutationResult LaborerTask} {expectedRevision : Option ℤ} {taskId : String}
  {labelIds : List String} {id : String}

/-! ## Task operations -/

theorem insertTask_commits {input : NewLaborerTask}
    (h : insertTask input operationId changedAt db = (.ok result, db')) :
    Commits db db' [{ changedAt, operationId, taskId := input.id }] [] := by
  rw [insertTask, write_eq_ok] at h
  dsimp only at h
  split at h
  · cases h
  · obtain ⟨⟨⟩, -, h⟩ := bind_eq_ok.mp h
    obtain ⟨db₁, hinsert, h⟩ := bind_eq_ok.mp h
    obtain ⟨row, -, h⟩ := bind_eq_ok.mp h
    cases h
    obtain ⟨-, tasks, hinserted, rfl⟩ := insertTaskRow_eq_ok.mp hinsert
    exact .task _ (.inserted hinserted rfl)

theorem adoptWorktreeTask_commits {input : AdoptedWorktree} {result : Option LaborerTask}
    (h : adoptWorktreeTask input changedAt db = (.ok result, db')) :
    Commits db db' (if worktreeClaimed db input then []
      else [{ changedAt, operationId := none, taskId := input.id }]) [] := by
  rw [adoptWorktreeTask, write_eq_ok] at h
  split at h
  · next hclaimed =>
    cases h
    rw [if_pos hclaimed]
    exact .refl db
  · next hclaimed =>
    obtain ⟨db₁, hinsert, h⟩ := bind_eq_ok.mp h
    obtain ⟨row, -, h⟩ := bind_eq_ok.mp h
    cases h
    obtain ⟨-, tasks, hinserted, rfl⟩ := insertTaskRow_eq_ok.mp hinsert
    rw [if_neg hclaimed]
    exact .task _ (.inserted hinserted rfl)

theorem findTask_of_requireTask {row : LaborerTask}
    (h : db.requireTask id = .ok row) : db.findTask id = .ok (some row) := by
  obtain ⟨found, hfound, h⟩ := bind_eq_ok.mp h
  cases found with
  | none => cases h
  | some found =>
    cases h
    exact hfound

theorem updateTask_commits {expectedRevision : ℤ} {patch : LaborerTaskPatch}
    (h : updateTask id expectedRevision patch operationId changedAt db = (.ok result, db')) :
    Commits db db' [{ changedAt, operationId, taskId := id }] [] ∧
      db.TaskAt id expectedRevision ∧ db'.findTask id = .ok (some result.row) := by
  obtain ⟨row, hfind, hrevision, -, hrequire, rfl⟩ := updateTask_eq_ok h
  exact ⟨.task _ (.modified hfind (patch.apply changedAt) (fun _ => rfl) rfl),
    ⟨row, hfind, hrevision.symm⟩, findTask_of_requireTask hrequire⟩

theorem deleteTask_commits {expectedRevision : ℤ}
    (h : deleteTask id expectedRevision operationId changedAt db = (.ok result, db')) :
    db.TaskAt id expectedRevision ∧ db'.tasks.find id = none ∧
      ((∀ child ∈ db.tasks.rows, child.id ≠ id → child.parentTaskId ≠ some id) →
        Commits db db' [{ changedAt, operationId, taskId := id }] []) := by
  rw [deleteTask, write_eq_ok] at h
  obtain ⟨found, hfound, h⟩ := bind_eq_ok.mp h
  cases hdelete : db.deleteTaskRow id expectedRevision with
  | mk changes db₁ =>
    rw [hdelete] at h
    dsimp only at h
    split at h
    · exact absurd h staleTask_ne_ok
    · exact absurd h staleTask_ne_ok
    · next hchanges =>
      obtain ⟨row, hfind, hrevision, rfl⟩ := deleteTaskRow_eq (fun heq => hchanges heq) hdelete
      cases h
      refine ⟨⟨row, hfind, hrevision⟩, ?_, fun hchildren => .deletedTask hfind hchildren⟩
      change (withoutTask db.tasks id).find id = none
      rw [withoutTask, find_mapRows, find_erase, if_pos rfl]
      rfl

/-! ## Label operations -/

theorem createLabel_commits {toLowerCase : String → String} {taskUlid : String} {input : NewLabel}
    {result : MutationResult Label}
    (h : createLabel toLowerCase taskUlid input operationId changedAt db = (.ok result, db')) :
    ∃ states, Commits db db' [] states := by
  rw [createLabel, write_eq_ok] at h
  obtain ⟨name, -, h⟩ := bind_eq_ok.mp h
  split at h
  · cases h
    exact ⟨_, .refl db⟩
  · next hnone =>
    split at h
    · cases h
    · obtain ⟨db₁, hinsert, h⟩ := bind_eq_ok.mp h
      obtain ⟨_, -, h⟩ := bind_eq_ok.mp h
      cases h
      unfold insertLabelRow at hinsert
      split at hinsert
      · cases hinsert
      · next labels hlabels =>
        obtain ⟨⟨⟩, -, hinsert⟩ := bind_eq_ok.mp hinsert
        cases hinsert
        exact ⟨_, .label (.inserted hlabels rfl)⟩

/-- A label at a revision, where one is expected. -/
def LabelAt (db : LaborerDatabase) (id : String) (revision : Option ℤ) : Prop :=
  ∃ row, db.labels.find id = some row ∧ ∀ r ∈ revision, row.revision = r

theorem updateLabel_commits {patch : LabelPatch} {result : MutationResult Label}
    (h : updateLabel id expectedRevision patch operationId changedAt db = (.ok result, db')) :
    Commits db db' [] [{ changedAt, operationId, rowId := id, tableName := .labels }] ∧
      LabelAt db id expectedRevision := by
  rw [updateLabel, write_eq_ok] at h
  split at h
  · cases h
  · obtain ⟨name, -, h⟩ := bind_eq_ok.mp h
    split at h
    · cases h
    · next current hcurrent =>
      split at h
      · cases h
      · next hrevision =>
        obtain ⟨⟨⟩, -, h⟩ := bind_eq_ok.mp h
        obtain ⟨⟨changes, db₁⟩, hupdate, h⟩ := bind_eq_ok.mp h
        dsimp only at h
        split at h
        · cases h
        · next hchanges =>
          obtain ⟨_, -, h⟩ := bind_eq_ok.mp h
          cases h
          obtain ⟨row, hfind, rfl⟩ := updateLabelRow_eq hchanges hupdate
          refine ⟨.label (.modified hfind _ (fun _ => by rfl) (by rfl)), current, hcurrent,
            fun r hr => ?_⟩
          rw [Option.mem_def.mp hr] at hrevision
          by_contra hne
          exact hrevision (decide_eq_true (Ne.symm hne))

theorem deleteLabel_commits {result : MutationResult Label}
    (h : deleteLabel id expectedRevision operationId changedAt db = (.ok result, db')) :
    (∃ tasks, Commits db db' tasks
      [{ changedAt, operationId, rowId := id, tableName := .labels }]) ∧
        LabelAt db id expectedRevision := by
  constructor
  · obtain ⟨row, hfind, rfl⟩ := deleteLabel_eq_ok h
    exact ⟨_, (Commits.strippedTasks db id).trans (.label (.erased hfind)) (disjoint_nil_left _)⟩
  · rw [deleteLabel, write_eq_ok] at h
    cases hdelete : db.labels.deleteWhere id
        (fun row => expectedRevision.all (· = row.revision)) with
    | mk changes labels =>
      dsimp only at h
      rw [hdelete] at h
      dsimp only at h
      split at h
      · cases h
      · cases h
      · next hchanges hrow =>
        obtain ⟨row, hfind, hrevision, -⟩ := deleteWhere_eq (fun heq => hchanges heq) hdelete
        refine ⟨row, hfind, fun r hr => ?_⟩
        rw [Option.mem_def.mp hr] at hrevision
        exact (of_decide_eq_true hrevision).symm

theorem writeTaskLabels_commits {requested : List String}
    (h : writeTaskLabels taskId expectedRevision requested operationId changedAt db =
      .ok (result, db')) : Commits db db' [{ changedAt, operationId, taskId }] [] ∧
      (∀ r ∈ expectedRevision, db.TaskAt taskId r) ∧
        db'.findTask taskId = .ok (some result.row) ∧ db'.labels = db.labels := by
  unfold writeTaskLabels at h
  split at h
  · cases h
  · obtain ⟨_, -, h⟩ := bind_eq_ok.mp h
    obtain ⟨⟨⟩, hknown, h⟩ := bind_eq_ok.mp h
    cases hrelabel : db.relabelTaskRow taskId expectedRevision requested changedAt with
    | mk changes db₁ =>
      rw [hrelabel] at h
      dsimp only at h
      split at h
      · exact absurd h staleTask_ne_ok
      · next hchanges =>
        obtain ⟨row, hfind, hrevision, rfl⟩ := relabelTaskRow_eq hchanges hrelabel
        obtain ⟨_, hrequire, h⟩ := bind_eq_ok.mp h
        cases h
        exact ⟨.task _ (.modified hfind (relabelled (distinct requested) changedAt)
          (fun _ => rfl) rfl), fun r hr => ⟨row, hfind, (hrevision r hr).symm⟩,
          findTask_of_requireTask hrequire, rfl⟩

theorem setTaskLabels_commits
    (h : setTaskLabels taskId expectedRevision labelIds operationId changedAt db =
      (.ok result, db')) : Commits db db' [{ changedAt, operationId, taskId }] [] ∧
      (∀ r ∈ expectedRevision, db.TaskAt taskId r) ∧
        db'.findTask taskId = .ok (some result.row) ∧ db'.labels = db.labels := by
  rw [setTaskLabels, write_eq_ok] at h
  dsimp only at h
  split at h
  · cases h
  · exact writeTaskLabels_commits h

theorem addTaskLabels_commits
    (h : addTaskLabels taskId labelIds operationId changedAt db = (.ok result, db')) :
    ∃ tasks, Commits db db' tasks [] := by
  rw [addTaskLabels, write_eq_ok] at h
  obtain ⟨row, -, h⟩ := bind_eq_ok.mp h
  dsimp only at h
  split at h
  · obtain ⟨⟨⟩, -, h⟩ := bind_eq_ok.mp h
    cases h
    exact ⟨_, .refl db⟩
  · exact ⟨_, (writeTaskLabels_commits h).1⟩

theorem removeTaskLabels_commits
    (h : removeTaskLabels taskId labelIds operationId changedAt db = (.ok result, db')) :
    ∃ tasks, Commits db db' tasks [] := by
  rw [removeTaskLabels, write_eq_ok] at h
  obtain ⟨row, -, h⟩ := bind_eq_ok.mp h
  dsimp only at h
  split at h
  · cases h
    exact ⟨_, .refl db⟩
  · exact ⟨_, (writeTaskLabels_commits h).1⟩

end NativeLaborerDatabase

/-! ## The task databases -/

namespace TaskDatabase

open LaborerDatabase

variable {db db' : LaborerDatabase} {changedAt : ℤ} {id : String}

theorem insert_commits {input : NewTask} {result : Task × Bool}
    (h : insert input changedAt db = (.ok result, db')) : ∃ tasks, Commits db db' tasks [] := by
  unfold insert at h
  cases hrow : insertRow input changedAt db with
  | mk inserted db₁ =>
    rw [hrow] at h
    cases inserted with
    | error e => cases h
    | ok inserted =>
      have hsame : db' = db₁ := by
        dsimp only at h
        generalize (if inserted = true then find db₁ input.id else _) = found at h
        cases found with
        | none => cases h
        | some task =>
          cases h
          rfl
      subst hsame
      unfold insertRow at hrow
      rw [transaction_eq_ok] at hrow
      split at hrow
      · cases hrow
        exact ⟨_, .refl db⟩
      · obtain ⟨db₂, hinsert, hrow⟩ := bind_eq_ok.mp hrow
        cases hrow
        obtain ⟨-, tasks, hinserted, rfl⟩ := insertTaskRow_eq_ok.mp hinsert
        exact ⟨_, .task _ (.inserted hinserted rfl)⟩

theorem update_commits {expectedRevision : Option ℤ} {patch : TaskPatch} {task : Task}
    (h : update id expectedRevision patch changedAt db = (.ok task, db')) :
    Commits db db' [{ changedAt, operationId := none, taskId := id }] [] ∧
      ∃ row, db.tasks.find id = some row ∧ (∀ r ∈ expectedRevision, row.revision = r) ∧
        db'.tasks.find id = some (patch.apply changedAt row) ∧ db'.labels = db.labels := by
  obtain ⟨row, hfind, hrevision, -, rfl⟩ := update_eq_ok h
  exact ⟨.task _ (.modified hfind (patch.apply changedAt) (fun _ => rfl) rfl), row, hfind,
    fun r hr => (hrevision r hr).symm,
    find_modify_self (patch.apply changedAt) (fun _ => rfl) hfind, rfl⟩

end TaskDatabase

namespace TaskBoardDatabase

open LaborerDatabase

variable {db db' : LaborerDatabase} {changedAt : ℤ} {result : Option Task} {id : String}
  {input : PrTaskTransitionInput} {toUpperCase : String → String}

theorem moveTaskRow_eq {expectedRevision : ℤ} {status : TaskStatus} {changes : ℕ}
    (hchanges : changes ≠ 0)
    (h : db.moveTaskRow id expectedRevision status changedAt = (changes, db')) :
    ∃ row, db.tasks.find id = some row ∧ row.revision = expectedRevision ∧
      db' = { db with
        tasks := db.tasks.modify id (moved status (db.nextTaskSortOrder status) changedAt)
          fun _ => rfl } := by
  unfold moveTaskRow at h
  cases hupdate : db.tasks.updateWhere id (·.revision = expectedRevision)
      (moved status (db.nextTaskSortOrder status) changedAt) (fun _ => rfl) with
  | mk n tasks =>
    rw [hupdate] at h
    cases h
    obtain ⟨row, hfind, hrevision, rfl⟩ := updateWhere_eq hchanges hupdate
    exact ⟨row, hfind, of_decide_eq_true hrevision, rfl⟩

theorem move_commits {expectedRevision : ℤ} {status : TaskStatus} {task : Task}
    (h : move id expectedRevision status changedAt db = (.ok task, db')) :
    db' = db ∨ Commits db db' [{ changedAt, operationId := none, taskId := id }] [] ∧
      ∃ row sortOrder, db.tasks.find id = some row ∧ row.revision = expectedRevision ∧
        db'.tasks.find id = some (moved status sortOrder changedAt row) ∧
          db'.labels = db.labels := by
  unfold move at h
  split at h
  · cases h
  · rw [transaction_eq_ok] at h
    split at h
    · cases h
    · split at h
      · cases h
        exact .inl rfl
      · split at h
        · cases h
        · cases hmove : db.moveTaskRow id expectedRevision status changedAt with
          | mk changes db₁ =>
            rw [hmove] at h
            dsimp only at h
            split at h
            · cases h
            · next hchanges =>
              obtain ⟨row, hfind, hrevision, rfl⟩ := moveTaskRow_eq hchanges hmove
              split at h
              · cases h
              · cases h
                exact .inr
                  ⟨.task _ (.modified hfind (moved status (db.nextTaskSortOrder status) changedAt)
                    (fun _ => rfl) rfl), row, db.nextTaskSortOrder status, hfind, hrevision,
                  find_modify_self (moved _ _ changedAt) (fun _ => rfl) hfind, rfl⟩

theorem mapError_eq_ok {α : Type} {x : Except DatabaseError α} {f : DatabaseError → BoardError}
    {a : α} (h : x.mapError f = .ok a) : x = .ok a := by
  cases x with
  | error e => cases h
  | ok a' =>
    cases h
    rfl

theorem adoptWorktreeTask_commits {input : AdoptedWorktree}
    (h : adoptWorktreeTask input changedAt db = (.ok result, db')) :
    ∃ tasks, Commits db db' tasks [] := by
  rw [adoptWorktreeTask, writeTransaction, transaction_eq_ok] at h
  dsimp only at h
  split at h
  · cases h
    exact ⟨_, .refl db⟩
  · obtain ⟨db₁, hinsert, h⟩ := bind_eq_ok.mp h
    replace hinsert := mapError_eq_ok hinsert
    split at h
    · cases h
    · cases h
      obtain ⟨-, tasks, hinserted, rfl⟩ := insertTaskRow_eq_ok.mp hinsert
      exact ⟨_, .task _ (.inserted hinserted rfl)⟩

theorem transitionAttempt_commits
    (h : transitionAttempt toUpperCase input changedAt db = (.ok result, db')) :
    ∃ tasks, Commits db db' tasks [] := by
  rw [transitionAttempt, writeTransaction, transaction_eq_ok] at h
  dsimp only at h
  split at h
  · cases h
  · split at h
    · cases h
      exact ⟨_, .refl db⟩
    · split at h
      · cases h
        exact ⟨_, .refl db⟩
      · next task _ _ status _ =>
        cases hmove : db.moveTaskRow task.id task.revision status changedAt with
        | mk changes db₁ =>
          rw [hmove] at h
          split at h
          · cases h
          · next hchanges =>
            obtain ⟨row, hfind, -, rfl⟩ := moveTaskRow_eq hchanges hmove
            split at h
            · cases h
            · cases h
              exact ⟨_, .task _ (.modified hfind
                (moved status (db.nextTaskSortOrder status) changedAt) (fun _ => rfl) rfl)⟩

theorem transitionAttempts_commits {attempts : ℕ}
    (h : transitionAttempts toUpperCase input changedAt attempts db = (.ok result, db')) :
    ∃ tasks, Commits db db' tasks [] := by
  induction attempts with
  | zero =>
    cases h
    exact ⟨_, .refl db⟩
  | succ attempts ih =>
    unfold transitionAttempts at h
    cases hattempt : transitionAttempt toUpperCase input changedAt db with
    | mk outcome db₁ =>
      rw [hattempt] at h
      cases outcome with
      | ok updated =>
        cases h
        exact transitionAttempt_commits hattempt
      | error error =>
        dsimp only at h
        split at h
        · cases h
        · -- the attempt that failed left the database as it was
          have hsame : (transitionAttempt toUpperCase input changedAt db).2 = db :=
            transaction_error (congrArg Prod.fst hattempt)
          rw [hattempt] at hsame
          cases hsame
          exact ih h

theorem transitionTaskForPr_commits
    (h : transitionTaskForPr toUpperCase input changedAt db = (.ok result, db')) :
    ∃ tasks, Commits db db' tasks [] := by
  unfold transitionTaskForPr at h
  split at h
  · cases h
    exact ⟨_, .refl db⟩
  · exact transitionAttempts_commits h

end TaskBoardDatabase

end Laborer.Database
