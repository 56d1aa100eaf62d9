import Laborer.Database.Writers

/-!
# Writers of one revision

Of two writers that start from the same revision of a row, the second writes nothing,
and is told what the first left.
-/

namespace Laborer.Database

open Laborer.Library NativeLaborerDatabase LaborerDatabase List Option Table

variable {toLowerCase toUpperCase : String → String} {db db' : LaborerDatabase} {key : RowKey}
  {revision changedAt : ℤ} {operation : Operation} {writer : Writer} {operationId : Option String}

structure LaborerDatabase.Readable (db : LaborerDatabase) : Prop where
  tasks : ∀ id, ∃ found, db.findTask id = .ok found
  revisions : ∀ key, ∀ row ∈ db.row key, 1 ≤ row.revision

/-! ## The revision that was found -/

/-- A write that found a row at a revision and left it at none or at another. -/
structure Moves (db db' : LaborerDatabase) (key : RowKey) (revision : ℤ) : Prop where
  found : revisionAt CurrentRow.revision (db.row key) = revision
  moved : (∀ row ∈ db.row key, 1 ≤ row.revision) →
    revisionAt CurrentRow.revision (db'.row key) ≠ revision

theorem Moves.of_commits {tasks : List TaskChange}
    {states : List StateChange} (h : Commits db db' tasks states)
    (hkey : key ∈ tasks.map TaskChange.rowKey ++ states.map StateChange.rowKey)
    (hfound : revisionAt CurrentRow.revision (db.row key) = revision) : Moves db db' key revision :=
  ⟨hfound, fun hpositive => hfound ▸ h.revises.ne_revisionAt hkey hpositive⟩

theorem TaskAt.revisionAt {id : String} (h : db.TaskAt id revision) :
    revisionAt CurrentRow.revision (db.row (.tasks, id)) = revision := by
  obtain ⟨row, hfind, rfl⟩ := h
  change Library.revisionAt _ ((db.tasks.find id).map _) = _
  rw [hfind]
  rfl

theorem ProjectAt.revisionAt {id : String} (h : ProjectAt db id revision) :
    revisionAt CurrentRow.revision (db.row (.projects, id)) = revision := by
  obtain ⟨row, hfind, rfl⟩ := h
  change Library.revisionAt _ ((db.projects.find id).map _) = _
  rw [hfind]
  rfl

theorem SettingAt.revisionAt {key : String} (h : SettingAt db key revision) :
    revisionAt CurrentRow.revision (db.row (.appSettings, key)) = revision := by
  obtain ⟨row, hfind, rfl⟩ := h
  change Library.revisionAt _ ((db.settings.find key).map _) = _
  rw [hfind]
  rfl

theorem LabelAt.revisionAt {id : String} (h : LabelAt db id (some revision)) :
    revisionAt CurrentRow.revision (db.row (.labels, id)) = revision := by
  obtain ⟨row, hfind, hrevision⟩ := h
  change Library.revisionAt _ ((db.labels.find id).map _) = _
  rw [hfind]
  exact hrevision revision rfl

theorem ThreadAt.revisionAt {id : String} (h : ThreadAt db id revision) :
    revisionAt CurrentRow.revision (db.row (.reviewCommentThreads, id)) = revision := by
  obtain ⟨row, hfind, rfl⟩ := h
  change Library.revisionAt _ ((db.reviewCommentThreads.find id).map _) = _
  rw [hfind]
  rfl

theorem mem_toList_map {key' : RowKey} {expected : Option ℤ}
    (h : (key, revision) ∈ expected.toList.map fun revision => (key', revision)) :
    key = key' ∧ expected = some revision := by
  cases expected with
  | none => exact absurd h not_mem_nil
  | some r =>
    cases mem_singleton.mp h
    exact ⟨rfl, rfl⟩

/-- A write that succeeds at an expected revision found it. -/
theorem Operation.moves (hexpected : (key, revision) ∈ operation.expected)
    (h : operation.run toLowerCase db = (.ok (), db')) : Moves db db' key revision := by
  cases operation with (obtain ⟨_, h⟩ := forget_eq_ok.mp h; try cases mem_singleton.mp hexpected)
  | updateTask =>
    obtain ⟨hcommits, hat, -⟩ := updateTask_commits h
    exact .of_commits hcommits (mem_singleton_self _) (TaskAt.revisionAt hat)
  | deleteTask id =>
    obtain ⟨⟨row, hfind, rfl⟩, hgone, -⟩ := deleteTask_commits h
    refine ⟨TaskAt.revisionAt ⟨row, hfind, rfl⟩, fun hpositive => ?_⟩
    have hrow : 1 ≤ row.revision := hpositive (.task row) (congrArg (Option.map _) hfind)
    change revisionAt _ ((db'.tasks.find id).map _) ≠ _
    rw [hgone, map_none, revisionAt, elim_none]
    omega
  | setTaskLabels =>
    obtain ⟨rfl, rfl⟩ := mem_toList_map hexpected
    obtain ⟨hcommits, hat, -⟩ := setTaskLabels_commits h
    exact .of_commits hcommits (mem_singleton_self _) (TaskAt.revisionAt (hat revision rfl))
  | update =>
    obtain ⟨rfl, rfl⟩ := mem_toList_map hexpected
    obtain ⟨hcommits, row, hfind, hrevision, -⟩ := TaskDatabase.update_commits h
    exact .of_commits hcommits (mem_singleton_self _)
      (TaskAt.revisionAt ⟨row, hfind, hrevision revision rfl⟩)
  | updateProject =>
    obtain ⟨hcommits, hat⟩ := updateProject_commits h
    exact .of_commits hcommits (mem_singleton_self _) (ProjectAt.revisionAt hat)
  | moveProject =>
    obtain ⟨hcommits, hat⟩ := updateProject_commits h
    exact .of_commits hcommits (mem_singleton_self _) (ProjectAt.revisionAt hat)
  | reorderProjects =>
    obtain ⟨assignment, hassignment, heq⟩ := mem_map.mp hexpected
    cases heq
    obtain ⟨hcommits, hat⟩ := reorderProjects_commits h
    refine .of_commits hcommits ?_ (ProjectAt.revisionAt (hat assignment hassignment))
    exact mem_map.mpr ⟨_, mem_map_of_mem hassignment, rfl⟩
  | deleteProject =>
    obtain ⟨hcommits, hat⟩ := deleteProject_commits h
    exact .of_commits hcommits (mem_singleton_self _) (ProjectAt.revisionAt hat)
  | updateLabel =>
    obtain ⟨rfl, rfl⟩ := mem_toList_map hexpected
    obtain ⟨hcommits, hat⟩ := updateLabel_commits h
    exact .of_commits hcommits (mem_singleton_self _) (LabelAt.revisionAt hat)
  | deleteLabel =>
    obtain ⟨rfl, rfl⟩ := mem_toList_map hexpected
    obtain ⟨⟨tasks, hcommits⟩, hat⟩ := deleteLabel_commits h
    exact .of_commits hcommits (mem_append_right _ (mem_singleton_self _)) (LabelAt.revisionAt hat)
  | setSetting key expectedRevision =>
    obtain ⟨hcommits, hat⟩ := setSetting_commits h
    refine .of_commits hcommits (mem_singleton_self _) ?_
    by_cases hzero : revision = 0
    · rw [if_pos hzero] at hat
      change revisionAt _ ((db.settings.find key).map _) = _
      rw [hat, hzero]
      rfl
    · rw [if_neg hzero] at hat
      exact SettingAt.revisionAt hat
  | updateSetting =>
    obtain ⟨hcommits, hat⟩ := updateSetting_commits h
    exact .of_commits hcommits (mem_singleton_self _) (SettingAt.revisionAt hat)
  | deleteSetting =>
    obtain ⟨hcommits, hat⟩ := deleteSetting_commits h
    exact .of_commits hcommits (mem_singleton_self _) (SettingAt.revisionAt hat)
  | setReviewCommentThreadStatus =>
    obtain ⟨hcommits, hat, -⟩ := setReviewCommentThreadStatus_commits h
    exact .of_commits hcommits (mem_singleton_self _) (ThreadAt.revisionAt hat)
  | deleteReviewCommentThread =>
    obtain ⟨hcommits, hat, -⟩ := deleteReviewCommentThread_commits h
    exact .of_commits hcommits (mem_singleton_self _) (ThreadAt.revisionAt hat)
  | _ => exact absurd hexpected not_mem_nil

/-- So does one of the task board database, unless it has nothing to do. -/
theorem BoardOperation.moves {operation : BoardOperation}
    (hexpected : (key, revision) ∈ operation.expected)
    (h : operation.run toUpperCase db = (.ok (), db')) : db' = db ∨ Moves db db' key revision := by
  cases operation with
  | update =>
    obtain ⟨rfl, rfl⟩ := mem_toList_map hexpected
    obtain ⟨_, h⟩ := forgetBoard_eq_ok.mp h
    obtain ⟨hcommits, row, hfind, hrevision, -⟩ :=
      TaskDatabase.update_commits (TaskBoardDatabase.update_eq_ok h)
    exact .inr (.of_commits hcommits (mem_singleton_self _)
      (TaskAt.revisionAt ⟨row, hfind, hrevision revision rfl⟩))
  | move =>
    cases mem_singleton.mp hexpected
    obtain ⟨_, h⟩ := forgetBoard_eq_ok.mp h
    rcases TaskBoardDatabase.move_commits h with hsame | ⟨hcommits, row, _, hfind, hrevision, -⟩
    · exact .inl hsame
    · exact .inr (.of_commits hcommits (mem_singleton_self _)
        (TaskAt.revisionAt ⟨row, hfind, hrevision⟩))
  | _ => exact absurd hexpected not_mem_nil

theorem Writer.moves (hexpected : (key, revision) ∈ writer.expected)
    (h : writer.run toLowerCase toUpperCase db = (.ok (), db')) :
    db' = db ∨ Moves db db' key revision := by
  cases writer with
  | native operation => exact .inr (Operation.moves hexpected (run_eq_ok_native.mp h))
  | board operation => exact BoardOperation.moves hexpected h

/-- **A writer whose revision is gone writes nothing.** -/
theorem Writer.run_of_stale (hexpected : (key, revision) ∈ writer.expected)
    (hstale : revisionAt CurrentRow.revision (db.row key) ≠ revision) :
    (writer.run toLowerCase toUpperCase db).2 = db := by
  cases hrun : writer.run toLowerCase toUpperCase db with
  | mk outcome db' =>
    cases outcome with
    | ok result =>
      rcases Writer.moves hexpected hrun with hsame | hmoves
      · exact hsame
      · exact absurd hmoves.found hstale
    | error e =>
      cases writer with
      | native operation =>
        rw [run_native] at hrun
        cases hnative : operation.run toLowerCase db with
        | mk outcome db₁ =>
          rw [hnative] at hrun
          cases outcome with
          | ok result => cases hrun
          | error e' =>
            cases hrun
            have hsame := Operation.run_error (congrArg Prod.fst hnative)
            rwa [hnative] at hsame
      | board operation =>
        have hsame := BoardOperation.run_error (congrArg Prod.fst hrun)
        rwa [show operation.run toUpperCase db = _ from hrun] at hsame

/-! ## The refusal -/

section Refusal

variable {operationId : Option String} {changedAt : ℤ} {found : Option LaborerTask} {revision : ℤ}
  {key : String} {id : String}

def staleError {α : Type} (db : LaborerDatabase) (key : RowKey) (revision : Option ℤ) :
    Except DatabaseError α :=
  .error (.staleRevision key.1 key.2 revision (db.row key))

theorem staleTask_eq {α : Type} {revision : Option ℤ} (h : db.findTask id = .ok found) :
    (db.staleTask id revision : Except DatabaseError α) = staleError db (.tasks, id) revision := by
  have hrow : db.row (.tasks, id) = found.map .task := congrArg (Option.map _) (findTask_eq_ok h)
  unfold LaborerDatabase.staleTask staleError
  rw [h, hrow]
  rfl

theorem ne_revision {row : Option LaborerTask}
    (hstale : Library.revisionAt CurrentRow.revision (row.map .task) ≠ revision) :
    ∀ task ∈ row, task.revision ≠ revision := by
  rintro task rfl heq
  exact hstale heq

theorem updateTaskRow_stale {f : LaborerTask → LaborerTask} {hf : ∀ row, (f row).id = row.id}
    (hstale : revisionAt CurrentRow.revision (db.row (.tasks, id)) ≠ revision) :
    db.updateTaskRow id (some revision) f hf = .ok (0, db) := by
  have hne := ne_revision hstale
  unfold updateTaskRow
  cases hfind : db.tasks.find id with
  | none => rfl
  | some row => exact if_pos (decide_eq_true (Ne.symm (hne row hfind)))

theorem updateTask_stale {patch : LaborerTaskPatch} (hpatch : patch ≠ {})
    (hread : db.findTask id = .ok found)
    (hstale : revisionAt CurrentRow.revision (db.row (.tasks, id)) ≠ revision) :
    (updateTask id revision patch operationId changedAt db).1 =
      staleError db (.tasks, id) (some revision) := by
  apply transaction_throws
  refine (if_neg hpatch).trans ((except_bind_of_ok (updateTaskRow_stale hstale)).trans ?_)
  exact staleTask_eq hread

theorem deleteTask_stale (hread : db.findTask id = .ok found)
    (hstale : revisionAt CurrentRow.revision (db.row (.tasks, id)) ≠ revision) :
    (deleteTask id revision operationId changedAt db).1 =
      staleError db (.tasks, id) (some revision) := by
  have hne := ne_revision hstale
  have hdelete : db.deleteTaskRow id revision = (0, db) := by
    unfold deleteTaskRow
    cases hfind : db.tasks.find id with
    | none => rfl
    | some row => exact if_pos (hne row hfind)
  apply transaction_throws
  refine (except_bind_of_ok hread).trans ?_
  rw [hdelete]
  exact staleTask_eq hread

theorem setTaskLabels_stale {labelIds : List String} (hread : db.findTask id = .ok found)
    (hlength : ¬ maxTaskLabels < (distinct labelIds).length)
    (hknown : db.requireKnownLabels id (distinct labelIds) = .ok ())
    (hstale : revisionAt CurrentRow.revision (db.row (.tasks, id)) ≠ revision) :
    ∃ expected, (setTaskLabels id (some revision) labelIds operationId changedAt db).1 =
      staleError db (.tasks, id) expected := by
  have hne := ne_revision hstale
  have hfound := findTask_eq_ok hread
  cases found with
  | none =>
    -- the task is gone, which is found out before the revision is looked at
    refine ⟨none, transaction_throws ?_⟩
    refine (if_neg hlength).trans ((if_neg hlength).trans ?_)
    have hrow : db.row (.tasks, id) = none := congrArg (Option.map _) hfound
    have hrequire : requireTaskForLabels db id = .error (.staleRevision .tasks id none none) :=
      except_bind_of_ok hread
    rw [hrequire, hrow]
    rfl
  | some row =>
    refine ⟨some revision, transaction_throws ?_⟩
    refine (if_neg hlength).trans ((if_neg hlength).trans ?_)
    have hrequire : requireTaskForLabels db id = .ok row := except_bind_of_ok hread
    have hrelabel : db.relabelTaskRow id (some revision) (distinct labelIds) changedAt = (0, db) :=
      congrArg (fun result : ℕ × TaskTable => (result.1, { db with tasks := result.2 }))
        (updateWhere_of_forall fun row hrow => decide_eq_false (Ne.symm (hne row hrow)))
    refine (except_bind_of_ok hrequire).trans ((except_bind_of_ok hknown).trans ?_)
    rw [hrelabel]
    exact staleTask_eq hread

theorem TaskDatabase.update_stale {patch : TaskPatch} (hpatch : patch ≠ {})
    (hstale : revisionAt CurrentRow.revision (db.row (.tasks, id)) ≠ revision) :
    (TaskDatabase.update id (some revision) patch changedAt db).1 =
      .error (.taskStaleRevision id revision (TaskDatabase.find db id)) := by
  apply transaction_throws
  exact (if_neg hpatch).trans (except_bind_of_ok (updateTaskRow_stale hstale))

theorem updateProjectRow_stale {f : Project → Project}
    {hf : ∀ row, (f row).id = row.id} (hstale : ¬ ProjectAt db id revision) :
    db.updateProjectRow id revision f hf = .ok (0, db) := by
  unfold updateProjectRow
  rw [updateWhere_of_forall fun row hrow => decide_eq_false fun heq => hstale ⟨row, hrow, heq⟩]
  rfl

theorem updateProject_stale {patch : ProjectPatch} (hpatch : patch ≠ {})
    (hstale : revisionAt CurrentRow.revision (db.row (.projects, id)) ≠ revision) :
    (updateProject id revision patch operationId changedAt db).1 =
      staleError db (.projects, id) (some revision) := by
  apply transaction_throws
  refine (if_neg hpatch).trans (except_bind_of_ok (updateProjectRow_stale fun hat => ?_))
  exact hstale (ProjectAt.revisionAt hat)

theorem deleteProject_stale
    (hstale : revisionAt CurrentRow.revision (db.row (.projects, id)) ≠ revision) :
    (deleteProject id revision operationId changedAt db).1 =
      staleError db (.projects, id) (some revision) := by
  have hdelete : db.projects.deleteWhere id (·.revision = revision) = (0, db.projects) := by
    apply deleteWhere_of_forall
    intro row hrow
    exact decide_eq_false fun heq => hstale (ProjectAt.revisionAt ⟨row, hrow, heq⟩)
  apply transaction_throws
  dsimp only
  rw [hdelete]
  rfl

theorem checkReorder_stale {assignments : List ProjectReorderAssignment}
    {assignment : ProjectReorderAssignment} (hmem : assignment ∈ assignments)
    (hstale : ¬ ProjectAt db assignment.projectId assignment.expectedRevision) :
    ∃ other ∈ assignments, ¬ ProjectAt db other.projectId other.expectedRevision ∧
      checkReorder db assignments =
        staleError db (.projects, other.projectId) (some other.expectedRevision) := by
  induction assignments with
  | nil => exact absurd hmem not_mem_nil
  | cons first rest ih =>
    by_cases hfirst : ProjectAt db first.projectId first.expectedRevision
    · have hrest : assignment ∈ rest := by
        refine (mem_cons.mp hmem).resolve_left fun heq => ?_
        subst heq
        exact hstale hfirst
      obtain ⟨other, hother, hne, hcheck⟩ := ih hrest
      refine ⟨other, mem_cons_of_mem _ hother, hne, ?_⟩
      obtain ⟨current, hfind, hrevision⟩ := hfirst
      unfold checkReorder findProject
      rw [hfind]
      exact (if_neg (not_not.mpr hrevision)).trans hcheck
    · refine ⟨first, mem_cons_self, hfirst, ?_⟩
      unfold checkReorder
      cases hfind : db.findProject first.projectId with
      | none => rfl
      | some current =>
        have hne : current.revision ≠ first.expectedRevision :=
          fun heq => hfirst ⟨current, hfind, heq⟩
        exact if_pos hne

theorem reorderProjects_stale {assignments : List ProjectReorderAssignment} {operationId : String}
    (hnonempty : assignments ≠ [])
    (hlength : (distinct (assignments.map (·.projectId))).length = assignments.length)
    {assignment : ProjectReorderAssignment} (hmem : assignment ∈ assignments)
    (hstale : ¬ ProjectAt db assignment.projectId assignment.expectedRevision) :
    ∃ other ∈ assignments, ¬ ProjectAt db other.projectId other.expectedRevision ∧
      (reorderProjects assignments operationId changedAt db).1 =
        staleError db (.projects, other.projectId) (some other.expectedRevision) := by
  obtain ⟨other, hother, hne, hcheck⟩ := checkReorder_stale hmem hstale
  refine ⟨other, hother, hne, transaction_throws ?_⟩
  refine (if_neg hnonempty).trans ((if_neg (not_not.mpr hlength)).trans ?_)
  rw [hcheck]
  rfl

theorem updateLabel_stale {patch : LabelPatch} {name : Option String}
    (hpatch : ¬ (patch.name = none ∧ patch.color = none))
    (hname : patch.name.mapM labelName = .ok name)
    (hstale : revisionAt CurrentRow.revision (db.row (.labels, id)) ≠ revision) :
    (updateLabel id (some revision) patch operationId changedAt db).1 =
      staleError db (.labels, id) (some revision) := by
  apply transaction_throws
  refine (if_neg hpatch).trans ((except_bind_of_ok hname).trans ?_)
  cases hfind : db.findLabel id with
  | none => rfl
  | some current =>
    have hne : revision ≠ current.revision := fun heq =>
      hstale (LabelAt.revisionAt ⟨current, hfind, fun r hr => by cases hr; exact heq.symm⟩)
    have hany : (some revision).any (· ≠ current.revision) = true := decide_eq_true hne
    exact if_pos hany

theorem deleteLabel_stale
    (hstale : revisionAt CurrentRow.revision (db.row (.labels, id)) ≠ revision) :
    (deleteLabel id (some revision) operationId changedAt db).1 =
      staleError db (.labels, id) (some revision) := by
  have hdelete : db.labels.deleteWhere id (fun row => (some revision).all (· = row.revision)) =
      (0, db.labels) := by
    apply deleteWhere_of_forall
    intro row hrow
    refine decide_eq_false fun heq => hstale ?_
    exact LabelAt.revisionAt ⟨row, hrow, fun r hr => by cases hr; exact heq.symm⟩
  apply transaction_throws
  dsimp only
  rw [hdelete]
  rfl

section

variable (hstale : revisionAt CurrentRow.revision (db.row (.appSettings, key)) ≠ revision)
include hstale

theorem updateSetting_stale {value : String} :
    (updateSetting key revision value operationId changedAt db).1 =
      staleError db (.appSettings, key) (some revision) := by
  apply transaction_throws
  dsimp only
  rw [updateWhere_of_forall]
  · rfl
  · intro row hrow
    exact decide_eq_false fun heq => hstale (SettingAt.revisionAt ⟨row, hrow, heq⟩)

theorem deleteSetting_stale : (deleteSetting key revision operationId changedAt db).1 =
      staleError db (.appSettings, key) (some revision) := by
  have hdelete : db.settings.deleteWhere key (·.revision = revision) = (0, db.settings) := by
    apply deleteWhere_of_forall
    intro row hrow
    exact decide_eq_false fun heq => hstale (SettingAt.revisionAt ⟨row, hrow, heq⟩)
  apply transaction_throws
  dsimp only
  rw [hdelete]
  rfl

theorem setSetting_stale {value : String} :
    (setSetting key revision value operationId changedAt db).1 =
      staleError db (.appSettings, key) (some revision) := by
  unfold setSetting
  by_cases hzero : revision = 0
  · subst hzero
    rw [if_neg (not_not.mpr rfl)]
    cases hfind : db.settings.find key with
    | none =>
      refine absurd ?_ hstale
      change revisionAt _ ((db.settings.find key).map _) = _
      rw [hfind]
      rfl
    | some current =>
      have hinsert : ∀ row : AppSetting, row.key = key → db.settings.insert row = none := by
        intro row hkey
        by_contra hsome
        obtain ⟨settings, hsettings⟩ := ne_none_iff_exists'.mp hsome
        have hnone := (insert_eq_some_iff.mp hsettings).1
        rw [hkey, hfind] at hnone
        cases hnone
      have hthrow : insertSetting key value operationId changedAt db =
          (.error (.sql "UNIQUE constraint failed: app_settings.key"), db) := by
        unfold insertSetting writeTransaction transaction
        dsimp only
        rw [hinsert _ rfl]
        rfl
      rw [hthrow]
      dsimp only [findSetting]
      have hrow : db.row (.appSettings, key) = some (.setting current) :=
        congrArg (Option.map _) hfind
      rw [hfind, staleError, hrow]
  · rw [if_pos hzero]
    exact updateSetting_stale hstale

end

theorem staleReviewCommentThread_eq {α : Type}
    {found : Option ReviewCommentThread} (h : db.findReviewCommentThread id = .ok found) :
    (db.staleReviewCommentThread id revision : Except DatabaseError α) =
      staleError db (.reviewCommentThreads, id) (some revision) := by
  have hrow : db.row (.reviewCommentThreads, id) = found.map .reviewCommentThread := by
    rw [← findReviewCommentThread_eq_ok h, Option.map_map]
    rfl
  unfold staleReviewCommentThread staleError
  rw [h, hrow]
  rfl

theorem setReviewCommentThreadStatus_stale
    {status : ReviewCommentStatus} {found : Option ReviewCommentThread}
    (hread : db.findReviewCommentThread id = .ok found)
    (hstale : revisionAt CurrentRow.revision (db.row (.reviewCommentThreads, id)) ≠ revision) :
    (setReviewCommentThreadStatus id revision status operationId changedAt db).1 =
      staleError db (.reviewCommentThreads, id) (some revision) := by
  apply transaction_throws
  dsimp only
  rw [updateWhere_of_forall]
  · exact staleReviewCommentThread_eq hread
  · intro row hrow
    exact decide_eq_false fun heq => hstale (ThreadAt.revisionAt ⟨row, hrow, heq⟩)

theorem deleteReviewCommentThread_stale
    {found : Option ReviewCommentThread} (hread : db.findReviewCommentThread id = .ok found)
    (hstale : revisionAt CurrentRow.revision (db.row (.reviewCommentThreads, id)) ≠ revision) :
    (deleteReviewCommentThread id revision operationId changedAt db).1 =
      staleError db (.reviewCommentThreads, id) (some revision) := by
  have hdelete : db.deleteReviewCommentThreadRow id (·.revision = revision) = (0, db) := by
    unfold deleteReviewCommentThreadRow
    rw [deleteWhere_of_forall]
    · rfl
    · intro row hrow
      exact decide_eq_false fun heq => hstale (ThreadAt.revisionAt ⟨row, hrow, heq⟩)
  apply transaction_throws
  refine (except_bind_of_ok hread).trans ?_
  rw [hdelete]
  exact staleReviewCommentThread_eq hread

theorem TaskBoardDatabase.update_stale {patch : TaskPatch} (hpatch : patch ≠ {})
    (hstale : revisionAt CurrentRow.revision (db.row (.tasks, id)) ≠ revision) :
    (TaskBoardDatabase.update id (some revision) patch changedAt db).1 =
      .error (.caused s!"Task {id} has a stale revision"
        (.taskStaleRevision id revision (TaskDatabase.find db id))) := by
  unfold TaskBoardDatabase.update
  dsimp only
  rw [TaskDatabase.update_stale hpatch hstale]
  rfl

/-- A stale move succeeds without a write where the task has the status already. -/
theorem TaskBoardDatabase.move_stale {status : TaskStatus}
    (hrevision : 1 ≤ revision ∧ revision ≤ maxSafeInteger)
    (hstale : revisionAt CurrentRow.revision (db.row (.tasks, id)) ≠ revision) :
    (forgetBoard (TaskBoardDatabase.move id revision status changedAt db)).1 =
      match TaskDatabase.find db id with
      | none => .error (.database (.error s!"Task not found: {id}"))
      | some task =>
        if task.status = status then .ok ()
        else .error (.database (.error s!"Task changed while moving: {id}")) := by
  have hne := ne_revision hstale
  unfold TaskBoardDatabase.move writeTransaction transaction forgetBoard
  rw [if_neg (not_not.mpr hrevision)]
  dsimp only
  cases hfind : TaskDatabase.find db id with
  | none => rfl
  | some task =>
    dsimp only
    by_cases hstatus : task.status = status
    · rw [if_pos hstatus, if_pos hstatus]
      rfl
    · obtain ⟨row, hrow, rfl⟩ := map_eq_some_iff.mp hfind
      have hchanged : row.toTask.revision ≠ revision := hne row hrow
      rw [if_neg hstatus, if_neg hstatus, if_pos hchanged]
      rfl

end Refusal

section

variable {id : String}

/-! ## What the first writer leaves -/

/-- What the refusal of a second writer reads: the task with the labels of before, or
the thread. -/
structure Leaves (before after : LaborerDatabase) (key : RowKey) : Prop where
  task : key.1 = .tasks →
    (∃ found, after.findTask key.2 = .ok found) ∧ after.labels = before.labels
  thread : key.1 = .reviewCommentThreads → ∃ found, after.findReviewCommentThread key.2 = .ok found

theorem LaborerDatabase.Writes.labels_stay {intent : Intent}
    (h : Writes operationId intent db [.tasks] db') : db'.labels = db.labels := by
  generalize hcollections : [SharedCollectionName.tasks] = collections at h
  cases h with
  | deletedLabel => cases hcollections
  | wroteState entries hwrites =>
    -- no entry of the state ledger is of the tasks
    obtain ⟨entry, -, hentry⟩ := mem_map.mp
      (hcollections ▸ mem_singleton_self SharedCollectionName.tasks)
    cases htable : entry.tableName <;> simp [StateChangeTable.collection, htable] at hentry
  | _ => rfl

theorem findTask_of_none (h : db.tasks.find id = none) : db.findTask id = .ok none := by
  unfold findTask
  rw [h]
  rfl

theorem findTask_of_approvals {row row' : LaborerTask}
    (hread : ∃ found, db.findTask id = .ok found) (hfind : db.tasks.find id = some row)
    (hfind' : db'.tasks.find id = some row') (happrovals : row'.prApprovals = row.prApprovals) :
    ∃ found, db'.findTask id = .ok found := by
  obtain ⟨found, hread⟩ := hread
  unfold findTask at hread ⊢
  rw [hfind] at hread
  rw [hfind']
  dsimp only at hread ⊢
  unfold rowToTask at hread ⊢
  rw [happrovals]
  by_cases hnegative : row.prApprovals.any (· < 0)
  · rw [if_pos hnegative] at hread
    cases hread
  · rw [if_neg hnegative]
    exact ⟨_, rfl⟩

theorem Leaves.of_ne (htask : key.1 ≠ .tasks)
    (hthread : key.1 ≠ .reviewCommentThreads) : Leaves db db' key :=
  ⟨fun h => absurd h htask, fun h => absurd h hthread⟩

theorem Leaves.of_task (hread : ∃ found, db'.findTask id = .ok found)
    (hlabels : db'.labels = db.labels) : Leaves db db' (.tasks, id) :=
  ⟨fun _ => ⟨hread, hlabels⟩, fun h => by cases h⟩

theorem Leaves.of_thread {found : Option ReviewCommentThread}
    (hread : db'.findReviewCommentThread id = .ok found) :
    Leaves db db' (.reviewCommentThreads, id) :=
  ⟨fun h => (by cases h), fun _ => ⟨found, hread⟩⟩

theorem Operation.leaves
    (hreadable : db.Readable) (hexpected : (key, revision) ∈ operation.expected)
    (h : operation.run toLowerCase db = (.ok (), db')) : Leaves db db' key := by
  cases operation with (obtain ⟨_, h⟩ := forget_eq_ok.mp h; try cases mem_singleton.mp hexpected)
  | updateTask => exact .of_task ⟨_, (updateTask_commits h).2.2⟩ (updateTask_writes h).labels_stay
  | deleteTask =>
    exact .of_task ⟨_, findTask_of_none (deleteTask_commits h).2.1⟩
      (deleteTask_writes h).labels_stay
  | setTaskLabels =>
    obtain ⟨rfl, rfl⟩ := mem_toList_map hexpected
    obtain ⟨-, -, hread, hlabels⟩ := setTaskLabels_commits h
    exact .of_task ⟨_, hread⟩ hlabels
  | update id =>
    obtain ⟨rfl, rfl⟩ := mem_toList_map hexpected
    obtain ⟨-, row, hfind, -, hfind', hlabels⟩ := TaskDatabase.update_commits h
    exact .of_task (findTask_of_approvals (hreadable.tasks id) hfind hfind' rfl) hlabels
  | setReviewCommentThreadStatus => exact .of_thread (setReviewCommentThreadStatus_commits h).2.2
  | deleteReviewCommentThread id =>
    have hgone := (deleteReviewCommentThread_commits h).2.2
    have hread : db'.findReviewCommentThread id = .ok none := by
      unfold findReviewCommentThread
      rw [hgone]
      rfl
    exact .of_thread hread
  | updateProject => exact .of_ne (by simp) (by simp)
  | moveProject => exact .of_ne (by simp) (by simp)
  | reorderProjects =>
    obtain ⟨assignment, -, heq⟩ := mem_map.mp hexpected
    cases heq
    exact .of_ne (by simp) (by simp)
  | deleteProject => exact .of_ne (by simp) (by simp)
  | updateLabel =>
    obtain ⟨rfl, -⟩ := mem_toList_map hexpected
    exact .of_ne (by simp) (by simp)
  | deleteLabel =>
    obtain ⟨rfl, -⟩ := mem_toList_map hexpected
    exact .of_ne (by simp) (by simp)
  | setSetting => exact .of_ne (by simp) (by simp)
  | updateSetting => exact .of_ne (by simp) (by simp)
  | deleteSetting => exact .of_ne (by simp) (by simp)
  | _ => exact absurd hexpected not_mem_nil

theorem Writer.leaves (hreadable : db.Readable) (hexpected : (key, revision) ∈ writer.expected)
    (h : writer.run toLowerCase toUpperCase db = (.ok (), db')) (hchanged : db' ≠ db) :
    Leaves db db' key := by
  cases writer with
  | native operation => exact Operation.leaves hreadable hexpected (run_eq_ok_native.mp h)
  | board operation =>
    cases operation with
    | update id =>
      obtain ⟨rfl, rfl⟩ := mem_toList_map hexpected
      obtain ⟨_, h⟩ := forgetBoard_eq_ok.mp h
      obtain ⟨-, row, hfind, -, hfind', hlabels⟩ :=
        TaskDatabase.update_commits (TaskBoardDatabase.update_eq_ok h)
      exact .of_task (findTask_of_approvals (hreadable.tasks id) hfind hfind' rfl) hlabels
    | move id =>
      cases mem_singleton.mp hexpected
      obtain ⟨_, h⟩ := forgetBoard_eq_ok.mp h
      obtain ⟨-, row, _, hfind, -, hfind', hlabels⟩ :=
        (TaskBoardDatabase.move_commits h).resolve_left hchanged
      exact .of_task (findTask_of_approvals (hreadable.tasks id) hfind hfind' rfl) hlabels
    | _ => exact absurd hexpected not_mem_nil

/-! ## The second writer -/

theorem lost {α : Type} {keys : List RowKey} {expected : Option ℤ} (hkey : key ∈ keys)
    (hchanged : db'.row key ≠ db.row key) {result : Except DatabaseError α × LaborerDatabase}
    (h : result.1 = staleError db' key expected) :
    ∃ key ∈ keys, db'.row key ≠ db.row key ∧ ∃ revision,
      (forget result).1.mapError BoardError.database =
        .error (.database (.staleRevision key.1 key.2 revision (db'.row key))) := by
  refine ⟨key, hkey, hchanged, expected, ?_⟩
  unfold forget
  rw [h]
  rfl

theorem requireKnownLabels_congr {taskId : String} {labelIds : List String}
    (h : db'.labels = db.labels) :
    db'.requireKnownLabels taskId labelIds = db.requireKnownLabels taskId labelIds := by
  unfold requireKnownLabels unknownLabelIds
  rw [h]

/-- The labels that a success found known and few enough. -/
theorem setTaskLabels_known {taskId : String} {revision : Option ℤ} {labelIds : List String}
    {result : MutationResult LaborerTask}
    (h : setTaskLabels taskId revision labelIds operationId changedAt db = (.ok result, db')) :
    ¬ maxTaskLabels < (distinct labelIds).length ∧
      db.requireKnownLabels taskId (distinct labelIds) = .ok () := by
  rw [setTaskLabels, write_eq_ok] at h
  dsimp only at h
  split at h
  · cases h
  · next hlength =>
    unfold writeTaskLabels at h
    rw [if_neg hlength] at h
    obtain ⟨_, -, h⟩ := bind_eq_ok.mp h
    obtain ⟨⟨⟩, hknown, -⟩ := bind_eq_ok.mp h
    exact ⟨hlength, hknown⟩

theorem updateTask_patch {patch : LaborerTaskPatch} {result : MutationResult LaborerTask}
    (h : updateTask id revision patch operationId changedAt db = (.ok result, db')) :
    patch ≠ {} := by
  intro hempty
  have hthrow : (updateTask id revision patch operationId changedAt db).1 = .error _ :=
    transaction_throws (if_pos hempty)
  rw [h] at hthrow
  cases hthrow

theorem TaskDatabase.update_patch {revision : Option ℤ} {patch : TaskPatch} {task : Task}
    (h : TaskDatabase.update id revision patch changedAt db = (.ok task, db')) : patch ≠ {} := by
  intro hempty
  have hthrow : (TaskDatabase.update id revision patch changedAt db).1 = .error _ :=
    transaction_throws (if_pos hempty)
  rw [h] at hthrow
  cases hthrow

theorem updateProject_patch {patch : ProjectPatch} {result : MutationResult Project}
    (h : updateProject id revision patch operationId changedAt db = (.ok result, db')) :
    patch ≠ {} := by
  intro hempty
  have hthrow : (updateProject id revision patch operationId changedAt db).1 = .error _ :=
    transaction_throws (if_pos hempty)
  rw [h] at hthrow
  cases hthrow

theorem reorderProjects_assignments {assignments : List ProjectReorderAssignment}
    {operationId : String} {result : ProjectReorderResult}
    (h : reorderProjects assignments operationId changedAt db = (.ok result, db')) :
    assignments ≠ [] ∧ (distinct (assignments.map (·.projectId))).length = assignments.length := by
  rw [reorderProjects, write_eq_ok] at h
  split at h
  · cases h
  · next hnonempty =>
    split at h
    · cases h
    · next hlength => exact ⟨hnonempty, not_not.mp hlength⟩

theorem updateLabel_patch {revision : Option ℤ} {patch : LabelPatch} {result : MutationResult Label}
    (h : updateLabel id revision patch operationId changedAt db = (.ok result, db')) :
    ¬ (patch.name = none ∧ patch.color = none) ∧ ∃ name, patch.name.mapM labelName = .ok name := by
  rw [updateLabel, write_eq_ok] at h
  split at h
  · cases h
  · next hpatch =>
    obtain ⟨name, hname, -⟩ := bind_eq_ok.mp h
    exact ⟨hpatch, name, hname⟩

/-- **A native writer that comes second is refused**, where it would have succeeded. -/
theorem Operation.refused {db₁ : LaborerDatabase} (hexpected : (key, revision) ∈ operation.expected)
    (h : operation.run toLowerCase db = (.ok (), db₁)) (hleaves : Leaves db db' key)
    (hstale : revisionAt CurrentRow.revision (db'.row key) ≠ revision) :
    Writer.Refused db db' (.native operation)
      ((operation.run toLowerCase db').1.mapError .database) := by
  have hchanged : db'.row key ≠ db.row key := by
    intro hsame
    rw [hsame] at hstale
    exact hstale (Operation.moves hexpected h).found
  cases operation with (obtain ⟨_, h⟩ := forget_eq_ok.mp h; try cases mem_singleton.mp hexpected)
  | updateTask =>
    obtain ⟨⟨_, hread⟩, -⟩ := hleaves.task rfl
    exact lost (mem_singleton_self _) hchanged (updateTask_stale (updateTask_patch h) hread hstale)
  | deleteTask =>
    obtain ⟨⟨_, hread⟩, -⟩ := hleaves.task rfl
    exact lost (mem_singleton_self _) hchanged (deleteTask_stale hread hstale)
  | setTaskLabels =>
    obtain ⟨rfl, rfl⟩ := mem_toList_map hexpected
    obtain ⟨⟨_, hread⟩, hlabels⟩ := hleaves.task rfl
    obtain ⟨hlength, hknown⟩ := setTaskLabels_known h
    rw [← requireKnownLabels_congr hlabels] at hknown
    obtain ⟨_, hthrow⟩ := setTaskLabels_stale hread hlength hknown hstale
    exact lost (mem_singleton_self _) hchanged hthrow
  | update =>
    obtain ⟨rfl, rfl⟩ := mem_toList_map hexpected
    refine ⟨revision, rfl, ?_⟩
    unfold Operation.run forget
    dsimp only
    rw [TaskDatabase.update_stale (TaskDatabase.update_patch h) hstale]
    rfl
  | updateProject =>
    exact lost (mem_singleton_self _) hchanged (updateProject_stale (updateProject_patch h) hstale)
  | moveProject =>
    exact lost (mem_singleton_self _) hchanged (updateProject_stale (updateProject_patch h) hstale)
  | reorderProjects assignments operationId changedAt =>
    obtain ⟨assignment, hassignment, heq⟩ := mem_map.mp hexpected
    cases heq
    obtain ⟨hnonempty, hlength⟩ := reorderProjects_assignments h
    have hat := (reorderProjects_commits h).2
    obtain ⟨other, hother, hne, hthrow⟩ := reorderProjects_stale hnonempty hlength hassignment
      fun hat => hstale (ProjectAt.revisionAt hat)
    have hsecond : (LaborerDatabaseTable.projects, other.projectId) ∈
        (Operation.reorderProjects assignments operationId changedAt).expected.map Prod.fst :=
      mem_map.mpr ⟨_, mem_map_of_mem hother, rfl⟩
    refine lost hsecond (fun hsame => hne ?_) hthrow
    -- the project is as it was, at the revision that it was found at
    obtain ⟨row, hfind, hrevision⟩ := hat other hother
    change (db'.projects.find _).map CurrentRow.project = (db.projects.find _).map _ at hsame
    rw [hfind] at hsame
    obtain ⟨row', hfind', heq⟩ := map_eq_some_iff.mp hsame
    cases heq
    exact ⟨row, hfind', hrevision⟩
  | deleteProject => exact lost (mem_singleton_self _) hchanged (deleteProject_stale hstale)
  | updateLabel =>
    obtain ⟨rfl, rfl⟩ := mem_toList_map hexpected
    obtain ⟨hpatch, name, hname⟩ := updateLabel_patch h
    exact lost (mem_singleton_self _) hchanged (updateLabel_stale hpatch hname hstale)
  | deleteLabel =>
    obtain ⟨rfl, rfl⟩ := mem_toList_map hexpected
    exact lost (mem_singleton_self _) hchanged (deleteLabel_stale hstale)
  | setSetting => exact lost (mem_singleton_self _) hchanged (setSetting_stale hstale)
  | updateSetting => exact lost (mem_singleton_self _) hchanged (updateSetting_stale hstale)
  | deleteSetting => exact lost (mem_singleton_self _) hchanged (deleteSetting_stale hstale)
  | setReviewCommentThreadStatus =>
    obtain ⟨_, hread⟩ := hleaves.thread rfl
    exact lost (mem_singleton_self _) hchanged (setReviewCommentThreadStatus_stale hread hstale)
  | deleteReviewCommentThread =>
    obtain ⟨_, hread⟩ := hleaves.thread rfl
    exact lost (mem_singleton_self _) hchanged (deleteReviewCommentThread_stale hread hstale)
  | _ => exact absurd hexpected not_mem_nil

theorem TaskBoardDatabase.move_revision {status : TaskStatus} {task : Task}
    (h : TaskBoardDatabase.move id revision status changedAt db = (.ok task, db')) :
    1 ≤ revision ∧ revision ≤ maxSafeInteger := by
  unfold TaskBoardDatabase.move at h
  split at h
  · cases h
  · next hrevision => exact not_not.mp hrevision

theorem BoardOperation.refused {db₁ : LaborerDatabase} {operation : BoardOperation}
    (hexpected : (key, revision) ∈ operation.expected)
    (h : operation.run toUpperCase db = (.ok (), db₁))
    (hstale : revisionAt CurrentRow.revision (db'.row key) ≠ revision) :
    Writer.Refused db db' (.board operation) (operation.run toUpperCase db').1 := by
  cases operation with
  | update =>
    obtain ⟨rfl, rfl⟩ := mem_toList_map hexpected
    obtain ⟨_, h⟩ := forgetBoard_eq_ok.mp h
    refine ⟨revision, rfl, ?_⟩
    have hpatch := TaskDatabase.update_patch (TaskBoardDatabase.update_eq_ok h)
    unfold BoardOperation.run forgetBoard
    dsimp only
    rw [TaskBoardDatabase.update_stale hpatch hstale]
    rfl
  | move =>
    cases mem_singleton.mp hexpected
    obtain ⟨_, h⟩ := forgetBoard_eq_ok.mp h
    exact TaskBoardDatabase.move_stale (TaskBoardDatabase.move_revision h) hstale
  | _ => exact absurd hexpected not_mem_nil

end

/-- **The writers of the two databases.** Each commits, with every row that it changed at its
next revision and with one new entry, or throws and leaves the database as it was. Of two from
the same revision of a row, the later one writes nothing; and if it would have succeeded alone,
it is told the row that it lost to. -/
theorem Writer.commit_once (toLowerCase toUpperCase : String → String) (db : LaborerDatabase) :
    (∀ writer : Writer, writer.Covered db →
      (∃ db' tasks states, writer.run toLowerCase toUpperCase db = (.ok (), db') ∧
        Commits db db' tasks states) ∨
          ∃ e, writer.run toLowerCase toUpperCase db = (.error e, db)) ∧
      (db.Readable → ∀ (first second : Writer) (key : RowKey) (revision : ℤ)
        (db' : LaborerDatabase),
        (key, revision) ∈ first.expected → (key, revision) ∈ second.expected →
          first.run toLowerCase toUpperCase db = (.ok (), db') → db' ≠ db →
            (second.run toLowerCase toUpperCase db').2 = db' ∧
              ((second.run toLowerCase toUpperCase db).1 = .ok () →
                second.Refused db db' (second.run toLowerCase toUpperCase db').1)) := by
  refine ⟨fun writer => Writer.commits_or_throws, ?_⟩
  intro hreadable first second key revision db' hfirst hsecond hrun hchanged
  have hmoves := (Writer.moves hfirst hrun).resolve_left hchanged
  have hstale := hmoves.moved (hreadable.revisions key)
  refine ⟨Writer.run_of_stale hsecond hstale, fun halone => ?_⟩
  have hleaves := Writer.leaves hreadable hfirst hrun hchanged
  cases second with
  | native operation =>
    have hok : Writer.run toLowerCase toUpperCase db (.native operation) =
        (.ok (), (Writer.run toLowerCase toUpperCase db (.native operation)).2) :=
      Prod.ext halone rfl
    exact Operation.refused hsecond (Writer.run_eq_ok_native.mp hok) hleaves hstale
  | board operation =>
    have hok : operation.run toUpperCase db =
        (.ok (), (operation.run toUpperCase db).2) := Prod.ext halone rfl
    exact BoardOperation.refused hsecond hok hstale

def oneTask : LaborerDatabase :=
  { LaborerDatabase.migrated 0 with
    labels := .empty
    tasks :=
      { rows :=
          [adoptedTaskRow
            { branchName := none, id := "task", rootPath := "/root", title := "Title",
              worktreePath := "/worktree", worktreePathAliases := [] } 0]
        keysNodup := List.nodup_singleton _ } }

theorem oneTask_readable : oneTask.Readable := by
  have hrow : ∀ id row, oneTask.tasks.find id = some row →
      row.prApprovals = none ∧ row.revision = 1 := by
    intro id row hfind
    cases mem_singleton.mp (mem_of_find hfind)
    exact ⟨rfl, rfl⟩
  refine ⟨fun id => ?_, ?_⟩
  · unfold findTask
    cases hfind : oneTask.tasks.find id with
    | none => exact ⟨_, rfl⟩
    | some row =>
      dsimp only
      unfold rowToTask
      rw [(hrow id row hfind).1]
      exact ⟨_, rfl⟩
  · rintro ⟨table, key⟩ row hmem
    cases table with
    | tasks =>
      obtain ⟨task, hfind, rfl⟩ := map_eq_some_iff.mp hmem
      exact (hrow key task hfind).2.ge
    | _ => cases hmem

/-- Two updates from the first revision of a task. -/
theorem Writer.commit_once_updates :
    ((Writer.native (.updateTask "task" 1 { title := some "Second" } none 2)).run id id
        ((Writer.native (.updateTask "task" 1 { title := some "First" } none 1)).run id id
          oneTask).2).2 =
      ((Writer.native (.updateTask "task" 1 { title := some "First" } none 1)).run id id
        oneTask).2 :=
  ((Writer.commit_once id id oneTask).2 oneTask_readable
    (.native (.updateTask "task" 1 { title := some "First" } none 1))
    (.native (.updateTask "task" 1 { title := some "Second" } none 2)) (.tasks, "task") 1 _
    (mem_singleton_self _) (mem_singleton_self _) rfl
    fun heq => absurd (congrArg (fun db : LaborerDatabase => db.taskChanges.last) heq)
      (by decide)).1

/-- Moves of one task from one revision to the same status both succeed, and a move to
another is not told the row that it lost to. -/
theorem Writer.moves_fromOneRevision :
    let first := (Writer.board (.move "task" 1 .done 1)).run id id oneTask
    first.1 = .ok () ∧ first.2.row (.tasks, "task") ≠ oneTask.row (.tasks, "task") ∧
      ((Writer.board (.move "task" 1 .done 2)).run id id first.2).1 = .ok () ∧
        ((Writer.board (.move "task" 1 .cancelled 2)).run id id first.2).1 =
          .error (.database (.error "Task changed while moving: task")) := by
  refine ⟨rfl, ?_, rfl, rfl⟩
  decide

end Laborer.Database
