import Laborer.Database.TaskWrites

/-!
# What the other operations write

The operations on labels, projects, settings and review comments leave the tasks
alone and account for every row they change in the state ledger.
-/

namespace Laborer.Database

open Laborer.Library List Table

namespace LaborerDatabase

variable {db db' : LaborerDatabase} {operationId : Option String} {changedAt : ℤ}

/-! ## Entries -/

theorem StateWrites.refl (db : LaborerDatabase) : StateWrites operationId db [] db :=
  ⟨rfl, rfl, rfl, fun _ h => h, by simp, fun _ h => absurd h not_mem_nil, fun _ _ => rfl⟩

theorem StateWrites.trans {db'' : LaborerDatabase} {entries entries' : List StateChange}
    (h : StateWrites operationId db entries db') (h' : StateWrites operationId db' entries' db'') :
    StateWrites operationId db (entries ++ entries') db'' := by
  refine ⟨h'.tasks.trans h.tasks, h'.counters.trans h.counters,
    h'.taskChanges.trans h.taskChanges, fun id hid => h'.labels id (h.labels id hid), ?_, ?_, ?_⟩
  · rw [h'.stateChanges, h.stateChanges, Ledger.appendAll_append]
  · intro entry hentry
    exact (mem_append.mp hentry).elim (h.operationIds entry) (h'.operationIds entry)
  · intro key hkey
    rw [map_append, mem_append, not_or] at hkey
    exact (h'.accounted key hkey.2).trans (h.accounted key hkey.1)

/-- A write that has changed one row, and has yet to append its entry. -/
structure ChangesOnly (db db' : LaborerDatabase) (key : StateChangeTable × String) : Prop where
  tasks : db'.tasks = db.tasks
  counters : db'.taskNumberCounters = db.taskNumberCounters
  taskChanges : db'.taskChanges = db.taskChanges
  stateChanges : db'.stateChanges = db.stateChanges
  labels : ∀ id, (db.labels.find id).isSome → (db'.labels.find id).isSome
  rows : ∀ key' ≠ key, db'.stateRow key' = db.stateRow key'

theorem ChangesOnly.refl (db : LaborerDatabase) (key : StateChangeTable × String) :
    ChangesOnly db db key :=
  ⟨rfl, rfl, rfl, rfl, fun _ h => h, fun _ _ => rfl⟩

theorem ChangesOnly.trans {db'' : LaborerDatabase} {key : StateChangeTable × String}
    (h : ChangesOnly db db' key) (h' : ChangesOnly db' db'' key) : ChangesOnly db db'' key :=
  ⟨h'.tasks.trans h.tasks, h'.counters.trans h.counters, h'.taskChanges.trans h.taskChanges,
    h'.stateChanges.trans h.stateChanges, fun id hid => h'.labels id (h.labels id hid),
    fun key' hkey => (h'.rows key' hkey).trans (h.rows key' hkey)⟩

theorem ChangesOnly.append {tableName : StateChangeTable} {rowId : String}
    (h : ChangesOnly db db' (tableName, rowId)) :
    StateWrites operationId db [{ changedAt, operationId, rowId, tableName }]
      (db'.appendStateChange tableName rowId changedAt operationId).2 := by
  refine ⟨h.tasks, h.counters, h.taskChanges, h.labels, ?_, ?_, ?_⟩
  · change db'.stateChanges.append _ = _
    rw [h.stateChanges]
    rfl
  · exact fun entry hentry => by rw [mem_singleton.mp hentry]
  · exact fun key hkey => h.rows key fun heq => hkey (heq ▸ mem_singleton_self _)

theorem ChangesOnly.writes {tableName : StateChangeTable} {rowId : String}
    (h : ChangesOnly db db' (tableName, rowId)) : Writes operationId {} db [tableName.collection]
      (db'.appendStateChange tableName rowId changedAt operationId).2 :=
  .wroteState _ _ h.append

/-! ## The tables -/

theorem changesOnly_projects {projects : Table Project Project.id} {id : String}
    (h : ∀ id' ≠ id, projects.find id' = db.projects.find id') :
    ChangesOnly db { db with projects } (.projects, id) := by
  refine ⟨rfl, rfl, rfl, rfl, fun _ h => h, ?_⟩
  rintro ⟨tableName, id'⟩ hkey
  cases tableName with
  | projects =>
    have hid : id' ≠ id := fun heq => hkey (by rw [heq])
    change (projects.find id').map _ = (db.projects.find id').map _
    rw [h id' hid]
  | _ => rfl

theorem changesOnly_settings {settings : Table AppSetting AppSetting.key} {key : String}
    (h : ∀ key' ≠ key, settings.find key' = db.settings.find key') :
    ChangesOnly db { db with settings } (.appSettings, key) := by
  refine ⟨rfl, rfl, rfl, rfl, fun _ h => h, ?_⟩
  rintro ⟨tableName, key'⟩ hkey
  cases tableName with
  | appSettings =>
    have hid : key' ≠ key := fun heq => hkey (by rw [heq])
    change (settings.find key').map _ = (db.settings.find key').map _
    rw [h key' hid]
  | _ => rfl

theorem changesOnly_labels {labels : LabelTable} {id : String}
    (h : ∀ id' ≠ id, labels.find id' = db.labels.find id') (hid : (labels.find id).isSome) :
    ChangesOnly db { db with labels } (.labels, id) := by
  refine ⟨rfl, rfl, rfl, rfl, fun id' h' => ?_, ?_⟩
  · by_cases heq : id' = id
    · rw [heq]
      exact hid
    · change (labels.find id').isSome
      rwa [h id' heq]
  · rintro ⟨tableName, id'⟩ hkey
    cases tableName with
    | labels =>
      have hid : id' ≠ id := fun heq => hkey (by rw [heq])
      change (labels.find id').map _ = (db.labels.find id').map _
      rw [h id' hid]
    | _ => rfl

theorem changesOnly_reviewComments
    {reviewCommentThreads : Table ReviewCommentThreadRow ReviewCommentThreadRow.id}
    {reviewCommentReplies : Table ReviewCommentReply ReviewCommentReply.id} {id : String}
    (hthreads : ∀ id' ≠ id, reviewCommentThreads.find id' = db.reviewCommentThreads.find id')
    (hreplies : ∀ id' ≠ id, (reviewCommentReplies.rows.filter (·.threadId = id')) =
      db.reviewCommentReplies.rows.filter (·.threadId = id')) :
    ChangesOnly db { db with reviewCommentThreads, reviewCommentReplies }
      (.reviewCommentThreads, id) := by
  refine ⟨rfl, rfl, rfl, rfl, fun _ h => h, ?_⟩
  rintro ⟨tableName, id'⟩ hkey
  cases tableName with
  | reviewCommentThreads =>
    have hid : id' ≠ id := fun heq => hkey (by rw [heq])
    change (reviewCommentThreads.find id').map _ = (db.reviewCommentThreads.find id').map _
    rw [hthreads id' hid]
    cases hfind : db.reviewCommentThreads.find id' with
    | none => rfl
    | some row =>
      have hrow : row.id = id' := key_of_find hfind
      simp only [Option.map_some, threadOf, hrow, hreplies id' hid]
  | _ => rfl

theorem listReviewCommentReplies_eq_ok {tid : String} {replies : List ReviewCommentReply}
    (h : db.listReviewCommentReplies tid = .ok replies) :
    replies = (db.reviewCommentReplies.rows.filter (·.threadId = tid)).insertionSort
      fun r r' => before r.createdAt r.id r'.createdAt r'.id := by
  unfold listReviewCommentReplies boundedRows at h
  split at h
  · cases h
  · next hbound =>
    cases h
    apply take_of_length_le
    rw [length_take] at hbound
    omega

theorem findReviewCommentThread_eq_ok {id : String} {found : Option ReviewCommentThread}
    (h : db.findReviewCommentThread id = .ok found) :
    (db.reviewCommentThreads.find id).map db.threadOf = found := by
  unfold findReviewCommentThread at h
  split at h
  · next hfind =>
    cases h
    rw [hfind]
    rfl
  · next row hfind =>
    rw [hfind]
    cases hreplies : db.listReviewCommentReplies row.id with
    | error e =>
      simp only [reviewCommentThread, hreplies] at h
      cases h
    | ok replies =>
      simp only [reviewCommentThread, hreplies] at h
      cases h
      rw [listReviewCommentReplies_eq_ok hreplies]
      rfl

end LaborerDatabase

namespace NativeLaborerDatabase

open LaborerDatabase

variable {db db' : LaborerDatabase} {operationId : Option String} {changedAt : ℤ}
  {taskUlid key value : String} {expectedRevision : ℤ} {author : ReviewCommentAuthor}
  {result : MutationResult ReviewCommentThread} {id : String}

/-! ## Labels -/

theorem createLabel_writes {toLowerCase : String → String} {input : NewLabel}
    {result : MutationResult Label}
    (h : createLabel toLowerCase taskUlid input operationId changedAt db = (.ok result, db')) :
    Writes operationId {} db
      (if (db.labels.find (input.id.getD taskUlid)).isSome then [] else [.labels]) db' := by
  rw [createLabel, write_eq_ok] at h
  obtain ⟨name, -, h⟩ := bind_eq_ok.mp h
  dsimp only [findLabel] at h
  split at h
  · next existing hfind =>
    cases h
    rw [hfind]
    exact .nothing
  · next hfind =>
    split at h
    · cases h
    · obtain ⟨db₁, hinsert, h⟩ := bind_eq_ok.mp h
      obtain ⟨_, -, h⟩ := bind_eq_ok.mp h
      cases h
      unfold insertLabelRow at hinsert
      split at hinsert
      · cases hinsert
      · next labels hlabels =>
        obtain ⟨⟨⟩, -, hinsert⟩ := bind_eq_ok.mp hinsert
        cases hinsert
        have hchanges : ChangesOnly db { db with labels } (.labels, input.id.getD taskUlid) := by
          apply changesOnly_labels
          · intro id' hid
            rw [find_insert hlabels, if_neg (Ne.symm hid)]
          · rw [find_insert hlabels, if_pos rfl]
            rfl
        rw [hfind]
        exact hchanges.writes

theorem updateLabelRow_eq {expectedRevision : Option ℤ} {name : String}
    {color : LabelColor} {changes : ℕ} (hchanges : changes ≠ 0)
    (h : db.updateLabelRow id expectedRevision name color changedAt = .ok (changes, db')) :
    ∃ row, db.labels.find id = some row ∧ db' = { db with
      labels := db.labels.modify id (fun row => { row with
        name, color, updatedAt := changedAt, revision := row.revision + 1 }) fun _ => rfl } := by
  unfold updateLabelRow at h
  cases hupdate : db.labels.updateWhere id (fun row => expectedRevision.all (· = row.revision))
      (fun row => { row with name, color, updatedAt := changedAt, revision := row.revision + 1 })
      (fun _ => rfl) with
  | mk n labels =>
    rw [hupdate] at h
    dsimp only at h
    split at h
    · cases h
      exact absurd rfl hchanges
    · cases h
      exact absurd rfl hchanges
    · obtain ⟨⟨⟩, -, h⟩ := bind_eq_ok.mp h
      cases h
      obtain ⟨row, hfind, -, rfl⟩ := updateWhere_eq hchanges hupdate
      exact ⟨row, hfind, rfl⟩

theorem updateLabelRow_changes {expectedRevision : Option ℤ} {name : String}
    {color : LabelColor} {changes : ℕ} (hchanges : changes ≠ 0)
    (h : db.updateLabelRow id expectedRevision name color changedAt = .ok (changes, db')) :
    ChangesOnly db db' (.labels, id) := by
  obtain ⟨row, hfind, rfl⟩ := updateLabelRow_eq hchanges h
  apply changesOnly_labels
  · intro id' hid
    rw [find_modify, if_neg hid]
  · rw [find_modify_self _ _ hfind]
    rfl

theorem updateLabel_writes {expectedRevision : Option ℤ} {patch : LabelPatch}
    {result : MutationResult Label}
    (h : updateLabel id expectedRevision patch operationId changedAt db = (.ok result, db')) :
    Writes operationId {} db [.labels] db' := by
  rw [updateLabel, write_eq_ok] at h
  split at h
  · cases h
  · obtain ⟨name, -, h⟩ := bind_eq_ok.mp h
    split at h
    · cases h
    · next current hfind =>
      split at h
      · cases h
      · obtain ⟨⟨⟩, -, h⟩ := bind_eq_ok.mp h
        obtain ⟨⟨changes, db₁⟩, hupdate, h⟩ := bind_eq_ok.mp h
        dsimp only at h
        split at h
        · cases h
        · next hchanges =>
          obtain ⟨_, -, h⟩ := bind_eq_ok.mp h
          cases h
          exact (updateLabelRow_changes hchanges hupdate).writes

/-! ## Projects -/

theorem insertProject_writes {input : NewProject} {result : MutationResult Project}
    (h : insertProject input operationId changedAt db = (.ok result, db')) :
    Writes operationId {} db
      (if (operationId.bind db.findProjectByOperationId).isSome then [] else [.projects]) db' := by
  rw [insertProject, write_eq_ok] at h
  dsimp only at h
  split at h
  · next replay hreplay =>
    cases h
    rw [hreplay]
    exact .nothing
  · next hreplay =>
    obtain ⟨db₁, hinsert, h⟩ := bind_eq_ok.mp h
    obtain ⟨_, -, h⟩ := bind_eq_ok.mp h
    cases h
    unfold insertProjectRow at hinsert
    split at hinsert
    · cases hinsert
    · next projects hprojects =>
      obtain ⟨⟨⟩, -, hinsert⟩ := bind_eq_ok.mp hinsert
      cases hinsert
      have hchanges : ChangesOnly db { db with projects } (.projects, input.id) := by
        apply changesOnly_projects
        intro id' hid
        rw [find_insert hprojects, if_neg (Ne.symm hid)]
      rw [hreplay]
      exact hchanges.writes

theorem updateProjectRow_eq {f : Project → Project}
    {hf : ∀ row, (f row).id = row.id} {changes : ℕ} (hchanges : changes ≠ 0)
    (h : db.updateProjectRow id expectedRevision f hf = .ok (changes, db')) :
    ∃ row, db.projects.find id = some row ∧ row.revision = expectedRevision ∧
      db' = { db with projects := db.projects.modify id f hf } := by
  unfold updateProjectRow at h
  cases hupdate : db.projects.updateWhere id (·.revision = expectedRevision) f hf with
  | mk n projects =>
    rw [hupdate] at h
    dsimp only at h
    split at h
    · cases h
      exact absurd rfl hchanges
    · cases h
      exact absurd rfl hchanges
    · obtain ⟨⟨⟩, -, h⟩ := bind_eq_ok.mp h
      cases h
      obtain ⟨row, hfind, hrevision, rfl⟩ := updateWhere_eq hchanges hupdate
      exact ⟨row, hfind, of_decide_eq_true hrevision, rfl⟩

theorem updateProjectRow_changes {f : Project → Project}
    {hf : ∀ row, (f row).id = row.id} {changes : ℕ} (hchanges : changes ≠ 0)
    (h : db.updateProjectRow id expectedRevision f hf = .ok (changes, db')) :
    ChangesOnly db db' (.projects, id) := by
  obtain ⟨row, -, -, rfl⟩ := updateProjectRow_eq hchanges h
  apply changesOnly_projects
  intro id' hid
  rw [find_modify, if_neg hid]

theorem updateProject_writes {patch : ProjectPatch} {result : MutationResult Project}
    (h : updateProject id expectedRevision patch operationId changedAt db = (.ok result, db')) :
    Writes operationId {} db [.projects] db' := by
  rw [updateProject, write_eq_ok] at h
  split at h
  · cases h
  · obtain ⟨⟨changes, db₁⟩, hupdate, h⟩ := bind_eq_ok.mp h
    dsimp only at h
    split at h
    · cases h
    · next hchanges =>
      obtain ⟨_, -, h⟩ := bind_eq_ok.mp h
      cases h
      exact (updateProjectRow_changes hchanges hupdate).writes

theorem applyReorder_writes {operationId : String} {assignments : List ProjectReorderAssignment}
    {cursor cursor' : ℕ}
    (h : applyReorder operationId changedAt assignments cursor db = .ok (cursor', db')) :
    StateWrites (some operationId) db
      (assignments.map fun assignment =>
        { changedAt, operationId := some operationId, rowId := assignment.projectId,
          tableName := .projects }) db' := by
  induction assignments generalizing cursor db with
  | nil =>
    cases h
    exact .refl _
  | cons assignment rest ih =>
    unfold applyReorder at h
    cases hupdate : db.projects.updateWhere assignment.projectId
        (·.revision = assignment.expectedRevision)
        (fun row => { row with
          sortOrder := assignment.sortOrder, updatedAt := changedAt, revision := row.revision + 1 })
        (fun _ => rfl) with
    | mk changes projects =>
      rw [hupdate] at h
      dsimp only at h
      split at h
      · cases h
      · next hchanges =>
        obtain ⟨row, -, -, rfl⟩ := updateWhere_eq (by omega) hupdate
        refine (ChangesOnly.append (changesOnly_projects fun id' hid => ?_)).trans (ih h)
        rw [find_modify, if_neg hid]

theorem reorderProjects_writes {assignments : List ProjectReorderAssignment} {operationId : String}
    {result : ProjectReorderResult}
    (h : reorderProjects assignments operationId changedAt db = (.ok result, db')) :
    Writes (some operationId) {} db (assignments.map fun _ => .projects) db' := by
  rw [reorderProjects, write_eq_ok] at h
  split at h
  · cases h
  · split at h
    · cases h
    · obtain ⟨⟨⟩, -, h⟩ := bind_eq_ok.mp h
      obtain ⟨⟨cursor, db₁⟩, happly, h⟩ := bind_eq_ok.mp h
      obtain ⟨_, -, h⟩ := bind_eq_ok.mp h
      cases h
      have hwrites : Writes _ {} db _ _ := .wroteState _ _ (applyReorder_writes happly)
      rwa [map_map] at hwrites

theorem deleteProject_writes {result : MutationResult Project}
    (h : deleteProject id expectedRevision operationId changedAt db = (.ok result, db')) :
    Writes operationId {} db [.projects] db' := by
  rw [deleteProject, write_eq_ok] at h
  cases hdelete : db.projects.deleteWhere id (·.revision = expectedRevision) with
  | mk changes projects =>
    dsimp only at h
    rw [hdelete] at h
    dsimp only at h
    split at h
    · cases h
    · cases h
    · next hchanges hrow =>
      obtain ⟨row, -, -, rfl⟩ := deleteWhere_eq (fun heq => hchanges heq) hdelete
      cases h
      refine (changesOnly_projects fun id' hid => ?_).writes
      rw [find_erase, if_neg hid]

/-! ## Settings -/

theorem insertSetting_writes {result : MutationResult AppSetting}
    (h : insertSetting key value operationId changedAt db = (.ok result, db')) :
    Writes operationId {} db [.settings] db' := by
  rw [insertSetting, write_eq_ok] at h
  split at h
  · cases h
  · next settings hsettings =>
    obtain ⟨_, -, h⟩ := bind_eq_ok.mp h
    cases h
    refine (changesOnly_settings fun key' hkey => ?_).writes
    rw [find_insert hsettings, if_neg (Ne.symm hkey)]

theorem updateSetting_writes {result : MutationResult AppSetting}
    (h : updateSetting key expectedRevision value operationId changedAt db = (.ok result, db')) :
    Writes operationId {} db [.settings] db' := by
  rw [updateSetting, write_eq_ok] at h
  cases hupdate : db.settings.updateWhere key (·.revision = expectedRevision)
      (fun row => { row with value, updatedAt := changedAt, revision := row.revision + 1 })
      (fun _ => rfl) with
  | mk changes settings =>
    rw [hupdate] at h
    dsimp only at h
    split at h
    · cases h
    · next hchanges =>
      obtain ⟨_, -, h⟩ := bind_eq_ok.mp h
      cases h
      obtain ⟨row, -, -, rfl⟩ := updateWhere_eq hchanges hupdate
      refine (changesOnly_settings fun key' hkey => ?_).writes
      rw [find_modify, if_neg hkey]

theorem setSetting_writes {result : MutationResult AppSetting}
    (h : setSetting key expectedRevision value operationId changedAt db = (.ok result, db')) :
    Writes operationId {} db [.settings] db' := by
  unfold setSetting at h
  split at h
  · exact updateSetting_writes h
  · split at h
    · split at h
      · cases h
      · cases h
    · exact insertSetting_writes h

theorem deleteSetting_writes {result : MutationResult AppSetting}
    (h : deleteSetting key expectedRevision operationId changedAt db = (.ok result, db')) :
    Writes operationId {} db [.settings] db' := by
  rw [deleteSetting, write_eq_ok] at h
  cases hdelete : db.settings.deleteWhere key (·.revision = expectedRevision) with
  | mk changes settings =>
    dsimp only at h
    rw [hdelete] at h
    dsimp only at h
    split at h
    · cases h
    · cases h
    · next hchanges hrow =>
      obtain ⟨row, -, -, rfl⟩ := deleteWhere_eq (fun heq => hchanges heq) hdelete
      cases h
      refine (changesOnly_settings fun key' hkey => ?_).writes
      rw [find_erase, if_neg hkey]

/-! ## Review comments -/

theorem insertReviewCommentReply_changes {row : ReviewCommentReply}
    (h : db.insertReviewCommentReply row = .ok db') :
    ChangesOnly db db' (.reviewCommentThreads, row.threadId) := by
  unfold insertReviewCommentReply at h
  split at h
  · cases h
  · next replies hreplies =>
    split at h
    · cases h
    · cases h
      refine changesOnly_reviewComments (fun _ _ => rfl) fun id' hid => ?_
      rw [(insert_eq_some_iff.mp hreplies).2, filter_append]
      simp [Ne.symm hid]

theorem insertReviewCommentThreadRow_changes {row : ReviewCommentThreadRow}
    (h : db.insertReviewCommentThreadRow row = .ok db') :
    ChangesOnly db db' (.reviewCommentThreads, row.id) := by
  unfold insertReviewCommentThreadRow at h
  split at h
  · cases h
  · split at h
    · cases h
    · next threads hthreads =>
      cases h
      refine changesOnly_reviewComments (fun id' hid => ?_) fun _ _ => rfl
      rw [find_insert hthreads, if_neg (Ne.symm hid)]

theorem deleteReviewCommentThreadRow_changes (id : String) (p : ReviewCommentThreadRow → Bool) :
    ChangesOnly db (db.deleteReviewCommentThreadRow id p).2 (.reviewCommentThreads, id) := by
  unfold deleteReviewCommentThreadRow
  cases hdelete : db.reviewCommentThreads.deleteWhere id p with
  | mk changes threads =>
    dsimp only
    split
    · exact .refl db _
    · next hchanges =>
      obtain ⟨row, -, -, rfl⟩ := deleteWhere_eq hchanges hdelete
      refine changesOnly_reviewComments (fun id' hid => ?_) fun id' hid => ?_
      · rw [find_erase, if_neg hid]
      · change (db.reviewCommentReplies.rows.filter _).filter _ = _
        rw [filter_filter]
        apply filter_congr
        intro reply _
        by_cases hreply : reply.threadId = id'
        · simp [hreply, hid]
        · simp [hreply]

theorem createReviewCommentThread_writes {replyUlid : String} {input : NewReviewCommentThread}
    (h : createReviewCommentThread taskUlid replyUlid input author operationId changedAt db =
      (.ok result, db')) :
    Writes operationId {} db
      (if (db.reviewCommentThreads.find (input.id.getD taskUlid)).isSome then []
        else [.reviewComments]) db' := by
  rw [createReviewCommentThread, write_eq_ok] at h
  obtain ⟨draft, hdraft, h⟩ := bind_eq_ok.mp h
  have hid : draft.id = input.id := by
    unfold validateNewReviewCommentThread at hdraft
    obtain ⟨_, -, hdraft⟩ := bind_eq_ok.mp hdraft
    obtain ⟨_, -, hdraft⟩ := bind_eq_ok.mp hdraft
    obtain ⟨_, -, hdraft⟩ := bind_eq_ok.mp hdraft
    cases hdraft
    rfl
  rw [hid] at h
  obtain ⟨found, hfound, h⟩ := bind_eq_ok.mp h
  replace hfound := findReviewCommentThread_eq_ok hfound
  cases found with
  | some existing =>
    cases h
    obtain ⟨row, hfind, -⟩ := Option.map_eq_some_iff.mp hfound
    rw [hfind]
    exact .nothing
  | none =>
    obtain ⟨db₁, hthread, h⟩ := bind_eq_ok.mp h
    obtain ⟨db₂, hreply, h⟩ := bind_eq_ok.mp h
    obtain ⟨_, -, h⟩ := bind_eq_ok.mp h
    cases h
    rw [Option.map_eq_none_iff.mp hfound]
    exact ((insertReviewCommentThreadRow_changes hthread).trans
      (insertReviewCommentReply_changes hreply)).writes

theorem appendReviewCommentReply_writes {input : NewReviewCommentReply}
    (h : appendReviewCommentReply taskUlid input author operationId changedAt db =
      (.ok result, db')) : ∃ thread, db.findReviewCommentThread input.threadId = .ok (some thread) ∧
      Writes operationId {} db
        (if thread.replies.any (·.id = input.id.getD taskUlid) then [] else [.reviewComments])
        db' := by
  rw [appendReviewCommentReply, write_eq_ok] at h
  obtain ⟨body, -, h⟩ := bind_eq_ok.mp h
  obtain ⟨found, hfound, h⟩ := bind_eq_ok.mp h
  cases found with
  | none => cases h
  | some thread =>
    refine ⟨thread, hfound, ?_⟩
    dsimp only at h
    split at h
    · next hreplay =>
      cases h
      rw [if_pos hreplay]
      exact .nothing
    · next hreplay =>
      split at h
      · cases h
      · obtain ⟨db₁, hreply, h⟩ := bind_eq_ok.mp h
        obtain ⟨_, -, h⟩ := bind_eq_ok.mp h
        cases h
        rw [if_neg hreplay]
        exact (insertReviewCommentReply_changes hreply).writes

theorem updateReviewCommentReply_writes {replyId body : String}
    (h : updateReviewCommentReply replyId body author operationId changedAt db =
      (.ok result, db')) : Writes operationId {} db [.reviewComments] db' := by
  rw [updateReviewCommentReply, write_eq_ok] at h
  obtain ⟨nextBody, -, h⟩ := bind_eq_ok.mp h
  split at h
  · cases h
  · next reply hreply =>
    split at h
    · cases h
    · obtain ⟨_, -, h⟩ := bind_eq_ok.mp h
      cases h
      refine (changesOnly_reviewComments (fun id' hid => ?_) fun id' hid => ?_).writes
      · rw [find_modify, if_neg hid]
      · -- the edited reply belongs to the thread before and after
        have hkept : ∀ row : ReviewCommentReply,
            ({ row with body := nextBody } : ReviewCommentReply).id = row.id := fun _ => rfl
        refine filter_rows_modify hkept fun row hrow => ?_
        rw [hreply] at hrow
        cases hrow
        simp [Ne.symm hid]

theorem setReviewCommentThreadStatus_writes {status : ReviewCommentStatus}
    (h : setReviewCommentThreadStatus id expectedRevision status operationId changedAt db =
      (.ok result, db')) : Writes operationId {} db [.reviewComments] db' := by
  rw [setReviewCommentThreadStatus, write_eq_ok] at h
  cases hupdate : db.reviewCommentThreads.updateWhere id (·.revision = expectedRevision)
      (fun row => { row with status, updatedAt := changedAt, revision := row.revision + 1 })
      (fun _ => rfl) with
  | mk changes threads =>
    rw [hupdate] at h
    dsimp only at h
    split at h
    · obtain ⟨_, -, h⟩ := bind_eq_ok.mp h
      cases h
    · next hchanges =>
      obtain ⟨_, -, h⟩ := bind_eq_ok.mp h
      cases h
      obtain ⟨row, -, -, rfl⟩ := updateWhere_eq hchanges hupdate
      refine (changesOnly_reviewComments (fun id' hid => ?_) fun _ _ => rfl).writes
      rw [find_modify, if_neg hid]

theorem deleteReviewCommentThread_writes
    (h : deleteReviewCommentThread id expectedRevision operationId changedAt db =
      (.ok result, db')) : Writes operationId {} db [.reviewComments] db' := by
  rw [deleteReviewCommentThread, write_eq_ok] at h
  obtain ⟨found, -, h⟩ := bind_eq_ok.mp h
  have hchanges : ChangesOnly db _ (.reviewCommentThreads, id) :=
    deleteReviewCommentThreadRow_changes id (·.revision = expectedRevision)
  cases hdelete : db.deleteReviewCommentThreadRow id (·.revision = expectedRevision) with
  | mk changes db₁ =>
    rw [hdelete] at h hchanges
    dsimp only at h
    split at h
    · obtain ⟨_, -, h⟩ := bind_eq_ok.mp h
      cases h
    · obtain ⟨_, -, h⟩ := bind_eq_ok.mp h
      cases h
    · cases h
      exact hchanges.writes

theorem foldl_deleteThread_writes (changedAt : ℤ) (rows : List ReviewCommentThread)
    (db : LaborerDatabase) :
    StateWrites operationId db (rows.map fun row =>
        { changedAt, operationId, rowId := row.id, tableName := .reviewCommentThreads })
      (rows.foldl (fun db row =>
        let (_, db) := db.deleteReviewCommentThreadRow row.id fun _ => true
        (db.publishReviewCommentThread row.id changedAt operationId).2) db) := by
  induction rows generalizing db with
  | nil => exact .refl db
  | cons row rows ih =>
    exact (deleteReviewCommentThreadRow_changes row.id fun _ => true).append.trans (ih _)

theorem deleteReviewCommentThreadsForWorkspace_writes {wid : String}
    {result : List ReviewCommentThread}
    (h : deleteReviewCommentThreadsForWorkspace wid operationId changedAt db =
      (.ok result, db')) : Writes operationId {} db (result.map fun _ => .reviewComments) db' := by
  rw [deleteReviewCommentThreadsForWorkspace, write_eq_ok] at h
  obtain ⟨rows, -, h⟩ := bind_eq_ok.mp h
  cases h
  have hwrites : Writes operationId {} db _ _ :=
    .wroteState _ _ (foldl_deleteThread_writes changedAt result db)
  rwa [map_map] at hwrites

end NativeLaborerDatabase

end Laborer.Database
