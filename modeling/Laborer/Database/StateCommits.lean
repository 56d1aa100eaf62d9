import Laborer.Database.TaskCommits

/-!
# Commits of the other operations

The operations on projects, settings and review comment threads, with the entries of
their commits and the revisions that they found.
-/

namespace Laborer.Database

open Laborer.Library List Option Table

namespace LaborerDatabase

variable {db db' : LaborerDatabase} {operationId : Option String} {changedAt : ℤ}

theorem Commits.thread
    {reviewCommentThreads : Table ReviewCommentThreadRow ReviewCommentThreadRow.id}
    {reviewCommentReplies : Table ReviewCommentReply ReviewCommentReply.id} {id : String}
    (h : Revises (·.revision) db.reviewCommentThreads.find reviewCommentThreads.find [id])
    (hreplies : ∀ id' ≠ id, (reviewCommentReplies.rows.filter (·.threadId = id')) =
      db.reviewCommentReplies.rows.filter (·.threadId = id')) :
    Commits db ({ db with reviewCommentThreads, reviewCommentReplies }.publishReviewCommentThread id
      changedAt operationId).2
      [] [{ changedAt, operationId, rowId := id, tableName := .reviewCommentThreads }] := by
  have hthread : ∀ (db : LaborerDatabase) (id : String),
      revisionAt CurrentRow.revision (db.row (.reviewCommentThreads, id)) =
        revisionAt (·.revision) (db.reviewCommentThreads.find id) := by
    intro db id
    change revisionAt _ ((db.reviewCommentThreads.find id).map _) = _
    cases db.reviewCommentThreads.find id with
    | none => rfl
    | some row => rfl
  have hid : id ∈ [id] := mem_singleton_self id
  refine .entry rfl rfl (.one ?_ ?_ ?_)
  · rintro ⟨table, id'⟩ hkey
    cases table with
    | reviewCommentThreads =>
      have hmem := key_notMem hkey
      change (reviewCommentThreads.find id').map _ = (db.reviewCommentThreads.find id').map _
      rw [h.same hmem]
      cases hfind : db.reviewCommentThreads.find id' with
      | none => rfl
      | some row =>
        have hrow : row.id = id' := key_of_find hfind
        simp only [map_some, threadOf, hrow, hreplies id' (ne_of_not_mem_cons hmem)]
    | _ => rfl
  · intro row hrow
    obtain ⟨row, hfind, rfl⟩ := map_eq_some_iff.mp hrow
    exact (h.revised id hid row hfind).trans (congrArg (· + 1) (hthread db id).symm)
  · intro hnone hsame
    have hnone' : reviewCommentThreads.find id = none := map_eq_none_iff.mp hnone
    have hsame' : db.reviewCommentThreads.find id = none := map_eq_none_iff.mp hsame
    exact (h.changed id).mp hid (hnone'.trans hsame'.symm)

end LaborerDatabase

namespace NativeLaborerDatabase

open LaborerDatabase

variable {db db' : LaborerDatabase} {operationId : Option String} {changedAt : ℤ}
  {expectedRevision : ℤ} {assignments : List ProjectReorderAssignment} {key value : String}
  {result : MutationResult AppSetting} {id : String}

/-! ## Projects -/

theorem insertProject_commits {input : NewProject} {result : MutationResult Project}
    (h : insertProject input operationId changedAt db = (.ok result, db')) :
    ∃ states, Commits db db' [] states := by
  rw [insertProject, write_eq_ok] at h
  split at h
  · cases h
    exact ⟨_, .refl db⟩
  · obtain ⟨db₁, hinsert, h⟩ := bind_eq_ok.mp h
    obtain ⟨_, -, h⟩ := bind_eq_ok.mp h
    cases h
    unfold insertProjectRow at hinsert
    split at hinsert
    · cases hinsert
    · next projects hprojects =>
      obtain ⟨⟨⟩, -, hinsert⟩ := bind_eq_ok.mp hinsert
      cases hinsert
      exact ⟨_, .project (.inserted hprojects rfl)⟩

def ProjectAt (db : LaborerDatabase) (id : String) (revision : ℤ) : Prop :=
  ∃ row, db.projects.find id = some row ∧ row.revision = revision

theorem updateProject_commits {patch : ProjectPatch} {result : MutationResult Project}
    (h : updateProject id expectedRevision patch operationId changedAt db = (.ok result, db')) :
    Commits db db' [] [{ changedAt, operationId, rowId := id, tableName := .projects }] ∧
      ProjectAt db id expectedRevision := by
  rw [updateProject, write_eq_ok] at h
  split at h
  · cases h
  · obtain ⟨⟨changes, db₁⟩, hupdate, h⟩ := bind_eq_ok.mp h
    dsimp only at h
    split at h
    · cases h
    · next hchanges =>
      obtain ⟨_, -, h⟩ := bind_eq_ok.mp h
      cases h
      obtain ⟨row, hfind, hrevision, rfl⟩ := updateProjectRow_eq hchanges hupdate
      exact ⟨.project (.modified hfind _ (fun _ => by rfl) (by rfl)), row, hfind, hrevision⟩

def reorderEntries (operationId : String) (changedAt : ℤ)
    (assignments : List ProjectReorderAssignment) : List StateChange :=
  assignments.map fun assignment =>
    { changedAt, operationId := some operationId, rowId := assignment.projectId,
      tableName := .projects }

theorem applyReorder_commits {operationId : String}
    {cursor cursor' : ℕ} (hnodup : (assignments.map (·.projectId)).Nodup)
    (h : applyReorder operationId changedAt assignments cursor db = .ok (cursor', db')) :
    Commits db db' [] (reorderEntries operationId changedAt assignments) := by
  induction assignments generalizing cursor db with
  | nil =>
    cases h
    exact .refl _
  | cons assignment rest ih =>
    rw [map_cons, nodup_cons] at hnodup
    unfold applyReorder at h
    cases hupdate : db.projects.updateWhere assignment.projectId
        (·.revision = assignment.expectedRevision)
        (fun row => { row with
          sortOrder := assignment.sortOrder, updatedAt := changedAt, revision := row.revision + 1 })
        (fun _ => rfl) with
    | mk changes projects =>
      rw [hupdate] at h
      dsimp only at h
      split at h
      · cases h
      · next hchanges =>
        obtain ⟨row, hfind, -, rfl⟩ := updateWhere_eq (by omega) hupdate
        -- the later assignments are of other projects
        refine Commits.trans (.project (.modified hfind _ (fun _ => by rfl) (by rfl)))
          (ih hnodup.2 h) ?_
        intro key hkey hkey'
        rw [map_cons, map_nil, mem_singleton] at hkey
        obtain ⟨change, hchange, heq⟩ := mem_map.mp hkey'
        obtain ⟨other, hother, rfl⟩ := mem_map.mp hchange
        have hid : other.projectId = assignment.projectId := congrArg Prod.snd (heq.trans hkey)
        exact hnodup.1 (hid ▸ mem_map_of_mem hother)

theorem checkReorder_eq_ok (h : checkReorder db assignments = .ok ()) :
    ∀ assignment ∈ assignments, ProjectAt db assignment.projectId assignment.expectedRevision := by
  induction assignments with
  | nil => exact fun assignment hmem => absurd hmem not_mem_nil
  | cons assignment rest ih =>
    unfold checkReorder at h
    split at h
    · cases h
    · next current hcurrent =>
      split at h
      · cases h
      · next hrevision =>
        intro other hother
        rcases mem_cons.mp hother with rfl | hother
        · exact ⟨current, hcurrent, not_not.mp hrevision⟩
        · exact ih h other hother

theorem nodup_of_distinct_length {α : Type} [DecidableEq α] {items : List α}
    (h : (distinct items).length = items.length) : items.Nodup := by
  have hsubset : distinct items ⊆ items := fun _ hmem => mem_distinct.mp hmem
  have hperm : (distinct items).Perm items :=
    (subperm_of_subset (distinct_nodup items) hsubset).perm_of_length_le h.ge
  exact hperm.nodup_iff.mp (distinct_nodup items)

theorem reorderProjects_commits {operationId : String} {result : ProjectReorderResult}
    (h : reorderProjects assignments operationId changedAt db = (.ok result, db')) :
    Commits db db' [] (reorderEntries operationId changedAt assignments) ∧
      ∀ assignment ∈ assignments,
        ProjectAt db assignment.projectId assignment.expectedRevision := by
  rw [reorderProjects, write_eq_ok] at h
  split at h
  · cases h
  · split at h
    · cases h
    · next hlength =>
      obtain ⟨⟨⟩, hcheck, h⟩ := bind_eq_ok.mp h
      obtain ⟨⟨cursor, db₁⟩, happly, h⟩ := bind_eq_ok.mp h
      obtain ⟨_, -, h⟩ := bind_eq_ok.mp h
      cases h
      refine ⟨applyReorder_commits (nodup_of_distinct_length ?_) happly, checkReorder_eq_ok hcheck⟩
      rw [length_map]
      exact not_not.mp hlength

theorem deleteProject_commits {result : MutationResult Project}
    (h : deleteProject id expectedRevision operationId changedAt db = (.ok result, db')) :
    Commits db db' [] [{ changedAt, operationId, rowId := id, tableName := .projects }] ∧
      ProjectAt db id expectedRevision := by
  rw [deleteProject, write_eq_ok] at h
  cases hdelete : db.projects.deleteWhere id (·.revision = expectedRevision) with
  | mk changes projects =>
    rw [hdelete] at h
    dsimp only at h
    split at h
    · cases h
    · cases h
    · next hchanges hrow =>
      obtain ⟨row, hfind, hrevision, rfl⟩ := deleteWhere_eq (fun heq => hchanges heq) hdelete
      cases h
      exact ⟨.project (.erased hfind), row, hfind, of_decide_eq_true hrevision⟩

/-! ## Settings -/

theorem insertSetting_commits
    (h : insertSetting key value operationId changedAt db = (.ok result, db')) :
    Commits db db' [] [{ changedAt, operationId, rowId := key, tableName := .appSettings }] ∧
      db.settings.find key = none := by
  rw [insertSetting, write_eq_ok] at h
  split at h
  · cases h
  · next settings hsettings =>
    obtain ⟨_, -, h⟩ := bind_eq_ok.mp h
    cases h
    exact ⟨.setting (.inserted hsettings rfl), (insert_eq_some_iff.mp hsettings).1⟩

def SettingAt (db : LaborerDatabase) (key : String) (revision : ℤ) : Prop :=
  ∃ row, db.settings.find key = some row ∧ row.revision = revision

theorem updateSetting_commits
    (h : updateSetting key expectedRevision value operationId changedAt db = (.ok result, db')) :
    Commits db db' [] [{ changedAt, operationId, rowId := key, tableName := .appSettings }] ∧
      SettingAt db key expectedRevision := by
  rw [updateSetting, write_eq_ok] at h
  cases hupdate : db.settings.updateWhere key (·.revision = expectedRevision)
      (fun row => { row with value, updatedAt := changedAt, revision := row.revision + 1 })
      (fun _ => rfl) with
  | mk changes settings =>
    rw [hupdate] at h
    dsimp only at h
    split at h
    · cases h
    · next hchanges =>
      obtain ⟨_, -, h⟩ := bind_eq_ok.mp h
      cases h
      obtain ⟨row, hfind, hrevision, rfl⟩ := updateWhere_eq hchanges hupdate
      exact ⟨.setting (.modified hfind _ (fun _ => by rfl) (by rfl)), row, hfind,
        of_decide_eq_true hrevision⟩

theorem setSetting_commits
    (h : setSetting key expectedRevision value operationId changedAt db = (.ok result, db')) :
    Commits db db' [] [{ changedAt, operationId, rowId := key, tableName := .appSettings }] ∧
      if expectedRevision = 0 then db.settings.find key = none
      else SettingAt db key expectedRevision := by
  unfold setSetting at h
  split at h
  · next hrevision =>
    rw [if_neg hrevision]
    exact updateSetting_commits h
  · next hrevision =>
    rw [if_pos (not_not.mp hrevision)]
    split at h
    · split at h
      · cases h
      · cases h
    · exact insertSetting_commits h

theorem deleteSetting_commits
    (h : deleteSetting key expectedRevision operationId changedAt db = (.ok result, db')) :
    Commits db db' [] [{ changedAt, operationId, rowId := key, tableName := .appSettings }] ∧
      SettingAt db key expectedRevision := by
  rw [deleteSetting, write_eq_ok] at h
  cases hdelete : db.settings.deleteWhere key (·.revision = expectedRevision) with
  | mk changes settings =>
    dsimp only at h
    rw [hdelete] at h
    dsimp only at h
    split at h
    · cases h
    · cases h
    · next hchanges hrow =>
      obtain ⟨row, hfind, hrevision, rfl⟩ := deleteWhere_eq (fun heq => hchanges heq) hdelete
      cases h
      exact ⟨.setting (.erased hfind), row, hfind, of_decide_eq_true hrevision⟩

/-! ## Review comment threads -/

def ThreadAt (db : LaborerDatabase) (id : String) (revision : ℤ) : Prop :=
  ∃ row, db.reviewCommentThreads.find id = some row ∧ row.revision = revision

theorem findReviewCommentThread_of_require {thread : ReviewCommentThread}
    (h : db.requireReviewCommentThread id = .ok thread) :
    db.findReviewCommentThread id = .ok (some thread) := by
  obtain ⟨found, hfound, h⟩ := bind_eq_ok.mp h
  cases found with
  | none => cases h
  | some found =>
    cases h
    exact hfound

theorem setReviewCommentThreadStatus_commits
    {status : ReviewCommentStatus} {result : MutationResult ReviewCommentThread}
    (h : setReviewCommentThreadStatus id expectedRevision status operationId changedAt db =
      (.ok result, db')) :
    Commits db db' []
      [{ changedAt, operationId, rowId := id, tableName := .reviewCommentThreads }] ∧
      ThreadAt db id expectedRevision ∧
        db'.findReviewCommentThread id = .ok (some result.row) := by
  rw [setReviewCommentThreadStatus, write_eq_ok] at h
  cases hupdate : db.reviewCommentThreads.updateWhere id (·.revision = expectedRevision)
      (fun row => { row with status, updatedAt := changedAt, revision := row.revision + 1 })
      (fun _ => rfl) with
  | mk changes threads =>
    rw [hupdate] at h
    dsimp only at h
    split at h
    · obtain ⟨_, -, h⟩ := bind_eq_ok.mp h
      cases h
    · next hchanges =>
      obtain ⟨_, hrequire, h⟩ := bind_eq_ok.mp h
      cases h
      obtain ⟨row, hfind, hrevision, rfl⟩ := updateWhere_eq hchanges hupdate
      exact ⟨.thread (.modified hfind _ (fun _ => by rfl) (by rfl)) fun _ _ => rfl,
        ⟨row, hfind, of_decide_eq_true hrevision⟩, findReviewCommentThread_of_require hrequire⟩

theorem deleteReviewCommentThreadRow_commits (operationId : Option String) (changedAt : ℤ)
    {row : ReviewCommentThreadRow} (p : ReviewCommentThreadRow → Bool)
    (hfind : db.reviewCommentThreads.find id = some row)
    (hp : p row) :
    Commits db ((db.deleteReviewCommentThreadRow id p).2.publishReviewCommentThread id changedAt
      operationId).2
      [] [{ changedAt, operationId, rowId := id, tableName := .reviewCommentThreads }] := by
  have hdelete : db.reviewCommentThreads.deleteWhere id p =
      (1, db.reviewCommentThreads.erase id) := by
    rw [Table.deleteWhere, hfind]
    exact if_pos hp
  unfold deleteReviewCommentThreadRow
  rw [hdelete]
  refine .thread (.erased hfind) fun id' hid => ?_
  change (db.reviewCommentReplies.rows.filter _).filter _ = _
  rw [List.filter_filter]
  apply filter_congr
  intro reply _
  by_cases hreply : reply.threadId = id'
  · simp [hreply, hid]
  · simp [hreply]

theorem deleteReviewCommentThreadRow_found {p : ReviewCommentThreadRow → Bool}
    {changes : ℕ} (hchanges : changes ≠ 0)
    (h : db.deleteReviewCommentThreadRow id p = (changes, db')) :
    ∃ row, db.reviewCommentThreads.find id = some row ∧ p row ∧
      db'.reviewCommentThreads = db.reviewCommentThreads.erase id := by
  unfold deleteReviewCommentThreadRow at h
  cases hdelete : db.reviewCommentThreads.deleteWhere id p with
  | mk n threads =>
    rw [hdelete] at h
    dsimp only at h
    split at h
    · cases h
      exact absurd rfl hchanges
    · cases h
      obtain ⟨row, hfind, hp, rfl⟩ := deleteWhere_eq hchanges hdelete
      exact ⟨row, hfind, hp, rfl⟩

theorem deleteReviewCommentThread_commits {result : MutationResult ReviewCommentThread}
    (h : deleteReviewCommentThread id expectedRevision operationId changedAt db =
      (.ok result, db')) :
    Commits db db' []
      [{ changedAt, operationId, rowId := id, tableName := .reviewCommentThreads }] ∧
      ThreadAt db id expectedRevision ∧ db'.reviewCommentThreads.find id = none := by
  rw [deleteReviewCommentThread, write_eq_ok] at h
  obtain ⟨found, -, h⟩ := bind_eq_ok.mp h
  cases hdelete : db.deleteReviewCommentThreadRow id (·.revision = expectedRevision) with
  | mk changes db₁ =>
    rw [hdelete] at h
    dsimp only at h
    split at h
    · obtain ⟨_, -, h⟩ := bind_eq_ok.mp h
      cases h
    · obtain ⟨_, -, h⟩ := bind_eq_ok.mp h
      cases h
    · next hchanges =>
      cases h
      obtain ⟨row, hfind, hp, herase⟩ :=
        deleteReviewCommentThreadRow_found (fun heq => hchanges heq) hdelete
      have hcommits := deleteReviewCommentThreadRow_commits operationId changedAt
        (·.revision = expectedRevision) hfind hp
      rw [hdelete] at hcommits
      refine ⟨hcommits, ⟨row, hfind, of_decide_eq_true hp⟩, ?_⟩
      change db₁.reviewCommentThreads.find id = none
      rw [herase, find_erase, if_pos rfl]

theorem foldl_deleteThread_commits {rows : List ReviewCommentThread}
    (hnodup : (rows.map fun row => row.id).Nodup)
    (hfound : ∀ row ∈ rows, (db.reviewCommentThreads.find row.id).isSome) :
    Commits db (rows.foldl (fun db row =>
      let (_, db) := db.deleteReviewCommentThreadRow row.id fun _ => true
      (db.publishReviewCommentThread row.id changedAt operationId).2) db) []
      (rows.map fun row =>
        { changedAt, operationId, rowId := row.id, tableName := .reviewCommentThreads }) := by
  induction rows generalizing db with
  | nil => exact .refl db
  | cons row rows ih =>
    rw [map_cons, nodup_cons] at hnodup
    obtain ⟨stored, hfind⟩ := isSome_iff_exists.mp (hfound row mem_cons_self)
    have hfirst := deleteReviewCommentThreadRow_commits operationId changedAt (fun _ => true)
      hfind rfl
    refine hfirst.trans (ih hnodup.2 fun other hother => ?_) ?_
    · -- the other threads are still there
      have hid : other.id ≠ row.id := fun heq => hnodup.1 (heq ▸ mem_map_of_mem hother)
      have hkept : ((db.reviewCommentThreads.erase row.id).find other.id).isSome := by
        rw [find_erase, if_neg hid]
        exact hfound other (mem_cons_of_mem _ hother)
      have hdelete : db.reviewCommentThreads.deleteWhere row.id (fun _ => true) =
          (1, db.reviewCommentThreads.erase row.id) := by
        rw [deleteWhere, hfind]
        rfl
      unfold deleteReviewCommentThreadRow
      rw [hdelete]
      exact hkept
    · intro key hkey hkey'
      rw [map_cons, map_nil, mem_singleton] at hkey
      obtain ⟨change, hchange, heq⟩ := mem_map.mp hkey'
      obtain ⟨other, hother, rfl⟩ := mem_map.mp hchange
      have hid : other.id = row.id := congrArg Prod.snd (heq.trans hkey)
      exact hnodup.1 (hid ▸ mem_map_of_mem hother)

theorem mapM_reviewCommentThread_ids {rows : List ReviewCommentThreadRow}
    {threads : List ReviewCommentThread} (h : rows.mapM db.reviewCommentThread = .ok threads) :
    threads.map (fun thread => thread.id) = rows.map (·.id) := by
  induction rows generalizing threads with
  | nil =>
    cases h
    rfl
  | cons row rows ih =>
    rw [mapM_cons] at h
    obtain ⟨thread, hthread, h⟩ := bind_eq_ok.mp h
    obtain ⟨rest, hrest, h⟩ := bind_eq_ok.mp h
    cases h
    obtain ⟨replies, -, hthread⟩ := bind_eq_ok.mp hthread
    cases hthread
    rw [map_cons, map_cons, ih hrest]

theorem listReviewCommentThreads_ids {wid : String} {threads : List ReviewCommentThread}
    (h : db.listReviewCommentThreads wid = .ok threads) :
    (threads.map fun thread => thread.id).Nodup ∧
      ∀ thread ∈ threads, (db.reviewCommentThreads.find thread.id).isSome := by
  unfold listReviewCommentThreads at h
  obtain ⟨rows, hrows, h⟩ := bind_eq_ok.mp h
  have hids := mapM_reviewCommentThread_ids h
  unfold boundedRows at hrows
  split at hrows
  · cases hrows
  · cases hrows
    generalize hsorted : (db.reviewCommentThreads.rows.filter (·.workspaceId = wid)).insertionSort
      (fun r r' => before r.createdAt r.id r'.createdAt r'.id) = sorted at hids h
    have hperm : sorted.Perm (db.reviewCommentThreads.rows.filter (·.workspaceId = wid)) :=
      hsorted ▸ perm_insertionSort _ _
    constructor
    · rw [hids]
      have hnodup : (sorted.map (·.id)).Nodup := (hperm.map _).nodup_iff.mpr
          (db.reviewCommentThreads.keysNodup.sublist (filter_sublist.map _))
      exact hnodup.sublist ((take_sublist _ _).map _)
    · intro thread hthread
      have hmem : thread.id ∈ (sorted.take (maxTableRows + 1)).map (·.id) :=
        hids ▸ mem_map_of_mem hthread
      obtain ⟨row, hrow, hid⟩ := mem_map.mp hmem
      have hstored := (mem_filter.mp (hperm.subset (mem_of_mem_take hrow))).1
      rw [← hid, find_key hstored]
      rfl

theorem deleteReviewCommentThreadsForWorkspace_commits {wid : String}
    {result : List ReviewCommentThread}
    (h : deleteReviewCommentThreadsForWorkspace wid operationId changedAt db =
      (.ok result, db')) : ∃ states, Commits db db' [] states := by
  rw [deleteReviewCommentThreadsForWorkspace, write_eq_ok] at h
  obtain ⟨rows, hrows, h⟩ := bind_eq_ok.mp h
  cases h
  obtain ⟨hnodup, hfound⟩ := listReviewCommentThreads_ids hrows
  exact ⟨_, foldl_deleteThread_commits hnodup hfound⟩

end NativeLaborerDatabase

end Laborer.Database
