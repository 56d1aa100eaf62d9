import Laborer.Database.Writes

/-!
# What task and label operations write

One lemma for each statement and each operation: what a success found in the
database, and what it left.
-/

namespace Laborer.Database

open Laborer.Library List Table

namespace LaborerDatabase

/-! ## Reading functions -/

variable {row : LaborerTask}

theorem rowToTask_eq_ok {row' : LaborerTask} (h : rowToTask row = .ok row') : row' = row := by
  unfold rowToTask at h
  split at h
  · cases h
  · cases h
    rfl

variable {db : LaborerDatabase} {id : String}

theorem findTask_eq_ok {found : Option LaborerTask}
    (h : db.findTask id = .ok found) : db.tasks.find id = found := by
  unfold findTask at h
  split at h
  · next hfind =>
    cases h
    exact hfind
  · next row hfind =>
    cases hrow : rowToTask row with
    | error e =>
      rw [hrow] at h
      cases h
    | ok row' =>
      rw [hrow] at h
      cases h
      rw [hfind, rowToTask_eq_ok hrow]

theorem requireTask_succeeds
    (hfind : db.tasks.find id = some row) (happrovals : ∀ n ∈ row.prApprovals, 0 ≤ n) :
    db.requireTask id = .ok row := by
  have hrow : rowToTask row = .ok row := by
    unfold rowToTask
    rw [if_neg]
    · rfl
    · cases hprApprovals : row.prApprovals with
      | none => simp
      | some n =>
        have hn := happrovals n hprApprovals
        simpa using hn
  unfold requireTask findTask
  rw [hfind]
  dsimp only
  rw [hrow]
  rfl

theorem requireKnownLabels_eq_ok {taskId : String} {labelIds : List String}
    (h : db.requireKnownLabels taskId labelIds = .ok ()) :
    ∀ id ∈ labelIds, (db.labels.find id).isSome := by
  unfold requireKnownLabels unknownLabelIds at h
  dsimp only at h
  split at h
  · cases h
  · next hunknown =>
    intro id hid
    by_contra hnone
    apply hunknown
    apply length_pos_of_mem (a := id)
    exact mem_filter.mpr ⟨hid, by simpa using hnone⟩

variable {revision : Option ℤ}

theorem staleTask_ne_ok {α : Type} {a : α} : db.staleTask id revision ≠ .ok a := by
  intro h
  obtain ⟨_, _, h⟩ := bind_eq_ok.mp h
  cases h

/-! ## Statements -/

theorem checkTaskRow_eq_ok {tasks : TaskTable} :
    checkTaskRow tasks row = .ok () ↔ TaskRowAllowed tasks row := by
  unfold checkTaskRow
  split_ifs with hexecution hnumber hparent
  · refine ⟨fun h => (by cases h), fun h => ?_⟩
    obtain ⟨hsome, other, hother, hne, heq⟩ := hexecution
    exact absurd heq (h.executionIdFree hsome other hother hne)
  · refine ⟨fun h => (by cases h), fun h => ?_⟩
    obtain ⟨other, hother, hne, hroot, heq⟩ := hnumber
    exact absurd heq (h.taskNumberFree other hother hne hroot)
  · refine ⟨fun h => (by cases h), fun h => ?_⟩
    obtain ⟨parent, hmem, hne, hmissing⟩ := hparent
    exact absurd hmissing (h.parentExists parent hmem hne)
  · refine iff_of_true rfl ⟨?_, ?_, ?_⟩
    · exact fun hsome other hother hne heq => hexecution ⟨hsome, other, hother, hne, heq⟩
    · exact fun other hother hne hroot heq => hnumber ⟨other, hother, hne, hroot, heq⟩
    · exact fun parent hmem hne hmissing => hparent ⟨parent, hmem, hne, hmissing⟩

variable {db' : LaborerDatabase}

theorem insertTaskRow_eq_ok :
    db.insertTaskRow row = .ok db' ↔
      TaskRowAllowed db.tasks (db.numbered row) ∧
        ∃ tasks, db.tasks.insert (db.numbered row) = some tasks ∧
          db' = { db with
            tasks
            taskNumberCounters := bumpTaskNumberCounter db.taskNumberCounters row.rootPath } := by
  rw [← checkTaskRow_eq_ok]
  unfold insertTaskRow numbered
  dsimp only
  split
  · next hinsert =>
    rw [hinsert]
    simp [throw, throwThe, MonadExceptOf.throw]
  · next tasks hinsert =>
    rw [hinsert, bind_eq_ok]
    constructor
    · rintro ⟨⟨⟩, hcheck, h⟩
      cases h
      exact ⟨hcheck, tasks, rfl, rfl⟩
    · rintro ⟨hcheck, tasks', htasks, rfl⟩
      cases htasks
      exact ⟨(), hcheck, rfl⟩

variable {changes : ℕ}

theorem updateTaskRow_eq_ok {f : LaborerTask → LaborerTask}
    {hf : ∀ row, (f row).id = row.id} (hchanges : changes ≠ 0)
    (h : db.updateTaskRow id revision f hf = .ok (changes, db')) :
    ∃ row, db.tasks.find id = some row ∧ (∀ r ∈ revision, r = row.revision) ∧
      TaskRowAllowed db.tasks (f row) ∧
        db' = { db with tasks := db.tasks.modify id f hf } := by
  unfold updateTaskRow at h
  cases hfind : db.tasks.find id with
  | none =>
    rw [hfind] at h
    cases h
    exact absurd rfl hchanges
  | some row =>
    rw [hfind] at h
    dsimp only at h
    split at h
    · cases h
      exact absurd rfl hchanges
    · next hrevision =>
      obtain ⟨⟨⟩, hcheck, h⟩ := bind_eq_ok.mp h
      cases h
      refine ⟨row, rfl, ?_, checkTaskRow_eq_ok.mp hcheck, rfl⟩
      intro r hr
      rw [hr] at hrevision
      simpa using hrevision

theorem deleteTaskRow_eq {revision : ℤ} (hchanges : changes ≠ 0)
    (h : db.deleteTaskRow id revision = (changes, db')) :
    ∃ row, db.tasks.find id = some row ∧ row.revision = revision ∧
      db' = { db with tasks := withoutTask db.tasks id } := by
  unfold deleteTaskRow at h
  cases hfind : db.tasks.find id with
  | none =>
    rw [hfind] at h
    cases h
    exact absurd rfl hchanges
  | some row =>
    rw [hfind] at h
    dsimp only at h
    split at h
    · cases h
      exact absurd rfl hchanges
    · next hrevision =>
      cases h
      exact ⟨row, rfl, not_not.mp hrevision, rfl⟩

theorem relabelTaskRow_eq
    {labelIds : List String} {changedAt : ℤ} (hchanges : changes ≠ 0)
    (h : db.relabelTaskRow id revision labelIds changedAt = (changes, db')) :
    ∃ row, db.tasks.find id = some row ∧ (∀ r ∈ revision, r = row.revision) ∧
      db' = { db with
        tasks := db.tasks.modify id (relabelled (distinct labelIds) changedAt) fun _ => rfl } := by
  unfold relabelTaskRow at h
  cases hupdate : db.tasks.updateWhere id (fun row => revision.all (· = row.revision))
      (relabelled (distinct labelIds) changedAt) (fun _ => rfl) with
  | mk n tasks =>
    rw [hupdate] at h
    cases h
    obtain ⟨row, hfind, hrevision, rfl⟩ := updateWhere_eq hchanges hupdate
    refine ⟨row, hfind, ?_, rfl⟩
    intro r hr
    rw [hr] at hrevision
    simpa using hrevision

/-! ## The deletion of a label -/

section Strip

variable {labelId : String} {changedAt : ℤ} {operationId : Option String}

theorem stripLabelFromTask_carrier {db : LaborerDatabase} {row : LaborerTask}
    (hrow : row ∈ db.tasks.rows) (hcarries : labelId ∈ row.labelIds) :
    stripLabelFromTask labelId changedAt operationId db row =
      { db with
        tasks := db.tasks.modify row.id (stripped labelId changedAt)
          (stripped_id labelId changedAt)
        taskChanges := db.taskChanges.append { changedAt, operationId, taskId := row.id } } := by
  have hfind : db.tasks.find row.id = some row := find_key hrow
  have hmodify : db.tasks.modify row.id
        (relabelled (distinct (row.labelIds.filter (· ≠ labelId))) changedAt) (fun _ => rfl) =
      db.tasks.modify row.id (stripped labelId changedAt) (stripped_id labelId changedAt) := by
    apply modify_congr
    intro current hcurrent
    rw [hfind] at hcurrent
    cases hcurrent
    exact (if_pos hcarries).symm
  unfold stripLabelFromTask relabelTaskRow updateWhere
  rw [if_pos hcarries, hfind, ← hmodify]
  rfl

/-- The loop over the tasks that carry the label: each of them is stripped, with an
entry in the ledger. -/
theorem foldl_stripLabelFromTask (rows : List LaborerTask) (db : LaborerDatabase)
    (hmem : ∀ row ∈ rows, row ∈ db.tasks.rows) (hnodup : (rows.map LaborerTask.id).Nodup)
    (hcarry : ∀ row ∈ rows, labelId ∈ row.labelIds) :
    rows.foldl (stripLabelFromTask labelId changedAt operationId) db =
      { db with
        tasks := db.tasks.mapRows
          (fun row => if row.id ∈ rows.map LaborerTask.id then stripped labelId changedAt row
            else row)
          (fun row => by
            split
            · exact stripped_id labelId changedAt row
            · rfl)
        taskChanges := db.taskChanges.appendAll (rows.map fun row =>
          { changedAt, operationId, taskId := row.id }) } := by
  induction rows generalizing db with
  | nil =>
    have htasks : ∀ hf, db.tasks.mapRows (fun row => if row.id ∈ [].map LaborerTask.id then
        stripped labelId changedAt row else row) hf = db.tasks := by
      intro hf
      apply ext_rows
      simp [mapRows]
    rw [foldl_nil, htasks, map_nil, Ledger.appendAll_nil]
  | cons row rows ih =>
    rw [map_cons, nodup_cons] at hnodup
    have hcurrent : stripLabelFromTask labelId changedAt operationId db row = _ :=
      stripLabelFromTask_carrier (hmem row mem_cons_self) (hcarry row mem_cons_self)
    rw [foldl_cons, hcurrent, ih]
    · simp only [LaborerDatabase.mk.injEq, true_and, and_true]
      constructor
      · apply ext_rows
        simp only [Table.modify, mapRows, map_map]
        apply map_congr_left
        intro other _
        by_cases hid : other.id = row.id
        · have hlast : other.id ∉ rows.map LaborerTask.id := hid ▸ hnodup.1
          have hfirst : other.id ∈ (row :: rows).map LaborerTask.id := by
            rw [hid]
            exact mem_cons_self
          dsimp only [Function.comp_apply]
          rw [if_pos hid, stripped_id, if_neg hlast, if_pos hfirst]
        · simp [hid]
      · rw [Ledger.append_eq_appendAll, Ledger.appendAll_append]
        rfl
    · -- the other tasks are as they were
      intro other hother
      apply mem_map.mpr
      refine ⟨other, hmem other (mem_cons_of_mem _ hother), if_neg fun heq => ?_⟩
      exact hnodup.1 (heq ▸ mem_map_of_mem hother)
    · exact hnodup.2
    · exact fun other hother => hcarry other (mem_cons_of_mem _ hother)

theorem like_of_carries {row : LaborerTask} (h : labelId ∈ row.labelIds) :
    like (labelPattern labelId) (jsonStrings row.labelIds) = true :=
  like_of_infix (jsonString_infix_jsonStrings h)

theorem foldl_strip_filter (rows : List LaborerTask) (db : LaborerDatabase) :
    rows.foldl (stripLabelFromTask labelId changedAt operationId) db =
      (rows.filter fun row => labelId ∈ row.labelIds).foldl
        (stripLabelFromTask labelId changedAt operationId) db := by
  induction rows generalizing db with
  | nil => rfl
  | cons row rows ih =>
    rw [foldl_cons, ih, filter_cons]
    by_cases hcarries : labelId ∈ row.labelIds
    · rw [if_pos (decide_eq_true hcarries), foldl_cons]
    · have hskip : stripLabelFromTask labelId changedAt operationId db row = db := if_neg hcarries
      rw [if_neg (by simpa using hcarries), hskip]

theorem filter_like_carries (db : LaborerDatabase) (labelId : String) :
    ((db.tasks.rows.filter fun row => like (labelPattern labelId) (jsonStrings row.labelIds)).filter
      fun row => labelId ∈ row.labelIds) = db.carriers labelId := by
  unfold carriers
  rw [filter_filter]
  apply filter_congr
  intro row _
  by_cases hcarries : labelId ∈ row.labelIds
  · simp [hcarries, like_of_carries hcarries]
  · simp [hcarries]

/-- **Exactly the tasks that carry the label are stripped**, each with one entry. -/
theorem stripLabelFromTasks_eq_ok {db db' : LaborerDatabase}
    (h : db.stripLabelFromTasks labelId changedAt operationId = .ok db') :
    db' = { db with
      tasks := db.tasks.mapRows (stripped labelId changedAt) (stripped_id labelId changedAt)
      taskChanges := db.taskChanges.appendAll ((db.carriers labelId).map fun row =>
        { changedAt, operationId, taskId := row.id }) } := by
  unfold stripLabelFromTasks at h
  split at h
  · cases h
  · obtain ⟨rows, hrows, h⟩ := bind_eq_ok.mp h
    cases h
    unfold boundedRows at hrows
    split at hrows
    · cases hrows
    · next hbound =>
      -- within the bound the limit of the query cuts nothing off
      cases hrows
      have htake : ((db.tasks.rows.filter fun row =>
          like (labelPattern labelId) (jsonStrings row.labelIds)).take (maxTableRows + 1)) =
          db.tasks.rows.filter fun row =>
            like (labelPattern labelId) (jsonStrings row.labelIds) := by
        apply take_of_length_le
        rw [length_take] at hbound
        omega
      rw [htake, foldl_strip_filter, filter_like_carries, foldl_stripLabelFromTask]
      · -- a task that is not a carrier is stripped of nothing
        have htasks : ∀ hf, db.tasks.mapRows (fun row => if row.id ∈
            (db.carriers labelId).map LaborerTask.id then stripped labelId changedAt row else row)
            hf = db.tasks.mapRows (stripped labelId changedAt) (stripped_id labelId changedAt) := by
          intro hf
          apply ext_rows
          apply map_congr_left
          intro row hrow
          by_cases hcarries : labelId ∈ row.labelIds
          · exact if_pos (mem_map_of_mem (mem_filter.mpr ⟨hrow, decide_eq_true hcarries⟩))
          · have hself : stripped labelId changedAt row = row := if_neg hcarries
            rw [hself, ite_self]
        rw [htasks]
      · exact fun row hrow => (mem_filter.mp hrow).1
      · exact db.tasks.keysNodup.sublist (filter_sublist.map _)
      · exact fun row hrow => of_decide_eq_true (mem_filter.mp hrow).2

end Strip

end LaborerDatabase

namespace NativeLaborerDatabase

open LaborerDatabase

variable {db db' : LaborerDatabase} {operationId : Option String} {changedAt : ℤ}
  {labelIds : List String} {taskId id : String} {result : MutationResult LaborerTask}
  {revision : Option ℤ}

/-! ## Task operations -/

theorem labelIdsAllowed_distinct (hlength : ¬ maxTaskLabels < (distinct labelIds).length)
    (hknown : db.requireKnownLabels taskId (distinct labelIds) = .ok ()) :
    LabelIdsAllowed db.labels (distinct labelIds) :=
  ⟨distinct_nodup labelIds, Nat.le_of_not_lt hlength, requireKnownLabels_eq_ok hknown⟩

theorem insertTask_writes {input : NewLaborerTask}
    (h : insertTask input operationId changedAt db = (.ok result, db')) :
    Writes operationId {} db [.tasks] db' := by
  rw [insertTask, write_eq_ok] at h
  dsimp only at h
  split at h
  · cases h
  · next hlength =>
    obtain ⟨⟨⟩, hknown, h⟩ := bind_eq_ok.mp h
    obtain ⟨db₁, hinsert, h⟩ := bind_eq_ok.mp h
    obtain ⟨row, -, h⟩ := bind_eq_ok.mp h
    cases h
    obtain ⟨hallowed, tasks, hinserted, rfl⟩ := insertTaskRow_eq_ok.mp hinsert
    refine .insertedTask _ tasks changedAt ?_ hallowed hinserted
    have hdistinct : distinct (distinct input.labelIds) = distinct input.labelIds :=
      distinct_of_nodup (distinct_nodup _)
    unfold newTaskRow
    rw [hdistinct]
    exact labelIdsAllowed_distinct hlength hknown

theorem adoptWorktreeTask_writes {input : AdoptedWorktree} {result : Option LaborerTask}
    (h : adoptWorktreeTask input changedAt db = (.ok result, db')) :
    Writes none {} db (if worktreeClaimed db input then [] else [.tasks]) db' := by
  rw [adoptWorktreeTask, write_eq_ok] at h
  split at h
  · next hclaimed =>
    cases h
    rw [if_pos hclaimed]
    exact .nothing
  · next hclaimed =>
    obtain ⟨db₁, hinsert, h⟩ := bind_eq_ok.mp h
    obtain ⟨row, -, h⟩ := bind_eq_ok.mp h
    cases h
    obtain ⟨hallowed, tasks, hinserted, rfl⟩ := insertTaskRow_eq_ok.mp hinsert
    rw [if_neg hclaimed]
    refine .insertedTask _ tasks changedAt ⟨nodup_nil, Nat.zero_le _, ?_⟩ hallowed hinserted
    exact fun id hid => absurd hid not_mem_nil

theorem updateTask_eq_ok {revision : ℤ} {patch : LaborerTaskPatch}
    (h : updateTask id revision patch operationId changedAt db = (.ok result, db')) :
    ∃ row, db.tasks.find id = some row ∧ revision = row.revision ∧
      TaskRowAllowed db.tasks (patch.apply changedAt row) ∧
        db'.requireTask id = .ok result.row ∧
          db' = { db with
            tasks := db.tasks.modify id (patch.apply changedAt) fun _ => rfl
            taskChanges := db.taskChanges.append { changedAt, operationId, taskId := id } } := by
  rw [updateTask, write_eq_ok] at h
  dsimp only at h
  split at h
  · cases h
  · obtain ⟨⟨changes, db₁⟩, hupdate, h⟩ := bind_eq_ok.mp h
    split at h
    · exact absurd h staleTask_ne_ok
    · next hchanges =>
      obtain ⟨row, hfind, hrevision, hallowed, rfl⟩ := updateTaskRow_eq_ok hchanges hupdate
      obtain ⟨_, hrequire, h⟩ := bind_eq_ok.mp h
      cases h
      exact ⟨row, hfind, hrevision revision rfl, hallowed, hrequire, rfl⟩

theorem updateTask_writes {revision : ℤ} {patch : LaborerTaskPatch}
    (h : updateTask id revision patch operationId changedAt db = (.ok result, db')) :
    Writes operationId { moves := patch.rootPath.map (Move.mk id revision) } db [.tasks] db' := by
  obtain ⟨row, hfind, rfl, hallowed, -, rfl⟩ := updateTask_eq_ok h
  refine .updatedTask id (patch.apply changedAt) (fun _ => rfl) row changedAt hfind rfl rfl ?_
    hallowed
  unfold LaborerTaskPatch.apply
  cases patch.rootPath with
  | none => exact .inl rfl
  | some rootPath => exact .inr rfl

theorem deleteTask_writes {revision : ℤ}
    (h : deleteTask id revision operationId changedAt db = (.ok result, db')) :
    Writes operationId { deletes := some id } db [.tasks] db' := by
  rw [deleteTask, write_eq_ok] at h
  obtain ⟨found, hfound, h⟩ := bind_eq_ok.mp h
  cases hdelete : db.deleteTaskRow id revision with
  | mk changes db₁ =>
    rw [hdelete] at h
    dsimp only at h
    split at h
    · exact absurd h staleTask_ne_ok
    · exact absurd h staleTask_ne_ok
    · next hchanges =>
      obtain ⟨row, hfind, -, rfl⟩ := deleteTaskRow_eq (fun heq => hchanges heq) hdelete
      cases h
      exact .deletedTask id changedAt row hfind rfl

/-! ## Label operations -/

theorem requireTaskForLabels_eq_ok {row : LaborerTask}
    (h : requireTaskForLabels db taskId = .ok row) : db.tasks.find taskId = some row := by
  obtain ⟨found, hfound, h⟩ := bind_eq_ok.mp h
  cases found with
  | none => cases h
  | some found =>
    cases h
    exact findTask_eq_ok hfound

theorem writeTaskLabels_writes {requested : List String} (hnodup : requested.Nodup)
    (h : writeTaskLabels taskId revision requested operationId changedAt db =
      .ok (result, db')) : Writes operationId {} db [.tasks] db' := by
  unfold writeTaskLabels at h
  split at h
  · cases h
  · next hlength =>
    obtain ⟨_, -, h⟩ := bind_eq_ok.mp h
    obtain ⟨⟨⟩, hknown, h⟩ := bind_eq_ok.mp h
    cases hrelabel : db.relabelTaskRow taskId revision requested changedAt with
    | mk changes db₁ =>
      rw [hrelabel] at h
      dsimp only at h
      split at h
      · exact absurd h staleTask_ne_ok
      · next hchanges =>
        obtain ⟨row, hfind, -, rfl⟩ := relabelTaskRow_eq hchanges hrelabel
        obtain ⟨_, -, h⟩ := bind_eq_ok.mp h
        cases h
        refine .relabelledTask taskId _ changedAt row hfind ?_
        rw [distinct_of_nodup hnodup]
        exact ⟨hnodup, Nat.le_of_not_lt hlength, requireKnownLabels_eq_ok hknown⟩

theorem setTaskLabels_writes (h : setTaskLabels taskId revision labelIds operationId changedAt db =
      (.ok result, db')) : Writes operationId {} db [.tasks] db' := by
  rw [setTaskLabels, write_eq_ok] at h
  dsimp only at h
  split at h
  · cases h
  · exact writeTaskLabels_writes (distinct_nodup _) h

theorem addTaskLabels_writes (hlabels : ∀ row ∈ db.tasks.rows, row.labelIds.Nodup)
    (h : addTaskLabels taskId labelIds operationId changedAt db = (.ok result, db')) :
    ∃ row, db.tasks.find taskId = some row ∧
      Writes operationId {} db (if ∀ id ∈ labelIds, id ∈ row.labelIds then []
        else [.tasks]) db' := by
  rw [addTaskLabels, write_eq_ok] at h
  obtain ⟨row, hrow, h⟩ := bind_eq_ok.mp h
  have hfind := requireTaskForLabels_eq_ok hrow
  refine ⟨row, hfind, ?_⟩
  have hnone : ((distinct labelIds).filter (· ∉ row.labelIds)).length = 0 ↔
      ∀ id ∈ labelIds, id ∈ row.labelIds := by
    simp
  dsimp only at h
  split at h
  · next hall =>
    obtain ⟨⟨⟩, -, h⟩ := bind_eq_ok.mp h
    cases h
    rw [if_pos (hnone.mp hall)]
    exact .nothing
  · next hsome =>
    rw [if_neg (mt hnone.mpr hsome)]
    apply writeTaskLabels_writes _ h
    rw [nodup_append]
    refine ⟨hlabels row (mem_of_find hfind), (distinct_nodup labelIds).filter _, ?_⟩
    intro id hid id' hid' heq
    have hnew := (mem_filter.mp hid').2
    rw [← heq] at hnew
    exact of_decide_eq_true hnew hid

theorem removeTaskLabels_writes (hlabels : ∀ row ∈ db.tasks.rows, row.labelIds.Nodup)
    (h : removeTaskLabels taskId labelIds operationId changedAt db = (.ok result, db')) :
    ∃ row, db.tasks.find taskId = some row ∧
      Writes operationId {} db (if ∀ id ∈ row.labelIds, id ∉ labelIds then []
        else [.tasks]) db' := by
  rw [removeTaskLabels, write_eq_ok] at h
  obtain ⟨row, hrow, h⟩ := bind_eq_ok.mp h
  have hfind := requireTaskForLabels_eq_ok hrow
  refine ⟨row, hfind, ?_⟩
  have hsame : (row.labelIds.filter (· ∉ labelIds)).length = row.labelIds.length ↔
      ∀ id ∈ row.labelIds, id ∉ labelIds := by
    simp
  dsimp only at h
  split at h
  · next hall =>
    cases h
    rw [if_pos (hsame.mp hall)]
    exact .nothing
  · next hsome =>
    rw [if_neg (mt hsame.mpr hsome)]
    exact writeTaskLabels_writes ((hlabels row (mem_of_find hfind)).filter _) h

theorem deleteLabel_eq_ok {result : MutationResult Label}
    (h : deleteLabel id revision operationId changedAt db = (.ok result, db')) :
    ∃ row, db.labels.find id = some row ∧
      db' = { db with
        labels := db.labels.erase id
        tasks := db.tasks.mapRows (stripped id changedAt) (stripped_id id changedAt)
        taskChanges := db.taskChanges.appendAll ((db.carriers id).map fun row =>
          { changedAt, operationId, taskId := row.id })
        stateChanges := db.stateChanges.append
          { changedAt, operationId, rowId := id, tableName := .labels } } := by
  rw [deleteLabel, write_eq_ok] at h
  cases hdelete : db.labels.deleteWhere id (fun row => revision.all (· = row.revision)) with
  | mk changes labels =>
    rw [hdelete] at h
    dsimp only at h
    split at h
    · cases h
    · cases h
    · next hchanges hrow =>
      obtain ⟨row, hfind, -, rfl⟩ := deleteWhere_eq (fun heq => hchanges heq) hdelete
      obtain ⟨db₁, hstrip, h⟩ := bind_eq_ok.mp h
      cases h
      rw [stripLabelFromTasks_eq_ok hstrip]
      exact ⟨row, hfind, rfl⟩

theorem deleteLabel_writes {result : MutationResult Label}
    (h : deleteLabel id revision operationId changedAt db = (.ok result, db')) :
    Writes operationId {} db (.labels :: if db.carriers id = [] then [] else [.tasks]) db' := by
  obtain ⟨row, hfind, rfl⟩ := deleteLabel_eq_ok h
  exact .deletedLabel id changedAt row hfind

end NativeLaborerDatabase

/-! ## The task database -/

namespace TaskDatabase

open LaborerDatabase

variable {db db' : LaborerDatabase} {changedAt : ℤ} {input : NewTask} {id : String}

theorem insertRow_writes {inserted : Bool}
    (h : insertRow input changedAt db = (.ok inserted, db')) :
    Writes none {} db (if inserted then [.tasks] else []) db' := by
  unfold insertRow at h
  rw [transaction_eq_ok] at h
  split at h
  · cases h
    exact .nothing
  · obtain ⟨db₁, hinsert, h⟩ := bind_eq_ok.mp h
    cases h
    obtain ⟨hallowed, tasks, hinserted, rfl⟩ := insertTaskRow_eq_ok.mp hinsert
    refine .insertedTask _ tasks changedAt ⟨nodup_nil, Nat.zero_le _, ?_⟩ hallowed hinserted
    exact fun id hid => absurd hid not_mem_nil

theorem find_of_insertRow
    (h : insertRow input changedAt db = (.ok true, db')) : (find db' input.id).isSome := by
  unfold insertRow at h
  rw [transaction_eq_ok] at h
  split at h
  · cases h
  · obtain ⟨db₁, hinsert, h⟩ := bind_eq_ok.mp h
    cases h
    obtain ⟨-, tasks, hinserted, rfl⟩ := insertTaskRow_eq_ok.mp hinsert
    have hid : (db.numbered (newTaskRow input (db.nextTaskSortOrder input.status) changedAt)).id =
        input.id := rfl
    change ((tasks.find input.id).map LaborerTask.toTask).isSome
    rw [find_insert hinserted, if_pos hid]
    rfl

theorem insertRow_false (h : insertRow input changedAt db = (.ok false, db')) : db' = db := by
  unfold insertRow at h
  rw [transaction_eq_ok] at h
  split at h
  · cases h
    rfl
  · obtain ⟨db₁, -, h⟩ := bind_eq_ok.mp h
    cases h

theorem insert_writes {outcome : Except DatabaseError (Task × Bool)}
    (h : insert input changedAt db = (outcome, db')) :
    Writes none {} db (if (outcome.map Prod.snd).toOption = some true then [.tasks] else []) db' ∧
      (outcome.toOption = none → db' = db) := by
  unfold insert at h
  cases hrow : insertRow input changedAt db with
  | mk inserted db₁ =>
    rw [hrow] at h
    cases inserted with
    | error e =>
      cases h
      have hsame : db' = db := by
        have hrollback : (insertRow input changedAt db).2 = db :=
          transaction_error (congrArg Prod.fst hrow)
        rwa [hrow] at hrollback
      subst hsame
      exact ⟨.nothing, fun _ => rfl⟩
    | ok inserted =>
      cases inserted with
      | true =>
        obtain ⟨task, htask⟩ := Option.isSome_iff_exists.mp (find_of_insertRow hrow)
        simp only [if_true, htask] at h
        cases h
        exact ⟨insertRow_writes hrow, fun hnone => (nomatch hnone)⟩
      | false =>
        have hsame := insertRow_false hrow
        subst hsame
        dsimp only at h
        split at h
        · cases h
          exact ⟨.nothing, fun _ => rfl⟩
        · cases h
          exact ⟨.nothing, fun _ => rfl⟩

theorem update_eq_ok {revision : Option ℤ} {patch : TaskPatch} {task : Task}
    (h : update id revision patch changedAt db = (.ok task, db')) :
    ∃ row, db.tasks.find id = some row ∧ (∀ r ∈ revision, r = row.revision) ∧
      TaskRowAllowed db.tasks (patch.apply changedAt row) ∧
        db' = { db with
          tasks := db.tasks.modify id (patch.apply changedAt) fun _ => rfl
          taskChanges := db.taskChanges.append
            { changedAt, operationId := none, taskId := id } } := by
  unfold update at h
  rw [transaction_eq_ok] at h
  split at h
  · cases h
  · obtain ⟨⟨changes, db₁⟩, hupdate, h⟩ := bind_eq_ok.mp h
    dsimp only at h
    split at h
    · split at h
      · cases h
      · cases h
    · next hchanges =>
      obtain ⟨row, hfind, hrevision, hallowed, rfl⟩ := updateTaskRow_eq_ok hchanges hupdate
      split at h
      · cases h
      · cases h
        exact ⟨row, hfind, hrevision, hallowed, rfl⟩

theorem update_writes {revision : Option ℤ} {patch : TaskPatch} {task : Task}
    (h : update id revision patch changedAt db = (.ok task, db')) :
    Writes none {} db [.tasks] db' := by
  obtain ⟨row, hfind, -, hallowed, rfl⟩ := update_eq_ok h
  exact .updatedTask id (patch.apply changedAt) (fun _ => rfl) row changedAt hfind rfl rfl
    (.inl rfl) hallowed

end TaskDatabase

end Laborer.Database
