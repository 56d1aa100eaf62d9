import Laborer.Database.Operation

/-!
# The labels of tasks

No schema ties `label_ids` to the labels, the operations do. In every state that
they reach a task carries distinct labels that exist, at most as many as it may,
and the deletion of a label takes it from its tasks and accounts for each of them.
-/

namespace Laborer.Database

open Laborer.Library LaborerDatabase List Table

/-! ## Allowed label ids -/

theorem LaborerDatabase.LabelIdsAllowed.mono {labels labels' : LabelTable} {labelIds : List String}
    (h : LabelIdsAllowed labels labelIds)
    (hlabels : ∀ id, (labels.find id).isSome → (labels'.find id).isSome) :
    LabelIdsAllowed labels' labelIds where
  nodup := h.nodup
  length_le := h.length_le
  known := fun id hid => hlabels id (h.known id hid)

theorem LaborerDatabase.LabelIdsAllowed.without {labels : LabelTable} {labelIds : List String}
    (h : LabelIdsAllowed labels labelIds) (labelId : String) :
    LabelIdsAllowed (labels.erase labelId) (labelIds.filter (· ≠ labelId)) := by
  constructor
  · exact h.nodup.filter _
  · exact (length_filter_le _ _).trans h.length_le
  · intro id hid
    obtain ⟨hmem, hne⟩ := mem_filter.mp hid
    rw [find_erase, if_neg (by simpa using hne)]
    exact h.known id hmem

theorem stripped_eq {labelId : String} {changedAt : ℤ} {row : LaborerTask}
    (hnodup : row.labelIds.Nodup) (hmem : labelId ∈ row.labelIds) :
    stripped labelId changedAt row =
      { row with
        labelIds := row.labelIds.filter (· ≠ labelId)
        updatedAt := changedAt
        revision := row.revision + 1 } := by
  unfold stripped
  rw [if_pos hmem, distinct_of_nodup (hnodup.filter _)]
  rfl

theorem stripped_labelIds {labelId : String} {changedAt : ℤ} {row : LaborerTask}
    (hnodup : row.labelIds.Nodup) :
    (stripped labelId changedAt row).labelIds = row.labelIds.filter (· ≠ labelId) := by
  by_cases hmem : labelId ∈ row.labelIds
  · rw [stripped_eq hnodup hmem]
  · unfold stripped
    rw [if_neg hmem, eq_comm, filter_eq_self]
    intro id hid
    simp only [ne_eq, decide_not, Bool.not_eq_eq_eq_not, Bool.not_true, decide_eq_false_iff_not]
    rintro rfl
    exact hmem hid

/-! ## The invariant -/

theorem LabelsOk.writes {operationId : Option String} {intent : Intent}
    {db db' : LaborerDatabase} {collections : List SharedCollectionName} (h : LabelsOk db)
    (hwrites : Writes operationId intent db collections db') : LabelsOk db' := by
  cases hwrites with
  | nothing => exact h
  | insertedTask row tasks changedAt labelIds allowed inserted =>
    intro row' hrow'
    rw [(insert_eq_some_iff.mp inserted).2, mem_append, mem_singleton] at hrow'
    rcases hrow' with hrow' | rfl
    · exact h row' hrow'
    · exact labelIds
  | updatedTask id f hf row changedAt found labelIds =>
    intro row' hrow'
    rcases mem_rows_modify hf hrow' with ⟨hrow', -⟩ | ⟨row'', hrow'', rfl⟩
    · exact h row' hrow'
    · -- the labels of the row are those it had
      rw [found] at hrow''
      cases hrow''
      rw [labelIds]
      exact h row (mem_of_find found)
  | relabelledTask id labelIds changedAt row found allowed =>
    have hid : ∀ row, (relabelled labelIds changedAt row).id = row.id := fun _ => rfl
    intro row' hrow'
    rcases mem_rows_modify hid hrow' with ⟨hrow', -⟩ | ⟨row'', -, rfl⟩
    · exact h row' hrow'
    · exact allowed
  | deletedTask id changedAt row found =>
    intro row' hrow'
    obtain ⟨row'', hrow'', rfl⟩ := mem_map.mp hrow'
    rw [orphaned_labelIds]
    exact h row'' (mem_of_mem_filter hrow'')
  | deletedLabel id changedAt row found =>
    intro row' hrow'
    obtain ⟨row'', hrow'', rfl⟩ := mem_map.mp hrow'
    have hallowed := h row'' hrow''
    rw [stripped_labelIds hallowed.nodup]
    exact hallowed.without id
  | wroteState db' entries writes =>
    intro row hrow
    rw [writes.tasks] at hrow
    exact (h row hrow).mono writes.labels

theorem LabelsOk.step {toLowerCase : String → String} {db : LaborerDatabase} (h : LabelsOk db)
    (operation : Operation) : LabelsOk (operation.step toLowerCase db) := by
  obtain hsame | ⟨-, operationId, collections, hwrites⟩ := operation.step_writes h
  · rwa [hsame]
  · exact h.writes hwrites

theorem LabelsOk.migrated (now : ℤ) : LabelsOk (.migrated now) :=
  fun _ hrow => absurd hrow not_mem_nil

/-! ## Deleting a label -/

/-- The deletion of a label, as its tasks and their ledger see it. -/
structure LabelDeleted (id : String) (operationId : Option String) (changedAt : ℤ)
    (db db' : LaborerDatabase) : Prop where
  labels : ∀ labelId, db'.labels.find labelId = if labelId = id then none
    else db.labels.find labelId
  carrier : ∀ taskId row, db.tasks.find taskId = some row → id ∈ row.labelIds →
    db'.tasks.find taskId =
      some { row with
        labelIds := row.labelIds.filter (· ≠ id)
        updatedAt := changedAt
        revision := row.revision + 1 }
  other : ∀ taskId, (∀ row, db.tasks.find taskId = some row → id ∉ row.labelIds) →
    db'.tasks.find taskId = db.tasks.find taskId
  ledger : ∃ taskIds : List String, taskIds.Nodup ∧
    (∀ taskId, taskId ∈ taskIds ↔ ∃ row, db.tasks.find taskId = some row ∧ id ∈ row.labelIds) ∧
    db'.taskChanges = db.taskChanges.appendAll
      (taskIds.map fun taskId => { changedAt, operationId, taskId })

theorem labelDeleted_of_deleteLabel {id : String} {expectedRevision : Option ℤ}
    {operationId : Option String} {changedAt : ℤ} {result : MutationResult Label}
    {db db' : LaborerDatabase} (hlabels : LabelsOk db)
    (h : NativeLaborerDatabase.deleteLabel id expectedRevision operationId changedAt db =
      (.ok result, db')) : LabelDeleted id operationId changedAt db db' := by
  obtain ⟨label, -, rfl⟩ := NativeLaborerDatabase.deleteLabel_eq_ok h
  constructor
  · exact find_erase db.labels id
  · intro taskId row hfind hmem
    rw [find_mapRows, hfind, Option.map_some,
      stripped_eq (hlabels row (mem_of_find hfind)).nodup hmem]
  · intro taskId hother
    rw [find_mapRows]
    cases hfind : db.tasks.find taskId with
    | none => rfl
    | some row =>
      unfold stripped
      rw [Option.map_some, if_neg (hother row hfind)]
  · refine ⟨(db.carriers id).map LaborerTask.id, ?_, fun taskId => ?_, ?_⟩
    · exact db.tasks.keysNodup.sublist (filter_sublist.map LaborerTask.id)
    · unfold carriers
      simp only [mem_map, mem_filter, decide_eq_true_eq, find_eq_some_iff]
      constructor
      · rintro ⟨row, ⟨hrow, hmem⟩, rfl⟩
        exact ⟨row, ⟨hrow, rfl⟩, hmem⟩
      · rintro ⟨row, ⟨hrow, rfl⟩, hmem⟩
        exact ⟨row, ⟨hrow, hmem⟩, rfl⟩
    · rw [map_map]
      rfl

/-- The query for the tasks of a label has an answer: SQLite takes its pattern, and no more rows
match than are read at once. -/
def LaborerDatabase.MayStrip (db : LaborerDatabase) (labelId : String) : Prop :=
  (db.tasks.rows ≠ [] →
    (String.ofList (labelPattern labelId)).utf8ByteSize ≤ maxLikePatternLength) ∧
  (db.tasks.rows.filter fun row =>
    like (labelPattern labelId) (jsonStrings row.labelIds)).length ≤ maxTableRows

theorem LaborerDatabase.stripLabelFromTasks_isOk {db : LaborerDatabase} {labelId : String}
    {changedAt : ℤ} {operationId : Option String} :
    (∃ db', db.stripLabelFromTasks labelId changedAt operationId = .ok db') ↔
      db.MayStrip labelId := by
  unfold stripLabelFromTasks boundedRows MayStrip
  split
  · next hlong =>
    refine iff_of_false (fun ⟨_, h⟩ => nomatch h) fun h => ?_
    exact absurd (h.1 hlong.1) (not_le.mpr hlong.2)
  · next hshort =>
    dsimp only
    split
    · next hmany =>
      refine iff_of_false (fun ⟨_, h⟩ => nomatch h) fun h => ?_
      rw [length_take] at hmany
      omega
    · next hfew =>
      rw [length_take] at hfew
      refine iff_of_true ⟨_, rfl⟩ ⟨fun hne => not_lt.mp fun hlong => hshort ⟨hne, hlong⟩, ?_⟩
      omega

/-- The label is there, at the revision where one is expected. -/
def LaborerDatabase.HasLabel (db : LaborerDatabase) (id : String) (expectedRevision : Option ℤ) :
    Prop :=
  ∃ label, db.labels.find id = some label ∧ expectedRevision.all (· = label.revision)

theorem deleteLabel_isOk {id : String} {expectedRevision : Option ℤ} {operationId : Option String}
    {changedAt : ℤ} {db : LaborerDatabase} :
    (∃ result db', NativeLaborerDatabase.deleteLabel id expectedRevision operationId changedAt db =
      (.ok result, db')) ↔ db.HasLabel id expectedRevision ∧ db.MayStrip id := by
  unfold NativeLaborerDatabase.deleteLabel
  simp only [NativeLaborerDatabase.write_eq_ok]
  constructor
  · rintro ⟨result, db', h⟩
    cases hdelete : db.labels.deleteWhere id
        (fun row => expectedRevision.all (· = row.revision)) with
    | mk changes labels =>
      rw [hdelete] at h
      dsimp only at h
      split at h
      · cases h
      · cases h
      · next hchanges _ =>
        obtain ⟨row, hfind, hrevision, -⟩ := deleteWhere_eq (fun heq => hchanges heq) hdelete
        obtain ⟨db₁, hstrip, -⟩ := bind_eq_ok.mp h
        have hmay := stripLabelFromTasks_isOk.mp ⟨db₁, hstrip⟩
        exact ⟨⟨row, hfind, hrevision⟩, hmay⟩
  · rintro ⟨⟨label, hfind, hrevision⟩, hmay⟩
    have hdelete : db.labels.deleteWhere id (fun row => expectedRevision.all (· = row.revision)) =
        (1, db.labels.erase id) := by
      unfold Table.deleteWhere
      rw [hfind]
      exact if_pos hrevision
    obtain ⟨db₁, hstrip⟩ : ∃ db₁, { db with labels := db.labels.erase id }.stripLabelFromTasks id
        changedAt operationId = .ok db₁ := stripLabelFromTasks_isOk.mpr (by exact hmay)
    rw [hdelete, findLabel, hfind]
    dsimp only
    rw [hstrip]
    exact ⟨_, _, rfl⟩

/-- **The labels of the tasks, over every sequence of operations.** In each state the tasks
carry distinct labels that exist, at most 32; deleting a label that is there succeeds within the
bounds of its query and changes exactly the tasks that have it, each named once in the ledger; and
an operation that fails leaves the database as it was. -/
theorem labels_of_tasks (toLowerCase : String → String) (now : ℤ) (operations : List Operation) :
    (∀ db ∈ visited (Operation.step toLowerCase) (.migrated now) operations, LabelsOk db) ∧
      ∀ t ∈ transitions (Operation.step toLowerCase) (.migrated now) operations,
        (∀ e, (t.2.1.run toLowerCase t.1).1 = .error e → t.2.2 = t.1) ∧
          ∀ id expectedRevision operationId changedAt,
            t.2.1 = .deleteLabel id expectedRevision operationId changedAt →
              ((t.2.1.run toLowerCase t.1).1 = .ok () ↔
                t.1.HasLabel id expectedRevision ∧ t.1.MayStrip id) ∧
              ((t.2.1.run toLowerCase t.1).1 = .ok () →
                LabelDeleted id operationId changedAt t.1 t.2.2) := by
  have hstep : ∀ operation db, LabelsOk db → True →
      LabelsOk (Operation.step toLowerCase operation db) := fun operation db h _ => h.step operation
  constructor
  · exact invariant_visited hstep (LabelsOk.migrated now) (runMeets_true _ operations)
  · refine invariant_transitions hstep ?_ (LabelsOk.migrated now) (runMeets_true _ operations)
      (Q := fun db operation db' =>
        (∀ e, (operation.run toLowerCase db).1 = .error e → db' = db) ∧
          ∀ id expectedRevision operationId changedAt,
            operation = .deleteLabel id expectedRevision operationId changedAt →
              ((operation.run toLowerCase db).1 = .ok () ↔
                db.HasLabel id expectedRevision ∧ db.MayStrip id) ∧
              ((operation.run toLowerCase db).1 = .ok () →
                LabelDeleted id operationId changedAt db db'))
    intro operation db hlabels _
    refine ⟨fun e => Operation.run_error, ?_⟩
    rintro id expectedRevision operationId changedAt rfl
    have hiff : (∃ result db', NativeLaborerDatabase.deleteLabel id expectedRevision operationId
        changedAt db = (.ok result, db')) ↔ _ := deleteLabel_isOk
    rw [← hiff]
    refine ⟨⟨fun hok => ?_, fun ⟨result, db', hresult⟩ => ?_⟩, fun hok => ?_⟩
    · obtain ⟨result, hresult⟩ := forget_eq_ok.mp (Prod.ext hok rfl)
      exact ⟨result, _, hresult⟩
    · exact congrArg Prod.fst (forget_eq_ok.mpr ⟨result, hresult⟩)
    · obtain ⟨result, hresult⟩ := forget_eq_ok.mp (Prod.ext hok rfl)
      exact labelDeleted_of_deleteLabel hlabels hresult

theorem labels_of_tasks_twoCarriers :
    let task (id : String) (labelIds : List String) : NewLaborerTask :=
      { id, labelIds, rootPath := "/r", source := .manual, status := .todo, title := id }
    let operations : List Operation :=
      [.createLabel "" { id := some "bug", name := "Bug" } none 1,
        .createLabel "" { id := some "ui", name := "UI" } none 2,
        .insertTask (task "first" ["bug", "ui"]) none 3,
        .insertTask (task "second" ["bug"]) none 4]
    let db := finalState (Operation.step id) (.migrated 0) operations
    let db' := Operation.step id (.deleteLabel "bug" (some 1) none 5) db
    LabelDeleted "bug" none 5 db db' ∧
      db'.tasks.rows.map (fun row => (row.id, row.labelIds, row.revision)) =
        [("first", ["ui"], 2), ("second", [], 2)] := by
  intro task operations db db'
  have hdeleted := (labels_of_tasks id 0
    (operations ++ [.deleteLabel "bug" (some 1) none 5])).2 (db, _, db')
    (.tail _ (.tail _ (.tail _ (.tail _ (.head _)))))
  have hok : ((Operation.deleteLabel "bug" (some 1) none 5).run id db).1 = .ok () := by
    decide +kernel
  exact ⟨(hdeleted.2 _ _ _ _ rfl).2 hok, by decide +kernel⟩

end Laborer.Database
