import Laborer.Database.TaskLabels

/-!
# Following the tasks

A reader of the task database folds what `readChanges` answers into a copy of the
tasks, while the database is written to and its ledger pruned. Every write accounts
for the tasks that it changes, so the reader is a follower of a change feed.
-/

namespace Laborer.Database

open Laborer.Library LaborerDatabase List Option Table

/-! ## Writes -/

theorem find_modify_ne {tasks : TaskTable} {id : String} {f : LaborerTask → LaborerTask}
    (hf : ∀ row, (f row).id = row.id) {id' : String} (hne : id' ≠ id) :
    (tasks.modify id f hf).find id' = tasks.find id' := by
  rw [find_modify, if_neg hne]

/-- The task database does not show the parent of a task, so it does not see what a
deletion does to the children. -/
theorem find_withoutTask_toTask {tasks : TaskTable} {id id' : String} (hne : id' ≠ id) :
    ((withoutTask tasks id).find id').map LaborerTask.toTask =
      (tasks.find id').map LaborerTask.toTask := by
  unfold withoutTask
  rw [Table.find_mapRows, Table.find_erase, if_neg hne, Option.map_map]
  congr 1
  funext row
  unfold orphaned
  simp only [Function.comp_apply]
  split
  · rfl
  · rfl

variable {db : LaborerDatabase}

/-- **Every write accounts for the tasks it changes.** -/
theorem LaborerDatabase.Writes.accountsTasks {operationId : Option String}
    {intent : Intent} {db' : LaborerDatabase} {collections : List SharedCollectionName}
    (h : Writes operationId intent db collections db') :
    Accounts TaskChange.taskId (TaskDatabase.find db) (TaskDatabase.find db') db.taskChanges
      db'.taskChanges := by
  cases h with
  | nothing => exact .refl _ _
  | insertedTask row tasks changedAt labelIds allowed inserted =>
    refine ⟨_, Ledger.append_eq_appendAll _ _, fun id hid => ?_⟩
    simp only [map_cons, map_nil, mem_singleton] at hid
    have hne : (db.numbered row).id ≠ id := fun heq => hid heq.symm
    unfold TaskDatabase.find
    rw [find_insert inserted, if_neg hne]
  | updatedTask id f hf =>
    refine ⟨_, Ledger.append_eq_appendAll _ _, fun id' hid => ?_⟩
    simp only [map_cons, map_nil, mem_singleton] at hid
    exact congrArg (Option.map LaborerTask.toTask) (find_modify_ne hf hid)
  | relabelledTask id labelIds changedAt =>
    have hrow : ∀ row, (relabelled labelIds changedAt row).id = row.id := fun _ => rfl
    refine ⟨_, Ledger.append_eq_appendAll _ _, fun id' hid => ?_⟩
    simp only [map_cons, map_nil, mem_singleton] at hid
    exact congrArg (Option.map LaborerTask.toTask) (find_modify_ne hrow hid)
  | deletedTask id =>
    refine ⟨_, Ledger.append_eq_appendAll _ _, fun id' hid => ?_⟩
    simp only [map_cons, map_nil, mem_singleton] at hid
    exact find_withoutTask_toTask hid
  | deletedLabel id changedAt =>
    refine ⟨_, rfl, fun taskId htask => ?_⟩
    rw [List.map_map] at htask
    unfold TaskDatabase.find
    rw [find_mapRows]
    cases hfind : db.tasks.find taskId with
    | none => rfl
    | some row =>
      -- a task without an entry does not carry the label
      have hmem : id ∉ row.labelIds := by
        intro hmem
        apply htask
        refine mem_map.mpr ⟨row, ?_, key_of_find hfind⟩
        exact mem_filter.mpr ⟨mem_of_find hfind, by simpa using hmem⟩
      unfold stripped
      rw [map_some, if_neg hmem]
  | wroteState db' entries writes =>
    unfold TaskDatabase.find
    rw [writes.tasks, writes.taskChanges]
    exact .refl _ _

theorem Operation.step_accountsTasks {toLowerCase : String → String}
    (hlabels : LabelsOk db) (operation : Operation) :
    Accounts TaskChange.taskId (TaskDatabase.find db)
      (TaskDatabase.find (operation.step toLowerCase db)) db.taskChanges
      (operation.step toLowerCase db).taskChanges := by
  obtain hsame | ⟨-, operationId, collections, hwrites⟩ := operation.step_writes hlabels
  · rw [hsame]
    exact .refl _ _
  · exact hwrites.accountsTasks

/-! ## Reads -/

namespace TaskDatabase

theorem cursorNeedsSnapshot_iff {ε : Type} (l : Ledger ε) (sequence : ℕ) :
    cursorNeedsSnapshot sequence l.minimum l.maximum = true ↔ l.MustRestart sequence := by
  unfold cursorNeedsSnapshot Ledger.MustRestart
  rw [Ledger.minimum_eq, Ledger.maximum_eq]
  by_cases hretained : l.retained = []
  · simp [hretained]
  · simp [hretained]

theorem changesAreContiguous_after {l : Ledger TaskChange} {sequence : ℕ}
    (hok : ¬ l.MustRestart sequence) (limit : ℕ) :
    changesAreContiguous sequence (l.after sequence limit) = true := by
  unfold changesAreContiguous
  rw [List.all_eq_true]
  rintro ⟨change, index⟩ hmem
  have hget := List.mk_mem_zipIdx_iff_getElem?.mp hmem
  have hnumber : ((l.after sequence limit).map Prod.fst)[index]? = some change.1 := by
    rw [getElem?_map, hget]
    rfl
  rcases Ledger.readable_of_not_mustRestart hok with ⟨hnil, -⟩ | ⟨hpruned, -⟩
  · rw [Ledger.after_nil_of_retained hnil] at hget
    cases hget
  · have hindex : index < (l.after sequence limit).length := (List.getElem?_eq_some_iff.mp hget).1
    rw [Ledger.after_map_fst, Nat.max_eq_right hpruned, getElem?_range' hindex,
      Option.some.injEq] at hnumber
    apply decide_eq_true
    omega

def shown (db : LaborerDatabase) (changes : List (ℕ × TaskChange)) : List Task :=
  (distinct (changes.map (·.2.taskId))).filterMap (find db)

def gone (db : LaborerDatabase) (changes : List (ℕ × TaskChange)) : List String :=
  (distinct (changes.map (·.2.taskId))).filter fun id => (find db id).isNone

variable {db : LaborerDatabase}

/-- **What `readChanges` answers**: a snapshot or the next page. -/
theorem readChanges_eq_ok {sequence : ℕ} {limit : ℤ} {answer : TaskRead}
    (h : readChanges sequence limit db = .ok answer) : 1 ≤ limit ∧
      ((db.taskChanges.MustRestart sequence ∧ snapshotUnsafe db = .ok answer) ∨
        (¬ db.taskChanges.MustRestart sequence ∧
          answer = .delta (sequence + (db.taskChanges.after sequence limit.toNat).length)
            (shown db (db.taskChanges.after sequence limit.toNat))
            (gone db (db.taskChanges.after sequence limit.toNat)))) := by
  unfold readChanges at h
  rw [Int.toNat_natCast] at h
  split_ifs at h with hsequence hlimit hsnapshot
  · rw [cursorNeedsSnapshot_iff] at hsnapshot
    exact ⟨by omega, .inl ⟨hsnapshot, h⟩⟩
  · rw [cursorNeedsSnapshot_iff] at hsnapshot
    dsimp only at h
    rw [changesAreContiguous_after hsnapshot, if_neg (by simp)] at h
    cases h
    refine ⟨by omega, .inr ⟨hsnapshot, ?_⟩⟩
    rcases Ledger.readable_of_not_mustRestart hsnapshot with ⟨hnil, -⟩ | ⟨hpruned, -⟩
    · rw [Ledger.after_nil_of_retained hnil]
      rfl
    · rw [Ledger.getLast?_after _ _ _ hpruned]
      rfl

theorem find?_of_snapshot {cursor : ℕ} {tasks : List Task}
    (h : snapshotUnsafe db = .ok (.snapshot cursor tasks)) (id : String) :
    tasks.find? (fun task => task.id = id) = find db id := by
  unfold snapshotUnsafe at h
  dsimp only at h
  split at h
  · cases h
  · next hlength =>
    cases h
    have hperm := perm_insertionSort
      (fun r r' : LaborerTask => before r.createdAt r.id r'.createdAt r'.id) db.tasks.rows
    rw [take_of_length_le]
    · rw [find?_map]
      exact congrArg (Option.map LaborerTask.toTask) (Table.find?_of_perm hperm id)
    · rw [length_take] at hlength
      omega

theorem snapshotUnsafe_eq_ok {answer : TaskRead} (h : snapshotUnsafe db = .ok answer) :
    ∃ tasks, answer = .snapshot (db.taskChanges.maximum.getD 0) tasks := by
  unfold snapshotUnsafe at h
  dsimp only at h
  split at h
  · cases h
  · cases h
    exact ⟨_, rfl⟩

theorem id_of_find {id : String} {task : Task} (h : find db id = some task) : task.id = id := by
  obtain ⟨row, hrow, rfl⟩ := map_eq_some_iff.mp h
  have hid : row.id = id := key_of_find hrow
  exact hid

theorem find?_filterMap_find (db : LaborerDatabase) (ids : List String) (id : String) :
    (ids.filterMap (find db)).find? (fun task => task.id = id) =
      if id ∈ ids then find db id else none := by
  induction ids with
  | nil => rfl
  | cons id' ids ih =>
    rw [filterMap_cons]
    cases hfind : find db id' with
    | none =>
      dsimp only
      rw [ih]
      by_cases heq : id = id'
      · subst heq
        simp [hfind]
      · simp [heq]
    | some task =>
      have hid : task.id = id' := id_of_find hfind
      rw [find?_cons]
      by_cases heq : id = id'
      · subst heq
        simp [hid, hfind]
      · have hne : task.id ≠ id := fun h => heq (h.symm.trans hid)
        simp [hne, heq, ih]

theorem mem_shown_or_gone {changes : List (ℕ × TaskChange)}
    {change : ℕ × TaskChange} (h : change ∈ changes) :
    change.2.taskId ∈ (shown db changes).map Task.id ++ gone db changes := by
  have hid : change.2.taskId ∈ distinct (changes.map (·.2.taskId)) :=
    mem_distinct.mpr (mem_map_of_mem h)
  rw [mem_append]
  cases hfind : find db change.2.taskId with
  | none =>
    right
    exact mem_filter.mpr ⟨hid, by rw [hfind]; rfl⟩
  | some task =>
    left
    exact mem_map.mpr ⟨task, mem_filterMap.mpr ⟨_, hid, hfind⟩, id_of_find hfind⟩

end TaskDatabase

/-! ## The reader -/

/-- A reader: its cursor, the number of changes that had been committed when it was
last answered, and its copy of the tasks. -/
structure TaskReader where
  cursor : ℕ
  answered : ℕ
  copy : String → Option Task

namespace TaskReader

def receive (reader : TaskReader) (committed : ℕ) : TaskRead → TaskReader
  | .snapshot cursor tasks =>
    { cursor, answered := committed, copy := fun id => tasks.find? (·.id = id) }
  | .delta cursor tasks deletedTaskIds =>
    { cursor
      answered := committed
      copy := fun id =>
        if id ∈ deletedTaskIds then none else (tasks.find? (·.id = id)).or (reader.copy id) }

def read (reader : TaskReader) (limit : ℤ) (db : LaborerDatabase) : Option TaskReader :=
  match TaskDatabase.readChanges reader.cursor limit db with
  | .ok answer => some (reader.receive db.taskChanges.last answer)
  | .error _ => none

def FollowsTasks (db : LaborerDatabase) (reader : TaskReader) : Prop :=
  Follows TaskChange.taskId (TaskDatabase.find db) db.taskChanges reader.cursor reader.answered
    reader.copy

theorem receive_delta_copy (reader : TaskReader) (db : LaborerDatabase) (committed cursor : ℕ)
    (changes : List (ℕ × TaskChange)) :
    (reader.receive committed (.delta cursor (TaskDatabase.shown db changes)
      (TaskDatabase.gone db changes))).copy =
      applyPage TaskChange.taskId (TaskDatabase.find db) changes reader.copy := by
  funext id
  unfold receive applyPage TaskDatabase.shown TaskDatabase.gone
  dsimp only
  rw [TaskDatabase.find?_filterMap_find]
  simp only [mem_filter, mem_distinct, isNone_iff_eq_none]
  by_cases hmem : id ∈ changes.map (·.2.taskId)
  · cases hfind : TaskDatabase.find db id with
    | none => simp [hmem]
    | some task => simp [hmem]
  · simp [hmem]

/-- What an answer is worth: a snapshot is the tasks, and so is the copy that a page
without anything new leaves; and a page names every change up to its cursor. -/
def Delivered (db : LaborerDatabase) (reader : TaskReader) (committed : ℕ) (answer : TaskRead) :
    Prop :=
  match answer with
  | .snapshot _ _ => (reader.receive committed answer).copy = TaskDatabase.find db
  | .delta cursor tasks deletedTaskIds =>
    reader.cursor ≤ cursor ∧
      (∀ n, reader.cursor < n → n ≤ cursor →
        ∃ change, (n, change) ∈ db.taskChanges.rows ∧
          change.taskId ∈ tasks.map Task.id ++ deletedTaskIds) ∧
      (cursor = reader.cursor →
        (reader.receive committed answer).copy = TaskDatabase.find db)

/-- **One read.** A reader that follows the tasks, or must start over, follows them
after it is answered. -/
theorem receive_follows {reader : TaskReader} {db : LaborerDatabase} {limit : ℤ} {answer : TaskRead}
    (hfollows : ¬ db.taskChanges.MustRestart reader.cursor → reader.FollowsTasks db)
    (hseen : ¬ db.taskChanges.Overlooks reader.cursor reader.answered)
    (h : TaskDatabase.readChanges reader.cursor limit db = .ok answer) :
    (reader.receive db.taskChanges.last answer).FollowsTasks db ∧
      reader.Delivered db db.taskChanges.last answer := by
  obtain ⟨hlimit, ⟨hrestart, hsnapshot⟩ | ⟨hok, rfl⟩⟩ := TaskDatabase.readChanges_eq_ok h
  · obtain ⟨tasks, rfl⟩ := TaskDatabase.snapshotUnsafe_eq_ok hsnapshot
    have hcopy : (reader.receive db.taskChanges.last
        (.snapshot (db.taskChanges.maximum.getD 0) tasks)).copy = TaskDatabase.find db :=
      funext fun id => TaskDatabase.find?_of_snapshot hsnapshot id
    refine ⟨?_, hcopy⟩
    unfold FollowsTasks
    rw [hcopy]
    exact Follows.snapshot _ _
  · have hpos : 0 < limit.toNat := by omega
    have hcopy := reader.receive_delta_copy db db.taskChanges.last
      (reader.cursor + (db.taskChanges.after reader.cursor limit.toNat).length)
      (db.taskChanges.after reader.cursor limit.toNat)
    refine ⟨?_, Nat.le_add_right _ _, fun n hn hle => ?_, fun hcursor => ?_⟩
    · unfold FollowsTasks
      rw [hcopy]
      exact (hfollows hok).page hok hseen hpos
    · rcases Ledger.readable_of_not_mustRestart hok with ⟨hnil, -⟩ | ⟨hpruned, -⟩
      · rw [Ledger.after_nil_of_retained hnil, length_nil] at hle
        omega
      · obtain ⟨change, hchange⟩ := Ledger.mem_after_of_le hpruned hn hle
        have hrow := mem_of_mem_filter (mem_of_mem_take hchange)
        exact ⟨change, hrow, TaskDatabase.mem_shown_or_gone hchange⟩
    · have hempty : db.taskChanges.after reader.cursor limit.toNat = [] :=
        eq_nil_of_length_eq_zero (by omega)
      rw [hcopy, hempty, (hfollows hok).caughtUp hok hseen hpos hempty]
      funext id
      simp [applyPage]

end TaskReader

/-! ## Runs -/

/-- The database with at most one reader of it. -/
structure FeedState where
  db : LaborerDatabase
  reader : Option TaskReader

def FeedState.migrated (now : ℤ) : FeedState where
  db := .migrated now
  reader := none

inductive FeedEvent where
  /-- Any operation, whether it succeeds or fails. -/
  | write (operation : Operation)
  /-- The first of the changes that are left are deleted. -/
  | prune (n : ℕ)
  /-- A reader with a cursor and a copy makes its first read. -/
  | start (cursor : ℕ) (copy : String → Option Task) (limit : ℤ)
  /-- The reader reads on. -/
  | read (limit : ℤ)

namespace FeedEvent

def reading (s : FeedState) : FeedEvent → Option (TaskReader × ℤ)
  | .write _ | .prune _ => none
  | .start cursor copy limit => some ({ cursor, answered := cursor, copy }, limit)
  | .read limit => s.reader.map fun reader => (reader, limit)

def step (toLowerCase : String → String) (event : FeedEvent) (s : FeedState) : FeedState :=
  match event with
  | .write operation => { s with db := operation.step toLowerCase s.db }
  | .prune n => { s with db := { s.db with taskChanges := s.db.taskChanges.prune n } }
  | .start cursor copy limit =>
    { s with reader := ({ cursor, answered := cursor, copy : TaskReader }).read limit s.db }
  | .read limit =>
    -- a reader that is not answered keeps its cursor and tries again
    { s with reader := s.reader.map fun reader => (reader.read limit s.db).getD reader }

/-- A reader that starts at a cursor has a copy that is right up to the changes
after it, unless the ledger does not reach back to the cursor or up to it. -/
def StartsRight (event : FeedEvent) (s : FeedState) : Prop :=
  match event with
  | .start cursor copy _ =>
    s.db.taskChanges.pruned ≤ cursor → cursor ≤ s.db.taskChanges.last →
      ∀ id ∉ s.db.taskChanges.pending TaskChange.taskId cursor,
        copy id = TaskDatabase.find s.db id
  | _ => True

/-- Whoever reads at cursor zero from a ledger of which nothing is left was last
answered when as many changes had been committed. -/
def ReadsSeen (event : FeedEvent) (s : FeedState) : Prop :=
  ∀ reader limit, event.reading s = some (reader, limit) →
    ¬ s.db.taskChanges.Overlooks reader.cursor reader.answered

/-- Every answer of a step is worth what it should be. -/
def Delivers (s : FeedState) (event : FeedEvent) : Prop :=
  ∀ reader limit answer, event.reading s = some (reader, limit) →
    TaskDatabase.readChanges reader.cursor limit s.db = .ok answer →
      reader.Delivered s.db s.db.taskChanges.last answer

end FeedEvent

structure FeedState.Ok (s : FeedState) : Prop where
  labels : LabelsOk s.db
  follows : ∀ reader ∈ s.reader, reader.FollowsTasks s.db

theorem FeedState.Ok.migrated (now : ℤ) : (FeedState.migrated now).Ok where
  labels := .migrated now
  follows := fun _ hreader => nomatch hreader

namespace FeedEvent

variable {toLowerCase : String → String} {s : FeedState} {event : FeedEvent}

theorem reading_follows (h : s.Ok) (hstarts : event.StartsRight s) (hseen : event.ReadsSeen s)
    {reader : TaskReader} {limit : ℤ} (hreading : event.reading s = some (reader, limit))
    (hok : ¬ s.db.taskChanges.MustRestart reader.cursor) : reader.FollowsTasks s.db := by
  have hoverlooks := hseen reader limit hreading
  cases event with
  | write operation => cases hreading
  | prune n => cases hreading
  | start cursor copy limit' =>
    cases hreading
    exact Follows.start hstarts hok hoverlooks
  | read limit' =>
    obtain ⟨reader', hreader, heq⟩ := map_eq_some_iff.mp hreading
    cases heq
    exact h.follows reader hreader

theorem delivers (h : s.Ok) (hstarts : event.StartsRight s) (hseen : event.ReadsSeen s) :
    event.Delivers s := fun _ _ _ hreading hread =>
  (TaskReader.receive_follows (reading_follows h hstarts hseen hreading)
    (hseen _ _ hreading) hread).2

theorem read_follows (h : s.Ok) (hstarts : event.StartsRight s) (hseen : event.ReadsSeen s)
    {reader reader' : TaskReader} {limit : ℤ} (hreading : event.reading s = some (reader, limit))
    (hread : reader.read limit s.db = some reader') : reader'.FollowsTasks s.db := by
  unfold TaskReader.read at hread
  split at hread
  · next answer hanswer =>
    cases hread
    exact (TaskReader.receive_follows (reading_follows h hstarts hseen hreading)
      (hseen _ _ hreading) hanswer).1
  · cases hread

/-- **One step** keeps the invariant. -/
theorem step_ok (h : s.Ok) (hstarts : event.StartsRight s) (hseen : event.ReadsSeen s) :
    (event.step toLowerCase s).Ok := by
  cases event with
  | write operation =>
    refine ⟨h.labels.step operation, fun reader hreader => ?_⟩
    exact (h.follows reader hreader).write (operation.step_accountsTasks h.labels)
  | prune n =>
    refine ⟨h.labels, fun reader hreader => ?_⟩
    exact (h.follows reader hreader).prune n
  | start cursor copy limit =>
    exact ⟨h.labels, fun reader hreader => read_follows h hstarts hseen rfl hreader⟩
  | read limit =>
    refine ⟨h.labels, fun reader' hreader' => ?_⟩
    obtain ⟨reader, hreader, rfl⟩ := map_eq_some_iff.mp hreader'
    cases hread : reader.read limit s.db with
    | none => exact h.follows reader hreader
    | some reader' =>
      apply read_follows h hstarts hseen _ hread
      exact map_eq_some_iff.mpr ⟨reader, hreader, rfl⟩

end FeedEvent

/-! ## Catching up -/

theorem TaskDatabase.exists_readChanges {sequence : ℕ} {limit : ℤ}
    (hsequence : (sequence : ℤ) ≤ maxSafeInteger) (hlimit : 1 ≤ limit ∧ limit ≤ 1000)
    (htasks : db.tasks.rows.length ≤ maxSnapshotTasks) :
    ∃ answer, readChanges sequence limit db = .ok answer := by
  have hsnapshot : ∃ answer, snapshotUnsafe db = .ok answer := by
    unfold snapshotUnsafe
    rw [if_neg]
    · exact ⟨_, rfl⟩
    · rw [length_take, length_insertionSort]
      omega
  unfold readChanges
  rw [if_neg (by omega), if_neg (by omega)]
  split
  · exact hsnapshot
  · dsimp only
    split
    · exact hsnapshot
    · exact ⟨_, rfl⟩

namespace TaskReader

variable {reader : TaskReader} {db : LaborerDatabase}

/-- One read of a quiet database brings the cursor on, or the copy up to date. -/
theorem read_progress (h : reader.FollowsTasks db)
    (hseen : ¬ db.taskChanges.Overlooks reader.cursor reader.answered)
    (hlast : (db.taskChanges.last : ℤ) ≤ maxSafeInteger)
    (htasks : db.tasks.rows.length ≤ maxSnapshotTasks) {limit : ℤ}
    (hlimit : 1 ≤ limit ∧ limit ≤ 1000) :
    ∃ reader', reader.read limit db = some reader' ∧ reader'.FollowsTasks db ∧
      ¬ db.taskChanges.Overlooks reader'.cursor reader'.answered ∧
        (reader'.copy = TaskDatabase.find db ∨
          (reader.cursor < reader'.cursor ∧ reader.copy ≠ TaskDatabase.find db)) := by
  have hcursor : (reader.cursor : ℤ) ≤ maxSafeInteger := by
    have := h.cursor_le
    omega
  obtain ⟨answer, hanswer⟩ := TaskDatabase.exists_readChanges hcursor hlimit htasks
  have hread : reader.read limit db = some (reader.receive db.taskChanges.last answer) := by
    unfold read
    rw [hanswer]
  have hanswered : (reader.receive db.taskChanges.last answer).answered = db.taskChanges.last := by
    cases answer with
    | snapshot => rfl
    | delta => rfl
  obtain ⟨hfollows, hdelivered⟩ := receive_follows (fun _ => h) hseen hanswer
  refine ⟨_, hread, hfollows, fun hoverlooks => hoverlooks.2.2 hanswered, ?_⟩
  obtain ⟨-, ⟨hrestart, hsnapshot⟩ | ⟨hok, rfl⟩⟩ := TaskDatabase.readChanges_eq_ok hanswer
  · obtain ⟨tasks, rfl⟩ := TaskDatabase.snapshotUnsafe_eq_ok hsnapshot
    exact .inl hdelivered
  · by_cases hcopy : reader.copy = TaskDatabase.find db
    · left
      rw [receive_delta_copy, hcopy]
      funext id
      simp [applyPage]
    · by_cases hsame : reader.cursor +
          (db.taskChanges.after reader.cursor limit.toNat).length = reader.cursor
      · exact .inl (hdelivered.2.2 hsame)
      · right
        refine ⟨?_, hcopy⟩
        unfold receive
        dsimp only
        omega

end TaskReader

/-- **A reader catches up.** Reading a quiet database more often than it has changes
leaves the reader with the tasks. -/
theorem FeedState.catchUp (toLowerCase : String → String)
    (hlast : (db.taskChanges.last : ℤ) ≤ maxSafeInteger)
    (htasks : db.tasks.rows.length ≤ maxSnapshotTasks) {limits : List ℤ}
    (hlimits : ∀ limit ∈ limits, 1 ≤ limit ∧ limit ≤ 1000) {reader : TaskReader}
    (h : reader.FollowsTasks db)
    (hseen : ¬ db.taskChanges.Overlooks reader.cursor reader.answered) :
    ∃ reader', finalState (FeedEvent.step toLowerCase) { db, reader := some reader }
        (limits.map .read) = { db, reader := some reader' } ∧ reader'.FollowsTasks db ∧
      (reader'.copy = TaskDatabase.find db ∨
        (reader.cursor + limits.length ≤ reader'.cursor ∧
          reader.copy ≠ TaskDatabase.find db)) := by
  induction limits generalizing reader with
  | nil =>
    refine ⟨reader, rfl, h, ?_⟩
    by_cases hcopy : reader.copy = TaskDatabase.find db
    · exact .inl hcopy
    · exact .inr ⟨Nat.le_refl _, hcopy⟩
  | cons limit limits ih =>
    obtain ⟨next, hread, hfollows, hseen', hnext⟩ :=
      TaskReader.read_progress h hseen hlast htasks (hlimits limit mem_cons_self)
    obtain ⟨reader', hfinal, hfollows', hreader'⟩ :=
      ih (fun limit hlimit => hlimits limit (mem_cons_of_mem _ hlimit)) hfollows hseen'
    refine ⟨reader', ?_, hfollows', ?_⟩
    · rw [← hfinal]
      unfold finalState
      unfold FeedEvent.step
      simp [hread]
    · rcases hreader' with hcopy | ⟨hcursor, hstale⟩
      · exact .inl hcopy
      · right
        rcases hnext with hcopy | ⟨hbehind, hcopy⟩
        · exact absurd hcopy hstale
        · refine ⟨?_, hcopy⟩
          rw [length_cons]
          omega

/-- **Folding what `readChanges` answers gives the tasks.** In every run in which a
reader at cursor zero does not read from a ledger that was emptied behind its back,
each snapshot and each page without anything new leaves the copy equal to the tasks,
no page skips a change, and a reader catches up once the writers are quiet. -/
theorem readers_of_tasks (toLowerCase : String → String) (now : ℤ) (events : List FeedEvent)
    (hstarts : RunMeets (FeedEvent.step toLowerCase) FeedEvent.StartsRight (.migrated now) events)
    (hseen : RunMeets (FeedEvent.step toLowerCase) FeedEvent.ReadsSeen (.migrated now) events) :
    (∀ t ∈ transitions (FeedEvent.step toLowerCase) (.migrated now) events,
        t.2.1.Delivers t.1) ∧
      ∀ s ∈ visited (FeedEvent.step toLowerCase) (.migrated now) events, ∀ reader ∈ s.reader,
        ¬ s.db.taskChanges.Overlooks reader.cursor reader.answered →
          s.db.tasks.rows.length ≤ maxSnapshotTasks →
            (s.db.taskChanges.last : ℤ) ≤ maxSafeInteger →
              ∀ limits : List ℤ, (∀ limit ∈ limits, 1 ≤ limit ∧ limit ≤ 1000) →
                s.db.taskChanges.last < limits.length →
                  ∃ reader', finalState (FeedEvent.step toLowerCase) s (limits.map .read) =
                      { s with reader := some reader' } ∧
                    reader'.copy = TaskDatabase.find s.db := by
  have hstep : ∀ event s, FeedState.Ok s → event.StartsRight s ∧ event.ReadsSeen s →
      FeedState.Ok (FeedEvent.step toLowerCase event s) :=
    fun _ _ h hmet => FeedEvent.step_ok h hmet.1 hmet.2
  have hrun := hstarts.and hseen
  constructor
  · exact invariant_transitions hstep (fun _ _ h hmet => FeedEvent.delivers h hmet.1 hmet.2)
      (FeedState.Ok.migrated now) hrun (Q := fun s event _ => event.Delivers s)
  · intro s hs reader hreader hoverlooks htasks hlast limits hlimits hlength
    have hok := invariant_visited hstep (FeedState.Ok.migrated now) hrun s hs
    obtain ⟨db, _⟩ := s
    cases hreader
    obtain ⟨reader', hfinal, hfollows, hcopy | ⟨hcursor, -⟩⟩ :=
      FeedState.catchUp toLowerCase hlast htasks hlimits (hok.follows reader rfl) hoverlooks
    · exact ⟨reader', hfinal, hcopy⟩
    · have hle := hfollows.cursor_le
      have hlong : db.taskChanges.last < limits.length := hlength
      omega

/-- A reader that starts before the first task is inserted and reads on after it. -/
theorem readers_of_tasks_insert :
    let task : NewTask :=
      { id := "t", rootPath := "/repo", source := .manual, status := .todo, title := "T" }
    let events : List FeedEvent :=
      [.start 0 (fun _ => none) 1000, .write (.insert task 1), .read 1]
    ∀ t ∈ transitions (FeedEvent.step id) (.migrated 0) events, t.2.1.Delivers t.1 := by
  intro task events
  refine (readers_of_tasks id 0 events ?_ ?_).1
  · exact ⟨fun _ _ _ _ => rfl, trivial, trivial, trivial⟩
  · refine ⟨?_, ?_, ?_, trivial⟩
    · rintro reader limit ⟨⟩ ⟨-, -, hne⟩
      exact hne rfl
    · rintro reader limit ⟨⟩
    · rintro reader limit - ⟨-, hnil, -⟩
      exact absurd hnil (by decide)

/-- A task inserted after a reader started at cursor zero, and its change pruned: the
reader is told that there is nothing new. -/
theorem readers_of_tasks_emptied :
    let task : NewTask :=
      { id := "t", rootPath := "/repo", source := .manual, status := .todo, title := "T" }
    let events : List FeedEvent :=
      [.start 0 (fun _ => none) 1000, .write (.insert task 1), .prune 1]
    let s := finalState (FeedEvent.step id) (.migrated 0) events
    RunMeets (FeedEvent.step id) FeedEvent.StartsRight (.migrated 0) events ∧
      s.reader.map (·.cursor) = some 0 ∧
        TaskDatabase.readChanges 0 1000 s.db = .ok (.delta 0 [] []) ∧
          (s.reader.bind (·.copy "t")) = none ∧ (TaskDatabase.find s.db "t").isSome := by
  refine ⟨⟨fun _ _ _ _ => rfl, trivial, trivial, trivial⟩, rfl, rfl, rfl, rfl⟩

end Laborer.Database
