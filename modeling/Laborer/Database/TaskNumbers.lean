import Laborer.Database.TaskLabels

/-!
# The numbers of tasks

The trigger numbers the tasks of a root one by one with a counter, and an index
keeps the numbers of a root apart. As long as no task is moved to another root, the
counter is ahead of every number of its root, so that the index never refuses a
task and no number is given twice.
-/

namespace Laborer.Database

open Laborer.Library LaborerDatabase List Table Option

/-! ## Counters -/

def nextNumber (counters : Table TaskNumberCounter TaskNumberCounter.rootPath)
    (rootPath : String) : ℕ :=
  (counters.find rootPath).elim 1 (·.nextNumber)

theorem nextNumber_bump (counters : Table TaskNumberCounter TaskNumberCounter.rootPath)
    (rootPath rootPath' : String) :
    nextNumber (bumpTaskNumberCounter counters rootPath) rootPath' =
      if rootPath' = rootPath then nextNumber counters rootPath + 1
      else nextNumber counters rootPath' := by
  unfold bumpTaskNumberCounter nextNumber
  cases hinsert : counters.insert { rootPath, nextNumber := 2 } with
  | some counters' =>
    have hnone := (insert_eq_some_iff.mp hinsert).1
    rw [find_insert hinsert]
    by_cases heq : rootPath' = rootPath
    · simp [heq, hnone]
    · rw [if_neg (fun h => heq h.symm), if_neg heq]
  | none =>
    rw [find_modify]
    by_cases heq : rootPath' = rootPath
    · rw [if_pos heq, if_pos heq]
      cases hfind : counters.find rootPath with
      | some counter => rfl
      | none =>
        -- the counter was refused because it exists
        unfold Table.insert at hinsert
        split at hinsert
        · next hmem =>
          obtain ⟨row, hrow, hkey⟩ := mem_map.mp hmem
          exact absurd hkey (find_eq_none_iff.mp hfind row hrow)
        · cases hinsert
    · rw [if_neg heq, if_neg heq]

theorem numbered_taskNumber (db : LaborerDatabase) (row : LaborerTask) :
    (db.numbered row).taskNumber = nextNumber db.taskNumberCounters row.rootPath := by
  have hbump := nextNumber_bump db.taskNumberCounters row.rootPath row.rootPath
  rw [if_pos rfl] at hbump
  unfold numbered assignedTaskNumber
  unfold nextNumber at hbump
  cases hfind : (bumpTaskNumberCounter db.taskNumberCounters row.rootPath).find row.rootPath with
  | none =>
    rw [hfind] at hbump
    unfold nextNumber
    simp only [elim_none] at hbump ⊢
    omega
  | some counter =>
    rw [hfind] at hbump
    unfold nextNumber
    simp only [elim_some] at hbump ⊢
    omega

/-! ## The invariant -/

/-- The numbers of a root are apart, and its counter is ahead of them. -/
structure NumbersOk (db : LaborerDatabase) : Prop where
  unique : ∀ row ∈ db.tasks.rows, ∀ row' ∈ db.tasks.rows, row.rootPath = row'.rootPath →
    row.taskNumber = row'.taskNumber → row = row'
  below : ∀ row ∈ db.tasks.rows, row.taskNumber < nextNumber db.taskNumberCounters row.rootPath

structure KeepsNumbers (db db' : LaborerDatabase) : Prop where
  counters : db'.taskNumberCounters = db.taskNumberCounters
  rows : ∀ row' ∈ db'.tasks.rows, ∃ row ∈ db.tasks.rows,
    row.id = row'.id ∧ row.rootPath = row'.rootPath ∧ row.taskNumber = row'.taskNumber

structure InsertsNumber (db : LaborerDatabase) (row : LaborerTask) (db' : LaborerDatabase) :
    Prop where
  counters : db'.taskNumberCounters = bumpTaskNumberCounter db.taskNumberCounters row.rootPath
  rows : db'.tasks.rows = db.tasks.rows ++ [db.numbered row]
  allowed : TaskRowAllowed db.tasks (db.numbered row)
  idFree : db.tasks.find row.id = none

variable {db db' : LaborerDatabase}

/-- A write that moves no task to another root numbers a new task, or none. -/
theorem LaborerDatabase.Writes.numbers {operationId : Option String} {intent : Intent}
    {collections : List SharedCollectionName}
    (h : Writes operationId intent db collections db')
    (hkept : ∀ move ∈ intent.moves, ∀ row, db.tasks.find move.id = some row →
      row.revision = move.revision → move.rootPath = row.rootPath) :
    KeepsNumbers db db' ∨ ∃ row, InsertsNumber db row db' := by
  cases h with
  | nothing => exact .inl ⟨rfl, fun row hrow => ⟨row, hrow, rfl, rfl, rfl⟩⟩
  | insertedTask row tasks changedAt labelIds allowed inserted =>
    obtain ⟨hfree, hrows⟩ := insert_eq_some_iff.mp inserted
    exact .inr ⟨row, rfl, hrows, allowed, hfree⟩
  | updatedTask id f hf row changedAt found labelIds taskNumber rootPath =>
    left
    refine ⟨rfl, fun row' hrow' => ?_⟩
    rcases mem_rows_modify hf hrow' with ⟨hrow', -⟩ | ⟨row'', hrow'', rfl⟩
    · exact ⟨row', hrow', rfl, rfl, rfl⟩
    · rw [found] at hrow''
      cases hrow''
      have hroot : row.rootPath = (f row).rootPath := by
        rcases rootPath with hsame | hmoves
        · exact hsame.symm
        · exact (hkept _ hmoves row found rfl).symm
      exact ⟨row, mem_of_find found, (hf row).symm, hroot, taskNumber.symm⟩
  | relabelledTask id labelIds changedAt row found =>
    left
    have hid : ∀ row, (relabelled labelIds changedAt row).id = row.id := fun _ => rfl
    refine ⟨rfl, fun row' hrow' => ?_⟩
    rcases mem_rows_modify hid hrow' with ⟨hrow', -⟩ | ⟨row'', hrow'', rfl⟩
    · exact ⟨row', hrow', rfl, rfl, rfl⟩
    · exact ⟨row'', mem_of_find hrow'', rfl, rfl, rfl⟩
  | deletedTask id =>
    left
    refine ⟨rfl, fun row' hrow' => ?_⟩
    obtain ⟨row, hrow, rfl⟩ := mem_map.mp hrow'
    refine ⟨row, mem_of_mem_filter hrow, ?_⟩
    unfold orphaned
    split
    · exact ⟨rfl, rfl, rfl⟩
    · exact ⟨rfl, rfl, rfl⟩
  | deletedLabel id changedAt =>
    left
    refine ⟨rfl, fun row' hrow' => ?_⟩
    obtain ⟨row, hrow, rfl⟩ := mem_map.mp hrow'
    refine ⟨row, hrow, ?_⟩
    unfold stripped
    split
    · exact ⟨rfl, rfl, rfl⟩
    · exact ⟨rfl, rfl, rfl⟩
  | wroteState db' entries writes =>
    left
    refine ⟨writes.counters, fun row hrow => ?_⟩
    rw [writes.tasks] at hrow
    exact ⟨row, hrow, rfl, rfl, rfl⟩

theorem NumbersOk.keeps (h : NumbersOk db) (hkeeps : KeepsNumbers db db') : NumbersOk db' := by
  constructor
  · intro row₁' hrow₁' row₂' hrow₂' hroot hnumber
    obtain ⟨row₁, hrow₁, hid₁, hroot₁, hnumber₁⟩ := hkeeps.rows row₁' hrow₁'
    obtain ⟨row₂, hrow₂, hid₂, hroot₂, hnumber₂⟩ := hkeeps.rows row₂' hrow₂'
    have hsame : row₁ = row₂ := by
      apply h.unique row₁ hrow₁ row₂ hrow₂
      · rw [hroot₁, hroot₂, hroot]
      · rw [hnumber₁, hnumber₂, hnumber]
    have hid : row₁'.id = row₂'.id := by rw [← hid₁, ← hid₂, hsame]
    have hfind := find_key hrow₁'
    rw [hid, find_key hrow₂', Option.some.injEq] at hfind
    exact hfind.symm
  · intro row' hrow'
    obtain ⟨row, hrow, -, hroot, hnumber⟩ := hkeeps.rows row' hrow'
    rw [hkeeps.counters, ← hroot, ← hnumber]
    exact h.below row hrow

variable {row : LaborerTask}

theorem NumbersOk.inserts (h : NumbersOk db)
    (hinserts : InsertsNumber db row db') : NumbersOk db' := by
  have hnumber := numbered_taskNumber db row
  have hfresh : ∀ old ∈ db.tasks.rows, old.rootPath = row.rootPath →
      old.taskNumber ≠ (db.numbered row).taskNumber := by
    intro old hold hroot heq
    have hbelow := h.below old hold
    rw [hroot] at hbelow
    omega
  constructor
  · intro row₁ hrow₁ row₂ hrow₂ hroot heq
    rw [hinserts.rows, mem_append, mem_singleton] at hrow₁ hrow₂
    rcases hrow₁ with hrow₁ | rfl
    · rcases hrow₂ with hrow₂ | rfl
      · exact h.unique row₁ hrow₁ row₂ hrow₂ hroot heq
      · exact absurd heq (hfresh row₁ hrow₁ hroot)
    · rcases hrow₂ with hrow₂ | rfl
      · exact absurd heq.symm (hfresh row₂ hrow₂ hroot.symm)
      · rfl
  · intro row' hrow'
    rw [hinserts.rows, mem_append, mem_singleton] at hrow'
    rw [hinserts.counters, nextNumber_bump]
    rcases hrow' with hrow' | rfl
    · have hbelow := h.below row' hrow'
      split
      · next hroot =>
        rw [hroot] at hbelow
        omega
      · exact hbelow
    · have hroot : (db.numbered row).rootPath = row.rootPath := rfl
      rw [if_pos hroot]
      omega

/-! ## Runs -/

/-- What becomes of the numbers between two states: counters do not go back, and a
task that has no older number has one that was not given before. -/
structure NumbersSince (db db' : LaborerDatabase) : Prop where
  counters : ∀ rootPath,
    nextNumber db.taskNumberCounters rootPath ≤ nextNumber db'.taskNumberCounters rootPath
  rows : ∀ row' ∈ db'.tasks.rows,
    (∃ row ∈ db.tasks.rows,
      row.id = row'.id ∧ row.rootPath = row'.rootPath ∧ row.taskNumber = row'.taskNumber) ∨
    nextNumber db.taskNumberCounters row'.rootPath ≤ row'.taskNumber

theorem NumbersSince.refl (db : LaborerDatabase) : NumbersSince db db where
  counters := fun _ => Nat.le_refl _
  rows := fun row hrow => .inl ⟨row, hrow, rfl, rfl, rfl⟩

theorem NumbersSince.trans {db'' : LaborerDatabase} (h : NumbersSince db db')
    (h' : NumbersSince db' db'') : NumbersSince db db'' := by
  constructor
  · exact fun rootPath => (h.counters rootPath).trans (h'.counters rootPath)
  · intro row'' hrow''
    rcases h'.rows row'' hrow'' with ⟨row', hrow', hid', hroot', hnumber'⟩ | hnew
    · rw [← hid', ← hroot', ← hnumber']
      exact h.rows row' hrow'
    · right
      exact (h.counters _).trans hnew

theorem KeepsNumbers.since (h : KeepsNumbers db db') : NumbersSince db db' where
  counters := fun rootPath => by rw [h.counters]
  rows := fun row' hrow' => .inl (h.rows row' hrow')

theorem InsertsNumber.since (h : InsertsNumber db row db') : NumbersSince db db' := by
  constructor
  · intro rootPath
    rw [h.counters, nextNumber_bump]
    split
    · next heq =>
      subst heq
      exact Nat.le_succ _
    · exact Nat.le_refl _
  · intro row' hrow'
    rw [h.rows, mem_append, mem_singleton] at hrow'
    rcases hrow' with hrow' | rfl
    · exact .inl ⟨row', hrow', rfl, rfl, rfl⟩
    · right
      exact (numbered_taskNumber db row).ge

/-- A task keeps its root: no update that its revision and the tables admit gives it another. -/
def Operation.KeepsRoot (operation : Operation) (db : LaborerDatabase) : Prop :=
  match operation with
  | .updateTask id expectedRevision patch _ changedAt =>
    ∀ rootPath ∈ patch.rootPath, ∀ row, db.tasks.find id = some row →
      row.revision = expectedRevision →
      LaborerDatabase.TaskRowAllowed db.tasks (patch.apply changedAt row) →
        rootPath = row.rootPath
  | _ => True

theorem Operation.KeepsRoot.moves {operation : Operation} {toLowerCase : String → String}
    (h : operation.KeepsRoot db) (hok : (operation.run toLowerCase db).1 = .ok ()) :
    ∀ move ∈ operation.intent.moves, ∀ row, db.tasks.find move.id = some row →
      row.revision = move.revision → move.rootPath = row.rootPath := by
  intro move hmove row hfind hrevision
  cases operation with
  | updateTask id expectedRevision patch operationId changedAt =>
    obtain ⟨rootPath, hroot, rfl⟩ := map_eq_some_iff.mp hmove
    obtain ⟨result, hresult⟩ := forget_eq_ok.mp (Prod.ext hok rfl)
    obtain ⟨row', hfind', -, hallowed, -⟩ := NativeLaborerDatabase.updateTask_eq_ok hresult
    cases hfind.symm.trans hfind'
    exact h rootPath hroot row hfind hrevision hallowed
  | _ => cases hmove

structure DatabaseOk (db : LaborerDatabase) : Prop where
  labels : LabelsOk db
  numbers : NumbersOk db

theorem DatabaseOk.migrated (now : ℤ) : DatabaseOk (.migrated now) where
  labels := .migrated now
  numbers :=
    { unique := fun _ hrow => absurd hrow not_mem_nil
      below := fun _ hrow => absurd hrow not_mem_nil }

/-- **One operation** keeps the numbers, and gives no old one. -/
theorem Operation.step_numbers {toLowerCase : String → String}
    (h : DatabaseOk db) {operation : Operation} (hkept : operation.KeepsRoot db) :
    NumbersOk (operation.step toLowerCase db) ∧
      NumbersSince db (operation.step toLowerCase db) := by
  obtain hsame | ⟨hok, operationId, collections, hwrites⟩ := operation.step_writes h.labels
  · rw [hsame]
    exact ⟨h.numbers, .refl db⟩
  · rcases hwrites.numbers (hkept.moves hok) with hkeeps | ⟨row, hinserts⟩
    · exact ⟨h.numbers.keeps hkeeps, hkeeps.since⟩
    · exact ⟨h.numbers.inserts hinserts, hinserts.since⟩

theorem DatabaseOk.step {toLowerCase : String → String} (operation : Operation)
    (db : LaborerDatabase) (h : DatabaseOk db) (hkept : operation.KeepsRoot db) :
    DatabaseOk (operation.step toLowerCase db) where
  labels := h.labels.step operation
  numbers := (Operation.step_numbers h hkept).1

theorem id_of_number {old : LaborerDatabase} (hold : NumbersOk old)
    (hsince : NumbersSince old db) {row' : LaborerTask} (hrow : row ∈ old.tasks.rows)
    (hrow' : row' ∈ db.tasks.rows) (hroot : row.rootPath = row'.rootPath)
    (hnumber : row.taskNumber = row'.taskNumber) : row.id = row'.id := by
  rcases hsince.rows row' hrow' with ⟨row₀, hrow₀, hid, hroot₀, hnumber₀⟩ | hnew
  · rw [← hid, hold.unique row hrow row₀ hrow₀ (hroot.trans hroot₀.symm)
      (hnumber.trans hnumber₀.symm)]
  · have hbelow := hold.below row hrow
    rw [hroot, hnumber] at hbelow
    omega

/-! ## Inserting -/

theorem insertTaskRow_succeeds (row : LaborerTask) (h : NumbersOk db)
    (hid : db.tasks.find row.id = none)
    (hexecution : row.executionId.isSome → ∀ other ∈ db.tasks.rows,
      other.executionId ≠ row.executionId)
    (hparent : ∀ parent ∈ row.parentTaskId, parent ≠ row.id → db.tasks.find parent ≠ none) :
    ∃ db', db.insertTaskRow row = .ok db' ∧ db'.tasks.find row.id = some (db.numbered row) := by
  have hnumber := numbered_taskNumber db row
  have hallowed : TaskRowAllowed db.tasks (db.numbered row) := by
    constructor
    · exact fun hsome other hother _ => hexecution hsome other hother
    · intro other hother _ hroot heq
      have hbelow := h.below other hother
      have hsame : other.rootPath = row.rootPath := hroot
      rw [hsame] at hbelow
      omega
    · exact hparent
  obtain ⟨tasks, htasks⟩ : ∃ tasks, db.tasks.insert (db.numbered row) = some tasks :=
    exists_insert hid
  refine ⟨_, insertTaskRow_eq_ok.mpr ⟨hallowed, tasks, htasks, rfl⟩, ?_⟩
  have hkey : (db.numbered row).id = row.id := rfl
  dsimp only
  rw [find_insert htasks, if_pos hkey]

theorem numbered_unused (h : NumbersOk db) (row : LaborerTask) :
    ∀ other ∈ db.tasks.rows, other.rootPath = row.rootPath →
      other.taskNumber ≠ (db.numbered row).taskNumber := by
  intro other hother hroot heq
  have hbelow := h.below other hother
  rw [hroot, heq, numbered_taskNumber] at hbelow
  exact Nat.lt_irrefl _ hbelow

/-- A task that can be inserted: nothing of it is taken, and what it names exists. -/
structure Fresh (db : LaborerDatabase) (input : NewLaborerTask) : Prop where
  idFree : db.tasks.find input.id = none
  executionIdFree : input.executionId.isSome →
    ∀ other ∈ db.tasks.rows, other.executionId ≠ input.executionId
  parentExists : ∀ parent ∈ input.parentTaskId, parent ≠ input.id → db.tasks.find parent ≠ none
  labels : (distinct input.labelIds).length ≤ maxTaskLabels
  labelsExist : ∀ id ∈ input.labelIds, (db.labels.find id).isSome
  prApprovals : ∀ n ∈ input.prApprovals, 0 ≤ n

theorem requireKnownLabels_succeeds {taskId : String}
    {labelIds : List String} (h : ∀ id ∈ labelIds, (db.labels.find id).isSome) :
    db.requireKnownLabels taskId labelIds = .ok () := by
  have hunknown : db.unknownLabelIds labelIds = [] := by
    apply filter_eq_nil_iff.mpr
    intro id hid
    have hsome := h id hid
    cases hfind : db.labels.find id with
    | none =>
      rw [hfind] at hsome
      cases hsome
    | some label => simp
  unfold requireKnownLabels
  rw [hunknown]
  rfl

/-- The insertion of a fresh task succeeds, with a number that its root does not use. -/
def InsertsFresh (db : LaborerDatabase) (rootPath : String) (row : LaborerTask) : Prop :=
  row.rootPath = rootPath ∧
    ∀ other ∈ db.tasks.rows, other.rootPath = rootPath → other.taskNumber ≠ row.taskNumber

theorem insertTask_succeeds (h : NumbersOk db) {input : NewLaborerTask}
    (hfresh : Fresh db input) (operationId : Option String) (changedAt : ℤ) : ∃ result db',
      NativeLaborerDatabase.insertTask input operationId changedAt db = (.ok result, db') ∧
        InsertsFresh db input.rootPath result.row := by
  let row := NativeLaborerDatabase.newTaskRow input (distinct input.labelIds)
    (db.taskSortOrder input) changedAt
  obtain ⟨db₁, hinsert, hfind⟩ := insertTaskRow_succeeds row h hfresh.idFree
    hfresh.executionIdFree hfresh.parentExists
  have hknown : db.requireKnownLabels input.id (distinct input.labelIds) = .ok () :=
    requireKnownLabels_succeeds fun id hid => hfresh.labelsExist id (mem_distinct.mp hid)
  have hrequire : (db₁.appendTaskChange input.id changedAt operationId).2.requireTask input.id =
      .ok (db.numbered row) := requireTask_succeeds hfind hfresh.prApprovals
  unfold NativeLaborerDatabase.insertTask NativeLaborerDatabase.writeTransaction
  refine ⟨{ row := db.numbered row, cursor := db₁.taskChanges.last + 1 },
    (db₁.appendTaskChange input.id changedAt operationId).2, transaction_eq_ok.mpr ?_, rfl,
    numbered_unused h row⟩
  dsimp only
  rw [if_neg (Nat.not_lt.mpr hfresh.labels)]
  refine bind_eq_ok.mpr ⟨(), hknown, ?_⟩
  refine bind_eq_ok.mpr ⟨db₁, hinsert, ?_⟩
  exact bind_eq_ok.mpr ⟨_, hrequire, rfl⟩

theorem adoptWorktreeTask_succeeds (h : NumbersOk db)
    {input : AdoptedWorktree} (hid : db.tasks.find input.id = none)
    (hparent : ∀ parent ∈ input.parentTaskId, parent ≠ input.id → db.tasks.find parent ≠ none)
    (changedAt : ℤ) :
    ∃ result db', NativeLaborerDatabase.adoptWorktreeTask input changedAt db = (.ok result, db') ∧
      ∀ row ∈ result, InsertsFresh db input.rootPath row := by
  unfold NativeLaborerDatabase.adoptWorktreeTask NativeLaborerDatabase.writeTransaction
  by_cases hclaimed : NativeLaborerDatabase.worktreeClaimed db input = true
  · refine ⟨none, db, transaction_eq_ok.mpr ?_, fun _ hrow => nomatch hrow⟩
    dsimp only
    rw [if_pos hclaimed]
    rfl
  · let row := NativeLaborerDatabase.adoptedTaskRow input changedAt
    have hexecution : row.executionId.isSome → ∀ other ∈ db.tasks.rows,
        other.executionId ≠ row.executionId := fun hsome => nomatch hsome
    obtain ⟨db₁, hinsert, hfind⟩ := insertTaskRow_succeeds row h hid hexecution hparent
    have hrequire : (db₁.appendTaskChange input.id changedAt none).2.requireTask input.id =
        .ok (db.numbered row) := requireTask_succeeds hfind fun _ hn => nomatch hn
    refine ⟨some (db.numbered row), (db₁.appendTaskChange input.id changedAt none).2,
      transaction_eq_ok.mpr ?_, ?_⟩
    · dsimp only
      rw [if_neg hclaimed]
      refine bind_eq_ok.mpr ⟨db₁, hinsert, ?_⟩
      exact bind_eq_ok.mpr ⟨_, hrequire, rfl⟩
    · rintro _ ⟨⟩
      exact ⟨rfl, numbered_unused h row⟩

/-- **The numbers of tasks.** In every run in which no update gives a task another
root, no two tasks of the run have one number in one root, and a fresh task can
always be inserted, and gets a number that its root does not use. -/
theorem numbers_of_tasks (toLowerCase : String → String) (now : ℤ) (operations : List Operation)
    (hkept : RunMeets (Operation.step toLowerCase) Operation.KeepsRoot (.migrated now)
      operations) :
    let db := finalState (Operation.step toLowerCase) (.migrated now) operations
    (∀ old ∈ visited (Operation.step toLowerCase) (.migrated now) operations,
        ∀ row ∈ old.tasks.rows, ∀ row' ∈ db.tasks.rows, row.rootPath = row'.rootPath →
          row.taskNumber = row'.taskNumber → row.id = row'.id) ∧
      (∀ input, Fresh db input → ∀ operationId changedAt, ∃ result db',
        NativeLaborerDatabase.insertTask input operationId changedAt db = (.ok result, db') ∧
          InsertsFresh db input.rootPath result.row) ∧
      ∀ input : AdoptedWorktree, db.tasks.find input.id = none →
        (∀ parent ∈ input.parentTaskId, parent ≠ input.id → db.tasks.find parent ≠ none) →
          ∀ changedAt, ∃ result db',
            NativeLaborerDatabase.adoptWorktreeTask input changedAt db = (.ok result, db') ∧
              ∀ row ∈ result, InsertsFresh db input.rootPath row := by
  intro db
  have hok := invariant_visited DatabaseOk.step (DatabaseOk.migrated now) hkept
  have hdb := hok db (finalState_mem_visited _ _)
  refine ⟨?_, ?_, ?_⟩
  · intro old hold row hrow row' hrow' hroot hnumber
    have hsince := rel_finalState NumbersSince.refl (fun _ _ _ => NumbersSince.trans)
      DatabaseOk.step (fun _ _ h hkept => (Operation.step_numbers h hkept).2)
      (DatabaseOk.migrated now) hkept old hold
    exact id_of_number (hok old hold).numbers hsince hrow hrow' hroot hnumber
  · exact fun input hfresh => insertTask_succeeds hdb.numbers hfresh
  · exact fun input hid hparent => adoptWorktreeTask_succeeds hdb.numbers hid hparent

theorem numbers_of_tasks_insert :
    let task (id : String) : NewLaborerTask :=
      { id, rootPath := "/a", source := .manual, status := .todo, title := id }
    let operations : List Operation :=
      [.insertTask (task "first") none 1, .insertTask (task "second") none 2,
        .deleteTask "second" 1 none 3]
    ∃ result db', NativeLaborerDatabase.insertTask (task "third") none 4
        (finalState (Operation.step id) (.migrated 0) operations) = (.ok result, db') ∧
      InsertsFresh (finalState (Operation.step id) (.migrated 0) operations) "/a" result.row := by
  intro task operations
  refine (numbers_of_tasks id 0 operations ⟨trivial, trivial, trivial, trivial⟩).2.1
    (task "third") ?_ none 4
  refine ⟨rfl, fun h => (nomatch h), fun _ h => (nomatch h), ?_, ?_, fun _ h => (nomatch h)⟩
  · decide
  · exact fun _ h => (nomatch h)

/-- A task that moves to another root takes its number with it, where the next task
to be inserted is refused. -/
theorem numbers_of_tasks_moved :
    let task (id rootPath : String) : NewLaborerTask :=
      { id, rootPath, source := .manual, status := .todo, title := id }
    let operations : List Operation :=
      [.insertTask (task "first" "/a") none 1,
        .updateTask "first" 1 { rootPath := some "/b" } none 2]
    let db := finalState (Operation.step id) (.migrated 0) operations
    Fresh db (task "second" "/b") ∧
      (NativeLaborerDatabase.insertTask (task "second" "/b") none 3 db).1 =
        .error (.sql "UNIQUE constraint failed: tasks.root_path, tasks.task_number") := by
  intro task operations db
  refine ⟨⟨rfl, fun h => (nomatch h), fun _ h => (nomatch h), ?_, ?_, fun _ h => (nomatch h)⟩, rfl⟩
  · decide
  · exact fun _ h => (nomatch h)

end Laborer.Database
