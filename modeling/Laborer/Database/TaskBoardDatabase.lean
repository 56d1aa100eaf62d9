import Laborer.Database.TaskDatabase

/-!
# The task board database

The second implementation of the task writes, over its own connection to the shared
file. It inserts and updates through the task database, and runs its other writes in
transactions of its own.
-/

namespace Laborer.Database

open Laborer.Library

def maxBranchTasks : ℕ := 1000

def maxCasAttempts : ℕ := 5

inductive BoardError where
  | database (error : DatabaseError)
  /-- A plain `Error` with its cause. -/
  | caused (message : String) (cause : DatabaseError)
  | stalePrTaskTransition
deriving DecidableEq

structure PrTaskTransitionInput where
  branchName : String
  projectRepoPath : String
  prState : Option String
  registeredProjectRepoPaths : List String

def nearestProjectRoot (rootPath : String) (projectRoots : List String) : Option String :=
  projectRoots.foldl (fun nearest projectRoot =>
    if pathContains projectRoot rootPath ∧ nearest.all (jsLength · < jsLength projectRoot) then
      some projectRoot
    else nearest) none

/-- The status that the state of its pull request gives a task, over `toUpperCase`. -/
def nextStatusForPr (toUpperCase : String → String) (task : Task) (prState : String) :
    Option TaskStatus :=
  if toUpperCase prState = "MERGED" then
    if task.status = .done then none else some .done
  else if toUpperCase prState = "CLOSED" then
    if task.status = .inReview then some .inProgress else none
  else if toUpperCase prState = "OPEN" then
    if task.status = .inProgress ∧ (task.source = .manual ∨ task.source = .slackUrl ∨
        task.source = .agent ∨ task.source = .worktree) then
      some .inReview
    else none
  else none

def moved (status : TaskStatus) (sortOrder : ℚ) (changedAt : ℤ) (row : LaborerTask) : LaborerTask :=
  { row with
    status
    sortOrder := some sortOrder
    updatedAt := changedAt
    revision := row.revision + 1 }

/-- `UPDATE tasks SET status = … WHERE id = ? AND revision = ?`, which touches no
index. -/
def LaborerDatabase.moveTaskRow (db : LaborerDatabase) (id : String) (expectedRevision : ℤ)
    (status : TaskStatus) (changedAt : ℤ) : ℕ × LaborerDatabase :=
  let (changes, tasks) := db.tasks.updateWhere id (·.revision = expectedRevision)
    (moved status (db.nextTaskSortOrder status) changedAt) fun _ => rfl
  (changes, { db with tasks })

namespace TaskBoardDatabase

open LaborerDatabase

/-- `#writeTransaction`, at the attempt that gets the lock. -/
abbrev writeTransaction {α : Type}
    (operation : LaborerDatabase → Except BoardError (α × LaborerDatabase)) :
    LaborerDatabase → Except BoardError α × LaborerDatabase :=
  transaction operation

def insert (input : NewTask) (changedAt : ℤ) (db : LaborerDatabase) :
    Except BoardError Task × LaborerDatabase :=
  let (result, db) := TaskDatabase.insert input changedAt db
  ((result.map Prod.fst).mapError .database, db)

/-- Without an expected revision the last write wins. -/
def update (id : String) (expectedRevision : Option ℤ) (patch : TaskPatch) (changedAt : ℤ)
    (db : LaborerDatabase) : Except BoardError Task × LaborerDatabase :=
  let (result, db) := TaskDatabase.update id expectedRevision patch changedAt db
  let rethrown : DatabaseError → BoardError
    | .taskStaleRevision taskId revision current =>
      .caused s!"Task {id} has a stale revision" (.taskStaleRevision taskId revision current)
    | error => .database error
  (result.mapError rethrown, db)

/-- Persist the status that a human declares. One that the row has already is no
write, and another that won is left untouched. -/
def move (id : String) (expectedRevision : ℤ) (status : TaskStatus) (changedAt : ℤ)
    (db : LaborerDatabase) : Except BoardError Task × LaborerDatabase :=
  if ¬ (1 ≤ expectedRevision ∧ expectedRevision ≤ maxSafeInteger) then
    (.error (.database (.error "A task move requires a positive expected revision")), db)
  else
    writeTransaction (fun db =>
      match TaskDatabase.find db id with
      | none => throw (.database (.error s!"Task not found: {id}"))
      | some initial =>
        if initial.status = status then pure (initial, db)
        else if initial.revision ≠ expectedRevision then
          throw (.database (.error s!"Task changed while moving: {id}"))
        else
          let (changes, db) := db.moveTaskRow id expectedRevision status changedAt
          if changes = 0 then throw (.database (.error s!"Task changed while moving: {id}"))
          else
            let (_, db) := db.appendTaskChange id changedAt none
            match TaskDatabase.find db id with
            | none => throw (.database (.error s!"Moved task could not be read: {id}"))
            | some moved => pure (moved, db)) db

/-- Whether a task has the worktree, under one of its paths or by its branch. -/
def worktreeClaimed (db : LaborerDatabase) (input : AdoptedWorktree) : Bool :=
  let aliases := distinct (input.worktreePath :: input.worktreePathAliases)
  db.tasks.rows.any (fun row => row.worktreePath.any (· ∈ aliases)) ||
    (input.branchName.isSome &&
      ((db.tasks.rows.filter fun row => row.branchName = input.branchName).take maxBranchTasks).any
        fun row => pathContains row.rootPath input.rootPath ||
          pathContains input.rootPath row.rootPath)

def adoptWorktreeTask (input : AdoptedWorktree) (changedAt : ℤ) :
    LaborerDatabase → Except BoardError (Option Task) × LaborerDatabase :=
  writeTransaction fun db =>
    if worktreeClaimed db input then pure (none, db)
    else do
      let db ← (db.insertTaskRow (NativeLaborerDatabase.adoptedTaskRow input changedAt)).mapError
        .database
      let (_, db) := db.appendTaskChange input.id changedAt none
      match TaskDatabase.find db input.id with
      | none => throw (.database (.error s!"Adopted worktree task {input.id} could not be read"))
      | some task => pure (some task, db)

def projectRoots (input : PrTaskTransitionInput) : List String :=
  if input.projectRepoPath ∈ input.registeredProjectRepoPaths then input.registeredProjectRepoPaths
  else input.registeredProjectRepoPaths ++ [input.projectRepoPath]

def branchTasks (db : LaborerDatabase) (branchName : String) : List LaborerTask :=
  ((db.tasks.rows.filter (·.branchName = some branchName)).insertionSort
    fun r r' => before r'.createdAt r'.id r.createdAt r.id).take (maxBranchTasks + 1)

def transitionAttempt (toUpperCase : String → String) (input : PrTaskTransitionInput)
    (changedAt : ℤ) : LaborerDatabase → Except BoardError (Option Task) × LaborerDatabase :=
  writeTransaction fun db =>
    let rows := branchTasks db input.branchName
    if maxBranchTasks < rows.length then
      throw (.database (.error
        s!"Branch {input.branchName} exceeds the {maxBranchTasks} task match limit"))
    else
      match (rows.map LaborerTask.toTask).find? fun candidate =>
          nearestProjectRoot candidate.rootPath (projectRoots input) =
            some input.projectRepoPath with
      | none => pure (none, db)
      | some task =>
        match nextStatusForPr toUpperCase task (input.prState.getD "") with
        | none => pure (none, db)
        | some status =>
          let (changes, db) := db.moveTaskRow task.id task.revision status changedAt
          if changes = 0 then throw .stalePrTaskTransition
          else
            let (_, db) := db.appendTaskChange task.id changedAt none
            match TaskDatabase.find db task.id with
            | none => throw (.database (.error s!"Updated task {task.id} could not be read"))
            | some updated => pure (some updated, db)

/-- The loop of `transitionTaskForPr`, over the attempts that are left. -/
def transitionAttempts (toUpperCase : String → String) (input : PrTaskTransitionInput)
    (changedAt : ℤ) : ℕ → LaborerDatabase → Except BoardError (Option Task) × LaborerDatabase
  | 0, db => (.ok none, db)
  | attempts + 1, db =>
    match transitionAttempt toUpperCase input changedAt db with
    | (.error error, db) =>
      if error ≠ .stalePrTaskTransition ∨ attempts = 0 then (.error error, db)
      else transitionAttempts toUpperCase input changedAt attempts db
    | result => result

/-- Move the newest task of a branch as its pull request asks. -/
def transitionTaskForPr (toUpperCase : String → String) (input : PrTaskTransitionInput)
    (changedAt : ℤ) (db : LaborerDatabase) : Except BoardError (Option Task) × LaborerDatabase :=
  if input.prState = none then (.ok none, db)
  else transitionAttempts toUpperCase input changedAt maxCasAttempts db

end TaskBoardDatabase

end Laborer.Database
