import Laborer.Database.TaskOperations
import Mathlib.Data.List.Sort
import Mathlib.Data.String.Basic

/-!
# Project, setting and review comment operations

The operations of the native server database on the other tables of the state
ledger.
-/

namespace Laborer.Database

open Laborer.Library

def reviewCommentBodyMaxLength : ℕ := 10000

def reviewCommentFilePathMaxLength : ℕ := 4096

def maxReviewCommentReplies : ℕ := 200

def ReviewCommentAuthor.name : ReviewCommentAuthor → String
  | .human => "human"
  | .agent => "agent"

namespace LaborerDatabase

/-! ## Projects -/

def findProject (db : LaborerDatabase) (id : String) : Option Project :=
  db.projects.find id

def requireProject (db : LaborerDatabase) (id : String) : Except DatabaseError Project :=
  match db.findProject id with
  | none => throw (.error s!"Project {id} could not be read after mutation")
  | some row => pure row

/-- The project of the last ledger entry of an operation whose project is there. -/
def findProjectByOperationId (db : LaborerDatabase) (operationId : String) : Option Project :=
  (db.stateChanges.retained.reverse.filter fun change =>
      change.tableName = .projects ∧ change.operationId = some operationId).findSome?
    fun change => db.projects.find change.rowId

def staleProject {α : Type} (db : LaborerDatabase) (id : String) (expectedRevision : ℤ) :
    Except DatabaseError α :=
  throw (.staleRevision .projects id (some expectedRevision) ((db.findProject id).map .project))

def checkProjectRow (db : LaborerDatabase) (row : Project) : Except DatabaseError Unit :=
  if db.projects.rows.any fun other => other.id ≠ row.id ∧ other.repoId = row.repoId then
    throw (.sql "UNIQUE constraint failed: projects.repo_id")
  else pure ()

def insertProjectRow (db : LaborerDatabase) (row : Project) :
    Except DatabaseError LaborerDatabase :=
  match db.projects.insert row with
  | none => throw (.sql "UNIQUE constraint failed: projects.id")
  | some projects => do
    db.checkProjectRow row
    pure { db with projects }

/-- `UPDATE projects SET … WHERE id = ? AND revision = ?`. -/
def updateProjectRow (db : LaborerDatabase) (id : String) (expectedRevision : ℤ)
    (f : Project → Project) (hf : ∀ row, (f row).id = row.id) :
    Except DatabaseError (ℕ × LaborerDatabase) :=
  let (changes, projects) := db.projects.updateWhere id (·.revision = expectedRevision) f hf
  match changes, projects.find id with
  | 0, _ | _, none => pure (0, db)
  | changes, some row => do
    db.checkProjectRow row
    pure (changes, { db with projects })

/-! ## Settings -/

def findSetting (db : LaborerDatabase) (key : String) : Option AppSetting :=
  db.settings.find key

def requireSetting (db : LaborerDatabase) (key : String) : Except DatabaseError AppSetting :=
  match db.findSetting key with
  | none => throw (.error s!"Setting {key} could not be read after mutation")
  | some row => pure row

def staleSetting {α : Type} (db : LaborerDatabase) (key : String) (expectedRevision : ℤ) :
    Except DatabaseError α :=
  throw (.staleRevision .appSettings key (some expectedRevision)
    ((db.findSetting key).map .setting))

/-! ## Review comments -/

/-- `ORDER BY created_at, id`. -/
def before (at₁ : ℤ) (id₁ : String) (at₂ : ℤ) (id₂ : String) : Prop :=
  at₁ < at₂ ∨ (at₁ = at₂ ∧ id₁ ≤ id₂)

instance (at₁ : ℤ) (id₁ : String) (at₂ : ℤ) (id₂ : String) : Decidable (before at₁ id₁ at₂ id₂) :=
  inferInstanceAs (Decidable (_ ∨ _))

def listReviewCommentReplies (db : LaborerDatabase) (threadId : String) :
    Except DatabaseError (List ReviewCommentReply) :=
  boundedRows (((db.reviewCommentReplies.rows.filter (·.threadId = threadId)).insertionSort
    fun r r' => before r.createdAt r.id r'.createdAt r'.id).take (maxTableRows + 1))
    .reviewCommentReplies

/-- `decodeReviewCommentThreadRow`, whose failures the checks of the table exclude. -/
def reviewCommentThread (db : LaborerDatabase) (row : ReviewCommentThreadRow) :
    Except DatabaseError ReviewCommentThread := do
  let replies ← db.listReviewCommentReplies row.id
  pure { row with replies }

def findReviewCommentThread (db : LaborerDatabase) (id : String) :
    Except DatabaseError (Option ReviewCommentThread) :=
  match db.reviewCommentThreads.find id with
  | none => pure none
  | some row => some <$> db.reviewCommentThread row

def requireReviewCommentThread (db : LaborerDatabase) (id : String) :
    Except DatabaseError ReviewCommentThread := do
  match ← db.findReviewCommentThread id with
  | none => throw (.error s!"Review comment thread {id} could not be read after mutation")
  | some thread => pure thread

def staleReviewCommentThread {α : Type} (db : LaborerDatabase) (id : String)
    (expectedRevision : ℤ) : Except DatabaseError α := do
  let current ← db.findReviewCommentThread id
  throw (.staleRevision .reviewCommentThreads id (some expectedRevision)
    (current.map .reviewCommentThread))

/-- Every thread of a workspace, the resolved ones included. -/
def listReviewCommentThreads (db : LaborerDatabase) (workspaceId : String) :
    Except DatabaseError (List ReviewCommentThread) := do
  let rows ← boundedRows
    (((db.reviewCommentThreads.rows.filter (·.workspaceId = workspaceId)).insertionSort
      fun r r' => before r.createdAt r.id r'.createdAt r'.id).take (maxTableRows + 1))
    .reviewCommentThreads
  rows.mapM db.reviewCommentThread

def insertReviewCommentThreadRow (db : LaborerDatabase) (row : ReviewCommentThreadRow) :
    Except DatabaseError LaborerDatabase :=
  if ¬ (1 ≤ row.startLine ∧ row.startLine ≤ row.endLine) then
    throw (.sql "CHECK constraint failed: review_comment_threads_line_range_check")
  else
    match db.reviewCommentThreads.insert row with
    | none => throw (.sql "UNIQUE constraint failed: review_comment_threads.id")
    | some reviewCommentThreads => pure { db with reviewCommentThreads }

def insertReviewCommentReply (db : LaborerDatabase) (row : ReviewCommentReply) :
    Except DatabaseError LaborerDatabase :=
  match db.reviewCommentReplies.insert row with
  | none => throw (.sql "UNIQUE constraint failed: review_comment_replies.id")
  | some reviewCommentReplies =>
    if (db.reviewCommentThreads.find row.threadId).isNone then
      throw (.sql "FOREIGN KEY constraint failed")
    else pure { db with reviewCommentReplies }

/-- `DELETE FROM review_comment_threads`, with `ON DELETE CASCADE`. -/
def deleteReviewCommentThreadRow (db : LaborerDatabase) (id : String)
    (p : ReviewCommentThreadRow → Bool) : ℕ × LaborerDatabase :=
  let (changes, reviewCommentThreads) := db.reviewCommentThreads.deleteWhere id p
  if changes = 0 then (0, db)
  else
    (changes, { db with
      reviewCommentThreads
      reviewCommentReplies := db.reviewCommentReplies.filter (·.threadId ≠ id) })

def publishReviewCommentThread (db : LaborerDatabase) (threadId : String) (changedAt : ℤ)
    (operationId : Option String) : ℕ × LaborerDatabase :=
  db.appendStateChange .reviewCommentThreads threadId changedAt operationId

/-- `#touchReviewCommentThread`: the revision stays. -/
def touchReviewCommentThread (db : LaborerDatabase) (id : String) (changedAt : ℤ) :
    LaborerDatabase :=
  { db with
    reviewCommentThreads := db.reviewCommentThreads.modify id
      (fun row => { row with updatedAt := changedAt }) fun _ => rfl }

end LaborerDatabase

/-! ## Review comment drafts -/

def reviewCommentBody (body : String) : Except DatabaseError String :=
  let trimmed := jsTrim body
  if jsLength trimmed = 0 then
    throw (.reviewCommentInvalid "A review comment body must not be blank")
  else if reviewCommentBodyMaxLength < jsLength trimmed then
    throw (.reviewCommentInvalid
      s!"A review comment body must be {reviewCommentBodyMaxLength} characters or fewer")
  else pure trimmed

def reviewCommentFilePath (filePath : String) : Except DatabaseError String :=
  let trimmed := jsTrim filePath
  if jsLength trimmed = 0 then
    throw (.reviewCommentInvalid "A review comment file path must not be blank")
  else if reviewCommentFilePathMaxLength < jsLength trimmed then
    throw (.reviewCommentInvalid
      s!"A review comment file path must be {reviewCommentFilePathMaxLength} characters or fewer")
  else pure trimmed

def reviewCommentAnchor (startLine endLine : ℤ) : Except DatabaseError (ℤ × ℤ) :=
  if ¬ (1 ≤ startLine ∧ startLine ≤ endLine) then
    throw (.reviewCommentInvalid
      ("A review comment anchor must be a line range starting at 1 or later: " ++
        s!"{startLine}-{endLine}"))
  else pure (endLine, startLine)

def validateNewReviewCommentThread (input : NewReviewCommentThread) :
    Except DatabaseError NewReviewCommentThread := do
  let (endLine, startLine) ← reviewCommentAnchor input.startLine input.endLine
  let body ← reviewCommentBody input.body
  let filePath ← reviewCommentFilePath input.filePath
  pure { input with endLine, startLine, body, filePath }

/-- The `SET` list of `updateProject`. -/
def ProjectPatch.apply (patch : ProjectPatch) (changedAt : ℤ) (row : Project) : Project where
  branchName := patch.branchName.getD row.branchName
  canonicalGitCommonDir := patch.canonicalGitCommonDir.getD row.canonicalGitCommonDir
  color := patch.color.getD row.color
  createdAt := row.createdAt
  iconDataUrl := patch.iconDataUrl.getD row.iconDataUrl
  id := row.id
  name := patch.name.getD row.name
  repoId := patch.repoId.getD row.repoId
  revision := row.revision + 1
  rootPath := patch.rootPath.getD row.rootPath
  sortOrder := patch.sortOrder.getD row.sortOrder
  updatedAt := changedAt

namespace NativeLaborerDatabase

open LaborerDatabase

/-! ## Projects -/

def insertProject (input : NewProject) (operationId : Option String) (changedAt : ℤ) :
    LaborerDatabase → Except DatabaseError (MutationResult Project) × LaborerDatabase :=
  writeTransaction fun db => do
    let createdAt := input.createdAt.getD changedAt
    match operationId.bind db.findProjectByOperationId with
    | some replay => pure ({ cursor := db.stateCursor, row := replay }, db)
    | none => do
      let db ← db.insertProjectRow
        { branchName := input.branchName, canonicalGitCommonDir := input.canonicalGitCommonDir,
          color := input.color, createdAt, iconDataUrl := input.iconDataUrl, id := input.id,
          name := input.name, repoId := input.repoId, revision := 1, rootPath := input.rootPath,
          sortOrder := none, updatedAt := changedAt }
      let (cursor, db) := db.appendStateChange .projects input.id changedAt operationId
      let row ← db.requireProject input.id
      pure ({ row, cursor }, db)

def updateProject (id : String) (expectedRevision : ℤ) (patch : ProjectPatch)
    (operationId : Option String) (changedAt : ℤ) :
    LaborerDatabase → Except DatabaseError (MutationResult Project) × LaborerDatabase :=
  writeTransaction fun db =>
    if patch = {} then throw (.error "A project update requires at least one field")
    else do
      let (changes, db) ← db.updateProjectRow id expectedRevision (patch.apply changedAt)
        fun _ => rfl
      if changes = 0 then db.staleProject id expectedRevision
      else do
        let (cursor, db) := db.appendStateChange .projects id changedAt operationId
        let row ← db.requireProject id
        pure ({ row, cursor }, db)

def moveProject (id : String) (expectedRevision : ℤ) (sortOrder : Option ℚ)
    (operationId : Option String) (changedAt : ℤ) :
    LaborerDatabase → Except DatabaseError (MutationResult Project) × LaborerDatabase :=
  updateProject id expectedRevision { sortOrder := some sortOrder } operationId changedAt

/-- The first loop of `reorderProjects`. -/
def checkReorder (db : LaborerDatabase) :
    List ProjectReorderAssignment → Except DatabaseError Unit
  | [] => pure ()
  | assignment :: rest =>
    match db.findProject assignment.projectId with
    | none => db.staleProject assignment.projectId assignment.expectedRevision
    | some current =>
      if current.revision ≠ assignment.expectedRevision then
        db.staleProject assignment.projectId assignment.expectedRevision
      else checkReorder db rest

/-- The second loop of `reorderProjects`. -/
def applyReorder (operationId : String) (changedAt : ℤ) :
    List ProjectReorderAssignment → ℕ → LaborerDatabase →
      Except DatabaseError (ℕ × LaborerDatabase)
  | [], cursor, db => pure (cursor, db)
  | assignment :: rest, _, db => do
    let (changes, projects) := db.projects.updateWhere assignment.projectId
      (·.revision = assignment.expectedRevision)
      (fun row => { row with
        sortOrder := assignment.sortOrder, updatedAt := changedAt, revision := row.revision + 1 })
      fun _ => rfl
    let db := { db with projects }
    if changes ≠ 1 then db.staleProject assignment.projectId assignment.expectedRevision
    else
      let (cursor, db) := db.appendStateChange .projects assignment.projectId changedAt
        (some operationId)
      applyReorder operationId changedAt rest cursor db

structure ProjectReorderResult where
  cursor : ℕ
  rows : List Project

def reorderProjects (assignments : List ProjectReorderAssignment) (operationId : String)
    (changedAt : ℤ) :
    LaborerDatabase → Except DatabaseError ProjectReorderResult × LaborerDatabase :=
  writeTransaction fun db =>
    if assignments = [] then
      throw (.error "A project reorder requires at least one assignment")
    else if (distinct (assignments.map (·.projectId))).length ≠ assignments.length then
      throw (.error "A project reorder cannot assign one project twice")
    else do
      checkReorder db assignments
      let (cursor, db) ← applyReorder operationId changedAt assignments db.stateCursor db
      let rows ← assignments.mapM fun assignment => db.requireProject assignment.projectId
      pure ({ cursor, rows }, db)

def deleteProject (id : String) (expectedRevision : ℤ) (operationId : Option String)
    (changedAt : ℤ) :
    LaborerDatabase → Except DatabaseError (MutationResult Project) × LaborerDatabase :=
  writeTransaction fun db =>
    let row := db.findProject id
    let (changes, projects) := db.projects.deleteWhere id (·.revision = expectedRevision)
    let db := { db with projects }
    match changes, row with
    | 0, _ | _, none => db.staleProject id expectedRevision
    | _, some row =>
      let (cursor, db) := db.appendStateChange .projects id changedAt operationId
      pure ({ row, cursor }, db)

/-! ## Settings -/

def insertSetting (key value : String) (operationId : Option String) (changedAt : ℤ) :
    LaborerDatabase → Except DatabaseError (MutationResult AppSetting) × LaborerDatabase :=
  writeTransaction fun db =>
    match db.settings.insert
      { createdAt := changedAt, key, revision := 1, updatedAt := changedAt, value } with
    | none => throw (.sql "UNIQUE constraint failed: app_settings.key")
    | some settings => do
      let (cursor, db) := { db with settings }.appendStateChange .appSettings key changedAt
        operationId
      let row ← db.requireSetting key
      pure ({ row, cursor }, db)

def updateSetting (key : String) (expectedRevision : ℤ) (value : String)
    (operationId : Option String) (changedAt : ℤ) :
    LaborerDatabase → Except DatabaseError (MutationResult AppSetting) × LaborerDatabase :=
  writeTransaction fun db =>
    let (changes, settings) := db.settings.updateWhere key (·.revision = expectedRevision)
      (fun row => { row with value, updatedAt := changedAt, revision := row.revision + 1 })
      fun _ => rfl
    let db := { db with settings }
    if changes = 0 then db.staleSetting key expectedRevision
    else do
      let (cursor, db) := db.appendStateChange .appSettings key changedAt operationId
      let row ← db.requireSetting key
      pure ({ row, cursor }, db)

/-- Revision zero is that of an absent row. -/
def setSetting (key : String) (expectedRevision : ℤ) (value : String)
    (operationId : Option String) (changedAt : ℤ) (db : LaborerDatabase) :
    Except DatabaseError (MutationResult AppSetting) × LaborerDatabase :=
  if expectedRevision ≠ 0 then
    updateSetting key expectedRevision value operationId changedAt db
  else
    match insertSetting key value operationId changedAt db with
    | (.error cause, db) =>
      match db.findSetting key with
      | some current =>
        (.error (.staleRevision .appSettings key (some expectedRevision) (some (.setting current))),
          db)
      | none => (.error cause, db)
    | result => result

def deleteSetting (key : String) (expectedRevision : ℤ) (operationId : Option String)
    (changedAt : ℤ) :
    LaborerDatabase → Except DatabaseError (MutationResult AppSetting) × LaborerDatabase :=
  writeTransaction fun db =>
    let row := db.findSetting key
    let (changes, settings) := db.settings.deleteWhere key (·.revision = expectedRevision)
    let db := { db with settings }
    match changes, row with
    | 0, _ | _, none => db.staleSetting key expectedRevision
    | _, some row =>
      let (cursor, db) := db.appendStateChange .appSettings key changedAt operationId
      pure ({ row, cursor }, db)

/-! ## Review comments -/

/-- `createReviewCommentThread`, over the ids that are minted when none are given. -/
def createReviewCommentThread (taskUlid replyUlid : String) (input : NewReviewCommentThread)
    (author : ReviewCommentAuthor) (operationId : Option String) (changedAt : ℤ) :
    LaborerDatabase → Except DatabaseError (MutationResult ReviewCommentThread) × LaborerDatabase :=
  writeTransaction fun db => do
    let draft ← validateNewReviewCommentThread input
    let id := draft.id.getD taskUlid
    let replyId := draft.replyId.getD replyUlid
    let createdAt := draft.createdAt.getD changedAt
    match ← db.findReviewCommentThread id with
    | some existing => pure ({ cursor := db.stateCursor, row := existing }, db)
    | none => do
      let db ← db.insertReviewCommentThreadRow
        { createdAt, endLine := draft.endLine, filePath := draft.filePath, id, revision := 1,
          side := draft.side, startLine := draft.startLine, status := .open,
          updatedAt := createdAt, workspaceId := draft.workspaceId }
      let db ← db.insertReviewCommentReply
        { author, body := draft.body, createdAt, id := replyId, threadId := id }
      let (cursor, db) := db.publishReviewCommentThread id createdAt operationId
      let row ← db.requireReviewCommentThread id
      pure ({ cursor, row }, db)

/-- `appendReviewCommentReply`, over the id that is minted when none is given. -/
def appendReviewCommentReply (taskUlid : String) (input : NewReviewCommentReply)
    (author : ReviewCommentAuthor) (operationId : Option String) (changedAt : ℤ) :
    LaborerDatabase → Except DatabaseError (MutationResult ReviewCommentThread) × LaborerDatabase :=
  writeTransaction fun db => do
    let body ← reviewCommentBody input.body
    let id := input.id.getD taskUlid
    match ← db.findReviewCommentThread input.threadId with
    | none =>
      throw (.reviewCommentNotFound input.threadId
        s!"Review comment thread not found: {input.threadId}")
    | some thread =>
      if thread.replies.any (·.id = id) then
        pure ({ cursor := db.stateCursor, row := thread }, db)
      else if maxReviewCommentReplies ≤ thread.replies.length then
        throw (.reviewCommentInvalid
          s!"A review comment thread holds at most {maxReviewCommentReplies} replies")
      else do
        -- an answer of the same millisecond is dated after what it answers
        let previous := (thread.replies.getLast?.map (·.createdAt)).getD thread.createdAt
        let createdAt := input.createdAt.getD (max changedAt (previous + 1))
        let db ← db.insertReviewCommentReply
          { author, body, createdAt, id, threadId := input.threadId }
        let (cursor, db) := db.publishReviewCommentThread input.threadId createdAt operationId
        let row ← db.requireReviewCommentThread input.threadId
        pure ({ cursor, row }, db)

def updateReviewCommentReply (replyId body : String) (author : ReviewCommentAuthor)
    (operationId : Option String) (changedAt : ℤ) :
    LaborerDatabase → Except DatabaseError (MutationResult ReviewCommentThread) × LaborerDatabase :=
  writeTransaction fun db => do
    let nextBody ← reviewCommentBody body
    match db.reviewCommentReplies.find replyId with
    | none =>
      throw (.reviewCommentNotFound replyId s!"Review comment reply not found: {replyId}")
    | some reply =>
      if reply.author ≠ author then
        throw (.reviewCommentAuthorMismatch reply.author replyId
          s!"Review comment reply {replyId} was written by {reply.author.name}")
      else do
        let db := { db with
          reviewCommentReplies := db.reviewCommentReplies.modify replyId
            (fun row => { row with body := nextBody }) fun _ => rfl }
        let db := db.touchReviewCommentThread reply.threadId changedAt
        let (cursor, db) := db.publishReviewCommentThread reply.threadId changedAt operationId
        let row ← db.requireReviewCommentThread reply.threadId
        pure ({ cursor, row }, db)

def setReviewCommentThreadStatus (id : String) (expectedRevision : ℤ)
    (status : ReviewCommentStatus) (operationId : Option String) (changedAt : ℤ) :
    LaborerDatabase → Except DatabaseError (MutationResult ReviewCommentThread) × LaborerDatabase :=
  writeTransaction fun db =>
    let (changes, reviewCommentThreads) := db.reviewCommentThreads.updateWhere id
      (·.revision = expectedRevision)
      (fun row => { row with status, updatedAt := changedAt, revision := row.revision + 1 })
      fun _ => rfl
    let db := { db with reviewCommentThreads }
    if changes = 0 then db.staleReviewCommentThread id expectedRevision
    else do
      let (cursor, db) := db.publishReviewCommentThread id changedAt operationId
      let row ← db.requireReviewCommentThread id
      pure ({ cursor, row }, db)

def deleteReviewCommentThread (id : String) (expectedRevision : ℤ) (operationId : Option String)
    (changedAt : ℤ) :
    LaborerDatabase → Except DatabaseError (MutationResult ReviewCommentThread) × LaborerDatabase :=
  writeTransaction fun db => do
    let row ← db.findReviewCommentThread id
    let (changes, db) := db.deleteReviewCommentThreadRow id (·.revision = expectedRevision)
    match changes, row with
    | 0, _ | _, none => db.staleReviewCommentThread id expectedRevision
    | _, some row =>
      let (cursor, db) := db.publishReviewCommentThread id changedAt operationId
      pure ({ cursor, row }, db)

def deleteReviewCommentThreadsForWorkspace (workspaceId : String) (operationId : Option String)
    (changedAt : ℤ) :
    LaborerDatabase → Except DatabaseError (List ReviewCommentThread) × LaborerDatabase :=
  writeTransaction fun db => do
    let rows ← db.listReviewCommentThreads workspaceId
    let db := rows.foldl (fun db row =>
      let (_, db) := db.deleteReviewCommentThreadRow row.id fun _ => true
      (db.publishReviewCommentThread row.id changedAt operationId).2) db
    pure (rows, db)

end NativeLaborerDatabase

end Laborer.Database
