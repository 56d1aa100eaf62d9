import Laborer.Database.TaskCommits
import Laborer.Worktrees.WorkspaceRecords

/-!
# Pull request facts

What a poll of a pull request stores with the task of its workspace. Without check runs a
poll that sees what is stored writes nothing, and one that sees something new writes once.
-/

namespace Laborer.Worktrees

open Laborer.Library Laborer.Database LaborerDatabase Option

/-! ## Observations -/

structure PrData where
  approvals : Option ℕ := none
  authorLogin : Option String := none
  baseBranch : Option String := none
  checkStatus : Option PullRequestCheckStatus := none
  checks : Option (List PullRequestCheckRun) := none
  isDraft : Bool := false
  mergeStatus : Option PullRequestMergeStatus := none
  number : Option ℤ := none
  reviewDecision : Option PullRequestReviewDecision := none
  state : Option String := none
  title : Option String := none
  unresolvedThreads : Option ℕ := none
  url : Option String := none

variable (toUpperCase : String → String)

def normalizedState (state : Option String) : Option PullRequestState :=
  match state.map toUpperCase with
  | some "OPEN" => some .open
  | some "CLOSED" => some .closed
  | some "MERGED" => some .merged
  | _ => none

/-- The facts that `checkPr` hands to `updateServerTaskFacts`. -/
def PrData.facts (data : PrData) : LaborerTaskPatch where
  prAuthorLogin := some data.authorLogin
  prBaseBranch := some data.baseBranch
  prCheckStatus := some data.checkStatus
  prChecks := some data.checks
  prIsDraft := some data.isDraft
  prMergeStatus := some data.mergeStatus
  prNumber := some data.number
  prApprovals := some (data.approvals.map Int.ofNat)
  prReviewDecision := some data.reviewDecision
  prState := some (normalizedState toUpperCase data.state)
  prTitle := some data.title
  prUnresolvedThreads := some (data.unresolvedThreads.map Int.ofNat)
  prUrl := some data.url

/-- The end of `checkPr`, for a workspace whose task is found. -/
def persistPrFacts (data : PrData) (taskId : String) (changedAt : ℤ) (db : LaborerDatabase) :
    Except DatabaseError (Option LaborerTask × LaborerDatabase) :=
  updateServerTaskFacts db taskId (data.facts toUpperCase) none changedAt

def polls (data : PrData) (taskId : String) (times : List ℤ) (db : LaborerDatabase) :
    Except DatabaseError LaborerDatabase :=
  times.foldlM (fun db changedAt =>
    Prod.snd <$> persistPrFacts toUpperCase data taskId changedAt db)
    db

/-! ## What is stored -/

def storedFacts (row : LaborerTask) : LaborerTaskPatch where
  prAuthorLogin := some row.prAuthorLogin
  prBaseBranch := some row.prBaseBranch
  prCheckStatus := some row.prCheckStatus
  prChecks := some row.prChecks
  prIsDraft := some row.prIsDraft
  prMergeStatus := some row.prMergeStatus
  prNumber := some row.prNumber
  prApprovals := some row.prApprovals
  prReviewDecision := some row.prReviewDecision
  prState := some row.prState
  prTitle := some row.prTitle
  prUnresolvedThreads := some row.prUnresolvedThreads
  prUrl := some row.prUrl

/-- A poll that sees what is stored writes nothing, and one that sees something else adds
one revision and one entry, after which the same polls write nothing. -/
structure PollsSettle (db : LaborerDatabase) (row : LaborerTask) (data : PrData) : Prop where
  same : data.facts toUpperCase = storedFacts row →
    ∀ times, polls toUpperCase data row.id times db = .ok db
  differs : data.facts toUpperCase ≠ storedFacts row → ∀ changedAt, ∃ row' db',
    persistPrFacts toUpperCase data row.id changedAt db = .ok (some row', db') ∧
      db'.findTask row.id = .ok (some row') ∧ row'.revision = row.revision + 1 ∧
      db'.taskChanges = db.taskChanges.append { changedAt, operationId := none, taskId := row.id } ∧
      ∀ times, polls toUpperCase data row.id times db' = .ok db'

variable {toUpperCase : String → String} {db : LaborerDatabase} {row : LaborerTask} {data : PrData}
  {changedAt : ℤ} {patch : LaborerTaskPatch}

/-- Two lists of check runs are never the same object, so check runs always count as a
change. -/
theorem patchChangesTask_of_checks (h : data.checks ≠ none) :
    patchChangesTask row (data.facts toUpperCase) = true := by
  obtain ⟨runs, hruns⟩ := ne_none_iff_exists'.mp h
  simp [patchChangesTask, PrData.facts, hruns]

theorem patchChangesTask_facts (h : data.checks = none) :
    patchChangesTask row (data.facts toUpperCase) = false ↔
      data.facts toUpperCase = storedFacts row := by
  simp only [patchChangesTask, PrData.facts, storedFacts, h, any_some, any_none,
    isSome_none, Bool.false_or, Bool.or_false, Bool.or_eq_false_iff, decide_eq_false_iff_not,
    ne_eq, not_not, LaborerTaskPatch.mk.injEq, Option.some.injEq, true_and, and_true]
  have hchecks : row.prChecks.isSome = false ↔ none = row.prChecks := by
    cases row.prChecks <;> simp
  simp only [hchecks, and_assoc]

/-! ## Writing -/

theorem updateTask_of_allowed (hfind : db.tasks.find row.id = some row) (hpatch : patch ≠ {})
    (hallowed : TaskRowAllowed db.tasks (patch.apply changedAt row))
    (hcounts : ∀ approvals ∈ (patch.apply changedAt row).prApprovals, 0 ≤ approvals) :
    NativeLaborerDatabase.updateTask row.id row.revision patch none changedAt db =
      (.ok { row := patch.apply changedAt row, cursor := db.taskChanges.last + 1 },
        { db with
          tasks := db.tasks.modify row.id (patch.apply changedAt) fun _ => rfl
          taskChanges := db.taskChanges.append
            { changedAt, operationId := none, taskId := row.id } }) := by
  unfold NativeLaborerDatabase.updateTask NativeLaborerDatabase.writeTransaction
  rw [transaction_eq_ok]
  refine (if_neg hpatch).trans ?_
  have hupdate : db.updateTaskRow row.id (some row.revision) (patch.apply changedAt)
      (fun _ => rfl) = .ok (1, { db with
        tasks := db.tasks.modify row.id (patch.apply changedAt) fun _ => rfl }) := by
    unfold LaborerDatabase.updateTaskRow
    rw [hfind]
    dsimp only
    rw [if_neg (by simp), checkTaskRow_eq_ok.mpr hallowed]
    rfl
  refine (except_bind_of_ok hupdate).trans ?_
  refine (if_neg one_ne_zero).trans ?_
  refine except_bind_of_ok ?_
  apply requireTask_succeeds
  · exact Table.find_modify_self (patch.apply changedAt) (fun _ => rfl) hfind
  · exact hcounts

section

variable (hread : db.findTask row.id = .ok (some row))
include hread

theorem updateServerTaskFacts_unchanged (h : patchChangesTask row patch = false)
    (changedAt : ℤ) :
    updateServerTaskFacts db row.id patch none changedAt = .ok (some row, db) := by
  refine (except_bind_of_ok hread).trans ?_
  dsimp only
  rw [h]
  rfl

theorem updateServerTaskFacts_changed (h : patchChangesTask row patch = true)
    (hpatch : patch ≠ {}) (hallowed : TaskRowAllowed db.tasks (patch.apply changedAt row))
    (hcounts : ∀ approvals ∈ (patch.apply changedAt row).prApprovals, 0 ≤ approvals) :
    ∃ db', updateServerTaskFacts db row.id patch none changedAt =
        .ok (some (patch.apply changedAt row), db') ∧
      db'.findTask row.id = .ok (some (patch.apply changedAt row)) ∧ db'.taskChanges =
        db.taskChanges.append { changedAt, operationId := none, taskId := row.id } := by
  have hfind := findTask_eq_ok hread
  have hupdate := updateTask_of_allowed hfind hpatch hallowed hcounts
  refine ⟨_, ?_, (NativeLaborerDatabase.updateTask_commits hupdate).2.2, rfl⟩
  refine (except_bind_of_ok hread).trans ?_
  dsimp only
  rw [h, if_pos rfl, hupdate]
  rfl

/-- A success that wrote nothing found nothing to write. -/
theorem patchChangesTask_of_unchanged {found : Option LaborerTask}
    (h : updateServerTaskFacts db row.id patch none changedAt = .ok (found, db)) :
    patchChangesTask row patch = false := by
  rw [← Bool.not_eq_true]
  intro hchanges
  unfold updateServerTaskFacts at h
  rw [except_bind_of_ok hread] at h
  dsimp only at h
  rw [hchanges, if_pos rfl] at h
  split at h
  · next result db' hupdate =>
    cases h
    -- A commit has its entry in the ledger.
    have hledger := (NativeLaborerDatabase.updateTask_commits hupdate).1.taskChanges
    have hlast := congrArg Ledger.last hledger
    simp at hlast
  · cases h

theorem polls_unchanged
    (h : patchChangesTask row (data.facts toUpperCase) = false) (times : List ℤ) :
    polls toUpperCase data row.id times db = .ok db := by
  induction times with
  | nil => rfl
  | cons changedAt times ih =>
    have hone : (Prod.snd <$> persistPrFacts toUpperCase data row.id changedAt db) = .ok db := by
      unfold persistPrFacts
      rw [updateServerTaskFacts_unchanged hread h]
      rfl
    exact (except_bind_of_ok hone).trans ih

theorem patchChangesTask_of_polls (h : polls toUpperCase data row.id [changedAt] db = .ok db) :
    patchChangesTask row (data.facts toUpperCase) = false := by
  obtain ⟨db', hone, hrest⟩ := bind_eq_ok.mp h
  cases hrest
  dsimp only at hone
  cases hpersist : persistPrFacts toUpperCase data row.id changedAt db with
  | error e =>
    rw [hpersist] at hone
    cases hone
  | ok result =>
    rw [hpersist] at hone
    obtain ⟨found, db'⟩ := result
    cases hone
    exact patchChangesTask_of_unchanged hread hpersist

end

theorem facts_ne_empty : data.facts toUpperCase ≠ {} := by
  intro h
  cases congrArg LaborerTaskPatch.prUrl h

/-- **Polls settle exactly where there are no check runs.** -/
theorem pollsSettle_iff (toUpperCase : String → String) (db : LaborerDatabase)
    (row : LaborerTask) (hread : db.findTask row.id = .ok (some row))
    (hallowed : TaskRowAllowed db.tasks row) (data : PrData) :
    PollsSettle toUpperCase db row data ↔ data.checks = none := by
  constructor
  · intro h
    by_contra hchecks
    have hchanges : ∀ row, patchChangesTask row (data.facts toUpperCase) ≠ false := by
      intro row
      rw [patchChangesTask_of_checks hchecks]
      exact Bool.noConfusion
    by_cases hsame : data.facts toUpperCase = storedFacts row
    · exact hchanges row (patchChangesTask_of_polls hread (h.same hsame [0]))
    · -- The second poll finds the facts of the first, and writes them again.
      obtain ⟨row', db', -, hread', -, -, hquiet⟩ := h.differs hsame 0
      have hid : row'.id = row.id := Table.key_of_find (findTask_eq_ok hread')
      rw [← hid] at hread' hquiet
      exact hchanges row' (patchChangesTask_of_polls hread' (hquiet [0]))
  · intro hchecks
    have hallowed' : ∀ changedAt, TaskRowAllowed db.tasks
        ((data.facts toUpperCase).apply changedAt row) := fun changedAt =>
      ⟨hallowed.executionIdFree, hallowed.taskNumberFree, hallowed.parentExists⟩
    have hcounts : ∀ changedAt, ∀ approvals ∈
        ((data.facts toUpperCase).apply changedAt row).prApprovals, 0 ≤ approvals := by
      intro changedAt approvals happrovals
      obtain ⟨n, -, rfl⟩ := map_eq_some_iff.mp happrovals
      exact Int.natCast_nonneg n
    constructor
    case same =>
      intro hsame times
      exact polls_unchanged hread ((patchChangesTask_facts hchecks).mpr hsame) times
    case differs =>
      intro hdiffers changedAt
      have hchanges : patchChangesTask row (data.facts toUpperCase) = true := by
        rw [← Bool.not_eq_false, patchChangesTask_facts hchecks]
        exact hdiffers
      obtain ⟨db', hchanged, hread', hledger⟩ := updateServerTaskFacts_changed hread hchanges
        facts_ne_empty (hallowed' changedAt) (hcounts changedAt)
      refine ⟨_, db', hchanged, hread', rfl, hledger, ?_⟩
      intro times
      have hstored : data.facts toUpperCase =
          storedFacts ((data.facts toUpperCase).apply changedAt row) := by
        unfold LaborerTaskPatch.apply PrData.facts storedFacts
        rw [hchecks]
        rfl
      have hreadRow : db'.findTask ((data.facts toUpperCase).apply changedAt row).id =
          .ok (some ((data.facts toUpperCase).apply changedAt row)) := hread'
      have hquiet := polls_unchanged hreadRow ((patchChangesTask_facts hchecks).mpr hstored) times
      exact hquiet

def watchedRow (checks : Option (List PullRequestCheckRun)) : LaborerTask :=
  { NativeLaborerDatabase.adoptedTaskRow
      { branchName := none, id := "task", rootPath := "/root", title := "Title",
        worktreePath := "/worktree", worktreePathAliases := [] } 0 with
    prChecks := checks
    prNumber := some 7 }

def passedBuild : PullRequestCheckRun where
  bucket := .success
  durationMs := some 1000
  group := none
  name := "build"
  url := none

def watchedTask (checks : Option (List PullRequestCheckRun)) : LaborerDatabase :=
  { LaborerDatabase.migrated 0 with
    tasks := { rows := [watchedRow checks], keysNodup := List.nodup_singleton _ } }

/-- A poll without check runs sees a new title once. -/
theorem pollsSettle_retitled : PollsSettle id (watchedTask none) (watchedRow none)
      { number := some 7, title := some "Renamed" } :=
  (pollsSettle_iff id (watchedTask none) (watchedRow none) rfl
    ⟨by decide, by decide, by decide⟩ { number := some 7, title := some "Renamed" }).mpr rfl

/-- A poll that sees the stored check run writes it again. -/
theorem not_pollsSettle_checked :
    ¬ PollsSettle id (watchedTask (some [passedBuild])) (watchedRow (some [passedBuild]))
        { checks := some [passedBuild], number := some 7 } := by
  intro h
  have hquiet := h.same rfl [1]
  -- The second entry of the ledger is that of the poll.
  have hledger := congrArg (fun result => result.map (·.taskChanges.last)) hquiet
  revert hledger
  decide

end Laborer.Worktrees
