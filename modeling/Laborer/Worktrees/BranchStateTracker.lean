import Mathlib.Data.List.Basic

/-!
# The branch state tracker

The stored branches of a project and the refreshes that bring them up to what git reports.
A refresh lists the workspaces, and then waits for git for the main checkout and for each
of them; git looks at HEAD some time before its answer is taken. Meanwhile HEAD moves, other
refreshes go on and others write the tasks, of which those with a worktree are kept, and the
project.
-/

namespace Laborer.Worktrees

/-! ## HEAD -/

/-- What git finds in a directory: no directory, nothing that it can name, or what it
prints for HEAD and for its commit. -/
inductive WorktreeHead where
  | missing
  | unreadable
  | checkedOut (abbrevRef sha : String)
deriving DecidableEq

namespace WorktreeHead

/-- `git rev-parse --abbrev-ref HEAD`, or nothing if it fails. -/
def abbrevRef : WorktreeHead → Option String
  | .checkedOut abbrevRef _ => some abbrevRef
  | .missing => none
  | .unreadable => none

/-- `git rev-parse HEAD`, or nothing if it fails. -/
def sha : WorktreeHead → Option String
  | .checkedOut _ sha => some sha
  | .missing => none
  | .unreadable => none

end WorktreeHead

def detachedBranch (sha : Option String) : Option String :=
  (sha.filter (· ≠ "")).map fun sha => "detached/" ++ String.ofList (sha.toList.take 8)

/-- The branch that git reports of a HEAD that does not move. -/
def reportedBranch (head : WorktreeHead) : Option String :=
  if head.abbrevRef = some "HEAD" then detachedBranch head.sha else head.abbrevRef

/-! ## The state -/

structure WorkspaceRow where
  id : String
  worktreePath : String
  branchName : Option String
  title : String
  revision : ℕ
deriving DecidableEq

/-- The branch name of the workspace record, which is the title of the task where it has
none. -/
def WorkspaceRow.recordBranch (row : WorkspaceRow) : String :=
  row.branchName.getD row.title

structure ProjectRow where
  rootPath : String
  branchName : Option String
  revision : ℕ

structure ListedWorkspace where
  id : String
  worktreePath : String
  branchName : String
deriving DecidableEq

def WorkspaceRow.listed (row : WorkspaceRow) : ListedWorkspace where
  id := row.id
  worktreePath := row.worktreePath
  branchName := row.recordBranch

/-- What a refresh waits for git about: the project as it was read, or a workspace. -/
inductive RefreshTarget where
  | root (project : ProjectRow)
  | workspace (workspace : ListedWorkspace)

def RefreshTarget.path : RefreshTarget → String
  | .root project => project.rootPath
  | .workspace listed => listed.worktreePath

/-- `getCurrentBranch`: each of its commands has looked at HEAD or not. -/
inductive BranchRead where
  | asking
  | answered (abbrevRef : Option String)
  | askingSha
  | answeredSha (sha : Option String)
deriving DecidableEq

structure BranchRefresh where
  target : RefreshTarget
  read : BranchRead
  rest : List ListedWorkspace

structure BranchStateTracker where
  project : ProjectRow
  workspaces : List WorkspaceRow
  heads : String → WorktreeHead
  refreshes : ℕ → Option BranchRefresh
  nextRefresh : ℕ
  /-- HEAD has moved, and the refresh that the event triggers has not begun. -/
  owed : Bool

inductive BranchEvent where
  | headMoved (path : String) (head : WorktreeHead)
  | refreshBranches
  /-- Git looks at HEAD for a refresh, or fails. -/
  | gitLooks (refresh : ℕ) (failed : Bool)
  /-- The refresh takes the answer; a write of its own fails, as when another process has
  written the task since it was found. -/
  | gitAnswers (refresh : ℕ) (writeFails : Bool)
  /-- Others leave these workspaces: they bind, insert, write and delete tasks. -/
  | tasksWritten (workspaces : List WorkspaceRow)
  | projectWritten (rootPath : String) (branchName : Option String)

namespace BranchStateTracker

/-! ## Refreshes -/

/-- `getCurrentBranch` up to its first wait. -/
def startRead (head : WorktreeHead) : BranchRead :=
  if head = .missing then .answered none else .asking

/-- `refreshBranches` up to its first wait. -/
def refreshBranches (s : BranchStateTracker) : BranchStateTracker :=
  { s with
    refreshes := Function.update s.refreshes s.nextRefresh (some
      { target := .root s.project
        read := startRead (s.heads s.project.rootPath)
        rest := s.workspaces.map WorkspaceRow.listed })
    nextRefresh := s.nextRefresh + 1
    owed := false }

def next (n : ℕ) (rest : List ListedWorkspace) (s : BranchStateTracker) : BranchStateTracker :=
  { s with
    refreshes := Function.update s.refreshes n (match rest with
      | [] => none
      | workspace :: rest => some
          { target := .workspace workspace
            read := startRead (s.heads workspace.worktreePath)
            rest }) }

def setRead (n : ℕ) (refresh : BranchRefresh) (read : BranchRead) (s : BranchStateTracker) :
    BranchStateTracker :=
  { s with refreshes := Function.update s.refreshes n (some { refresh with read }) }

/-- The update of the row that the task has at that time. -/
def writeBranch (id branch : String) (s : BranchStateTracker) : BranchStateTracker :=
  { s with
    workspaces := s.workspaces.map fun row =>
      if row.id = id then { row with branchName := some branch, revision := row.revision + 1 }
      else row }

/-- `BRANCH_REFRESH_FAILED`: the workspaces that are left are not refreshed. -/
def branchRefreshFailed (n : ℕ) (s : BranchStateTracker) : BranchStateTracker :=
  { s with refreshes := Function.update s.refreshes n none }

/-- What a refresh does with the branch that git has reported. -/
def currentBranch (n : ℕ) (refresh : BranchRefresh) (writeFails : Bool)
    (branch : Option String) (s : BranchStateTracker) : BranchStateTracker :=
  match branch, refresh.target with
  | none, _ => next n refresh.rest s
  | some branch, .root project =>
    if some branch = project.branchName then next n refresh.rest s
    else if writeFails = false ∧ s.project.revision = project.revision then
      next n refresh.rest
        { s with
          project :=
            { s.project with branchName := some branch, revision := s.project.revision + 1 } }
    else branchRefreshFailed n s
  | some branch, .workspace workspace =>
    if branch = workspace.branchName then next n refresh.rest s
    else if writeFails then branchRefreshFailed n s
    else next n refresh.rest (writeBranch workspace.id branch s)

def gitLooks (n : ℕ) (failed : Bool) (s : BranchStateTracker) : BranchStateTracker :=
  match s.refreshes n with
  | none => s
  | some refresh =>
    let head := s.heads refresh.target.path
    match refresh.read with
    | .asking =>
      setRead n refresh (.answered (if failed then none else head.abbrevRef)) s
    | .askingSha => setRead n refresh (.answeredSha (if failed then none else head.sha)) s
    | .answered _ => s
    | .answeredSha _ => s

def gitAnswers (n : ℕ) (writeFails : Bool) (s : BranchStateTracker) : BranchStateTracker :=
  match s.refreshes n with
  | none => s
  | some refresh =>
    match refresh.read with
    | .answered abbrevRef =>
      if abbrevRef = some "HEAD" then setRead n refresh .askingSha s
      else currentBranch n refresh writeFails abbrevRef s
    | .answeredSha sha => currentBranch n refresh writeFails (detachedBranch sha) s
    | .asking => s
    | .askingSha => s

/-! ## Others -/

def headMoved (path : String) (head : WorktreeHead) (s : BranchStateTracker) :
    BranchStateTracker :=
  { s with
    heads := Function.update s.heads path head
    owed := true }

def tasksWritten (workspaces : List WorkspaceRow) (s : BranchStateTracker) :
    BranchStateTracker :=
  { s with workspaces }

def projectWritten (rootPath : String) (branchName : Option String) (s : BranchStateTracker) :
    BranchStateTracker :=
  { s with project := { rootPath, branchName, revision := s.project.revision + 1 } }

def step : BranchEvent → BranchStateTracker → BranchStateTracker
  | .headMoved path head => headMoved path head
  | .refreshBranches => refreshBranches
  | .gitLooks n failed => gitLooks n failed
  | .gitAnswers n writeFails => gitAnswers n writeFails
  | .tasksWritten workspaces => tasksWritten workspaces
  | .projectWritten rootPath branchName => projectWritten rootPath branchName

end BranchStateTracker

end Laborer.Worktrees
