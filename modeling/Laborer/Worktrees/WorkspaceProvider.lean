import Laborer.Library.Paths
import Laborer.Worktrees.WorkspaceRecords

/-!
# Creating a worktree

The path of a new worktree, the claim of that path for a task, and the setup that
makes the worktree there. Git and the file system do what they are asked.
-/

namespace Laborer.Worktrees

open Laborer.Library Laborer.Database

/-! ## Slugs -/

/-- `[a-zA-Z0-9-]`. -/
def isSlugCharacter (c : Char) : Bool :=
  c.isAlphanum || c = '-'

/-- Every run of hyphens becomes one. -/
def collapseHyphens : List Char → List Char
  | [] => []
  | c :: rest =>
    if c = '-' ∧ rest.head? = some '-' then collapseHyphens rest else c :: collapseHyphens rest

def trimHyphens (text : List Char) : List Char :=
  let text := if text.head? = some '-' then text.tail else text
  if text.getLast? = some '-' then text.dropLast else text

def slugify (branchName : String) : List Char :=
  let text := branchName.toList.map fun c => if c = '/' then '-' else c
  let text := text.map fun c => if isSlugCharacter c then c else '-'
  trimHyphens (collapseHyphens text)

/-! ## Requests -/

structure RpcError where
  code : String
  message : String

inductive CreateFailure where
  | rpc (error : RpcError)
  | database (error : DatabaseError)

/-- The arguments of `createWorktree`, with what the configuration resolves to, the
ids it mints and the time it reads. -/
structure CreateRequest where
  baseWorkspaceId : Option String := none
  branchName : Option String
  changedAt : ℤ
  /-- The id of a new task. -/
  newId : String
  operationId : Option String := none
  projectId : String
  /-- The part of a generated branch name that is drawn. -/
  randomPart : String
  taskSource : Option String := none
  /-- The worktree directory of the project, or why the configuration has none. -/
  worktreeDir : Except String AbsolutePath

namespace CreateRequest

def resolvedBranch (request : CreateRequest) : String :=
  request.branchName.getD ("laborer/" ++ request.randomPart)

def worktreePath (request : CreateRequest) (worktreeDir : AbsolutePath) : AbsolutePath :=
  worktreeDir.join (slugify request.resolvedBranch)

def worktreePathText (request : CreateRequest) (worktreeDir : AbsolutePath) : String :=
  String.ofList (request.worktreePath worktreeDir).text

def workspaceId (request : CreateRequest) : String :=
  request.taskSource.getD request.newId

/-- The record of the workspace that a request is to make. -/
def workspace (request : CreateRequest) (worktreeDir : AbsolutePath)
    (baseWorkspace : Option WorkspaceRecord) : WorkspaceRecord where
  baseBranch := baseWorkspace.map (·.branchName)
  baseSha := none
  branchName := request.resolvedBranch
  createdAt := request.changedAt
  id := request.workspaceId
  origin := .laborer
  projectId := request.projectId
  status := .creating
  taskSource := request.workspaceId
  worktreePath := request.worktreePathText worktreeDir

end CreateRequest

/-! ## Claims -/

/-- An answer of the database, as the caller sees it. -/
def fromDatabase {α : Type} : Except DatabaseError α → Except CreateFailure α
  | .ok a => .ok a
  | .error e => .error (.database e)

/-- `persistWorkspaceFacts`: no failure says what it was. -/
def persistWorkspaceFacts {α : Type} : Except DatabaseError α → Except CreateFailure α
  | .ok a => .ok a
  | .error _ => .error (.rpc
      { code := "WORKSPACE_PERSIST_FAILED"
        message := "Could not persist workspace lifecycle facts" })

def getProject (db : LaborerDatabase) (projectId : String) : Except CreateFailure Project :=
  match db.findProject projectId with
  | none => .error (.rpc
      { message := s!"Project not found: {projectId}"
        code := "NOT_FOUND" })
  | some project => .ok project

def resolveBaseWorkspace (db : LaborerDatabase) (projectId : String)
    (baseWorkspaceId : Option String) : Except CreateFailure (Option WorkspaceRecord) :=
  match baseWorkspaceId with
  | none => pure none
  | some baseWorkspaceId => do
    match ← fromDatabase (findWorkspaceRecord db baseWorkspaceId) with
    | none => throw (.rpc
        { message := s!"Base workspace not found: {baseWorkspaceId}"
          code := "NOT_FOUND" })
    | some baseWorkspace =>
      if baseWorkspace.projectId ≠ projectId then throw (.rpc
        { message := s!"Base workspace {baseWorkspaceId} belongs to a different project"
          code := "BASE_WORKSPACE_INVALID" })
      else if baseWorkspace.worktreePath = "" then throw (.rpc
        { message := s!"Base workspace {baseWorkspaceId} has no local worktree to branch from"
          code := "BASE_WORKSPACE_INVALID" })
      else pure (some baseWorkspace)

def provisioningTask (request : CreateRequest) (rootPath : String) (worktreePath : String)
    (baseBranch parentTaskId : Option String) : NewLaborerTask where
  baseBranch := baseBranch
  branchName := some request.resolvedBranch
  id := request.workspaceId
  parentTaskId := parentTaskId
  rootPath := rootPath
  source := .worktree
  status := .inProgress
  title := request.resolvedBranch
  worktreeError := none
  worktreePath := some worktreePath
  worktreeStatus := some .provisioning

def provisioningPatch (request : CreateRequest) (worktreePath : String)
    (baseBranch parentTaskId : Option String) : LaborerTaskPatch where
  baseBranch := some baseBranch
  baseSha := some none
  branchName := some (some request.resolvedBranch)
  parentTaskId := some parentTaskId
  setupCompletedAt := some none
  worktreeError := some none
  worktreePath := some (some worktreePath)
  worktreeStatus := some (some .provisioning)

def findParentTask (db : LaborerDatabase) (baseWorkspace : Option WorkspaceRecord) :
    Except DatabaseError (Option LaborerTask) :=
  match baseWorkspace with
  | none => pure none
  | some base => findWorkspaceTask db base.id (some base.taskSource) base.worktreePath

def beginTaskProvisioning (db : LaborerDatabase) (request : CreateRequest) (rootPath : String)
    (worktreePath : String) (baseWorkspace : Option WorkspaceRecord) :
    Except CreateFailure (String × LaborerDatabase) := do
  let parentTask ← persistWorkspaceFacts (findParentTask db baseWorkspace)
  let taskId := request.workspaceId
  let existingTask ← persistWorkspaceFacts (db.findTask taskId)
  let baseBranch := baseWorkspace.map (·.branchName)
  match existingTask with
  | none =>
    match request.taskSource with
    | some taskSource => throw (.rpc
        { code := "NOT_FOUND"
          message := s!"Task not found: {taskSource}" })
    | none =>
      match NativeLaborerDatabase.insertTask
          (provisioningTask request rootPath worktreePath baseBranch (parentTask.map (·.id)))
          request.operationId request.changedAt db with
      | (result, db) => do
        let _ ← persistWorkspaceFacts result
        pure (taskId, db)
  | some existingTask => do
    let parentTaskId := (parentTask.map (·.id)).or existingTask.parentTaskId
    let (_, db) ← persistWorkspaceFacts (updateServerTaskFacts db taskId
      (provisioningPatch request worktreePath baseBranch parentTaskId)
      request.operationId request.changedAt)
    pure (taskId, db)

inductive Claim where
  | existing (workspace : WorkspaceRecord)
  | claimed (taskId : String) (db : LaborerDatabase)

/-- The workspace that holds the path a request is for. -/
def findClaimedWorkspace (db : LaborerDatabase) (worktreePath : String) :
    Except DatabaseError (Option WorkspaceRecord) := do
  match ← findTaskByWorktreePath db worktreePath with
  | none => pure none
  | some task => findWorkspaceRecord db task.id

/-- `claimWorkspace`, once no cleanup runs at the path. -/
def claimWorkspace (db : LaborerDatabase) (request : CreateRequest) (rootPath : String)
    (worktreePath : String) (baseWorkspace : Option WorkspaceRecord) :
    Except CreateFailure Claim := do
  match ← fromDatabase (findClaimedWorkspace db worktreePath) with
  | some existingWorkspace =>
    if request.taskSource.any (· ≠ existingWorkspace.id) then throw (.rpc
      { code := "INVALID_STATE"
        message :=
          s!"Workspace path is already owned by task {existingWorkspace.id}: {worktreePath}" })
    else pure (.existing existingWorkspace)
  | none =>
    let (taskId, db) ← beginTaskProvisioning db request rootPath worktreePath baseWorkspace
    pure (.claimed taskId db)

/-! ## Branches -/

/-- What git knows in a repository and in the worktrees of it. -/
structure GitRepository where
  /-- `refs/heads/` has the branch. -/
  branches : String → Bool
  /-- `git rev-parse --verify` finds a branch, a tag or a commit under the name. -/
  names : String → Bool
  names_of_branches : ∀ name, branches name → names name
  /-- origin has the branch. -/
  originBranches : String → Bool
  /-- `git rev-parse HEAD` in a directory. -/
  headOf : String → String

def localBranchExists (git : GitRepository) (branchName : String) : Bool :=
  git.names branchName

def originBranchExists (git : GitRepository) (branchName : String) : Bool :=
  git.originBranches branchName

/-- What follows `git worktree add`, but for the path. -/
inductive WorktreeAddArgs where
  | existing (name : String)
  /-- `--track -b` -/
  | track (branchName remoteBranchRef : String)
  /-- `-b` -/
  | new (branchName : String) (baseRef : Option String)

def buildWorktreeAddArgs (baseRef : Option String) (branchExists : Bool) (branchName : String)
    (remoteBranchExists : Bool) (remoteBranchRef : String) : WorktreeAddArgs :=
  if branchExists then .existing branchName
  else if remoteBranchExists then .track branchName remoteBranchRef
  else .new branchName (baseRef.filter (· ≠ ""))

inductive Checkout where
  | branch (name : String)
  | detached (name : String)
deriving DecidableEq

/-- `git worktree add`: what is no branch is checked out detached. -/
def worktreeAdd (git : GitRepository) : WorktreeAddArgs → Checkout
  | .existing name => if git.branches name then .branch name else .detached name
  | .track branchName _ => .branch branchName
  | .new branchName _ => .branch branchName

/-! ## Setup -/

/-- The files after a setup, the directories it removed on the way, the worktree it made
and the commit that this is compared with. -/
structure Setup where
  files : FileTree
  removed : List AbsolutePath
  worktree : Checkout
  baseSha : String

def performWorktreeSetup (git : GitRepository) (files : FileTree) (branchName repoPath : String)
    (worktreeDir worktreePath : AbsolutePath) (baseRef : Option String) : Setup :=
  let branchExists := localBranchExists git branchName
  let remoteBranchExists := !branchExists && originBranchExists git branchName
  let files := files.makeDirectories worktreeDir
  -- a stale worktree path is cleaned up
  let stale := files.present worktreePath
  let files := if stale then files.removeRecursively worktreePath else files
  { files := files.makeDirectories worktreePath
    removed := if stale then [worktreePath] else []
    worktree := worktreeAdd git (buildWorktreeAddArgs baseRef branchExists branchName
      remoteBranchExists ("origin/" ++ branchName))
    baseSha := (baseRef.filter (· ≠ "")).getD (git.headOf repoPath) }

/-- What a request that is not refused returns, and the setup that goes on behind it. -/
inductive Created where
  | existing (workspace : WorkspaceRecord)
  | provisioned (workspace : WorkspaceRecord) (db : LaborerDatabase) (setup : Setup)

def createWorktree (db : LaborerDatabase) (files : FileTree) (git : GitRepository)
    (request : CreateRequest) : Except CreateFailure Created := do
  let project ← getProject db request.projectId
  let baseWorkspace ← resolveBaseWorkspace db request.projectId request.baseWorkspaceId
  match request.worktreeDir with
  | .error message => throw (.rpc { message, code := "CONFIG_VALIDATION_ERROR" })
  | .ok worktreeDir =>
    match ← claimWorkspace db request project.rootPath (request.worktreePathText worktreeDir)
        baseWorkspace with
    | .existing workspace => pure (.existing workspace)
    | .claimed _ db =>
      let baseRef := baseWorkspace.map fun base => git.headOf base.worktreePath
      pure (.provisioned (request.workspace worktreeDir baseWorkspace) db
        (performWorktreeSetup git files request.resolvedBranch project.rootPath worktreeDir
          (request.worktreePath worktreeDir) baseRef))

end Laborer.Worktrees
