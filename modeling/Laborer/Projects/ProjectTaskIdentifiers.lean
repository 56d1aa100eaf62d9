import Laborer.Projects.TaskIdentifier
import Laborer.Database.TaskDatabase

/-!
# Project keys

The keys that the projects answer to, how a rename changes them, and the lookup of a task
by its id or by the identifier of its project and its number.
-/

namespace Laborer.Projects

open Library Database

/-! ## Keys -/

structure ProjectTaskIdentifierNamespace where
  aliases : List String
  id : String
  name : String
  repoPath : String
  shortName : String
deriving DecidableEq

structure RpcError where
  code : String
  message : String
deriving DecidableEq

def namespaceKeys (project : ProjectTaskIdentifierNamespace) : List String :=
  project.shortName :: project.aliases

def validateProjectTaskIdentifierNamespace (candidate : ProjectTaskIdentifierNamespace)
    (existing : List ProjectTaskIdentifierNamespace) : Except RpcError Unit :=
  let conflict := existing.find? fun project =>
    project.id ≠ candidate.id && (namespaceKeys project).any (· ∈ namespaceKeys candidate)
  match conflict with
  | none => pure ()
  | some project =>
    let key := (namespaceKeys candidate).find? (· ∈ namespaceKeys project)
    throw
      { code := "PROJECT_SHORT_NAME_CONFLICT"
        message := "Project key " ++ key.getD candidate.shortName ++ " is already used by " ++
          project.name ++ ". Choose a unique project short name." }

def aliasesAfterRename (currentShortName : String) (currentAliases : List String)
    (nextShortName : String) : List String :=
  (distinct (currentAliases ++ [currentShortName])).filter (· ≠ nextShortName)

/-! ## Renames -/

/-- The projects, and what is recorded of them: the short names that they had before. -/
structure ProjectNames where
  projects : List ProjectTaskIdentifierNamespace
  formerNames : List (String × String)

/-- A new config for a project, or its registration at another path. -/
inductive Rename where
  | updateConfig (projectId shortName : String)
  | repoint (projectId shortName : String) (aliases : List String) (repoPath : String)

def Rename.candidate : Rename → ProjectTaskIdentifierNamespace → ProjectTaskIdentifierNamespace
  | .updateConfig _ shortName, current =>
    { current with
      shortName
      aliases :=
        if shortName = current.shortName then current.aliases
        else aliasesAfterRename current.shortName current.aliases shortName }
  | .repoint _ shortName aliases repoPath, current =>
    { current with
      repoPath
      shortName
      aliases := aliasesAfterRename current.shortName (current.aliases ++ aliases) shortName }

def Rename.projectId : Rename → String
  | .updateConfig projectId _ => projectId
  | .repoint projectId _ _ _ => projectId

/-- The keys of the candidate are short names, and no other project has one of them. -/
def Rename.accepted (projects : List ProjectTaskIdentifierNamespace)
    (candidate : ProjectTaskIdentifierNamespace) : Bool :=
  (namespaceKeys candidate).all isProjectShortName &&
    (validateProjectTaskIdentifierNamespace candidate projects).isOk

def ProjectNames.rename (rename : Rename) (s : ProjectNames) : ProjectNames :=
  match s.projects.find? (·.id = rename.projectId) with
  | none => s
  | some current =>
    let candidate := rename.candidate current
    if Rename.accepted s.projects candidate then
      { projects := s.projects.map fun project =>
          if project.id = current.id then candidate else project
        formerNames := (current.id, current.shortName) :: s.formerNames }
    else s

/-! ## Lookup -/

def nearestTaskProject (path : String) (projects : List ProjectTaskIdentifierNamespace) :
    Option ProjectTaskIdentifierNamespace :=
  ((projects.filter fun project => pathContains project.repoPath path).insertionSort
    fun left right => jsLength right.repoPath ≤ jsLength left.repoPath).head?

inductive ReferenceError where
  | identifier (error : RpcError)
  | database (error : DatabaseError)
deriving DecidableEq

/-- `database.snapshot().tasks` -/
def snapshotTasks (db : LaborerDatabase) : Except ReferenceError (List Task) :=
  match TaskDatabase.snapshotUnsafe db with
  | .ok (.snapshot _ tasks) => pure tasks
  | .ok (.delta _ tasks _) => pure tasks
  | .error error => throw (.database error)

/-- A task that the resolver counts to a project. -/
def belongsTo (projects : List ProjectTaskIdentifierNamespace)
    (project : ProjectTaskIdentifierNamespace) (rootPath : String) : Bool :=
  (nearestTaskProject rootPath projects).map (·.repoPath) = some project.repoPath

def numberedTasks (projects : List ProjectTaskIdentifierNamespace)
    (project : Option ProjectTaskIdentifierNamespace) (taskNumber : Option ℕ)
    (db : LaborerDatabase) : Except ReferenceError (List Task) :=
  match project with
  | none => pure []
  | some project => do
    let tasks ← snapshotTasks db
    pure (tasks.filter fun candidate =>
      belongsTo projects project candidate.rootPath && some candidate.taskNumber = taskNumber)

def ambiguousIdentifier (message : String) : ReferenceError :=
  .identifier { code := "AMBIGUOUS_IDENTIFIER", message }

variable (special : Char → List Char)

def findTaskByReference (db : LaborerDatabase) (reference : String)
    (projects : List ProjectTaskIdentifierNamespace) : Except ReferenceError Task :=
  match TaskDatabase.find db reference with
  | some direct => pure direct
  | none =>
    let parsed := parseTaskIdentifier special reference
    let matchingProjects := projects.filter fun project =>
      parsed.any (·.projectShortName ∈ namespaceKeys project)
    if 1 < matchingProjects.length then
      throw (ambiguousIdentifier ("Task identifier prefix " ++
        (parsed.map (·.projectShortName)).getD "" ++ " belongs to more than one project. " ++
          "Set unique project short names in project settings."))
    else do
      let tasks ← numberedTasks projects matchingProjects.head? (parsed.map (·.taskNumber)) db
      if 1 < tasks.length then
        throw (ambiguousIdentifier
          ("Task identifier " ++ reference ++ " matches more than one task"))
      else
        match tasks.head? with
        | none =>
          throw (.identifier { code := "NOT_FOUND", message := "Task not found: " ++ reference })
        | some task => pure task

end Laborer.Projects
