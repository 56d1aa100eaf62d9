import Laborer.Database.Types
import Laborer.Library.Text

/-!
# Slack cards

A card made from a Slack message has no title, prompt or branch of its own until an
analysis of the thread has planned them. The analysis runs beside the board, and a move to
In Progress plans the card itself when it is not planned yet, creates its worktree and
binds it.
-/

namespace Laborer.TaskCards

open Laborer.Library
open Database (TaskStatus ExecutionStatus)

/-! ## The card -/

structure SlackWorkspacePlan where
  branchName : String
  initialPrompt : String
  title : String

structure SlackCard where
  title : String
  description : Option String := none
  branchName : Option String := none
  executionStatus : Option ExecutionStatus := some .queued
  status : TaskStatus
  sortOrder : Option ℚ := none
  worktreePath : Option String := none
  revision : ℤ := 1

structure Workspace where
  branchName : String
  worktreePath : String

namespace SlackCard

def create (slackUrl : String) (status : TaskStatus) : SlackCard where
  title := slackUrl
  status := status

/-- The patch of a finished plan. -/
def storePlan (plan : SlackWorkspacePlan) (card : SlackCard) : SlackCard :=
  { card with
    branchName := some plan.branchName
    executionStatus := none
    description := some plan.initialPrompt
    title := plan.title
    revision := card.revision + 1 }

def markFailed (card : SlackCard) : SlackCard :=
  { card with executionStatus := some .failed, revision := card.revision + 1 }

/-- The patch of `commitTaskMove`; an undefined order is left as it is. -/
def commit (status : TaskStatus) (sortOrder : Option (Option ℚ)) (card : SlackCard) : SlackCard :=
  { card with
    status := status
    sortOrder := sortOrder.getD card.sortOrder
    revision := card.revision + 1 }

/-- `beginTaskProvisioning`. -/
def beginProvisioning (workspace : Workspace) (card : SlackCard) : SlackCard :=
  { card with
    branchName := some workspace.branchName
    worktreePath := some workspace.worktreePath
    revision := card.revision + 1 }

/-- `bounceToTodo`; the branch of a Slack card is kept. -/
def bounceToTodo (card : SlackCard) : SlackCard :=
  if card.status ≠ .inProgress then card
  else { card with status := .todo, worktreePath := none, revision := card.revision + 1 }

def bindTaskWorkspace (workspace : Workspace) (card : SlackCard) : SlackCard :=
  if card.status ≠ .inProgress ∨ card.worktreePath ≠ none then card
  else
    { card with
      branchName := some workspace.branchName
      worktreePath := some workspace.worktreePath
      revision := card.revision + 1 }

def release (card : SlackCard) : SlackCard :=
  { card with status := .done, worktreePath := none, revision := card.revision + 1 }

def edit (title : String) (description : Option String) (card : SlackCard) : SlackCard :=
  { card with title, description, revision := card.revision + 1 }

end SlackCard

/-! ## Moves -/

structure MoveRequest where
  expectedRevision : ℤ
  status : TaskStatus
  sortOrder : Option (Option ℚ) := none
  operationId : Option String := none

def isLegacyProvisioningReplay (task : SlackCard) (request : MoveRequest) : Bool :=
  request.operationId = none ∧ request.sortOrder = none ∧ task.status = request.status

inductive MovePhase where
  | planning (task : SlackCard)
  | committing (task : SlackCard)
  | provisioning (task : SlackCard)
  | binding (workspace : Workspace)

structure Move where
  request : MoveRequest
  fromCreation : Bool
  replay : Bool
  shouldProvision : Bool
  phase : MovePhase

inductive Marking where
  | idle
  | checking
  | marking
deriving DecidableEq

/-! ## The state -/

/-- A card with all that works on it. The fields after `setups` record what has happened. -/
structure State where
  card : SlackCard
  /-- `runSlackTaskPlanning` is under way. -/
  planning : Bool
  /-- The move of a card created in In Progress has not begun. -/
  creationMove : Bool
  /-- The move that holds the lock of the task. -/
  move : Option Move := none
  marking : Marking := .idle
  /-- Worktree setups in the background. -/
  setups : ℕ := 0
  /-- The plans stored so far. -/
  stored : List SlackWorkspacePlan := []
  /-- Whether the title was edited since the last plan was stored. -/
  titleEdited : Bool := false
  descriptionEdited : Bool := false
  /-- The branch of the worktree created last. -/
  worktreeBranch : Option String := none

namespace State

def create (slackUrl : String) (status : TaskStatus) : State where
  card := .create slackUrl status
  planning := status ≠ .inProgress
  creationMove := status = .inProgress

variable (s : State)

def storePlan (plan : SlackWorkspacePlan) : State :=
  { s with
    card := s.card.storePlan plan
    stored := s.stored ++ [plan]
    titleEdited := false
    descriptionEdited := false }

/-! ### Planning in the background -/

/-- `updateLatest` with the plan: it takes the latest revision, whatever the row holds. -/
def backgroundPlanned (plan : SlackWorkspacePlan) : State :=
  if s.planning then { s.storePlan plan with planning := false } else s

/-- The planner failed, or its plan could not be stored. -/
def backgroundFailed : State :=
  if s.planning then { s with planning := false, card := s.card.markFailed } else s

/-- `markSlackAnalysisFailed` looks for a prompt first. -/
def failureChecked : State :=
  if s.marking = .checking then
    { s with marking := if s.card.description = none then .marking else .idle }
  else s

def failureMarked : State :=
  if s.marking = .marking then { s with marking := .idle, card := s.card.markFailed } else s

/-! ### The move -/

/-- The move ends with an error; the one of a new card goes on to mark the failure. -/
def moveFailed (fromCreation : Bool) : State :=
  { s with move := none, marking := if fromCreation then .checking else s.marking }

def movePhase (move : Move) (phase : MovePhase) : State :=
  { s with move := some { move with phase } }

def beginMove (request : MoveRequest) (fromCreation : Bool) : State :=
  let task := s.card
  let replay := isLegacyProvisioningReplay task request
  if task.revision ≠ request.expectedRevision ∧ ¬ replay then s.moveFailed fromCreation
  else
    let shouldProvision : Bool := request.status = .inProgress ∧ task.worktreePath = none
    let phase := if shouldProvision ∧ task.description = none then .planning task
      else MovePhase.committing task
    { s with move := some { request, fromCreation, replay, shouldProvision, phase } }

def moveStarted (request : MoveRequest) : State :=
  if s.move = none then s.beginMove request false else s

def creationMoveStarted : State :=
  if s.move = none ∧ s.creationMove then
    { s with creationMove := false }.beginMove
      { expectedRevision := 1, status := .inProgress } true
  else s

def movePlanned (plan : SlackWorkspacePlan) (move : Move) (task : SlackCard) : State :=
  if s.card.status ≠ task.status then s.moveFailed move.fromCreation
  else if s.card.worktreePath ≠ none ∨ s.card.description ≠ none then
    s.movePhase move (.committing s.card)
  else (s.storePlan plan).movePhase move (.committing (s.card.storePlan plan))

/-- The row is committed; a card without a worktree goes on to get one. -/
def moveOn (move : Move) : State :=
  if move.shouldProvision ∧ s.card.worktreePath = none then
    s.movePhase move (.provisioning s.card)
  else { s with move := none }

def moveCommitted (move : Move) (task : SlackCard) : State :=
  if move.replay then s.moveOn move
  else if s.card.revision ≠ task.revision then s.moveFailed move.fromCreation
  else { s with card := s.card.commit move.request.status move.request.sortOrder }.moveOn move

def projectMissing (move : Move) (task : SlackCard) : State :=
  if s.card.revision ≠ task.revision then s.moveFailed move.fromCreation
  else { s with card := s.card.commit .todo none }.moveFailed move.fromCreation

/-- The workspace that the card has, or the one that `createWorktree` claims: on the branch of
the card, else on one that it generates. -/
def workspaceClaimed (generatedBranch worktreePath : String) (move : Move) (task : SlackCard) :
    State :=
  match s.card.worktreePath with
  | some path => s.movePhase move (.binding ⟨s.card.branchName.getD s.card.title, path⟩)
  | none =>
    let workspace : Workspace := ⟨task.branchName.getD generatedBranch, worktreePath⟩
    { s with
      card := s.card.beginProvisioning workspace
      worktreeBranch := some workspace.branchName
      setups := s.setups + 1 }.movePhase move (.binding workspace)

def provisioningFailed (move : Move) : State :=
  { s with card := s.card.bounceToTodo }.moveFailed move.fromCreation

def moveBound (workspace : Workspace) : State :=
  { s with card := s.card.bindTaskWorkspace workspace, move := none }

/-! ### Everything else -/

/-- `handleTaskUpdate`: a title and a description at the revision that was seen. -/
def edited (expectedRevision : ℤ) (title : String) (description : Option String) : State :=
  let trimmedTitle := jsTrim title
  if jsLength trimmedTitle = 0 ∨ 100 < jsLength trimmedTitle ∨
      100000 < (description.map jsLength).getD 0 ∨ s.card.revision ≠ expectedRevision then s
  else
    { s with
      card := s.card.edit trimmedTitle description
      titleEdited := s.titleEdited || trimmedTitle ≠ s.card.title
      descriptionEdited := s.descriptionEdited || description ≠ s.card.description }

/-- A worktree setup ends, and takes the card back when it has failed. -/
def setupEnded (failed : Bool) : State :=
  if s.setups = 0 then s
  else
    { s with
      setups := s.setups - 1
      card := if failed then s.card.bounceToTodo else s.card }

end State

inductive CardEvent where
  | backgroundPlanned (plan : SlackWorkspacePlan)
  | backgroundFailed
  | failureChecked
  | failureMarked
  | moveStarted (request : MoveRequest)
  | creationMoveStarted
  | movePlanned (plan : SlackWorkspacePlan)
  | movePlanningFailed
  | moveCommitted
  | projectMissing
  | workspaceClaimed (generatedBranch worktreePath : String)
  | provisioningFailed
  | moveBound
  | edited (expectedRevision : ℤ) (title : String) (description : Option String)
  /-- A write to other data of the row, as labels and order are. -/
  | touched
  /-- A status set without the lock: the card is cancelled, or its pull request changed. -/
  | restated (status : TaskStatus)
  | released
  | setupEnded (failed : Bool)

namespace State

def moveStep (event : CardEvent) (s : State) (move : Move) : State :=
  match move.phase, event with
  | .planning task, .movePlanned plan => s.movePlanned plan move task
  | .planning _, .movePlanningFailed => s.moveFailed move.fromCreation
  | .committing task, .moveCommitted => s.moveCommitted move task
  | .provisioning task, .projectMissing => s.projectMissing move task
  | .provisioning task, .workspaceClaimed generatedBranch worktreePath =>
    s.workspaceClaimed generatedBranch worktreePath move task
  | .provisioning _, .provisioningFailed => s.provisioningFailed move
  | .binding workspace, .moveBound => s.moveBound workspace
  | _, _ => s

def withMove (event : CardEvent) (s : State) : State :=
  match s.move with
  | some move => s.moveStep event move
  | none => s

def step (event : CardEvent) (s : State) : State :=
  match event with
  | .backgroundPlanned plan => s.backgroundPlanned plan
  | .backgroundFailed => s.backgroundFailed
  | .failureChecked => s.failureChecked
  | .failureMarked => s.failureMarked
  | .moveStarted request => s.moveStarted request
  | .creationMoveStarted => s.creationMoveStarted
  | .edited expectedRevision title description => s.edited expectedRevision title description
  | .touched => { s with card := { s.card with revision := s.card.revision + 1 } }
  | .restated status =>
    { s with card := { s.card with status := status, revision := s.card.revision + 1 } }
  | .released => if s.card.worktreePath = none then s else { s with card := s.card.release }
  | .setupEnded failed => s.setupEnded failed
  | event => s.withMove event

def Quiet (s : State) : Prop :=
  s.planning = false ∧ s.creationMove = false ∧ s.move = none ∧ s.marking = .idle ∧ s.setups = 0

instance (s : State) : Decidable s.Quiet :=
  inferInstanceAs (Decidable (_ ∧ _))

end State

end Laborer.TaskCards
