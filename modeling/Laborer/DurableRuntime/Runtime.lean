import Laborer.DurableRuntime.RootRegistration
import Laborer.Library.Runs

/-!
# The durable runtime

The runtime as a state machine: a database, and the fibers that a process has. A step is
what a client, the workflow engine or a fiber does up to the next commit, so that a stop of
the process at any point is a stop between two steps. It loses the fibers.
-/

namespace Laborer.DurableRuntime

open Library

inductive Fiber where
  /-- An event that it will accept into its conversation. -/
  | accept (event : ExecutionEvent)
  /-- An event whose workflow the engine took. -/
  | acknowledge (eventId : String)
  /-- A follow-up that was accepted for an Execution. -/
  | followUp (request : ControlRequest) (row : ExecutionRow)
  /-- A completed follow-up that is delivered in the background. -/
  | deliverFollowUp (request : ControlRequest) (row : ExecutionRow)
  /-- A follow-up that could not be delivered, before that is reported. -/
  | reportFailure (request : ControlRequest) (row : ExecutionRow)
  /-- A cancellation that the Action performs. -/
  | cancel (request : ControlRequest)
  /-- A cancellation that was performed. -/
  | completeCancel (request : ControlRequest) (event : ExecutionEvent)

structure RuntimeState where
  db : RuntimeDatabase
  started : Bool
  fibers : List Fiber

def RuntimeState.initial : RuntimeState where
  db := .empty
  started := false
  fibers := []

inductive RuntimeStep where
  /-- The process stops, and the runtime is started again. -/
  | restart
  /-- The process stops, and once more when the runtime that is started again has
  initialized its tables. -/
  | interruptedRestart
  | startExecution (request : StartExecutionRequest) (now : ℕ)
  | runExecution (executionId : String)
  | reportProgress (executionId progressId : String) (progress : JsValue)
  | completeExecution (executionId : String) (result : JsValue)
  | failExecution (executionId : String) (category : FailureCategory)
  | registerConversation (conversationId workspaceId : String)
  | runConversation (request : RunConversationRequest)
  | startConversationEvent (workspaceId eventId : String)
  | finishConversationEvent (workspaceId eventId : String) (outputs : Option JsValue)
  | readPending (workspaceId : String) (conversationId : Option String)
  | acknowledgeEvent (eventId conversationId workspaceId : String)
  | inspectExecution (request : ControlRequest)
  | followUpExecution (request : ControlRequest)
  | cancelExecution (request : ControlRequest)
  /-- A fiber goes on. What it asked for outside of the runtime went well or not. -/
  | advance (fiber : ℕ) (outcome : Bool)

section Step

variable (platform : Platform) (catalog : RegisteredActionCatalog) (rootIdentity : String)

/-- The database and whether the runtime has started, after an attempt to start it. The
tables are initialized in a transaction of their own. -/
def restart (db : RuntimeDatabase) : RuntimeState :=
  match initializeLaborerTables platform db with
  | .error _ => { db := db, started := false, fibers := [] }
  | .ok db =>
    match validateRootRegistration platform catalog rootIdentity db with
    | .error _ => { db := db, started := false, fibers := [] }
    | .ok db => { db := db, started := true, fibers := [] }

/-- The database after a start that stops when the tables are initialized. -/
def restartInterrupted (db : RuntimeDatabase) : RuntimeState :=
  match initializeLaborerTables platform db with
  | .error _ => { db := db, started := false, fibers := [] }
  | .ok db => { db := db, started := false, fibers := [] }

/-- A transaction that ends in no fiber. -/
def RuntimeState.commit {α : Type} (s : RuntimeState)
    (result : Except Failure (α × RuntimeDatabase)) : RuntimeState :=
  match result with
  | .ok (_, db) => { s with db := db }
  | .error _ => s

/-- A transaction after which a fiber has something in hand, or has not. -/
def RuntimeState.spawn {α : Type} (s : RuntimeState) (fiber : α → List Fiber)
    (result : Except Failure (α × RuntimeDatabase)) : RuntimeState :=
  match result with
  | .ok (a, db) => { s with db := db, fibers := s.fibers ++ fiber a }
  | .error _ => s

def acknowledgeEvent (eventId conversationId workspaceId : String) (db : RuntimeDatabase) :
    Except Failure (Unit × RuntimeDatabase) := do
  ensure (runtimeEventId eventId && runtimeConversationId conversationId &&
    runtimeWorkspaceId workspaceId) (.runtimeError .invalidPayload)
  if (db.executionEvents.find eventId).any fun event =>
      event.conversationId = conversationId && event.workspaceId = workspaceId then
    return ((), acknowledge eventId db)
  else return ((), db)

/-- What a fiber does next. The state is the one without the fiber. -/
def advanceFiber (outcome : Bool) (s : RuntimeState) : Fiber → RuntimeState
  | .accept event =>
    s.spawn (fun payload => if payload.isSome && outcome then [.acknowledge event.eventId] else [])
      (acceptExecutionEvent platform rootIdentity event s.db)
  | .acknowledge eventId => { s with db := acknowledge eventId s.db }
  | .followUp request row =>
    s.spawn (fun _ => [.deliverFollowUp request row])
      (completeControl platform catalog request s.db)
  | .deliverFollowUp request row =>
    if outcome then s
    else { s with
      db := failFollowUp request s.db
      fibers := s.fibers ++ [.reportFailure request row] }
  | .reportFailure request row =>
    s.spawn (fun event => [.accept event]) (reportFollowUpFailure platform request row s.db)
  | .cancel request =>
    if outcome then
      s.spawn (fun event => [.completeCancel request event])
        (DurableRuntime.cancelExecution platform request s.db)
    else { s with db := failCancellation request s.db }
  | .completeCancel request event =>
    s.spawn (fun _ => [.accept event]) (completeControl platform catalog request s.db)

def stepStarted (s : RuntimeState) : RuntimeStep → RuntimeState
  | .restart => restart platform catalog rootIdentity s.db
  | .interruptedRestart => restartInterrupted platform s.db
  | .startExecution request now =>
    s.commit (startExecution platform catalog rootIdentity request now s.db)
  | .runExecution executionId => s.commit (runExecution catalog executionId s.db)
  | .reportProgress executionId progressId progress =>
    s.spawn (fun event => [.accept event])
      (reportProgress platform executionId progressId progress s.db)
  | .completeExecution executionId result =>
    s.spawn (fun event => event.toList.map .accept)
      (completeExecution platform executionId result s.db)
  | .failExecution executionId category =>
    s.spawn (fun event => event.toList.map .accept)
      (failExecution platform executionId category s.db)
  | .registerConversation conversationId workspaceId =>
    s.commit (registerConversationPublicly platform rootIdentity conversationId workspaceId s.db)
  | .runConversation request => s.commit (runConversation platform rootIdentity request s.db)
  | .startConversationEvent workspaceId eventId =>
    { s with db := startConversationEvent workspaceId eventId s.db }
  | .finishConversationEvent workspaceId eventId outputs =>
    { s with db := finishConversationEvent platform workspaceId eventId outputs s.db }
  | .readPending workspaceId conversationId =>
    { s with
      fibers := s.fibers ++ ((pendingRows s.db workspaceId conversationId).take 128).map
        fun row => .accept row.event }
  | .acknowledgeEvent eventId conversationId workspaceId =>
    s.commit (acknowledgeEvent eventId conversationId workspaceId s.db)
  | .inspectExecution request => s.commit (inspectExecution platform catalog request s.db)
  | .followUpExecution request =>
    s.spawn (fun row => row.toList.map (.followUp request))
      (acceptControl platform catalog .followUp request s.db)
  | .cancelExecution request =>
    s.spawn (fun row => row.toList.map fun _ => .cancel request)
      (acceptControl platform catalog .cancel request s.db)
  | .advance fiber outcome =>
    match s.fibers[fiber]? with
    | none => s
    | some f =>
      advanceFiber platform catalog rootIdentity outcome
        { s with fibers := s.fibers.eraseIdx fiber } f

def runtimeStep (step : RuntimeStep) (s : RuntimeState) : RuntimeState :=
  if s.started then stepStarted platform catalog rootIdentity s step
  else
    match step with
    | .restart => restart platform catalog rootIdentity s.db
    | .interruptedRestart => restartInterrupted platform s.db
    | _ => s

end Step

end Laborer.DurableRuntime
