import Laborer.DurableRuntime.Operations

/-!
# Executions and their controls

How an Execution is started, runs and ends, and how its owner inspects it, follows up on
it and cancels it.
-/

namespace Laborer.DurableRuntime

open Library

section Executions

variable (platform : Platform) (catalog : RegisteredActionCatalog)

/-- `UPDATE laborer_executions … WHERE execution_id = … AND …`, with the number of changed
rows. -/
def updateExecution (executionId : String) (p : ExecutionRow → Bool)
    (status : ExecutionStatus) (resultJson : Option JsonText)
    (failureCategory : Option FailureCategory) (db : RuntimeDatabase) : ℕ × RuntimeDatabase :=
  let (changes, executions) := db.executions.updateWhere executionId p
    (fun row => { row with
      status := status
      resultJson := resultJson.or row.resultJson
      failureCategory := failureCategory.or row.failureCategory }) fun _ => rfl
  (changes, { db with executions := executions })

/-! ## Starting an Execution -/

structure StartExecutionRequest where
  actionName : String
  conversationId : String
  input : JsValue
  invocationId : String
  rootIdentity : String
  workspaceId : String

def StartExecutionRequest.isValid (request : StartExecutionRequest) : Bool :=
  DurableRuntime.actionName request.actionName && runtimeConversationId request.conversationId &&
    runtimeInvocationId request.invocationId && runtimeRootIdentity request.rootIdentity &&
      runtimeWorkspaceId request.workspaceId

/-- `RegisteredActionExecutionWorkflow.executionId`, which the workflow engine makes from
the name of the workflow and its idempotency key. -/
def executionIdOf (rootIdentity workspaceId invocationId : String) : String :=
  platform.workflowExecutionId "Laborer/RegisteredActionExecution/v1"
    (platform.sha256 ("laborer-execution-v1\x00".toList ++ rootIdentity.toList ++ "\x00".toList ++
      workspaceId.toList ++ "\x00".toList ++ invocationId.toList))

def insertExecution (row : ExecutionRow) (db : RuntimeDatabase) : RuntimeDatabase :=
  if db.executions.rows.any fun other =>
    other.workspaceId = row.workspaceId && other.invocationId = row.invocationId then db
  else
    match db.executions.insert row with
    | some executions => { db with executions := executions }
    | none => db

/-- `startExecution`, up to the workflow that it starts. A request that conflicts with an
accepted one fails after the transaction, which inserted nothing then. -/
def startExecution (rootIdentity : String) (request : StartExecutionRequest) (now : ℕ)
    (db : RuntimeDatabase) : Except Failure (Unit × RuntimeDatabase) := do
  ensure request.isValid (.runtimeError .invalidPayload)
  ensure (request.rootIdentity = rootIdentity) (.runtimeError .conflictingInvocation)
  match catalog.get request.actionName none with
  | none => .error (.runtimeError .unavailableAction)
  | some action =>
    ensure (action.decodeInput request.input) (.runtimeError .invalidPayload)
    let encodedInput ← boundedPayloadJson platform request.input
    return ((), insertExecution
      { executionId := executionIdOf platform rootIdentity request.workspaceId request.invocationId
        invocationId := request.invocationId
        conversationId := request.conversationId
        actionName := action.name
        actionRevision := action.revision
        actionFingerprint := action.fingerprint
        catalogFingerprint := catalog.fingerprint
        inputHash := platform.sha256 (encodedInput.chars platform)
        inputJson := encodedInput
        status := .queued
        acceptedAtUnixMs := now
        workspaceId := request.workspaceId } db)

/-! ## The workflow of an Execution -/

/-- The action of an Execution, if the catalog still has it as it was. -/
def actionForExecution (row : ExecutionRow) : Option RegisteredAction :=
  (catalog.get row.actionName (some row.actionRevision)).filter
    (·.fingerprint = row.actionFingerprint)

def runExecution (executionId : String) (db : RuntimeDatabase) :
    Except Failure (Unit × RuntimeDatabase) :=
  match db.executions.find executionId with
  | none => .error .die
  | some row => do
    ensure (row.status = .queued || row.status = .running) .die
    ensure (actionForExecution catalog row).isSome .die
    return ((), (updateExecution executionId (·.status = .queued) .running none none db).2)

/-- `reportProgress` of a running Action, up to the delivery of the event. -/
def reportProgress (executionId progressId : String) (progress : JsValue) (db : RuntimeDatabase) :
    Except Failure (ExecutionEvent × RuntimeDatabase) :=
  match db.executions.find executionId with
  | none => .error .die
  | some row => do
    ensure (runtimeProgressId progressId) (.runtimeError .invalidPayload)
    persistEvent platform
      { conversationId := row.conversationId
        executionId := executionId
        kind := .progress
        payload := progress
        progressId := some progressId
        workspaceId := row.workspaceId } db

/-- The transaction that completes an Execution with the result of its Action. It does
nothing to an Execution that is not running. -/
def completeExecution (executionId : String) (result : JsValue) (db : RuntimeDatabase) :
    Except Failure (Option ExecutionEvent × RuntimeDatabase) :=
  match db.executions.find executionId with
  | none => .error .die
  | some row => do
    let encodedResult ← boundedExecutionEventPayloadJson platform result
    let (changes, db) := updateExecution executionId (·.status = .running) .completed
      (some encodedResult) none db
    if changes = 1 then do
      let (event, db) ← persistEvent platform
        { conversationId := row.conversationId
          executionId := executionId
          kind := .completed
          payload := encodedResult.parse
          workspaceId := row.workspaceId } db
      return (some event, db)
    else return (none, db)

def categoryPayload (category : String) : JsValue :=
  .obj [("category", .str category)]

def failExecution (executionId : String) (category : FailureCategory) (db : RuntimeDatabase) :
    Except Failure (Option ExecutionEvent × RuntimeDatabase) :=
  match db.executions.find executionId with
  | none => .error .die
  | some row =>
    if row.status = .failed ∨ row.status = .needsAttention ∨ row.status = .cancelled then
      .ok (none, db)
    else if row.status = .completed then .error .die
    else do
      let status := if category = .needsAttention then ExecutionStatus.needsAttention else .failed
      let (_, db) := updateExecution executionId (fun _ => true) status none (some category) db
      let (event, db) ← persistEvent platform
        { conversationId := row.conversationId
          executionId := executionId
          kind := .failed
          payload := categoryPayload category.text
          workspaceId := row.workspaceId } db
      return (some event, db)

/-! ## Controls -/

def ownedExecutionRow (request : ControlRequest) (db : RuntimeDatabase) :
    Except Failure ExecutionRow :=
  match (db.executions.find request.executionId).filter fun row =>
    row.conversationId = request.conversationId && row.workspaceId = request.workspaceId with
  | some row => .ok row
  | none => .error (.runtimeError .executionNotFound)

/-- What `decodeUnknownEffect(ExecutionSnapshot)` asks of a row. -/
def ExecutionRow.isSnapshot (row : ExecutionRow) : Bool :=
  boundedNonBlankString 64 row.actionFingerprint && DurableRuntime.actionName row.actionName &&
    DurableRuntime.actionRevision row.actionRevision &&
      boundedNonBlankString 64 row.catalogFingerprint && runtimeConversationId row.conversationId &&
        runtimeExecutionId row.executionId && runtimeInvocationId row.invocationId &&
          runtimeWorkspaceId row.workspaceId

def controlReceipt (controlId : String) (row : ExecutionRow) :
    Except Failure ExecutionControlReceipt := do
  ensure row.isSnapshot (.runtimeError .storageFailure)
  match actionForExecution catalog row with
  | none => .error (.runtimeError .storageFailure)
  | some action =>
    return {
      controlId := controlId
      deduplicated := false
      actionName := row.actionName
      actionRevision := row.actionRevision
      canCancel := action.hasCancel && row.status = .running
      canFollowUp := action.hasFollowUp && row.status = .running
      conversationId := row.conversationId
      executionId := row.executionId
      status := row.status
      workspaceId := row.workspaceId }

def controlRequestHash (kind : ControlKind) (request : ControlRequest) : Except Failure String := do
  let encoded ← boundedPayloadJson platform
    (.obj [("kind", .str kind.text), ("request", request.toValue)])
  return platform.sha256 (encoded.chars platform)

def ControlRow.isFor (row : ControlRow) (kind : ControlKind) (requestHash : String)
    (request : ControlRequest) : Bool :=
  row.kind = kind && row.requestHash = requestHash && row.executionId = request.executionId &&
    row.conversationId = request.conversationId && row.workspaceId = request.workspaceId

def nextControlSequence (db : RuntimeDatabase) (executionId : String) : ℕ :=
  nextSequence ((db.executionControls.rows.filter (·.executionId = executionId)).map (·.sequence))

def insertControl (kind : ControlKind) (request : ControlRequest) (requestHash : String)
    (resultJson : Option JsonText) (status : ControlStatus) (db : RuntimeDatabase) :
    Except Failure RuntimeDatabase := do
  let executionControls ← insertRow db.executionControls
    { controlId := request.controlId
      executionId := request.executionId
      conversationId := request.conversationId
      workspaceId := request.workspaceId
      sequence := nextControlSequence db request.executionId
      kind := kind
      requestHash := requestHash
      resultJson := resultJson
      status := status }
  return { db with executionControls := executionControls }

def inspectExecution (request : ControlRequest) (db : RuntimeDatabase) :
    Except Failure (Unit × RuntimeDatabase) := do
  ensure (request.isValid .inspect) (.runtimeError .invalidPayload)
  let requestHash ← controlRequestHash platform .inspect request
  let row ← ownedExecutionRow request db
  match db.executionControls.find (request.workspaceId, request.controlId) with
  | some existing =>
    ensure (existing.isFor .inspect requestHash request) (.runtimeError .conflictingControl)
    ensure existing.resultJson.isSome (.runtimeError .storageFailure)
    return ((), db)
  | none =>
    let receipt ← controlReceipt catalog request.controlId row
    let resultJson ← boundedPayloadJson platform receipt.toValue
    let db ← insertControl .inspect request requestHash (some resultJson) .completed db
    return ((), db)

/-- The part of `mutateExecution` that accepts a control: it gives the Execution, or
nothing if the control was completed before. -/
def acceptControl (kind : ControlKind) (request : ControlRequest) (db : RuntimeDatabase) :
    Except Failure (Option ExecutionRow × RuntimeDatabase) := do
  ensure (request.isValid kind) (.runtimeError .invalidPayload)
  let requestHash ← controlRequestHash platform kind request
  let row ← ownedExecutionRow request db
  match db.executionControls.find (request.workspaceId, request.controlId) with
  | some existing =>
    ensure (existing.isFor kind requestHash request) (.runtimeError .conflictingControl)
    ensure existing.resultJson.isSome (.runtimeError .controlFailed)
    return (none, db)
  | none =>
    match catalog.get row.actionName (some row.actionRevision) with
    | none => .error (.runtimeError .storageFailure)
    | some action =>
      ensure (if kind = .cancel then action.hasCancel else action.hasFollowUp)
        (.runtimeError .unsupportedControl)
      ensure (row.status = .running) (.runtimeError .executionNotActive)
      let db ← insertControl kind request requestHash none .accepted db
      if kind = .cancel then
        return (some row, (updateExecution request.executionId (fun _ => true) .cancelling none none
          db).2)
      else return (some row, db)

/-- `UPDATE laborer_execution_controls … WHERE control_id = … AND workspace_id = … AND …`. -/
def updateControl (request : ControlRequest) (p : ControlRow → Bool) (status : ControlStatus)
    (resultJson : Option JsonText) (db : RuntimeDatabase) : RuntimeDatabase :=
  { db with
    executionControls := (db.executionControls.updateWhere
      (request.workspaceId, request.controlId) p
      (fun row => { row with status := status, resultJson := resultJson.or row.resultJson })
      fun _ => rfl).2 }

def completeControl (request : ControlRequest) (db : RuntimeDatabase) :
    Except Failure (Unit × RuntimeDatabase) := do
  let finalRow ← ownedExecutionRow request db
  let receipt ← controlReceipt catalog request.controlId finalRow
  let resultJson ← boundedPayloadJson platform receipt.toValue
  return ((), updateControl request (·.status = .accepted) .completed (some resultJson) db)

/-- The first statement of `reportFailure` in `deliverFollowUpInBackground`. -/
def failFollowUp (request : ControlRequest) (db : RuntimeDatabase) : RuntimeDatabase :=
  updateControl request (fun _ => true) .failed none db

/-- The event that `reportFailure` in `deliverFollowUpInBackground` reports. -/
def reportFollowUpFailure (request : ControlRequest) (row : ExecutionRow) (db : RuntimeDatabase) :
    Except Failure (ExecutionEvent × RuntimeDatabase) :=
  persistEvent platform
    { conversationId := request.conversationId
      executionId := request.executionId
      kind := .progress
      payload := .obj [("actionName", .str row.actionName),
        ("controlId", .str request.controlId),
        ("kind", .str "follow-up-failed"),
        ("text", .str "The follow-up could not be delivered to the implementation session.")]
      progressId := some ("follow-up-failed:" ++ request.controlId)
      workspaceId := request.workspaceId } db

/-- The transaction after a cancellation that the Action's capability did not perform. -/
def failCancellation (request : ControlRequest) (db : RuntimeDatabase) : RuntimeDatabase :=
  (updateExecution request.executionId (·.status = .cancelling) .running none none
    (updateControl request (·.status = .accepted) .failed none db)).2

def cancelExecution (request : ControlRequest) (db : RuntimeDatabase) :
    Except Failure (ExecutionEvent × RuntimeDatabase) := do
  let (changes, db) := updateExecution request.executionId (·.status = .cancelling) .cancelled none
    none db
  ensure (changes = 1) (.runtimeError .storageFailure)
  persistEvent platform
    { conversationId := request.conversationId
      executionId := request.executionId
      kind := .cancelled
      payload := categoryPayload "cancelled"
      workspaceId := request.workspaceId } db

end Executions

end Laborer.DurableRuntime
