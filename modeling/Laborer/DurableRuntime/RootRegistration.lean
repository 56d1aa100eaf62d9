import Laborer.DurableRuntime.Executions

/-!
# Starting the runtime

What the runtime does to its database before it takes requests: it recovers the controls
that were interrupted, and checks that what is stored is what it could have written.
-/

namespace Laborer.DurableRuntime

open Library

section Start

variable (platform : Platform) (catalog : RegisteredActionCatalog) (rootIdentity : String)

def runtimeSchemaVersion : ℕ := 6

/-! ## Recovery -/

/-- The cancellations that were accepted and have no outcome, in the order of their
Executions. -/
def interruptedCancellations (db : RuntimeDatabase) : List ControlRow :=
  (db.executionControls.rows.filter fun row => row.status = .accepted && row.kind = .cancel)
    |>.insertionSort fun row row' =>
      row.executionId < row'.executionId ∨
        (row.executionId = row'.executionId ∧ row.sequence ≤ row'.sequence)

/-- Fence the Execution of an interrupted cancellation. -/
def recoverCancellation (control : ControlRow) (db : RuntimeDatabase) :
    Except Failure RuntimeDatabase := do
  let (changes, db) := updateExecution control.executionId (·.status = .cancelling) .needsAttention
    none (some .needsAttention) db
  if changes = 1 then do
    let (_, db) ← persistEvent platform
      { conversationId := control.conversationId
        executionId := control.executionId
        kind := .failed
        payload := categoryPayload FailureCategory.needsAttention.text
        workspaceId := control.workspaceId } db
    return db
  else return db

def recoverCancellations : List ControlRow → RuntimeDatabase → Except Failure RuntimeDatabase
  | [], db => .ok db
  | control :: controls, db => do
    let db ← recoverCancellation platform control db
    recoverCancellations controls db

/-- `UPDATE laborer_execution_controls SET status = 'failed' WHERE status = 'accepted'`. -/
def failAcceptedControls (db : RuntimeDatabase) : RuntimeDatabase :=
  { db with
    executionControls := db.executionControls.mapRows
      (fun row => if row.status = .accepted then { row with status := .failed } else row)
      fun row => by split <;> rfl }

/-- `initializeLaborerTables` on a database of this version. Databases of earlier versions
have other tables. -/
def initializeLaborerTables (db : RuntimeDatabase) : Except Failure RuntimeDatabase := do
  ensure (db.version.all fun version => version = runtimeSchemaVersion) .die
  let db' ← recoverCancellations platform (interruptedCancellations db) (failAcceptedControls db)
  return { db' with version := some runtimeSchemaVersion }

/-! ## Validation -/

def isSequence (sequence : ℕ) : Bool :=
  1 ≤ sequence && sequence < 2 ^ 53

def validConversation (row : ConversationRow) : Bool :=
  runtimeConversationId row.conversationId && runtimeWorkspaceId row.workspaceId &&
    boundedNonBlankString 160 row.sessionId

def validRegisteredActionEvent (event : JsValue) (workspaceId : String) : Bool :=
  if stringMember "_tag" event = "ExternalInput" ∧
      stringMember "source" event = "registered-action" then
    ((member "payload" event).bind executionEventSchema).any fun executionEvent =>
      stringMember "eventId" executionEvent = stringMember "eventId" event &&
        stringMember "conversationId" executionEvent = stringMember "conversationId" event &&
          stringMember "workspaceId" executionEvent = workspaceId
  else true

/-- The outputs of a settled event are there, are outputs, and are stored as their canonical
text. -/
def validOutputs (stored : ConversationEventRow) : Bool :=
  decide (stored.status = .completed) == stored.outputsJson.isSome &&
    stored.outputsJson.all fun outputsJson =>
      ((Decoder.array conversationOutput) outputsJson.parse).any fun outputs =>
        match boundedPayloadJson platform outputs with
        | .ok canonicalOutputs => canonicalOutputs = outputsJson
        | .error _ => false

def validConversationEvent (db : RuntimeDatabase) (stored : ConversationEventRow) : Bool :=
  match applicationEvent stored.eventJson.parse with
  | none => false
  | some event =>
    match boundedPayloadJson platform event with
    | .error _ => false
    | .ok canonicalEvent =>
      validRegisteredActionEvent event stored.workspaceId &&
        applicationEventId event = stored.eventId &&
          stringMember "conversationId" event = stored.conversationId &&
            (db.conversations.find (stored.workspaceId, stored.conversationId)).isSome &&
              stored.requestHash = conversationRequestHash platform canonicalEvent &&
                stored.eventJson = canonicalEvent && isSequence stored.sequence &&
                  validOutputs platform stored

/-- The receipt of a completed control is its own, and is stored as its canonical text. -/
def validReceipt (control : ControlRow) (resultJson : JsonText) : Bool :=
  match executionControlReceiptSchema resultJson.parse with
  | none => false
  | some receipt =>
    match boundedPayloadJson platform receipt, member "execution" receipt with
    | .ok canonicalReceipt, some execution =>
      canonicalReceipt = resultJson &&
        stringMember "controlId" receipt = control.controlId &&
          (match member "deduplicated" receipt with | some (.bool b) => !b | _ => false) &&
            stringMember "executionId" execution = control.executionId &&
              stringMember "conversationId" execution = control.conversationId &&
                stringMember "workspaceId" execution = control.workspaceId
    | _, _ => false

def validControl (db : RuntimeDatabase) (control : ControlRow) : Bool :=
  runtimeControlId control.controlId && runtimeExecutionId control.executionId &&
    runtimeConversationId control.conversationId && runtimeWorkspaceId control.workspaceId &&
      (db.executions.find control.executionId).any (fun execution =>
        execution.conversationId = control.conversationId &&
          execution.workspaceId = control.workspaceId) &&
        isSequence control.sequence && isSha256Base64url control.requestHash &&
          control.status ≠ .accepted &&
            decide (control.status = .completed) == control.resultJson.isSome &&
              control.resultJson.all (validReceipt platform control)

/-- A nonterminal Execution has the action it was started with. -/
def validExecution (row : ExecutionRow) : Bool :=
  if row.status = .queued ∨ row.status = .running ∨ row.status = .needsAttention then
    (actionForExecution catalog row).isSome
  else true

/-- `INSERT INTO laborer_runtime_metadata … ON CONFLICT DO UPDATE`. -/
def registerRoot (db : RuntimeDatabase) : RuntimeDatabase :=
  let row := { rootIdentity := rootIdentity, catalogFingerprint := catalog.fingerprint }
  match db.metadata.insert row with
  | some metadata => { db with metadata := metadata }
  | none =>
    { db with
      metadata := db.metadata.modify rootIdentity
        (fun row => { row with catalogFingerprint := catalog.fingerprint }) fun _ => rfl }

def validateRootRegistration (db : RuntimeDatabase) : Except Failure RuntimeDatabase := do
  ensure (runtimeRootIdentity rootIdentity) .die
  ensure (db.metadata.rows.length ≤ 1 && db.metadata.rows.all (·.rootIdentity = rootIdentity)) .die
  ensure (db.conversations.rows.all validConversation) .die
  ensure (db.conversationEvents.rows.all (validConversationEvent platform db)) .die
  ensure (db.executionControls.rows.all (validControl platform db)) .die
  ensure (db.executions.rows.all (validExecution catalog)) .die
  return registerRoot catalog rootIdentity db

end Start

end Laborer.DurableRuntime
