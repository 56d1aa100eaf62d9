import Laborer.DurableRuntime.Tables
import Laborer.Library.Transactions

/-!
# The operations of the durable runtime

Each operation as the transactions it makes. An operation that fails in a transaction
leaves the database as it was; what it does between two transactions is in
`Laborer.DurableRuntime.Runtime`.
-/

namespace Laborer.DurableRuntime

open Library

section Operations

variable (platform : Platform)

/-! ## Bounded payloads -/

def runtimePayloadMaxBytes : ℕ := 64 * 1024

def runtimeExecutionEventPayloadMaxBytes : ℕ := 48 * 1024

def boundedJson (maximumBytes : ℕ) (payload : JsValue) : Except Failure JsonText :=
  match canonicalBoundedActionValue platform payload with
  | none => .error (.runtimeError .invalidPayload)
  | some encoded =>
    if JsValue.byteLength (encoded.chars platform) ≤ maximumBytes then .ok encoded
    else .error (.runtimeError .invalidPayload)

def boundedPayloadJson : JsValue → Except Failure JsonText :=
  boundedJson platform runtimePayloadMaxBytes

def boundedExecutionEventPayloadJson : JsValue → Except Failure JsonText :=
  boundedJson platform runtimeExecutionEventPayloadMaxBytes

def ensure (test : Bool) (failure : Failure) : Except Failure Unit :=
  if test then .ok () else .error failure

def insertRow {ρ κ : Type} {key : ρ → κ} [DecidableEq κ] (t : Table ρ key) (row : ρ) :
    Except Failure (Table ρ key) :=
  match t.insert row with
  | some t' => .ok t'
  | none => .error (.runtimeError .storageFailure)

def nextSequence (sequences : List ℕ) : ℕ :=
  sequences.foldr max 0 + 1

/-! ## Execution events -/

def nextEventSequence (db : RuntimeDatabase) (executionId : String) : ℕ :=
  nextSequence ((db.executionEvents.rows.filter (·.executionId = executionId)).map (·.sequence))

structure PersistEventOptions where
  conversationId : String
  executionId : String
  kind : ExecutionEventKind
  payload : JsValue
  progressId : Option String := none
  workspaceId : String

/-- The identity of an event that is reported once, if it is one. -/
def PersistEventOptions.stableEventId (options : PersistEventOptions) : Option String :=
  match options.progressId with
  | some progressId => some ("execution:" ++ options.executionId ++ ":progress:" ++
      platform.sha256 ("laborer-execution-progress-v1\x00".toList ++ progressId.toList))
  | none =>
    if options.kind = .progress then none
    else some ("execution:" ++ options.executionId ++ ":terminal")

/-- Store an event that was not reported before, with its entry in the outbox. -/
def insertEvent (options : PersistEventOptions) (eventId : String) (encodedPayload : JsonText)
    (db : RuntimeDatabase) : Except Failure (ExecutionEvent × RuntimeDatabase) := do
  let sequence := nextEventSequence db options.executionId
  let executionEvents ← insertRow db.executionEvents
    { eventId := eventId
      executionId := options.executionId
      conversationId := options.conversationId
      workspaceId := options.workspaceId
      sequence := sequence
      kind := options.kind
      payloadJson := encodedPayload }
  let executionOutbox ← insertRow db.executionOutbox { eventId := eventId, acknowledged := false }
  let event : ExecutionEvent :=
    { conversationId := options.conversationId
      eventId := eventId
      executionId := options.executionId
      kind := options.kind
      payload := options.payload
      sequence := sequence
      workspaceId := options.workspaceId }
  ensure event.isValid .die
  return (event, { db with executionEvents := executionEvents, executionOutbox := executionOutbox })

def persistEvent (options : PersistEventOptions) (db : RuntimeDatabase) :
    Except Failure (ExecutionEvent × RuntimeDatabase) := do
  let encodedPayload ← boundedExecutionEventPayloadJson platform options.payload
  match options.stableEventId platform with
  | none =>
    insertEvent options ("execution:" ++ options.executionId ++ ":event:" ++
      toString (nextEventSequence db options.executionId)) encodedPayload db
  | some eventId =>
    match db.executionEvents.find eventId with
    | none => insertEvent options eventId encodedPayload db
    | some existing =>
      ensure (existing.conversationId = options.conversationId &&
        existing.executionId = options.executionId && existing.kind = options.kind &&
          existing.payloadJson = encodedPayload &&
            existing.workspaceId = options.workspaceId) (.runtimeError .invalidPayload)
      let event : ExecutionEvent :=
        { conversationId := existing.conversationId
          eventId := eventId
          executionId := existing.executionId
          kind := existing.kind
          payload := options.payload
          sequence := existing.sequence
          workspaceId := existing.workspaceId }
      ensure event.isValid (.runtimeError .storageFailure)
      return (event, db)

/-! ## Delivery into the conversation -/

/-- `ExternalInputEvent.make` of an Execution event. -/
def applicationEventOf (event : ExecutionEvent) : JsValue :=
  .obj [("_tag", .str "ExternalInput"),
    ("conversationId", .str event.conversationId),
    ("eventId", .str event.eventId),
    ("payload", event.toValue),
    ("source", .str "registered-action")]

def conversationRequestHash (eventJson : JsonText) : String :=
  platform.sha256 ("laborer-conversation-request-v1\x00".toList ++ eventJson.chars platform)

def nextConversationSequence (db : RuntimeDatabase) (workspaceId conversationId : String) : ℕ :=
  nextSequence ((db.conversationEvents.rows.filter fun row =>
    row.conversationId = conversationId && row.workspaceId = workspaceId).map (·.sequence))

/-- The first transaction of `acceptExecutionEventIntoConversation`. It gives what the
workflow is started with, or nothing if the conversation is not registered. -/
def acceptExecutionEvent (rootIdentity : String) (event : ExecutionEvent) (db : RuntimeDatabase) :
    Except Failure (Option ConversationWorkflowPayload × RuntimeDatabase) := do
  ensure (externalInputEvent (applicationEventOf event)).isSome .die
  let eventJson ← boundedPayloadJson platform (applicationEventOf event)
  let requestHash := conversationRequestHash platform eventJson
  match db.conversations.find (event.workspaceId, event.conversationId) with
  | none => return (none, db)
  | some conversation =>
    let payload (sequence : ℕ) : ConversationWorkflowPayload :=
      { conversationId := event.conversationId
        encodedEvent := eventJson
        eventId := event.eventId
        requestHash := requestHash
        rootIdentity := rootIdentity
        sequence := sequence
        sessionId := conversation.sessionId
        workspaceId := event.workspaceId }
    match db.conversationEvents.find (event.workspaceId, event.eventId) with
    | some existing =>
      ensure (existing.conversationId = event.conversationId &&
        existing.eventJson = eventJson && existing.requestHash = requestHash)
          (.runtimeError .storageFailure)
      return (some (payload existing.sequence), db)
    | none =>
      let sequence := nextConversationSequence db event.workspaceId event.conversationId
      let conversationEvents ← insertRow db.conversationEvents
        { eventId := event.eventId
          conversationId := event.conversationId
          workspaceId := event.workspaceId
          sequence := sequence
          requestHash := requestHash
          eventJson := eventJson
          status := .accepted }
      return (some (payload sequence), { db with conversationEvents := conversationEvents })

/-- `UPDATE laborer_execution_outbox SET acknowledged = 1 WHERE event_id = …`. -/
def acknowledge (eventId : String) (db : RuntimeDatabase) : RuntimeDatabase :=
  { db with
    executionOutbox := db.executionOutbox.modify eventId
      (fun row => { row with acknowledged := true }) fun _ => rfl }

/-- `acceptExecutionEventIntoConversation`, where `execute` says which workflows the engine
takes. -/
def acceptExecutionEventIntoConversation (execute : ConversationWorkflowPayload → Bool)
    (rootIdentity : String) (event : ExecutionEvent) (db : RuntimeDatabase) :
    Except Failure Unit × RuntimeDatabase :=
  match transaction (acceptExecutionEvent platform rootIdentity event) db with
  | (.error failure, db) => (.error failure, db)
  | (.ok none, db) => (.ok (), db)
  | (.ok (some payload), db) =>
    if execute payload then (.ok (), acknowledge event.eventId db)
    else (.error .die, db)

def ExecutionEventRow.event (row : ExecutionEventRow) : ExecutionEvent where
  conversationId := row.conversationId
  eventId := row.eventId
  executionId := row.executionId
  kind := row.kind
  payload := row.payloadJson.parse
  sequence := row.sequence
  workspaceId := row.workspaceId

/-- The events in the outbox that wait for a registered conversation of a workspace, or for
the given one, the oldest first. -/
def pendingRows (db : RuntimeDatabase) (workspaceId : String) (conversationId : Option String) :
    List ExecutionEventRow :=
  ((db.executionOutbox.rows.filter fun outbox => !outbox.acknowledged).filterMap fun outbox =>
    db.executionEvents.find outbox.eventId).filter fun event =>
      event.workspaceId = workspaceId &&
        (db.conversations.find (event.workspaceId, event.conversationId)).isSome &&
          conversationId.all fun conversationId => event.conversationId = conversationId

def deliverRows (execute : ConversationWorkflowPayload → Bool) (rootIdentity : String) :
    List ExecutionEventRow → RuntimeDatabase → Except Failure Unit × RuntimeDatabase
  | [], db => (.ok (), db)
  | row :: rows, db =>
    if row.event.isValid then
      match acceptExecutionEventIntoConversation platform execute rootIdentity row.event db with
      | (.error failure, db) => (.error failure, db)
      | (.ok (), db) => deliverRows execute rootIdentity rows db
    else (.error (.runtimeError .storageFailure), db)

/-- `deliverPendingExecutionEvents`: batches of 128 while they are full. The number bounds
the batches; there are no more of them than pending events. -/
def deliverPendingExecutionEvents (execute : ConversationWorkflowPayload → Bool)
    (rootIdentity workspaceId : String) (conversationId : Option String) :
    ℕ → RuntimeDatabase → Option (Except Failure Unit × RuntimeDatabase)
  | 0, _ => none
  | batches + 1, db =>
    let rows := (pendingRows db workspaceId conversationId).take 128
    match deliverRows platform execute rootIdentity rows db with
    | (.error failure, db) => some (.error failure, db)
    | (.ok (), db) =>
      if rows.length = 128 then
        deliverPendingExecutionEvents execute rootIdentity workspaceId conversationId batches db
      else some (.ok (), db)

/-! ## Conversations -/

def conversationSessionId (rootIdentity conversationId workspaceId : String) : String :=
  "conversation:" ++ platform.sha256 ("laborer-conversation-session-v1\x00".toList ++
    rootIdentity.toList ++ "\x00".toList ++ workspaceId.toList ++ "\x00".toList ++
      conversationId.toList)

/-- `INSERT OR IGNORE INTO laborer_conversations`. The session is unique as well. -/
def registerConversation (rootIdentity conversationId workspaceId : String)
    (db : RuntimeDatabase) : RuntimeDatabase :=
  let sessionId := conversationSessionId platform rootIdentity conversationId workspaceId
  if db.conversations.rows.any (·.sessionId = sessionId) then db
  else
    match db.conversations.insert
      { conversationId := conversationId, workspaceId := workspaceId, sessionId := sessionId } with
    | some conversations => { db with conversations := conversations }
    | none => db

/-- The first step of the public `registerConversation`. -/
def registerConversationPublicly (rootIdentity conversationId workspaceId : String)
    (db : RuntimeDatabase) : Except Failure (Unit × RuntimeDatabase) := do
  ensure (runtimeConversationId conversationId) (.runtimeError .invalidPayload)
  ensure (runtimeWorkspaceId workspaceId) (.runtimeError .invalidPayload)
  return ((), registerConversation platform rootIdentity conversationId workspaceId db)

structure RunConversationRequest where
  event : JsValue
  rootIdentity : String
  workspaceId : String

/-- The transaction of `runConversation`. -/
def acceptConversationEvent (rootIdentity workspaceId : String) (event : JsValue)
    (eventJson : JsonText) (db : RuntimeDatabase) :
    Except Failure (ConversationWorkflowPayload × RuntimeDatabase) := do
  let eventId := applicationEventId event
  let conversationId := stringMember "conversationId" event
  let requestHash := conversationRequestHash platform eventJson
  let sessionId := conversationSessionId platform rootIdentity conversationId workspaceId
  let db := registerConversation platform rootIdentity conversationId workspaceId db
  ensure ((db.conversations.find (workspaceId, conversationId)).any (·.sessionId = sessionId))
    (.runtimeError .storageFailure)
  let payload (sequence : ℕ) : ConversationWorkflowPayload :=
    { conversationId := conversationId
      encodedEvent := eventJson
      eventId := eventId
      requestHash := requestHash
      rootIdentity := rootIdentity
      sequence := sequence
      sessionId := sessionId
      workspaceId := workspaceId }
  match db.conversationEvents.find (workspaceId, eventId) with
  | some existing =>
    ensure (existing.conversationId = conversationId && existing.requestHash = requestHash &&
      existing.eventJson = eventJson) (.runtimeError .storageFailure)
    return (payload existing.sequence, db)
  | none =>
    let sequence := nextConversationSequence db workspaceId conversationId
    let conversationEvents ← insertRow db.conversationEvents
      { eventId := eventId
        conversationId := conversationId
        workspaceId := workspaceId
        sequence := sequence
        requestHash := requestHash
        eventJson := eventJson
        status := .accepted }
    return (payload sequence, { db with conversationEvents := conversationEvents })

def runConversation (rootIdentity : String) (request : RunConversationRequest)
    (db : RuntimeDatabase) : Except Failure (ConversationWorkflowPayload × RuntimeDatabase) := do
  ensure (runtimeRootIdentity request.rootIdentity && runtimeWorkspaceId request.workspaceId)
    (.runtimeError .invalidPayload)
  match participantInputEvent request.event with
  | none => .error (.runtimeError .invalidPayload)
  | some event =>
    ensure (request.rootIdentity = rootIdentity) (.runtimeError .invalidPayload)
    let eventJson ← boundedPayloadJson platform event
    acceptConversationEvent platform rootIdentity request.workspaceId event eventJson db

/-! ## The workflow of a conversation -/

/-- `SET status = 'running' WHERE status = 'accepted'`. -/
def ConversationEventRow.start (row : ConversationEventRow) : ConversationEventRow :=
  if row.status = .accepted then { row with status := .running } else row

/-- The row when the handler has answered, with the outputs or without. A workflow whose
event is settled does not ask the handler. -/
def ConversationEventRow.finish (outputsJson : Option JsonText) (row : ConversationEventRow) :
    ConversationEventRow :=
  if row.status = .accepted ∨ row.status = .running then
    match outputsJson with
    | some outputsJson => { row with status := .completed, outputsJson := some outputsJson }
    | none => { row with status := .failed }
  else row

@[simp] theorem ConversationEventRow.start_key (row : ConversationEventRow) :
    (row.start.workspaceId, row.start.eventId) = (row.workspaceId, row.eventId) := by
  unfold start
  split <;> rfl

@[simp] theorem ConversationEventRow.finish_key (outputsJson : Option JsonText)
    (row : ConversationEventRow) : ((row.finish outputsJson).workspaceId,
      (row.finish outputsJson).eventId) = (row.workspaceId, row.eventId) := by
  unfold finish
  split
  · cases outputsJson <;> rfl
  · rfl

def startConversationEvent (workspaceId eventId : String) (db : RuntimeDatabase) :
    RuntimeDatabase :=
  { db with
    conversationEvents := db.conversationEvents.modify (workspaceId, eventId)
      ConversationEventRow.start ConversationEventRow.start_key }

/-- The text of what a handler gave, if it is a list of outputs that is not too large. -/
def encodeOutputs (outputs : JsValue) : Option JsonText :=
  (Decoder.array conversationOutput outputs).bind fun outputs =>
    (boundedPayloadJson platform outputs).toOption

/-- The workflow of an event ends with what the handler gave, if it gave anything. -/
def finishConversationEvent (workspaceId eventId : String) (outputs : Option JsValue)
    (db : RuntimeDatabase) : RuntimeDatabase :=
  { db with
    conversationEvents := db.conversationEvents.modify (workspaceId, eventId)
      (ConversationEventRow.finish (outputs.bind (encodeOutputs platform)))
      (ConversationEventRow.finish_key (outputs.bind (encodeOutputs platform))) }

end Operations

end Laborer.DurableRuntime
