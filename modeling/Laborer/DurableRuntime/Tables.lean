import Laborer.DurableRuntime.BoundedActionValue
import Laborer.DurableRuntime.Schemas
import Laborer.Library.Table
import Mathlib.Algebra.Order.Ring.Rat

/-!
# The tables of the durable runtime

The rows of the runtime's database and the values that its operations take and give.
-/

namespace Laborer.DurableRuntime

open Library

/-- `DurableRuntimeError['reason']`. -/
inductive RuntimeReason where
  | conflictingInvocation
  | conflictingControl
  | controlFailed
  | executionNotActive
  | executionNotFound
  | invalidPayload
  | incompatibleClient
  | conversationHandlerUnavailable
  | storageFailure
  | unsupportedControl
  | unavailableAction

inductive Failure where
  | runtimeError (reason : RuntimeReason)
  | die

/-! ## Executions -/

inductive ExecutionStatus where
  | queued
  | running
  | cancelling
  | completed
  | failed
  | cancelled
  | needsAttention
  deriving DecidableEq

def ExecutionStatus.text : ExecutionStatus → String
  | queued => "queued"
  | running => "running"
  | cancelling => "cancelling"
  | completed => "completed"
  | failed => "failed"
  | cancelled => "cancelled"
  | needsAttention => "needs-attention"

inductive FailureCategory where
  | actionFailed
  | invalidResult
  | needsAttention
  | unexpectedFailure
  deriving DecidableEq

def FailureCategory.text : FailureCategory → String
  | actionFailed => "action-failed"
  | invalidResult => "invalid-result"
  | needsAttention => "needs-attention"
  | unexpectedFailure => "unexpected-failure"

inductive ExecutionEventKind where
  | progress
  | completed
  | failed
  | cancelled
  deriving DecidableEq

def ExecutionEventKind.text : ExecutionEventKind → String
  | progress => "progress"
  | completed => "completed"
  | failed => "failed"
  | cancelled => "cancelled"

structure ExecutionRow where
  executionId : String
  invocationId : String
  conversationId : String
  actionName : String
  actionRevision : String
  actionFingerprint : String
  catalogFingerprint : String
  inputHash : String
  inputJson : JsonText
  status : ExecutionStatus
  acceptedAtUnixMs : ℕ
  resultJson : Option JsonText := none
  failureCategory : Option FailureCategory := none
  workspaceId : String

structure ExecutionEventRow where
  eventId : String
  executionId : String
  conversationId : String
  workspaceId : String
  sequence : ℕ
  kind : ExecutionEventKind
  payloadJson : JsonText

/-- A row of `laborer_execution_outbox`. The rows stand in the order of
`outbox_sequence`. -/
structure OutboxRow where
  eventId : String
  acknowledged : Bool

structure ExecutionEvent where
  conversationId : String
  eventId : String
  executionId : String
  kind : ExecutionEventKind
  payload : JsValue
  sequence : ℕ
  workspaceId : String

def ExecutionEvent.toValue (event : ExecutionEvent) : JsValue :=
  .obj [("conversationId", .str event.conversationId),
    ("eventId", .str event.eventId),
    ("executionId", .str event.executionId),
    ("kind", .str event.kind.text),
    ("payload", event.payload),
    ("sequence", .num event.sequence),
    ("workspaceId", .str event.workspaceId)]

/-- What `ExecutionEvent.make` and `decodeUnknownEffect(ExecutionEvent)` ask of an
event. -/
def ExecutionEvent.isValid (event : ExecutionEvent) : Bool :=
  (executionEventSchema event.toValue).isSome

theorem ExecutionEvent.isValid_iff (event : ExecutionEvent) : event.isValid = true ↔
    runtimeConversationId event.conversationId = true ∧ runtimeEventId event.eventId = true ∧
      runtimeExecutionId event.executionId = true ∧ (event.sequence < 2 ^ 53 ∧ 0 < event.sequence) ∧
          runtimeWorkspaceId event.workspaceId = true := by
  have hkind : event.kind.text = "progress" ∨ event.kind.text = "completed" ∨
      event.kind.text = "failed" ∨ event.kind.text = "cancelled" := by
    cases event.kind <;> simp [ExecutionEventKind.text]
  unfold isValid executionEventSchema toValue
  rw [Decoder.isSome_struct]
  simp [required, Decoder.Field.part, Decoder.string, Decoder.literals, Decoder.int,
    Decoder.unknown, List.lookup_cons, Decoder.isSafeInteger_nat, hkind]

theorem ExecutionEvent.isValid_payload (event : ExecutionEvent) (payload : JsValue) :
    ({ event with payload := payload } : ExecutionEvent).isValid = event.isValid := by
  rw [Bool.eq_iff_iff, isValid_iff, isValid_iff]

/-! ## Conversations -/

structure ConversationRow where
  conversationId : String
  workspaceId : String
  sessionId : String

inductive ConversationEventStatus where
  | accepted
  | running
  | failed
  | completed
  deriving DecidableEq

structure ConversationEventRow where
  eventId : String
  conversationId : String
  workspaceId : String
  sequence : ℕ
  requestHash : String
  eventJson : JsonText
  status : ConversationEventStatus
  outputsJson : Option JsonText := none

/-- What a conversation's workflow is started with. -/
structure ConversationWorkflowPayload where
  conversationId : String
  encodedEvent : JsonText
  eventId : String
  requestHash : String
  rootIdentity : String
  sequence : ℕ
  sessionId : String
  workspaceId : String

/-! ## Controls -/

inductive ControlKind where
  | inspect
  | followUp
  | cancel
  deriving DecidableEq

def ControlKind.text : ControlKind → String
  | inspect => "inspect"
  | followUp => "follow-up"
  | cancel => "cancel"

inductive ControlStatus where
  | accepted
  | completed
  | failed
  deriving DecidableEq

structure ControlRow where
  controlId : String
  executionId : String
  conversationId : String
  workspaceId : String
  sequence : ℕ
  kind : ControlKind
  requestHash : String
  resultJson : Option JsonText
  status : ControlStatus

/-- `InspectExecutionRequest`, `CancelExecutionRequest`, and `FollowUpExecutionRequest`
with its content. -/
structure ControlRequest where
  controlId : String
  conversationId : String
  executionId : String
  workspaceId : String
  content : Option String := none

def ControlRequest.toValue (request : ControlRequest) : JsValue :=
  .obj ([("controlId", .str request.controlId),
    ("conversationId", .str request.conversationId),
    ("executionId", .str request.executionId),
    ("workspaceId", .str request.workspaceId)] ++
      request.content.toList.map fun content => ("content", .str content))

/-- What decoding a request of a kind asks of it. -/
def ControlRequest.isValid (request : ControlRequest) (kind : ControlKind) : Bool :=
  runtimeControlId request.controlId && runtimeConversationId request.conversationId &&
    runtimeExecutionId request.executionId && runtimeWorkspaceId request.workspaceId &&
      match kind with
      | .followUp => request.content.any followUpContent
      | .inspect | .cancel => request.content.isNone

structure ExecutionControlReceipt where
  controlId : String
  deduplicated : Bool
  actionName : String
  actionRevision : String
  canCancel : Bool
  canFollowUp : Bool
  conversationId : String
  executionId : String
  status : ExecutionStatus
  workspaceId : String

def ExecutionControlReceipt.toValue (receipt : ExecutionControlReceipt) : JsValue :=
  .obj [("controlId", .str receipt.controlId),
    ("deduplicated", .bool receipt.deduplicated),
    ("execution", .obj [("actionName", .str receipt.actionName),
      ("actionRevision", .str receipt.actionRevision),
      ("canCancel", .bool receipt.canCancel),
      ("canFollowUp", .bool receipt.canFollowUp),
      ("conversationId", .str receipt.conversationId),
      ("executionId", .str receipt.executionId),
      ("status", .str receipt.status.text),
      ("workspaceId", .str receipt.workspaceId)])]

/-! ## The catalog -/

inductive RecoveryPolicy where
  | failClosed
  | idempotentRetry

/-- `ACTION_IDENTIFIER_PATTERN`, with the bounds of `validIdentifier`. -/
def validIdentifier (s : String) (maximumLength : ℕ) : Bool :=
  0 < s.length && jsLength s ≤ maximumLength &&
    (s.toList.all fun c => c.isAlphanum || c ∈ ['.', '_', '/', '-']) &&
      s.toList.head?.any Char.isAlphanum && s.toList.getLast?.any Char.isAlphanum

/-- What the runtime reads of a `RegisteredAction`. `defineAction` makes none whose name or
revision is not an identifier. -/
structure RegisteredAction where
  name : String
  revision : String
  fingerprint : String
  recoveryPolicy : RecoveryPolicy
  decodeInput : JsValue → Bool
  hasCancel : Bool
  hasFollowUp : Bool
  nameValid : validIdentifier name 96 = true
  revisionValid : validIdentifier revision 128 = true

structure RegisteredActionCatalog where
  actions : List RegisteredAction
  fingerprint : String

/-- `get(name, revision)`. -/
def RegisteredActionCatalog.get (catalog : RegisteredActionCatalog) (name : String)
    (revision : Option String) : Option RegisteredAction :=
  match catalog.actions.find? (·.name = name) with
  | none => none
  | some action =>
    if revision.all (· = action.revision) then some action else none

/-! ## The database -/

structure MetadataRow where
  rootIdentity : String
  catalogFingerprint : String

structure RuntimeDatabase where
  version : Option ℕ
  metadata : Table MetadataRow (·.rootIdentity)
  conversations : Table ConversationRow fun row => (row.workspaceId, row.conversationId)
  conversationEvents : Table ConversationEventRow fun row => (row.workspaceId, row.eventId)
  executions : Table ExecutionRow (·.executionId)
  executionEvents : Table ExecutionEventRow (·.eventId)
  executionControls : Table ControlRow fun row => (row.workspaceId, row.controlId)
  executionOutbox : Table OutboxRow (·.eventId)

def RuntimeDatabase.empty : RuntimeDatabase where
  version := none
  metadata := .empty
  conversations := .empty
  conversationEvents := .empty
  executions := .empty
  executionEvents := .empty
  executionControls := .empty
  executionOutbox := .empty

end Laborer.DurableRuntime
