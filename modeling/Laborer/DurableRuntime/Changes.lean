import Laborer.DurableRuntime.CanonicalValue
import Laborer.DurableRuntime.Runtime

/-!
# What an operation changes

Every transaction of the runtime is a sequence of a few kinds of changes. What holds of
the database whatever the runtime does is proved for each kind of change.
-/

namespace Laborer.DurableRuntime

open Library List Table Bool

/-! ## Kinds of changes -/

def ExecutionStatus.next : ExecutionStatus → List ExecutionStatus
  | queued => [running, failed, needsAttention]
  | running => [completed, failed, needsAttention, cancelling]
  | cancelling => [running, cancelled, failed, needsAttention]
  | completed | failed | cancelled | needsAttention => []

/-- An Execution that has ended reports nothing more than its end. -/
def ExecutionStatus.ended (status : ExecutionStatus) : Bool :=
  status.next.isEmpty

/-- The kind of the event that reports the end of an Execution. -/
def ExecutionStatus.terminalKind : ExecutionStatus → Option ExecutionEventKind
  | completed => some .completed
  | failed | needsAttention => some .failed
  | cancelled => some .cancelled
  | queued | running | cancelling => none

@[simp] theorem ExecutionStatus.isSome_terminalKind (status : ExecutionStatus) :
    status.terminalKind.isSome = status.ended := by
  cases status <;> rfl

theorem ExecutionStatus.terminalKind_ne_progress (status : ExecutionStatus) :
    status.terminalKind ≠ some .progress := by
  cases status <;> simp [terminalKind]

/-- An event is a progress report, or reports the end that its Execution came to. -/
def PersistEventOptions.Agrees (options : PersistEventOptions) (status : ExecutionStatus) : Prop :=
  match options.progressId with
  | some _ => options.kind = .progress
  | none => status.terminalKind = some options.kind

/-- The Execution of a request is the client's. -/
def Owned (db : RuntimeDatabase) (request : ControlRequest) : Prop :=
  ∃ row, db.executions.find request.executionId = some row ∧
    row.conversationId = request.conversationId ∧ row.workspaceId = request.workspaceId

def Held (platform : Platform) (db : RuntimeDatabase) (event : ExecutionEvent) : Prop :=
  ∃ row ∈ db.executionEvents.rows,
    event = { row.event with payload := event.payload } ∧
      IsCanonicalizable platform event.payload ∧
        row.payloadJson = canonicalText platform event.payload

def moveExecution (executionId : String) (status : ExecutionStatus) (resultJson : Option JsonText)
    (failureCategory : Option FailureCategory) (db : RuntimeDatabase) : RuntimeDatabase :=
  (updateExecution executionId (fun _ => true) status resultJson failureCategory db).2

/-- What only some steps do. -/
inductive Permission where
  /-- A follow-up is set to failed that was completed before. -/
  | failFollowUp
  /-- An event is acknowledged in the outbox. -/
  | acknowledge (eventId : String)
  /-- An event is accepted into its conversation. -/
  | deliver (event : ExecutionEvent)
  /-- An event of a conversation is answered. -/
  | answer

/-- A change that a transaction makes, where `permitted` is what it may do of what only some
steps do. -/
inductive Change (platform : Platform) (catalog : RegisteredActionCatalog) (rootIdentity : String)
    (permitted : Permission → Prop) : RuntimeDatabase → RuntimeDatabase → Prop
  | insertedExecution {db : RuntimeDatabase} {row : ExecutionRow} {executions}
      (hid : ∃ invocationId, row.executionId =
        executionIdOf platform rootIdentity row.workspaceId invocationId)
      (hqueued : row.status = .queued)
      (haction : (actionForExecution catalog row).isSome = true)
      (hinsert : db.executions.insert row = some executions) :
      Change platform catalog rootIdentity permitted db { db with executions := executions }
  | movedExecution {db : RuntimeDatabase} {executionId : String} {row : ExecutionRow}
      {status : ExecutionStatus} {resultJson : Option JsonText}
      {failureCategory : Option FailureCategory}
      (hfind : db.executions.find executionId = some row) (hnext : status ∈ row.status.next) :
      Change platform catalog rootIdentity permitted db
        (moveExecution executionId status resultJson failureCategory db)
  | reported {db db' : RuntimeDatabase} {options : PersistEventOptions} {eventId : String}
      {encodedPayload : JsonText} {event : ExecutionEvent} {row : ExecutionRow}
      (hstable : options.stableEventId platform = some eventId)
      (hfind : db.executions.find options.executionId = some row)
      (hagrees : options.Agrees row.status)
      (hpayload : boundedExecutionEventPayloadJson platform options.payload = .ok encodedPayload)
      (hinsert : insertEvent options eventId encodedPayload db = .ok (event, db')) :
      Change platform catalog rootIdentity permitted db db'
  | acknowledged {db : RuntimeDatabase} (eventId : String)
      (hpermitted : permitted (.acknowledge eventId)) :
      Change platform catalog rootIdentity permitted db (acknowledge eventId db)
  | registered {db : RuntimeDatabase} {conversationId workspaceId : String}
      (hconversation : runtimeConversationId conversationId = true)
      (hworkspace : runtimeWorkspaceId workspaceId = true) :
      Change platform catalog rootIdentity permitted db
        (registerConversation platform rootIdentity conversationId workspaceId db)
  | ran {db db' : RuntimeDatabase} {request : RunConversationRequest}
      {payload : ConversationWorkflowPayload}
      (h : runConversation platform rootIdentity request db = .ok (payload, db')) :
      Change platform catalog rootIdentity permitted db db'
  | delivered {db db' : RuntimeDatabase} {event : ExecutionEvent}
      {payload : Option ConversationWorkflowPayload} (hheld : Held platform db event)
      (h : acceptExecutionEvent platform rootIdentity event db = .ok (payload, db'))
      (hpermitted : permitted (.deliver event)) :
      Change platform catalog rootIdentity permitted db db'
  | startedConversationEvent {db : RuntimeDatabase} (workspaceId eventId : String)
      (hpermitted : permitted .answer) :
      Change platform catalog rootIdentity permitted db
        (startConversationEvent workspaceId eventId db)
  | finishedConversationEvent {db : RuntimeDatabase} (workspaceId eventId : String)
      (outputs : Option JsValue) (hpermitted : permitted .answer) :
      Change platform catalog rootIdentity permitted db
        (finishConversationEvent platform workspaceId eventId outputs db)
  | insertedControl {db db' : RuntimeDatabase} {kind : ControlKind} {request : ControlRequest}
      {requestHash : String} {resultJson : Option JsonText} {status : ControlStatus}
      (hvalid : request.isValid kind = true) (howned : Owned db request)
      (hhash : controlRequestHash platform kind request = .ok requestHash)
      (hresult : (status = .accepted ∧ resultJson = none) ∨
        (status = .completed ∧ ∃ row receipt json, ownedExecutionRow request db = .ok row ∧
          controlReceipt catalog request.controlId row = .ok receipt ∧
            boundedPayloadJson platform receipt.toValue = .ok json ∧ resultJson = some json))
      (hinsert : insertControl kind request requestHash resultJson status db = .ok db') :
      Change platform catalog rootIdentity permitted db db'
  | completedControl {db db' : RuntimeDatabase} {request : ControlRequest}
      (h : completeControl platform catalog request db = .ok ((), db')) :
      Change platform catalog rootIdentity permitted db db'
  | failedControl {db : RuntimeDatabase} (request : ControlRequest) :
      Change platform catalog rootIdentity permitted db
        (updateControl request (·.status = .accepted) .failed none db)
  | failedAccepted {db : RuntimeDatabase} :
      Change platform catalog rootIdentity permitted db (failAcceptedControls db)
  | initialized {db : RuntimeDatabase} : Change platform catalog rootIdentity permitted db
      { db with version := some runtimeSchemaVersion }
  | registeredRoot {db : RuntimeDatabase} : Change platform catalog rootIdentity permitted db
      (registerRoot catalog rootIdentity db)
  | failedFollowUp {db : RuntimeDatabase} (request : ControlRequest)
      (hpermitted : permitted .failFollowUp) :
      Change platform catalog rootIdentity permitted db (failFollowUp request db)

abbrev Changes (platform : Platform) (catalog : RegisteredActionCatalog) (rootIdentity : String)
    (permitted : Permission → Prop) : RuntimeDatabase → RuntimeDatabase → Prop :=
  Relation.ReflTransGen (Change platform catalog rootIdentity permitted)

section Inversion

variable {platform : Platform} {catalog : RegisteredActionCatalog} {root : String}
  {permitted : Permission → Prop} {db db' : RuntimeDatabase} {event : ExecutionEvent}
  {request : ControlRequest}

/-! ## The parts of an operation -/

@[simp] theorem ensure_eq_ok {test : Bool} {failure : Failure} {u : Unit} :
    ensure test failure = .ok u ↔ test = true := by
  unfold ensure
  split <;> simp_all

theorem insertRow_eq_ok {ρ κ : Type} {key : ρ → κ} [DecidableEq κ] {t t' : Table ρ key} {row : ρ} :
    insertRow t row = .ok t' ↔ t.insert row = some t' := by
  unfold insertRow
  split
  · next h => rw [h, Except.ok.injEq, Option.some.injEq]
  · next h => simp [h]

theorem boundedJson_eq_ok {maximumBytes : ℕ} {payload : JsValue} {text : JsonText}
    (hmaximum : maximumBytes ≤ actionCanonicalMaxBytes) :
    boundedJson platform maximumBytes payload = .ok text ↔
      (IsCanonicalizable platform payload ∧ payload.height ≤ actionCanonicalMaxDepth ∧
          payload.size ≤ actionCanonicalMaxItems ∧
            canonicalLength platform payload ≤ maximumBytes) ∧
        text = canonicalText platform payload := by
  have hspec : ∀ text, canonicalBoundedActionValue platform payload = some text ↔ _ :=
    fun text => canonicalBoundedActionValue_eq_some
  simp only [byteLength_canonicalText] at hspec
  unfold boundedJson
  split
  · next hnone =>
    constructor
    · intro h
      cases h
    · rintro ⟨⟨hok, hheight, hsize, hbytes⟩, rfl⟩
      rw [(hspec _).mpr ⟨⟨hok, hheight, hsize, by omega⟩, rfl⟩] at hnone
      cases hnone
  · next encoded hsome =>
    obtain ⟨⟨hok, hheight, hsize, -⟩, rfl⟩ := (hspec _).mp hsome
    rw [byteLength_canonicalText]
    split
    · next hshort =>
      rw [Except.ok.injEq]
      constructor
      · rintro rfl
        exact ⟨⟨hok, hheight, hsize, hshort⟩, rfl⟩
      · rintro ⟨-, rfl⟩
        rfl
    · next hlong =>
      constructor
      · intro h
        cases h
      · rintro ⟨⟨-, -, -, hbytes⟩, -⟩
        exact absurd hbytes hlong

theorem updateExecution_cases (eid : String) (p : ExecutionRow → Bool)
    (status : ExecutionStatus) (resultJson : Option JsonText)
    (failureCategory : Option FailureCategory) (db : RuntimeDatabase) :
    updateExecution eid p status resultJson failureCategory db = (0, db) ∨
      ∃ row, db.executions.find eid = some row ∧ p row = true ∧
        updateExecution eid p status resultJson failureCategory db =
          (1, moveExecution eid status resultJson failureCategory db) := by
  unfold moveExecution updateExecution updateWhere
  cases hfind : db.executions.find eid with
  | none => exact .inl rfl
  | some row =>
    cases hp : p row with
    | false => exact .inl (by simp [hp])
    | true => exact .inr ⟨row, rfl, hp, by simp [hp]⟩

theorem find_moveExecution {eid : String} (status : ExecutionStatus)
    (resultJson : Option JsonText) (failureCategory : Option FailureCategory) {row : ExecutionRow}
    (hfind : db.executions.find eid = some row) (id : String) :
    (moveExecution eid status resultJson failureCategory db).executions.find id =
      if id = eid then
        some { row with
          status := status
          resultJson := resultJson.or row.resultJson
          failureCategory := failureCategory.or row.failureCategory }
      else db.executions.find id := by
  unfold moveExecution updateExecution updateWhere
  simp [hfind]

theorem insertEvent_eq_ok {options : PersistEventOptions} {eventId : String}
    {encodedPayload : JsonText}
    (h : insertEvent options eventId encodedPayload db = .ok (event, db')) :
    ∃ executionEvents executionOutbox,
      db.executionEvents.insert
          { eventId := eventId
            executionId := options.executionId
            conversationId := options.conversationId
            workspaceId := options.workspaceId
            sequence := nextEventSequence db options.executionId
            kind := options.kind
            payloadJson := encodedPayload } = some executionEvents ∧
        db.executionOutbox.insert { eventId := eventId, acknowledged := false } =
            some executionOutbox ∧
          event =
              { conversationId := options.conversationId
                eventId := eventId
                executionId := options.executionId
                kind := options.kind
                payload := options.payload
                sequence := nextEventSequence db options.executionId
                workspaceId := options.workspaceId } ∧
            event.isValid = true ∧
              db' = { db with
                executionEvents := executionEvents
                executionOutbox := executionOutbox } := by
  unfold insertEvent at h
  obtain ⟨executionEvents, hevents, h⟩ := bind_eq_ok.mp h
  obtain ⟨executionOutbox, houtbox, h⟩ := bind_eq_ok.mp h
  obtain ⟨_, hvalid, h⟩ := bind_eq_ok.mp h
  cases h
  exact ⟨_, _, insertRow_eq_ok.mp hevents, insertRow_eq_ok.mp houtbox, rfl,
    ensure_eq_ok.mp hvalid, rfl⟩

theorem acceptExecutionEvent_eq_ok {payload : Option ConversationWorkflowPayload}
    (h : acceptExecutionEvent platform root event db = .ok (payload, db')) :
    ∃ eventJson, boundedPayloadJson platform (applicationEventOf event) = .ok eventJson ∧
      ((db.conversations.find (event.workspaceId, event.conversationId) = none ∧
          payload = none ∧ db' = db) ∨
        ((db.conversations.find (event.workspaceId, event.conversationId)).isSome = true ∧
          payload.isSome = true ∧
            ((∃ existing, db.conversationEvents.find (event.workspaceId, event.eventId) =
                  some existing ∧
                existing.conversationId = event.conversationId ∧ existing.eventJson = eventJson ∧
                  existing.requestHash = conversationRequestHash platform eventJson ∧ db' = db) ∨
              ∃ conversationEvents, db.conversationEvents.insert
                  { eventId := event.eventId
                    conversationId := event.conversationId
                    workspaceId := event.workspaceId
                    sequence := nextConversationSequence db event.workspaceId event.conversationId
                    requestHash := conversationRequestHash platform eventJson
                    eventJson := eventJson
                    status := .accepted } = some conversationEvents ∧
                db' = { db with conversationEvents := conversationEvents }))) := by
  unfold acceptExecutionEvent at h
  obtain ⟨_, -, h⟩ := bind_eq_ok.mp h
  obtain ⟨eventJson, hjson, h⟩ := bind_eq_ok.mp h
  refine ⟨eventJson, hjson, ?_⟩
  dsimp only at h
  cases hconversation : db.conversations.find (event.workspaceId, event.conversationId) with
  | none =>
    rw [hconversation] at h
    cases h
    exact .inl ⟨rfl, rfl, rfl⟩
  | some conversation =>
    rw [hconversation] at h
    right
    refine ⟨rfl, ?_⟩
    cases hexisting : db.conversationEvents.find (event.workspaceId, event.eventId) with
    | some existing =>
      rw [hexisting] at h
      obtain ⟨_, hsame, h⟩ := bind_eq_ok.mp h
      cases h
      simp only [ensure_eq_ok, and_eq_true, decide_eq_true_eq] at hsame
      exact ⟨rfl, .inl ⟨existing, rfl, hsame.1.1, hsame.1.2, hsame.2, rfl⟩⟩
    | none =>
      rw [hexisting] at h
      obtain ⟨conversationEvents, hinsert, h⟩ := bind_eq_ok.mp h
      cases h
      exact ⟨rfl, .inr ⟨_, insertRow_eq_ok.mp hinsert, rfl⟩⟩

theorem runConversation_eq_ok {request : RunConversationRequest}
    {payload : ConversationWorkflowPayload}
    (h : runConversation platform root request db = .ok (payload, db')) :
    ∃ event eventJson, participantInputEvent request.event = some event ∧
      boundedPayloadJson platform event = .ok eventJson ∧
        runtimeWorkspaceId request.workspaceId = true ∧
          let registered := registerConversation platform root
            (stringMember "conversationId" event) request.workspaceId db
          (registered.conversations.find
              (request.workspaceId, stringMember "conversationId" event)).isSome = true ∧
            (db' = registered ∨ ∃ conversationEvents, registered.conversationEvents.insert
                { eventId := applicationEventId event
                  conversationId := stringMember "conversationId" event
                  workspaceId := request.workspaceId
                  sequence := nextConversationSequence registered request.workspaceId
                    (stringMember "conversationId" event)
                  requestHash := conversationRequestHash platform eventJson
                  eventJson := eventJson
                  status := .accepted } = some conversationEvents ∧
              db' = { registered with conversationEvents := conversationEvents }) := by
  unfold runConversation at h
  obtain ⟨_, hvalid, h⟩ := bind_eq_ok.mp h
  simp only [ensure_eq_ok, and_eq_true] at hvalid
  cases hevent : participantInputEvent request.event with
  | none =>
    rw [hevent] at h
    cases h
  | some event =>
    rw [hevent] at h
    obtain ⟨_, -, h⟩ := bind_eq_ok.mp h
    obtain ⟨eventJson, hjson, h⟩ := bind_eq_ok.mp h
    refine ⟨event, eventJson, rfl, hjson, hvalid.2, ?_⟩
    unfold acceptConversationEvent at h
    dsimp only at h ⊢
    obtain ⟨_, hsession, h⟩ := bind_eq_ok.mp h
    rw [ensure_eq_ok] at hsession
    constructor
    · cases hfind : (registerConversation platform root (stringMember "conversationId" event)
        request.workspaceId db).conversations.find
          (request.workspaceId, stringMember "conversationId" event) with
      | none =>
        rw [hfind] at hsession
        cases hsession
      | some conversation => rfl
    · cases hexisting : (registerConversation platform root
        (stringMember "conversationId" event) request.workspaceId db).conversationEvents.find
          (request.workspaceId, applicationEventId event) with
      | some existing =>
        rw [hexisting] at h
        obtain ⟨_, -, h⟩ := bind_eq_ok.mp h
        cases h
        exact .inl rfl
      | none =>
        rw [hexisting] at h
        obtain ⟨conversationEvents, hinsert, h⟩ := bind_eq_ok.mp h
        cases h
        exact .inr ⟨_, insertRow_eq_ok.mp hinsert, rfl⟩

theorem insertControl_eq_ok {kind : ControlKind} {requestHash : String}
    {resultJson : Option JsonText} {status : ControlStatus}
    (h : insertControl kind request requestHash resultJson status db = .ok db') :
    ∃ executionControls, db.executionControls.insert
        { controlId := request.controlId
          executionId := request.executionId
          conversationId := request.conversationId
          workspaceId := request.workspaceId
          sequence := nextControlSequence db request.executionId
          kind := kind
          requestHash := requestHash
          resultJson := resultJson
          status := status } = some executionControls ∧
      db' = { db with executionControls := executionControls } := by
  unfold insertControl at h
  obtain ⟨executionControls, hinsert, h⟩ := bind_eq_ok.mp h
  cases h
  exact ⟨_, insertRow_eq_ok.mp hinsert, rfl⟩

theorem completeControl_eq_ok (h : completeControl platform catalog request db = .ok ((), db')) :
    ∃ row receipt resultJson, ownedExecutionRow request db = .ok row ∧
      controlReceipt catalog request.controlId row = .ok receipt ∧
        boundedPayloadJson platform receipt.toValue = .ok resultJson ∧
          db' = updateControl request (·.status = .accepted) .completed (some resultJson) db := by
  obtain ⟨row, hrow, h⟩ := bind_eq_ok.mp h
  obtain ⟨receipt, hreceipt, h⟩ := bind_eq_ok.mp h
  obtain ⟨resultJson, hjson, h⟩ := bind_eq_ok.mp h
  cases h
  exact ⟨row, receipt, resultJson, hrow, hreceipt, hjson, rfl⟩

/-! ## Ownership lasts -/

/-- What later changes keep: Executions stay with their conversations, and what was
reported stays. -/
def Extends (db db' : RuntimeDatabase) : Prop :=
  (∀ executionId row, db.executions.find executionId = some row →
      ∃ row', db'.executions.find executionId = some row' ∧
        row'.conversationId = row.conversationId ∧ row'.workspaceId = row.workspaceId) ∧
    ∀ row ∈ db.executionEvents.rows, row ∈ db'.executionEvents.rows

theorem Extends.refl (db : RuntimeDatabase) : Extends db db :=
  ⟨fun _ row h => ⟨row, h, rfl, rfl⟩, fun _ h => h⟩

theorem Extends.trans {db'' : RuntimeDatabase} (h : Extends db db') (h' : Extends db' db'') :
    Extends db db'' := by
  constructor
  · intro eid row hfind
    obtain ⟨row', hfind', hconversation, hworkspace⟩ := h.1 eid row hfind
    obtain ⟨row'', hfind'', hconversation', hworkspace'⟩ := h'.1 eid row' hfind'
    exact ⟨row'', hfind'', hconversation'.trans hconversation, hworkspace'.trans hworkspace⟩
  · exact fun row hrow => h'.2 row (h.2 row hrow)

theorem Owned.mono (h : Owned db request) (hdb : Extends db db') : Owned db' request := by
  obtain ⟨row, hfind, hconversation, hworkspace⟩ := h
  obtain ⟨row', hfind', hconversation', hworkspace'⟩ := hdb.1 _ row hfind
  exact ⟨row', hfind', hconversation'.trans hconversation, hworkspace'.trans hworkspace⟩

theorem Held.mono (h : Held platform db event) (hdb : Extends db db') :
    Held platform db' event := by
  obtain ⟨row, hrow, h⟩ := h
  exact ⟨row, hdb.2 row hrow, h⟩

theorem extends_of_eq (hexecutions : db'.executions = db.executions)
    (hevents : db'.executionEvents = db.executionEvents) : Extends db db' := by
  unfold Extends
  rw [hexecutions, hevents]
  exact Extends.refl db

theorem registerConversation_eq (platform : Platform)
    (root conversationId wid : String) (db : RuntimeDatabase) :
    ∃ conversations, registerConversation platform root conversationId wid db =
      { db with conversations := conversations } := by
  unfold registerConversation
  dsimp only
  split
  · exact ⟨db.conversations, rfl⟩
  · split
    · exact ⟨_, rfl⟩
    · exact ⟨db.conversations, rfl⟩

theorem registerRoot_eq (catalog : RegisteredActionCatalog) (root : String)
    (db : RuntimeDatabase) :
    ∃ metadata, registerRoot catalog root db = { db with metadata := metadata } := by
  unfold registerRoot
  dsimp only
  split
  · exact ⟨_, rfl⟩
  · exact ⟨_, rfl⟩

theorem runConversation_frame {request : RunConversationRequest}
    {payload : ConversationWorkflowPayload}
    (h : runConversation platform root request db = .ok (payload, db')) :
    ∃ conversations conversationEvents, db' =
      { db with conversations := conversations, conversationEvents := conversationEvents } := by
  obtain ⟨event, eventJson, -, -, -, h⟩ := runConversation_eq_ok h
  obtain ⟨conversations, hregistered⟩ := registerConversation_eq platform root
    (stringMember "conversationId" event) request.workspaceId db
  rw [hregistered] at h
  rcases h.2 with rfl | ⟨rows, -, rfl⟩
  · exact ⟨conversations, db.conversationEvents, rfl⟩
  · exact ⟨conversations, rows, rfl⟩

theorem acceptExecutionEvent_frame {payload : Option ConversationWorkflowPayload}
    (h : acceptExecutionEvent platform root event db = .ok (payload, db')) :
    ∃ conversationEvents, db' = { db with conversationEvents := conversationEvents } := by
  obtain ⟨eventJson, -, ⟨-, -, rfl⟩ | ⟨-, -, ⟨existing, -, -, -, -, rfl⟩ | ⟨rows, -, rfl⟩⟩⟩ :=
    acceptExecutionEvent_eq_ok h
  · exact ⟨db'.conversationEvents, rfl⟩
  · exact ⟨db'.conversationEvents, rfl⟩
  · exact ⟨rows, rfl⟩

theorem Change.executions_cases (h : Change platform catalog root permitted db db') :
    db'.executions = db.executions ∨
      (∃ row, (∃ invocationId, row.executionId =
            executionIdOf platform root row.workspaceId invocationId) ∧
          row.status = .queued ∧ (actionForExecution catalog row).isSome = true ∧
            db.executions.insert row = some db'.executions) ∨
        ∃ eid row status resultJson failureCategory,
          db.executions.find eid = some row ∧ status ∈ row.status.next ∧
            db' = moveExecution eid status resultJson failureCategory db := by
  cases h with
  | insertedExecution hid hqueued haction hinsert =>
    exact .inr (.inl ⟨_, hid, hqueued, haction, hinsert⟩)
  | movedExecution hfind hnext => exact .inr (.inr ⟨_, _, _, _, _, hfind, hnext, rfl⟩)
  | registered =>
    obtain ⟨conversations, heq⟩ := registerConversation_eq _ _ _ _ _
    rw [heq]
    exact .inl rfl
  | ran h =>
    obtain ⟨conversations, conversationEvents, rfl⟩ := runConversation_frame h
    exact .inl rfl
  | delivered hheld h =>
    obtain ⟨conversationEvents, rfl⟩ := acceptExecutionEvent_frame h
    exact .inl rfl
  | reported hstable hfind hagrees hpayload hinsert =>
    obtain ⟨events, outbox, -, -, -, -, rfl⟩ := insertEvent_eq_ok hinsert
    exact .inl rfl
  | insertedControl hvalid howned hhash hresult hinsert =>
    obtain ⟨rows, -, rfl⟩ := insertControl_eq_ok hinsert
    exact .inl rfl
  | completedControl h =>
    obtain ⟨control, receipt, resultJson, -, -, -, rfl⟩ := completeControl_eq_ok h
    exact .inl rfl
  | registeredRoot =>
    obtain ⟨metadata, heq⟩ := registerRoot_eq _ _ _
    rw [heq]
    exact .inl rfl
  | _ => exact .inl rfl

theorem Change.events_cases (h : Change platform catalog root permitted db db') :
    (db'.executionEvents = db.executionEvents ∧ db'.executionOutbox = db.executionOutbox) ∨
      (∃ eventId, permitted (.acknowledge eventId) ∧ db' = acknowledge eventId db) ∨
        ∃ options eventId encodedPayload event row,
          options.stableEventId platform = some eventId ∧
            db.executions.find options.executionId = some row ∧ options.Agrees row.status ∧
              boundedExecutionEventPayloadJson platform options.payload = .ok encodedPayload ∧
                insertEvent options eventId encodedPayload db = .ok (event, db') := by
  cases h with
  | acknowledged eventId hpermitted => exact .inr (.inl ⟨eventId, hpermitted, rfl⟩)
  | reported hstable hfind hagrees hpayload hinsert =>
    exact .inr (.inr ⟨_, _, _, _, _, hstable, hfind, hagrees, hpayload, hinsert⟩)
  | registered =>
    obtain ⟨conversations, heq⟩ := registerConversation_eq _ _ _ _ _
    rw [heq]
    exact .inl ⟨rfl, rfl⟩
  | ran h =>
    obtain ⟨conversations, conversationEvents, rfl⟩ := runConversation_frame h
    exact .inl ⟨rfl, rfl⟩
  | delivered hheld h =>
    obtain ⟨conversationEvents, rfl⟩ := acceptExecutionEvent_frame h
    exact .inl ⟨rfl, rfl⟩
  | insertedControl hvalid howned hhash hresult hinsert =>
    obtain ⟨rows, -, rfl⟩ := insertControl_eq_ok hinsert
    exact .inl ⟨rfl, rfl⟩
  | completedControl h =>
    obtain ⟨control, receipt, resultJson, -, -, -, rfl⟩ := completeControl_eq_ok h
    exact .inl ⟨rfl, rfl⟩
  | registeredRoot =>
    obtain ⟨metadata, heq⟩ := registerRoot_eq _ _ _
    rw [heq]
    exact .inl ⟨rfl, rfl⟩
  | _ => exact .inl ⟨rfl, rfl⟩

theorem Change.extends (h : Change platform catalog root permitted db db') : Extends db db' := by
  constructor
  · intro eid row hrow
    rcases h.executions_cases with heq | ⟨added, -, -, -, hinsert⟩ |
      ⟨moved, row₀, status, resultJson, failureCategory, hfind, -, rfl⟩
    · rw [heq]
      exact ⟨row, hrow, rfl, rfl⟩
    · refine ⟨row, ?_, rfl, rfl⟩
      rw [find_insert hinsert]
      split
      · next hkey =>
        rw [← hkey, (insert_eq_some_iff.mp hinsert).1] at hrow
        cases hrow
      · exact hrow
    · rw [find_moveExecution _ _ _ hfind]
      split
      · next hid =>
        rw [hid, hfind] at hrow
        cases hrow
        exact ⟨_, rfl, rfl, rfl⟩
      · exact ⟨row, hrow, rfl, rfl⟩
  · intro row hrow
    rcases h.events_cases with ⟨heq, -⟩ | ⟨eventId, -, rfl⟩ |
      ⟨options, eventId, encodedPayload, event, execution, -, -, -, -, hinsert⟩
    · rw [heq]
      exact hrow
    · exact hrow
    · obtain ⟨events, outbox, hevents, -, -, -, rfl⟩ := insertEvent_eq_ok hinsert
      dsimp only
      rw [(insert_eq_some_iff.mp hevents).2]
      exact mem_append_left _ hrow

/-! ## Executions move on -/

/-- What a change makes of the row of an Execution. -/
def ExecutionRow.Follows (row row₀ : ExecutionRow) : Prop :=
  row = row₀ ∨ ∃ status ∈ row₀.status.next, ∃ resultJson failureCategory,
    row = { row₀ with
      status := status
      resultJson := resultJson
      failureCategory := failureCategory }

/-- **A change adds no Execution but a queued one, and moves the others on.** -/
theorem Change.executions (h : Change platform catalog root permitted db db')
    {row : ExecutionRow} (hrow : row ∈ db'.executions.rows) :
    (∃ row₀ ∈ db.executions.rows, row.Follows row₀) ∨ (∃ invocationId, row.executionId =
          executionIdOf platform root row.workspaceId invocationId) ∧
        row.status = .queued ∧ (actionForExecution catalog row).isSome = true := by
  rcases h.executions_cases with heq | ⟨added, hid, hqueued, haction, hinsert⟩ |
    ⟨eid, row₀, status, resultJson, failureCategory, hfind, hnext, rfl⟩
  · rw [heq] at hrow
    exact .inl ⟨row, hrow, .inl rfl⟩
  · rw [(insert_eq_some_iff.mp hinsert).2, mem_append, mem_singleton] at hrow
    rcases hrow with hrow | rfl
    · exact .inl ⟨row, hrow, .inl rfl⟩
    · exact .inr ⟨hid, hqueued, haction⟩
  · unfold moveExecution updateExecution updateWhere at hrow
    simp only [hfind, Option.any_some, if_true] at hrow
    rcases mem_rows_modify _ hrow with ⟨hrow, -⟩ | ⟨other, hother, rfl⟩
    · exact .inl ⟨row, hrow, .inl rfl⟩
    · rw [hfind] at hother
      cases hother
      exact .inl ⟨row₀, mem_of_find hfind, .inr ⟨status, hnext, _, _, rfl⟩⟩

/-! ## What is stored was reported -/

/-- The row of an event that was reported, for an Execution with its identity. -/
structure Reported (platform : Platform) (db : RuntimeDatabase) (row : ExecutionEventRow)
    (options : PersistEventOptions) (execution : ExecutionRow) : Prop where
  stable : options.stableEventId platform = some row.eventId
  find : db.executions.find options.executionId = some execution
  agrees : options.Agrees execution.status
  payload : boundedExecutionEventPayloadJson platform options.payload = .ok row.payloadJson
  executionId : row.executionId = options.executionId
  kind : row.kind = options.kind
  sequence : row.sequence = nextEventSequence db options.executionId
  valid : row.event.isValid = true

/-- **A change adds no event but a reported one.** -/
theorem Change.events (h : Change platform catalog root permitted db db')
    {row : ExecutionEventRow} (hrow : row ∈ db'.executionEvents.rows) :
    row ∈ db.executionEvents.rows ∨
      ∃ options execution, Reported platform db row options execution := by
  rcases h.events_cases with ⟨heq, -⟩ | ⟨eventId, -, rfl⟩ |
    ⟨options, eventId, encodedPayload, event, execution, hstable, hfind, hagrees, hpayload, hinsert⟩
  · rw [heq] at hrow
    exact .inl hrow
  · exact .inl hrow
  · obtain ⟨events, outbox, hevents, -, rfl, hvalid, rfl⟩ := insertEvent_eq_ok hinsert
    dsimp only at hrow
    rw [(insert_eq_some_iff.mp hevents).2, mem_append, mem_singleton] at hrow
    rcases hrow with hrow | rfl
    · exact .inl hrow
    · right
      refine ⟨_, _, hstable, hfind, hagrees, hpayload, rfl, rfl, rfl, ?_⟩
      rw [ExecutionEvent.isValid_iff] at hvalid ⊢
      exact hvalid

structure IsTurn (platform : Platform) (db : RuntimeDatabase) (row : ConversationEventRow)
    (event : JsValue) : Prop where
  decoded : ∃ request, participantInputEvent request = some event
  eventJson : boundedPayloadJson platform event = .ok row.eventJson
  workspace : runtimeWorkspaceId row.workspaceId = true
  row : row =
    { eventId := applicationEventId event
      conversationId := stringMember "conversationId" event
      workspaceId := row.workspaceId
      sequence := nextConversationSequence db row.workspaceId (stringMember "conversationId" event)
      requestHash := conversationRequestHash platform row.eventJson
      eventJson := row.eventJson
      status := .accepted }

structure IsDelivery (platform : Platform) (db : RuntimeDatabase) (row : ConversationEventRow)
    (event : ExecutionEvent) : Prop where
  held : Held platform db event
  eventJson : boundedPayloadJson platform (applicationEventOf event) = .ok row.eventJson
  row : row =
    { eventId := event.eventId
      conversationId := event.conversationId
      workspaceId := event.workspaceId
      sequence := nextConversationSequence db event.workspaceId event.conversationId
      requestHash := conversationRequestHash platform row.eventJson
      eventJson := row.eventJson
      status := .accepted }

/-- What a step makes of the row of a conversation's event. -/
def ConversationEventRow.Follows (platform : Platform) (row row₀ : ConversationEventRow) : Prop :=
  row = row₀ ∨ row = row₀.start ∨
    ∃ outputs : Option JsValue, row = row₀.finish (outputs.bind (encodeOutputs platform))

/-- **The events of the conversations are turns and delivered events.** -/
theorem Change.conversationEvents (h : Change platform catalog root permitted db db')
    {row : ConversationEventRow} (hrow : row ∈ db'.conversationEvents.rows) :
    (∃ row₀ ∈ db.conversationEvents.rows, row.Follows platform row₀) ∨
      (db'.conversations.find (row.workspaceId, row.conversationId)).isSome = true ∧
        ((∃ event, IsTurn platform db row event) ∨
          ∃ event, permitted (.deliver event) ∧ IsDelivery platform db row event) := by
  cases h with
  | registered =>
    obtain ⟨conversations, heq⟩ := registerConversation_eq _ _ _ _ _
    rw [heq] at hrow
    exact .inl ⟨row, hrow, .inl rfl⟩
  | ran h =>
    obtain ⟨event, eventJson, hevent, hjson, hworkspace, h⟩ := runConversation_eq_ok h
    obtain ⟨conversations, hregistered⟩ := registerConversation_eq platform root _ _ db
    rw [hregistered] at h
    obtain ⟨hconversation, rfl | ⟨rows, hinsert, rfl⟩⟩ := h
    · exact .inl ⟨row, hrow, .inl rfl⟩
    · dsimp only at hrow hconversation hinsert
      rw [(insert_eq_some_iff.mp hinsert).2, mem_append, mem_singleton] at hrow
      rcases hrow with hrow | rfl
      · exact .inl ⟨row, hrow, .inl rfl⟩
      · exact .inr ⟨hconversation, .inl ⟨event, ⟨_, hevent⟩, hjson, hworkspace, rfl⟩⟩
  | delivered hheld h hpermitted =>
    obtain ⟨eventJson, hjson, ⟨-, -, rfl⟩ | ⟨hconversation, -,
      ⟨existing, -, -, -, -, rfl⟩ | ⟨rows, hinsert, rfl⟩⟩⟩ := acceptExecutionEvent_eq_ok h
    · exact .inl ⟨row, hrow, .inl rfl⟩
    · exact .inl ⟨row, hrow, .inl rfl⟩
    · dsimp only at hrow
      rw [(insert_eq_some_iff.mp hinsert).2, mem_append, mem_singleton] at hrow
      rcases hrow with hrow | rfl
      · exact .inl ⟨row, hrow, .inl rfl⟩
      · exact .inr ⟨hconversation, .inr ⟨_, hpermitted, hheld, hjson, rfl⟩⟩
  | startedConversationEvent wid eventId =>
    rcases mem_rows_modify ConversationEventRow.start_key hrow with
      ⟨hrow, -⟩ | ⟨row₀, hfind, rfl⟩
    · exact .inl ⟨row, hrow, .inl rfl⟩
    · exact .inl ⟨row₀, mem_of_find hfind, .inr (.inl rfl)⟩
  | finishedConversationEvent wid eventId outputs =>
    rcases mem_rows_modify (ConversationEventRow.finish_key _) hrow with
      ⟨hrow, -⟩ | ⟨row₀, hfind, rfl⟩
    · exact .inl ⟨row, hrow, .inl rfl⟩
    · exact .inl ⟨row₀, mem_of_find hfind, .inr (.inr ⟨outputs, rfl⟩)⟩
  | reported hstable hfind hagrees hpayload hinsert =>
    obtain ⟨events, outbox, -, -, -, -, rfl⟩ := insertEvent_eq_ok hinsert
    exact .inl ⟨row, hrow, .inl rfl⟩
  | insertedControl hvalid howned hhash hresult hinsert =>
    obtain ⟨rows, -, rfl⟩ := insertControl_eq_ok hinsert
    exact .inl ⟨row, hrow, .inl rfl⟩
  | completedControl h =>
    obtain ⟨control, receipt, resultJson, -, -, -, rfl⟩ := completeControl_eq_ok h
    exact .inl ⟨row, hrow, .inl rfl⟩
  | registeredRoot =>
    obtain ⟨metadata, heq⟩ := registerRoot_eq _ _ _
    rw [heq] at hrow
    exact .inl ⟨row, hrow, .inl rfl⟩
  | _ => exact .inl ⟨row, hrow, .inl rfl⟩

/-- **A conversation keeps its events.** -/
theorem Change.keepsConversationEvents
    (h : Change platform catalog root permitted db db') {row₀ : ConversationEventRow}
    (hrow₀ : row₀ ∈ db.conversationEvents.rows) : ∃ row ∈ db'.conversationEvents.rows,
      row.Follows platform row₀ ∧ (row = row₀ ∨ permitted .answer) := by
  cases h with
  | registered =>
    obtain ⟨conversations, heq⟩ := registerConversation_eq _ _ _ _ _
    rw [heq]
    exact ⟨row₀, hrow₀, .inl rfl, .inl rfl⟩
  | ran h =>
    obtain ⟨event, eventJson, -, -, -, h⟩ := runConversation_eq_ok h
    obtain ⟨conversations, hregistered⟩ := registerConversation_eq platform root _ _ db
    rw [hregistered] at h
    obtain ⟨-, rfl | ⟨rows, hinsert, rfl⟩⟩ := h
    · exact ⟨row₀, hrow₀, .inl rfl, .inl rfl⟩
    · refine ⟨row₀, ?_, .inl rfl, .inl rfl⟩
      rw [(insert_eq_some_iff.mp hinsert).2]
      exact mem_append_left _ hrow₀
  | delivered hheld h =>
    obtain ⟨eventJson, -, ⟨-, -, rfl⟩ | ⟨-, -, ⟨existing, -, -, -, -, rfl⟩ |
      ⟨rows, hinsert, rfl⟩⟩⟩ := acceptExecutionEvent_eq_ok h
    · exact ⟨row₀, hrow₀, .inl rfl, .inl rfl⟩
    · exact ⟨row₀, hrow₀, .inl rfl, .inl rfl⟩
    · refine ⟨row₀, ?_, .inl rfl, .inl rfl⟩
      rw [(insert_eq_some_iff.mp hinsert).2]
      exact mem_append_left _ hrow₀
  | startedConversationEvent wid eventId hpermitted =>
    rcases mem_rows_modify_of_mem ConversationEventRow.start_key hrow₀ with hrow | hrow
    · exact ⟨_, hrow, .inl rfl, .inl rfl⟩
    · exact ⟨_, hrow, .inr (.inl rfl), .inr hpermitted⟩
  | finishedConversationEvent wid eventId outputs hpermitted =>
    rcases mem_rows_modify_of_mem (ConversationEventRow.finish_key _) hrow₀ with
      hrow | hrow
    · exact ⟨_, hrow, .inl rfl, .inl rfl⟩
    · exact ⟨_, hrow, .inr (.inr ⟨outputs, rfl⟩), .inr hpermitted⟩
  | reported hstable hfind hagrees hpayload hinsert =>
    obtain ⟨events, outbox, -, -, -, -, rfl⟩ := insertEvent_eq_ok hinsert
    exact ⟨row₀, hrow₀, .inl rfl, .inl rfl⟩
  | insertedControl hvalid howned hhash hresult hinsert =>
    obtain ⟨rows, -, rfl⟩ := insertControl_eq_ok hinsert
    exact ⟨row₀, hrow₀, .inl rfl, .inl rfl⟩
  | completedControl h =>
    obtain ⟨control, receipt, resultJson, -, -, -, rfl⟩ := completeControl_eq_ok h
    exact ⟨row₀, hrow₀, .inl rfl, .inl rfl⟩
  | registeredRoot =>
    obtain ⟨metadata, heq⟩ := registerRoot_eq _ _ _
    rw [heq]
    exact ⟨row₀, hrow₀, .inl rfl, .inl rfl⟩
  | _ => exact ⟨row₀, hrow₀, .inl rfl, .inl rfl⟩

/-- **Every event that is reported is in the outbox, and only what may be is acknowledged.** -/
theorem Change.outbox (h : Change platform catalog root permitted db db') :
    (∀ entry ∈ db'.executionOutbox.rows, entry ∈ db.executionOutbox.rows ∨
        entry.acknowledged = false ∨ permitted (.acknowledge entry.eventId)) ∧
      (∀ entry ∈ db.executionOutbox.rows,
        ∃ entry' ∈ db'.executionOutbox.rows, entry'.eventId = entry.eventId) ∧
        ∀ event ∈ db'.executionEvents.rows, event ∈ db.executionEvents.rows ∨
          ∃ entry ∈ db'.executionOutbox.rows, entry.eventId = event.eventId := by
  rcases h.events_cases with ⟨hevents, houtbox⟩ | ⟨eventId, hpermitted, rfl⟩ |
    ⟨options, eventId, encodedPayload, event, execution, -, -, -, -, hinsert⟩
  · rw [houtbox, hevents]
    exact ⟨fun _ h => .inl h, fun entry h => ⟨entry, h, rfl⟩, fun _ h => .inl h⟩
  · have hkey : ∀ entry : OutboxRow,
        ({ entry with acknowledged := true } : OutboxRow).eventId = entry.eventId := fun _ => rfl
    refine ⟨?_, ?_, fun _ h => .inl h⟩
    · intro entry hentry
      rcases mem_rows_modify hkey hentry with ⟨hentry, -⟩ | ⟨entry₀, hfind, rfl⟩
      · exact .inl hentry
      · rw [← key_of_find hfind] at hpermitted
        exact .inr (.inr hpermitted)
    · intro entry hentry
      rcases mem_rows_modify_of_mem hkey hentry with hentry | hentry
      · exact ⟨_, hentry, rfl⟩
      · exact ⟨_, hentry, rfl⟩
  · obtain ⟨events, outbox, hevents, houtbox, -, -, rfl⟩ := insertEvent_eq_ok hinsert
    rw [(insert_eq_some_iff.mp houtbox).2, (insert_eq_some_iff.mp hevents).2]
    refine ⟨?_, fun entry h => ⟨entry, mem_append_left _ h, rfl⟩, ?_⟩
    · intro entry hentry
      rcases mem_append.mp hentry with hentry | hentry
      · exact .inl hentry
      · rw [mem_singleton.mp hentry]
        exact .inr (.inl rfl)
    · intro event hevent
      rcases mem_append.mp hevent with hevent | hevent
      · exact .inl hevent
      · rw [mem_singleton.mp hevent]
        exact .inr ⟨_, mem_append_right _ (mem_singleton_self _), rfl⟩

theorem ConversationEventRow.Follows.same {row row₀ : ConversationEventRow}
    (h : row.Follows platform row₀) : row.eventId = row₀.eventId ∧
      row.workspaceId = row₀.workspaceId ∧ row.conversationId = row₀.conversationId ∧
        row.eventJson = row₀.eventJson ∧ row.requestHash = row₀.requestHash ∧
          row.sequence = row₀.sequence := by
  rcases h with rfl | rfl | ⟨outputs, rfl⟩
  · exact ⟨rfl, rfl, rfl, rfl, rfl, rfl⟩
  · unfold start
    split <;> exact ⟨rfl, rfl, rfl, rfl, rfl, rfl⟩
  · unfold finish
    split
    · split <;> exact ⟨rfl, rfl, rfl, rfl, rfl, rfl⟩
    · exact ⟨rfl, rfl, rfl, rfl, rfl, rfl⟩

end Inversion

end Laborer.DurableRuntime
