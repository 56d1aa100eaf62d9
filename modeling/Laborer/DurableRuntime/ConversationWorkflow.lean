import Laborer.DurableRuntime.AcceptedEvents

/-!
# The workflow of a conversation

The runtime together with the workflows that answer the events of the conversations. The engine
runs a workflow of every accepted event, any number of times and in any order. A workflow waits
for the events before its own, asks for the permit of its conversation, reads its event again and
has it answered.
-/

namespace Laborer.DurableRuntime

open Library List Table Option

/-! ## The workflow -/

inductive WorkflowPhase where
  /-- In the loop that waits for the events before its own. -/
  | waiting
  /-- Asking for the permit of the conversation. -/
  | asking
  /-- With the permit, before the event is read again. -/
  | reading
  /-- With an event to answer, before that is noted. -/
  | starting
  /-- The handler answers. -/
  | responding
  deriving DecidableEq

def WorkflowPhase.hasPermit : WorkflowPhase → Bool
  | waiting | asking => false
  | reading | starting | responding => true

structure ConversationWorkflow where
  payload : ConversationWorkflowPayload
  phase : WorkflowPhase

/-- `${payload.workspaceId}\0${payload.conversationId}`. -/
def ConversationWorkflowPayload.permitKey (payload : ConversationWorkflowPayload) : String :=
  payload.workspaceId ++ "\x00" ++ payload.conversationId

/-- `SELECT 1 … AND sequence < … AND status IN ('accepted', 'running')`. -/
def precedingEventIsRunning (payload : ConversationWorkflowPayload) (db : RuntimeDatabase) : Bool :=
  db.conversationEvents.rows.any fun row =>
    row.conversationId = payload.conversationId && row.workspaceId = payload.workspaceId &&
      row.sequence < payload.sequence && (row.status = .accepted || row.status = .running)

/-- What the workflow reads when it has the permit: the outputs that were stored, or nothing
where the event is to be answered. -/
def readStoredEvent (payload : ConversationWorkflowPayload) (db : RuntimeDatabase) :
    Except Failure (Option JsonText) :=
  match db.conversationEvents.find (payload.workspaceId, payload.eventId) with
  | none => .error (.runtimeError .storageFailure)
  | some stored =>
    if stored.conversationId ≠ payload.conversationId ∨ stored.eventJson ≠ payload.encodedEvent ∨
        stored.requestHash ≠ payload.requestHash ∨ stored.sequence ≠ payload.sequence then
      .error (.runtimeError .storageFailure)
    else
      match stored.status, stored.outputsJson with
      | .completed, some outputsJson =>
        if (Decoder.array conversationOutput outputsJson.parse).isSome then .ok (some outputsJson)
        else .error (.runtimeError .storageFailure)
      | .completed, none => .error (.runtimeError .storageFailure)
      | .failed, _ => .error (.runtimeError .conversationHandlerUnavailable)
      | .accepted, _ | .running, _ => .ok none

/-- `SET status = 'completed', outputs_json = …` or `SET status = 'failed'`, with the hash of the
request. -/
def ConversationEventRow.settle (requestHash : String) (outputsJson : Option JsonText)
    (row : ConversationEventRow) : ConversationEventRow :=
  if row.requestHash = requestHash then
    match outputsJson with
    | some outputsJson => { row with status := .completed, outputsJson := some outputsJson }
    | none => { row with status := .failed }
  else row

@[simp] theorem ConversationEventRow.settle_key (requestHash : String)
    (outputsJson : Option JsonText) (row : ConversationEventRow) :
    ((row.settle requestHash outputsJson).workspaceId,
      (row.settle requestHash outputsJson).eventId) = (row.workspaceId, row.eventId) := by
  unfold settle
  split
  · cases outputsJson <;> rfl
  · rfl

/-- The event is answered with what the handler gave, if it gave anything. -/
def settleConversationEvent (platform : Platform) (payload : ConversationWorkflowPayload)
    (outputs : Option JsValue) (db : RuntimeDatabase) : RuntimeDatabase :=
  { db with
    conversationEvents := db.conversationEvents.modify (payload.workspaceId, payload.eventId)
      (ConversationEventRow.settle payload.requestHash (outputs.bind (encodeOutputs platform)))
      (ConversationEventRow.settle_key payload.requestHash
        (outputs.bind (encodeOutputs platform))) }

/-! ## The runtime with the workflows -/

structure ConversationState where
  runtime : RuntimeState
  /-- What the engine was asked to run. It keeps that over a restart. -/
  executed : List ConversationWorkflowPayload
  workflows : List ConversationWorkflow

def ConversationState.initial : ConversationState where
  runtime := .initial
  executed := []
  workflows := []

inductive ConversationStep where
  | runtime (step : RuntimeStep)
  /-- The engine runs a workflow, for the first time or again. -/
  | resume (execution : ℕ)
  /-- A workflow goes on. A handler that answers gives some outputs, or fails. -/
  | advance (workflow : ℕ) (outputs : Option JsValue)
  /-- A workflow is interrupted. -/
  | interrupt (workflow : ℕ)

/-- The steps that take part: a workflow's own are those below, and no client acknowledges events
in the place of the runtime. -/
def RuntimeStep.takesPart : RuntimeStep → Bool
  | .startConversationEvent _ _ | .finishConversationEvent _ _ _ | .acknowledgeEvent _ _ _ => false
  | _ => true

def RuntimeStep.restarts : RuntimeStep → Bool
  | .restart | .interruptedRestart => true
  | _ => false

section Step

variable (platform : Platform) (catalog : RegisteredActionCatalog) (rootIdentity : String)

def executedPayloads (step : RuntimeStep) (s : RuntimeState) : List ConversationWorkflowPayload :=
  if s.started then
    match step with
    | .advance fiber _ =>
      match s.fibers[fiber]? with
      | some (.accept event) =>
        match acceptExecutionEvent platform rootIdentity event s.db with
        | .ok (some payload, _) => [payload]
        | _ => []
      | _ => []
    | .runConversation request =>
      match runConversation platform rootIdentity request s.db with
      | .ok (payload, _) => [payload]
      | .error _ => []
    | _ => []
  else []

def ConversationState.moveWorkflow (s : ConversationState) (workflow : ℕ)
    (payload : ConversationWorkflowPayload) (phase : WorkflowPhase) : ConversationState :=
  { s with
    workflows := s.workflows.eraseIdx workflow ++ [{ payload := payload, phase := phase }] }

/-- The workflow ends, and gives its permit back. -/
def ConversationState.endWorkflow (s : ConversationState) (workflow : ℕ) : ConversationState :=
  { s with workflows := s.workflows.eraseIdx workflow }

def ConversationState.setDatabase (s : ConversationState) (db : RuntimeDatabase) :
    ConversationState :=
  { s with runtime := { s.runtime with db := db } }

/-- A workflow goes on up to its next statement. -/
def advanceWorkflow (workflow : ℕ) (w : ConversationWorkflow) (outputs : Option JsValue)
    (s : ConversationState) : ConversationState :=
  match w.phase with
  | .waiting =>
    if precedingEventIsRunning w.payload s.runtime.db then s
    else s.moveWorkflow workflow w.payload .asking
  | .asking =>
    if s.workflows.any fun other =>
        other.phase.hasPermit && other.payload.permitKey = w.payload.permitKey then s
    else s.moveWorkflow workflow w.payload .reading
  | .reading =>
    match readStoredEvent w.payload s.runtime.db with
    | .ok none => s.moveWorkflow workflow w.payload .starting
    | .ok (some _) | .error _ => s.endWorkflow workflow
  | .starting =>
    (s.setDatabase (startConversationEvent w.payload.workspaceId w.payload.eventId
      s.runtime.db)).moveWorkflow workflow w.payload .responding
  | .responding =>
    (s.setDatabase (settleConversationEvent platform w.payload outputs s.runtime.db)).endWorkflow
      workflow

/-- A step of the runtime or of a workflow. Workflows run while the runtime is started. -/
def conversationStep (step : ConversationStep) (s : ConversationState) : ConversationState :=
  match step with
  | .runtime step =>
    if step.takesPart then
      { runtime := runtimeStep platform catalog rootIdentity step s.runtime
        executed := s.executed ++ executedPayloads platform rootIdentity step s.runtime
        workflows := if step.restarts then [] else s.workflows }
    else s
  | .resume execution =>
    match s.executed[execution]? with
    | none => s
    | some payload =>
      if s.runtime.started && (applicationEvent payload.encodedEvent.parse).isSome then
        { s with workflows := s.workflows ++ [{ payload := payload, phase := .waiting }] }
      else s
  | .advance workflow outputs =>
    match s.workflows[workflow]? with
    | none => s
    | some w =>
      if s.runtime.started then advanceWorkflow platform workflow w outputs s else s
  | .interrupt workflow => s.endWorkflow workflow

/-- The event whose handler is asked in a step. -/
def respondedPayloads (step : ConversationStep) (s : ConversationState) :
    List ConversationWorkflowPayload :=
  match step with
  | .advance workflow _ =>
    match s.workflows[workflow]? with
    | some w => if s.runtime.started && w.phase = .starting then [w.payload] else []
    | none => []
  | _ => []

def responses (s : ConversationState) (steps : List ConversationStep) :
    List ConversationWorkflowPayload :=
  (transitions (conversationStep platform catalog rootIdentity) s steps).flatMap fun t =>
    respondedPayloads t.2.1 t.1

end Step

variable {platform : Platform} {catalog : RegisteredActionCatalog} {rootIdentity : String}
  {db db' : RuntimeDatabase} {payload : ConversationWorkflowPayload} {w : ConversationWorkflow}
  {workflows : List ConversationWorkflow} {workflow : ℕ} {s : ConversationState}
  {payloads : List ConversationWorkflowPayload}

/-! ## The row of a workflow -/

structure ConversationWorkflowPayload.Of (payload : ConversationWorkflowPayload)
    (row : ConversationEventRow) : Prop where
  eventId : row.eventId = payload.eventId
  workspaceId : row.workspaceId = payload.workspaceId
  conversationId : row.conversationId = payload.conversationId
  sequence : row.sequence = payload.sequence

theorem acceptExecutionEvent_of {event : ExecutionEvent}
    (h : acceptExecutionEvent platform rid event db = .ok (some payload, db')) :
    ∃ row ∈ db'.conversationEvents.rows, payload.Of row := by
  unfold acceptExecutionEvent at h
  obtain ⟨_, -, h⟩ := bind_eq_ok.mp h
  obtain ⟨eventJson, hjson, h⟩ := bind_eq_ok.mp h
  dsimp only at h
  split at h
  · cases h
  · split at h
    · next existing hexisting =>
      obtain ⟨_, hsame, h⟩ := bind_eq_ok.mp h
      simp only [ensure_eq_ok, Bool.and_eq_true, decide_eq_true_eq] at hsame
      cases h
      obtain ⟨hmem, hkey⟩ := find_eq_some_iff.mp hexisting
      obtain ⟨hworkspace, hid⟩ := Prod.mk.inj hkey
      exact ⟨existing, hmem, hid, hworkspace, hsame.1.1, rfl⟩
    · obtain ⟨rows, hinsert, h⟩ := bind_eq_ok.mp h
      cases h
      have hmem := (insert_eq_some_iff.mp (insertRow_eq_ok.mp hinsert)).2 ▸
        mem_append_right _ (mem_singleton_self _)
      exact ⟨_, hmem, rfl, rfl, rfl, rfl⟩

theorem runConversation_of {request : RunConversationRequest}
    (h : runConversation platform rid request db = .ok (payload, db')) :
    ∃ row ∈ db'.conversationEvents.rows, payload.Of row := by
  unfold runConversation at h
  obtain ⟨_, -, h⟩ := bind_eq_ok.mp h
  split at h
  · cases h
  · obtain ⟨_, -, h⟩ := bind_eq_ok.mp h
    obtain ⟨eventJson, hjson, h⟩ := bind_eq_ok.mp h
    unfold acceptConversationEvent at h
    dsimp only at h
    obtain ⟨_, -, h⟩ := bind_eq_ok.mp h
    split at h
    · next existing hexisting =>
      obtain ⟨_, hsame, h⟩ := bind_eq_ok.mp h
      simp only [ensure_eq_ok, Bool.and_eq_true, decide_eq_true_eq] at hsame
      cases h
      obtain ⟨hmem, hkey⟩ := find_eq_some_iff.mp hexisting
      obtain ⟨hworkspace, hid⟩ := Prod.mk.inj hkey
      exact ⟨existing, hmem, hid, hworkspace, hsame.1.1, rfl⟩
    · obtain ⟨rows, hinsert, h⟩ := bind_eq_ok.mp h
      cases h
      have hmem := (insert_eq_some_iff.mp (insertRow_eq_ok.mp hinsert)).2 ▸
        mem_append_right _ (mem_singleton_self _)
      exact ⟨_, hmem, rfl, rfl, rfl, rfl⟩

theorem ConversationWorkflowPayload.Of.conversation
    {row : ConversationEventRow} (h : payload.Of row) :
    row.conversation = (payload.workspaceId, payload.conversationId) :=
  Prod.ext h.workspaceId h.conversationId

theorem ConversationWorkflowPayload.Of.grow
    {row₀ : ConversationEventRow} (h : payload.Of row₀) (hrow₀ : row₀ ∈ db.conversationEvents.rows)
    (hgrow : ConversationsGrow db db') : ∃ row ∈ db'.conversationEvents.rows, payload.Of row := by
  obtain ⟨row, hrow, hid, hconversation, hsequence, -⟩ := hgrow.kept row₀ hrow₀
  obtain ⟨hworkspace, hconversationId⟩ := Prod.mk.inj (hconversation.trans h.conversation)
  exact ⟨row, hrow, hid.trans h.eventId, hworkspace, hconversationId, hsequence.trans h.sequence⟩

/-- The events of the conversation before that of a workflow are settled. -/
def Preceded (db : RuntimeDatabase) (payload : ConversationWorkflowPayload) : Prop :=
  ∀ row ∈ db.conversationEvents.rows,
    row.conversation = (payload.workspaceId, payload.conversationId) →
      row.sequence < payload.sequence → row.Settled

theorem preceded_of_not_running
    (h : precedingEventIsRunning payload db = false) : Preceded db payload := by
  intro row hrow hconversation hlt
  obtain ⟨hworkspace, hconversationId⟩ := Prod.mk.inj hconversation
  have hnot := (any_eq_false.mp h) row hrow
  simp only [hworkspace, hconversationId, hlt, decide_true, Bool.true_and, Bool.or_eq_true,
    decide_eq_true_eq, not_or] at hnot
  exact hnot

/-- **What was settled before an event stays so, and nothing comes in between.** -/
theorem Preceded.grow (h : Preceded db payload)
    (hstored : ∃ row ∈ db.conversationEvents.rows, payload.Of row)
    (hgrow : ConversationsGrow db db') : Preceded db' payload := by
  intro row hrow hconversation hlt
  rcases hgrow.added row hrow with ⟨row₀, hrow₀, hid, hconversation₀, hsequence₀⟩ | hnew
  · have hsettled := h row₀ hrow₀ (hconversation₀.symm.trans hconversation) (hsequence₀ ▸ hlt)
    obtain ⟨row', hrow', hid', hconversation', -, hsame⟩ := hgrow.kept row₀ hrow₀
    -- the event before is the same row as ever
    have heq : row = row' := by
      apply some.inj
      have hkey : (row.workspaceId, row.eventId) = (row'.workspaceId, row'.eventId) := by
        rw [hid, hid', (Prod.mk.inj hconversation₀).1, (Prod.mk.inj hconversation').1]
      rw [← find_key hrow, ← find_key hrow', hkey]
    rw [heq, hsame hsettled]
    exact hsettled
  · obtain ⟨row₀, hrow₀, hof⟩ := hstored
    have hlt' := hnew row₀ hrow₀ (hof.conversation.trans hconversation.symm)
    rw [hof.sequence] at hlt'
    exact absurd hlt (Nat.lt_asymm hlt')

/-! ## Workflows in order -/

/-- What holds of a workflow: it is that of a stored event, it got past the loop when the events
before were settled, and the event that it has answered is not. -/
structure ConversationWorkflow.Ok (w : ConversationWorkflow) (db : RuntimeDatabase) : Prop where
  stored : ∃ row ∈ db.conversationEvents.rows, w.payload.Of row
  preceded : w.phase ≠ .waiting → Preceded db w.payload
  unsettled : w.phase = .starting ∨ w.phase = .responding →
    ∃ row ∈ db.conversationEvents.rows, w.payload.Of row ∧
      row.requestHash = w.payload.requestHash ∧ ¬ row.Settled ∧
        (w.phase = .responding → row.status = .running)

theorem ConversationWorkflow.Ok.grow (h : w.Ok db) (hgrow : ConversationsGrow db db')
    (hkept : w.phase = .starting ∨ w.phase = .responding →
      ∀ row ∈ db.conversationEvents.rows, w.payload.Of row → row ∈ db'.conversationEvents.rows) :
    w.Ok db' where
  stored := by
    obtain ⟨row, hrow, hof⟩ := h.stored
    exact hof.grow hrow hgrow
  preceded := fun hphase => (h.preceded hphase).grow h.stored hgrow
  unsettled := by
    intro hphase
    obtain ⟨row, hrow, hof, hrest⟩ := h.unsettled hphase
    exact ⟨row, hkept hphase row hrow hof, hof, hrest⟩

/-- Of the workflows of one conversation, one has the permit at most. -/
def Exclusive (workflows : List ConversationWorkflow) : Prop :=
  workflows.Pairwise fun w w' => w.phase.hasPermit = true → w'.phase.hasPermit = true →
    w.payload.permitKey ≠ w'.payload.permitKey

theorem Exclusive.perm {workflows' : List ConversationWorkflow}
    (hperm : workflows.Perm workflows') (h : Exclusive workflows) : Exclusive workflows' := by
  refine (hperm.pairwise_iff ?_).mp h
  intro w w' hne hw' hw heq
  exact hne hw hw' heq.symm

theorem Exclusive.cons_eraseIdx (h : Exclusive workflows) (hw : workflows[workflow]? = some w) :
    Exclusive (w :: workflows.eraseIdx workflow) := by
  obtain ⟨hlt, hget⟩ := List.getElem?_eq_some_iff.mp hw
  have hperm := getElem_cons_eraseIdx_perm hlt
  rw [hget] at hperm
  exact h.perm hperm.symm

theorem Exclusive.append_singleton (h : Exclusive workflows)
    (hw : w.phase.hasPermit = true → ∀ other ∈ workflows, other.phase.hasPermit = true →
      other.payload.permitKey ≠ w.payload.permitKey) : Exclusive (workflows ++ [w]) := by
  refine pairwise_append.mpr ⟨h, pairwise_singleton _ _, ?_⟩
  intro other hother w' hw' hpermit hpermit'
  rw [mem_singleton.mp hw'] at hpermit' ⊢
  exact hw hpermit' other hother hpermit

structure WorkflowsOk (s : ConversationState) : Prop where
  executed : ∀ payload ∈ s.executed, ∃ row ∈ s.runtime.db.conversationEvents.rows, payload.Of row
  workflows : ∀ w ∈ s.workflows, w.Ok s.runtime.db
  exclusive : Exclusive s.workflows

theorem WorkflowsOk.initial : WorkflowsOk .initial where
  executed := fun _ h => absurd h List.not_mem_nil
  workflows := fun _ h => absurd h List.not_mem_nil
  exclusive := List.Pairwise.nil

/-! ## The steps of the workflows -/

theorem Changes.keepsRows {permitted : Permission → Prop}
    (h : Changes platform catalog rid permitted db db') (hanswer : ¬ permitted .answer)
    {row : ConversationEventRow} (hrow : row ∈ db.conversationEvents.rows) :
    row ∈ db'.conversationEvents.rows := by
  induction h with
  | refl => exact hrow
  | tail _ hlast ih =>
    obtain ⟨row', hrow', -, heq | hpermitted⟩ := hlast.keepsConversationEvents ih
    · exact heq ▸ hrow'
    · exact absurd hpermitted hanswer

theorem key_ne_of_permitKey {payload' : ConversationWorkflowPayload}
    (hstored : ∃ row ∈ db.conversationEvents.rows, payload.Of row)
    (hne : payload'.permitKey ≠ payload.permitKey) {row' : ConversationEventRow}
    (hrow' : row' ∈ db.conversationEvents.rows) (hof' : payload'.Of row') :
    (row'.workspaceId, row'.eventId) ≠ (payload.workspaceId, payload.eventId) := by
  obtain ⟨row, hrow, hof⟩ := hstored
  intro hkey
  have heq : row' = row := by
    apply some.inj
    rw [← find_key hrow, ← find_key hrow', hkey, hof.workspaceId, hof.eventId]
  apply hne
  unfold ConversationWorkflowPayload.permitKey
  rw [← hof'.workspaceId, ← hof'.conversationId, ← hof.workspaceId, ← hof.conversationId, heq]

/-- Where the handler was asked, the event is settled as the runtime finishes it. -/
theorem settleConversationEvent_eq (hw : w.Ok db)
    (hphase : w.phase = .responding) (outputs : Option JsValue) :
    settleConversationEvent platform w.payload outputs db =
      finishConversationEvent platform w.payload.workspaceId w.payload.eventId outputs db := by
  obtain ⟨row, hrow, hof, hhash, -, hrunning⟩ := hw.unsettled (.inr hphase)
  unfold settleConversationEvent finishConversationEvent
  congr 1
  apply modify_congr
  intro row' hfind
  have heq : row' = row := by
    apply some.inj
    rw [← hfind, ← find_key hrow, hof.workspaceId, hof.eventId]
  subst heq
  unfold ConversationEventRow.settle ConversationEventRow.finish
  cases outputs.bind (encodeOutputs platform) with
  | some => exact (if_pos hhash).trans (if_pos (.inr (hrunning hphase))).symm
  | none => exact (if_pos hhash).trans (if_pos (.inr (hrunning hphase))).symm

theorem runtimeStep_of_started {s : RuntimeState} (hstarted : s.started = true)
    (wid eventId : String) (outputs : Option JsValue) :
    runtimeStep platform catalog rid (.startConversationEvent wid eventId) s =
        { s with db := startConversationEvent wid eventId s.db } ∧
      runtimeStep platform catalog rid
          (.finishConversationEvent wid eventId outputs) s =
        { s with db := finishConversationEvent platform wid eventId outputs s.db } :=
  ⟨if_pos hstarted, if_pos hstarted⟩

/-- **The runtime with the workflows does what the runtime does**: a step leaves it alone, or is
one of its own. -/
theorem conversationStep_runtime (hs : WorkflowsOk s) (step : ConversationStep) :
    (conversationStep platform catalog rid step s).runtime = s.runtime ∨
      ∃ step' : RuntimeStep, step'.Delivers ∧
        (conversationStep platform catalog rid step s).runtime =
          runtimeStep platform catalog rid step' s.runtime ∧
            (step = .runtime step' ∨ AcceptsInOrder platform step' s.runtime) := by
  cases step with
  | runtime step =>
    unfold conversationStep
    dsimp only
    split
    · next htakesPart =>
      right
      refine ⟨step, ?_, rfl, .inl rfl⟩
      cases step with
      | acknowledgeEvent eventId cid wid => cases htakesPart
      | _ => trivial
    · exact .inl rfl
  | resume execution =>
    left
    unfold conversationStep
    dsimp only
    split
    · rfl
    · split <;> rfl
  | interrupt workflow => exact .inl rfl
  | advance workflow outputs =>
    unfold conversationStep
    dsimp only
    split
    · exact .inl rfl
    · next w hw =>
      have hok := hs.workflows w (mem_of_getElem? hw)
      split
      · next hstarted =>
        unfold advanceWorkflow
        split
        · exact .inl (by split <;> rfl)
        · exact .inl (by split <;> rfl)
        · exact .inl (by split <;> rfl)
        · refine .inr ⟨.startConversationEvent w.payload.workspaceId w.payload.eventId, trivial,
            ?_, .inr fun _ hevent => by cases hevent⟩
          exact (runtimeStep_of_started hstarted _ _ none).1.symm
        · next hphase =>
          refine .inr ⟨.finishConversationEvent w.payload.workspaceId w.payload.eventId outputs,
            trivial, ?_, .inr fun _ hevent => by cases hevent⟩
          rw [settleConversationEvent_eq hok hphase]
          exact (runtimeStep_of_started hstarted _ _ outputs).2.symm
      · exact .inl rfl

/-- What the workflow reads when it goes on to have its event answered. -/
theorem readStoredEvent_eq_none (h : readStoredEvent payload db = .ok none) :
    ∃ row ∈ db.conversationEvents.rows, payload.Of row ∧
      row.requestHash = payload.requestHash ∧ ¬ row.Settled := by
  unfold readStoredEvent at h
  split at h
  · cases h
  · next stored hfind =>
    split at h
    · cases h
    · next hsame =>
      simp only [not_or, not_not] at hsame
      obtain ⟨hconversation, -, hhash, hsequence⟩ := hsame
      obtain ⟨hmem, hkey⟩ := find_eq_some_iff.mp hfind
      obtain ⟨hworkspace, hid⟩ := Prod.mk.inj hkey
      refine ⟨stored, hmem, ⟨hid, hworkspace, hconversation, hsequence⟩, hhash, ?_⟩
      intro hsettled
      split at h
      · split at h <;> cases h
      · cases h
      · cases h
      · next _ hstatus => exact hsettled.1 hstatus
      · next _ hstatus => exact hsettled.2 hstatus

theorem WorkflowsOk.executed_grow (h : WorkflowsOk s) (hgrow : ConversationsGrow s.runtime.db db') :
    ∀ payload ∈ s.executed, ∃ row ∈ db'.conversationEvents.rows, payload.Of row := by
  intro payload hpayload
  obtain ⟨row, hrow, hof⟩ := h.executed payload hpayload
  exact hof.grow hrow hgrow

theorem executedPayloads_of {step : RuntimeStep} {s : RuntimeState}
    (h : payload ∈ executedPayloads platform rid step s) :
    ∃ row ∈ (runtimeStep platform catalog rid step s).db.conversationEvents.rows,
      payload.Of row := by
  unfold executedPayloads at h
  split at h
  · next hstarted =>
    unfold runtimeStep
    rw [if_pos hstarted]
    split at h
    · next fiber outcome =>
      split at h
      · next event hfiber =>
        split at h
        · next payload' db' haccept =>
          rw [mem_singleton.mp h]
          rw [stepStarted, hfiber]
          show ∃ row ∈ (RuntimeState.spawn _ _ _).db.conversationEvents.rows, payload'.Of row
          unfold RuntimeState.spawn
          simp only [haccept]
          exact acceptExecutionEvent_of haccept
        · cases h
      · cases h
    · next request =>
      split at h
      · next payload' db' hrun =>
        rw [mem_singleton.mp h]
        show ∃ row ∈ (RuntimeState.commit _ _).db.conversationEvents.rows, payload'.Of row
        unfold RuntimeState.commit
        simp only [hrun]
        exact runConversation_of hrun
      · cases h
    · cases h
  · cases h

theorem WorkflowsOk.runtime (hlawful : platform.Lawful)
    (h : WorkflowsOk s) (hs : LifecycleOk platform s.runtime) {step : RuntimeStep}
    (htakesPart : step.takesPart = true) :
    WorkflowsOk (conversationStep platform catalog rid (.runtime step) s) := by
  obtain ⟨hchanges, -⟩ : Continues platform catalog rid (Needs step s.runtime) s.runtime
      (runtimeStep platform catalog rid step s.runtime) :=
    runtimeStep_continues hlawful hs.fibers hs.outbox.payloads fun _ hneeds => hneeds
  have hanswer : ¬ Needs step s.runtime .answer := by
    cases step with
    | startConversationEvent wid eventId => cases htakesPart
    | finishConversationEvent wid eventId outputs => cases htakesPart
    | acknowledgeEvent eventId cid wid => cases htakesPart
    | advance fiber outcome =>
      rintro ⟨f, -, hf⟩
      cases f with
      | _ => exact hf.elim
    | _ => exact fun hneeds => hneeds.elim
  unfold conversationStep
  dsimp only
  rw [if_pos htakesPart]
  refine ⟨?_, ?_, ?_⟩
  · intro payload hpayload
    rcases mem_append.mp hpayload with hpayload | hpayload
    · exact h.executed_grow hchanges.conversationsGrow payload hpayload
    · exact executedPayloads_of hpayload
  · intro w hw
    split at hw
    · cases hw
    · exact (h.workflows w hw).grow hchanges.conversationsGrow
        fun _ row hrow _ => hchanges.keepsRows hanswer hrow
  · dsimp only
    split
    · exact List.Pairwise.nil
    · exact h.exclusive

/-- What the workflow with the permit does to its event, the others do not see. -/
theorem WorkflowsOk.others (h : WorkflowsOk s) (hw : s.workflows[workflow]? = some w)
    (hpermit : w.phase.hasPermit = true) (hgrow : ConversationsGrow s.runtime.db db')
    (hrows : ∀ row ∈ s.runtime.db.conversationEvents.rows,
      (row.workspaceId, row.eventId) ≠ (w.payload.workspaceId, w.payload.eventId) →
        row ∈ db'.conversationEvents.rows) :
    ∀ other ∈ s.workflows.eraseIdx workflow, other.Ok db' := by
  intro other hother
  have hne := rel_of_pairwise_cons (h.exclusive.cons_eraseIdx hw) hother hpermit
  refine (h.workflows other (mem_of_mem_eraseIdx hother)).grow hgrow ?_
  intro hphase row hrow hof
  have hpermit' : other.phase.hasPermit = true := by
    rcases hphase with hphase | hphase
    · rw [hphase]
      rfl
    · rw [hphase]
      rfl
  exact hrows row hrow (key_ne_of_permitKey (h.workflows w (mem_of_getElem? hw)).stored
    (hne hpermit').symm hrow hof)

theorem WorkflowsOk.move (h : WorkflowsOk s) (hw : s.workflows[workflow]? = some w)
    {phase : WorkflowPhase}
    (hok : ConversationWorkflow.Ok { payload := w.payload, phase := phase } db')
    (hpermit : phase.hasPermit = true → w.phase.hasPermit = true ∨
      ∀ other ∈ s.workflows, other.phase.hasPermit = true →
        other.payload.permitKey ≠ w.payload.permitKey) (hgrow : ConversationsGrow s.runtime.db db')
    (hothers : ∀ other ∈ s.workflows.eraseIdx workflow, other.Ok db') :
    WorkflowsOk ((s.setDatabase db').moveWorkflow workflow w.payload phase) where
  executed := h.executed_grow hgrow
  workflows := by
    intro w' hw'
    rcases mem_append.mp hw' with hw' | hw'
    · exact hothers w' hw'
    · rw [mem_singleton.mp hw']
      exact hok
  exclusive := by
    have hcons := h.exclusive.cons_eraseIdx hw
    refine Exclusive.append_singleton (pairwise_cons.mp hcons).2 ?_
    intro hphase other hother hother'
    rcases hpermit hphase with hpermit | hfree
    · exact (rel_of_pairwise_cons hcons hother hpermit hother').symm
    · exact hfree other (mem_of_mem_eraseIdx hother) hother'

theorem WorkflowsOk.ends (h : WorkflowsOk s) (hgrow : ConversationsGrow s.runtime.db db')
    (hothers : ∀ other ∈ s.workflows.eraseIdx workflow, other.Ok db') :
    WorkflowsOk ((s.setDatabase db').endWorkflow workflow) where
  executed := h.executed_grow hgrow
  workflows := hothers
  exclusive := h.exclusive.sublist (List.eraseIdx_sublist _ _)

theorem WorkflowsOk.goOn (h : WorkflowsOk s) (hw : s.workflows[workflow]? = some w)
    {phase : WorkflowPhase}
    (hok : ConversationWorkflow.Ok { payload := w.payload, phase := phase } s.runtime.db)
    (hpermit : phase.hasPermit = true → w.phase.hasPermit = true ∨
      ∀ other ∈ s.workflows, other.phase.hasPermit = true →
        other.payload.permitKey ≠ w.payload.permitKey) :
    WorkflowsOk (s.moveWorkflow workflow w.payload phase) :=
  h.move hw hok hpermit (ConversationsGrow.refl _) fun other hother =>
    h.workflows other (mem_of_mem_eraseIdx hother)

theorem WorkflowsOk.stops (h : WorkflowsOk s) (workflow : ℕ) :
    WorkflowsOk (s.endWorkflow workflow) :=
  h.ends (ConversationsGrow.refl _) fun other hother =>
    h.workflows other (mem_of_mem_eraseIdx hother)

theorem WorkflowsOk.advance (platform : Platform) (h : WorkflowsOk s)
    (hw : s.workflows[workflow]? = some w)
    (outputs : Option JsValue) : WorkflowsOk (advanceWorkflow platform workflow w outputs s) := by
  have hok := h.workflows w (mem_of_getElem? hw)
  unfold advanceWorkflow
  split
  · split
    · exact h
    · next hnot =>
      rw [Bool.not_eq_true] at hnot
      refine h.goOn hw ⟨hok.stored, fun _ => preceded_of_not_running hnot, ?_⟩ ?_
      · rintro (hphase | hphase) <;> cases hphase
      · intro hpermit
        cases hpermit
  · next hphase =>
    have hpreceded : Preceded s.runtime.db w.payload := hok.preceded (by rw [hphase]; decide)
    split
    · exact h
    · next hnot =>
      refine h.goOn hw ⟨hok.stored, fun _ => hpreceded, ?_⟩ ?_
      · rintro (hphase | hphase) <;> cases hphase
      · intro _
        right
        intro other hother hpermit heq
        refine hnot (any_eq_true.mpr ⟨other, hother, ?_⟩)
        rw [hpermit, heq]
        simp
  · next hphase =>
    have hpreceded : Preceded s.runtime.db w.payload := hok.preceded (by rw [hphase]; decide)
    split
    · next hread =>
      obtain ⟨row, hrow, hof, hhash, hunsettled⟩ := readStoredEvent_eq_none hread
      refine h.goOn hw ⟨hok.stored, fun _ => hpreceded, ?_⟩ ?_
      · intro _
        refine ⟨row, hrow, hof, hhash, hunsettled, fun hphase => ?_⟩
        cases hphase
      · intro _
        left
        rw [hphase]
        rfl
    · exact h.stops workflow
    · exact h.stops workflow
  · next hphase =>
    have hpreceded : Preceded s.runtime.db w.payload := hok.preceded (by rw [hphase]; decide)
    have hpermit : w.phase.hasPermit = true := by
      rw [hphase]
      rfl
    have hchange : Change platform ⟨[], ""⟩ "" (fun _ => True) s.runtime.db
        (startConversationEvent w.payload.workspaceId w.payload.eventId s.runtime.db) :=
      .startedConversationEvent _ _ trivial
    have hgrow := hchange.conversationsGrow
    refine h.move hw ⟨?_, fun _ => hpreceded.grow hok.stored hgrow, ?_⟩ (fun _ => .inl hpermit)
      hgrow (h.others hw hpermit hgrow fun row hrow hne =>
        mem_rows_modify_of_ne ConversationEventRow.start_key hrow hne)
    · obtain ⟨row, hrow, hof⟩ := hok.stored
      exact hof.grow hrow hgrow
    · intro _
      obtain ⟨row, hrow, hof, hhash, hunsettled, -⟩ := hok.unsettled (.inl hphase)
      have hmem : row.start ∈ (startConversationEvent w.payload.workspaceId w.payload.eventId
          s.runtime.db).conversationEvents.rows :=
        mem_map.mpr ⟨row, hrow, if_pos (Prod.ext hof.workspaceId hof.eventId)⟩
      have hstatus : row.start.status = .running := by
        unfold ConversationEventRow.start
        split
        · rfl
        · next haccepted =>
          by_contra hrunning
          exact hunsettled ⟨haccepted, hrunning⟩
      have hfollows : row.start.Follows platform row := .inr (.inl rfl)
      obtain ⟨hid, hworkspace, hconversation, -, hhash', hsequence⟩ := hfollows.same
      refine ⟨row.start, hmem, ⟨hid.trans hof.eventId, hworkspace.trans hof.workspaceId,
        hconversation.trans hof.conversationId, hsequence.trans hof.sequence⟩,
        hhash'.trans hhash, fun hsettled => hsettled.2 hstatus, fun _ => hstatus⟩
  · next hphase =>
    have hpermit : w.phase.hasPermit = true := by
      rw [hphase]
      rfl
    have hchange : Change platform ⟨[], ""⟩ "" (fun _ => True) s.runtime.db
        (settleConversationEvent platform w.payload outputs s.runtime.db) := by
      rw [settleConversationEvent_eq hok hphase]
      exact .finishedConversationEvent _ _ outputs trivial
    have hgrow := hchange.conversationsGrow
    exact h.ends hgrow (h.others hw hpermit hgrow fun row hrow hne =>
      mem_rows_modify_of_ne (ConversationEventRow.settle_key _ _) hrow hne)

/-- **Every step keeps the workflows in order.** -/
theorem WorkflowsOk.step (hlawful : platform.Lawful) (h : WorkflowsOk s)
    (hs : LifecycleOk platform s.runtime) (step : ConversationStep) :
    WorkflowsOk (conversationStep platform catalog rid step s) := by
  cases step with
  | runtime step =>
    by_cases htakesPart : step.takesPart = true
    · exact h.runtime hlawful hs htakesPart
    · unfold conversationStep
      dsimp only
      rw [if_neg htakesPart]
      exact h
  | resume execution =>
    unfold conversationStep
    dsimp only
    split
    · exact h
    · next payload hpayload =>
      split
      · refine ⟨h.executed, ?_, ?_⟩
        · intro w hw
          rcases mem_append.mp hw with hw | hw
          · exact h.workflows w hw
          · rw [mem_singleton.mp hw]
            refine ⟨h.executed payload (mem_of_getElem? hpayload), ?_, ?_⟩
            · exact fun hphase => absurd rfl hphase
            · rintro (hphase | hphase) <;> cases hphase
        · refine h.exclusive.append_singleton fun hpermit => ?_
          cases hpermit
      · exact h
  | advance workflow outputs =>
    unfold conversationStep
    dsimp only
    split
    · exact h
    · next w hw =>
      split
      · exact h.advance platform hw outputs
      · exact h
  | interrupt workflow => exact h.stops workflow

/-! ## Runs -/

/-- The handlers of one conversation are asked one at a time, and when the events before are
settled. -/
structure RespondsInTurn (s : ConversationState) : Prop where
  alone : s.workflows.Pairwise fun w w' => w.phase = .responding → w'.phase = .responding →
    (w.payload.workspaceId, w.payload.conversationId) ≠
      (w'.payload.workspaceId, w'.payload.conversationId)
  preceded : ∀ w ∈ s.workflows, w.phase = .responding → Preceded s.runtime.db w.payload ∧
    ∃ row ∈ s.runtime.db.conversationEvents.rows, w.payload.Of row ∧ row.status = .running

/-- An event is in its conversation once at most, and it is there when the outbox has it
acknowledged. -/
structure AcceptedOnce (platform : Platform) (db : RuntimeDatabase) : Prop where
  once : ∀ event : ExecutionEventRow, ∀ row ∈ db.conversationEvents.rows,
    ∀ row' ∈ db.conversationEvents.rows, row.Delivers platform event →
      row'.Delivers platform event → row = row'
  acknowledged : ∀ event ∈ db.executionEvents.rows, ∃ entry ∈ db.executionOutbox.rows,
    entry.eventId = event.eventId ∧ (entry.acknowledged = true → EventAccepted platform db event)

theorem WorkflowsOk.respondsInTurn (h : WorkflowsOk s) : RespondsInTurn s where
  alone := by
    refine h.exclusive.imp fun hne hphase hphase' heq => ?_
    obtain ⟨hworkspace, hconversation⟩ := Prod.mk.inj heq
    refine hne (by rw [hphase]; rfl) (by rw [hphase']; rfl) ?_
    unfold ConversationWorkflowPayload.permitKey
    rw [hworkspace, hconversation]
  preceded := by
    intro w hw hphase
    obtain ⟨row, hrow, hof, -, -, hrunning⟩ := (h.workflows w hw).unsettled (.inr hphase)
    exact ⟨(h.workflows w hw).preceded (by rw [hphase]; decide), row, hrow, hof, hrunning hphase⟩

theorem DeliveryOk.acceptedOnce {s : RuntimeState} (h : DeliveryOk platform s) :
    AcceptedOnce platform s.db where
  once := fun _ _ hrow _ hrow' hdelivers hdelivers' => hdelivers.unique hdelivers' hrow hrow'
  acknowledged := by
    intro event hevent
    obtain ⟨entry, hentry, hid⟩ := h.stored event hevent
    refine ⟨entry, hentry, hid, fun hacknowledged => ?_⟩
    have haccepted := h.acknowledged entry hentry hacknowledged
    rw [hid] at haccepted
    exact haccepted.accepted hevent

/-- A pass over what is pending ends well, and every event that it is for is then in its
conversation, once. -/
def PassAccepts (platform : Platform) (rootIdentity : String) (db : RuntimeDatabase)
    (workspaceId : String) (conversationId : Option String) : Prop :=
  ∃ batches db', deliverPendingExecutionEvents platform (fun _ => true) rootIdentity workspaceId
      conversationId batches db = some (.ok (), db') ∧
    pendingRows db' workspaceId conversationId = [] ∧
    ∀ event ∈ db.executionEvents.rows, event.workspaceId = workspaceId →
      (db.conversations.find (event.workspaceId, event.conversationId)).isSome = true →
        conversationId.all (event.conversationId = ·) = true →
          ∃! row, row ∈ db'.conversationEvents.rows ∧ row.Delivers platform event

theorem DeliveryOk.passAccepts_iff (hlawful : platform.Lawful) {s : RuntimeState}
    (h : DeliveryOk platform s) {wid : String} {conversationId : Option String} :
    PassAccepts platform rid s.db wid conversationId ↔
      ∀ row ∈ pendingRows s.db wid conversationId, Deliverable s.db row.event := by
  have hiff : (∃ batches db', deliverPendingExecutionEvents platform (fun _ => true) rid wid
      conversationId batches s.db = some (.ok (), db') ∧ _) ↔ _ :=
    deliverPendingExecutionEvents_iff hlawful h.lifecycle.outbox wid conversationId
  rw [← hiff]
  refine ⟨fun ⟨batches, db', hpass, hnone, _⟩ => ⟨batches, db', hpass, hnone⟩, ?_⟩
  rintro ⟨batches, db', hpass, hnone⟩
  obtain ⟨eventIds, hdelivered⟩ :=
    deliverPendingExecutionEvents_delivered hlawful h.lifecycle.outbox hpass
  refine ⟨batches, db', hpass, hnone, fun event hevent hworkspace hconversation hfor => ?_⟩
  have haccepted : EventAccepted platform db' event := by
    refine hdelivered.accepted event hevent ?_
    obtain ⟨entry, hentry, hid⟩ := h.stored event hevent
    by_cases hacknowledged : entry.acknowledged = true
    · have hbefore := h.acknowledged entry hentry hacknowledged
      rw [hid] at hbefore
      exact .inr (hbefore.accepted hevent)
    · -- the event is pending, and nothing is pending after the pass
      left
      have hpending : event ∈ pendingRows s.db wid conversationId := by
        refine mem_filter.mpr ⟨mem_filterMap.mpr ⟨entry, ?_, ?_⟩, ?_⟩
        · exact mem_filter.mpr ⟨hentry, by simpa using hacknowledged⟩
        · rw [hid]
          exact find_key hevent
        · rw [hconversation, hfor, decide_eq_true hworkspace]
          rfl
      have hnone := hdelivered.pending wid conversationId ▸ hnone
      by_contra hnot
      exact filter_eq_nil_iff.mp hnone event hpending (decide_eq_true hnot)
  obtain ⟨row, hrow, hdelivers⟩ := haccepted
  exact ⟨row, ⟨hrow, hdelivers⟩, fun row' h' => h'.2.unique hdelivers h'.1 hrow⟩

/-- Where an event fits its envelopes and its conversation is registered, its acceptance puts it
there. -/
def AcceptsDeliverable (platform : Platform) (s : ConversationState) (step : ConversationStep)
    (s' : ConversationState) : Prop :=
  ∀ fiber outcome event, step = .runtime (.advance fiber outcome) → s.runtime.started = true →
    s.runtime.fibers[fiber]? = some (.accept event) →
      (s.runtime.db.conversations.find (event.workspaceId, event.conversationId)).isSome = true →
        Deliverable s.runtime.db event → IdAccepted platform s'.runtime.db event.eventId

theorem DeliveryOk.acceptsDeliverable (hlawful : platform.Lawful)
    (h : DeliveryOk platform s.runtime) (step : ConversationStep) :
    AcceptsDeliverable platform s step (conversationStep platform catalog rid step s) := by
  rintro fiber outcome event rfl hstarted hfiber hconversation hdeliverable
  have hheld := h.lifecycle.fibers _ (mem_of_getElem? hfiber)
  obtain ⟨payload, db', haccept⟩ : ∃ payload db',
      acceptExecutionEvent platform rid event s.runtime.db = .ok (some payload, db') :=
    (acceptExecutionEvent_iff hlawful h.lifecycle.outbox hheld hconversation).mpr hdeliverable
  have hafter : (conversationStep platform catalog rid (.runtime (.advance fiber outcome))
      s).runtime.db = db' := by
    show (runtimeStep platform catalog rid (.advance fiber outcome) s.runtime).db = db'
    unfold runtimeStep
    rw [if_pos hstarted, stepStarted, hfiber]
    show (RuntimeState.spawn _ _ _).db = db'
    rw [haccept]
    rfl
  rw [hafter]
  exact idAccepted_of_accept hlawful h.lifecycle.outbox.payloads hheld haccept

structure ConversationsOk (platform : Platform) (s : ConversationState) : Prop where
  delivery : DeliveryOk platform s.runtime
  workflows : WorkflowsOk s

theorem ConversationsOk.initial : ConversationsOk platform .initial :=
  ⟨DeliveryOk.initial, WorkflowsOk.initial⟩

theorem ConversationsOk.step (hlawful : platform.Lawful)
    (h : ConversationsOk platform s) (step : ConversationStep) :
    ConversationsOk platform (conversationStep platform catalog rid step s) := by
  refine ⟨?_, h.workflows.step hlawful h.delivery.lifecycle step⟩
  rcases conversationStep_runtime h.workflows step with heq | ⟨step', hdelivers, heq, -⟩
  · rw [heq]
    exact h.delivery
  · rw [heq]
    exact h.delivery.step hlawful hdelivers

theorem ConversationsOk.grow (hlawful : platform.Lawful)
    (h : ConversationsOk platform s) (step : ConversationStep) : ConversationsGrow s.runtime.db
      (conversationStep platform catalog rid step s).runtime.db := by
  rcases conversationStep_runtime h.workflows step with heq | ⟨step', -, heq, -⟩
  · rw [heq]
    exact ConversationsGrow.refl _
  · rw [heq]
    exact (h.delivery.lifecycle.continues hlawful step').1.conversationsGrow

/-- The step accepts no event before those that its Execution reported earlier. -/
def ConversationStep.AcceptsInOrder (platform : Platform) (step : ConversationStep)
    (s : ConversationState) : Prop :=
  match step with
  | .runtime step => DurableRuntime.AcceptsInOrder platform step s.runtime
  | _ => True

instance (step : ConversationStep) (s : ConversationState) :
    Decidable (step.AcceptsInOrder platform s) :=
  match step with
  | .runtime step => inferInstanceAs (Decidable (DurableRuntime.AcceptsInOrder platform step _))
  | .resume _ | .advance _ _ | .interrupt _ => isTrue trivial

theorem DeliveredInOrder.conversationStep (hlawful : platform.Lawful)
    (h : DeliveredInOrder platform s.runtime.db) (hs : ConversationsOk platform s)
    {step : ConversationStep} (horder : step.AcceptsInOrder platform s) : DeliveredInOrder platform
      (conversationStep platform catalog rid step s).runtime.db := by
  rcases conversationStep_runtime hs.workflows step with heq | ⟨step', -, heq, hstep | horder'⟩
  · rw [heq]
    exact h
  · rw [heq]
    rw [hstep] at horder
    exact h.step hlawful hs.delivery.lifecycle horder
  · rw [heq]
    exact h.step hlawful hs.delivery.lifecycle horder'

/-- What was asked of the handlers so far: in the order of each conversation, and with the events
before settled. -/
structure RespondedInOrder (payloads : List ConversationWorkflowPayload) (db : RuntimeDatabase) :
    Prop where
  order : payloads.Pairwise fun payload payload' => payload.workspaceId = payload'.workspaceId →
    payload.conversationId = payload'.conversationId → payload.sequence ≤ payload'.sequence
  preceded : ∀ payload ∈ payloads, Preceded db payload ∧
    ∃ row ∈ db.conversationEvents.rows, payload.Of row

theorem RespondedInOrder.grow
    (h : RespondedInOrder payloads db) (hgrow : ConversationsGrow db db') :
    RespondedInOrder payloads db' where
  order := h.order
  preceded := by
    intro payload hpayload
    obtain ⟨hpreceded, row, hrow, hof⟩ := h.preceded payload hpayload
    exact ⟨hpreceded.grow ⟨row, hrow, hof⟩ hgrow, hof.grow hrow hgrow⟩

/-- **The handler that a step asks comes after the ones that were asked.** -/
theorem RespondedInOrder.respond (h : RespondedInOrder payloads s.runtime.db) (hs : WorkflowsOk s)
    (step : ConversationStep) :
    RespondedInOrder (payloads ++ respondedPayloads step s) s.runtime.db := by
  have hnone : RespondedInOrder (payloads ++ []) s.runtime.db := by
    rw [append_nil]
    exact h
  unfold respondedPayloads
  split
  · split
    · next w hw =>
      have hok := hs.workflows w (mem_of_getElem? hw)
      split
      · next hresponds =>
        have hphase : w.phase = .starting := of_decide_eq_true (Bool.and_eq_true_iff.mp hresponds).2
        obtain ⟨row, hrow, hof, -, hunsettled, -⟩ := hok.unsettled (.inl hphase)
        constructor
        · refine pairwise_append.mpr ⟨h.order, pairwise_singleton _ _, ?_⟩
          intro payload hpayload payload' hpayload' hworkspace hconversation
          rw [mem_singleton.mp hpayload'] at hworkspace hconversation ⊢
          -- an event before one that was asked for is settled, and is not asked for again
          refine Nat.le_of_not_lt fun hlt => hunsettled ?_
          refine (h.preceded payload hpayload).1 row hrow ?_ (hof.sequence ▸ hlt)
          rw [hof.conversation, hworkspace, hconversation]
        · intro payload hpayload
          rcases mem_append.mp hpayload with hpayload | hpayload
          · exact h.preceded payload hpayload
          · rw [mem_singleton.mp hpayload]
            exact ⟨hok.preceded (by rw [hphase]; decide), row, hrow, hof⟩
      · exact hnone
    · exact hnone
  · exact hnone

theorem responses_in_order (hlawful : platform.Lawful) (steps : List ConversationStep)
    (hs : ConversationsOk platform s) (h : RespondedInOrder payloads s.runtime.db) :
    (payloads ++ responses platform catalog rid s steps).Pairwise fun payload payload' =>
      payload.workspaceId = payload'.workspaceId →
        payload.conversationId = payload'.conversationId →
          payload.sequence ≤ payload'.sequence := by
  induction steps generalizing s payloads with
  | nil =>
    show (payloads ++ []).Pairwise _
    rw [append_nil]
    exact h.order
  | cons step steps ih =>
    show (payloads ++ (respondedPayloads step s ++ responses platform catalog rid
      (conversationStep platform catalog rid step s) steps)).Pairwise _
    rw [← append_assoc]
    exact ih (hs.step hlawful step) ((h.respond hs.workflows step).grow (hs.grow hlawful step))

/-- **In a run in which no event is accepted before those that its Execution reported earlier,
its events have its order in their conversation.** In every run, an event is accepted once at most,
and by a pass just when all pending events are deliverable; a deliverable one in hand is accepted
in the next step of its acceptance. Events are answered one at a time and in their order. -/
theorem conversations_of_run (hlawful : platform.Lawful) (catalog : RegisteredActionCatalog)
    (rootIdentity : String) (steps : List ConversationStep) :
    (RunMeets (conversationStep platform catalog rootIdentity)
          (ConversationStep.AcceptsInOrder platform) .initial steps →
        ∀ s ∈ visited (conversationStep platform catalog rootIdentity) .initial steps,
          InExecutionOrder platform s.runtime.db) ∧
      (∀ s ∈ visited (conversationStep platform catalog rootIdentity) .initial steps,
        AcceptedOnce platform s.runtime.db ∧ RespondsInTurn s ∧
          ∀ workspaceId conversationId,
            PassAccepts platform rootIdentity s.runtime.db workspaceId conversationId ↔
              ∀ row ∈ pendingRows s.runtime.db workspaceId conversationId,
                Deliverable s.runtime.db row.event) ∧
      (∀ t ∈ transitions (conversationStep platform catalog rootIdentity) .initial steps,
        ConversationsGrow t.1.runtime.db t.2.2.runtime.db ∧
          AcceptsDeliverable platform t.1 t.2.1 t.2.2) ∧
        (responses platform catalog rootIdentity .initial steps).Pairwise fun payload payload' =>
          payload.workspaceId = payload'.workspaceId →
            payload.conversationId = payload'.conversationId →
              payload.sequence ≤ payload'.sequence := by
  refine ⟨?_, ?_, ?_, ?_⟩
  · intro hrun s hs
    have hinvariant : ConversationsOk platform s ∧ DeliveredInOrder platform s.runtime.db := by
      refine invariant_visited (P := fun s : ConversationState =>
        ConversationsOk platform s ∧ DeliveredInOrder platform s.runtime.db) ?_
          ⟨ConversationsOk.initial, DeliveredInOrder.empty⟩ hrun s hs
      intro step s ⟨hok, horder⟩ haccepts
      exact ⟨hok.step hlawful step, horder.conversationStep hlawful hok haccepts⟩
    exact hinvariant.2.order
  · intro s hs
    have hok : ConversationsOk platform s := invariant_visited (P := ConversationsOk platform)
      (fun step s hs _ => hs.step hlawful step) ConversationsOk.initial (runMeets_true _ steps) s hs
    exact ⟨hok.delivery.acceptedOnce, hok.workflows.respondsInTurn,
      fun wid conversationId => hok.delivery.passAccepts_iff hlawful⟩
  · refine invariant_transitions (P := ConversationsOk platform)
      (Q := fun s step s' => ConversationsGrow s.runtime.db s'.runtime.db ∧
        AcceptsDeliverable platform s step s')
      (fun step s hs _ => hs.step hlawful step)
      (fun step s hs _ => ⟨hs.grow hlawful step, hs.delivery.acceptsDeliverable hlawful step⟩)
      ConversationsOk.initial (runMeets_true _ steps)
  · have hnone : RespondedInOrder [] ConversationState.initial.runtime.db :=
      ⟨List.Pairwise.nil, fun _ h => absurd h not_mem_nil⟩
    exact responses_in_order hlawful steps ConversationsOk.initial hnone

/-- Two reports of an Execution are accepted, the given one first. -/
def twoReportsRun (first second : ℕ) : List ConversationStep :=
  (progressRun [("P", .str "first"), ("Q", .str "second")]).map .runtime ++
    [.runtime (.advance first true), .runtime (.advance second true)]

/-- The state when the reports are made and none is accepted. -/
def twoReportsState : ConversationState :=
  finalState (conversationStep buildPlatform buildCatalog "root") .initial
    ((progressRun [("P", .str "first"), ("Q", .str "second")]).map .runtime)

set_option maxRecDepth 20000 in
theorem deliverable_of_twoReports :
    ∀ row ∈ pendingRows twoReportsState.runtime.db "W" none,
      Deliverable twoReportsState.runtime.db row.event := by
  intro row hrow
  have hevents : twoReportsState.runtime.db.conversationEvents.rows = [] := rfl
  have hpending : (pendingRows twoReportsState.runtime.db "W" none).map
      (fun row => row.event.payload) = [.str "first", .str "second"] := rfl
  have hpayload := mem_map_of_mem (f := fun row => row.event.payload) hrow
  rw [hpending] at hpayload
  refine ⟨?_, fun turn hturn => absurd (hevents ▸ hturn) not_mem_nil⟩
  rcases mem_pair.mp hpayload with hpayload | hpayload
  · rw [hpayload]
    exact ⟨by decide, by decide⟩
  · rw [hpayload]
    exact ⟨by decide, by decide⟩

/-- The reports in the order in which they were made, and a pass over them. -/
theorem conversations_of_twoReports :
    InExecutionOrder buildPlatform (finalState (conversationStep buildPlatform buildCatalog "root")
      .initial (twoReportsRun 0 0)).runtime.db ∧
    PassAccepts buildPlatform "root" twoReportsState.runtime.db "W" none := by
  constructor
  · refine (conversations_of_run buildPlatform_lawful buildCatalog "root" (twoReportsRun 0 0)).1
      ?_ _ (finalState_mem_visited _ _)
    decide +kernel
  · refine (((conversations_of_run buildPlatform_lawful buildCatalog "root" _).2.1 _
      (finalState_mem_visited _ _)).2.2 "W" none).mpr deliverable_of_twoReports

/-- The second report is accepted first, and comes first in the conversation. -/
theorem twoReports_overtaken : ¬ InExecutionOrder buildPlatform (finalState
      (conversationStep buildPlatform buildCatalog "root") .initial
        (twoReportsRun 1 0)).runtime.db := by
  decide +kernel

end Laborer.DurableRuntime
