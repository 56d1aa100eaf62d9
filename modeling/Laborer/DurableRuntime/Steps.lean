import Laborer.DurableRuntime.Changes

/-!
# A step as changes

Each operation of the runtime is a sequence of changes, and each fiber has in hand what is
stored. So what every change keeps holds after every run.
-/

namespace Laborer.DurableRuntime

open Library Relation List Option Bool

variable {platform : Platform} {catalog : RegisteredActionCatalog} {root : String}
  {permitted : Permission → Prop} {db db' : RuntimeDatabase} {event : ExecutionEvent}
  {options : PersistEventOptions} {row : ExecutionRow} {eid : String} {u : Unit}
  {request : ControlRequest}

theorem Changes.extends (h : Changes platform catalog root permitted db db') : Extends db db' := by
  induction h with
  | refl => exact Extends.refl db
  | tail _ hlast ih => exact ih.trans hlast.extends

/-! ## Reports -/

theorem persistEvent_changes {eventId : String}
    (hstable : options.stableEventId platform = some eventId)
    (hfind : db.executions.find options.executionId = some row)
    (hagrees : options.Agrees row.status)
    (h : persistEvent platform options db = .ok (event, db')) :
    Changes platform catalog root permitted db db' ∧ Held platform db' event := by
  unfold persistEvent at h
  obtain ⟨encodedPayload, hpayload, h⟩ := bind_eq_ok.mp h
  have hencoded := (boundedJson_eq_ok (by decide)).mp hpayload
  rw [hstable] at h
  dsimp only at h
  cases hexisting : db.executionEvents.find eventId with
  | none =>
    rw [hexisting] at h
    obtain ⟨events, outbox, hevents, -, rfl, -, rfl⟩ := insertEvent_eq_ok h
    have hmem := (Table.insert_eq_some_iff.mp hevents).2 ▸
      mem_append_right db.executionEvents.rows (mem_singleton_self _)
    exact ⟨.single (.reported hstable hfind hagrees hpayload h), _, hmem, rfl, hencoded.1.1,
      hencoded.2⟩
  | some existing =>
    rw [hexisting] at h
    obtain ⟨_, hsame, h⟩ := bind_eq_ok.mp h
    obtain ⟨_, -, h⟩ := bind_eq_ok.mp h
    cases h
    simp only [ensure_eq_ok, and_eq_true, decide_eq_true_eq] at hsame
    obtain ⟨hmem, hid⟩ := Table.find_eq_some_iff.mp hexisting
    refine ⟨.refl, existing, hmem, ?_, hencoded.1.1, ?_⟩
    · rw [← hid]
      rfl
    · rw [hsame.1.2, hencoded.2]

theorem stableEventId_terminal (hprogress : options.progressId = none)
    (hkind : options.kind ≠ .progress) : options.stableEventId platform =
      some ("execution:" ++ options.executionId ++ ":terminal") := by
  unfold PersistEventOptions.stableEventId
  rw [hprogress]
  exact if_neg hkind

theorem reportProgress_changes {progressId : String} {progress : JsValue}
    (h : reportProgress platform eid progressId progress db = .ok (event, db')) :
    Changes platform catalog root permitted db db' ∧ Held platform db' event := by
  unfold reportProgress at h
  cases hfind : db.executions.find eid with
  | none =>
    rw [hfind] at h
    cases h
  | some row =>
    rw [hfind] at h
    obtain ⟨_, -, h⟩ := bind_eq_ok.mp h
    exact persistEvent_changes rfl hfind (by rfl) h

/-! ## Executions -/

theorem get_name {name : String} {action : RegisteredAction}
    (h : catalog.get name none = some action) : (catalog.get action.name (some action.revision)) =
      some action := by
  unfold RegisteredActionCatalog.get at h ⊢
  cases hfind : catalog.actions.find? (·.name = name) with
  | none =>
    rw [hfind] at h
    cases h
  | some other =>
    rw [hfind] at h
    cases h
    have hname : action.name = name := by simpa using find?_some hfind
    rw [hname, hfind]
    simp

theorem startExecution_changes {request : StartExecutionRequest} {now : ℕ}
    (h : startExecution platform catalog root request now db = .ok (u, db')) :
    Changes platform catalog root permitted db db' := by
  obtain ⟨_, -, h⟩ := bind_eq_ok.mp h
  obtain ⟨_, -, h⟩ := bind_eq_ok.mp h
  cases haction : catalog.get request.actionName none with
  | none =>
    rw [haction] at h
    cases h
  | some action =>
    rw [haction] at h
    obtain ⟨_, -, h⟩ := bind_eq_ok.mp h
    obtain ⟨encodedInput, -, h⟩ := bind_eq_ok.mp h
    cases h
    unfold insertExecution
    split
    · exact .refl
    · split
      · next hinsert =>
        apply ReflTransGen.single
        apply Change.insertedExecution ⟨_, rfl⟩ rfl _ hinsert
        unfold actionForExecution
        simp [get_name haction]
      · exact .refl

theorem updateExecution_changes {p : ExecutionRow → Bool}
    {status : ExecutionStatus} {resultJson : Option JsonText}
    {failureCategory : Option FailureCategory}
    (hnext : ∀ row, p row = true → status ∈ row.status.next) :
    Changes platform catalog root permitted db
      (updateExecution eid p status resultJson failureCategory db).2 := by
  rcases updateExecution_cases eid p status resultJson failureCategory db with
    h | ⟨row, hfind, hp, h⟩
  · rw [h]
  · rw [h]
    exact .single (.movedExecution hfind (hnext row hp))

theorem runExecution_changes (h : runExecution catalog eid db = .ok (u, db')) :
    Changes platform catalog root permitted db db' := by
  unfold runExecution at h
  cases hfind : db.executions.find eid with
  | none =>
    rw [hfind] at h
    cases h
  | some row =>
    rw [hfind] at h
    obtain ⟨_, -, h⟩ := bind_eq_ok.mp h
    obtain ⟨_, -, h⟩ := bind_eq_ok.mp h
    cases h
    apply updateExecution_changes
    intro row hrow
    rw [decide_eq_true_eq] at hrow
    rw [hrow]
    decide

theorem persistEvent_moveExecution {status : ExecutionStatus}
    {resultJson : Option JsonText} {failureCategory : Option FailureCategory}
    (hfind : db.executions.find eid = some row) (hnext : status ∈ row.status.next)
    (hterminal : status.terminalKind = some options.kind) (hid : options.executionId = eid)
    (hprogress : options.progressId = none) (h : persistEvent platform options
      (moveExecution eid status resultJson failureCategory db) = .ok (event, db')) :
    Changes platform catalog root permitted db db' ∧ Held platform db' event := by
  have hmoved := find_moveExecution status resultJson failureCategory hfind options.executionId
  rw [if_pos hid] at hmoved
  have hkind : options.kind ≠ .progress := fun hkind =>
    status.terminalKind_ne_progress (hterminal.trans (congrArg some hkind))
  have hagrees : options.Agrees status := by
    unfold PersistEventOptions.Agrees
    rw [hprogress]
    exact hterminal
  obtain ⟨hchanges, hheld⟩ := persistEvent_changes (stableEventId_terminal hprogress hkind) hmoved
    hagrees h
  exact ⟨.head (.movedExecution hfind hnext) hchanges, hheld⟩

theorem completeExecution_changes {result : JsValue} {event : Option ExecutionEvent}
    (h : completeExecution platform eid result db = .ok (event, db')) :
    Changes platform catalog root permitted db db' ∧ ∀ e, event = some e → Held platform db' e := by
  unfold completeExecution at h
  cases hfind : db.executions.find eid with
  | none =>
    rw [hfind] at h
    cases h
  | some row =>
    rw [hfind] at h
    obtain ⟨encodedResult, -, h⟩ := bind_eq_ok.mp h
    rcases updateExecution_cases eid (·.status = .running) .completed (some encodedResult)
      none db with hupdate | ⟨row', hfind', hrunning, hupdate⟩
    · rw [hupdate] at h
      cases h
      exact ⟨.refl, fun e h => nomatch h⟩
    · rw [hupdate] at h
      obtain ⟨⟨event, db''⟩, hevent, h⟩ := bind_eq_ok.mp h
      cases h
      rw [hfind] at hfind'
      cases hfind'
      have hnext : ExecutionStatus.completed ∈ row.status.next := by
        rw [decide_eq_true_eq.mp hrunning]
        decide
      obtain ⟨hchanges, hheld⟩ := persistEvent_moveExecution hfind hnext rfl rfl rfl hevent
      exact ⟨hchanges, fun e h => by cases h; exact hheld⟩

theorem failExecution_changes {category : FailureCategory} {event : Option ExecutionEvent}
    (h : failExecution platform eid category db = .ok (event, db')) :
    Changes platform catalog root permitted db db' ∧ ∀ e, event = some e → Held platform db' e := by
  unfold failExecution at h
  cases hfind : db.executions.find eid with
  | none =>
    rw [hfind] at h
    cases h
  | some row =>
    rw [hfind] at h
    dsimp only at h
    split at h
    · cases h
      exact ⟨.refl, fun e h => nomatch h⟩
    · split at h
      · cases h
      · next hsettled hcompleted =>
        rcases updateExecution_cases eid (fun _ => true)
          (if category = .needsAttention then .needsAttention else .failed) none (some category)
          db with hupdate | ⟨row', hfind', -, hupdate⟩
        · -- the row has been found, so that it is updated
          unfold updateExecution Table.updateWhere at hupdate
          simp [hfind] at hupdate
        · rw [hupdate] at h
          obtain ⟨⟨event, db''⟩, hevent, h⟩ := bind_eq_ok.mp h
          cases h
          have hnext : (if category = .needsAttention then ExecutionStatus.needsAttention
              else .failed) ∈ row.status.next := by
            cases hstatus : row.status <;> cases category <;> simp_all [ExecutionStatus.next]
          have hterminal : (if category = .needsAttention then ExecutionStatus.needsAttention
              else .failed).terminalKind = some .failed := by
            cases category <;> rfl
          obtain ⟨hchanges, hheld⟩ := persistEvent_moveExecution hfind hnext
            (hterminal.trans rfl) rfl rfl hevent
          exact ⟨hchanges, fun e h => by cases h; exact hheld⟩

/-! ## Controls -/

theorem ownedExecutionRow_eq_ok :
    ownedExecutionRow request db = .ok row ↔ db.executions.find request.executionId = some row ∧
      row.conversationId = request.conversationId ∧ row.workspaceId = request.workspaceId := by
  unfold ownedExecutionRow
  cases hfind : db.executions.find request.executionId with
  | none => simp
  | some other =>
    rw [filter_some]
    split
    · next hsome =>
      split at hsome
      · next howner =>
        cases hsome
        rw [and_eq_true, decide_eq_true_eq, decide_eq_true_eq] at howner
        constructor
        · intro h
          cases h
          exact ⟨rfl, howner⟩
        · rintro ⟨h, -⟩
          cases h
          rfl
      · cases hsome
    · next hnone =>
      split at hnone
      · cases hnone
      · next howner =>
        rw [and_eq_true, decide_eq_true_eq, decide_eq_true_eq] at howner
        constructor
        · intro h
          cases h
        · rintro ⟨h, hconversation, hworkspace⟩
          cases h
          exact absurd ⟨hconversation, hworkspace⟩ howner

theorem owned_of_row (h : ownedExecutionRow request db = .ok row) : Owned db request :=
  ⟨row, ownedExecutionRow_eq_ok.mp h⟩

theorem inspectExecution_changes (h : inspectExecution platform catalog request db = .ok (u, db')) :
    Changes platform catalog root permitted db db' := by
  unfold inspectExecution at h
  obtain ⟨_, hvalid, h⟩ := bind_eq_ok.mp h
  obtain ⟨requestHash, hhash, h⟩ := bind_eq_ok.mp h
  obtain ⟨row, hrow, h⟩ := bind_eq_ok.mp h
  split at h
  · obtain ⟨_, -, h⟩ := bind_eq_ok.mp h
    obtain ⟨_, -, h⟩ := bind_eq_ok.mp h
    cases h
    exact .refl
  · obtain ⟨receipt, hreceipt, h⟩ := bind_eq_ok.mp h
    obtain ⟨resultJson, hjson, h⟩ := bind_eq_ok.mp h
    obtain ⟨db'', hinsert, h⟩ := bind_eq_ok.mp h
    cases h
    exact .single (.insertedControl (ensure_eq_ok.mp hvalid) (owned_of_row hrow) hhash
      (.inr ⟨rfl, row, receipt, resultJson, hrow, hreceipt, hjson, rfl⟩) hinsert)

theorem acceptControl_changes {kind : ControlKind} {row : Option ExecutionRow}
    (h : acceptControl platform catalog kind request db = .ok (row, db')) :
    Changes platform catalog root permitted db db' ∧ Owned db' request := by
  unfold acceptControl at h
  obtain ⟨_, hvalid, h⟩ := bind_eq_ok.mp h
  obtain ⟨requestHash, hhash, h⟩ := bind_eq_ok.mp h
  obtain ⟨row, hrow, h⟩ := bind_eq_ok.mp h
  have howned := owned_of_row hrow
  suffices Changes platform catalog root permitted db db' from
    ⟨this, howned.mono this.extends⟩
  split at h
  · obtain ⟨_, -, h⟩ := bind_eq_ok.mp h
    obtain ⟨_, -, h⟩ := bind_eq_ok.mp h
    cases h
    exact .refl
  · split at h
    · cases h
    · obtain ⟨_, -, h⟩ := bind_eq_ok.mp h
      obtain ⟨_, hrunning, h⟩ := bind_eq_ok.mp h
      obtain ⟨db'', hinsert, h⟩ := bind_eq_ok.mp h
      have hcontrol : Changes platform catalog root permitted db db'' :=
        .single (.insertedControl (ensure_eq_ok.mp hvalid) howned hhash (.inl ⟨rfl, rfl⟩) hinsert)
      split at h
      · cases h
        -- the control's row is new, and the Execution runs as before
        obtain ⟨controls, -, rfl⟩ := insertControl_eq_ok hinsert
        refine hcontrol.tail (.movedExecution (ownedExecutionRow_eq_ok.mp hrow).1 ?_)
        rw [ensure_eq_ok, decide_eq_true_eq] at hrunning
        rw [hrunning]
        decide
      · cases h
        exact hcontrol

theorem failCancellation_changes (request : ControlRequest) :
    Changes platform catalog root permitted db (failCancellation request db) := by
  refine .head (.failedControl request) (updateExecution_changes ?_)
  intro row hrow
  rw [decide_eq_true_eq] at hrow
  rw [hrow]
  decide

theorem cancelExecution_changes (h : cancelExecution platform request db = .ok (event, db')) :
    Changes platform catalog root permitted db db' ∧ Held platform db' event := by
  unfold cancelExecution at h
  rcases updateExecution_cases request.executionId (·.status = .cancelling) .cancelled none none db
    with hupdate | ⟨row, hfind, hcancelling, hupdate⟩
  · rw [hupdate] at h
    obtain ⟨_, hchanges, h⟩ := bind_eq_ok.mp h
    rw [ensure_eq_ok] at hchanges
    cases hchanges
  · rw [hupdate] at h
    obtain ⟨_, -, h⟩ := bind_eq_ok.mp h
    have hnext : ExecutionStatus.cancelled ∈ row.status.next := by
      rw [decide_eq_true_eq.mp hcancelling]
      decide
    exact persistEvent_moveExecution hfind hnext rfl rfl rfl h

theorem reportFollowUpFailure_changes (howned : Owned db request)
    (h : reportFollowUpFailure platform request row db = .ok (event, db')) :
    Changes platform catalog root permitted db db' ∧ Held platform db' event := by
  obtain ⟨row, hfind, -⟩ := howned
  unfold reportFollowUpFailure at h
  exact persistEvent_changes rfl hfind (by rfl) h

/-! ## Starting the runtime -/

theorem recoverCancellation_changes {control : ControlRow}
    (h : recoverCancellation platform control db = .ok db') :
    Changes platform catalog root permitted db db' := by
  unfold recoverCancellation at h
  rcases updateExecution_cases control.executionId (·.status = .cancelling) .needsAttention none
    (some .needsAttention) db with hupdate | ⟨row, hfind, hcancelling, hupdate⟩
  · rw [hupdate] at h
    cases h
    exact .refl
  · rw [hupdate] at h
    obtain ⟨⟨event, db''⟩, hevent, h⟩ := bind_eq_ok.mp h
    cases h
    have hnext : ExecutionStatus.needsAttention ∈ row.status.next := by
      rw [decide_eq_true_eq.mp hcancelling]
      decide
    exact (persistEvent_moveExecution hfind hnext rfl rfl rfl hevent).1

theorem recoverCancellations_changes {controls : List ControlRow}
    (h : recoverCancellations platform controls db = .ok db') :
    Changes platform catalog root permitted db db' := by
  induction controls generalizing db with
  | nil =>
    cases h
    exact .refl
  | cons control controls ih =>
    obtain ⟨db'', hcontrol, h⟩ := bind_eq_ok.mp h
    exact (recoverCancellation_changes hcontrol).trans (ih h)

theorem initializeLaborerTables_changes (h : initializeLaborerTables platform db = .ok db') :
    Changes platform catalog root permitted db db' := by
  unfold initializeLaborerTables at h
  obtain ⟨_, -, h⟩ := bind_eq_ok.mp h
  obtain ⟨db'', hrecover, h⟩ := bind_eq_ok.mp h
  cases h
  exact (ReflTransGen.head .failedAccepted (recoverCancellations_changes hrecover)).tail
    .initialized

theorem validateRootRegistration_changes
    (h : validateRootRegistration platform catalog root db = .ok db') :
    Changes platform catalog root permitted db db' := by
  unfold validateRootRegistration at h
  obtain ⟨_, -, h⟩ := bind_eq_ok.mp h
  obtain ⟨_, -, h⟩ := bind_eq_ok.mp h
  obtain ⟨_, -, h⟩ := bind_eq_ok.mp h
  obtain ⟨_, -, h⟩ := bind_eq_ok.mp h
  obtain ⟨_, -, h⟩ := bind_eq_ok.mp h
  obtain ⟨_, -, h⟩ := bind_eq_ok.mp h
  cases h
  exact .single .registeredRoot

theorem restart_changes : Changes platform catalog root permitted db
    (restart platform catalog root db).db := by
  unfold restart
  split
  · exact .refl
  · next db' hinitialize =>
    split
    · exact initializeLaborerTables_changes hinitialize
    · next db'' hvalidate =>
      exact (initializeLaborerTables_changes hinitialize).trans
        (validateRootRegistration_changes hvalidate)

theorem restart_fibers : (restart platform catalog root db).fibers = [] := by
  unfold restart
  split
  · rfl
  · split <;> rfl

theorem restartInterrupted_changes : Changes platform catalog root permitted db
    (restartInterrupted platform db).db := by
  unfold restartInterrupted
  split
  · exact .refl
  · next db' h => exact initializeLaborerTables_changes h

theorem restartInterrupted_fibers : (restartInterrupted platform db).fibers = [] := by
  unfold restartInterrupted
  split <;> rfl

/-! ## Fibers -/

/-- What a fiber has in hand is stored, and its requests are for their clients' Executions. -/
def Fiber.Ok (platform : Platform) (db : RuntimeDatabase) : Fiber → Prop
  | .accept event => Held platform db event
  | .acknowledge _ => True
  | .followUp request _ | .deliverFollowUp request _ | .reportFailure request _ | .cancel request =>
    Owned db request
  | .completeCancel _ event => Held platform db event

theorem Fiber.Ok.mono {f : Fiber} (h : f.Ok platform db) (hdb : Extends db db') :
    f.Ok platform db' := by
  cases f with
  | accept event => exact Held.mono h hdb
  | acknowledge eventId => trivial
  | completeCancel request event => exact Held.mono h hdb
  | _ => exact Owned.mono h hdb

def FibersOk (platform : Platform) (s : RuntimeState) : Prop :=
  ∀ f ∈ s.fibers, f.Ok platform s.db

/-- Every stored payload is the canonical text of one that is not too large. -/
def PayloadsOk (platform : Platform) (db : RuntimeDatabase) : Prop :=
  ∀ row ∈ db.executionEvents.rows,
    ∃ payload, boundedExecutionEventPayloadJson platform payload = .ok row.payloadJson

theorem PayloadsOk.changes (h : PayloadsOk platform db)
    (hchanges : Changes platform catalog root permitted db db') : PayloadsOk platform db' := by
  induction hchanges with
  | refl => exact h
  | tail _ hlast ih =>
    intro row hrow
    rcases hlast.events hrow with hrow | ⟨options, execution, hreported⟩
    · exact ih row hrow
    · exact ⟨_, hreported.payload⟩

theorem held_of_row (hlawful : platform.Lawful) (h : PayloadsOk platform db)
    {row : ExecutionEventRow} (hrow : row ∈ db.executionEvents.rows) :
    Held platform db row.event := by
  obtain ⟨payload, hpayload⟩ := h row hrow
  obtain ⟨⟨hok, -⟩, htext⟩ := (boundedJson_eq_ok (by decide)).mp hpayload
  have hparse : row.event.payload = reread platform payload := by
    unfold reread
    rw [← htext]
    rfl
  refine ⟨row, hrow, rfl, ?_, ?_⟩
  · rw [hparse]
    exact isCanonicalizable_reread hlawful hok
  · rw [hparse, canonicalText_reread hlawful hok, htext]

theorem mem_pendingRows {wid : String} {cid : Option String}
    {row : ExecutionEventRow} (h : row ∈ pendingRows db wid cid) :
    row ∈ db.executionEvents.rows := by
  obtain ⟨outbox, -, hfind⟩ := mem_filterMap.mp (mem_filter.mp h).1
  exact Table.mem_of_find hfind

/-! ## Steps -/

/-- What a fiber does of what only some steps do, when it goes on. -/
def Fiber.Needs (outcome : Bool) : Fiber → Permission → Prop
  | .deliverFollowUp _ _, .failFollowUp => outcome = false
  | .acknowledge eventId, .acknowledge eventId' => eventId = eventId'
  | .accept event, .deliver event' => event = event'
  | _, _ => False

def Needs (step : RuntimeStep) (s : RuntimeState) (permission : Permission) : Prop :=
  match step with
  | .acknowledgeEvent eventId _ _ => permission = .acknowledge eventId
  | .startConversationEvent _ _ | .finishConversationEvent _ _ _ => permission = .answer
  | .advance fiber outcome =>
    ∃ f, s.fibers[fiber]? = some f ∧ f.Needs outcome permission
  | _ => False

/-- From a state on, the database has undergone some changes and the fibers are in order. -/
def Continues (platform : Platform) (catalog : RegisteredActionCatalog) (rootIdentity : String)
    (permitted : Permission → Prop) (s s' : RuntimeState) : Prop :=
  Changes platform catalog rootIdentity permitted s.db s'.db ∧ FibersOk platform s'

variable {s : RuntimeState}

section

variable (hfibers : FibersOk platform s)
include hfibers

theorem continues_self : Continues platform catalog root permitted s s :=
  ⟨.refl, hfibers⟩

theorem FibersOk.mono {fibers : List Fiber}
    (hdb : Extends s.db db') (hsub : ∀ f ∈ fibers, f ∈ s.fibers ∨ f.Ok platform db')
    (started : Bool) : FibersOk platform { db := db', started := started, fibers := fibers } := by
  intro f hf
  rcases hsub f hf with hf | hok
  · exact (hfibers f hf).mono hdb
  · exact hok

theorem continues_commit {α : Type} {result : Except Failure (α × RuntimeDatabase)}
    (h : ∀ a db', result = .ok (a, db') → Changes platform catalog root permitted s.db db') :
    Continues platform catalog root permitted s (s.commit result) := by
  unfold RuntimeState.commit
  split
  · next a db' =>
    have hchanges := h a db' rfl
    exact ⟨hchanges, hfibers.mono hchanges.extends (fun f hf => .inl hf) _⟩
  · exact continues_self hfibers

theorem continues_spawn {α : Type} (fiber : α → List Fiber)
    {result : Except Failure (α × RuntimeDatabase)} (h : ∀ a db', result = .ok (a, db') →
      Changes platform catalog root permitted s.db db' ∧ ∀ f ∈ fiber a, f.Ok platform db') :
    Continues platform catalog root permitted s (s.spawn fiber result) := by
  unfold RuntimeState.spawn
  split
  · next a db' =>
    obtain ⟨hchanges, hnew⟩ := h a db' rfl
    refine ⟨hchanges, hfibers.mono hchanges.extends ?_ _⟩
    intro f hf
    rcases mem_append.mp hf with hf | hf
    · exact .inl hf
    · exact .inr (hnew f hf)
  · exact continues_self hfibers

theorem continues_report {result : Except Failure (Option ExecutionEvent × RuntimeDatabase)}
    (h : ∀ event db', result = .ok (event, db') → Changes platform catalog root permitted s.db db' ∧
        ∀ e, event = some e → Held platform db' e) : Continues platform catalog root permitted s
      (s.spawn (fun event => event.toList.map .accept) result) := by
  apply continues_spawn hfibers
  intro event db' hresult
  obtain ⟨hchanges, hheld⟩ := h event db' hresult
  refine ⟨hchanges, fun f hf => ?_⟩
  obtain ⟨e, he, rfl⟩ := mem_map.mp hf
  exact hheld e (mem_toList.mp he)

theorem advanceFiber_continues {outcome : Bool} {f : Fiber} (hf : f.Ok platform s.db)
    (hpermitted : ∀ permission, f.Needs outcome permission → permitted permission) :
    Continues platform catalog root permitted s
      (advanceFiber platform catalog root outcome s f) := by
  cases f with (try apply continues_spawn hfibers)
  | accept event =>
    intro payload db' h
    refine ⟨.single (.delivered hf h (hpermitted _ rfl)), fun f hf => ?_⟩
    split at hf
    · rw [mem_singleton.mp hf]
      trivial
    · cases hf
  | acknowledge eventId =>
    exact ⟨.single (.acknowledged eventId (hpermitted _ rfl)),
      hfibers.mono (extends_of_eq rfl rfl) (fun f hf => .inl hf) _⟩
  | followUp request row =>
    intro u db' h
    have hchanges : Changes platform catalog root permitted s.db db' :=
      .single (.completedControl h)
    refine ⟨hchanges, fun f hf' => ?_⟩
    rw [mem_singleton.mp hf']
    exact Owned.mono hf hchanges.extends
  | deliverFollowUp request row =>
    cases outcome with
    | true => exact continues_self hfibers
    | false =>
      have hchanges : Changes platform catalog root permitted s.db (failFollowUp request s.db) :=
        .single (.failedFollowUp request (hpermitted _ rfl))
      refine ⟨hchanges, hfibers.mono hchanges.extends ?_ _⟩
      intro f hf'
      rcases mem_append.mp hf' with hf' | hf'
      · exact .inl hf'
      · right
        rw [mem_singleton.mp hf']
        exact Owned.mono hf hchanges.extends
  | reportFailure request row =>
    intro event db' h
    obtain ⟨hchanges, hheld⟩ := reportFollowUpFailure_changes hf h
    refine ⟨hchanges, fun f hf' => ?_⟩
    rw [mem_singleton.mp hf']
    exact hheld
  | cancel request =>
    cases outcome with
    | true =>
      apply continues_spawn hfibers
      intro event db' h
      obtain ⟨hchanges, hheld⟩ := cancelExecution_changes h
      refine ⟨hchanges, fun f hf' => ?_⟩
      rw [mem_singleton.mp hf']
      exact hheld
    | false =>
      have hchanges : Changes platform catalog root permitted s.db
          (failCancellation request s.db) := failCancellation_changes request
      exact ⟨hchanges, hfibers.mono hchanges.extends (fun f hf => .inl hf) _⟩
  | completeCancel request event =>
    intro u db' h
    have hchanges : Changes platform catalog root permitted s.db db' :=
      .single (.completedControl h)
    refine ⟨hchanges, fun f hf' => ?_⟩
    rw [mem_singleton.mp hf']
    exact Held.mono hf hchanges.extends

end

theorem stepStarted_continues (hlawful : platform.Lawful) (hfibers : FibersOk platform s)
    (hpayloads : PayloadsOk platform s.db) {step : RuntimeStep}
    (hpermitted : ∀ permission, Needs step s permission → permitted permission) :
    Continues platform catalog root permitted s (stepStarted platform catalog root s step) := by
  cases step with
  | restart =>
    refine ⟨restart_changes, ?_⟩
    unfold FibersOk stepStarted
    rw [restart_fibers]
    exact fun f hf => absurd hf not_mem_nil
  | interruptedRestart =>
    refine ⟨restartInterrupted_changes, ?_⟩
    unfold FibersOk stepStarted
    rw [restartInterrupted_fibers]
    exact fun f hf => absurd hf not_mem_nil
  | startExecution request now =>
    exact continues_commit hfibers fun a db' h => startExecution_changes h
  | runExecution eid => exact continues_commit hfibers fun a db' h => runExecution_changes h
  | reportProgress eid progressId progress =>
    apply continues_spawn hfibers
    intro event db' h
    obtain ⟨hchanges, hheld⟩ := reportProgress_changes h
    refine ⟨hchanges, fun f hf => ?_⟩
    rw [mem_singleton.mp hf]
    exact hheld
  | completeExecution eid result =>
    exact continues_report hfibers fun event db' h => completeExecution_changes h
  | failExecution eid category =>
    exact continues_report hfibers fun event db' h => failExecution_changes h
  | registerConversation cid wid =>
    apply continues_commit hfibers
    intro u db' h
    obtain ⟨_, hconversation, h⟩ := bind_eq_ok.mp h
    obtain ⟨_, hworkspace, h⟩ := bind_eq_ok.mp h
    cases h
    exact .single (.registered (ensure_eq_ok.mp hconversation) (ensure_eq_ok.mp hworkspace))
  | runConversation request => exact continues_commit hfibers fun a db' h => .single (.ran h)
  | startConversationEvent wid eventId =>
    exact ⟨.single (.startedConversationEvent wid eventId (hpermitted _ rfl)),
      hfibers.mono (extends_of_eq rfl rfl) (fun f hf => .inl hf) _⟩
  | finishConversationEvent wid eventId outputs =>
    exact ⟨.single (.finishedConversationEvent wid eventId outputs (hpermitted _ rfl)),
      hfibers.mono (extends_of_eq rfl rfl) (fun f hf => .inl hf) _⟩
  | readPending wid cid =>
    refine ⟨.refl, hfibers.mono (Extends.refl _) ?_ _⟩
    intro f hf
    rcases mem_append.mp hf with hf | hf
    · exact .inl hf
    · right
      obtain ⟨row, hrow, rfl⟩ := mem_map.mp hf
      exact held_of_row hlawful hpayloads (mem_pendingRows (mem_of_mem_take hrow))
  | acknowledgeEvent eventId cid wid =>
    apply continues_commit hfibers
    intro u db' h
    obtain ⟨_, -, h⟩ := bind_eq_ok.mp h
    split at h
    · cases h
      exact .single (.acknowledged eventId (hpermitted _ rfl))
    · cases h
      exact .refl
  | inspectExecution request =>
    exact continues_commit hfibers fun a db' h => inspectExecution_changes h
  | followUpExecution request =>
    apply continues_spawn hfibers
    intro row db' h
    obtain ⟨hchanges, howned⟩ := acceptControl_changes h
    refine ⟨hchanges, fun f hf => ?_⟩
    obtain ⟨row, -, rfl⟩ := mem_map.mp hf
    exact howned
  | cancelExecution request =>
    apply continues_spawn hfibers
    intro row db' h
    obtain ⟨hchanges, howned⟩ := acceptControl_changes h
    refine ⟨hchanges, fun f hf => ?_⟩
    obtain ⟨row, -, rfl⟩ := mem_map.mp hf
    exact howned
  | advance fiber outcome =>
    cases hfiber : s.fibers[fiber]? with
    | none =>
      have hstep : stepStarted platform catalog root s (.advance fiber outcome) = s := by
        simp only [stepStarted, hfiber]
      rw [hstep]
      exact continues_self hfibers
    | some f =>
      have hstep : stepStarted platform catalog root s (.advance fiber outcome) =
          advanceFiber platform catalog root outcome
            { s with fibers := s.fibers.eraseIdx fiber } f := by
        simp only [stepStarted, hfiber]
      have hrest : FibersOk platform { s with fibers := s.fibers.eraseIdx fiber } :=
        fun f hf => hfibers f (mem_of_mem_eraseIdx hf)
      rw [hstep]
      apply advanceFiber_continues hrest (hfibers f (mem_of_getElem? hfiber))
      exact fun permission hneeds => hpermitted permission ⟨f, hfiber, hneeds⟩

/-- **A step is a sequence of changes, after which the fibers are in order.** -/
theorem runtimeStep_continues (hlawful : platform.Lawful) (hfibers : FibersOk platform s)
    (hpayloads : PayloadsOk platform s.db) {step : RuntimeStep}
    (hpermitted : ∀ permission, Needs step s permission → permitted permission) :
    Continues platform catalog root permitted s (runtimeStep platform catalog root step s) := by
  unfold runtimeStep
  split
  · exact stepStarted_continues hlawful hfibers hpayloads hpermitted
  · split
    · refine ⟨restart_changes, ?_⟩
      unfold FibersOk
      rw [restart_fibers]
      exact fun f hf => absurd hf not_mem_nil
    · refine ⟨restartInterrupted_changes, ?_⟩
      unfold FibersOk
      rw [restartInterrupted_fibers]
      exact fun f hf => absurd hf not_mem_nil
    · exact continues_self hfibers

end Laborer.DurableRuntime
