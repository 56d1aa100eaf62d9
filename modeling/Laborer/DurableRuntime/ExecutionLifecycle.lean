import Laborer.DurableRuntime.OutboxDelivery

/-!
# The life of an Execution

How the status of an Execution moves, which events report its end, and how often the
capabilities of its controls are invoked.
-/

namespace Laborer.DurableRuntime

open Library Relation List Table Option

variable {platform : Platform} {catalog : RegisteredActionCatalog} {rid : String}
  {permitted : Permission → Prop} {db db' : RuntimeDatabase} {request : ControlRequest}
  {invoked : List (String × String)} {s : RuntimeState}

/-! ## Statuses -/

def statusOf (db : RuntimeDatabase) (executionId : String) : Option ExecutionStatus :=
  (db.executions.find executionId).map (·.status)

/-- From one status to another, in the order of an Execution's life. -/
def ExecutionStatus.Moves : ExecutionStatus → ExecutionStatus → Prop :=
  ReflTransGen fun status status' => status' ∈ status.next

def StatusMoves : Option ExecutionStatus → Option ExecutionStatus → Prop
  | none, none => True
  | none, some status => ExecutionStatus.queued.Moves status
  | some status, some status' => status.Moves status'
  | some _, none => False

theorem StatusMoves.refl (status : Option ExecutionStatus) : StatusMoves status status := by
  cases status with
  | none => trivial
  | some status => exact ReflTransGen.refl

theorem StatusMoves.trans {status status' status'' : Option ExecutionStatus}
    (h : StatusMoves status status') (h' : StatusMoves status' status'') :
    StatusMoves status status'' := by
  cases status with
  | none =>
    cases status' with
    | none => exact h'
    | some status' =>
      cases status'' with
      | none => exact h'.elim
      | some status'' => exact ReflTransGen.trans h h'
  | some status =>
    cases status' with
    | none => exact h.elim
    | some status' =>
      cases status'' with
      | none => exact h'.elim
      | some status'' => exact ReflTransGen.trans h h'

/-- **A status that ends an Execution is its last.** -/
theorem ExecutionStatus.Moves.eq_of_ended {status status' : ExecutionStatus}
    (h : status.Moves status') (hended : status.ended = true) : status' = status := by
  rcases ReflTransGen.cases_head h with heq | ⟨next, hnext, -⟩
  · exact heq.symm
  · unfold ended at hended
    rw [List.isEmpty_iff.mp hended] at hnext
    exact absurd hnext not_mem_nil

theorem Change.statuses (h : Change platform catalog rid permitted db db')
    (eid : String) : StatusMoves (statusOf db eid) (statusOf db' eid) := by
  rcases h.executions_cases with heq | ⟨row, -, hqueued, -, hinsert⟩ |
    ⟨moved, row, status, resultJson, failureCategory, hfind, hnext, rfl⟩
  · unfold statusOf
    rw [heq]
    exact StatusMoves.refl _
  · unfold statusOf
    rw [find_insert hinsert]
    split
    · next hid =>
      rw [← hid, (insert_eq_some_iff.mp hinsert).1]
      show ExecutionStatus.queued.Moves row.status
      rw [hqueued]
      exact ReflTransGen.refl
    · exact StatusMoves.refl _
  · unfold statusOf
    rw [find_moveExecution _ _ _ hfind]
    split
    · next hid =>
      rw [hid, hfind]
      exact ReflTransGen.single hnext
    · exact StatusMoves.refl _

theorem Changes.statuses (h : Changes platform catalog rid permitted db db')
    (eid : String) : StatusMoves (statusOf db eid) (statusOf db' eid) := by
  induction h with
  | refl => exact StatusMoves.refl _
  | tail _ hlast ih => exact ih.trans (hlast.statuses eid)

theorem StatusMoves.eq_of_ended {status : ExecutionStatus} {status' : Option ExecutionStatus}
    (h : StatusMoves (some status) status') (hended : status.ended = true) :
    status' = some status := by
  cases status' with
  | none => exact h.elim
  | some status' => exact congrArg some (ExecutionStatus.Moves.eq_of_ended h hended)

/-! ## The event of the end -/

/-- The event reports the end of its Execution. -/
def ExecutionEventRow.IsTerminal (event : ExecutionEventRow) : Prop :=
  event.kind ≠ .progress

/-- What holds of the events that report the end of an Execution: they are stored under one
identity, and agree with its status. -/
structure TerminalEventsOk (db : RuntimeDatabase) : Prop where
  eventId : ∀ event ∈ db.executionEvents.rows, event.IsTerminal →
    event.eventId = "execution:" ++ event.executionId ++ ":terminal"
  agrees : ∀ event ∈ db.executionEvents.rows, event.IsTerminal →
    ∃ status, statusOf db event.executionId = some status ∧ status.terminalKind = some event.kind

theorem TerminalEventsOk.empty : TerminalEventsOk .empty where
  eventId := fun _ h => absurd h List.not_mem_nil
  agrees := fun _ h => absurd h List.not_mem_nil

theorem TerminalEventsOk.change (h : TerminalEventsOk db)
    (hchange : Change platform catalog rid permitted db db') : TerminalEventsOk db' where
  eventId := by
    intro event hevent hterminal
    rcases hchange.events hevent with hevent | ⟨options, execution, hreported⟩
    · exact h.eventId event hevent hterminal
    · have hagrees := hreported.agrees
      have hstable := hreported.stable
      unfold PersistEventOptions.Agrees at hagrees
      unfold PersistEventOptions.stableEventId at hstable
      rw [ExecutionEventRow.IsTerminal, hreported.kind] at hterminal
      split at hagrees
      · exact absurd hagrees hterminal
      · next hprogress =>
        rw [hprogress] at hstable
        rw [if_neg hterminal, Option.some.injEq] at hstable
        rw [hreported.executionId, ← hstable]
  agrees := by
    intro event hevent hterminal
    suffices ∃ status, statusOf db event.executionId = some status ∧
        status.terminalKind = some event.kind by
      obtain ⟨status, hstatus, hkind⟩ := this
      have hmoves := hchange.statuses event.executionId
      rw [hstatus] at hmoves
      have hended : status.ended = true := by
        rw [← ExecutionStatus.isSome_terminalKind, hkind]
        rfl
      exact ⟨status, hmoves.eq_of_ended hended, hkind⟩
    rcases hchange.events hevent with hevent | ⟨options, execution, hreported⟩
    · exact h.agrees event hevent hterminal
    · have hagrees := hreported.agrees
      unfold PersistEventOptions.Agrees at hagrees
      rw [ExecutionEventRow.IsTerminal, hreported.kind] at hterminal
      split at hagrees
      · exact absurd hagrees hterminal
      · refine ⟨execution.status, ?_, hreported.kind ▸ hagrees⟩
        unfold statusOf
        rw [hreported.executionId, hreported.find]
        rfl

theorem TerminalEventsOk.changes (h : TerminalEventsOk db)
    (hchanges : Changes platform catalog rid permitted db db') : TerminalEventsOk db' := by
  induction hchanges with
  | refl => exact h
  | tail _ hlast ih => exact ih.change hlast

/-- **An Execution has one event of its end at most.** -/
theorem TerminalEventsOk.unique (h : TerminalEventsOk db) {event event' : ExecutionEventRow}
    (hevent : event ∈ db.executionEvents.rows) (hevent' : event' ∈ db.executionEvents.rows)
    (hterminal : event.IsTerminal) (hterminal' : event'.IsTerminal)
    (hid : event.executionId = event'.executionId) : event = event' := by
  apply some.inj
  rw [← find_key hevent, ← find_key hevent', h.eventId event hevent hterminal,
    h.eventId event' hevent' hterminal', hid]

/-! ## Controls -/

def ControlRequest.key (request : ControlRequest) : String × String :=
  (request.workspaceId, request.controlId)

def HasControl (db : RuntimeDatabase) (key : String × String) : Prop :=
  (db.executionControls.find key).isSome = true

theorem hasControl_updateControl {p : ControlRow → Bool}
    {status : ControlStatus} {resultJson : Option JsonText} {key : String × String}
    (h : HasControl db key) : HasControl (updateControl request p status resultJson db) key := by
  unfold HasControl updateControl updateWhere at *
  dsimp only
  split
  · rw [find_modify]
    split
    · next heq =>
      rw [isSome_map, ← heq]
      exact h
    · exact h
  · exact h

theorem Change.hasControl (h : Change platform catalog rid permitted db db')
    {key : String × String} (hkey : HasControl db key) : HasControl db' key := by
  cases h with
  | insertedControl hvalid howned hhash hresult hinsert =>
    obtain ⟨rows, hrows, rfl⟩ := insertControl_eq_ok hinsert
    unfold HasControl
    dsimp only
    rw [find_insert hrows]
    split
    · rfl
    · exact hkey
  | completedControl h =>
    obtain ⟨control, receipt, resultJson, -, -, -, rfl⟩ := completeControl_eq_ok h
    exact hasControl_updateControl hkey
  | failedControl request => exact hasControl_updateControl hkey
  | failedFollowUp request hallowed => exact hasControl_updateControl hkey
  | failedAccepted =>
    unfold HasControl failAcceptedControls
    dsimp only
    rw [find_mapRows, isSome_map]
    exact hkey
  | registered =>
    obtain ⟨conversations, heq⟩ := registerConversation_eq _ _ _ _ _
    rw [heq]
    exact hkey
  | ran h =>
    obtain ⟨conversations, conversationEvents, rfl⟩ := runConversation_frame h
    exact hkey
  | delivered hheld h =>
    obtain ⟨conversationEvents, rfl⟩ := acceptExecutionEvent_frame h
    exact hkey
  | reported hstable hfind hagrees hpayload hinsert =>
    obtain ⟨events, outbox, -, -, -, -, rfl⟩ := insertEvent_eq_ok hinsert
    exact hkey
  | registeredRoot =>
    obtain ⟨metadata, heq⟩ := registerRoot_eq _ _ _
    rw [heq]
    exact hkey
  | _ => exact hkey

theorem Changes.hasControl (h : Changes platform catalog rid permitted db db')
    {key : String × String} (hkey : HasControl db key) : HasControl db' key := by
  induction h with
  | refl => exact hkey
  | tail _ hlast ih => exact hlast.hasControl ih

/-- A control whose capability is to be invoked was not there before. -/
theorem acceptControl_new {kind : ControlKind} {row : ExecutionRow}
    (h : acceptControl platform catalog kind request db = .ok (some row, db')) :
    ¬ HasControl db request.key ∧ HasControl db' request.key := by
  unfold acceptControl at h
  obtain ⟨_, -, h⟩ := bind_eq_ok.mp h
  obtain ⟨requestHash, -, h⟩ := bind_eq_ok.mp h
  obtain ⟨owned, -, h⟩ := bind_eq_ok.mp h
  split at h
  · -- the control was accepted before, and gives nothing to invoke
    obtain ⟨_, -, h⟩ := bind_eq_ok.mp h
    obtain ⟨_, -, h⟩ := bind_eq_ok.mp h
    cases h
  · next hnone =>
    split at h
    · cases h
    · obtain ⟨_, -, h⟩ := bind_eq_ok.mp h
      obtain ⟨_, -, h⟩ := bind_eq_ok.mp h
      obtain ⟨db'', hinsert, h⟩ := bind_eq_ok.mp h
      obtain ⟨rows, hrows, rfl⟩ := insertControl_eq_ok hinsert
      constructor
      · unfold HasControl ControlRequest.key
        rw [hnone]
        simp
      · have hfind : (rows.find request.key).isSome = true := by
          rw [(find_insert hrows request.key).trans (if_pos rfl)]
          rfl
        split at h
        · cases h
          exact hfind
        · cases h
          exact hfind

/-! ## Capabilities -/

def Fiber.followUpKey : Fiber → Option (String × String)
  | .followUp request _ => some request.key
  | _ => none

def pendingFollowUps (s : RuntimeState) : List (String × String) :=
  s.fibers.filterMap Fiber.followUpKey

/-- The controls whose capability a step of a started runtime invokes: a cancellation when
it is accepted, and a follow-up when it is completed. -/
def invokedByStarted (platform : Platform) (catalog : RegisteredActionCatalog)
    (s : RuntimeState) : RuntimeStep → List (String × String)
  | .cancelExecution request =>
    match acceptControl platform catalog .cancel request s.db with
    | .ok (some _, _) => [request.key]
    | _ => []
  | .advance fiber _ =>
    match s.fibers[fiber]? with
    | some (.followUp request _) =>
      match completeControl platform catalog request s.db with
      | .ok _ => [request.key]
      | .error _ => []
    | _ => []
  | _ => []

def invokedControls (platform : Platform) (catalog : RegisteredActionCatalog) (step : RuntimeStep)
    (s : RuntimeState) : List (String × String) :=
  if s.started then invokedByStarted platform catalog s step else []

/-- What was invoked and what will be: each control once, and all of them stored. -/
structure InvocationsOk (invoked : List (String × String)) (s : RuntimeState) : Prop where
  once : (invoked ++ pendingFollowUps s).Nodup
  stored : ∀ key ∈ invoked ++ pendingFollowUps s, HasControl s.db key

theorem InvocationsOk.of_subperm {invoked' : List (String × String)} {s' : RuntimeState}
    (h : InvocationsOk invoked s) (hdb : ∀ key, HasControl s.db key → HasControl s'.db key)
    (hsub : (invoked' ++ pendingFollowUps s').Subperm (invoked ++ pendingFollowUps s)) :
    InvocationsOk invoked' s' where
  once := by
    obtain ⟨keys, hperm, hsublist⟩ := hsub
    exact hperm.nodup_iff.mp (hsublist.nodup h.once)
  stored := fun key hkey => hdb key (h.stored key (hsub.subset hkey))

theorem InvocationsOk.of_new {invoked' : List (String × String)} {s' : RuntimeState}
    {new : String × String} (h : InvocationsOk invoked s) (hnew : ¬ HasControl s.db new)
    (hstored : HasControl s'.db new) (hdb : ∀ key, HasControl s.db key → HasControl s'.db key)
    (hperm : (invoked' ++ pendingFollowUps s').Perm (new :: (invoked ++ pendingFollowUps s))) :
    InvocationsOk invoked' s' where
  once := by
    rw [hperm.nodup_iff, nodup_cons]
    exact ⟨fun hmem => hnew (h.stored new hmem), h.once⟩
  stored := by
    intro key hkey
    rcases mem_cons.mp (hperm.mem_iff.mp hkey) with rfl | hkey
    · exact hstored
    · exact hdb key (h.stored key hkey)

theorem pendingFollowUps_commit {α : Type} (s : RuntimeState)
    (result : Except Failure (α × RuntimeDatabase)) :
    pendingFollowUps (s.commit result) = pendingFollowUps s := by
  unfold RuntimeState.commit
  split <;> rfl

theorem pendingFollowUps_spawn {α : Type} (s : RuntimeState) (fiber : α → List Fiber)
    (result : Except Failure (α × RuntimeDatabase))
    (hfiber : ∀ a, (fiber a).filterMap Fiber.followUpKey = []) :
    pendingFollowUps (s.spawn fiber result) = pendingFollowUps s := by
  unfold RuntimeState.spawn pendingFollowUps
  split
  · rw [filterMap_append, hfiber, append_nil]
  · rfl

/-- Only an accepted follow-up is one that will be delivered. -/
theorem pendingFollowUps_advanceFiber (outcome : Bool) (s : RuntimeState) (f : Fiber) :
    pendingFollowUps (advanceFiber platform catalog rid outcome s f) = pendingFollowUps s := by
  cases f with
  | accept event =>
    refine pendingFollowUps_spawn _ _ _ fun payload => ?_
    split <;> rfl
  | acknowledge eventId => rfl
  | deliverFollowUp request row =>
    cases outcome with
    | true => rfl
    | false =>
      unfold advanceFiber pendingFollowUps
      simp [Fiber.followUpKey]
  | cancel request =>
    cases outcome with
    | true => exact pendingFollowUps_spawn _ _ _ fun _ => rfl
    | false => rfl
  | _ => exact pendingFollowUps_spawn _ _ _ fun _ => rfl

theorem accepts_filterMap (events : List ExecutionEvent) :
    (events.map Fiber.accept).filterMap Fiber.followUpKey = [] := by
  rw [filterMap_map, filterMap_eq_nil_iff]
  exact fun event _ => rfl

theorem acceptRows_filterMap (rows : List ExecutionEventRow) :
    (rows.map fun row => Fiber.accept row.event).filterMap Fiber.followUpKey = [] := by
  rw [filterMap_map, filterMap_eq_nil_iff]
  exact fun row _ => rfl

theorem pendingFollowUps_eraseIdx {fiber : ℕ}
    {row : ExecutionRow} (hfiber : s.fibers[fiber]? = some (.followUp request row)) :
    (pendingFollowUps s).Perm
      (request.key :: pendingFollowUps { s with fibers := s.fibers.eraseIdx fiber }) := by
  obtain ⟨hlt, hget⟩ := List.getElem?_eq_some_iff.mp hfiber
  have hperm := getElem_cons_eraseIdx_perm hlt
  rw [hget] at hperm
  exact (hperm.filterMap Fiber.followUpKey).symm

theorem pendingFollowUps_eraseIdx_subperm (s : RuntimeState) (fiber : ℕ) :
    (pendingFollowUps { s with fibers := s.fibers.eraseIdx fiber }).Subperm
      (pendingFollowUps s) :=
  ((eraseIdx_sublist _ _).filterMap _).subperm

theorem InvocationsOk.advance (h : InvocationsOk invoked s) {fiber : ℕ} {f : Fiber} {outcome : Bool}
    (hfiber : s.fibers[fiber]? = some f) (hstarted : s.started = true)
    (hdb : ∀ key, HasControl s.db key → HasControl (advanceFiber platform catalog rid
      outcome { s with fibers := s.fibers.eraseIdx fiber } f).db key) :
    InvocationsOk (invoked ++ invokedControls platform catalog (.advance fiber outcome) s)
      (advanceFiber platform catalog rid outcome
        { s with fibers := s.fibers.eraseIdx fiber } f) := by
  refine h.of_subperm hdb ?_
  rw [pendingFollowUps_advanceFiber]
  have hrest := pendingFollowUps_eraseIdx_subperm s fiber
  cases f with
  | followUp request row =>
    have hpending := pendingFollowUps_eraseIdx hfiber
    unfold invokedControls
    rw [if_pos hstarted]
    simp only [invokedByStarted, hfiber]
    split
    · -- the key moves from those that will be invoked to those that were
      rw [append_assoc, singleton_append]
      exact (hpending.symm.append_left invoked).subperm
    · rw [append_nil]
      exact (subperm_append_left invoked).mpr hrest
  | _ =>
    unfold invokedControls
    rw [if_pos hstarted]
    simp only [invokedByStarted, hfiber, append_nil]
    exact (subperm_append_left invoked).mpr hrest

/-- **A step invokes nothing that was invoked before.** -/
theorem InvocationsOk.step (hlawful : platform.Lawful)
    (hfibers : FibersOk platform s) (hpayloads : PayloadsOk platform s.db)
    (h : InvocationsOk invoked s) (step : RuntimeStep) :
    InvocationsOk (invoked ++ invokedControls platform catalog step s)
      (runtimeStep platform catalog rid step s) := by
  have hcontinues : Continues platform catalog rid (fun _ => True) s
      (runtimeStep platform catalog rid step s) :=
    runtimeStep_continues hlawful hfibers hpayloads fun _ _ => trivial
  have hdb : ∀ key, HasControl s.db key →
      HasControl (runtimeStep platform catalog rid step s).db key :=
    fun key hkey => hcontinues.1.hasControl hkey
  -- most steps invoke nothing, and leave what will be invoked or lose it
  have hquiet : invokedControls platform catalog step s = [] →
      (pendingFollowUps (runtimeStep platform catalog rid step s) = [] ∨
        pendingFollowUps (runtimeStep platform catalog rid step s) = pendingFollowUps s) →
        InvocationsOk (invoked ++ invokedControls platform catalog step s)
          (runtimeStep platform catalog rid step s) := by
    intro hinvoked hpending
    apply h.of_subperm hdb
    rw [hinvoked, append_nil]
    rcases hpending with hpending | hpending
    · rw [hpending, append_nil]
      exact (sublist_append_left _ _).subperm
    · rw [hpending]
  have hrestart : ∀ s' : RuntimeState, s'.fibers = [] → pendingFollowUps s' = [] := by
    intro s' hs'
    rw [pendingFollowUps, hs', filterMap_nil]
  by_cases hstarted : s.started = true
  · have hstep : runtimeStep platform catalog rid step s =
        stepStarted platform catalog rid s step := if_pos hstarted
    have hinvoked : invokedControls platform catalog step s =
        invokedByStarted platform catalog s step := if_pos hstarted
    cases step with
    | restart => exact hquiet hinvoked (.inl (hrestart _ (by rw [hstep]; exact restart_fibers)))
    | interruptedRestart =>
      exact hquiet hinvoked (.inl (hrestart _ (by rw [hstep]; exact restartInterrupted_fibers)))
    | reportProgress eid progressId progress =>
      exact hquiet hinvoked (.inr (hstep ▸ pendingFollowUps_spawn s _ _ fun _ => rfl))
    | completeExecution eid result =>
      exact hquiet hinvoked
        (.inr (hstep ▸ pendingFollowUps_spawn s _ _ fun _ => accepts_filterMap _))
    | failExecution eid category =>
      exact hquiet hinvoked
        (.inr (hstep ▸ pendingFollowUps_spawn s _ _ fun _ => accepts_filterMap _))
    | startConversationEvent wid eventId =>
      exact hquiet hinvoked (.inr (by rw [hstep]; rfl))
    | finishConversationEvent wid eventId outputs =>
      exact hquiet hinvoked (.inr (by rw [hstep]; rfl))
    | readPending wid cid =>
      apply hquiet hinvoked (.inr _)
      rw [hstep]
      unfold stepStarted pendingFollowUps
      dsimp only
      rw [filterMap_append, acceptRows_filterMap, append_nil]
    | followUpExecution request =>
      cases haccept : acceptControl platform catalog .followUp request s.db with
      | error e =>
        apply hquiet hinvoked (.inr _)
        rw [hstep, stepStarted, haccept]
        rfl
      | ok result =>
        obtain ⟨row, db'⟩ := result
        cases row with
        | none =>
          apply hquiet hinvoked (.inr _)
          rw [hstep, stepStarted, haccept]
          exact congrArg (filterMap _) (append_nil _)
        | some row =>
          obtain ⟨hnew, hstored⟩ := acceptControl_new haccept
          have hstate : runtimeStep platform catalog rid (.followUpExecution request) s =
              { s with db := db', fibers := s.fibers ++ [.followUp request row] } := by
            rw [hstep, stepStarted, haccept]
            rfl
          refine h.of_new hnew (hstate ▸ hstored) hdb ?_
          rw [hinvoked, hstate]
          unfold pendingFollowUps
          rw [filterMap_append]
          show (invoked ++ [] ++ (s.fibers.filterMap _ ++ [request.key])).Perm _
          rw [append_nil, ← append_assoc]
          exact perm_append_singleton _ _
    | cancelExecution request =>
      cases haccept : acceptControl platform catalog .cancel request s.db with
      | error e =>
        apply hquiet (hinvoked.trans (by rw [invokedByStarted, haccept])) (.inr _)
        rw [hstep, stepStarted, haccept]
        rfl
      | ok result =>
        obtain ⟨row, db'⟩ := result
        cases row with
        | none =>
          apply hquiet (hinvoked.trans (by rw [invokedByStarted, haccept])) (.inr _)
          rw [hstep, stepStarted, haccept]
          exact congrArg (filterMap _) (append_nil _)
        | some row =>
          obtain ⟨hnew, hstored⟩ := acceptControl_new haccept
          have hstate : runtimeStep platform catalog rid (.cancelExecution request) s =
              { s with db := db', fibers := s.fibers ++ [.cancel request] } := by
            rw [hstep, stepStarted, haccept]
            rfl
          refine h.of_new hnew (hstate ▸ hstored) hdb ?_
          rw [hinvoked, invokedByStarted, haccept, hstate]
          unfold pendingFollowUps
          rw [filterMap_append]
          show (invoked ++ [request.key] ++ (s.fibers.filterMap _ ++ [])).Perm _
          rw [append_nil, append_assoc]
          exact perm_middle
    | advance fiber outcome =>
      cases hfiber : s.fibers[fiber]? with
      | none =>
        apply hquiet (hinvoked.trans (by rw [invokedByStarted, hfiber])) (.inr _)
        rw [hstep, stepStarted, hfiber]
      | some f =>
        have hstate : runtimeStep platform catalog rid (.advance fiber outcome) s =
            advanceFiber platform catalog rid outcome
              { s with fibers := s.fibers.eraseIdx fiber } f := by
          rw [hstep, stepStarted, hfiber]
        rw [hstate] at hdb ⊢
        exact h.advance hfiber hstarted hdb
    | _ =>
      exact hquiet hinvoked (.inr (hstep ▸ pendingFollowUps_commit s _))
  · have hinvoked : invokedControls platform catalog step s = [] := if_neg hstarted
    apply hquiet hinvoked
    unfold runtimeStep
    rw [if_neg hstarted]
    split
    · exact .inl (hrestart _ restart_fibers)
    · exact .inl (hrestart _ restartInterrupted_fibers)
    · exact .inr rfl

/-! ## Runs -/

/-- What a step keeps to: statuses move in the order of an Execution's life and not on from its
end, events are kept, and after the event of the end there is nothing but progress. -/
structure KeepsLifecycle (db db' : RuntimeDatabase) : Prop where
  moves : ∀ executionId, StatusMoves (statusOf db executionId) (statusOf db' executionId)
  ended : ∀ executionId status, statusOf db executionId = some status → status.ended = true →
    statusOf db' executionId = some status
  stored : ∀ event ∈ db.executionEvents.rows, event ∈ db'.executionEvents.rows
  progress : ∀ event ∈ db.executionEvents.rows, event.IsTerminal →
    ∀ event' ∈ db'.executionEvents.rows, event'.executionId = event.executionId →
      event' ∈ db.executionEvents.rows ∨ event'.kind = .progress

/-- Every execution has one event of its end at most, and it agrees with the status. -/
def EndsOnce (db : RuntimeDatabase) : Prop :=
  ∀ event ∈ db.executionEvents.rows, event.IsTerminal →
    (∃ status, statusOf db event.executionId = some status ∧
      status.terminalKind = some event.kind) ∧
        ∀ event' ∈ db.executionEvents.rows, event'.IsTerminal →
          event'.executionId = event.executionId → event' = event

def invocations (platform : Platform) (catalog : RegisteredActionCatalog) (rootIdentity : String)
    (s : RuntimeState) (steps : List RuntimeStep) : List (String × String) :=
  (transitions (runtimeStep platform catalog rootIdentity) s steps).flatMap fun t =>
    invokedControls platform catalog t.2.1 t.1

theorem TerminalEventsOk.endsOnce (h : TerminalEventsOk db) : EndsOnce db :=
  fun event hevent hterminal => ⟨h.agrees event hevent hterminal,
    fun _ hevent' hterminal' hid => h.unique hevent' hevent hterminal' hterminal hid⟩

theorem TerminalEventsOk.keepsLifecycle (h : TerminalEventsOk db)
    (hchanges : Changes platform catalog rid permitted db db') : KeepsLifecycle db db' where
  moves := hchanges.statuses
  ended := by
    intro eid status hstatus hended
    have hmoves := hchanges.statuses eid
    rw [hstatus] at hmoves
    exact hmoves.eq_of_ended hended
  stored := hchanges.extends.2
  progress := by
    intro event hevent hterminal event' hevent' hid
    by_cases hkind : event'.kind = .progress
    · exact .inr hkind
    · left
      rw [(h.changes hchanges).unique hevent' (hchanges.extends.2 event hevent) hkind hterminal hid]
      exact hevent

structure LifecycleOk (platform : Platform) (s : RuntimeState) : Prop where
  fibers : FibersOk platform s
  outbox : OutboxOk platform s.db
  terminal : TerminalEventsOk s.db

theorem LifecycleOk.initial : LifecycleOk platform .initial where
  fibers := fun _ hf => absurd hf List.not_mem_nil
  outbox := OutboxOk.empty
  terminal := TerminalEventsOk.empty

theorem LifecycleOk.continues (hlawful : platform.Lawful)
    (h : LifecycleOk platform s) (step : RuntimeStep) :
    Continues platform catalog rid (fun _ => True) s (runtimeStep platform catalog rid step s) :=
  runtimeStep_continues hlawful h.fibers h.outbox.payloads fun _ _ => trivial

theorem LifecycleOk.step (hlawful : platform.Lawful)
    (h : LifecycleOk platform s) (step : RuntimeStep) :
    LifecycleOk platform (runtimeStep platform catalog rid step s) := by
  obtain ⟨hchanges, hfibers⟩ : Continues platform catalog rid (fun _ => True) s _ :=
    h.continues hlawful step
  exact ⟨hfibers, h.outbox.changes hlawful hchanges, h.terminal.changes hchanges⟩

/-- **A run invokes no control twice.** -/
theorem InvocationsOk.run (hlawful : platform.Lawful) (steps : List RuntimeStep)
    (hs : LifecycleOk platform s)
    (h : InvocationsOk invoked s) :
    (invoked ++ invocations platform catalog rid s steps).Nodup := by
  induction steps generalizing s invoked with
  | nil =>
    show (invoked ++ []).Nodup
    rw [append_nil]
    exact (nodup_append.mp h.once).1
  | cons step steps ih =>
    show (invoked ++ (invokedControls platform catalog step s ++ invocations platform catalog
      rid (runtimeStep platform catalog rid step s) steps)).Nodup
    rw [← append_assoc]
    exact ih (hs.step hlawful step) (h.step hlawful hs.fibers hs.outbox.payloads step)

/-- **Over every run, an Execution moves in the order of its life and stays at its end, its end
is reported once, and no control is invoked twice.** -/
theorem lifecycle_of_run (hlawful : platform.Lawful) (catalog : RegisteredActionCatalog)
    (rootIdentity : String) (steps : List RuntimeStep) :
    (∀ t ∈ transitions (runtimeStep platform catalog rootIdentity) .initial steps,
        KeepsLifecycle t.1.db t.2.2.db) ∧
      (∀ s ∈ visited (runtimeStep platform catalog rootIdentity) .initial steps, EndsOnce s.db) ∧
        (invocations platform catalog rootIdentity .initial steps).Nodup := by
  refine ⟨?_, ?_, ?_⟩
  · refine invariant_transitions (P := LifecycleOk platform)
      (Q := fun s _ s' => KeepsLifecycle s.db s'.db) (fun step s hs _ => hs.step hlawful step) ?_
      LifecycleOk.initial (runMeets_true _ steps)
    intro step s hs _
    exact hs.terminal.keepsLifecycle (hs.continues hlawful step).1
  · intro s hs
    have hok : LifecycleOk platform s := invariant_visited (P := LifecycleOk platform)
      (fun step s hs _ => hs.step hlawful step) LifecycleOk.initial (runMeets_true _ steps) s hs
    exact hok.terminal.endsOnce
  · have hnone : InvocationsOk [] RuntimeState.initial :=
      ⟨nodup_nil, fun _ hkey => absurd hkey not_mem_nil⟩
    exact InvocationsOk.run hlawful steps LifecycleOk.initial hnone

/-- An Execution that completes, and then reports some progress. -/
def lateReportRun : List RuntimeStep :=
  progressRun [] ++
    [.completeExecution "242311106b6969ef31fe1a890479ec78" (.obj []),
      .reportProgress "242311106b6969ef31fe1a890479ec78" "P" (.str "late")]

/-- The Execution is followed up by a request that comes twice, and completes. -/
def followedUpRun : List RuntimeStep :=
  let request : ControlRequest :=
    { controlId := "K"
      conversationId := "C"
      executionId := "242311106b6969ef31fe1a890479ec78"
      workspaceId := "W"
      content := some "more" }
  progressRun [] ++
    [.followUpExecution request, .advance 0 true, .followUpExecution request, .advance 0 true,
      .completeExecution "242311106b6969ef31fe1a890479ec78" (.obj [])]

theorem lifecycle_of_followedUpRun :
    invocations buildPlatform buildCatalog "root" .initial followedUpRun = [("W", "K")] ∧
      (∀ t ∈ transitions (runtimeStep buildPlatform buildCatalog "root") .initial followedUpRun,
        KeepsLifecycle t.1.db t.2.2.db) ∧
      (∀ s ∈ visited (runtimeStep buildPlatform buildCatalog "root") .initial followedUpRun,
        EndsOnce s.db) ∧
      (invocations buildPlatform buildCatalog "root" .initial followedUpRun).Nodup :=
  ⟨by decide +kernel, lifecycle_of_run buildPlatform_lawful buildCatalog "root" followedUpRun⟩

instance (event : ExecutionEventRow) : Decidable event.IsTerminal :=
  inferInstanceAs (Decidable (event.kind ≠ .progress))

/-- The progress is stored after the event of the end. -/
theorem lateReport_stored :
    ∃ t ∈ transitions (runtimeStep buildPlatform buildCatalog "root") .initial lateReportRun,
      ∃ event ∈ t.1.db.executionEvents.rows, event.IsTerminal ∧
        ∃ event' ∈ t.2.2.db.executionEvents.rows, event'.executionId = event.executionId ∧
            event'.eventId ∉ t.1.db.executionEvents.rows.map (·.eventId) := by
  decide +kernel

end Laborer.DurableRuntime
