import Laborer.DurableRuntime.ExecutionLifecycle

/-!
# The events of an Execution in its conversation

Which events of an Execution are in its conversation, and in which order. An event that is
acknowledged was accepted. The conversation has them in the order of the Execution when no event
is accepted before the ones that the Execution reported earlier.
-/

namespace Laborer.DurableRuntime

open Library Relation List Table

variable {platform : Platform} {catalog : RegisteredActionCatalog} {rid : String}
  {permitted : Permission → Prop} {db db' : RuntimeDatabase}

/-! ## The rows of a conversation -/

def ConversationEventRow.Settled (row : ConversationEventRow) : Prop :=
  row.status ≠ .accepted ∧ row.status ≠ .running

def ConversationEventRow.conversation (row : ConversationEventRow) : String × String :=
  (row.workspaceId, row.conversationId)

theorem ConversationEventRow.Follows.eq_of_settled {row row₀ : ConversationEventRow}
    (h : row.Follows platform row₀) (hsettled : row₀.Settled) : row = row₀ := by
  rcases h with rfl | rfl | ⟨outputs, rfl⟩
  · rfl
  · unfold start
    rw [if_neg hsettled.1]
  · unfold finish
    rw [if_neg]
    rintro (hstatus | hstatus)
    · exact hsettled.1 hstatus
    · exact hsettled.2 hstatus

theorem ConversationEventRow.Follows.conversation {row row₀ : ConversationEventRow}
    (h : row.Follows platform row₀) : row.conversation = row₀.conversation := by
  obtain ⟨-, hworkspace, hconversation, -⟩ := h.same
  exact Prod.ext hworkspace hconversation

theorem le_foldr_max {sequences : List ℕ} {sequence : ℕ} (h : sequence ∈ sequences) :
    sequence ≤ sequences.foldr max 0 := by
  induction sequences with
  | nil => cases h
  | cons first rest ih =>
    rcases mem_cons.mp h with rfl | h
    · exact Nat.le_max_left _ _
    · exact Nat.le_trans (ih h) (Nat.le_max_right _ _)

theorem lt_nextSequence {sequences : List ℕ} {sequence : ℕ} (h : sequence ∈ sequences) :
    sequence < nextSequence sequences :=
  Nat.lt_succ_of_le (le_foldr_max h)

theorem lt_nextConversationSequence {row : ConversationEventRow}
    (hrow : row ∈ db.conversationEvents.rows) :
    row.sequence < nextConversationSequence db row.workspaceId row.conversationId := by
  apply lt_nextSequence
  apply mem_map_of_mem
  rw [mem_filter]
  exact ⟨hrow, by simp⟩

section

variable {row row₀ : ConversationEventRow} (hrow₀ : row₀ ∈ db.conversationEvents.rows)
  (hsame : row₀.conversation = row.conversation)
include hrow₀ hsame

theorem lt_of_sequence_eq (h : row.sequence =
      nextConversationSequence db row.workspaceId row.conversationId) :
    row₀.sequence < row.sequence := by
  obtain ⟨hworkspace, hconversation⟩ := Prod.mk.inj hsame
  rw [h, ← hworkspace, ← hconversation]
  exact lt_nextConversationSequence hrow₀

theorem IsTurn.lt {event : JsValue} (h : IsTurn platform db row event) :
    row₀.sequence < row.sequence :=
  lt_of_sequence_eq hrow₀ hsame (by rw [h.row])

theorem IsDelivery.lt {event : ExecutionEvent} (h : IsDelivery platform db row event) :
    row₀.sequence < row.sequence :=
  lt_of_sequence_eq hrow₀ hsame (by rw [h.row])

end

theorem lt_nextEventSequence {event : ExecutionEventRow}
    (hevent : event ∈ db.executionEvents.rows) :
    event.sequence < nextEventSequence db event.executionId := by
  apply lt_nextSequence
  apply mem_map_of_mem
  rw [mem_filter]
  exact ⟨hevent, by simp⟩

/-- What becomes of the conversations: they keep their events with the numbers of them, settled
ones as they are, and a new event has a larger number than the ones before. -/
structure ConversationsGrow (db db' : RuntimeDatabase) : Prop where
  kept : ∀ row₀ ∈ db.conversationEvents.rows, ∃ row ∈ db'.conversationEvents.rows,
    row.eventId = row₀.eventId ∧ row.conversation = row₀.conversation ∧
      row.sequence = row₀.sequence ∧ (row₀.Settled → row = row₀)
  added : ∀ row ∈ db'.conversationEvents.rows,
    (∃ row₀ ∈ db.conversationEvents.rows, row.eventId = row₀.eventId ∧
        row.conversation = row₀.conversation ∧ row.sequence = row₀.sequence) ∨
      ∀ row₀ ∈ db.conversationEvents.rows, row₀.conversation = row.conversation →
        row₀.sequence < row.sequence

theorem ConversationsGrow.refl (db : RuntimeDatabase) : ConversationsGrow db db where
  kept := fun row hrow => ⟨row, hrow, rfl, rfl, rfl, fun _ => rfl⟩
  added := fun row hrow => .inl ⟨row, hrow, rfl, rfl, rfl⟩

theorem ConversationsGrow.trans {db'' : RuntimeDatabase} (h : ConversationsGrow db db')
    (h' : ConversationsGrow db' db'') : ConversationsGrow db db'' where
  kept := by
    intro row₀ hrow₀
    obtain ⟨row, hrow, hid, hconversation, hsequence, hsettled⟩ := h.kept row₀ hrow₀
    obtain ⟨row', hrow', hid', hconversation', hsequence', hsettled'⟩ := h'.kept row hrow
    refine ⟨row', hrow', hid'.trans hid, hconversation'.trans hconversation,
      hsequence'.trans hsequence, fun hs => ?_⟩
    have heq := hsettled hs
    exact (hsettled' (heq ▸ hs)).trans heq
  added := by
    intro row'' hrow''
    rcases h'.added row'' hrow'' with ⟨row, hrow, hid, hconversation, hsequence⟩ | hnew
    · rcases h.added row hrow with ⟨row₀, hrow₀, hid₀, hconversation₀, hsequence₀⟩ | hnew
      · exact .inl ⟨row₀, hrow₀, hid.trans hid₀, hconversation.trans hconversation₀,
          hsequence.trans hsequence₀⟩
      · right
        intro row₀ hrow₀ hsame
        rw [hsequence]
        exact hnew row₀ hrow₀ (hsame.trans hconversation)
    · right
      intro row₀ hrow₀ hsame
      obtain ⟨row, hrow, -, hconversation, hsequence, -⟩ := h.kept row₀ hrow₀
      rw [← hsequence]
      exact hnew row hrow (hconversation.trans hsame)

theorem Change.conversationsGrow (h : Change platform catalog rid permitted db db') :
    ConversationsGrow db db' where
  kept := by
    intro row₀ hrow₀
    obtain ⟨row, hrow, hfollows, -⟩ := h.keepsConversationEvents hrow₀
    obtain ⟨hid, -, -, -, -, hsequence⟩ := hfollows.same
    exact ⟨row, hrow, hid, hfollows.conversation, hsequence, hfollows.eq_of_settled⟩
  added := by
    intro row hrow
    rcases h.conversationEvents hrow with ⟨row₀, hrow₀, hfollows⟩ |
      ⟨-, ⟨event, hturn⟩ | ⟨event, -, hdelivery⟩⟩
    · obtain ⟨hid, -, -, -, -, hsequence⟩ := hfollows.same
      exact .inl ⟨row₀, hrow₀, hid, hfollows.conversation, hsequence⟩
    · exact .inr fun row₀ hrow₀ hsame => hturn.lt hrow₀ hsame
    · exact .inr fun row₀ hrow₀ hsame => hdelivery.lt hrow₀ hsame

theorem Changes.conversationsGrow (h : Changes platform catalog rid permitted db db') :
    ConversationsGrow db db' := by
  induction h with
  | refl => exact ConversationsGrow.refl db
  | tail _ hlast ih => exact ih.trans hlast.conversationsGrow

/-! ## Stored events -/

theorem not_delivers_of_turn (hlawful : platform.Lawful) {row : ConversationEventRow}
    {event : JsValue} (hturn : IsTurn platform db row event) (stored : ExecutionEventRow) :
    ¬ row.Delivers platform stored := by
  intro hdelivers
  obtain ⟨request, hrequest⟩ := hturn.decoded
  have hparticipant := tag_participantInputEvent hlawful hrequest
  rw [← ((boundedJson_eq_ok (Nat.le_refl _)).mp hturn.eventJson).2, hdelivers.eventJson,
    tag_applicationEventOf hlawful] at hparticipant
  simp at hparticipant

theorem OutboxOk.stored_of_delivers (hlawful : platform.Lawful) (h : OutboxOk platform db)
    {row : ConversationEventRow} (hrow : row ∈ db.conversationEvents.rows)
    {event : ExecutionEventRow} (hdelivers : row.Delivers platform event) :
    ∃ stored ∈ db.executionEvents.rows, stored.eventId = event.eventId := by
  rcases h.conversationEvents row hrow with hturn | ⟨stored, hstored, hdelivers'⟩
  · rw [ConversationEventRow.IsParticipantTurn, hdelivers.eventJson,
      tag_applicationEventOf hlawful] at hturn
    simp at hturn
  · exact ⟨stored, hstored, hdelivers'.eventId.symm.trans hdelivers.eventId⟩

instance (row : ConversationEventRow) (event : ExecutionEventRow) :
    Decidable (row.Delivers platform event) :=
  decidable_of_iff (row.eventId = event.eventId ∧ row.workspaceId = event.workspaceId ∧
    row.conversationId = event.conversationId ∧
      row.eventJson = canonicalText platform (applicationEventOf event.event) ∧
        row.requestHash = conversationRequestHash platform row.eventJson)
    ⟨fun h => ⟨h.1, h.2.1, h.2.2.1, h.2.2.2.1, h.2.2.2.2⟩,
      fun h => ⟨h.eventId, h.workspaceId, h.conversationId, h.eventJson, h.requestHash⟩⟩

instance (event : ExecutionEventRow) : Decidable (EventAccepted platform db event) :=
  inferInstanceAs (Decidable (∃ row ∈ db.conversationEvents.rows, row.Delivers platform event))

/-! ## The order of an Execution -/

/-- The events of an Execution that are in a conversation have the order that they have in the
Execution. -/
def InExecutionOrder (platform : Platform) (db : RuntimeDatabase) : Prop :=
  ∀ event ∈ db.executionEvents.rows, ∀ event' ∈ db.executionEvents.rows,
    event.executionId = event'.executionId → event.sequence < event'.sequence →
      ∀ row ∈ db.conversationEvents.rows, row.Delivers platform event →
        ∀ row' ∈ db.conversationEvents.rows, row'.Delivers platform event' →
          row.conversation = row'.conversation → row.sequence < row'.sequence

/-- Of the events of an Execution, the first ones are in a conversation, in their order. -/
structure DeliveredInOrder (platform : Platform) (db : RuntimeDatabase) : Prop where
  earlier : ∀ event ∈ db.executionEvents.rows, ∀ event' ∈ db.executionEvents.rows,
    event.executionId = event'.executionId → event.sequence < event'.sequence →
      EventAccepted platform db event' → EventAccepted platform db event
  order : InExecutionOrder platform db

/-- The events of its Execution that were reported before an event are in the conversation. -/
def EarlierAccepted (platform : Platform) (db : RuntimeDatabase) (event : ExecutionEvent) : Prop :=
  ∀ earlier ∈ db.executionEvents.rows, earlier.executionId = event.executionId →
    earlier.sequence < event.sequence → EventAccepted platform db earlier

instance : Decidable (InExecutionOrder platform db) :=
  inferInstanceAs (Decidable (∀ event ∈ db.executionEvents.rows,
    ∀ event' ∈ db.executionEvents.rows,
      event.executionId = event'.executionId → event.sequence < event'.sequence →
        ∀ row ∈ db.conversationEvents.rows, row.Delivers platform event →
          ∀ row' ∈ db.conversationEvents.rows, row'.Delivers platform event' →
            row.conversation = row'.conversation → row.sequence < row'.sequence))

instance (event : ExecutionEvent) : Decidable (EarlierAccepted platform db event) :=
  inferInstanceAs (Decidable (∀ earlier ∈ db.executionEvents.rows,
    earlier.executionId = event.executionId → earlier.sequence < event.sequence →
      EventAccepted platform db earlier))

theorem DeliveredInOrder.empty : DeliveredInOrder platform .empty where
  earlier := fun _ h => absurd h List.not_mem_nil
  order := fun _ h => absurd h List.not_mem_nil

/-- **A change keeps the order, if what it delivers comes after what is earlier.** -/
theorem DeliveredInOrder.change (hlawful : platform.Lawful) (h : DeliveredInOrder platform db)
    (hdb : OutboxOk platform db) (hchange : Change platform catalog rid permitted db db')
    (hpermitted : ∀ event, permitted (.deliver event) → EarlierAccepted platform db event) :
    DeliveredInOrder platform db' := by
  have hextends := hchange.extends
  -- an accepted event was there before, and it was accepted before or is accepted now
  have haccepted : ∀ event ∈ db'.executionEvents.rows, ∀ row ∈ db'.conversationEvents.rows,
      row.Delivers platform event → event ∈ db.executionEvents.rows ∧
        ((∃ row₀ ∈ db.conversationEvents.rows, row.Follows platform row₀ ∧
            row₀.Delivers platform event) ∨
          (∀ earlier ∈ db.executionEvents.rows, earlier.executionId = event.executionId →
              earlier.sequence < event.sequence → EventAccepted platform db earlier) ∧
            ∀ row₀ ∈ db.conversationEvents.rows, row₀.conversation = row.conversation →
              row₀.sequence < row.sequence) := by
    intro event hevent row hrow hdelivers
    have hstored : ∀ stored ∈ db.executionEvents.rows, stored.eventId = event.eventId →
        stored = event := by
      intro stored hstored hid
      apply Option.some.inj
      rw [← find_key (hextends.2 stored hstored), ← find_key hevent, hid]
    rcases hchange.conversationEvents hrow with ⟨row₀, hrow₀, hfollows⟩ |
      ⟨-, ⟨turn, hturn⟩ | ⟨delivered, hallowed, hdelivery⟩⟩
    · have hdelivers₀ := hfollows.delivers_iff.mp hdelivers
      obtain ⟨stored, hmem, hid⟩ := hdb.stored_of_delivers hlawful hrow₀ hdelivers₀
      exact ⟨hstored stored hmem hid ▸ hmem, .inl ⟨row₀, hrow₀, hfollows, hdelivers₀⟩⟩
    · exact absurd hdelivers (not_delivers_of_turn hlawful hturn event)
    · obtain ⟨stored, hmem, hdelivers', hexecution, hsequence⟩ :=
        hdelivery.delivers hlawful hdb.payloads
      have heq := hstored stored hmem (hdelivers'.eventId.symm.trans hdelivers.eventId)
      subst heq
      refine ⟨hmem, .inr ⟨?_, fun row₀ hrow₀ hsame => hdelivery.lt hrow₀ hsame⟩⟩
      rw [hexecution, hsequence]
      exact hpermitted delivered hallowed
  -- an event that was reported before one of these was there before, and accepted
  have hearlier : ∀ event ∈ db'.executionEvents.rows, ∀ event' ∈ db'.executionEvents.rows,
      event.executionId = event'.executionId → event.sequence < event'.sequence →
        ∀ row' ∈ db'.conversationEvents.rows, row'.Delivers platform event' →
          event ∈ db.executionEvents.rows ∧ EventAccepted platform db event := by
    intro event hevent event' hevent' hexecution hlt row' hrow' hdelivers'
    obtain ⟨hmem', hcases⟩ := haccepted event' hevent' row' hrow' hdelivers'
    have hmem : event ∈ db.executionEvents.rows := by
      rcases hchange.events hevent with hmem | ⟨options, execution, hreported⟩
      · exact hmem
      · have hnext := lt_nextEventSequence hmem'
        rw [← hexecution, hreported.executionId, ← hreported.sequence] at hnext
        exact absurd hlt (Nat.lt_asymm hnext)
    refine ⟨hmem, ?_⟩
    rcases hcases with ⟨row₀, hrow₀, -, hdelivers₀⟩ | ⟨hallowed, -⟩
    · exact h.earlier event hmem event' hmem' hexecution hlt ⟨row₀, hrow₀, hdelivers₀⟩
    · exact hallowed event hmem hexecution hlt
  constructor
  · intro event hevent event' hevent' hexecution hlt haccepted'
    obtain ⟨row', hrow', hdelivers'⟩ := haccepted'
    exact (hearlier event hevent event' hevent' hexecution hlt row' hrow' hdelivers').2.change
      hchange
  · intro event hevent event' hevent' hexecution hlt row hrow hdelivers row' hrow' hdelivers' hsame
    obtain ⟨hmem, row₀, hrow₀, hdelivers₀⟩ :=
      hearlier event hevent event' hevent' hexecution hlt row' hrow' hdelivers'
    -- the earlier event's row is the one that it had before
    obtain ⟨row₁, hrow₁, hfollows, -⟩ := hchange.keepsConversationEvents hrow₀
    have heq : row = row₁ := hdelivers.unique (hfollows.delivers_iff.mpr hdelivers₀) hrow hrow₁
    subst heq
    obtain ⟨-, -, -, -, -, hsequence⟩ := hfollows.same
    obtain ⟨hmem', ⟨row₀', hrow₀', hfollows', hdelivers₀'⟩ | ⟨-, hnew⟩⟩ :=
      haccepted event' hevent' row' hrow' hdelivers'
    · obtain ⟨-, -, -, -, -, hsequence'⟩ := hfollows'.same
      rw [hsequence, hsequence']
      refine h.order event hmem event' hmem' hexecution hlt row₀ hrow₀ hdelivers₀ row₀' hrow₀'
        hdelivers₀' ?_
      rw [← hfollows.conversation, hsame, hfollows'.conversation]
    · rw [hsequence]
      exact hnew row₀ hrow₀ (hfollows.conversation.symm.trans hsame)

theorem DeliveredInOrder.changes (hlawful : platform.Lawful) (h : DeliveredInOrder platform db)
    (hdb : OutboxOk platform db) (hchanges : Changes platform catalog rid permitted db db')
    (hpermitted : ∀ event, ¬ permitted (.deliver event)) : DeliveredInOrder platform db' := by
  suffices OutboxOk platform db' ∧ DeliveredInOrder platform db' from this.2
  induction hchanges with
  | refl => exact ⟨hdb, h⟩
  | tail _ hlast ih =>
    exact ⟨ih.1.change hlawful hlast, ih.2.change hlawful ih.1 hlast
      fun event hdeliver => absurd hdeliver (hpermitted event)⟩

/-! ## Acknowledged events -/

theorem IdAccepted.changes {eventId : String} (h : IdAccepted platform db eventId)
    (hchanges : Changes platform catalog rid permitted db db') :
    IdAccepted platform db' eventId := by
  obtain ⟨event, hevent, hid, haccepted⟩ := h
  exact ⟨event, hchanges.extends.2 event hevent, hid, haccepted.changes hchanges⟩

theorem Changes.acknowledged (h : Changes platform catalog rid permitted db db')
    {entry : OutboxRow} (hentry : entry ∈ db'.executionOutbox.rows)
    (hacknowledged : entry.acknowledged = true) :
    entry ∈ db.executionOutbox.rows ∨ permitted (.acknowledge entry.eventId) := by
  induction h with
  | refl => exact .inl hentry
  | tail _ hlast ih =>
    rcases hlast.outbox.1 entry hentry with hentry | hfalse | hpermitted
    · exact ih hentry
    · rw [hfalse] at hacknowledged
      cases hacknowledged
    · exact .inr hpermitted

def EventsInOutbox (db : RuntimeDatabase) : Prop :=
  ∀ event ∈ db.executionEvents.rows, ∃ entry ∈ db.executionOutbox.rows,
    entry.eventId = event.eventId

theorem EventsInOutbox.changes (h : EventsInOutbox db)
    (hchanges : Changes platform catalog rid permitted db db') : EventsInOutbox db' := by
  induction hchanges with
  | refl => exact h
  | tail _ hlast ih =>
    intro event hevent
    rcases hlast.outbox.2.2 event hevent with hevent | hentry
    · obtain ⟨entry, hentry, hid⟩ := ih event hevent
      obtain ⟨entry', hentry', hid'⟩ := hlast.outbox.2.1 entry hentry
      exact ⟨entry', hentry', hid'.trans hid⟩
    · exact hentry

/-! ## Steps -/

theorem mem_fibers_commit {α : Type} {s : RuntimeState}
    {result : Except Failure (α × RuntimeDatabase)} {f : Fiber}
    (h : f ∈ (s.commit result).fibers) : f ∈ s.fibers := by
  unfold RuntimeState.commit at h
  split at h
  · exact h
  · exact h

theorem mem_fibers_spawn {α : Type} {s : RuntimeState} {fiber : α → List Fiber}
    {result : Except Failure (α × RuntimeDatabase)} {f : Fiber}
    (h : f ∈ (s.spawn fiber result).fibers) :
    f ∈ s.fibers ∨ ∃ a db', result = .ok (a, db') ∧ (s.spawn fiber result).db = db' ∧
      f ∈ fiber a := by
  unfold RuntimeState.spawn at h ⊢
  split at h
  · next a db' =>
    rcases mem_append.mp h with h | h
    · exact .inl h
    · exact .inr ⟨a, db', rfl, rfl, h⟩
  · exact .inl h

theorem mem_fibers_of_spawn {α : Type} {s : RuntimeState} {fiber : α → List Fiber}
    {result : Except Failure (α × RuntimeDatabase)} {f : Fiber}
    (h : f ∈ (s.spawn fiber result).fibers) (hf : ∀ a, f ∉ fiber a) : f ∈ s.fibers := by
  rcases mem_fibers_spawn h with h | ⟨a, -, -, -, hmem⟩
  · exact h
  · exact absurd hmem (hf a)

/-- What is to be acknowledged after a step was to be before, or was accepted in the step. -/
theorem acknowledge_of_advanceFiber {outcome : Bool} {s : RuntimeState} {f : Fiber}
    {eventId : String}
    (h : .acknowledge eventId ∈ (advanceFiber platform catalog rid outcome s f).fibers) :
    .acknowledge eventId ∈ s.fibers ∨ ∃ event payload, f = .accept event ∧
      event.eventId = eventId ∧ acceptExecutionEvent platform rid event s.db =
        .ok (some payload, (advanceFiber platform catalog rid outcome s f).db) := by
  cases f with
  | accept event =>
    rcases mem_fibers_spawn h with h | ⟨payload, db', hresult, hdb, hmem⟩
    · exact .inl h
    · right
      split at hmem
      · next hsome =>
        obtain ⟨payload, rfl⟩ := Option.isSome_iff_exists.mp (Bool.and_eq_true_iff.mp hsome).1
        cases mem_singleton.mp hmem
        refine ⟨event, payload, rfl, rfl, ?_⟩
        rw [hresult]
        exact congrArg (fun db => Except.ok (some payload, db)) hdb.symm
      · cases hmem
  | acknowledge eventId' => exact .inl h
  | deliverFollowUp request row =>
    cases outcome with
    | true => exact .inl h
    | false =>
      rcases mem_append.mp h with h | hmem
      · exact .inl h
      · cases mem_singleton.mp hmem
  | cancel request =>
    cases outcome with
    | true => exact .inl (mem_fibers_of_spawn h (by simp))
    | false => exact .inl h
  | _ => exact .inl (mem_fibers_of_spawn h (by simp))

theorem acknowledge_of_runtimeStep {s : RuntimeState} {step : RuntimeStep} {eventId : String}
    (h : .acknowledge eventId ∈ (runtimeStep platform catalog rid step s).fibers) :
    .acknowledge eventId ∈ s.fibers ∨ ∃ event payload, .accept event ∈ s.fibers ∧
      event.eventId = eventId ∧ acceptExecutionEvent platform rid event s.db =
        .ok (some payload, (runtimeStep platform catalog rid step s).db) := by
  unfold runtimeStep at h ⊢
  split at h
  · next hstarted =>
    rw [if_pos hstarted]
    cases step with
    | restart =>
      rw [stepStarted, restart_fibers] at h
      cases h
    | interruptedRestart =>
      rw [stepStarted, restartInterrupted_fibers] at h
      cases h
    | reportProgress eid progressId progress => exact .inl (mem_fibers_of_spawn h (by simp))
    | completeExecution eid result => exact .inl (mem_fibers_of_spawn h (by simp))
    | failExecution eid category => exact .inl (mem_fibers_of_spawn h (by simp))
    | startConversationEvent wid eventId => exact .inl h
    | finishConversationEvent wid eventId outputs => exact .inl h
    | readPending wid cid =>
      rcases mem_append.mp h with h | hmem
      · exact .inl h
      · obtain ⟨_, -, heq⟩ := mem_map.mp hmem
        cases heq
    | followUpExecution request => exact .inl (mem_fibers_of_spawn h (by simp))
    | cancelExecution request => exact .inl (mem_fibers_of_spawn h (by simp))
    | advance fiber outcome =>
      cases hfiber : s.fibers[fiber]? with
      | none =>
        rw [stepStarted, hfiber] at h
        exact .inl h
      | some f =>
        rw [stepStarted, hfiber] at h ⊢
        rcases acknowledge_of_advanceFiber h with h | ⟨event, payload, rfl, hid, haccept⟩
        · exact .inl (mem_of_mem_eraseIdx h)
        · exact .inr ⟨event, payload, mem_of_getElem? hfiber, hid, haccept⟩
    | _ => exact .inl (mem_fibers_commit h)
  · next hstarted =>
    split at h
    · rw [restart_fibers] at h
      cases h
    · rw [restartInterrupted_fibers] at h
      cases h
    · exact .inl h

/-- The step is not that of a client that takes the events from the outbox itself. -/
def RuntimeStep.Delivers : RuntimeStep → Prop
  | .acknowledgeEvent _ _ _ => False
  | _ => True

/-- What holds of the deliveries after every run: an event that is acknowledged, or will be,
was accepted. -/
structure DeliveryOk (platform : Platform) (s : RuntimeState) : Prop where
  lifecycle : LifecycleOk platform s
  stored : EventsInOutbox s.db
  acknowledged : ∀ entry ∈ s.db.executionOutbox.rows, entry.acknowledged = true →
    IdAccepted platform s.db entry.eventId
  fibers : ∀ eventId, .acknowledge eventId ∈ s.fibers → IdAccepted platform s.db eventId

theorem DeliveryOk.initial : DeliveryOk platform .initial where
  lifecycle := LifecycleOk.initial
  stored := fun _ h => absurd h List.not_mem_nil
  acknowledged := fun _ h => absurd h List.not_mem_nil
  fibers := fun _ h => absurd h List.not_mem_nil

theorem DeliveryOk.step (hlawful : platform.Lawful) {s : RuntimeState}
    (h : DeliveryOk platform s) {step : RuntimeStep} (hdelivers : step.Delivers) :
    DeliveryOk platform (runtimeStep platform catalog rid step s) := by
  obtain ⟨hchanges, -⟩ : Continues platform catalog rid (Needs step s) s
      (runtimeStep platform catalog rid step s) :=
    runtimeStep_continues hlawful h.lifecycle.fibers h.lifecycle.outbox.payloads fun _ hneeds =>
      hneeds
  refine ⟨h.lifecycle.step hlawful step, h.stored.changes hchanges, ?_, ?_⟩
  · intro entry hentry hacknowledged
    rcases hchanges.acknowledged hentry hacknowledged with hentry | hneeds
    · exact (h.acknowledged entry hentry hacknowledged).changes hchanges
    · -- the step acknowledges the event, so a fiber has it in hand
      cases step with
      | acknowledgeEvent eventId cid wid => exact hdelivers.elim
      | advance fiber outcome =>
        obtain ⟨f, hfiber, hf⟩ := hneeds
        cases f with
        | acknowledge eventId =>
          have hid : eventId = entry.eventId := hf
          exact (h.fibers entry.eventId (hid ▸ mem_of_getElem? hfiber)).changes hchanges
        | _ => exact hf.elim
      | startConversationEvent wid eventId => cases hneeds
      | finishConversationEvent wid eventId outputs => cases hneeds
      | _ => exact hneeds.elim
  · intro eventId hmem
    rcases acknowledge_of_runtimeStep hmem with hmem | ⟨event, payload, hfiber, hid, haccept⟩
    · exact (h.fibers eventId hmem).changes hchanges
    · rw [← hid]
      exact idAccepted_of_accept hlawful h.lifecycle.outbox.payloads
        (h.lifecycle.fibers _ hfiber) haccept

/-- The acceptance of the event puts it into its conversation. -/
def IsNew (db : RuntimeDatabase) (event : ExecutionEvent) : Prop :=
  (db.conversations.find (event.workspaceId, event.conversationId)).isSome = true ∧
    db.conversationEvents.find (event.workspaceId, event.eventId) = none

instance (event : ExecutionEvent) : Decidable (IsNew db event) :=
  inferInstanceAs (Decidable (_ ∧ _))

theorem IsNew.of_accept {event : ExecutionEvent} {payload : Option ConversationWorkflowPayload}
    (h : acceptExecutionEvent platform rid event db = .ok (payload, db')) :
    IsNew db event ∨ db' = db := by
  obtain ⟨eventJson, -, ⟨-, -, heq⟩ | ⟨hconversation, -, ⟨_, -, -, -, -, heq⟩ |
    ⟨rows, hinsert, -⟩⟩⟩ := acceptExecutionEvent_eq_ok h
  · exact .inr heq
  · exact .inr heq
  · exact .inl ⟨hconversation, (insert_eq_some_iff.mp hinsert).1⟩

def acceptedEvent (step : RuntimeStep) (s : RuntimeState) : Option ExecutionEvent :=
  match step with
  | .advance fiber _ =>
    match s.fibers[fiber]? with
    | some (.accept event) => if IsNew s.db event then some event else none
    | _ => none
  | _ => none

/-- An event that a step accepts comes after the events that its Execution reported before. -/
def AcceptsInOrder (platform : Platform) (step : RuntimeStep) (s : RuntimeState) : Prop :=
  ∀ event ∈ acceptedEvent step s, EarlierAccepted platform s.db event

instance (step : RuntimeStep) (s : RuntimeState) : Decidable (AcceptsInOrder platform step s) :=
  inferInstanceAs (Decidable (∀ event ∈ acceptedEvent step s, EarlierAccepted platform s.db event))

/-- **A step that accepts in order keeps the order.** -/
theorem DeliveredInOrder.step (hlawful : platform.Lawful) {s : RuntimeState}
    (h : DeliveredInOrder platform s.db) (hs : LifecycleOk platform s) {step : RuntimeStep}
    (horder : AcceptsInOrder platform step s) :
    DeliveredInOrder platform (runtimeStep platform catalog rid step s).db := by
  obtain ⟨hchanges, -⟩ : Continues platform catalog rid (Needs step s) s
      (runtimeStep platform catalog rid step s) :=
    runtimeStep_continues hlawful hs.fibers hs.outbox.payloads fun _ hneeds => hneeds
  by_cases hdeliver : ∃ event, Needs step s (.deliver event)
  · obtain ⟨event, hneeds⟩ := hdeliver
    cases step with
    | advance fiber outcome =>
      obtain ⟨f, hfiber, hf⟩ := hneeds
      cases f with
      | accept event' =>
        have heq : event' = event := hf
        subst heq
        unfold runtimeStep
        split
        · -- the only change is the one that accepts the event
          rw [stepStarted, hfiber]
          show DeliveredInOrder platform (RuntimeState.spawn _ _ _).db
          unfold RuntimeState.spawn
          split
          · next payload db' haccept =>
            have hchange : Change platform catalog rid
                (fun permission => permission = .deliver event') s.db db' :=
              .delivered (hs.fibers _ (mem_of_getElem? hfiber)) haccept rfl
            rcases IsNew.of_accept haccept with hnew | rfl
            · refine h.change hlawful hs.outbox hchange fun event hevent => ?_
              cases hevent
              apply horder
              simp only [acceptedEvent, hfiber, if_pos hnew, Option.mem_some_iff]
            · exact h
          · exact h
        · exact h
      | _ => exact hf.elim
    | acknowledgeEvent eventId cid wid => cases hneeds
    | startConversationEvent wid eventId => cases hneeds
    | finishConversationEvent wid eventId outputs => cases hneeds
    | _ => exact hneeds.elim
  · exact h.changes hlawful hs.outbox hchanges fun event hneeds => hdeliver ⟨event, hneeds⟩

end Laborer.DurableRuntime
