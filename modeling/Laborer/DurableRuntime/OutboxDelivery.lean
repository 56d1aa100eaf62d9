import Laborer.DurableRuntime.DecodedValue
import Laborer.DurableRuntime.EventEnvelope

/-!
# Delivery from the outbox

An event in the outbox is delivered when it fits the envelopes of its delivery and no turn
has its identity. One that does not is refused each time, and so is every event after it.
-/

namespace Laborer.DurableRuntime

open Library JsValue Relation List Table

variable {platform : Platform} {catalog : RegisteredActionCatalog} {rid : String}
  {permitted : Permission → Prop} {db db' : RuntimeDatabase} {event : ExecutionEvent} {s : String}

/-! ## What is in a conversation -/

def ConversationEventRow.IsParticipantTurn (row : ConversationEventRow) : Prop :=
  stringMember "_tag" row.eventJson.value = "ParticipantInput"

structure ConversationEventRow.Delivers (platform : Platform) (row : ConversationEventRow)
    (event : ExecutionEventRow) : Prop where
  eventId : row.eventId = event.eventId
  workspaceId : row.workspaceId = event.workspaceId
  conversationId : row.conversationId = event.conversationId
  eventJson : row.eventJson = canonicalText platform (applicationEventOf event.event)
  requestHash : row.requestHash = conversationRequestHash platform row.eventJson

/-- The event fits the envelopes of its delivery, and no turn has its identity. -/
def Deliverable (db : RuntimeDatabase) (event : ExecutionEvent) : Prop :=
  FitsEnvelope event.payload ∧ ∀ row ∈ db.conversationEvents.rows,
    row.workspaceId = event.workspaceId → row.eventId = event.eventId → ¬ row.IsParticipantTurn

structure OutboxOk (platform : Platform) (db : RuntimeDatabase) : Prop where
  executions : ∀ row ∈ db.executions.rows, IsAscii row.executionId
  payloads : PayloadsOk platform db
  valid : ∀ row ∈ db.executionEvents.rows, row.event.isValid = true
  ascii : ∀ row ∈ db.executionEvents.rows, IsAscii row.eventId ∧ IsAscii row.executionId
  conversationEvents : ∀ row ∈ db.conversationEvents.rows, row.IsParticipantTurn ∨
    ∃ event ∈ db.executionEvents.rows, row.Delivers platform event

/-! ## The text of an event -/

theorem canonicalText_congr {v w : JsValue}
    (h : (canonicalText platform v).value = (canonicalText platform w).value) :
    canonicalText platform v = canonicalText platform w := by
  unfold canonicalText canonicalCatalogJson at h ⊢
  dsimp only at h
  rw [h]

theorem canonicalText_applicationEventOf {payload : JsValue}
    (h : canonicalText platform event.payload = canonicalText platform payload) :
    canonicalText platform (applicationEventOf event) =
      canonicalText platform (applicationEventOf { event with payload := payload }) := by
  apply canonicalText_congr
  simp only [applicationEventOf, ExecutionEvent.toValue, canonicalText_obj, map_cons, map_nil, h]

theorem canonicalText_payload (hlawful : platform.Lawful) (hdb : PayloadsOk platform db)
    {row : ExecutionEventRow} (hrow : row ∈ db.executionEvents.rows) :
    canonicalText platform row.event.payload = row.payloadJson := by
  obtain ⟨payload, hpayload⟩ := hdb row hrow
  obtain ⟨⟨hcanonicalizable, -⟩, htext⟩ := (boundedJson_eq_ok (by decide)).mp hpayload
  rw [htext, ← canonicalText_reread hlawful hcanonicalizable, reread, ← htext]
  rfl

theorem stringMember_canonicalText {entries : List (String × JsValue)} {name : String}
    (hnormal : ∀ entry ∈ entries, IsNormal platform entry.1)
    (hnodup : (entries.map Prod.fst).Nodup) (hlookup : entries.lookup name = some (.str s))
    (hs : IsNormal platform s) :
    stringMember name (canonicalText platform (.obj entries)).value = s := by
  rw [stringMember, member_canonicalText hnormal hnodup, hlookup, Option.map_some,
    canonicalText_scalar (v := .str s) trivial]
  exact hs

theorem tag_applicationEventOf (hlawful : platform.Lawful) (event : ExecutionEvent) :
    stringMember "_tag" (canonicalText platform (applicationEventOf event)).value =
      "ExternalInput" := by
  refine stringMember_canonicalText ?_ (by simp) rfl (isNormal_literal hlawful (by decide))
  have hnames : ∀ name ∈ ["_tag", "conversationId", "eventId", "payload", "source"],
      name.toList.all (fun c => c.toNat < 0x80) = true := by
    decide
  intro entry hentry
  exact isNormal_literal hlawful (hnames entry.1 (mem_map_of_mem (f := Prod.fst) hentry))

theorem tag_participantInputEvent (hlawful : platform.Lawful) {request event : JsValue}
    (h : participantInputEvent request = some event) :
    stringMember "_tag" (canonicalText platform event).value = "ParticipantInput" := by
  have htag := member_tag (by decide) h
  obtain ⟨entries, rfl, hsublist⟩ := names_struct h
  refine stringMember_canonicalText ?_ (hsublist.nodup (by decide)) htag
    (isNormal_literal hlawful (by decide))
  have hnames : ∀ name ∈ ["_tag", "attemptNumber", "channelId", "context", "conversationId",
      "initializationStatus", "messages", "rootTs", "source", "turnId", "workingDirectory"],
      name.toList.all (fun c => c.toNat < 0x80) = true := by
    decide
  intro entry hentry
  exact isNormal_literal hlawful (hnames entry.1 (hsublist.subset (mem_map_of_mem hentry)))

/-! ## The invariant -/

theorem isAscii_append {t : String} (hs : IsAscii s) (ht : IsAscii t) : IsAscii (s ++ t) := by
  intro c hc
  rw [String.toList_append, mem_append] at hc
  exact hc.elim (hs c) (ht c)

theorem isAscii_literal (h : s.toList.all (fun c => c.toNat < 0x80) = true) : IsAscii s := by
  intro c hc
  simpa using all_eq_true.mp h c hc

theorem isAscii_sha256 (hlawful : platform.Lawful) (text : List Char) :
    IsAscii (platform.sha256 text) := by
  intro c hc
  have h := hlawful.sha256_alphabet text c hc
  simp only [Bool.or_eq_true, decide_eq_true_eq] at h
  rcases h with (h | rfl) | rfl
  · exact toNat_lt_of_isAlphanum h
  · decide
  · decide

theorem isAscii_stableEventId (hlawful : platform.Lawful) {options : PersistEventOptions}
    {eventId : String} (h : options.stableEventId platform = some eventId)
    (hexecution : IsAscii options.executionId) : IsAscii eventId := by
  unfold PersistEventOptions.stableEventId at h
  have hprefix : IsAscii ("execution:" ++ options.executionId) :=
    isAscii_append (isAscii_literal (by decide)) hexecution
  split at h
  · cases h
    exact isAscii_append (isAscii_append hprefix (isAscii_literal (by decide)))
      (isAscii_sha256 hlawful _)
  · split at h
    · cases h
    · cases h
      exact isAscii_append hprefix (isAscii_literal (by decide))

theorem OutboxOk.empty : OutboxOk platform .empty where
  executions := fun _ hrow => absurd hrow List.not_mem_nil
  payloads := fun _ hrow => absurd hrow List.not_mem_nil
  valid := fun _ hrow => absurd hrow List.not_mem_nil
  ascii := fun _ hrow => absurd hrow List.not_mem_nil
  conversationEvents := fun _ hrow => absurd hrow List.not_mem_nil

/-- **Every change keeps the outbox in order.** -/
theorem OutboxOk.change (hlawful : platform.Lawful) (h : OutboxOk platform db)
    (hchange : Change platform catalog rid permitted db db') : OutboxOk platform db' where
  executions := by
    intro row hrow
    rcases hchange.executions hrow with ⟨row₀, hrow₀, hfollows⟩ | ⟨⟨invocationId, hid⟩, -⟩
    · have hid : row.executionId = row₀.executionId := by
        rcases hfollows with rfl | ⟨status, -, resultJson, failureCategory, rfl⟩ <;> rfl
      rw [hid]
      exact h.executions row₀ hrow₀
    · rw [hid]
      exact fun c hc => toNat_lt_of_isAlphanum (hlawful.workflowExecutionId_alphabet _ _ c hc)
  payloads := h.payloads.changes (.single hchange)
  valid := by
    intro row hrow
    rcases hchange.events hrow with hrow | ⟨options, execution, hreported⟩
    · exact h.valid row hrow
    · exact hreported.valid
  ascii := by
    intro row hrow
    rcases hchange.events hrow with hrow | ⟨options, execution, hreported⟩
    · exact h.ascii row hrow
    · obtain ⟨hmem, hid⟩ := find_eq_some_iff.mp hreported.find
      have hexecution : IsAscii options.executionId := hid ▸ h.executions _ hmem
      exact ⟨isAscii_stableEventId hlawful hreported.stable hexecution,
        hreported.executionId ▸ hexecution⟩
  conversationEvents := by
    intro row hrow
    have hextends := hchange.extends
    rcases hchange.conversationEvents hrow with ⟨row₀, hrow₀, hfollows⟩ |
      ⟨-, ⟨event, hturn⟩ | ⟨event, -, hdelivery⟩⟩
    · obtain ⟨hid, hworkspace, hconversation, hjson, hhash, -⟩ := hfollows.same
      rcases h.conversationEvents row₀ hrow₀ with hturn | ⟨event, hevent, hdelivers⟩
      · left
        rw [ConversationEventRow.IsParticipantTurn, hjson]
        exact hturn
      · right
        refine ⟨event, hextends.2 event hevent, hid.trans hdelivers.eventId,
          hworkspace.trans hdelivers.workspaceId, hconversation.trans hdelivers.conversationId,
          hjson.trans hdelivers.eventJson, ?_⟩
        rw [hhash, hjson, hdelivers.requestHash]
    · obtain ⟨request, hrequest⟩ := hturn.decoded
      left
      rw [ConversationEventRow.IsParticipantTurn,
        ((boundedJson_eq_ok (Nat.le_refl _)).mp hturn.eventJson).2]
      exact tag_participantInputEvent hlawful hrequest
    · obtain ⟨stored, hstored, heq, -, hpayload⟩ := hdelivery.held
      have hpayloads : canonicalText platform stored.event.payload =
          canonicalText platform event.payload :=
        (canonicalText_payload hlawful h.payloads hstored).trans hpayload
      have hjson := ((boundedJson_eq_ok (Nat.le_refl _)).mp hdelivery.eventJson).2
      right
      refine ⟨stored, hextends.2 stored hstored, ?_, ?_, ?_, ?_, ?_⟩
      · rw [hdelivery.row, heq]
        rfl
      · rw [hdelivery.row, heq]
        rfl
      · rw [hdelivery.row, heq]
        rfl
      · rw [hjson, canonicalText_applicationEventOf hpayloads, ← heq]
      · exact congrArg ConversationEventRow.requestHash hdelivery.row

theorem OutboxOk.changes (hlawful : platform.Lawful) (h : OutboxOk platform db)
    (hchanges : Changes platform catalog rid permitted db db') : OutboxOk platform db' := by
  induction hchanges with
  | refl => exact h
  | tail _ hlast ih => exact ih.change hlawful hlast

/-! ## Accepting an event -/

/-- The delivered event is stored when its payload fits the envelopes. -/
theorem boundedPayloadJson_applicationEventOf (hlawful : platform.Lawful)
    (hdb : OutboxOk platform db) (hheld : Held platform db event) :
    (∃ eventJson, boundedPayloadJson platform (applicationEventOf event) = .ok eventJson) ↔
      FitsEnvelope event.payload := by
  obtain ⟨row, hrow, heq, hcanonicalizable, htext⟩ := hheld
  have hvalid : event.isValid = true := by
    rw [heq, ExecutionEvent.isValid_payload]
    exact hdb.valid row hrow
  have hascii := hdb.ascii row hrow
  have hlength : canonicalLength platform event.payload ≤ 48 * 1024 := by
    obtain ⟨payload, hpayload⟩ := hdb.payloads row hrow
    obtain ⟨⟨-, -, -, hbytes⟩, htext'⟩ := (boundedJson_eq_ok (by decide)).mp hpayload
    rw [← byteLength_canonicalText] at hbytes ⊢
    rw [← htext, htext']
    exact hbytes
  have henvelope := length_applicationEventOf hlawful hvalid (by rw [heq]; exact hascii.2)
    (by rw [heq]; exact hascii.1)
  have hbounded : ∀ text, boundedPayloadJson platform (applicationEventOf event) = .ok text ↔ _ :=
    fun text => boundedJson_eq_ok (Nat.le_refl _)
  simp only [hbounded, exists_eq_right, height_applicationEventOf, size_applicationEventOf]
  unfold FitsEnvelope actionCanonicalMaxItems runtimePayloadMaxBytes
  constructor
  · rintro ⟨-, hheight, hsize, -⟩
    exact ⟨hheight, by omega⟩
  · rintro ⟨hheight, hsize⟩
    exact ⟨isCanonicalizable_applicationEventOf hlawful hcanonicalizable, hheight, by omega,
      by omega⟩

theorem isSome_externalInputEvent (h : event.isValid = true) :
    (externalInputEvent (applicationEventOf event)).isSome = true := by
  have hid := (event.isValid_iff.mp h).2.1
  unfold runtimeEventId boundedNonBlankString at hid
  rw [Bool.and_eq_true] at hid
  have hsource : isNonBlank "registered-action" = true := by decide
  unfold externalInputEvent applicationEventOf
  rw [Decoder.isSome_struct]
  simp [tag, required, Decoder.Field.part, Decoder.literals, Decoder.string, Decoder.unknown,
    anyString, nonBlankString, lookup_cons, hid.1, hsource]

/-- **A stored event is accepted when it fits its envelopes and no turn has its
identity.** -/
theorem acceptExecutionEvent_iff (hlawful : platform.Lawful) (hdb : OutboxOk platform db)
    (hheld : Held platform db event)
    (hconversation :
      (db.conversations.find (event.workspaceId, event.conversationId)).isSome = true) :
    (∃ payload db', acceptExecutionEvent platform rid event db =
        .ok (some payload, db')) ↔ Deliverable db event := by
  have hbounded := boundedPayloadJson_applicationEventOf hlawful hdb hheld
  constructor
  · rintro ⟨payload, db', h⟩
    obtain ⟨eventJson, hjson, ⟨-, hnone, -⟩ | ⟨-, -, haccepted⟩⟩ := acceptExecutionEvent_eq_ok h
    · cases hnone
    · refine ⟨hbounded.mp ⟨_, hjson⟩, fun row hrow hworkspace hid hturn => ?_⟩
      have hfind := find_key hrow
      rw [hworkspace, hid] at hfind
      rcases haccepted with ⟨existing, hexisting, -, hsame, -, -⟩ | ⟨rows, hinsert, -⟩
      · -- the stored text is the one of this event, which is no turn
        rw [hfind] at hexisting
        cases hexisting
        have htag := tag_applicationEventOf hlawful event
        rw [← ((boundedJson_eq_ok (Nat.le_refl _)).mp hjson).2, ← hsame] at htag
        rw [ConversationEventRow.IsParticipantTurn, htag] at hturn
        simp at hturn
      · have hnone := (insert_eq_some_iff.mp hinsert).1
        rw [hfind] at hnone
        cases hnone
  · rintro ⟨hfits, hturns⟩
    obtain ⟨eventJson, hjson⟩ := hbounded.mpr hfits
    have htext := ((boundedJson_eq_ok (Nat.le_refl _)).mp hjson).2
    obtain ⟨row, hrow, heq, -, hpayload⟩ := hheld
    have hvalid : event.isValid = true := by
      rw [heq, ExecutionEvent.isValid_payload]
      exact hdb.valid row hrow
    obtain ⟨conversation, hconversation⟩ := Option.isSome_iff_exists.mp hconversation
    unfold acceptExecutionEvent
    rw [isSome_externalInputEvent hvalid, hjson, hconversation]
    cases hexisting : db.conversationEvents.find (event.workspaceId, event.eventId) with
    | none =>
      let delivery : ConversationEventRow :=
        { eventId := event.eventId
          conversationId := event.conversationId
          workspaceId := event.workspaceId
          sequence := nextConversationSequence db event.workspaceId event.conversationId
          requestHash := conversationRequestHash platform eventJson
          eventJson := eventJson
          status := .accepted }
      obtain ⟨rows, hrows⟩ : ∃ rows, db.conversationEvents.insert delivery = some rows :=
        exists_insert hexisting
      have hinsert : insertRow db.conversationEvents delivery = .ok rows :=
        insertRow_eq_ok.mpr hrows
      refine ⟨?_, ?_, bind_eq_ok.mpr ⟨(), rfl, bind_eq_ok.mpr ⟨eventJson, rfl,
        bind_eq_ok.mpr ⟨rows, hinsert, ?_⟩⟩⟩⟩
      rotate_left 2
      rfl
    | some existing =>
      -- the event with this identity is no turn, so that it is this very event
      obtain ⟨hmem, hkey⟩ := find_eq_some_iff.mp hexisting
      rw [Prod.mk.injEq] at hkey
      obtain ⟨other, hother, hdelivers⟩ := (hdb.conversationEvents existing hmem).resolve_left
        (hturns existing hmem hkey.1 hkey.2)
      have hsame : other = row := by
        apply Option.some.inj
        rw [← find_key hother, ← find_key hrow, ← hdelivers.eventId, hkey.2, heq]
        rfl
      subst hsame
      have hpayloads : canonicalText platform other.event.payload =
          canonicalText platform event.payload :=
        (canonicalText_payload hlawful hdb.payloads hother).trans hpayload
      have heventJson : existing.eventJson = eventJson := by
        calc existing.eventJson
            = canonicalText platform (applicationEventOf other.event) := hdelivers.eventJson
          _ = canonicalText platform
                (applicationEventOf { other.event with payload := event.payload }) :=
              canonicalText_applicationEventOf hpayloads
          _ = canonicalText platform (applicationEventOf event) := by rw [← heq]
          _ = eventJson := htext.symm
      have hconversationId : existing.conversationId = event.conversationId :=
        hdelivers.conversationId.trans (congrArg ExecutionEvent.conversationId heq).symm
      have htest : (decide (existing.conversationId = event.conversationId) &&
          decide (existing.eventJson = eventJson) &&
            decide (existing.requestHash = conversationRequestHash platform eventJson)) = true := by
        rw [hdelivers.requestHash, heventJson, hconversationId]
        simp
      refine ⟨?_, ?_, bind_eq_ok.mpr ⟨(), rfl, bind_eq_ok.mpr ⟨eventJson, rfl,
        bind_eq_ok.mpr ⟨(), ensure_eq_ok.mpr htest, ?_⟩⟩⟩⟩
      rotate_left 2
      rfl

/-! ## Accepted events -/

def EventAccepted (platform : Platform) (db : RuntimeDatabase) (event : ExecutionEventRow) : Prop :=
  ∃ row ∈ db.conversationEvents.rows, row.Delivers platform event

theorem ConversationEventRow.Follows.delivers_iff {row row₀ : ConversationEventRow}
    (h : row.Follows platform row₀) {event : ExecutionEventRow} :
    row.Delivers platform event ↔ row₀.Delivers platform event := by
  obtain ⟨hid, hworkspace, hconversation, hjson, hhash, -⟩ := h.same
  constructor
  · intro hdelivers
    exact ⟨hid ▸ hdelivers.eventId, hworkspace ▸ hdelivers.workspaceId,
      hconversation ▸ hdelivers.conversationId, hjson ▸ hdelivers.eventJson,
      by rw [← hhash, ← hjson]; exact hdelivers.requestHash⟩
  · intro hdelivers
    exact ⟨hid ▸ hdelivers.eventId, hworkspace ▸ hdelivers.workspaceId,
      hconversation ▸ hdelivers.conversationId, hjson ▸ hdelivers.eventJson,
      by rw [hhash, hjson]; exact hdelivers.requestHash⟩

/-- **An event is in its conversation once.** -/
theorem ConversationEventRow.Delivers.unique {row row' : ConversationEventRow}
    {event : ExecutionEventRow} (h : row.Delivers platform event)
    (h' : row'.Delivers platform event) (hrow : row ∈ db.conversationEvents.rows)
    (hrow' : row' ∈ db.conversationEvents.rows) : row = row' := by
  apply Option.some.inj
  rw [← find_key hrow, ← find_key hrow', h.eventId, h.workspaceId, h'.eventId, h'.workspaceId]

theorem EventAccepted.change {event : ExecutionEventRow} (h : EventAccepted platform db event)
    (hchange : Change platform catalog rid permitted db db') :
    EventAccepted platform db' event := by
  obtain ⟨row₀, hrow₀, hdelivers⟩ := h
  obtain ⟨row, hrow, hfollows, -⟩ := hchange.keepsConversationEvents hrow₀
  exact ⟨row, hrow, hfollows.delivers_iff.mpr hdelivers⟩

theorem EventAccepted.changes {event : ExecutionEventRow} (h : EventAccepted platform db event)
    (hchanges : Changes platform catalog rid permitted db db') :
    EventAccepted platform db' event := by
  induction hchanges with
  | refl => exact h
  | tail _ hlast ih => exact ih.change hlast

theorem IsDelivery.delivers (hlawful : platform.Lawful) (h : PayloadsOk platform db)
    {row : ConversationEventRow} {event : ExecutionEvent}
    (hdelivery : IsDelivery platform db row event) :
    ∃ stored ∈ db.executionEvents.rows, row.Delivers platform stored ∧
      stored.executionId = event.executionId ∧ stored.sequence = event.sequence := by
  obtain ⟨stored, hstored, heq, -, hpayload⟩ := hdelivery.held
  have hpayloads : canonicalText platform stored.event.payload =
      canonicalText platform event.payload :=
    (canonicalText_payload hlawful h hstored).trans hpayload
  have hjson := ((boundedJson_eq_ok (Nat.le_refl _)).mp hdelivery.eventJson).2
  refine ⟨stored, hstored, ⟨?_, ?_, ?_, ?_, ?_⟩, ?_, ?_⟩
  · rw [hdelivery.row, heq]
    rfl
  · rw [hdelivery.row, heq]
    rfl
  · rw [hdelivery.row, heq]
    rfl
  · rw [hjson, canonicalText_applicationEventOf hpayloads, ← heq]
  · exact congrArg ConversationEventRow.requestHash hdelivery.row
  · rw [heq]
    rfl
  · rw [heq]
    rfl

/-- The event with the identity is in its conversation. -/
def IdAccepted (platform : Platform) (db : RuntimeDatabase) (eventId : String) : Prop :=
  ∃ event ∈ db.executionEvents.rows, event.eventId = eventId ∧ EventAccepted platform db event

theorem IdAccepted.accepted {event : ExecutionEventRow} (h : IdAccepted platform db event.eventId)
    (hevent : event ∈ db.executionEvents.rows) : EventAccepted platform db event := by
  obtain ⟨event', hevent', hid, haccepted⟩ := h
  have heq : event' = event := by
    apply Option.some.inj
    rw [← find_key hevent', ← find_key hevent, hid]
  exact heq ▸ haccepted

theorem idAccepted_of_accept (hlawful : platform.Lawful) (hpayloads : PayloadsOk platform db)
    {event : ExecutionEvent} (hheld : Held platform db event)
    {payload : ConversationWorkflowPayload}
    (h : acceptExecutionEvent platform rid event db = .ok (some payload, db')) :
    IdAccepted platform db' event.eventId := by
  obtain ⟨stored, hstored, heq, hok, hpayload⟩ := hheld
  have hid : stored.eventId = event.eventId := by
    rw [heq]
    rfl
  obtain ⟨eventJson, hjson, ⟨-, hnone, -⟩ | ⟨-, -, ⟨existing, hfind, hconversation, hexisting,
    hhash, rfl⟩ | ⟨rows, hinsert, rfl⟩⟩⟩ := acceptExecutionEvent_eq_ok h
  · cases hnone
  · obtain ⟨hmem, hkey⟩ := find_eq_some_iff.mp hfind
    obtain ⟨hworkspace, heventId⟩ := Prod.mk.inj hkey
    have hpayloads' : canonicalText platform stored.event.payload =
        canonicalText platform event.payload :=
      (canonicalText_payload hlawful hpayloads hstored).trans hpayload
    refine ⟨stored, hstored, hid, existing, hmem, heventId.trans hid.symm, ?_, ?_, ?_, ?_⟩
    · rw [hworkspace, heq]
      rfl
    · rw [hconversation, heq]
      rfl
    · rw [hexisting, ((boundedJson_eq_ok (Nat.le_refl _)).mp hjson).2,
        canonicalText_applicationEventOf hpayloads', ← heq]
    · rw [hhash, hexisting]
  · have hdelivery : IsDelivery platform db
        { eventId := event.eventId
          conversationId := event.conversationId
          workspaceId := event.workspaceId
          sequence := nextConversationSequence db event.workspaceId event.conversationId
          requestHash := conversationRequestHash platform eventJson
          eventJson := eventJson
          status := .accepted } event :=
      ⟨⟨stored, hstored, heq, hok, hpayload⟩, hjson, rfl⟩
    obtain ⟨stored', hstored', hdelivers, -⟩ := hdelivery.delivers hlawful hpayloads
    refine ⟨stored', hstored', hdelivers.eventId.symm, _, ?_, hdelivers⟩
    dsimp only
    rw [(insert_eq_some_iff.mp hinsert).2]
    exact mem_append_right _ (mem_singleton_self _)

/-! ## Delivering events -/

/-- Some events were delivered and acknowledged, and nothing else happened. -/
structure Delivered (platform : Platform) (db db' : RuntimeDatabase) (eventIds : List String) :
    Prop where
  ok : OutboxOk platform db'
  executionEvents : db'.executionEvents = db.executionEvents
  conversations : db'.conversations = db.conversations
  deliverable : ∀ event, Deliverable db' event ↔ Deliverable db event
  accepted : ∀ event ∈ db.executionEvents.rows,
    event.eventId ∈ eventIds ∨ EventAccepted platform db event → EventAccepted platform db' event
  pending : ∀ workspaceId conversationId, pendingRows db' workspaceId conversationId =
    (pendingRows db workspaceId conversationId).filter fun row => row.eventId ∉ eventIds

theorem Delivered.refl (h : OutboxOk platform db) : Delivered platform db db [] where
  ok := h
  executionEvents := rfl
  conversations := rfl
  deliverable := fun _ => Iff.rfl
  accepted := fun _ _ haccepted => haccepted.resolve_left not_mem_nil
  pending := fun wid conversationId => by simp

theorem Delivered.trans {db'' : RuntimeDatabase} {eventIds eventIds' : List String}
    (h : Delivered platform db db' eventIds) (h' : Delivered platform db' db'' eventIds') :
    Delivered platform db db'' (eventIds ++ eventIds') where
  ok := h'.ok
  executionEvents := h'.executionEvents.trans h.executionEvents
  conversations := h'.conversations.trans h.conversations
  deliverable := fun event => (h'.deliverable event).trans (h.deliverable event)
  accepted := by
    intro event hevent haccepted
    rw [mem_append, or_right_comm] at haccepted
    refine h'.accepted event (h.executionEvents ▸ hevent) ?_
    exact (haccepted.imp_left (h.accepted event hevent)).symm
  pending := by
    intro wid conversationId
    rw [h'.pending, h.pending, filter_filter]
    apply filter_congr
    intro row _
    simp [Bool.and_comm]

theorem pendingRows_acknowledge (eventId : String) (db : RuntimeDatabase) (wid : String)
    (conversationId : Option String) : pendingRows (acknowledge eventId db) wid conversationId =
      (pendingRows db wid conversationId).filter fun row => row.eventId ∉ [eventId] := by
  have hunacknowledged : ((acknowledge eventId db).executionOutbox.rows.filter fun outbox =>
      !outbox.acknowledged) = (db.executionOutbox.rows.filter fun outbox =>
        !outbox.acknowledged).filter fun outbox => outbox.eventId ≠ eventId := by
    unfold acknowledge Table.modify mapRows
    dsimp only
    generalize db.executionOutbox.rows = rows
    induction rows with
    | nil => rfl
    | cons outbox rows ih =>
      rw [map_cons, filter_cons, filter_cons, ih]
      by_cases hid : outbox.eventId = eventId
      · cases outbox.acknowledged <;> simp [hid]
      · cases hacknowledged : outbox.acknowledged <;> simp [hid, hacknowledged]
  have hfound : ∀ rows : List OutboxRow,
    ((rows.filter fun outbox => outbox.eventId ≠ eventId).filterMap
      fun outbox => db.executionEvents.find outbox.eventId) =
        (rows.filterMap fun outbox => db.executionEvents.find outbox.eventId).filter fun row =>
          row.eventId ∉ [eventId] := by
    intro rows
    induction rows with
    | nil => rfl
    | cons outbox rows ih =>
      rw [filter_cons, filterMap_cons]
      cases hfind : db.executionEvents.find outbox.eventId with
      | none =>
        split
        · rw [filterMap_cons, hfind]
          exact ih
        · exact ih
      | some row =>
        -- the event that is found has the identity it is found under
        rw [filter_cons, key_of_find hfind, ← ih]
        by_cases hid : outbox.eventId = eventId
        · simp [hid]
        · simp [hid, hfind]
  unfold pendingRows
  rw [hunacknowledged]
  refine (congrArg _ (hfound _)).trans ?_
  rw [filter_filter, filter_filter]
  apply filter_congr
  intro row _
  rw [Bool.and_comm]
  rfl

theorem acceptExecutionEvent_delivers (hlawful : platform.Lawful) (hdb : OutboxOk platform db)
    {payload : ConversationWorkflowPayload} (hheld : Held platform db event)
    (h : acceptExecutionEvent platform rid event db = .ok (some payload, db')) :
    Delivered platform db (acknowledge event.eventId db') [event.eventId] := by
  have haccepted : Change platform ⟨[], ""⟩ rid (fun _ => True) db db' := .delivered hheld h trivial
  have hacknowledged : Change platform ⟨[], ""⟩ rid (fun _ => True) db'
      (acknowledge event.eventId db') := .acknowledged event.eventId trivial
  obtain ⟨conversationEvents, hframe⟩ := acceptExecutionEvent_frame h
  have hdeliverable : ∀ other, Deliverable db' other ↔ Deliverable db other := by
    intro other
    obtain ⟨eventJson, hjson, ⟨-, -, rfl⟩ | ⟨-, -, ⟨existing, -, -, -, -, rfl⟩ |
      ⟨rows, hinsert, rfl⟩⟩⟩ := acceptExecutionEvent_eq_ok h
    · exact Iff.rfl
    · exact Iff.rfl
    · have hrows := (insert_eq_some_iff.mp hinsert).2
      have htag := tag_applicationEventOf hlawful event
      rw [← ((boundedJson_eq_ok (Nat.le_refl _)).mp hjson).2] at htag
      unfold Deliverable
      dsimp only
      rw [hrows]
      simp only [forall_mem_append, forall_mem_singleton]
      refine and_congr_right fun _ => and_iff_left fun _ _ hturn => ?_
      rw [ConversationEventRow.IsParticipantTurn, htag] at hturn
      simp at hturn
  constructor
  · exact (hdb.change hlawful haccepted).change hlawful hacknowledged
  · rw [hframe]
    rfl
  · rw [hframe]
    rfl
  · exact hdeliverable
  · rintro stored hstored (hid | hbefore)
    · have hid := mem_singleton.mp hid
      have hnow := idAccepted_of_accept hlawful hdb.payloads hheld h
      rw [← hid] at hnow
      exact hnow.accepted (by rwa [hframe])
    · have hafter : EventAccepted platform db' stored := hbefore.change haccepted
      exact hafter
  · intro wid conversationId
    rw [pendingRows_acknowledge, hframe]
    rfl

theorem acceptExecutionEventIntoConversation_ok (hlawful : platform.Lawful)
    (hdb : OutboxOk platform db) (hheld : Held platform db event) (hconversation :
      (db.conversations.find (event.workspaceId, event.conversationId)).isSome = true) :
    ((acceptExecutionEventIntoConversation platform (fun _ => true) rid event db).1 =
        .ok () ↔ Deliverable db event) ∧ (Deliverable db event → Delivered platform db
        (acceptExecutionEventIntoConversation platform (fun _ => true) rid event db).2
          [event.eventId]) := by
  have hiff : (∃ payload db', acceptExecutionEvent platform rid event db =
      .ok (some payload, db')) ↔ Deliverable db event :=
    acceptExecutionEvent_iff hlawful hdb hheld hconversation
  unfold acceptExecutionEventIntoConversation
  rcases transaction_cases (acceptExecutionEvent platform rid event) db with
    ⟨payload, db', htransaction, haccept⟩ | ⟨failure, htransaction, haccept⟩
  · obtain ⟨eventJson, -, ⟨hnone, -⟩ | ⟨-, hpayload, -⟩⟩ := acceptExecutionEvent_eq_ok haccept
    · rw [hnone] at hconversation
      cases hconversation
    · obtain ⟨payload, rfl⟩ := Option.isSome_iff_exists.mp hpayload
      have hdeliverable := hiff.mp ⟨payload, db', haccept⟩
      rw [htransaction]
      exact ⟨⟨fun _ => hdeliverable, fun _ => rfl⟩, fun _ =>
        acceptExecutionEvent_delivers hlawful hdb hheld haccept⟩
  · have hrefused : ¬ Deliverable db event := by
      intro hdeliverable
      obtain ⟨payload, db', h⟩ := hiff.mpr hdeliverable
      rw [haccept] at h
      cases h
    rw [htransaction]
    refine ⟨⟨?_, fun h => absurd h hrefused⟩, fun h => absurd h hrefused⟩
    intro h
    cases h

theorem deliverRows_cons (execute : ConversationWorkflowPayload → Bool) (row : ExecutionEventRow)
    (rows : List ExecutionEventRow) (hvalid : row.event.isValid = true) (db : RuntimeDatabase) :
    deliverRows platform execute rid (row :: rows) db =
      match acceptExecutionEventIntoConversation platform execute rid row.event db with
      | (.error failure, db) => (.error failure, db)
      | (.ok (), db) => deliverRows platform execute rid rows db :=
  if_pos hvalid

/-- **Some events are delivered when each is deliverable.** -/
theorem deliverRows_spec (hlawful : platform.Lawful) (rows : List ExecutionEventRow)
    (hdb : OutboxOk platform db) (hrows : ∀ row ∈ rows, row ∈ db.executionEvents.rows ∧
      (db.conversations.find (row.workspaceId, row.conversationId)).isSome = true) :
    ((deliverRows platform (fun _ => true) rid rows db).1 = .ok () ↔
        ∀ row ∈ rows, Deliverable db row.event) ∧
      ((∀ row ∈ rows, Deliverable db row.event) → Delivered platform db
        (deliverRows platform (fun _ => true) rid rows db).2 (rows.map (·.eventId))) := by
  induction rows generalizing db with
  | nil =>
    exact ⟨⟨fun _ row hrow => absurd hrow not_mem_nil, fun _ => rfl⟩, fun _ => Delivered.refl hdb⟩
  | cons row rows ih =>
    rw [forall_mem_cons] at hrows
    obtain ⟨⟨hrow, hconversation⟩, hrest⟩ := hrows
    have hheld := held_of_row hlawful hdb.payloads hrow
    obtain ⟨hhead, hdelivered⟩ := acceptExecutionEventIntoConversation_ok hlawful hdb hheld
      hconversation
    rw [deliverRows_cons _ row rows (hdb.valid row hrow), forall_mem_cons, map_cons]
    split
    · next failure db' heq =>
      rw [heq] at hhead
      have hrefused : ¬ Deliverable db row.event := fun h => by cases hhead.mpr h
      refine ⟨⟨fun h => ?_, fun h => absurd h.1 hrefused⟩, fun h => absurd h.1 hrefused⟩
      cases h
    · next db' heq =>
      rw [heq] at hhead hdelivered
      have hdeliverable := hhead.mp rfl
      have hfirst := hdelivered hdeliverable
      have hrest' : ∀ row ∈ rows, row ∈ db'.executionEvents.rows ∧
          (db'.conversations.find (row.workspaceId, row.conversationId)).isSome = true := by
        rw [hfirst.executionEvents, hfirst.conversations]
        exact hrest
      obtain ⟨hok, hlater⟩ := ih hfirst.ok hrest'
      have hsame : (∀ row ∈ rows, Deliverable db' row.event) ↔
          ∀ row ∈ rows, Deliverable db row.event :=
        forall₂_congr fun row _ => hfirst.deliverable row.event
      rw [hok, hsame]
      exact ⟨(and_iff_right hdeliverable).symm, fun h => hfirst.trans (hlater (hsame.mpr h.2))⟩

theorem registered_of_pending {wid : String} {conversationId : Option String}
    {row : ExecutionEventRow} (h : row ∈ pendingRows db wid conversationId) :
    (db.conversations.find (row.workspaceId, row.conversationId)).isSome = true := by
  have hp := (mem_filter.mp h).2
  simp only [Bool.and_eq_true] at hp
  exact hp.1.2

/-- **A pass delivers everything that is pending, or is refused each time.** -/
theorem deliverPendingExecutionEvents_iff (hlawful : platform.Lawful) (hdb : OutboxOk platform db)
    (wid : String) (conversationId : Option String) :
    (∃ batches db', deliverPendingExecutionEvents platform (fun _ => true) rid wid
        conversationId batches db = some (.ok (), db') ∧ pendingRows db' wid conversationId = []) ↔
      ∀ row ∈ pendingRows db wid conversationId, Deliverable db row.event := by
  induction hlength : (pendingRows db wid conversationId).length using Nat.strong_induction_on
    generalizing db with
  | _ n ih =>
    let rows := (pendingRows db wid conversationId).take 128
    have hrows : ∀ row ∈ rows, row ∈ db.executionEvents.rows ∧
        (db.conversations.find (row.workspaceId, row.conversationId)).isSome = true :=
      fun row hrow => ⟨mem_pendingRows (mem_of_mem_take hrow),
        registered_of_pending (mem_of_mem_take hrow)⟩
    have hspec : ((deliverRows platform (fun _ => true) rid rows db).1 = .ok () ↔ _) ∧ _ :=
      deliverRows_spec hlawful rows hdb hrows
    have hpass : ∀ batches, deliverPendingExecutionEvents platform (fun _ => true) rid
        wid conversationId (batches + 1) db =
          match deliverRows platform (fun _ => true) rid rows db with
          | (.error failure, db) => some (.error failure, db)
          | (.ok (), db) =>
            if rows.length = 128 then deliverPendingExecutionEvents platform (fun _ => true) rid wid
                conversationId batches db
            else some (.ok (), db) := fun _ => rfl
    cases hresult : deliverRows platform (fun _ => true) rid rows db with
    | mk result db₁ =>
      rw [hresult] at hspec hpass
      obtain ⟨hok, hdelivered⟩ := hspec
      cases result with
      | error failure =>
        -- an event of the batch is refused, by this pass and by every other
        have hrefused : ¬ ∀ row ∈ rows, Deliverable db row.event := fun h => by cases hok.mpr h
        constructor
        · rintro ⟨batches, db', h, -⟩
          cases batches with
          | zero => cases h
          | succ batches =>
            rw [hpass] at h
            cases h
        · exact fun h => absurd (fun row hrow => h row (mem_of_mem_take hrow)) hrefused
      | ok u =>
        have hdeliverable := hok.mp rfl
        have hbatch := hdelivered hdeliverable
        have hpending := hbatch.pending wid conversationId
        by_cases hfull : rows.length = 128
        · have hall : (∀ row ∈ pendingRows db wid conversationId, Deliverable db row.event) ↔
                ∀ row ∈ pendingRows db₁ wid conversationId, Deliverable db₁ row.event := by
            simp only [hbatch.deliverable, hpending, mem_filter, decide_eq_true_eq, and_imp]
            refine ⟨fun h row hrow _ => h row hrow, fun h row hrow => ?_⟩
            by_cases hmem : row.eventId ∈ rows.map (·.eventId)
            · -- the identity is the one of an event of the batch, which is the event
              obtain ⟨other, hother, hid⟩ := mem_map.mp hmem
              have hsame : other = row := by
                apply Option.some.inj
                rw [← find_key (hrows other hother).1, ← find_key (mem_pendingRows hrow)]
                exact congrArg _ hid
              exact hsame ▸ hdeliverable other hother
            · exact h row hrow hmem
          have hless : (pendingRows db₁ wid conversationId).length < n := by
            obtain ⟨row, hrow⟩ := exists_mem_of_length_pos (l := rows) (by omega)
            rw [hpending, ← hlength]
            refine length_filter_lt_length_iff_exists.mpr ⟨row, mem_of_mem_take hrow, ?_⟩
            simpa using ⟨row, hrow, rfl⟩
          rw [hall, ← ih _ hless hbatch.ok rfl]
          constructor
          · rintro ⟨batches, db', h, hnone⟩
            cases batches with
            | zero => cases h
            | succ batches =>
              rw [hpass] at h
              dsimp only at h
              rw [if_pos hfull] at h
              exact ⟨batches, db', h, hnone⟩
          · rintro ⟨batches, db', h, hnone⟩
            refine ⟨batches + 1, db', ?_, hnone⟩
            rw [hpass]
            dsimp only
            rw [if_pos hfull, h]
        · -- the batch is everything that is pending
          have hwhole : rows = pendingRows db wid conversationId := by
            apply take_of_length_le
            rw [length_take] at hfull
            omega
          refine ⟨fun _ => hwhole ▸ hdeliverable, fun _ => ⟨1, db₁, ?_, ?_⟩⟩
          · rw [hpass]
            dsimp only
            rw [if_neg hfull]
          · rw [hpending, hwhole, filter_eq_nil_iff]
            intro row hrow
            simpa using ⟨row, hrow, rfl⟩

/-- **A pass that ends well has delivered** some events, and nothing else happened. -/
theorem deliverPendingExecutionEvents_delivered (hlawful : platform.Lawful)
    (hdb : OutboxOk platform db) {wid : String} {conversationId : Option String} {batches : ℕ}
    (h : deliverPendingExecutionEvents platform (fun _ => true) rid wid conversationId batches db =
      some (.ok (), db')) : ∃ eventIds, Delivered platform db db' eventIds := by
  induction batches generalizing db with
  | zero => cases h
  | succ batches ih =>
    have hrows : ∀ row ∈ (pendingRows db wid conversationId).take 128,
        row ∈ db.executionEvents.rows ∧
          (db.conversations.find (row.workspaceId, row.conversationId)).isSome = true :=
      fun row hrow => ⟨mem_pendingRows (mem_of_mem_take hrow),
        registered_of_pending (mem_of_mem_take hrow)⟩
    have hspec : ((deliverRows platform (fun _ => true) rid _ db).1 = .ok () ↔ _) ∧ _ :=
      deliverRows_spec hlawful _ hdb hrows
    unfold deliverPendingExecutionEvents at h
    dsimp only at h
    split at h
    · cases h
    · next db₁ hbatch =>
      rw [hbatch] at hspec
      have hdelivered := hspec.2 (hspec.1.mp rfl)
      split at h
      · obtain ⟨eventIds, hlater⟩ := ih hdelivered.ok h
        exact ⟨_, hdelivered.trans hlater⟩
      · cases h
        exact ⟨_, hdelivered⟩

/-! ## Runs -/

theorem outboxOk_of_run (hlawful : platform.Lawful) (steps : List RuntimeStep) :
    ∀ s ∈ visited (runtimeStep platform catalog rid) .initial steps,
      FibersOk platform s ∧ OutboxOk platform s.db := by
  refine invariant_visited (P := fun s => FibersOk platform s ∧ OutboxOk platform s.db) ?_ ?_
    (runMeets_true _ steps)
  · intro step s ⟨hfibers, hdb⟩ _
    obtain ⟨hchanges, hfibers'⟩ : Continues platform catalog rid (fun _ => True) s _ :=
      runtimeStep_continues hlawful hfibers hdb.payloads fun _ _ => trivial
    exact ⟨hfibers', hdb.changes hlawful hchanges⟩
  · exact ⟨fun f hf => absurd hf not_mem_nil, OutboxOk.empty⟩

/-- **Whatever happened before, an event that was persisted for a registered conversation is
accepted when it is deliverable, and a pass empties the outbox of the conversations when
everything pending there is deliverable.** -/
theorem deliveries_of_runs (hlawful : platform.Lawful) (catalog : RegisteredActionCatalog)
    (rootIdentity : String) (steps : List RuntimeStep) :
    ∀ s ∈ visited (runtimeStep platform catalog rootIdentity) .initial steps,
      (∀ event, (Fiber.accept event ∈ s.fibers ∨
          ∃ row ∈ s.db.executionEvents.rows, event = row.event) →
        (s.db.conversations.find (event.workspaceId, event.conversationId)).isSome = true →
          ((∃ payload db', acceptExecutionEvent platform rootIdentity event s.db =
            .ok (some payload, db')) ↔ Deliverable s.db event)) ∧ ∀ workspaceId conversationId,
          (∃ batches db', deliverPendingExecutionEvents platform (fun _ => true) rootIdentity
              workspaceId conversationId batches s.db = some (.ok (), db') ∧
                pendingRows db' workspaceId conversationId = []) ↔
            ∀ row ∈ pendingRows s.db workspaceId conversationId, Deliverable s.db row.event := by
  intro s hs
  obtain ⟨hfibers, hdb⟩ := outboxOk_of_run hlawful steps s hs
  constructor
  · intro event hevent hconversation
    have hheld : Held platform s.db event := by
      rcases hevent with hfiber | ⟨row, hrow, rfl⟩
      · exact hfibers _ hfiber
      · exact held_of_row hlawful hdb.payloads hrow
    exact acceptExecutionEvent_iff hlawful hdb hheld hconversation
  · exact deliverPendingExecutionEvents_iff hlawful hdb

/-! ## A run that blocks its outbox -/

def buildAction : RegisteredAction where
  name := "build"
  revision := "1"
  fingerprint := "fp"
  recoveryPolicy := .failClosed
  decodeInput := fun _ => true
  hasCancel := false
  hasFollowUp := true
  nameValid := by decide
  revisionValid := by decide

def buildCatalog : RegisteredActionCatalog where
  actions := [buildAction]
  fingerprint := "catalog"

/-- The digests that the runs below ask for. -/
def buildPlatform : Platform := Platform.ofDigests
  [("laborer-execution-v1\x00root\x00W\x00I".toList,
      "wOJ1VBabKnt-_sUm8DvRsCKJ0FFzibGnk-KFbTqK2cA"),
    ("\x7b\x7d".toList, "RBNvo1WzZ4oRRq0W9-hknpT7T8If536DEMBg9hyq_4o"),
    ("laborer-conversation-session-v1\x00root\x00W\x00C".toList,
      "fJdD90gxF2pJDprj4LQcfeTw3QaoZ-LGCRz1H6UIr2E"),
    ("laborer-execution-progress-v1\x00P".toList, "vXKdneWIIX8aWMv-eVvcEPLMvC2w-EaM_aPLZdzDOj8"),
    ("laborer-execution-progress-v1\x00Q".toList, "YkvbGRjDhV8xDRByjKozAsSvmt6kRx6u037ZBxKLbL8")]
  [(("Laborer/RegisteredActionExecution/v1", "wOJ1VBabKnt-_sUm8DvRsCKJ0FFzibGnk-KFbTqK2cA"),
    "242311106b6969ef31fe1a890479ec78")]

theorem buildPlatform_lawful : buildPlatform.Lawful :=
  Platform.ofDigests_lawful (by decide) (by decide)

/-- A started Execution of a registered conversation reports some progress. -/
def progressRun (reports : List (String × JsValue)) : List RuntimeStep :=
  [.restart,
    .startExecution
      { actionName := "build"
        conversationId := "C"
        input := .obj []
        invocationId := "I"
        rootIdentity := "root"
        workspaceId := "W" } 0,
    .runExecution "242311106b6969ef31fe1a890479ec78",
    .registerConversation "C" "W"] ++
      reports.map fun report => .reportProgress "242311106b6969ef31fe1a890479ec78" report.1 report.2

def progressState (reports : List (String × JsValue)) : RuntimeState :=
  finalState (runtimeStep buildPlatform buildCatalog "root") .initial (progressRun reports)

set_option maxRecDepth 20000 in
theorem deliveries_of_progressRun : ∃ batches db', deliverPendingExecutionEvents buildPlatform
    (fun _ => true) "root" "W" none batches (progressState [("Q", .str "done")]).db =
      some (.ok (), db') ∧ pendingRows db' "W" none = [] := by
  apply ((deliveries_of_runs buildPlatform_lawful buildCatalog "root"
    (progressRun [("Q", .str "done")]) _ (finalState_mem_visited _ _)).2 "W" none).mpr
  intro row hrow
  have hrow : row ∈ pendingRows (progressState [("Q", .str "done")]).db "W" none := hrow
  have hevents : (progressState [("Q", .str "done")]).db.conversationEvents.rows = [] := rfl
  have hpending : (pendingRows (progressState [("Q", .str "done")]).db "W" none).map
      (fun row => row.event.payload) = [.str "done"] := rfl
  have hpayload := mem_map_of_mem (f := fun row => row.event.payload) hrow
  rw [hpending, mem_singleton] at hpayload
  constructor
  · rw [hpayload]
    exact ⟨by decide, by decide⟩
  · intro turn hturn
    exact absurd (hevents ▸ hturn) not_mem_nil

def nestedPayload : JsValue :=
  .arr [.arr [.arr [.arr [.arr [.arr [.arr []]]]]]]

set_option maxRecDepth 20000 in
theorem nestedPayload_blocks :
    (pendingRows (progressState [("P", nestedPayload), ("Q", .str "done")]).db "W" none).map
        (fun row => row.event.payload) = [nestedPayload, .str "done"] ∧
      (∀ row ∈ (pendingRows (progressState [("P", nestedPayload), ("Q", .str "done")]).db "W"
          none).head?, acceptExecutionEvent buildPlatform "root" row.event
            (progressState [("P", nestedPayload), ("Q", .str "done")]).db =
              .error (.runtimeError .invalidPayload)) ∧
        ∀ batches db', deliverPendingExecutionEvents buildPlatform (fun _ => true) "root" "W" none
          batches (progressState [("P", nestedPayload), ("Q", .str "done")]).db ≠
            some (.ok (), db') := by
  refine ⟨rfl, ?_, ?_⟩
  · intro row hrow
    cases hrow
    rfl
  · intro batches db' h
    cases batches with
    | zero => cases h
    | succ batches => cases h

end Laborer.DurableRuntime
