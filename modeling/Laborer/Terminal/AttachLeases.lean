import Laborer.Terminal.AttachStreams

/-!
# The leases of a terminal

Which leases have a subscriber, and how the operations of the attach lane change that: only
an attach adds one, and every event that is published takes those away whose subscriber
refuses it.
-/

namespace Laborer.Terminal

open Library List OrderedMap Option

namespace AttachLane

def Holds (lane : AttachLane) (leaseId : String) : Prop :=
  leaseId ∈ lane.subscribers.map Prod.fst

instance (lane : AttachLane) (leaseId : String) : Decidable (lane.Holds leaseId) :=
  inferInstanceAs (Decidable (leaseId ∈ lane.subscribers.map Prod.fst))

variable {config : TransportConfig} {accepts : Accepts} {present : Bool}
variable {lane lane' : AttachLane} {leaseId : String}

theorem holds_congr (h : lane'.subscribers = lane.subscribers) (leaseId : String) :
    lane'.Holds leaseId ↔ lane.Holds leaseId := by
  rw [Holds, Holds, h]

theorem not_holds_of_get? (h : lane.subscribers.get? leaseId = none) : ¬lane.Holds leaseId :=
  get?_eq_none_iff.mp h

theorem holds_removeAttachSubscriber (lane : AttachLane) (sid leaseId : String) :
    (lane.removeAttachSubscriber config present sid).Holds leaseId ↔
      lane.Holds leaseId ∧ leaseId ≠ sid := by
  obtain ⟨-, hsubscribers, -⟩ :
      SameOutput config lane (lane.removeAttachSubscriber config present sid) ∧ _ ∧ _ :=
    removeAttachSubscriber_spec lane sid
  rw [Holds, Holds, hsubscribers, keys_delete, mem_filter]
  simp

/-! ## Events -/

/-- An offer that is refused ends the lease it is made to. -/
theorem holds_offer (event : TerminalAttachEvent) (lane : AttachLane) (sid leaseId : String) :
    (lane.offer config accepts present event sid).Holds leaseId ↔
      lane.Holds leaseId ∧ (leaseId = sid → accepts leaseId event = true) := by
  unfold offer
  cases hsubscriber : lane.subscribers.get? sid with
  | none =>
    refine ⟨fun hheld => ⟨hheld, fun heq => ?_⟩, fun h => h.1⟩
    subst heq
    exact absurd hheld (not_holds_of_get? hsubscriber)
  | some subscriber =>
    simp only []
    by_cases haccepts : accepts sid event = true
    · have hmem := mem_keys_of_get? hsubscriber
      rw [if_pos haccepts, Holds, Holds, keys_set_of_mem _ hmem]
      refine ⟨fun hheld => ⟨hheld, fun heq => ?_⟩, fun h => h.1⟩
      rw [heq]
      exact haccepts
    · rw [if_neg haccepts, holds_removeAttachSubscriber]
      refine and_congr_right fun _ => ⟨fun hother heq => absurd heq hother, fun h heq => ?_⟩
      apply haccepts
      rw [← heq]
      exact h heq

theorem holds_offerAll (event : TerminalAttachEvent) (lane : AttachLane)
    (subscriberIds : List String) (leaseId : String) :
    (subscriberIds.foldl (offer config accepts present event) lane).Holds leaseId ↔
      lane.Holds leaseId ∧ (leaseId ∈ subscriberIds → accepts leaseId event = true) := by
  induction subscriberIds generalizing lane with
  | nil => simp
  | cons sid subscriberIds ih =>
    rw [foldl_cons, ih, holds_offer, and_assoc]
    apply and_congr_right
    intro _
    rw [mem_cons]
    constructor
    · rintro ⟨hfirst, hrest⟩ (heq | hmem)
      · exact hfirst heq
      · exact hrest hmem
    · exact fun h => ⟨fun heq => h (.inl heq), fun hmem => h (.inr hmem)⟩

/-- **After an event the leases are those whose subscriber took it.** -/
theorem holds_publishAttachEvent (event : TerminalAttachEvent) (lane : AttachLane)
    (leaseId : String) : (lane.publishAttachEvent config accepts present event).Holds leaseId ↔
      lane.Holds leaseId ∧ accepts leaseId event = true := by
  rw [publishAttachEvent, holds_offerAll]
  exact and_congr_right fun hheld => ⟨fun h => h hheld, fun h _ => h⟩

theorem holds_of_emitAll {sid : String} {events : List TerminalAttachEvent}
    (h : (lane.emitAll config accepts present sid events).Holds leaseId) : lane.Holds leaseId := by
  unfold emitAll at h
  induction events generalizing lane with
  | nil => exact h
  | cons event events ih => exact ((holds_offer event lane sid leaseId).mp (ih h)).1

/-! ## Output -/

theorem subscribers_writeHeadless (lane : AttachLane) (data : Output) (cursor : ℕ) :
    (lane.writeHeadless data cursor).subscribers = lane.subscribers := by
  unfold writeHeadless
  split
  · rfl
  · rfl

theorem holds_of_processChunk {chunk : Output}
    (h : lane.processChunk config accepts present chunk = some lane')
    (hheld : lane'.Holds leaseId) : lane.Holds leaseId ∧ ∃ event, accepts leaseId event = true := by
  obtain ⟨journal, -, rfl⟩ := map_eq_some_iff.mp h
  have htaken := (holds_publishAttachEvent _ _ leaseId).mp hheld
  refine ⟨(holds_congr ?_ leaseId).mp htaken.1, _, htaken.2⟩
  exact subscribers_writeHeadless _ chunk journal.cursor

theorem holds_of_processChunks {chunks : List Output}
    (h : lane.processChunks config accepts present chunks = some lane')
    (hheld : lane'.Holds leaseId) :
    lane.Holds leaseId ∧ (chunks ≠ [] → ∃ event, accepts leaseId event = true) := by
  induction chunks generalizing lane with
  | nil =>
    cases h
    exact ⟨hheld, fun hne => absurd rfl hne⟩
  | cons chunk chunks ih =>
    obtain ⟨next, hnext, hrest⟩ := bind_eq_some_iff.mp h
    have htaken := holds_of_processChunk hnext (ih hrest).1
    exact ⟨htaken.1, fun _ => htaken.2⟩

/-- **Output leaves only the leases whose subscribers take it.** -/
theorem holds_of_processOutput {data : Output} (hdata : data ≠ [])
    (h : lane.processOutput config accepts present data = some lane')
    (hheld : lane'.Holds leaseId) : lane.Holds leaseId ∧ ∃ event, accepts leaseId event = true := by
  obtain ⟨chunks, hchunks, hprocessed⟩ := bind_eq_some_iff.mp h
  have hleft := holds_of_processChunks hprocessed hheld
  refine ⟨hleft.1, hleft.2 ?_⟩
  rintro rfl
  exact hdata (splitByUtf8Bytes_spec hchunks).1.symm

/-! ## Attach and the other operations -/

/-- **Only the lease that is asked for is new.** -/
theorem holds_of_attach {screen : Screen} {uuid : String} {status : TerminalStatus}
    {options : AttachOptions} {sid : String}
    (h : (lane.attach config screen accepts present uuid status options sid).Holds
      leaseId) : lane.Holds leaseId ∨ leaseId = sid := by
  unfold attach at h
  split at h
  · exact .inl h
  · have hreplayed : ((lane.register config present uuid options sid).emitAll config accepts
        present sid (lane.attachEvents config screen (lane.transportEpoch.getD uuid)
          status options).1).Holds leaseId := by
      dsimp only at h
      split at h
      · exact ((holds_removeAttachSubscriber _ sid leaseId).mp h).1
      · exact h
    have hregistered : leaseId ∈ (lane.subscribers.set sid
        { resume := options.cursor, received := [] }).map Prod.fst := holds_of_emitAll hreplayed
    by_cases hmem : sid ∈ lane.subscribers.map Prod.fst
    · rw [keys_set_of_mem _ hmem] at hregistered
      exact .inl hregistered
    · rw [keys_set_of_not_mem _ hmem, mem_append, mem_singleton] at hregistered
      exact hregistered

theorem holds_of_restart {uuid : String}
    (h : (lane.restart config accepts present uuid).Holds leaseId) : lane.Holds leaseId := by
  have hcomplete := ((holds_publishAttachEvent _ _ leaseId).mp h).1
  have hmetadata := ((holds_publishAttachEvent _ _ leaseId).mp hcomplete).1
  have hsnapshot := ((holds_publishAttachEvent _ _ leaseId).mp hmetadata).1
  exact ((holds_publishAttachEvent (.reset uuid .epoch_changed) (lane.beginGeneration uuid)
    leaseId).mp hsnapshot).1

theorem not_holds_remove (lane : AttachLane) : ¬(lane.remove present).Holds leaseId :=
  not_mem_nil

theorem holds_acknowledge (lane : AttachLane) (lease : String) (cursor : ℕ) (leaseId : String) :
    (lane.acknowledge config present lease cursor).Holds leaseId ↔ lane.Holds leaseId := by
  apply holds_congr
  unfold acknowledge
  split
  · split
    · rfl
    · split
      · rfl
      · rfl
  · rfl

theorem holds_parseNext (lane : AttachLane) (instanceId : ℕ) (leaseId : String) :
    (lane.parseNext instanceId).Holds leaseId ↔ lane.Holds leaseId := by
  apply holds_congr
  unfold parseNext
  split
  · rfl
  · split
    · rfl
    · rfl

end AttachLane

end Laborer.Terminal
