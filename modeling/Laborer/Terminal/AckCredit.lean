import Laborer.Library.Runs
import Laborer.Terminal.Host

/-!
# The credit of acknowledgements

Cursors count bytes and the PTY is owed characters. While the journal still retains the
committed cursor each time it advances, what the PTY is owed is what the output holds after
that cursor, so a client that has acknowledged everything leaves the PTY running. Where it
was trimmed away, the credit is lost.
-/

namespace Laborer.Terminal

open Library List OrderedMap

namespace AttachLane

/-! ## The least cursor of the leases -/

variable {cursors : OrderedMap String ℕ}

theorem committedCursor_spec (h : cursors ≠ []) :
    (∃ lease ∈ cursors, lease.2 = committedCursor cursors) ∧
      ∀ lease ∈ cursors, committedCursor cursors ≤ lease.2 := by
  have hsome : cursors.values.min? = some (committedCursor cursors) := by
    unfold committedCursor
    cases hmin : cursors.values.min? with
    | none =>
      rw [min?_eq_none_iff, map_eq_nil_iff] at hmin
      exact absurd hmin h
    | some least => rfl
  obtain ⟨hmem, hle⟩ := min?_eq_some_iff.mp hsome
  constructor
  · obtain ⟨lease, hlease, heq⟩ := mem_map.mp hmem
    exact ⟨lease, hlease, heq⟩
  · intro lease hlease
    exact hle _ (mem_map.mpr ⟨lease, hlease, rfl⟩)

theorem committedCursor_mono {cursors' : OrderedMap String ℕ} (h : cursors' ≠ [])
    (hle : ∀ lease ∈ cursors', ∃ earlier ∈ cursors, earlier.2 ≤ lease.2) :
    committedCursor cursors ≤ committedCursor cursors' := by
  obtain ⟨lease, hlease, heq⟩ := (committedCursor_spec h).1
  obtain ⟨earlier, hearlier, hbelow⟩ := hle lease hlease
  have hleast := (committedCursor_spec (ne_nil_of_mem hearlier)).2 earlier hearlier
  omega

/-! ## What is owed -/

/-- The leases and the journal agree with the output of the lane: every acknowledged cursor
is a mark of the output that was `settled` before the step. -/
structure Leases (config : TransportConfig) (settled : List Output) (lane : AttachLane) : Prop where
  keeps : (lane.journalFor config).Keeps lane.history
  grown : settled <+: lane.history
  keys : lane.subscribers.map Prod.fst = lane.leaseCursors.map Prod.fst
  nodup : (lane.leaseCursors.map Prod.fst).Nodup
  consumers : lane.flow.consumers = lane.leaseCursors.length
  marks : ∀ lease ∈ lane.leaseCursors, CursorLog.IsMark utf8Bytes 0 settled lease.2
  acknowledged : lane.acknowledgedCursor.getD 0 ≤ CursorLog.total utf8Bytes lane.history

/-- The PTY is owed the characters of the settled output after the committed cursor, and
nothing while no lease is attached. -/
structure Credit (config : TransportConfig) (settled : List Output) (lane : AttachLane) : Prop
    extends Leases config settled lane where
  committed : lane.leaseCursors ≠ [] →
    lane.acknowledgedCursor = some (committedCursor lane.leaseCursors)
  owes : ∃ debt, lane.flow.Owes config debt ∧
    if lane.leaseCursors = [] then debt = 0
    else debt + TerminalCursorJournal.charsTo settled (committedCursor lane.leaseCursors) =
      CursorLog.total utf16Length settled

def RetainsCommitted (config : TransportConfig) (lane : AttachLane) : Prop :=
  (lane.journalFor config).minimumCursor ≤ lane.acknowledgedCursor.getD 0

instance (config : TransportConfig) (lane : AttachLane) :
    Decidable (lane.RetainsCommitted config) :=
  inferInstanceAs (Decidable (_ ≤ _))

def HeldByAnother (leaseId : String) (lane : AttachLane) : Prop :=
  ∃ lease ∈ lane.leaseCursors, lease.1 ≠ leaseId ∧
    lease.2 ≤ lane.acknowledgedCursor.getD 0

instance (leaseId : String) (lane : AttachLane) : Decidable (lane.HeldByAnother leaseId) :=
  inferInstanceAs (Decidable (∃ lease ∈ lane.leaseCursors, _))

structure Advances (config : TransportConfig) (lane lane' : AttachLane) : Prop where
  cursor : lane.acknowledgedCursor.getD 0 ≤ lane'.acknowledgedCursor.getD 0
  journal : lane'.journalFor config = lane.journalFor config
  history : lane'.history = lane.history
  leases : lane'.leaseCursors ⊆ lane.leaseCursors

variable {config : TransportConfig} {settled : List Output} {lane lane' lane'' : AttachLane}

theorem Advances.refl (lane : AttachLane) : Advances config lane lane :=
  ⟨Nat.le_refl _, rfl, rfl, fun _ hlease => hlease⟩

theorem Advances.trans (h : Advances config lane lane') (h' : Advances config lane' lane'') :
    Advances config lane lane'' :=
  ⟨h.cursor.trans h'.cursor, h'.journal.trans h.journal, h'.history.trans h.history,
    fun _ hlease => h.leases (h'.leases hlease)⟩

theorem RetainsCommitted.advances (h : lane.RetainsCommitted config)
    (hadvances : Advances config lane lane') : lane'.RetainsCommitted config := by
  unfold RetainsCommitted at h ⊢
  rw [hadvances.journal]
  exact h.trans hadvances.cursor

theorem journalFor_some {journal : TerminalCursorJournal} (h : lane.journal = some journal) :
    lane.journalFor config = journal := by
  unfold journalFor
  rw [h]
  rfl

section

variable (h : Leases config settled lane)
include h

theorem Leases.charsTo_history {cursor : ℕ} (hmark : CursorLog.IsMark utf8Bytes 0 settled cursor) :
    TerminalCursorJournal.charsTo lane.history cursor =
      TerminalCursorJournal.charsTo settled cursor := by
  obtain ⟨recent, heq⟩ := h.grown
  unfold TerminalCursorJournal.charsTo
  rw [← heq]
  apply CursorLog.weightTo_append hmark
  rw [heq]
  exact h.keeps.positive

theorem Leases.isMark_history {cursor : ℕ} (hmark : CursorLog.IsMark utf8Bytes 0 settled cursor) :
    CursorLog.IsMark utf8Bytes 0 lane.history cursor := by
  obtain ⟨recent, heq⟩ := h.grown
  rw [← heq]
  exact hmark.append recent

theorem Leases.positive_settled : CursorLog.Positive utf8Bytes settled := by
  obtain ⟨recent, heq⟩ := h.grown
  have hpositive := h.keeps.positive
  rw [← heq] at hpositive
  exact hpositive.of_append.1

theorem Leases.committed_isMark (hne : lane.leaseCursors ≠ []) :
    CursorLog.IsMark utf8Bytes 0 settled (committedCursor lane.leaseCursors) := by
  obtain ⟨lease, hlease, heq⟩ := (committedCursor_spec hne).1
  rw [← heq]
  exact h.marks lease hlease

/-- Committing pays the characters between the old committed cursor, which the journal must
retain where it is not the new one, and the new one. -/
theorem Leases.commit {previous debt : ℕ}
    (hne : lane.leaseCursors ≠ []) (hacked : lane.acknowledgedCursor = some previous)
    (hprevious : CursorLog.IsMark utf8Bytes 0 settled previous)
    (hle : previous ≤ committedCursor lane.leaseCursors)
    (hretains : lane.RetainsCommitted config ∨ committedCursor lane.leaseCursors = previous)
    (howes : lane.flow.Owes config debt)
    (hdebt : debt + TerminalCursorJournal.charsTo settled previous =
      CursorLog.total utf16Length settled) : Credit config settled (lane.commit config true) := by
  have hcommitted := h.committed_isMark hne
  have hbetween : (lane.journalFor config).charactersBetween previous
      (committedCursor lane.leaseCursors) + TerminalCursorJournal.charsTo settled previous =
        TerminalCursorJournal.charsTo settled (committedCursor lane.leaseCursors) := by
    rcases hretains with hretains | hsame
    · unfold RetainsCommitted at hretains
      rw [hacked] at hretains
      rw [← h.charsTo_history hprevious, ← h.charsTo_history hcommitted]
      apply h.keeps.charactersBetween_add _ _ hle
      · exact h.keeps.retains (h.isMark_history hprevious) hretains
      · exact h.keeps.retains (h.isMark_history hcommitted) (Nat.le_trans hretains hle)
    · -- Nothing lies between a cursor and itself.
      rw [hsame]
      have hzero : (lane.journalFor config).charactersBetween previous previous = 0 := by
        unfold TerminalCursorJournal.charactersBetween
        split
        · have hempty : (lane.journalFor config).ends.filter
              (fun entry => decide (previous < entry.1) && decide (entry.1 ≤ previous)) = [] := by
            rw [filter_eq_nil_iff]
            intro entry _
            simp
          rw [hempty]
          rfl
        · rfl
      omega
  have hchars : (lane.journalFor config).charactersBetween previous
      (committedCursor lane.leaseCursors) ≤ debt := by
    have hmost := TerminalCursorJournal.charsTo_le h.positive_settled hcommitted
    omega
  unfold AttachLane.commit
  rw [hacked]
  refine ⟨⟨h.keeps, h.grown, h.keys, h.nodup, ?_, h.marks, ?_⟩, fun _ => rfl, ?_⟩
  · show (if _ then _ else _ : FlowControl).consumers = _
    split
    · rw [FlowControl.ack_consumers]
      exact h.consumers
    · exact h.consumers
  · show committedCursor lane.leaseCursors ≤ CursorLog.total utf8Bytes lane.history
    have hbounds := (h.isMark_history hcommitted).bounds
    omega
  · refine ⟨debt - (lane.journalFor config).charactersBetween previous
      (committedCursor lane.leaseCursors), ?_, ?_⟩
    · show FlowControl.Owes config _ (if _ then _ else _)
      split
      · exact howes.ack hchars
      · next hzero =>
        have hnone : (lane.journalFor config).charactersBetween previous
            (committedCursor lane.leaseCursors) = 0 := by
          apply Nat.eq_zero_of_not_pos
          exact hzero
        rw [hnone]
        exact howes
    · show if lane.leaseCursors = [] then _ else _ + TerminalCursorJournal.charsTo settled
        (committedCursor lane.leaseCursors) = _
      rw [if_neg hne]
      omega

end

/-! ## One subscriber goes -/

theorem committedCursor_of_held (hcommitted : lane.leaseCursors ≠ [] →
      lane.acknowledgedCursor = some (committedCursor lane.leaseCursors)) {leaseId : String}
    (hheld : lane.HeldByAnother leaseId)
    (hkept : ∀ lease ∈ lane.leaseCursors, lease.1 ≠ leaseId → lease ∈ cursors)
    (hle : committedCursor lane.leaseCursors ≤ committedCursor cursors) :
    committedCursor cursors = committedCursor lane.leaseCursors := by
  obtain ⟨lease, hlease, hother, hbelow⟩ := hheld
  have hmem := hkept lease hlease hother
  have hleast := (committedCursor_spec (ne_nil_of_mem hmem)).2 lease hmem
  rw [hcommitted (ne_nil_of_mem hlease)] at hbelow
  have hbelow : lease.2 ≤ committedCursor lane.leaseCursors := hbelow
  omega

/-- A subscriber goes. No credit is lost where the journal retains the committed cursor, or
where that does not move. -/
theorem Credit.removeAttachSubscriber (h : Credit config settled lane) (sid : String)
    (hretains : lane.RetainsCommitted config ∨ lane.HeldByAnother sid ∨
      ∀ lease ∈ lane.leaseCursors, lease.1 = sid) :
    Credit config settled (lane.removeAttachSubscriber config true sid) ∧
      Advances config lane (lane.removeAttachSubscriber config true sid) := by
  unfold AttachLane.removeAttachSubscriber
  cases hsubscriber : lane.subscribers.get? sid with
  | none => exact ⟨h, Advances.refl lane⟩
  | some subscriber =>
    have hkey : sid ∈ lane.leaseCursors.map Prod.fst := by
      rw [← h.keys]
      exact mem_keys_of_get? hsubscriber
    obtain ⟨held, hheld⟩ := exists_get? hkey
    have hne : lane.leaseCursors ≠ [] := by
      intro hnil
      rw [hnil] at hkey
      exact absurd hkey not_mem_nil
    have hlength : lane.leaseCursors.length = (lane.leaseCursors.delete sid).length + 1 :=
      (perm_cons_delete h.nodup hheld).length_eq
    obtain ⟨debt, howes, hdebt⟩ := h.owes
    rw [if_neg hne] at hdebt
    have howes := howes.detachFlowControlConsumer
    have hacked := h.committed hne
    have hfewer : ∀ lease ∈ lane.leaseCursors.delete sid, lease ∈ lane.leaseCursors :=
      fun lease hlease => (mem_filter.mp hlease).1
    have hkeys : (lane.subscribers.delete sid).map Prod.fst =
        (lane.leaseCursors.delete sid).map Prod.fst := by
      rw [keys_delete, keys_delete, h.keys]
    simp only [if_neg hne]
    by_cases hlast : lane.leaseCursors.delete sid = []
    · -- The last lease: nothing is owed any more.
      rw [if_pos hlast]
      rw [hlast] at hlength
      have hone : lane.flow.consumers ≤ 1 := by
        rw [h.consumers, hlength]
        exact Nat.le_refl _
      rw [if_pos hone] at howes
      constructor
      · refine ⟨⟨h.keeps, h.grown, hkeys, nodup_keys_delete _ h.nodup, ?_, ?_, ?_⟩, ?_, ?_⟩
        · show (lane.flow.detachFlowControlConsumer true).consumers =
            (lane.leaseCursors.delete sid).length
          rw [FlowControl.detachFlowControlConsumer_consumers, hlast]
          exact Nat.sub_eq_zero_of_le hone
        · exact fun lease hlease => h.marks lease (hfewer lease hlease)
        · exact h.keeps.cursor_eq.le
        · exact fun hleft => absurd hlast hleft
        · exact ⟨0, howes, by rw [if_pos hlast]⟩
      · refine ⟨?_, rfl, rfl, fun lease hlease => hfewer lease hlease⟩
        show _ ≤ (lane.journalFor config).cursor
        rw [h.keeps.cursor_eq]
        exact h.acknowledged
    · -- The others may all be ahead of the one that goes.
      rw [if_neg hlast]
      have hmany : ¬ lane.flow.consumers ≤ 1 := by
        rw [h.consumers, hlength]
        have hpos := length_pos_of_ne_nil hlast
        omega
      rw [if_neg hmany] at howes
      have hle : committedCursor lane.leaseCursors ≤
          committedCursor (lane.leaseCursors.delete sid) :=
        committedCursor_mono hlast fun lease hlease => ⟨lease, hfewer lease hlease, Nat.le_refl _⟩
      have hleases : Leases config settled
          { lane with
            subscribers := lane.subscribers.delete sid
            ended := lane.ended ++ [(subscriber, lane.history)]
            flow := lane.flow.detachFlowControlConsumer true
            leaseCursors := lane.leaseCursors.delete sid } := by
        refine ⟨h.keeps, h.grown, hkeys, nodup_keys_delete _ h.nodup, ?_, ?_, ?_⟩
        · show (lane.flow.detachFlowControlConsumer true).consumers =
            (lane.leaseCursors.delete sid).length
          rw [FlowControl.detachFlowControlConsumer_consumers, h.consumers, hlength]
          rfl
        · exact fun lease hlease => h.marks lease (hfewer lease hlease)
        · exact h.acknowledged
      have hkept : lane.RetainsCommitted config ∨ committedCursor (lane.leaseCursors.delete sid) =
            committedCursor lane.leaseCursors := by
        rcases hretains with hretains | hheld | honly
        · exact .inl hretains
        · right
          apply committedCursor_of_held h.committed hheld _ hle
          intro lease hlease hother
          exact mem_filter.mpr ⟨hlease, by simpa using hother⟩
        · obtain ⟨lease, hlease⟩ := exists_mem_of_ne_nil _ hlast
          have hother := (mem_filter.mp hlease).2
          rw [honly lease (hfewer lease hlease)] at hother
          simp at hother
      constructor
      · exact hleases.commit hlast hacked (h.committed_isMark hne) hle hkept howes hdebt
      · refine ⟨?_, rfl, rfl, fun lease hlease => hfewer lease hlease⟩
        rw [hacked]
        exact hle

/-! ## Output -/

theorem Credit.congr (h : Credit config settled lane) (hflow : lane'.flow = lane.flow)
    (hjournal : lane'.journalFor config = lane.journalFor config)
    (hhistory : lane'.history = lane.history)
    (hkeys : lane'.subscribers.map Prod.fst = lane.subscribers.map Prod.fst)
    (hleases : lane'.leaseCursors = lane.leaseCursors)
    (hacked : lane'.acknowledgedCursor = lane.acknowledgedCursor) :
    Credit config settled lane' := by
  refine ⟨⟨?_, ?_, ?_, ?_, ?_, ?_, ?_⟩, ?_, ?_⟩
  · rw [hjournal, hhistory]
    exact h.keeps
  · rw [hhistory]
    exact h.grown
  · rw [hkeys, hleases]
    exact h.keys
  · rw [hleases]
    exact h.nodup
  · rw [hflow, hleases]
    exact h.consumers
  · rw [hleases]
    exact h.marks
  · rw [hacked, hhistory]
    exact h.acknowledged
  · rw [hleases, hacked]
    exact h.committed
  · rw [hflow, hleases]
    exact h.owes

variable {accepts : Accepts} {event : TerminalAttachEvent}

theorem Credit.offer (h : Credit config settled lane) (sid : String)
    (hretains : accepts sid event = true ∨ lane.RetainsCommitted config) :
    Credit config settled (lane.offer config accepts true event sid) ∧
      Advances config lane (lane.offer config accepts true event sid) := by
  unfold AttachLane.offer
  cases hsubscriber : lane.subscribers.get? sid with
  | none => exact ⟨h, Advances.refl lane⟩
  | some subscriber =>
    by_cases haccepts : accepts sid event = true
    · simp only [haccepts, if_true]
      constructor
      · refine h.congr (by rfl) (by rfl) (by rfl) ?_ (by rfl) (by rfl)
        exact keys_set_of_mem _ (mem_keys_of_get? hsubscriber)
      · exact ⟨Nat.le_refl _, rfl, rfl, fun _ hlease => hlease⟩
    · have hretains := hretains.resolve_left haccepts
      simp only [if_neg haccepts]
      exact h.removeAttachSubscriber sid (.inl hretains)

theorem Credit.offerAll (h : Credit config settled lane) (subscriberIds : List String)
    (hretains : (∀ sid ∈ subscriberIds, accepts sid event = true) ∨ lane.RetainsCommitted config) :
    Credit config settled (subscriberIds.foldl (AttachLane.offer config accepts true event) lane) ∧
      Advances config lane
        (subscriberIds.foldl (AttachLane.offer config accepts true event) lane) := by
  induction subscriberIds generalizing lane with
  | nil => exact ⟨h, Advances.refl lane⟩
  | cons sid subscriberIds ih =>
    rw [foldl_cons]
    have hfirst : accepts sid event = true ∨ lane.RetainsCommitted config := by
      rcases hretains with haccept | hretains
      · exact .inl (haccept sid mem_cons_self)
      · exact .inr hretains
    obtain ⟨hcredit, hadvances⟩ := h.offer sid hfirst
    have hrest : (∀ other ∈ subscriberIds, accepts other event = true) ∨
        (lane.offer config accepts true event sid).RetainsCommitted config := by
      rcases hretains with haccept | hretains
      · exact .inl fun other hother => haccept other (mem_cons_of_mem _ hother)
      · exact .inr (hretains.advances hadvances)
    obtain ⟨hall, hlater⟩ := ih hcredit hrest
    exact ⟨hall, hadvances.trans hlater⟩

theorem writeHeadless_frame (lane : AttachLane) (data : Output) (cursor : ℕ) :
    ∃ headlessTerminals parsedCursor, lane.writeHeadless data cursor =
      { lane with headlessTerminals := headlessTerminals, parsedCursor := parsedCursor } := by
  unfold AttachLane.writeHeadless
  split
  · exact ⟨lane.headlessTerminals, some cursor, rfl⟩
  · exact ⟨_, lane.parsedCursor, rfl⟩

/-- Wherever a subscriber refuses a chunk, the journal still retains a cursor: the one that
was committed before the output came. -/
def CreditKept (accepts : Accepts) (leases : OrderedMap String ℕ) (acknowledged : ℕ) :
    TerminalCursorJournal → List Output → Prop
  | _, [] => True
  | journal, chunk :: chunks =>
    match journal.append chunk with
    | none => True
    | some journal' =>
      ((∀ lease ∈ leases, accepts lease.1 (.delta journal'.cursor chunk) = true) ∨
        journal'.minimumCursor ≤ acknowledged) ∧
      CreditKept accepts leases acknowledged journal' chunks

instance decidableCreditKept (accepts : Accepts) (leases : OrderedMap String ℕ)
    (acknowledged : ℕ) : (journal : TerminalCursorJournal) → (chunks : List Output) →
      Decidable (CreditKept accepts leases acknowledged journal chunks)
  | _, [] => isTrue trivial
  | journal, chunk :: chunks => by
    unfold CreditKept
    cases journal.append chunk with
    | none => exact isTrue trivial
    | some journal' =>
      have := decidableCreditKept accepts leases acknowledged journal' chunks
      exact inferInstanceAs (Decidable (_ ∧ _))

/-- A chunk is appended and offered: it is not settled yet. -/
theorem Credit.processChunk {chunk : Output} {journal' : TerminalCursorJournal}
    (h : Credit config settled lane) (hchunk : chunk ≠ [])
    (happend : (lane.journalFor config).append chunk = some journal')
    (hretains : (∀ lease ∈ lane.leaseCursors,
        accepts lease.1 (.delta journal'.cursor chunk) = true) ∨
      journal'.minimumCursor ≤ lane.acknowledgedCursor.getD 0) :
    ∃ lane', lane.processChunk config accepts true chunk = some lane' ∧
      Credit config settled lane' ∧ lane'.history = lane.history ++ [chunk] ∧
      lane'.journalFor config = journal' ∧
      lane.acknowledgedCursor.getD 0 ≤ lane'.acknowledgedCursor.getD 0 ∧
      lane'.leaseCursors ⊆ lane.leaseCursors := by
  have hkeeps := h.keeps.append hchunk happend
  obtain ⟨headlessTerminals, parsedCursor, hwrite⟩ := writeHeadless_frame
    { lane with journal := some journal', history := lane.history ++ [chunk] } chunk journal'.cursor
  have happended : Credit config settled
      { lane with
        journal := some journal'
        history := lane.history ++ [chunk]
        headlessTerminals := headlessTerminals
        parsedCursor := parsedCursor } := by
    refine ⟨⟨hkeeps, h.grown.trans (prefix_append _ _), h.keys, h.nodup, h.consumers, h.marks,
      ?_⟩, h.committed, h.owes⟩
    have hle := h.acknowledged
    show _ ≤ CursorLog.total utf8Bytes (lane.history ++ [chunk])
    rw [CursorLog.total_append]
    exact hle.trans (Nat.le_add_right _ _)
  have hids : (∀ sid ∈ lane.subscribers.map Prod.fst,
      accepts sid (.delta journal'.cursor chunk) = true) ∨
        journal'.minimumCursor ≤ lane.acknowledgedCursor.getD 0 := by
    rcases hretains with haccept | hretains
    · left
      intro sid hmem
      rw [h.keys] at hmem
      obtain ⟨lease, hlease, rfl⟩ := mem_map.mp hmem
      exact haccept lease hlease
    · exact .inr hretains
  obtain ⟨hcredit, hadvances⟩ := happended.offerAll (lane.subscribers.map Prod.fst) hids
  refine ⟨_, ?_, hcredit, hadvances.history, hadvances.journal, hadvances.cursor, hadvances.leases⟩
  unfold AttachLane.processChunk
  rw [happend, Option.map_some, hwrite]
  rfl

theorem processChunk_append {chunk : Output} {present : Bool}
    (h : lane.processChunk config accepts present chunk = some lane') :
    ∃ journal', (lane.journalFor config).append chunk = some journal' := by
  unfold AttachLane.processChunk at h
  obtain ⟨journal', happend, -⟩ := Option.map_eq_some_iff.mp h
  exact ⟨journal', happend⟩

theorem Credit.processChunks {chunks : List Output} {leases : OrderedMap String ℕ}
    {acknowledged : ℕ} (h : Credit config settled lane) (hchunks : ∀ chunk ∈ chunks, chunk ≠ [])
    (hkept : CreditKept accepts leases acknowledged (lane.journalFor config) chunks)
    (hleases : lane.leaseCursors ⊆ leases)
    (hacknowledged : acknowledged ≤ lane.acknowledgedCursor.getD 0)
    (hprocess : lane.processChunks config accepts true chunks = some lane') :
    Credit config settled lane' ∧ lane'.history = lane.history ++ chunks ∧
      lane.acknowledgedCursor.getD 0 ≤ lane'.acknowledgedCursor.getD 0 := by
  induction chunks generalizing lane with
  | nil =>
    cases Option.some.inj hprocess
    exact ⟨h, (append_nil _).symm, Nat.le_refl _⟩
  | cons chunk chunks ih =>
    unfold AttachLane.processChunks at hprocess
    obtain ⟨next, hnext, hrest⟩ := Option.bind_eq_some_iff.mp hprocess
    obtain ⟨journal', happend⟩ := processChunk_append hnext
    unfold CreditKept at hkept
    rw [happend] at hkept
    have hretains : (∀ lease ∈ lane.leaseCursors,
        accepts lease.1 (.delta journal'.cursor chunk) = true) ∨
          journal'.minimumCursor ≤ lane.acknowledgedCursor.getD 0 := by
      rcases hkept.1 with haccept | hretains
      · exact .inl fun lease hlease => haccept lease (hleases hlease)
      · exact .inr (hretains.trans hacknowledged)
    obtain ⟨lane₁, heq, hcredit, hhistory, hjournal, hcursor, hsubset⟩ :=
      h.processChunk (hchunks chunk mem_cons_self) happend hretains
    rw [hnext] at heq
    cases Option.some.inj heq
    rw [← hjournal] at hkept
    obtain ⟨hlast, hhistory', hcursor'⟩ :=
      ih hcredit (fun other hother => hchunks other (mem_cons_of_mem _ hother)) hkept.2
        (fun lease hlease => hleases (hsubset hlease)) (hacknowledged.trans hcursor) hrest
    refine ⟨hlast, ?_, hcursor.trans hcursor'⟩
    rw [hhistory', hhistory, append_assoc]
    rfl

theorem Credit.trackEmittedChars {recent : List Output} (h : Credit config settled lane)
    (hhistory : lane.history = settled ++ recent) :
    Credit config lane.history
      { lane with
        flow := lane.flow.trackEmittedChars config true (CursorLog.total utf16Length recent) } := by
  obtain ⟨debt, howes, hdebt⟩ := h.owes
  refine ⟨⟨h.keeps, prefix_refl _, h.keys, h.nodup, ?_, ?_, h.acknowledged⟩, h.committed, ?_⟩
  · show (lane.flow.trackEmittedChars config true _).consumers = _
    rw [FlowControl.trackEmittedChars_consumers]
    exact h.consumers
  · exact fun lease hlease => h.isMark_history (h.marks lease hlease)
  · refine ⟨_, howes.trackEmittedChars _, ?_⟩
    by_cases hnone : lane.leaseCursors = []
    · rw [if_pos hnone]
      rw [if_pos hnone] at hdebt
      have hconsumers : lane.flow.consumers = 0 := by
        rw [h.consumers, hnone]
        rfl
      rw [if_pos hconsumers]
      exact hdebt
    · rw [if_neg hnone]
      rw [if_neg hnone] at hdebt
      have hconsumers : ¬ lane.flow.consumers = 0 := by
        rw [h.consumers]
        exact fun hzero => hnone (length_eq_zero_iff.mp hzero)
      rw [if_neg hconsumers]
      show _ + TerminalCursorJournal.charsTo lane.history (committedCursor lane.leaseCursors) =
        CursorLog.total utf16Length lane.history
      rw [h.charsTo_history (h.committed_isMark hnone), hhistory, CursorLog.total_append]
      omega

/-! ## Attach and acknowledge -/

theorem Credit.emitAll (h : Credit config settled lane) (sid : String)
    (events : List TerminalAttachEvent) (hretains : lane.RetainsCommitted config) :
    Credit config settled (lane.emitAll config accepts true sid events) ∧
      Advances config lane (lane.emitAll config accepts true sid events) := by
  unfold AttachLane.emitAll
  induction events generalizing lane with
  | nil => exact ⟨h, Advances.refl lane⟩
  | cons event events ih =>
    rw [foldl_cons]
    obtain ⟨hcredit, hadvances⟩ : Credit config settled (lane.offer config accepts true event sid) ∧
          Advances config lane (lane.offer config accepts true event sid) :=
      h.offer sid (.inr hretains)
    obtain ⟨hall, hlater⟩ := ih hcredit (hretains.advances hadvances)
    exact ⟨hall, hadvances.trans hlater⟩

theorem Credit.register (h : Credit config lane.history lane) (uuid : String)
    (options : AttachOptions) {sid : String} (hfree : sid ∉ lane.leaseCursors.map Prod.fst) :
    Credit config lane.history (lane.register config true uuid options sid) ∧
      (lane.register config true uuid options sid).RetainsCommitted config := by
  have hmapped : (lane.leaseCursors.map fun lease =>
      (lease.1, (lane.journalFor config).cursor)).map Prod.fst =
        lane.leaseCursors.map Prod.fst := by
    rw [map_map]
    rfl
  have hfreshKey : sid ∉ (lane.leaseCursors.map fun lease =>
      (lease.1, (lane.journalFor config).cursor)).map Prod.fst := by
    rw [hmapped]
    exact hfree
  have hcursors : ∀ lease ∈ (lane.register config true uuid options sid).leaseCursors,
      lease.2 = (lane.journalFor config).cursor := by
    intro lease hlease
    rcases mem_set hlease with rfl | hlease
    · rfl
    · obtain ⟨earlier, -, rfl⟩ := mem_map.mp hlease
      rfl
  have hkeys : (lane.register config true uuid options sid).leaseCursors.map Prod.fst =
      lane.leaseCursors.map Prod.fst ++ [sid] := by
    rw [← hmapped]
    exact keys_set_of_not_mem _ hfreshKey
  have hne : (lane.register config true uuid options sid).leaseCursors ≠ [] := by
    intro hnil
    rw [hnil, map_nil] at hkeys
    exact append_ne_nil_of_right_ne_nil _ (cons_ne_nil _ _) hkeys.symm
  have hcommitted : committedCursor (lane.register config true uuid options sid).leaseCursors =
        (lane.journalFor config).cursor := by
    obtain ⟨lease, hlease, heq⟩ := (committedCursor_spec hne).1
    rw [← heq]
    exact hcursors lease hlease
  obtain ⟨debt, howes, -⟩ := h.owes
  refine ⟨⟨⟨h.keeps, prefix_refl _, ?_, ?_, ?_, ?_, ?_⟩, ?_, ?_⟩, ?_⟩
  · rw [hkeys, ← h.keys]
    apply keys_set_of_not_mem
    rw [h.keys]
    exact hfree
  · rw [hkeys, nodup_append]
    refine ⟨h.nodup, nodup_singleton _, ?_⟩
    intro key hkey other hother heq
    rw [mem_singleton.mp hother] at heq
    exact hfree (heq ▸ hkey)
  · have hlength := congrArg List.length hkeys
    rw [length_map, length_append, length_map] at hlength
    show (lane.flow.attachFlowControlConsumer true).consumers = _
    rw [FlowControl.attachFlowControlConsumer_consumers, h.consumers]
    exact hlength.symm
  · intro lease hlease
    rw [hcursors lease hlease, h.keeps.cursor_eq]
    exact TerminalCursorJournal.isMark_total lane.history
  · exact h.keeps.cursor_eq.le
  · intro _
    exact congrArg some hcommitted.symm
  · refine ⟨0, howes.attachFlowControlConsumer, ?_⟩
    rw [if_neg hne, hcommitted, h.keeps.cursor_eq, Nat.zero_add]
    exact h.keeps.charsTo_total
  · exact (lane.journalFor config).minimumCursor_le_cursor

theorem Credit.attach (h : Credit config lane.history lane) (screen : Screen) (uuid : String)
    (status : TerminalStatus) (options : AttachOptions) (sid : String) : Credit config lane.history
        (lane.attach config screen accepts true uuid status options sid) ∧
      (lane.attach config screen accepts true uuid status options sid).history = lane.history ∧
      lane.acknowledgedCursor.getD 0 ≤ (lane.attach config screen accepts true uuid status options
          sid).acknowledgedCursor.getD 0 := by
  unfold AttachLane.attach
  by_cases htaken : (lane.subscribers.get? sid).isSome = true
  · rw [if_pos htaken]
    refine ⟨?_, rfl, Nat.le_refl _⟩
    exact h.congr (by rfl) (by rfl) (by rfl) (by rfl) (by rfl) (by rfl)
  · rw [if_neg htaken]
    have hfree : sid ∉ lane.leaseCursors.map Prod.fst := by
      rw [← h.keys, ← OrderedMap.get?_eq_none_iff]
      exact Option.not_isSome_iff_eq_none.mp htaken
    obtain ⟨hregistered, hretains⟩ := h.register uuid options hfree
    obtain ⟨hreplayed, hadvances⟩ :
        Credit config lane.history (AttachLane.emitAll config accepts true
        sid (lane.attachEvents config screen (lane.transportEpoch.getD uuid) status
          options).1 _) ∧ Advances config _ (AttachLane.emitAll config accepts true sid _ _) :=
      hregistered.emitAll sid _ hretains
    have hforward : lane.acknowledgedCursor.getD 0 ≤ (lane.journalFor config).cursor := by
      rw [h.keeps.cursor_eq]
      exact h.acknowledged
    simp only []
    split
    · obtain ⟨hremoved, hlater⟩ := hreplayed.removeAttachSubscriber sid
        (.inl (hretains.advances hadvances))
      have hboth := hadvances.trans hlater
      exact ⟨hremoved, hboth.history, hforward.trans hboth.cursor⟩
    · exact ⟨hreplayed, hadvances.history, hforward.trans hadvances.cursor⟩

theorem acknowledge_stale {leaseId : String} {cursor previous : ℕ} {present : Bool}
    (hlease : lane.leaseCursors.get? leaseId = some previous) (hstale : cursor ≤ previous) :
    lane.acknowledge config present leaseId cursor = lane := by
  unfold AttachLane.acknowledge
  rw [hlease]
  cases lane.journal with
  | none => rfl
  | some journal => exact if_pos hstale

/-- An acknowledgement that advances a lease pays for what all leases have read. -/
theorem Credit.acknowledge (h : Credit config lane.history lane) (leaseId : String) (cursor : ℕ)
    (hretains : lane.RetainsCommitted config ∨ lane.HeldByAnother leaseId ∨
      ∀ previous ∈ lane.leaseCursors.get? leaseId, cursor ≤ previous) :
    Credit config lane.history (lane.acknowledge config true leaseId cursor) ∧
      (lane.acknowledge config true leaseId cursor).history = lane.history ∧
      lane.acknowledgedCursor.getD 0 ≤
        (lane.acknowledge config true leaseId cursor).acknowledgedCursor.getD 0 := by
  unfold AttachLane.acknowledge
  cases hjournal : lane.journal with
  | none => exact ⟨h, rfl, Nat.le_refl _⟩
  | some journal =>
    cases hlease : lane.leaseCursors.get? leaseId with
    | none => exact ⟨h, rfl, Nat.le_refl _⟩
    | some previous =>
      simp only []
      by_cases hstale : cursor ≤ previous
      · rw [if_pos hstale]
        exact ⟨h, rfl, Nat.le_refl _⟩
      · rw [if_neg hstale]
        by_cases hcursor : journal.retains cursor
        · rw [if_pos hcursor]
          have hkey := mem_keys_of_get? hlease
          have hmem := mem_of_get? hlease
          have hne : lane.leaseCursors ≠ [] := ne_nil_of_mem hmem
          have hkeys := keys_set_of_mem cursor hkey
          have hset : lane.leaseCursors.set leaseId cursor ≠ [] := by
            intro hnil
            rw [hnil, map_nil] at hkeys
            rw [← hkeys] at hkey
            exact absurd hkey not_mem_nil
          have hle : committedCursor lane.leaseCursors ≤
              committedCursor (lane.leaseCursors.set leaseId cursor) := by
            apply committedCursor_mono hset
            intro lease hlease'
            rcases mem_set hlease' with rfl | hlease'
            · exact ⟨_, hmem, by omega⟩
            · exact ⟨lease, hlease', Nat.le_refl _⟩
          have hkept : lane.RetainsCommitted config ∨
              committedCursor (lane.leaseCursors.set leaseId cursor) =
                committedCursor lane.leaseCursors := by
            rcases hretains with hretains | hheld | hbefore
            · exact .inl hretains
            · right
              apply committedCursor_of_held h.committed hheld _ hle
              intro lease hlease' hother
              unfold OrderedMap.set
              rw [if_pos hkey]
              exact mem_map.mpr ⟨lease, hlease', if_neg hother⟩
            · exact absurd (hbefore previous hlease) hstale
          obtain ⟨debt, howes, hdebt⟩ := h.owes
          rw [if_neg hne] at hdebt
          have hjournalFor : lane.journalFor config = journal := journalFor_some hjournal
          have hleases : Leases config lane.history
              { lane with leaseCursors := lane.leaseCursors.set leaseId cursor } := by
            refine ⟨h.keeps, prefix_refl _, ?_, ?_, ?_, ?_, h.acknowledged⟩
            · exact h.keys.trans hkeys.symm
            · show (List.map Prod.fst (OrderedMap.set _ _ _)).Nodup
              rw [hkeys]
              exact h.nodup
            · have hlength := congrArg List.length hkeys
              rw [length_map, length_map] at hlength
              exact h.consumers.trans hlength.symm
            · intro lease hlease'
              rcases mem_set hlease' with rfl | hlease'
              · apply h.keeps.isMark
                rw [hjournalFor]
                exact hcursor
              · exact h.marks lease hlease'
          have hacked := h.committed hne
          rw [← hjournal]
          refine ⟨?_, rfl, ?_⟩
          · exact hleases.commit hset hacked (h.committed_isMark hne) hle hkept howes hdebt
          · rw [hacked]
            exact hle
        · rw [if_neg hcursor]
          exact ⟨h, rfl, Nat.le_refl _⟩

end AttachLane

end Laborer.Terminal
