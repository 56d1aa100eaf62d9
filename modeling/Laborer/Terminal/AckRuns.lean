import Laborer.Terminal.AckCredit

/-!
# Runs of output, attaches, detaches and acknowledgements

From one spawned terminal on, over any number of leases: what is acknowledged to the PTY
never exceeds what it emitted, the committed cursor is the least of the leases and only
advances, and a terminal whose clients have acknowledged everything is not paused, as long
as no advance of the committed cursor finds the old one trimmed from the journal.
-/

namespace Laborer.Terminal

open Library AttachLane Option List

/-- Output, parsing, attaches, detaches and acknowledgements. -/
def TerminalEvent.isTransport : TerminalEvent → Bool
  | .data .. | .windowCloses | .parses _ | .attach .. | .unsubscribe _ | .acknowledge .. => true
  | _ => false

namespace Host

def buffered (host : Host) : Output := host.client.coalescer.elim [] Coalescer.joined

/-- When this output is forwarded, wherever a subscriber refuses a chunk of it the journal
still retains the committed cursor. -/
def FlushKept (config : TransportConfig) (accepts : Accepts) (data : Output) (host : Host) : Prop :=
  match splitByUtf8Bytes data config.outputChunkBytes with
  | none => True
  | some chunks =>
    CreditKept accepts host.lane.leaseCursors (host.lane.acknowledgedCursor.getD 0)
      (host.lane.journalFor config) chunks

instance (config : TransportConfig) (accepts : Accepts) (data : Output) (host : Host) :
    Decidable (host.FlushKept config accepts data) := by
  unfold FlushKept
  split
  · exact isTrue trivial
  · infer_instance

/-- Where a step advances the committed cursor, the journal retains the old one. -/
def CommitKept (config : TransportConfig) (input : TerminalInput) (host : Host) : Prop :=
  match input.event with
  | .data _ data => host.FlushKept config input.accepts (host.buffered ++ data)
  | .windowCloses => host.FlushKept config input.accepts host.buffered
  | .unsubscribe leaseId =>
    host.lane.RetainsCommitted config ∨ host.lane.HeldByAnother leaseId ∨
      ∀ lease ∈ host.lane.leaseCursors, lease.1 = leaseId
  | .acknowledge leaseId cursor =>
    host.lane.RetainsCommitted config ∨ host.lane.HeldByAnother leaseId ∨
      ∀ previous ∈ host.lane.leaseCursors.get? leaseId, cursor ≤ previous
  | _ => True

instance (config : TransportConfig) (input : TerminalInput) (host : Host) :
    Decidable (host.CommitKept config input) := by
  unfold CommitKept
  split <;> infer_instance

/-! ## What a step keeps -/

/-- The terminal has its PTY, and what it is owed is what the clients have not read. -/
structure Covers (config : TransportConfig) (host : Host) : Prop where
  present : host.present = true
  callback : host.client.dataCallback.isSome = true
  credit : Credit config host.lane.history host.lane

def Forward (host host' : Host) : Prop :=
  host.lane.acknowledgedCursor.getD 0 ≤ host'.lane.acknowledgedCursor.getD 0

variable {config : TransportConfig} {accepts : Accepts} {host host' : Host}

theorem Covers.setCoalescer (h : host.Covers config) (coalescer : Coalescer) :
    (host.setCoalescer coalescer).Covers config :=
  ⟨h.present, h.callback, h.credit⟩

theorem Covers.openWindow (h : host.Covers config) : host.openWindow.Covers config := by
  unfold Host.openWindow
  split
  · exact h
  · exact h.setCoalescer _

theorem openWindow_lane (host : Host) : host.openWindow.lane = host.lane := by
  unfold Host.openWindow
  split <;> rfl

section

variable (h : host.Covers config)
include h

theorem Covers.forward {coalescer : Coalescer}
    (hkept : host.FlushKept config accepts coalescer.joined)
    (hforward : host.forward config accepts coalescer = some host') :
    host'.Covers config ∧ host.Forward host' := by
  obtain ⟨callback, hcallback⟩ := isSome_iff_exists.mp h.callback
  unfold Host.forward at hforward
  rw [hcallback] at hforward
  obtain ⟨lane, hlane, rfl⟩ := map_eq_some_iff.mp hforward
  obtain ⟨chunks, hchunks, hprocess⟩ := bind_eq_some_iff.mp hlane
  rw [h.present] at hprocess
  unfold FlushKept at hkept
  rw [hchunks] at hkept
  obtain ⟨hflat, hpieces⟩ := splitByUtf8Bytes_spec hchunks
  obtain ⟨hcredit, hhistory, hcursor⟩ := h.credit.processChunks
    (fun chunk hchunk => (hpieces chunk hchunk).1) hkept (fun _ hlease => hlease)
    (Nat.le_refl _) hprocess
  have hcount : utf16Length coalescer.joined = CursorLog.total utf16Length chunks := by
    rw [total_utf16Length, hflat]
  have htracked := hcredit.trackEmittedChars hhistory
  refine ⟨⟨h.present, ?_, ?_⟩, hcursor⟩
  · exact h.callback
  · rw [h.present, hcount]
    exact htracked

theorem Covers.emitBuffered (hkept : host.FlushKept config accepts host.buffered)
    (hemit : host.emitBuffered config accepts = some host') :
    host'.Covers config ∧ host.Forward host' := by
  unfold Host.emitBuffered at hemit
  cases hcoalescer : host.client.coalescer with
  | none =>
    rw [hcoalescer] at hemit
    cases some.inj hemit
    exact ⟨h, Nat.le_refl _⟩
  | some coalescer =>
    rw [hcoalescer] at hemit
    simp only [] at hemit
    split at hemit
    · cases some.inj hemit
      exact ⟨h, Nat.le_refl _⟩
    · have hjoined : host.buffered = coalescer.joined := by
        unfold buffered
        rw [hcoalescer]
        rfl
      rw [hjoined] at hkept
      exact (h.setCoalescer _).forward hkept hemit

theorem Covers.flushCoalesceBuffer (hkept : host.FlushKept config accepts host.buffered)
    (hflush : host.flushCoalesceBuffer config accepts = some host') :
    host'.Covers config ∧ host.Forward host' := by
  unfold Host.flushCoalesceBuffer at hflush
  cases hcoalescer : host.client.coalescer with
  | none =>
    rw [hcoalescer] at hflush
    cases some.inj hflush
    exact ⟨h, Nat.le_refl _⟩
  | some coalescer =>
    rw [hcoalescer] at hflush
    have hjoined : host.buffered = coalescer.joined := by
      unfold buffered
      rw [hcoalescer]
      rfl
    rw [hjoined] at hkept
    exact (h.setCoalescer { coalescer with windowOpen := false }).emitBuffered hkept hflush

theorem Covers.emit_openWindow (hkept : host.FlushKept config accepts host.buffered)
    (hemit : (host.emitBuffered config accepts).map Host.openWindow = some host') :
    host'.Covers config ∧ host.Forward host' := by
  obtain ⟨emitted, hemitted, rfl⟩ := map_eq_some_iff.mp hemit
  obtain ⟨hcovers, hforward⟩ := h.emitBuffered hkept hemitted
  refine ⟨hcovers.openWindow, ?_⟩
  unfold Forward at hforward ⊢
  rw [openWindow_lane]
  exact hforward

theorem Covers.writeCoalescer {pty : ℕ} {data : Output}
    (hkept : host.FlushKept config accepts (host.buffered ++ data))
    (hwrite : host.writeCoalescer config accepts pty data = some host') :
    host'.Covers config ∧ host.Forward host' := by
  unfold Host.writeCoalescer at hwrite
  split at hwrite
  · cases some.inj hwrite
    exact ⟨h, Nat.le_refl _⟩
  · have hfilled := h.setCoalescer { host.client.coalescer.getD .initial with
      chunks := (host.client.coalescer.getD .initial).chunks ++ [(pty, data)] }
    have hbuffered : (host.setCoalescer { host.client.coalescer.getD .initial with
        chunks := (host.client.coalescer.getD .initial).chunks ++ [(pty, data)] }).buffered =
          host.buffered ++ data := by
      show Coalescer.joined _ = _
      unfold buffered Coalescer.joined
      cases host.client.coalescer with
      | none => simp [Coalescer.initial]
      | some coalescer => simp
    rw [← hbuffered] at hkept
    simp only [] at hwrite
    split at hwrite
    · exact hfilled.flushCoalesceBuffer hkept hwrite
    · split at hwrite
      · cases some.inj hwrite
        exact ⟨hfilled, Nat.le_refl _⟩
      · exact hfilled.emit_openWindow hkept hwrite

theorem Covers.windowCloses (hkept : host.FlushKept config accepts host.buffered)
    (hcloses : host.windowCloses config accepts = some host') :
    host'.Covers config ∧ host.Forward host' := by
  unfold Host.windowCloses at hcloses
  cases hcoalescer : host.client.coalescer with
  | none =>
    rw [hcoalescer] at hcloses
    cases some.inj hcloses
    exact ⟨h, Nat.le_refl _⟩
  | some coalescer =>
    rw [hcoalescer] at hcloses
    have hjoined : host.buffered = coalescer.joined := by
      unfold buffered
      rw [hcoalescer]
      rfl
    rw [hjoined] at hkept
    simp only [] at hcloses
    split at hcloses
    · split at hcloses
      · cases some.inj hcloses
        exact ⟨h.setCoalescer _, Nat.le_refl _⟩
      · exact (h.setCoalescer { coalescer with windowOpen := false }).emit_openWindow hkept hcloses
    · cases some.inj hcloses
      exact ⟨h, Nat.le_refl _⟩

theorem Covers.onData {pty : ℕ} {data : Output}
    (hkept : host.FlushKept config accepts (host.buffered ++ data))
    (hdata : host.onData config accepts pty data = some host') :
    host'.Covers config ∧ host.Forward host' := by
  unfold Host.onData at hdata
  cases hprocess : host.client.spawned[pty]? with
  | none =>
    rw [hprocess] at hdata
    cases some.inj hdata
    exact ⟨h, Nat.le_refl _⟩
  | some process =>
    rw [hprocess] at hdata
    have hwrote : Covers config { host with
        client :=
          { host.client with
            spawned := host.client.spawned.set pty
              { process with emitted := process.emitted ++ data } } } :=
      ⟨h.present, h.callback, h.credit⟩
    simp only [] at hdata
    split at hdata
    · split at hdata
      · exact hwrote.writeCoalescer hkept hdata
      · cases some.inj hdata
        exact ⟨hwrote, Nat.le_refl _⟩
    · cases some.inj hdata
      exact ⟨h, Nat.le_refl _⟩

theorem Covers.lane {lane : AttachLane}
    (hcredit : Credit config host.lane.history lane) (hhistory : lane.history = host.lane.history) :
    Covers config { host with lane := lane } where
  present := h.present
  callback := h.callback
  credit := by
    rw [hhistory]
    exact hcredit

theorem Covers.parseNext (instanceId : ℕ) :
    Covers config { host with lane := host.lane.parseNext instanceId } ∧
      host.Forward { host with lane := host.lane.parseNext instanceId } := by
  have hframe : ∃ headlessTerminals parsedCursor, host.lane.parseNext instanceId =
      { host.lane with headlessTerminals := headlessTerminals, parsedCursor := parsedCursor } := by
    unfold AttachLane.parseNext
    split
    · exact ⟨host.lane.headlessTerminals, host.lane.parsedCursor, rfl⟩
    · split
      · exact ⟨host.lane.headlessTerminals, host.lane.parsedCursor, rfl⟩
      · exact ⟨_, _, rfl⟩
  obtain ⟨headlessTerminals, parsedCursor, heq⟩ := hframe
  rw [heq]
  constructor
  · refine h.lane ?_ (by rfl)
    exact h.credit.congr (by rfl) (by rfl) (by rfl) (by rfl) (by rfl) (by rfl)
  · exact Nat.le_refl _

theorem Covers.attach (screen : Screen) (uuid : String)
    (options : AttachOptions) (leaseId : String) :
    (host.attach config screen accepts uuid options leaseId).Covers config ∧
      host.Forward (host.attach config screen accepts uuid options leaseId) := by
  unfold Host.attach
  split
  · exact ⟨h, Nat.le_refl _⟩
  · next terminal _ =>
    obtain ⟨hcredit, hhistory, hcursor⟩ : Credit config host.lane.history (AttachLane.attach config
        screen accepts true uuid terminal.status options leaseId host.lane) ∧ _ ∧ _ :=
      h.credit.attach screen uuid terminal.status options leaseId
    rw [h.present]
    have hcovers := h.lane hcredit hhistory
    split
    · exact ⟨hcovers, hcursor⟩
    · exact ⟨⟨hcovers.present, hcovers.callback, hcovers.credit⟩, hcursor⟩

/-- A step keeps the credit where the committed cursor it advances from is retained. -/
theorem Covers.handle (screen : Screen) {input : TerminalInput}
    (htransport : input.event.isTransport = true) (hkept : host.CommitKept config input)
    (hhandle : host.handle config screen input = some host') :
    host'.Covers config ∧ host.Forward host' := by
  unfold Host.handle at hhandle
  unfold CommitKept at hkept
  cases hevent : input.event with
  | data pty data =>
    rw [hevent] at hhandle hkept
    exact h.onData hkept hhandle
  | windowCloses =>
    rw [hevent] at hhandle hkept
    exact h.windowCloses hkept hhandle
  | parses instanceId =>
    rw [hevent] at hhandle
    cases some.inj hhandle
    exact h.parseNext instanceId
  | attach uuid options leaseId =>
    rw [hevent] at hhandle
    cases some.inj hhandle
    exact h.attach screen uuid options leaseId
  | unsubscribe leaseId =>
    rw [hevent] at hhandle hkept
    cases some.inj hhandle
    obtain ⟨hcredit, hadvances⟩ := h.credit.removeAttachSubscriber leaseId hkept
    rw [h.present]
    exact ⟨h.lane hcredit hadvances.history, hadvances.cursor⟩
  | acknowledge leaseId cursor =>
    rw [hevent] at hhandle hkept
    cases some.inj hhandle
    obtain ⟨hcredit, hhistory, hcursor⟩ := h.credit.acknowledge leaseId cursor hkept
    rw [h.present]
    exact ⟨h.lane hcredit hhistory, hcursor⟩
  | spawn | restart | kill | remove | killAllForWorkspace | orphanTimeout | exits | beginSample
  | completeSample | setAgentStatusFromHook | setObservedWorkspaces =>
    rw [hevent] at htransport
    exact absurd htransport Bool.false_ne_true

end

/-! ## Runs -/

def spawned (config : TransportConfig) (accepts : Accepts) (restored : Bool) (pid : ℕ) : Host :=
  Host.initial.spawn config accepts restored (.started pid)

theorem covers_spawned (config : TransportConfig) (accepts : Accepts) (restored : Bool) (pid : ℕ) :
    (spawned config accepts restored pid).Covers config := by
  have hlane : (spawned config accepts restored pid).lane =
      { AttachLane.initial.createHeadless with flow := FlowControl.initial.start } := by
    cases restored <;> rfl
  constructor
  · cases restored <;> rfl
  · cases restored <;> rfl
  · rw [hlane]
    refine ⟨⟨TerminalCursorJournal.keeps_empty _, prefix_refl _, rfl, nodup_nil, rfl, ?_,
      Nat.le_refl _⟩, ?_, ⟨0, FlowControl.Owes.start _, rfl⟩⟩
    · exact fun lease hlease => absurd hlease not_mem_nil
    · exact fun hne => absurd rfl hne

/-- What holds of the acknowledgements in a state: no more was acknowledged than emitted, the
committed cursor is the least of the leases, and a terminal that was read to the end with
nothing buffered is not paused. -/
structure Settled (config : TransportConfig) (host : Host) : Prop where
  acknowledged : ∀ state, host.lane.flow.state = some state →
    state.acknowledgedSinceReset ≤ state.emittedSinceReset
  committed : host.lane.leaseCursors ≠ [] → ∃ committed,
    host.lane.acknowledgedCursor = some committed ∧
    (∃ lease ∈ host.lane.leaseCursors, lease.2 = committed) ∧
    ∀ lease ∈ host.lane.leaseCursors, committed ≤ lease.2
  running : (∀ lease ∈ host.lane.leaseCursors,
      lease.2 = (host.lane.journalFor config).cursor) →
    host.buffered = [] → host.lane.flow.ptyPaused = false

/-- What holds of a step: the committed cursor does not move back, and an acknowledgement
that is stale or a duplicate changes nothing. -/
structure Settles (input : TerminalInput) (host host' : Host) : Prop where
  forward : host.Forward host'
  stale : ∀ leaseId cursor previous, input.event = .acknowledge leaseId cursor →
    host.lane.leaseCursors.get? leaseId = some previous → cursor ≤ previous → host' = host

theorem Covers.settled (h : host.Covers config) : host.Settled config where
  acknowledged := by
    intro state hstate
    obtain ⟨debt, howes, -⟩ := h.credit.owes
    obtain ⟨state', hstate', -, -, hle⟩ := howes.state
    rw [hstate] at hstate'
    cases some.inj hstate'
    omega
  committed := by
    intro hne
    obtain ⟨hleast, hle⟩ := committedCursor_spec hne
    exact ⟨_, h.credit.committed hne, hleast, hle⟩
  running := by
    intro hread _
    obtain ⟨debt, howes, hdebt⟩ := h.credit.owes
    by_cases hnone : host.lane.leaseCursors = []
    · rw [if_pos hnone] at hdebt
      rw [hdebt] at howes
      exact howes.not_paused
    · -- Everything up to the end of the output has been paid for.
      rw [if_neg hnone] at hdebt
      obtain ⟨lease, hlease, heq⟩ := (committedCursor_spec hnone).1
      rw [← heq, hread lease hlease, h.credit.keeps.cursor_eq,
        h.credit.keeps.charsTo_total] at hdebt
      have hzero : debt = 0 := by omega
      rw [hzero] at howes
      exact howes.not_paused

/-- A step of a run: the host process is alive, the event is one of output, attaches,
detaches and acknowledgements, and no credit is lost. -/
def AckStep (config : TransportConfig) (input : TerminalInput) (host : Option Host) : Prop :=
  ∀ alive ∈ host, input.event.isTransport = true ∧ alive.CommitKept config input

instance (config : TransportConfig) (input : TerminalInput) (host : Option Host) :
    Decidable (AckStep config input host) :=
  inferInstanceAs (Decidable (∀ alive ∈ host, _ ∧ _))

theorem Covers.step (screen : Screen) {input : TerminalInput} {alive : Option Host}
    (h : ∀ host ∈ alive, host.Covers config) (hok : AckStep config input alive) :
    ∀ host ∈ hostStep config screen input alive, host.Covers config := by
  intro host' hhost'
  obtain ⟨host, hhost, hhandle⟩ := bind_eq_some_iff.mp hhost'
  obtain ⟨htransport, hkept⟩ := hok host hhost
  exact ((h host hhost).handle screen htransport hkept hhandle).1

theorem Covers.settles (screen : Screen) {input : TerminalInput} {alive : Option Host}
    (h : ∀ host ∈ alive, host.Covers config) (hok : AckStep config input alive) :
    ∀ host ∈ alive, ∀ host' ∈ hostStep config screen input alive, Settles input host host' := by
  intro host hhost host' hhost'
  obtain ⟨_, heq, hhandle⟩ := bind_eq_some_iff.mp hhost'
  cases some.inj (heq.symm.trans hhost)
  obtain ⟨htransport, hkept⟩ := hok host hhost
  constructor
  · exact ((h host hhost).handle screen htransport hkept hhandle).2
  · intro leaseId cursor previous hevent hlease hstale
    unfold Host.handle at hhandle
    rw [hevent] at hhandle
    cases some.inj hhandle
    rw [acknowledge_stale hlease hstale]

/-- **The acknowledgement rule.** In every run from a spawned terminal in which no advance of
the committed cursor finds the old one trimmed away, every state and every step is settled. -/
theorem acknowledgements_settled (config : TransportConfig) (screen : Screen) (accepts : Accepts)
    (restored : Bool) (pid : ℕ) (inputs : List TerminalInput)
    (hrun : RunMeets (hostStep config screen) (AckStep config)
      (some (spawned config accepts restored pid)) inputs) :
    (∀ host, some host ∈ visited (hostStep config screen)
        (some (spawned config accepts restored pid)) inputs → host.Settled config) ∧
      ∀ t ∈ transitions (hostStep config screen)
        (some (spawned config accepts restored pid)) inputs,
        ∀ host ∈ t.1, ∀ host' ∈ t.2.2, Settles t.2.1 host host' := by
  have hinit : ∀ host ∈ some (spawned config accepts restored pid), host.Covers config := by
    intro host hhost
    cases some.inj hhost
    exact covers_spawned config accepts restored pid
  have hstep : ∀ input alive, (∀ host ∈ alive, host.Covers config) → AckStep config input alive →
      ∀ host ∈ hostStep config screen input alive, host.Covers config :=
    fun _ _ h hok => Covers.step screen h hok
  constructor
  · intro host hhost
    exact (invariant_visited hstep hinit hrun _ hhost host rfl).settled
  · exact invariant_transitions
      (Q := fun alive input alive' => ∀ host ∈ alive, ∀ host' ∈ alive', Settles input host host')
      hstep (fun _ _ h hok => Covers.settles screen h hok) hinit hrun

end Host

/-! ## A run that loses credit -/

/-- Small bounds: the journal holds two characters of three bytes, and the PTY is paused
above two characters. -/
def smallConfig : TransportConfig where
  highWatermarkChars := 2
  lowWatermarkChars := 1
  coalesceMaxBufferBytes := 16
  journalBytes := 6
  outputChunkBytes := 3
  snapshotBytes := 64
  low_pos := by decide
  low_lt_high := by decide
  chunk_le_journal := by decide

/-- A screen that shows the output as it came. -/
def plainScreen : Screen where
  serialize := id
  serialize_nil := rfl

def allAccept : Accepts := fun _ _ => true

def acceptedRun (events : List TerminalEvent) : List TerminalInput :=
  events.map fun event => { event := event, accepts := allAccept }

def readRun : List TerminalInput := acceptedRun
  [.attach "epoch" { cursor := none, epoch := none } "lease", .data 0 ['✓'], .data 0 ['✓'],
    .windowCloses, .acknowledge "lease" 6, .data 0 ['✓'], .windowCloses, .acknowledge "lease" 9]

def lateRun : List TerminalInput := acceptedRun
  [.attach "epoch" { cursor := none, epoch := none } "lease", .data 0 ['✓'], .data 0 ['✓', '✓'],
    .windowCloses, .acknowledge "lease" 9]

theorem acknowledgements_settled_readRun :
    RunMeets (hostStep smallConfig plainScreen) (Host.AckStep smallConfig)
        (some (Host.spawned smallConfig allAccept false 1)) readRun ∧
      (∀ host, some host ∈ visited (hostStep smallConfig plainScreen)
        (some (Host.spawned smallConfig allAccept false 1)) readRun → host.Settled smallConfig) ∧
      ∀ t ∈ transitions (hostStep smallConfig plainScreen)
          (some (Host.spawned smallConfig allAccept false 1)) readRun,
        ∀ host ∈ t.1, ∀ host' ∈ t.2.2, Host.Settles t.2.1 host host' :=
  have hrun : RunMeets (hostStep smallConfig plainScreen) (Host.AckStep smallConfig)
      (some (Host.spawned smallConfig allAccept false 1)) readRun := by decide +kernel
  ⟨hrun, Host.acknowledgements_settled smallConfig plainScreen allAccept false 1 readRun hrun⟩

/-- Three characters fill the journal one and a half times before the client acknowledges
them: the cursor it acknowledged before is gone, nothing is paid, and the terminal stays
paused although its only client has read everything. -/
theorem lateRun_stays_paused : (∀ input ∈ lateRun, input.event.isTransport = true) ∧
      ∃ host, finalState (hostStep smallConfig plainScreen)
          (some (Host.spawned smallConfig allAccept false 1)) lateRun = some host ∧
        host.lane.leaseCursors = [("lease", (host.lane.journalFor smallConfig).cursor)] ∧
        host.buffered = [] ∧ host.lane.flow.ptyPaused = true := by
  refine ⟨by decide, _, rfl, ?_, ?_, ?_⟩
  · decide +kernel
  · decide +kernel
  · decide +kernel

end Laborer.Terminal
