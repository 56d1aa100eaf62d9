import Laborer.Terminal.AckRuns
import Laborer.Terminal.AttachStreams

/-!
# Runs of output, parsing, attaches and restarts

From a spawned terminal on: every attached client reflects the output of the current
generation from its base on, and every client that is gone followed it up to some chunk, as
long as a snapshot is only taken when the recorded cursor is what the headless terminal has
parsed and the journal retains it. A parser that lags behind the journal breaks the splice.
-/

namespace Laborer.Terminal

open Library AttachLane List Option Bool

/-- Output, parsing, attaches, detaches, acknowledgements and restarts that find a process. -/
def TerminalEvent.isStream : TerminalEvent → Bool
  | .restart _ (.started _) => true
  | event => event.isTransport

namespace Host

/-- Where an attach takes a snapshot, its cursor is what the snapshot shows and the journal
retains it. -/
def SpliceKept (config : TransportConfig) (input : TerminalInput) (host : Host) : Prop :=
  match input.event with
  | .attach uuid options leaseId =>
    (host.lane.subscribers.get? leaseId).isSome = true ∨ host.lane.Resumes config uuid options ∨
      host.lane.SnapshotCurrent config
  | _ => True

instance (config : TransportConfig) (input : TerminalInput) (host : Host) :
    Decidable (host.SpliceKept config input) :=
  match input with
  | ⟨.attach .., _⟩ => inferInstanceAs (Decidable (_ ∨ _ ∨ _))
  | ⟨.spawn .., _⟩ | ⟨.restart .., _⟩ | ⟨.kill, _⟩ | ⟨.remove, _⟩ | ⟨.killAllForWorkspace, _⟩
  | ⟨.orphanTimeout, _⟩ | ⟨.data .., _⟩ | ⟨.windowCloses, _⟩ | ⟨.exits .., _⟩ | ⟨.parses .., _⟩
  | ⟨.unsubscribe .., _⟩ | ⟨.acknowledge .., _⟩ | ⟨.beginSample .., _⟩ | ⟨.completeSample .., _⟩
  | ⟨.setAgentStatusFromHook .., _⟩ | ⟨.setObservedWorkspaces .., _⟩ => isTrue trivial

/-! ## Flushing -/

/-- What a flush does: output moves from the buffer to the lane, and of the client only the
buffer changes. -/
structure Flushes (config : TransportConfig) (screen : Screen) (host host' : Host) : Prop where
  lane : Streams config screen host'.lane
  output : host'.lane.history.flatten ++ host'.buffered = host.lane.history.flatten ++ host.buffered
  client : ∃ coalescer, host'.client = { host.client with coalescer := coalescer }
  terminal : host'.terminal = host.terminal

variable {config : TransportConfig} {screen : Screen} {accepts : Accepts}
variable {host host' host'' : Host}

theorem Flushes.refl (h : Streams config screen host.lane) : Flushes config screen host host :=
  ⟨h, rfl, ⟨host.client.coalescer, rfl⟩, rfl⟩

theorem Flushes.trans (h : Flushes config screen host host')
    (h' : Flushes config screen host' host'') : Flushes config screen host host'' := by
  obtain ⟨coalescer, hclient⟩ := h.client
  obtain ⟨coalescer', hclient'⟩ := h'.client
  refine ⟨h'.lane, h'.output.trans h.output, ⟨coalescer', ?_⟩, h'.terminal.trans h.terminal⟩
  rw [hclient', hclient]

theorem buffered_some {coalescer : Coalescer} (h : host.client.coalescer = some coalescer) :
    host.buffered = coalescer.joined := by
  unfold buffered
  rw [h]
  rfl

section

variable (h : Streams config screen host.lane)
include h

theorem flushes_window {coalescer : Coalescer}
    (hcoalescer : host.client.coalescer = some coalescer) (windowOpen : Bool) :
    Flushes config screen host
      (host.setCoalescer { coalescer with windowOpen := windowOpen }) := by
  refine ⟨h, ?_, ⟨_, rfl⟩, rfl⟩
  rw [buffered_some hcoalescer]
  rfl

theorem flushes_openWindow : Flushes config screen host host.openWindow := by
  unfold Host.openWindow
  split
  · exact Flushes.refl h
  · next coalescer hcoalescer => exact flushes_window h hcoalescer true

section

variable (hcallback : host.client.dataCallback.isSome = true)
include hcallback

theorem forward_spec {coalescer : Coalescer}
    (hforward : host.forward config accepts coalescer = some host') :
    Streams config screen host'.lane ∧
      host'.lane.history.flatten = host.lane.history.flatten ++ coalescer.joined ∧
      host'.client = host.client ∧ host'.terminal = host.terminal := by
  obtain ⟨callback, hcallback⟩ := isSome_iff_exists.mp hcallback
  unfold Host.forward at hforward
  rw [hcallback] at hforward
  obtain ⟨lane, hlane, rfl⟩ := map_eq_some_iff.mp hforward
  obtain ⟨hstreams, hhistory⟩ := h.processOutput hlane
  refine ⟨?_, hhistory, rfl, rfl⟩
  exact hstreams.congr (by rfl) (by rfl) (by rfl) (by rfl) (by rfl) (by rfl)

theorem emitBuffered_spec (hemit : host.emitBuffered config accepts = some host') :
    Flushes config screen host host' ∧ host'.buffered = [] := by
  unfold Host.emitBuffered at hemit
  cases hcoalescer : host.client.coalescer with
  | none =>
    rw [hcoalescer] at hemit
    cases some.inj hemit
    refine ⟨Flushes.refl h, ?_⟩
    unfold buffered
    rw [hcoalescer]
    rfl
  | some coalescer =>
    rw [hcoalescer] at hemit
    simp only [] at hemit
    split at hemit
    · next hempty =>
      cases some.inj hemit
      refine ⟨Flushes.refl h, ?_⟩
      rw [buffered_some hcoalescer]
      unfold Coalescer.joined
      rw [hempty]
      rfl
    · have hset : Streams config screen
          (host.setCoalescer { coalescer with chunks := [] }).lane := h
      obtain ⟨hstreams, hhistory, hclient, hterminal⟩ := forward_spec hset hcallback hemit
      have hnone : host'.buffered = [] := by
        unfold buffered
        rw [hclient]
        rfl
      refine ⟨⟨hstreams, ?_, ⟨_, hclient⟩, hterminal⟩, hnone⟩
      rw [hnone, append_nil, buffered_some hcoalescer]
      exact hhistory

theorem flushCoalesceBuffer_spec (hflush : host.flushCoalesceBuffer config accepts = some host') :
    Flushes config screen host host' ∧ host'.buffered = [] := by
  unfold Host.flushCoalesceBuffer at hflush
  split at hflush
  · next hcoalescer =>
    cases some.inj hflush
    refine ⟨Flushes.refl h, ?_⟩
    unfold buffered
    rw [hcoalescer]
    rfl
  · next coalescer hcoalescer =>
    have hclosed : Flushes config screen host _ := flushes_window h hcoalescer false
    obtain ⟨hflushes, hnone⟩ := emitBuffered_spec hclosed.lane hcallback hflush
    exact ⟨hclosed.trans hflushes, hnone⟩

theorem emit_openWindow_spec
    (hemit : (host.emitBuffered config accepts).map Host.openWindow = some host') :
    Flushes config screen host host' := by
  obtain ⟨emitted, hemitted, rfl⟩ := map_eq_some_iff.mp hemit
  have hflushes := (emitBuffered_spec h hcallback hemitted).1
  exact hflushes.trans (flushes_openWindow hflushes.lane)

theorem writeCoalescer_spec
    {pty : ℕ} {data : Output}
    (hwrite : host.writeCoalescer config accepts pty data = some host') :
    Streams config screen host'.lane ∧
      host'.lane.history.flatten ++ host'.buffered =
        host.lane.history.flatten ++ host.buffered ++ data ∧
      (∃ coalescer, host'.client = { host.client with coalescer := coalescer }) ∧
      host'.terminal = host.terminal := by
  unfold Host.writeCoalescer at hwrite
  split at hwrite
  · next hnil =>
    cases some.inj hwrite
    refine ⟨h, ?_, ⟨host.client.coalescer, rfl⟩, rfl⟩
    rw [hnil, append_nil]
  · simp only [] at hwrite
    generalize hpushed : host.setCoalescer { host.client.coalescer.getD .initial with
      chunks := (host.client.coalescer.getD .initial).chunks ++ [(pty, data)] } = pushed at hwrite
    have hlane : Streams config screen pushed.lane := by
      rw [← hpushed]
      exact h
    have hcallback' : pushed.client.dataCallback.isSome = true := by
      rw [← hpushed]
      exact hcallback
    have hflushes : Flushes config screen pushed host' := by
      split at hwrite
      · exact (flushCoalesceBuffer_spec hlane hcallback' hwrite).1
      · split at hwrite
        · cases some.inj hwrite
          exact Flushes.refl hlane
        · exact emit_openWindow_spec hlane hcallback' hwrite
    obtain ⟨coalescer, hclient⟩ := hflushes.client
    have hterminal := hflushes.terminal
    have houtput := hflushes.output
    rw [← hpushed] at hclient hterminal houtput
    refine ⟨hflushes.lane, ?_, ⟨coalescer, hclient⟩, hterminal⟩
    -- The data is behind what waited.
    rw [houtput, append_assoc]
    show host.lane.history.flatten ++ Coalescer.joined _ = _
    unfold buffered Coalescer.joined
    cases host.client.coalescer with
    | none => simp [Coalescer.initial]
    | some coalescer => simp

theorem windowCloses_spec (hcloses : host.windowCloses config accepts = some host') :
    Flushes config screen host host' := by
  unfold Host.windowCloses at hcloses
  split at hcloses
  · cases some.inj hcloses
    exact Flushes.refl h
  · next coalescer hcoalescer =>
    split at hcloses
    · have hclosed : Flushes config screen host _ := flushes_window h hcoalescer false
      simp only [] at hcloses
      split at hcloses
      · cases some.inj hcloses
        exact hclosed
      · exact hclosed.trans (emit_openWindow_spec hclosed.lane hcallback hcloses)
    · cases some.inj hcloses
      exact Flushes.refl h

theorem killPty_spec
    (hpresent : host.present = true) :
    Streams config screen (host.killPty config accepts).lane ∧
      (host.killPty config accepts).buffered = [] ∧
      ((host.killPty config accepts).lane.history.flatten = host.lane.history.flatten ∨
        (host.killPty config accepts).lane.history.flatten =
          host.lane.history.flatten ++ host.buffered) ∧
      (∃ coalescer, (host.killPty config accepts).client =
        { host.client with coalescer := coalescer }) ∧
      (host.killPty config accepts).terminal = host.terminal := by
  unfold Host.killPty
  obtain ⟨pty, hpty⟩ := isSome_iff_exists.mp hpresent
  rw [hpty]
  unfold flushOrDrop
  simp only []
  cases hflush : host.flushCoalesceBuffer config accepts with
  | none =>
    rw [getD_none]
    unfold dropBuffer
    split
    · next hcoalescer =>
      refine ⟨h, ?_, .inl rfl, ⟨host.client.coalescer, rfl⟩, rfl⟩
      unfold buffered
      rw [hcoalescer]
      rfl
    · exact ⟨h, rfl, .inl rfl, ⟨_, rfl⟩, rfl⟩
  | some flushed =>
    obtain ⟨hflushes, hnone⟩ := flushCoalesceBuffer_spec h hcallback hflush
    have houtput := hflushes.output
    rw [hnone, append_nil] at houtput
    exact ⟨hflushes.lane, hnone, .inr houtput, hflushes.client, hflushes.terminal⟩

end

end

/-! ## What a step keeps -/

/-- The terminal runs its newest PTY, whose output is in the lane or waits in the buffer, and
every older PTY has a smaller generation number. -/
structure Streaming (config : TransportConfig) (screen : Screen) (host : Host) : Prop where
  lane : Streams config screen host.lane
  callback : host.client.dataCallback.isSome = true
  terminal : ∃ terminal, host.terminal = some terminal ∧ terminal.status = .running
  current : ∃ pty process, host.client.pty = some pty ∧ host.client.spawned[pty]? = some process ∧
    host.client.ptyGeneration = some process.generation ∧
    process.emitted = host.lane.history.flatten ++ host.buffered ∧
    ∀ (other : ℕ) (process' : Pty), host.client.spawned[other]? = some process' → other ≠ pty →
      process'.generation < process.generation

theorem Streaming.present (h : host.Streaming config screen) : host.present = true := by
  obtain ⟨pty, process, hpty, -⟩ := h.current
  unfold Host.present
  rw [hpty]
  rfl

theorem Streaming.flushes (h : host.Streaming config screen)
    (hflushes : Flushes config screen host host') : host'.Streaming config screen := by
  obtain ⟨coalescer, hclient⟩ := hflushes.client
  refine ⟨hflushes.lane, ?_, ?_, ?_⟩
  · rw [hclient]
    exact h.callback
  · rw [hflushes.terminal]
    exact h.terminal
  · rw [hclient, hflushes.output]
    exact h.current

theorem Streaming.changeLane {lane : AttachLane} (h : host.Streaming config screen)
    (hlane : Streams config screen lane) (hhistory : lane.history = host.lane.history) :
    Streaming config screen { host with lane := lane } := by
  refine ⟨hlane, h.callback, h.terminal, ?_⟩
  show ∃ pty, ∃ process : Pty,
    _ ∧ _ ∧ _ ∧ process.emitted = lane.history.flatten ++ host.buffered ∧ _
  rw [hhistory]
  exact h.current

theorem Streaming.onData (h : host.Streaming config screen) {pty : ℕ} {data : Output}
    (hdata : host.onData config accepts pty data = some host') : host'.Streaming config screen := by
  obtain ⟨current, process, hpty, hprocess, hgeneration, hemitted, holder⟩ := h.current
  unfold Host.onData at hdata
  split at hdata
  · cases some.inj hdata
    exact h
  · next writer hwriter =>
    have hlength := (List.getElem?_eq_some_iff.mp hwriter).1
    split at hdata
    · simp only [] at hdata
      split at hdata
      · next halive hsame =>
        -- Only the current PTY has the current generation.
        have hcurrent : pty = current := by
          by_contra hother
          have hless := holder pty writer hwriter hother
          rw [hgeneration] at hsame
          have heq := some.inj hsame
          omega
        subst hcurrent
        rw [hprocess] at hwriter
        cases some.inj hwriter
        obtain ⟨hlane, houtput, ⟨coalescer, hclient⟩, hterminal⟩ :=
          writeCoalescer_spec (by exact h.lane) (by exact h.callback) hdata
        refine ⟨hlane, ?_, ?_, pty, { process with emitted := process.emitted ++ data }, ?_, ?_, ?_,
          ?_, ?_⟩
        · rw [hclient]
          exact h.callback
        · rw [hterminal]
          exact h.terminal
        · rw [hclient]
          exact hpty
        · rw [hclient]
          exact getElem?_set_self hlength
        · rw [hclient]
          exact hgeneration
        · rw [houtput]
          show process.emitted ++ data = _
          rw [hemitted]
          rfl
        · rw [hclient]
          intro other process' hprocess' hother
          exact holder other process' ((getElem?_set_ne (Ne.symm hother)).symm.trans hprocess')
            hother
      · next halive hstale =>
        cases some.inj hdata
        have hother : current ≠ pty := by
          intro heq
          subst heq
          rw [hprocess] at hwriter
          cases some.inj hwriter
          exact hstale hgeneration
        refine ⟨h.lane, h.callback, h.terminal, current, process, hpty, ?_, hgeneration,
          hemitted, ?_⟩
        · exact (getElem?_set_ne (Ne.symm hother)).trans hprocess
        · intro other process' hprocess' hne
          by_cases hwrote : other = pty
          · subst hwrote
            have hset := (getElem?_set_self hlength).symm.trans hprocess'
            cases some.inj hset
            exact holder other writer hwriter hne
          · exact holder other process' ((getElem?_set_ne (Ne.symm hwrote)).symm.trans hprocess')
              hne
    · cases some.inj hdata
      exact h

theorem streaming_spawnPty (hlane : Streams config screen host.lane)
    (hcallback : host.client.dataCallback.isSome = true) (hpresent : host.present = true)
    (hbuffered : host.buffered = []) (hhistory : host.lane.history = [])
    (hterminal : ∃ terminal, host.terminal = some terminal ∧ terminal.status = .running)
    {gen : ℕ} (hgeneration : host.client.ptyGeneration = some gen)
    (holder : ∀ (other : ℕ) (process : Pty), host.client.spawned[other]? = some process →
      process.generation ≤ gen) (pid : ℕ) :
    (host.spawnPty config accepts (.started pid)).Streaming config screen := by
  obtain ⟨hkilled, hempty, houtput, ⟨coalescer, hclient⟩, hsame⟩ :
      Streams config screen (host.killPty config accepts).lane ∧ _ :=
    killPty_spec hlane hcallback hpresent
  have hnone : (host.killPty config accepts).lane.history.flatten = [] := by
    rw [hbuffered, hhistory] at houtput
    rcases houtput with houtput | houtput
    · exact houtput
    · exact houtput
  obtain ⟨terminal, hterminal, hrunning⟩ := hterminal
  unfold Host.spawnPty Host.register
  simp only []
  refine ⟨?_, rfl, ⟨{ terminal with shellPid := some pid }, ?_, hrunning⟩,
    (host.killPty config accepts).client.spawned.length,
    .start ((host.killPty config accepts).client.ptyGeneration.getD 0 + 1), rfl, ?_, rfl, ?_, ?_⟩
  · exact hkilled.congr (by rfl) (by rfl) (by rfl) (by rfl) (by rfl) (by rfl)
  · show Option.map _ (host.killPty config accepts).terminal = _
    rw [hsame, hterminal]
    rfl
  · have hlength := (host.killPty config accepts).client.replaceCurrent_length
    rw [← hlength]
    exact getElem?_concat_length
  · show [] = (host.killPty config accepts).lane.history.flatten ++
      (host.killPty config accepts).buffered
    rw [hnone, hempty]
    rfl
  · intro other process hprocess hother
    have hlist : ((host.killPty config accepts).client.replaceCurrent ++
        [Pty.start ((host.killPty config accepts).client.ptyGeneration.getD 0 + 1)])[other]? =
          some process := hprocess
    have hother : other ≠ (host.killPty config accepts).client.spawned.length := hother
    show process.generation < (host.killPty config accepts).client.ptyGeneration.getD 0 + 1
    have hnumber : (host.killPty config accepts).client.ptyGeneration.getD 0 = gen := by
      rw [hclient]
      exact congrArg (Option.getD · 0) hgeneration
    by_cases hlt : other < (host.killPty config accepts).client.replaceCurrent.length
    · rw [getElem?_append_left hlt] at hlist
      obtain ⟨earlier, hearlier, rfl⟩ := PtyDirect.getElem?_replaceCurrent hlist
      rw [hclient] at hearlier
      have hle := holder other earlier hearlier
      show earlier.generation < _
      omega
    · have hlength := (List.getElem?_eq_some_iff.mp hlist).1
      rw [length_append, length_singleton, PtyDirect.replaceCurrent_length] at hlength
      rw [PtyDirect.replaceCurrent_length] at hlt
      omega

theorem Streaming.restart (h : host.Streaming config screen) (uuid : String) (pid : ℕ) :
    (host.restart config accepts uuid (.started pid)).Streaming config screen := by
  obtain ⟨terminal, hterminal, hrunning⟩ := h.terminal
  obtain ⟨current, process, hpty, hprocess, hgeneration, -, holder⟩ := h.current
  have hdeleted : Streams config screen host.deleteEngine.lane := h.lane
  obtain ⟨hkilled, hempty, -, ⟨coalescer, hclient⟩, -⟩ :
      Streams config screen (host.terminate config accepts).lane ∧
        (host.terminate config accepts).buffered = [] ∧ _ ∧
        (∃ coalescer, (host.terminate config accepts).client =
          { host.client with coalescer := coalescer }) ∧ _ :=
    killPty_spec hdeleted h.callback h.present
  unfold Host.restart
  rw [hterminal]
  simp only [hrunning, if_true]
  generalize host.terminate config accepts = killed at hkilled hempty hclient
  obtain ⟨hreset, hhistory⟩ : Streams config screen
      (killed.lane.restart config accepts killed.present uuid) ∧ _ := hkilled.restart uuid
  have hcallback : killed.client.dataCallback.isSome = true := by
    rw [hclient]
    exact h.callback
  have hpresent : killed.client.pty.isSome = true := by
    rw [hclient, hpty]
    rfl
  have hnumber : killed.client.ptyGeneration = some process.generation := by
    rw [hclient]
    exact hgeneration
  have hsmaller : ∀ (other : ℕ) (process' : Pty), killed.client.spawned[other]? = some process' →
      process'.generation ≤ process.generation := by
    intro other process' hprocess'
    rw [hclient] at hprocess'
    by_cases hsame : other = current
    · subst hsame
      rw [hprocess] at hprocess'
      cases some.inj hprocess'
      exact Nat.le_refl _
    · exact (holder other process' hprocess' hsame).le
  have hspawned : ((killed.resetTerminal config accepts uuid).spawnPty config accepts
      (.started pid)).Streaming config screen := by
    apply streaming_spawnPty
    · exact hreset
    · exact hcallback
    · exact hpresent
    · exact hempty
    · exact hhistory
    · exact ⟨_, rfl, rfl⟩
    · exact hnumber
    · exact hsmaller
  exact ⟨hspawned.lane, hspawned.callback, hspawned.terminal, hspawned.current⟩

theorem Streaming.handle (h : host.Streaming config screen) {input : TerminalInput}
    (hstream : input.event.isStream = true) (hkept : host.SpliceKept config input)
    (hhandle : host.handle config screen input = some host') : host'.Streaming config screen := by
  unfold Host.handle at hhandle
  unfold SpliceKept at hkept
  cases hevent : input.event with
  | data pty data =>
    rw [hevent] at hhandle
    exact h.onData hhandle
  | windowCloses =>
    rw [hevent] at hhandle
    exact h.flushes (windowCloses_spec h.lane h.callback hhandle)
  | parses instanceId =>
    rw [hevent] at hhandle
    cases some.inj hhandle
    apply h.changeLane (h.lane.parseNext instanceId)
    unfold AttachLane.parseNext
    split
    · rfl
    · split
      · rfl
      · rfl
  | attach uuid options leaseId =>
    rw [hevent] at hhandle hkept
    cases some.inj hhandle
    obtain ⟨terminal, hterminal, -⟩ := h.terminal
    obtain ⟨hlane, hhistory⟩ : Streams config screen (host.lane.attach config screen input.accepts
        host.present uuid terminal.status options leaseId) ∧ _ := h.lane.attach _ leaseId hkept
    have hchanged := h.changeLane hlane hhistory
    unfold Host.attach
    rw [hterminal]
    simp only []
    split
    · rw [← hterminal]
      exact hchanged
    · rw [← hterminal]
      exact ⟨hchanged.lane, hchanged.callback, hchanged.terminal, hchanged.current⟩
  | unsubscribe leaseId =>
    rw [hevent] at hhandle
    cases some.inj hhandle
    have hsame : SameOutput config host.lane
        (host.lane.removeAttachSubscriber config host.present leaseId) :=
      (removeAttachSubscriber_spec host.lane leaseId).1
    exact h.changeLane (h.lane.removeAttachSubscriber leaseId) hsame.history
  | acknowledge leaseId cursor =>
    rw [hevent] at hhandle
    cases some.inj hhandle
    apply h.changeLane (h.lane.acknowledge leaseId cursor)
    unfold AttachLane.acknowledge
    split
    · split
      · rfl
      · split
        · rfl
        · rfl
    · rfl
  | restart uuid outcome =>
    rw [hevent] at hhandle hstream
    cases some.inj hhandle
    cases outcome with
    | threw => exact absurd hstream false_ne_true
    | started pid => exact h.restart uuid pid
  | spawn | kill | remove | killAllForWorkspace | orphanTimeout | exits | beginSample
  | completeSample | setAgentStatusFromHook | setObservedWorkspaces =>
    rw [hevent] at hstream
    exact absurd hstream false_ne_true

/-! ## Runs -/

theorem streaming_spawned (config : TransportConfig) (screen : Screen) (accepts : Accepts)
    (restored : Bool) (pid : ℕ) :
    (spawned config accepts restored pid).Streaming config screen := by
  have hlane : (spawned config accepts restored pid).lane =
      { AttachLane.initial.createHeadless with flow := FlowControl.initial.start } := by
    cases restored <;> rfl
  have hclient : (spawned config accepts restored pid).client =
      { spawned := [.start 1], pty := some 0,
        dataCallback := some 0, exitCallback := some 0, coalescer := none,
        ptyGeneration := some 1 } := by
    cases restored <;> rfl
  refine ⟨?_, ?_, ?_, 0, .start 1, ?_, ?_, ?_, ?_, ?_⟩
  · rw [hlane]
    refine ⟨⟨TerminalCursorJournal.keeps_empty _, nodup_nil, ?_, 0,
      { parsed := [], queue := [] }, rfl, rfl, rfl⟩, ?_⟩
    · exact fun entry hentry => absurd hentry not_mem_nil
    · exact fun entry hentry => absurd hentry not_mem_nil
  · rw [hclient]
    rfl
  · refine ⟨{ status := .running, shellPid := some pid }, ?_, rfl⟩
    cases restored <;> rfl
  · rw [hclient]
  · rw [hclient]
    rfl
  · rw [hclient]
    rfl
  · unfold buffered
    rw [hclient, hlane]
    rfl
  · intro other process hprocess hother
    rw [hclient] at hprocess
    have hlength := (List.getElem?_eq_some_iff.mp hprocess).1
    have hlength : other < 1 := hlength
    omega

/-- What the clients of a terminal have: those attached all the output from their base on,
those that are gone the output up to some chunk. The output is that of the current PTY, up
to what waits in the buffer. -/
structure Streamed (screen : Screen) (host : Host) : Prop where
  live : ∀ entry ∈ host.lane.subscribers, entry.2.reading.Reflects screen host.lane.history
  gone : ∀ entry ∈ host.lane.ended, entry.1.reading.Follows screen entry.2
  output : ∃ pty process, host.client.pty = some pty ∧ host.client.spawned[pty]? = some process ∧
    process.emitted = host.lane.history.flatten ++ host.buffered

theorem Streaming.streamed (h : host.Streaming config screen) : host.Streamed screen := by
  obtain ⟨pty, process, hpty, hprocess, -, hemitted, -⟩ := h.current
  exact ⟨h.lane.live, h.lane.gone, pty, process, hpty, hprocess, hemitted⟩

/-- A step of a run: the host process is alive, the event is one of those above, and a
snapshot that it takes is what it says. -/
def StreamStep (config : TransportConfig) (input : TerminalInput) (host : Option Host) : Prop :=
  ∀ alive ∈ host, input.event.isStream = true ∧ alive.SpliceKept config input

instance (config : TransportConfig) (input : TerminalInput) (host : Option Host) :
    Decidable (StreamStep config input host) :=
  inferInstanceAs (Decidable (∀ alive ∈ host, _ ∧ _))

/-- **The splice rule.** In every run from a spawned terminal whose snapshots are spliced
where the journal still has what follows them, every client has the output. -/
theorem streamed_of_run (config : TransportConfig) (screen : Screen) (accepts : Accepts)
    (restored : Bool) (pid : ℕ) (inputs : List TerminalInput)
    (hrun : RunMeets (hostStep config screen) (StreamStep config)
      (some (spawned config accepts restored pid)) inputs) :
    ∀ host, some host ∈ visited (hostStep config screen)
      (some (spawned config accepts restored pid)) inputs → host.Streamed screen := by
  have hinit : ∀ host ∈ some (spawned config accepts restored pid),
      host.Streaming config screen := by
    intro host hhost
    cases some.inj hhost
    exact streaming_spawned config screen accepts restored pid
  have hstep : ∀ input alive, (∀ host ∈ alive, host.Streaming config screen) →
      StreamStep config input alive →
        ∀ host ∈ hostStep config screen input alive, host.Streaming config screen := by
    intro input alive h hok host' hhost'
    obtain ⟨host, hhost, hhandle⟩ := bind_eq_some_iff.mp hhost'
    obtain ⟨hstream, hkept⟩ := hok host hhost
    exact (h host hhost).handle hstream hkept hhandle
  intro host hhost
  exact (invariant_visited hstep hinit hrun _ hhost host rfl).streamed

end Host

/-! ## A run that loses output -/

/-- The parser keeps up, a client resumes, another one takes a snapshot, and the terminal is
restarted while both are attached. -/
def splicedRun : List TerminalInput := acceptedRun
  [.data 0 ['a'], .windowCloses, .attach "epoch" { cursor := some 1, epoch := none } "first",
    .data 0 ['b'], .windowCloses, .parses 0, .parses 0,
    .attach "epoch" { cursor := none, epoch := none } "second", .restart "next" (.started 2),
    .data 0 ['x'], .data 1 ['c'], .windowCloses]

theorem streamed_of_run_splicedRun :
    RunMeets (hostStep smallConfig plainScreen) (Host.StreamStep smallConfig)
        (some (Host.spawned smallConfig allAccept false 1)) splicedRun ∧
      ∀ host, some host ∈ visited (hostStep smallConfig plainScreen)
        (some (Host.spawned smallConfig allAccept false 1)) splicedRun →
          host.Streamed plainScreen :=
  have hrun : RunMeets (hostStep smallConfig plainScreen) (Host.StreamStep smallConfig)
      (some (Host.spawned smallConfig allAccept false 1)) splicedRun := by decide +kernel
  ⟨hrun, Host.streamed_of_run smallConfig plainScreen allAccept false 1 splicedRun hrun⟩

/-- Nothing is parsed yet when the journal starts to drop output and a client attaches. -/
def laggingRun : List TerminalInput := acceptedRun
  [.data 0 ['✓'], .data 0 ['✓', '✓'], .windowCloses,
    .attach "epoch" { cursor := none, epoch := none } "lease", .data 0 ['✓'], .windowCloses]

/-- The snapshot shows nothing and stands at cursor 0, which the journal does not retain any
more: no delta is replayed, and the next one the client gets starts at cursor 9. -/
theorem laggingRun_loses_output : (∀ input ∈ laggingRun, input.event.isStream = true) ∧
      ∃ host subscriber, finalState (hostStep smallConfig plainScreen)
          (some (Host.spawned smallConfig allAccept false 1)) laggingRun = some host ∧
        ("lease", subscriber) ∈ host.lane.subscribers ∧
        subscriber.received = [.snapshot 0 [], .metadata "epoch" .running, .replayComplete,
          .delta 12 ['✓']] ∧ ¬ subscriber.reading.Reflects plainScreen host.lane.history := by
  refine ⟨by decide, _, _, rfl, mem_cons_self, rfl, ?_⟩
  rintro ⟨before, between, -, hbase, -, hdeltas⟩
  have hbase : some 0 = some (CursorLog.total utf8Bytes before) := hbase
  have hdeltas : [(12, ['✓'])] =
      CursorLog.ends utf8Bytes (CursorLog.total utf8Bytes before) between := hdeltas
  rw [← some.inj hbase] at hdeltas
  cases between with
  | nil => cases hdeltas
  | cons chunk rest =>
    obtain ⟨hhead, -⟩ := List.cons.inj hdeltas
    obtain ⟨hcursor, hchunk⟩ := Prod.mk.inj hhead
    rw [← hchunk] at hcursor
    exact absurd hcursor (by decide)

end Laborer.Terminal
