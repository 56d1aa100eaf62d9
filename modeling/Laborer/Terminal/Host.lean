import Laborer.Terminal.StatusEngine

/-!
# The host of a terminal

The processes that node-pty runs for one terminal id, the callbacks, the coalescing buffer
and the generation number kept for the id, and the terminal manager's operations over them.
Each operation runs without suspending, up to the samples of the process table, which are
asked for in one step and arrive in another.
-/

namespace Laborer.Terminal

open Library List

/-- A process that was spawned, with the generation its handlers were registered for. It is
alive until its exit event, killed or not. What it has written, and whether another one was
spawned in its place, is kept for the statements. -/
structure Pty where
  generation : ℕ
  alive : Bool
  emitted : Output
  replaced : Bool

namespace Pty

def start (generation : ℕ) : Pty where
  generation := generation
  alive := true
  emitted := []
  replaced := false

end Pty

/-- Output that waits for the window to close; every chunk is kept with the PTY that wrote
it, for the statements. -/
structure Coalescer where
  chunks : List (ℕ × Output)
  windowOpen : Bool

namespace Coalescer

def initial : Coalescer where
  chunks := []
  windowOpen := false

def joined (coalescer : Coalescer) : Output := (coalescer.chunks.map Prod.snd).flatten

def bufferedBytes (coalescer : Coalescer) : ℕ := utf8Bytes coalescer.joined

end Coalescer

/-- The maps of the PTY client at one id. A PTY is named by its place in `spawned`, a
callback by the PTY it was registered for. -/
structure PtyDirect where
  spawned : List Pty
  pty : Option ℕ
  dataCallback : Option ℕ
  exitCallback : Option ℕ
  coalescer : Option Coalescer
  ptyGeneration : Option ℕ

namespace PtyDirect

/-- The PTYs when another one is spawned. -/
def replaceCurrent (client : PtyDirect) : List Pty :=
  match client.pty with
  | none => client.spawned
  | some pty => client.spawned.modify pty fun process => { process with replaced := true }

@[simp] theorem replaceCurrent_length (client : PtyDirect) :
    client.replaceCurrent.length = client.spawned.length := by
  unfold replaceCurrent
  split
  · rfl
  · exact length_modify ..

theorem getElem?_replaceCurrent {client : PtyDirect} {pty : ℕ} {process : Pty}
    (h : client.replaceCurrent[pty]? = some process) :
    ∃ earlier, client.spawned[pty]? = some earlier ∧
      process =
        { earlier with replaced := earlier.replaced || decide (client.pty = some pty) } := by
  unfold replaceCurrent at h
  split at h
  · next hnone =>
    refine ⟨process, h, ?_⟩
    simp [hnone]
  · next current hcurrent =>
    rw [getElem?_modify] at h
    obtain ⟨earlier, hearlier, heq⟩ := Option.map_eq_some_iff.mp h
    refine ⟨earlier, hearlier, ?_⟩
    by_cases hsame : current = pty
    · subst hsame
      simp [hcurrent, ← heq]
    · simp [hcurrent, hsame, ← heq]

end PtyDirect

/-- A chunk of output, or an exit, that a callback was given: the PTY it comes from, the PTY
the callback was registered for, and the one whose terminal it was at that time. -/
structure Delivery where
  origin : ℕ
  callback : ℕ
  life : ℕ
deriving DecidableEq

/-- The state of one terminal id. `life` is the PTY the terminal's state was made for, by
the last spawn or restart; it, the two logs and the PTYs that wrote what is in the journal are
kept for the statements. -/
structure Host where
  client : PtyDirect
  lane : AttachLane
  terminal : Option ManagedTerminal
  claimed : Bool
  graceArmed : Bool
  status : StatusLane
  life : ℕ
  deliveries : List Delivery
  exitReports : List Delivery
  journalOrigins : List ℕ

inductive SpawnOutcome where
  | threw
  | started (pid : ℕ)
deriving DecidableEq

inductive TerminalEvent where
  | spawn (restored : Bool) (outcome : SpawnOutcome)
  | restart (uuid : String) (outcome : SpawnOutcome)
  | kill
  | remove
  | killAllForWorkspace
  | orphanTimeout
  | data (pty : ℕ) (data : Output)
  | windowCloses
  | exits (pty : ℕ) (exitCode signal : ℤ) (now : ℕ)
  | parses (instanceId : ℕ)
  | attach (uuid : String) (options : AttachOptions) (leaseId : String)
  | unsubscribe (leaseId : String)
  | acknowledge (leaseId : String) (cursor : ℕ)
  | beginSample (kind : SampleKind)
  | completeSample (index : ℕ) (batch : ProcessDetectionBatch) (now : ℕ)
  | setAgentStatusFromHook (report : AgentStatusReport) (now : ℕ)
  | setObservedWorkspaces (observed : Bool)

/-- An event, with what the subscribers answer to what it makes them offered. -/
structure TerminalInput where
  event : TerminalEvent
  accepts : Accepts

namespace Host

def initial : Host where
  client :=
    { spawned := [], pty := none, dataCallback := none, exitCallback := none, coalescer := none,
      ptyGeneration := none }
  lane := .initial
  terminal := none
  claimed := false
  graceArmed := false
  status := .initial
  life := 0
  deliveries := []
  exitReports := []
  journalOrigins := []

def present (host : Host) : Bool := host.client.pty.isSome

variable (config : TransportConfig) (screen : Screen) (accepts : Accepts)

/-! ## The coalescing buffer -/

def setCoalescer (coalescer : Coalescer) (host : Host) : Host :=
  { host with client := { host.client with coalescer := some coalescer } }

def dropBuffer (host : Host) : Host :=
  match host.client.coalescer with
  | none => host
  | some _ => host.setCoalescer .initial

/-- What is buffered goes to the data callback and is counted. -/
def forward (coalescer : Coalescer) (host : Host) : Option Host :=
  let count := utf16Length coalescer.joined
  match host.client.dataCallback with
  | none =>
    some
      { host with
        lane :=
          { host.lane with
            flow := host.lane.flow.trackEmittedChars config host.present count } }
  | some callback =>
    (host.lane.processOutput config accepts host.present coalescer.joined).map fun lane =>
      { host with
        lane := { lane with flow := lane.flow.trackEmittedChars config host.present count }
        deliveries := host.deliveries ++ coalescer.chunks.map fun chunk =>
          { origin := chunk.1, callback := callback, life := host.life }
        journalOrigins := host.journalOrigins ++ coalescer.chunks.map Prod.fst }

/-- `emit`: `none` where the data callback throws. -/
def emitBuffered (host : Host) : Option Host :=
  match host.client.coalescer with
  | none => some host
  | some coalescer =>
    if coalescer.chunks = [] then some host
    else (host.setCoalescer { coalescer with chunks := [] }).forward config accepts coalescer

def flushCoalesceBuffer (host : Host) : Option Host :=
  match host.client.coalescer with
  | none => some host
  | some coalescer =>
    (host.setCoalescer { coalescer with windowOpen := false }).emitBuffered config accepts

/-- A flush inside a `try`: when it throws, the buffer is empty and the rest is skipped. -/
def flushOrDrop (host : Host) : Host :=
  (host.flushCoalesceBuffer config accepts).getD host.dropBuffer

def openWindow (host : Host) : Host :=
  match host.client.coalescer with
  | none => host
  | some coalescer => host.setCoalescer { coalescer with windowOpen := true }

/-- `coalescerFor(id).write(data)`. -/
def writeCoalescer (pty : ℕ) (data : Output) (host : Host) : Option Host :=
  if data = [] then some host
  else
    let coalescer := host.client.coalescer.getD .initial
    let filled := { coalescer with chunks := coalescer.chunks ++ [(pty, data)] }
    let pushed := host.setCoalescer filled
    if config.coalesceMaxBufferBytes ≤ filled.bufferedBytes then
      pushed.flushCoalesceBuffer config accepts
    else if coalescer.windowOpen then some pushed
    else (pushed.emitBuffered config accepts).map openWindow

/-- The timer of the window: output that waited goes out and opens another one. -/
def windowCloses (host : Host) : Option Host :=
  match host.client.coalescer with
  | none => some host
  | some coalescer =>
    if coalescer.windowOpen then
      let closed := host.setCoalescer { coalescer with windowOpen := false }
      if coalescer.chunks = [] then some closed
      else (closed.emitBuffered config accepts).map openWindow
    else some host

/-! ## The PTY client -/

/-- `ptyHostClient.kill`. The process lives on until it exits. -/
def killPty (host : Host) : Host :=
  match host.client.pty with
  | none => host
  | some _ => host.flushOrDrop config accepts

/-- The callbacks and the generation of the process to be spawned are registered first. -/
def register (host : Host) : Host :=
  { host with
    client :=
      { host.client with
        ptyGeneration := some (host.client.ptyGeneration.getD 0 + 1)
        dataCallback := some host.life
        exitCallback := some host.life } }

/-- `ptyHostClient.spawn` with the manager's callbacks. -/
def spawnPty (outcome : SpawnOutcome) (host : Host) : Host :=
  let registered := (host.killPty config accepts).register
  match outcome with
  | .threw =>
    { registered with
      client :=
        { registered.client with
          dataCallback := none, exitCallback := none, ptyGeneration := none } }
  | .started pid =>
    { registered with
      client :=
        { registered.client with
          spawned := registered.client.replaceCurrent ++
            [.start (registered.client.ptyGeneration.getD 0)]
          pty := some registered.client.spawned.length }
      lane := { registered.lane with flow := registered.lane.flow.start }
      terminal := registered.terminal.map fun terminal => { terminal with shellPid := some pid } }

def onData (pty : ℕ) (data : Output) (host : Host) : Option Host :=
  match host.client.spawned[pty]? with
  | none => some host
  | some process =>
    if process.alive then
      let wrote :=
        { host with
          client :=
            { host.client with
              spawned := host.client.spawned.set pty
                { process with emitted := process.emitted ++ data } } }
      if host.client.ptyGeneration = some process.generation then
        wrote.writeCoalescer config accepts pty data
      else some wrote
    else some host

def markStopped (host : Host) : Host :=
  { host with
    terminal := host.terminal.map fun terminal => { terminal with status := .stopped } }

def reportExit (exitCode signal : ℤ) (now : ℕ) (host : Host) : Host :=
  let completed :=
    { host with
      graceArmed := false
      status := host.status.emitAgentCompletionBeforeStop host.terminal now }
  let stopped := completed.markStopped
  { stopped with
    lane := stopped.lane.publishAttachEvent config accepts stopped.present (.exit exitCode signal) }

def forget (host : Host) : Host :=
  { host with
    client := { host.client with pty := none, coalescer := none, ptyGeneration := none }
    lane := { host.lane with flow := host.lane.flow.stop } }

def deleteCallbacks (host : Host) : Host :=
  { host with client := { host.client with dataCallback := none, exitCallback := none } }

def callExit (pty : ℕ) (exitCode signal : ℤ) (now : ℕ) (host : Host) : Host :=
  match host.client.exitCallback with
  | none => host
  | some callback =>
    let delivery : Delivery := { origin := pty, callback := callback, life := host.life }
    { host with exitReports := host.exitReports ++ [delivery] }.reportExit config accepts exitCode
      signal now

def onExit (pty : ℕ) (exitCode signal : ℤ) (now : ℕ) (host : Host) : Option Host :=
  match host.client.spawned[pty]? with
  | none => some host
  | some process =>
    if process.alive then
      let exited :=
        { host with
          client :=
            { host.client with
              spawned := host.client.spawned.set pty { process with alive := false } } }
      if host.client.ptyGeneration = some process.generation then
        (exited.flushCoalesceBuffer config accepts).map fun flushed =>
          (flushed.forget.callExit config accepts pty exitCode signal now).deleteCallbacks
      else some exited
    else some host

/-! ## The terminal manager -/

def deleteEngine (host : Host) : Host := { host with status := host.status.deleteEngine }

def beginLife (host : Host) : Host :=
  { host with
    terminal := some { status := .running, shellPid := none }
    life := host.client.spawned.length }

def spawn (restored : Bool) (outcome : SpawnOutcome) (host : Host) : Host :=
  let listed := { host.beginLife with lane := host.lane.createHeadless }
  let spawned := listed.spawnPty config accepts outcome
  if restored then spawned else { spawned with graceArmed := true }

/-- Killing a running terminal on purpose drops what was shown of its agent first. -/
def terminate (host : Host) : Host := host.deleteEngine.killPty config accepts

def resetTerminal (uuid : String) (host : Host) : Host :=
  let begun := { host with graceArmed := false }.beginLife
  { begun with
    lane := begun.lane.restart config accepts begun.present uuid
    journalOrigins := [] }

def restart (uuid : String) (outcome : SpawnOutcome) (host : Host) : Host :=
  match host.terminal with
  | none => host
  | some terminal =>
    let killed :=
      if terminal.status = .running then host.terminate config accepts else host
    ((killed.resetTerminal config accepts uuid).spawnPty config accepts outcome).deleteEngine

def kill (host : Host) : Host :=
  match host.terminal with
  | none => host
  | some terminal =>
    if terminal.status = .running then
      { (host.terminate config accepts).markStopped with graceArmed := false }
    else host

def remove (host : Host) : Host :=
  match host.terminal with
  | none => host
  | some terminal =>
    let killed :=
      if terminal.status = .running then host.terminate config accepts else host
    { killed.deleteEngine with
      graceArmed := false
      terminal := none
      claimed := false
      lane := killed.lane.remove killed.present
      journalOrigins := [] }

/-- The workspace of the terminal is cleaned up. -/
def killAllForWorkspace (host : Host) : Host :=
  match host.terminal with
  | none => host
  | some terminal =>
    if terminal.status = .running then
      { (host.killPty config accepts).markStopped with graceArmed := false }
    else host

/-- A fresh terminal that no client ever attached to is reaped. -/
def orphanTimeout (host : Host) : Host :=
  if host.graceArmed then
    let fired := { host with graceArmed := false }
    match host.terminal with
    | none => fired
    | some terminal =>
      if terminal.status = .running then
        if host.claimed then fired else (fired.terminate config accepts).markStopped
      else fired
  else host

def attach (uuid : String) (options : AttachOptions) (leaseId : String) (host : Host) : Host :=
  match host.terminal with
  | none => host
  | some terminal =>
    let lane := host.lane.attach config screen accepts host.present uuid terminal.status options
      leaseId
    if (host.lane.subscribers.get? leaseId).isSome then { host with lane := lane }
    else { host with lane := lane, claimed := true, graceArmed := false }

/-- One event. `none` where a callback of the PTY or of a timer throws: nothing catches it
and the host process dies. -/
def handle (input : TerminalInput) (host : Host) : Option Host :=
  match input.event with
  | .spawn restored outcome => some (host.spawn config input.accepts restored outcome)
  | .restart uuid outcome => some (host.restart config input.accepts uuid outcome)
  | .kill => some (host.kill config input.accepts)
  | .remove => some (host.remove config input.accepts)
  | .killAllForWorkspace => some (host.killAllForWorkspace config input.accepts)
  | .orphanTimeout => some (host.orphanTimeout config input.accepts)
  | .data pty data => host.onData config input.accepts pty data
  | .windowCloses => host.windowCloses config input.accepts
  | .exits pty exitCode signal now => host.onExit config input.accepts pty exitCode signal now
  | .parses instanceId => some { host with lane := host.lane.parseNext instanceId }
  | .attach uuid options leaseId =>
    some (host.attach config screen input.accepts uuid options leaseId)
  | .unsubscribe leaseId =>
    some { host with lane := host.lane.removeAttachSubscriber config host.present leaseId }
  | .acknowledge leaseId cursor =>
    some { host with lane := host.lane.acknowledge config host.present leaseId cursor }
  | .beginSample kind => some { host with status := host.status.beginSample kind host.terminal }
  | .completeSample index batch now =>
    some { host with status := host.status.completeSample index host.terminal batch now }
  | .setAgentStatusFromHook report now =>
    some { host with status := host.status.setAgentStatusFromHook host.terminal report now }
  | .setObservedWorkspaces observed =>
    some { host with status := host.status.setObservedWorkspaces observed host.terminal }

end Host

def hostStep (config : TransportConfig) (screen : Screen) (input : TerminalInput)
    (host : Option Host) : Option Host :=
  host.bind (Host.handle config screen input)

end Laborer.Terminal
