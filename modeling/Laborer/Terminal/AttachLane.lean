import Laborer.Library.OrderedMap
import Laborer.Terminal.Transport
import Laborer.Terminal.FlowControl

/-!
# The attach lane of a terminal

What the terminal manager keeps between the output of one terminal and the clients attached
to it: the journal, the headless terminal that follows the output at its own pace, one
subscriber and one acknowledged cursor per lease, and the flow control these drive.
-/

namespace Laborer.Terminal

open Library

inductive TerminalStatus where
  | running
  | stopped
deriving DecidableEq

inductive ResetReason where
  | epoch_changed
  | cursor_out_of_range

inductive TerminalAttachEvent where
  | reset (epoch : String) (reason : ResetReason)
  | snapshot (cursor : ℕ) (data : Output)
  | delta (cursor : ℕ) (data : Output)
  | metadata (epoch : String) (status : TerminalStatus)
  | replayComplete
  | exit (exitCode signal : ℤ)

/-- The answers of the subscribers during a step: whether the one of a lease takes an
event. One that refuses has failed its stream. -/
abbrev Accepts := String → TerminalAttachEvent → Bool

/-- The callback of an attached client: the cursor it asked to resume from and the events
it has taken. -/
structure AttachSubscriber where
  resume : Option ℕ
  received : List TerminalAttachEvent

structure AttachOptions where
  cursor : Option ℕ
  epoch : Option String

/-- A headless terminal: what it has parsed, and the chunks written to it that wait to be,
each with the cursor its callback records. -/
structure HeadlessTerminal where
  parsed : List Output
  queue : List (Output × ℕ)

/-- The serialised screen after some output; with no output it is empty. -/
structure Screen where
  serialize : Output → Output
  serialize_nil : serialize [] = []

/-- The state of the lane. Every headless terminal stays in `headlessTerminals`, as the callbacks
of a disposed one may still run; `headless` is the current one. The output since the journal was
created and the subscribers that are gone, with that output at the time, are for the statements
only. -/
structure AttachLane where
  flow : FlowControl
  journal : Option TerminalCursorJournal
  transportEpoch : Option String
  parsedCursor : Option ℕ
  acknowledgedCursor : Option ℕ
  leaseCursors : OrderedMap String ℕ
  subscribers : OrderedMap String AttachSubscriber
  headlessTerminals : List HeadlessTerminal
  headless : Option ℕ
  history : List Output
  ended : List (AttachSubscriber × List Output)

namespace AttachLane

def initial : AttachLane where
  flow := .initial
  journal := none
  transportEpoch := none
  parsedCursor := none
  acknowledgedCursor := none
  leaseCursors := []
  subscribers := []
  headlessTerminals := []
  headless := none
  history := []
  ended := []

variable (config : TransportConfig) (screen : Screen) (accepts : Accepts) (present : Bool)

def journalFor (lane : AttachLane) : TerminalCursorJournal :=
  lane.journal.getD (.empty config.journalBytes)

/-- `Math.min(...cursors.values())`, of cursors that are not empty. -/
def committedCursor (cursors : OrderedMap String ℕ) : ℕ := (cursors.values.min?).getD 0

/-- The committed cursor advances to the least one of the leases, and the characters up to
it are acknowledged to the PTY. -/
def commit (lane : AttachLane) : AttachLane :=
  let journal := lane.journalFor config
  let previous := lane.acknowledgedCursor.getD journal.minimumCursor
  let committed := committedCursor lane.leaseCursors
  let chars := journal.charactersBetween previous committed
  { lane with
    journal := some journal
    flow := if 0 < chars then lane.flow.ack config present chars else lane.flow
    acknowledgedCursor := some committed }

def removeAttachSubscriber (subscriberId : String) (lane : AttachLane) : AttachLane :=
  match lane.subscribers.get? subscriberId with
  | none => lane
  | some subscriber =>
    let detached :=
      { lane with
        subscribers := lane.subscribers.delete subscriberId
        ended := lane.ended ++ [(subscriber, lane.history)]
        flow := lane.flow.detachFlowControlConsumer present
        leaseCursors := lane.leaseCursors.delete subscriberId }
    if lane.leaseCursors = [] then detached
    else if detached.leaseCursors = [] then
      let journal := lane.journalFor config
      { detached with journal := some journal, acknowledgedCursor := some journal.cursor }
    else detached.commit config present

def offer (event : TerminalAttachEvent) (lane : AttachLane) (subscriberId : String) :
    AttachLane :=
  match lane.subscribers.get? subscriberId with
  | none => lane
  | some subscriber =>
    if accepts subscriberId event then
      { lane with
        subscribers := lane.subscribers.set subscriberId
          { subscriber with received := subscriber.received ++ [event] } }
    else lane.removeAttachSubscriber config present subscriberId

def publishAttachEvent (event : TerminalAttachEvent) (lane : AttachLane) : AttachLane :=
  (lane.subscribers.map Prod.fst).foldl (offer config accepts present event) lane

/-! ## The headless terminal -/

/-- `headlessManager.create`: a new instance, the old one is disposed. -/
def createHeadless (lane : AttachLane) : AttachLane :=
  { lane with
    headlessTerminals := lane.headlessTerminals ++ [{ parsed := [], queue := [] }]
    headless := some lane.headlessTerminals.length }

/-- A chunk is written to the headless terminal, which records the cursor when it has
parsed it. With no headless terminal it is recorded at once. -/
def writeHeadless (data : Output) (cursor : ℕ) (lane : AttachLane) : AttachLane :=
  match lane.headless with
  | none => { lane with parsedCursor := some cursor }
  | some instanceId =>
    { lane with
      headlessTerminals := lane.headlessTerminals.modify instanceId fun terminal =>
        { terminal with queue := terminal.queue ++ [(data, cursor)] } }

def parseNext (instanceId : ℕ) (lane : AttachLane) : AttachLane :=
  match lane.headlessTerminals[instanceId]? with
  | none => lane
  | some terminal =>
    match terminal.queue with
    | [] => lane
    | (data, cursor) :: queue =>
      { lane with
        headlessTerminals := lane.headlessTerminals.set instanceId
          { parsed := terminal.parsed ++ [data], queue := queue }
        parsedCursor := some cursor }

def parsed (lane : AttachLane) : List Output :=
  match lane.headless with
  | none => []
  | some instanceId => ((lane.headlessTerminals[instanceId]?).map HeadlessTerminal.parsed).getD []

def getScreenState (lane : AttachLane) : Output := screen.serialize lane.parsed.flatten

/-! ## Output -/

/-- One chunk of output: to the journal, to the headless terminal and to the subscribers. -/
def processChunk (chunk : Output) (lane : AttachLane) : Option AttachLane :=
  ((lane.journalFor config).append chunk).map fun journal =>
    ({ lane with journal := some journal, history := lane.history ++ [chunk] }.writeHeadless
      chunk journal.cursor).publishAttachEvent config accepts present
        (.delta journal.cursor chunk)

def processChunks : List Output → AttachLane → Option AttachLane
  | [], lane => some lane
  | chunk :: chunks, lane =>
    (lane.processChunk config accepts present chunk).bind (processChunks chunks)

/-- `none` where it throws, before any chunk is processed. -/
def processOutput (data : Output) (lane : AttachLane) : Option AttachLane :=
  (splitByUtf8Bytes data config.outputChunkBytes).bind fun chunks =>
    lane.processChunks config accepts present chunks

/-! ## Attach, acknowledge, restart, remove -/

def emitAll (subscriberId : String) (events : List TerminalAttachEvent) (lane : AttachLane) :
    AttachLane :=
  events.foldl (fun lane event => offer config accepts present event lane subscriberId) lane

/-- What an attached client is sent first: the events, and whether the snapshot is over its
bound, in which case the attach fails after them. -/
def attachEvents (epoch : String) (status : TerminalStatus) (options : AttachOptions)
    (lane : AttachLane) : List TerminalAttachEvent × Bool :=
  let journal := lane.journalFor config
  let epochChanged := options.epoch.isSome && options.epoch != some epoch
  let cursorLost := options.cursor.any fun cursor => !decide (journal.retains cursor)
  let lost := epochChanged || cursorLost
  let reset : List TerminalAttachEvent :=
    if lost then [.reset epoch (if epochChanged then .epoch_changed else .cursor_out_of_range)]
    else []
  let replay := fun replayCursor : ℕ =>
    (journal.deltasAfter replayCursor).map (fun entry => TerminalAttachEvent.delta entry.1 entry.2)
      ++ [.metadata epoch status, .replayComplete]
  match if lost then none else options.cursor with
  | some replayCursor => (reset ++ replay replayCursor, false)
  | none =>
    let snapshot := lane.getScreenState screen
    if config.snapshotBytes < utf8Bytes snapshot then (reset, true)
    else
      let replayCursor := lane.parsedCursor.getD 0
      (reset ++ [.snapshot replayCursor snapshot] ++ replay replayCursor, false)

/-- A new subscriber under its lease. Attaching forgives what is owed, so every lease starts
again at the end of the output. -/
def register (uuid : String) (options : AttachOptions) (subscriberId : String)
    (lane : AttachLane) : AttachLane :=
  let journal := lane.journalFor config
  let cursors : OrderedMap String ℕ := lane.leaseCursors.map fun lease => (lease.1, journal.cursor)
  { lane with
    journal := some journal
    transportEpoch := some (lane.transportEpoch.getD uuid)
    subscribers := lane.subscribers.set subscriberId { resume := options.cursor, received := [] }
    flow := lane.flow.attachFlowControlConsumer present
    acknowledgedCursor := some journal.cursor
    leaseCursors := cursors.set subscriberId journal.cursor }

/-- An attach under a lease that is not taken yet. `uuid` is drawn if the terminal has no
epoch. -/
def attach (uuid : String) (status : TerminalStatus) (options : AttachOptions)
    (subscriberId : String) (lane : AttachLane) : AttachLane :=
  if (lane.subscribers.get? subscriberId).isSome then
    { lane with
      journal := some (lane.journalFor config)
      transportEpoch := some (lane.transportEpoch.getD uuid) }
  else
    let events := lane.attachEvents config screen (lane.transportEpoch.getD uuid) status options
    let replayed := (lane.register config present uuid options subscriberId).emitAll config accepts
      present subscriberId events.1
    if events.2 then replayed.removeAttachSubscriber config present subscriberId else replayed

/-- An acknowledgement; one that is refused or stale leaves everything as it is. -/
def acknowledge (leaseId : String) (cursor : ℕ) (lane : AttachLane) : AttachLane :=
  match lane.journal, lane.leaseCursors.get? leaseId with
  | some journal, some previousLeaseCursor =>
    if cursor ≤ previousLeaseCursor then lane
    else if journal.retains cursor then
      { lane with leaseCursors := lane.leaseCursors.set leaseId cursor }.commit config present
    else lane
  | _, _ => lane

/-- A restart gives the output a new epoch, an empty journal and a fresh headless terminal;
the clients are still to be told. -/
def beginGeneration (uuid : String) (lane : AttachLane) : AttachLane :=
  { lane.createHeadless with
    transportEpoch := some uuid
    journal := none
    parsedCursor := none
    acknowledgedCursor := some 0
    leaseCursors := lane.leaseCursors.map fun lease : String × ℕ => (lease.1, 0) }

/-- The new output generation of a restart: attached clients start again from an empty
screen. -/
def restart (uuid : String) (lane : AttachLane) : AttachLane :=
  let announced :=
    { (lane.beginGeneration uuid).publishAttachEvent config accepts present
        (.reset uuid .epoch_changed) with
      history := [] }
  ((announced.publishAttachEvent config accepts present (.snapshot 0 [])).publishAttachEvent config
    accepts present (.metadata uuid .running)).publishAttachEvent config accepts present
      .replayComplete

/-- The consumers that a removed terminal had are detached from the flow control. -/
def detachConsumers : ℕ → FlowControl → FlowControl
  | 0, flow => flow
  | n + 1, flow => detachConsumers n (flow.detachFlowControlConsumer present)

def remove (lane : AttachLane) : AttachLane :=
  { lane with
    flow := detachConsumers present lane.subscribers.length lane.flow
    subscribers := []
    ended := lane.ended ++ lane.subscribers.values.map fun subscriber => (subscriber, lane.history)
    journal := none
    history := []
    transportEpoch := none
    parsedCursor := none
    acknowledgedCursor := none
    leaseCursors := []
    headless := none }

end AttachLane

end Laborer.Terminal
