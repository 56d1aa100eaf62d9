import Laborer.AcpRuntime.ProcessState
import Laborer.Library.Deferreds
import Laborer.Library.OrderedMap
import Laborer.Library.Runs

/-!
# The supervisor of an ACP process

The supervision loop of one workspace's agent process, the prompts that wait for a
generation of it, and the finalizer that ends both. A step runs one fiber from one effect
that the others can see to the next; the sections under `stateGate` suspend nowhere, so
each is one step.
-/

namespace Laborer.AcpRuntime

open Library

/-! ## Constants and options -/

def maxCircuitCooldownMillis : Nat := 60 * 60 * 1000

def readyResetMillis : Nat := 60000

def baseBackoffMillis : Nat := 250

def maxBackoffMillis : Nat := 4000

def maxBackoffWithJitterMillis : Nat := 5000

def maxTrackedConversations : Nat := 1024

def maxQueuedPrompts : Nat := 1024

def defaultCircuitCooldownMillis : Nat := 5 * 60 * 1000

structure Options where
  circuitCooldownMillis : Option Nat := none
  circuitFailureCount : Nat := 5
  episodeMillis : Nat := 90000
  failureWindowMillis : Nat := 5 * 60 * 1000
  maxEpisodeAttempts : Nat := 5
  minimumCircuitEpisodeMillis : Nat := 30000

def Options.initialCircuitCooldown (options : Options) : Nat :=
  options.circuitCooldownMillis.getD defaultCircuitCooldownMillis

structure HandlerFailure where
  category : String
  noticeStyle : String
  retryAfterMillis : Option Nat
  safeDetail : String
deriving DecidableEq

def unavailable (health : AcpWorkspaceProcessHealth) (retryAfterMillis : Option Nat) :
    HandlerFailure where
  category := "protocol"
  noticeStyle := "generic"
  retryAfterMillis := if health = .circuitOpen then retryAfterMillis else none
  safeDetail := if health = .circuitOpen then "ACP workspace is temporarily unavailable"
    else "ACP workspace is unavailable"

def queueAtCapacity : HandlerFailure where
  category := "protocol"
  noticeStyle := "generic"
  retryAfterMillis := none
  safeDetail := "ACP workspace prompt queue is at capacity"

def boundedBackoff (consecutiveFailures : Nat) : Nat :=
  min maxBackoffMillis (baseBackoffMillis * 2 ^ (consecutiveFailures - 1))

/-- How long the loop sleeps after a failure; `jitter` is what the caller's function draws
below the bound it is given. -/
def backoffDelay (consecutiveFailures jitter : Nat) : Nat :=
  min (min maxBackoffWithJitterMillis (boundedBackoff consecutiveFailures + 1) - 1) jitter

def cleanupOutcomeFor (cleanupFailed : Bool) (observed : AcpProcessCleanupOutcome) :
    AcpProcessCleanupOutcome :=
  if cleanupFailed then .failed
  else if observed = .notAttempted then .completed
  else observed

def stopPhaseFor (becameReady : Bool) (activePrompts : Nat) : AcpProcessStopPhase :=
  if ¬ becameReady then .startup
  else if 0 < activePrompts then .prompt
  else .idle

/-! ## Generations and prompts -/

/-- The variables of one turn of the supervision loop, which outlive it: the agent's
observers and the prompts that use it still refer to them. -/
structure Generation where
  generation : Nat
  available : Bool := true
  lost : Bool := false
  retired : Bool := false
  becameReady : Bool := false
  exit : AcpGenerationExit := { code := none, signal := none }
  cleanupOutcome : AcpProcessCleanupOutcome := .notAttempted
  failureClassification : AcpGenerationFailureClassification := .transient
  stopCause : AcpProcessStopCause := .initializationFailed
  observedStopPhase : Option AcpProcessStopPhase := none

/-- `available.current = false` -/
def Generation.withdraw (generation : Generation) : Generation :=
  { generation with available := false }

/-- Where a call of `runAgent` stands. Generations are named by their place in
`Supervisor.generations`, gates by their place in `Supervisor.gates`. -/
inductive PromptStage where
  | queued
  | admitted
  /-- What `awaitReady` read under `stateGate`. -/
  | selected (current : Option Nat) (gate : Nat) (health : AcpWorkspaceProcessHealth)
  | awaitingRetired (index : Nat)
  | awaitingGate (gate : Nat)
  | resolved (index : Nat)
  | released (index : Nat)
  | prompting (index : Nat)
  /-- The agent failed; the call waits for the loss of the generation or a moment. -/
  | settling (index : Nat) (failure : HandlerFailure)
  | leaving (failure : Option HandlerFailure)
  | finished (failure : Option HandlerFailure)
deriving DecidableEq

structure Prompt where
  conversationId : String
  released : Bool
  stage : PromptStage
deriving DecidableEq

/-- The call holds the permit of `promptAdmission`. -/
def PromptStage.isAdmitted : PromptStage → Bool
  | .queued | .leaving _ | .finished _ => false
  | _ => true

def PromptStage.isActive : PromptStage → Bool
  | .prompting _ | .settling .. => true
  | _ => false

/-! ## The loop and the finalizer -/

/-- What a retired generation's stop is recorded with. -/
structure Retirement where
  index : Nat
  readyAt : Option Nat
  stoppedAt : Nat
  stoppedForShutdown : Bool
deriving DecidableEq

/-- What the handler of a defect takes over. -/
structure Claim where
  generation : Option Nat
  hasGenerationScope : Bool
  readyGate : Nat
  retiring : Option Nat
deriving DecidableEq

inductive Supervision where
  | starting
  | resuming
  | publishingRestart (now : Nat)
  | looping
  | reserving (now : Nat)
  | loading (generation : Nat)
  | acquiring (index : Nat)
  | publishingReady (index readyAt : Nat)
  | exposing (index readyAt : Nat)
  | awaitingLoss (index readyAt : Nat)
  | retiring (index : Nat) (readyAt : Option Nat)
  | retired (retirement : Retirement)
  | draining (retirement : Retirement)
  | closing (retirement : Retirement)
  | recordingStop (retirement : Retirement) (cleanupFailed : Bool)
  | resetting (retirement : Retirement)
  | recordingFailure (retirement : Retirement)
  | quarantining (stoppedAt : Nat)
  | openingCircuit (stoppedAt cooldown : Nat)
  | closingGate (health : AcpWorkspaceProcessHealth)
  | cooling
  | halfOpening
  | restarting (stoppedAt : Nat)
  | backingOff (delay : Nat)
  /-- The loop died of a defect. -/
  | defective
  | claimed (claim : Claim)
  | recordingDefect (claim : Claim) (cleanupFailed : Bool)
  | publishingDefect (claim : Claim) (timestamp : Nat)
  | settlingRetired (claim : Claim)
  | settlingGate (claim : Claim)
  /-- Returned after it made the workspace unavailable. -/
  | quarantined
  /-- Returned for a shutdown. -/
  | stopped
  /-- The finalizer interrupted the fiber. -/
  | interrupted
deriving DecidableEq

/-- Where the finalizer stands; `preserve` is its `preserveUnavailableState`. -/
inductive Finalization where
  | waiting
  | interrupting (generation : Option Nat) (preserve : Bool) (timestamp : Nat)
  | closing (generation : Option Nat) (preserve : Bool) (timestamp : Nat)
  | recordingStop (generation : Option Nat) (preserve cleanupFailed : Bool) (timestamp : Nat)
  | clearing (preserve : Bool) (timestamp : Nat)
  | stopping (preserve : Bool) (timestamp : Nat)
  | closingGate (health : AcpWorkspaceProcessHealth)
  | finished
deriving DecidableEq

inductive InitialOutcome where
  | ready
  | unavailable

structure Supervisor where
  /-- What the repository keeps. -/
  stored : AcpProcessState
  durableState : AcpProcessState
  gates : Deferreds (Except HandlerFailure Nat)
  readyGate : Nat
  current : Option Nat
  generations : List Generation
  activeGenerationScope : Option Nat
  activeCleanupOutcome : AcpProcessCleanupOutcome
  activePrompts : Nat
  queuedPrompts : Nat
  queuedConversationCounts : OrderedMap String Nat
  observedConversations : List String
  expectedShutdown : Bool
  shutdownRequested : Bool
  initialOutcome : Option InitialOutcome
  supervision : Supervision
  finalization : Finalization
  prompts : List Prompt
  /-- The permits that `promptAdmission` has left. -/
  promptAdmission : Nat

/-- The state in memory when the stored one cannot be loaded. -/
def unloadedState (options : Options) : AcpProcessState :=
  { initialAcpProcessState with
    circuitCooldownMillis := options.initialCircuitCooldown
    health := .quarantined }

/-- A supervisor that is being made, over what the repository keeps. -/
def makeSupervisor (options : Options) (stored : AcpProcessState) (loads : Bool) :
    Supervisor where
  stored := stored
  durableState := if loads then stored else unloadedState options
  gates := [none]
  readyGate := 0
  current := none
  generations := []
  activeGenerationScope := none
  activeCleanupOutcome := .notAttempted
  activePrompts := 0
  queuedPrompts := 0
  queuedConversationCounts := []
  observedConversations := []
  expectedShutdown := false
  shutdownRequested := false
  initialOutcome := none
  supervision := .starting
  finalization := .waiting
  prompts := []
  promptAdmission := 1

/-! ## What surrounds a step -/

inductive RepositoryOutcome where
  | committed
  | failed
  | failedAfterCommit
deriving DecidableEq

inductive Acquired where
  | succeeded
  | failed
  | defect

/-- What a step reads of the clock and how the calls it makes end. -/
structure Surroundings where
  now : Nat
  repository : RepositoryOutcome := .committed
  acquired : Acquired := .succeeded
  cleanupFailed : Bool := false
  jitter : Nat := 0

namespace Supervisor

variable (options : Options) (around : Surroundings)

def shuttingDown (s : Supervisor) : Bool := s.expectedShutdown || s.shutdownRequested

def generation? (s : Supervisor) (index : Nat) : Option Generation := s.generations[index]?

def modifyGeneration (index : Nat) (f : Generation → Generation) (s : Supervisor) : Supervisor :=
  { s with generations := s.generations.modify index f }

/-- `available.current` of a generation -/
def isAvailable (s : Supervisor) (index : Nat) : Bool := (s.generation? index).any (·.available)

/-- `retired` of a generation is completed. -/
def isRetired (s : Supervisor) (index : Nat) : Bool := (s.generation? index).any (·.retired)

def rotateReadyGate (s : Supervisor) : Supervisor :=
  { s with gates := s.gates.make, readyGate := s.gates.length }

def circuitRetryAfterMillis (now : Nat) (s : Supervisor) : Option Nat :=
  s.durableState.circuitOpenedAt.map (· + s.durableState.circuitCooldownMillis - now)

def failGate (gate : Nat) (failure : HandlerFailure) (s : Supervisor) : Supervisor :=
  { s with gates := s.gates.complete gate (.error failure) }

def closeReadyGate (health : AcpWorkspaceProcessHealth) (now : Nat) (s : Supervisor) :
    Supervisor :=
  s.failGate s.readyGate (unavailable health (s.circuitRetryAfterMillis now))

/-- `Deferred.succeed(initialOutcome, outcome)` -/
def settleInitialOutcome (outcome : InitialOutcome) (s : Supervisor) : Supervisor :=
  { s with initialOutcome := s.initialOutcome.or (some outcome) }

/-- A request of the loop to the repository, whose failure is a defect of the loop. -/
def ask (update : AcpProcessState → AcpProcessState)
    (answered : AcpProcessState → Supervisor → Supervisor) (s : Supervisor) : Supervisor :=
  match around.repository with
  | .committed => answered (update s.stored) { s with stored := update s.stored }
  | .failed => { s with supervision := .defective }
  | .failedAfterCommit => { s with stored := update s.stored, supervision := .defective }

def publishHealth (change : ProcessStateChange) (next : Supervision) (s : Supervisor) :
    Supervisor :=
  s.ask around (·.transition change) fun state s =>
    { s with durableState := state, supervision := next }

def attempt (update : AcpProcessState → AcpProcessState) (s : Supervisor) : Supervisor :=
  match around.repository with
  | .failed => s
  | .committed | .failedAfterCommit => { s with stored := update s.stored }

/-! ## The supervision loop -/

def publishHalfOpen (next : Supervision) (s : Supervisor) : Supervisor :=
  s.publishHealth around
    { activeGeneration := some none
      consecutiveFailures := some 0
      halfOpen := some true
      health := .restarting
      restartEpisodeStartedAt := some (some around.now)
      timestamp := around.now } next

/-- The branches of `supervise` on a state left quarantined or with an open circuit. -/
def start (s : Supervisor) : Supervisor :=
  match s.durableState.health with
  | .quarantined =>
    (s.closeReadyGate .quarantined around.now).settleInitialOutcome .unavailable
      |> fun s => { s with supervision := .quarantined }
  | .circuitOpen => s.publishHalfOpen around .resuming
  | _ => { s with supervision := .resuming }

/-- The branch of `supervise` on a state left by a host that did not stop its process. -/
def resume (s : Supervisor) : Supervisor :=
  match s.durableState.health with
  | .starting | .ready | .restarting | .draining =>
    match s.durableState.activeGeneration with
    | none => { s with supervision := .publishingRestart around.now }
    | some generation =>
      s.ask around
        (·.recordStop
          { cause := .processExit
            cleanupOutcome := .alreadyExited
            exit := { code := none, signal := none }
            expected := false
            generation := generation
            phase := .startup
            timestamp := around.now })
        fun _ s => { s with supervision := .publishingRestart around.now }
  | _ => { s with supervision := .looping }

def loop (s : Supervisor) : Supervisor :=
  if s.shuttingDown then { s with supervision := .stopped }
  else if s.durableState.restartEpisodeStartedAt.any
      fun started => started + options.episodeMillis < around.now then
    s.publishHealth around
      { consecutiveFailures := some 0
        health := .restarting
        restartEpisodeStartedAt := some (some around.now)
        timestamp := around.now } (.reserving around.now)
  else { s with supervision := .reserving around.now }

def reserve (now : Nat) (s : Supervisor) : Supervisor :=
  s.ask around (·.reserveGeneration now) fun _ answered =>
    { answered with supervision := .loading s.stored.nextGeneration }

/-- The reserved state is loaded and the generation's scope and variables are made. -/
def load (generation : Nat) (s : Supervisor) : Supervisor :=
  s.ask around id fun state s =>
    { s with
      durableState := state
      generations := s.generations ++ [{ generation := generation }]
      activeGenerationScope := some s.generations.length
      activeCleanupOutcome := .notAttempted
      supervision := .acquiring s.generations.length }

def acquire (index : Nat) (s : Supervisor) : Supervisor :=
  match around.acquired with
  | .defect => { s with supervision := .defective }
  | .failed => { s with supervision := .retiring index none }
  | .succeeded =>
    if (s.generation? index).any (·.becameReady) then
      { s with supervision := .publishingReady index around.now }
    else { s with supervision := .retiring index none }

def publishReady (index readyAt : Nat) (s : Supervisor) : Supervisor :=
  s.publishHealth around
    { activeGeneration := some ((s.generation? index).map (·.generation))
      health := .ready
      readySince := some (some readyAt)
      restartEpisodeStartedAt :=
        some (some (s.durableState.restartEpisodeStartedAt.getD readyAt))
      timestamp := readyAt } (.exposing index readyAt)

/-- The generation becomes the current one and the prompts at the gate get it. -/
def expose (index readyAt : Nat) (s : Supervisor) : Supervisor :=
  settleInitialOutcome .ready
    { s with
      current := some index
      gates := s.gates.complete s.readyGate (.ok index)
      supervision := .awaitingLoss index readyAt }

/-- The generation is no longer available and the gate is replaced. -/
def retire (index : Nat) (readyAt : Option Nat) (s : Supervisor) : Supervisor :=
  rotateReadyGate
    { s.modifyGeneration index .withdraw with
      current := if s.current = some index then none else s.current
      observedConversations := []
      supervision := .retired
        { index := index
          readyAt := readyAt
          stoppedAt := around.now
          stoppedForShutdown := s.shuttingDown } }

/-- `Deferred.succeed(retired, undefined)` -/
def succeedRetired (index : Nat) (s : Supervisor) : Supervisor :=
  s.modifyGeneration index fun generation => { generation with retired := true }

def publishDraining (retirement : Retirement) (s : Supervisor) : Supervisor :=
  s.publishHealth around
    { activeGeneration := some ((s.generation? retirement.index).map (·.generation))
      health := .draining
      readySince := some none
      timestamp := retirement.stoppedAt } (.closing retirement)

def closeGenerationScope (retirement : Retirement) (s : Supervisor) : Supervisor :=
  { s with
    activeGenerationScope :=
      if s.activeGenerationScope = some retirement.index then none else s.activeGenerationScope
    supervision := .recordingStop retirement around.cleanupFailed }

/-- The stop of a retired generation, as the loop records it. -/
def stopRecord (retirement : Retirement) (cleanupFailed : Bool) (generation : Generation)
    (s : Supervisor) : AcpProcessStopRecord where
  cause := if retirement.stoppedForShutdown then .expectedShutdown else generation.stopCause
  cleanupOutcome := cleanupOutcomeFor cleanupFailed generation.cleanupOutcome
  exit := generation.exit
  expected := retirement.stoppedForShutdown
  generation := generation.generation
  phase := generation.observedStopPhase.getD
    (stopPhaseFor generation.becameReady s.activePrompts)
  timestamp := retirement.stoppedAt

/-- After the stop is recorded: the loop ends for a shutdown, and a generation that was
ready for long enough resets the circuit first. -/
def afterStop (retirement : Retirement) : Supervision :=
  if retirement.stoppedForShutdown then .stopped
  else if retirement.readyAt.any fun readyAt =>
      readyAt + readyResetMillis ≤ retirement.stoppedAt then .resetting retirement
  else .recordingFailure retirement

def recordStop (retirement : Retirement) (cleanupFailed : Bool) (s : Supervisor) : Supervisor :=
  match s.generation? retirement.index with
  | none => { s with supervision := .defective }
  | some generation =>
    s.ask around (·.recordStop (s.stopRecord retirement cleanupFailed generation))
      fun _ s => { s with supervision := afterStop retirement }

def resetCircuit (retirement : Retirement) (s : Supervisor) : Supervisor :=
  s.publishHealth around
    { activeGeneration := some none
      circuitCooldownMillis := some options.initialCircuitCooldown
      circuitOpenedAt := some none
      consecutiveFailures := some 0
      halfOpen := some false
      health := .restarting
      restartEpisodeStartedAt := some (some retirement.stoppedAt)
      timestamp := retirement.stoppedAt } (.recordingFailure retirement)

/-- The failures call for the circuit to open. -/
def opensCircuit (stoppedAt : Nat) (state : AcpProcessState) : Bool :=
  let recentFailures := (state.failures.val.filter fun failure =>
    stoppedAt ≤ failure.timestamp + options.failureWindowMillis).length
  let episodeStarted := state.restartEpisodeStartedAt.getD stoppedAt
  state.halfOpen ||
    ((options.circuitFailureCount ≤ recentFailures ||
      options.maxEpisodeAttempts ≤ state.consecutiveFailures) &&
      episodeStarted + options.minimumCircuitEpisodeMillis ≤ stoppedAt)

def circuitCooldown (state : AcpProcessState) : Nat :=
  let configuredCooldown := options.circuitCooldownMillis.getD state.circuitCooldownMillis
  min maxCircuitCooldownMillis
    (if state.halfOpen then configuredCooldown * 2 else configuredCooldown)

/-- What follows a failure that is recorded: quarantine, an open circuit or a restart. -/
def afterFailure (classification : AcpGenerationFailureClassification) (stoppedAt : Nat)
    (state : AcpProcessState) : Supervision :=
  if classification = .deterministic then .quarantining stoppedAt
  else if opensCircuit options stoppedAt state then
    .openingCircuit stoppedAt (circuitCooldown options state)
  else .restarting stoppedAt

def recordFailure (retirement : Retirement) (s : Supervisor) : Supervisor :=
  match s.generation? retirement.index with
  | none => { s with supervision := .defective }
  | some generation =>
    s.ask around
      (·.recordFailure
        { cause := generation.stopCause
          classification := generation.failureClassification
          generation := generation.generation
          timestamp := retirement.stoppedAt })
      fun state s =>
        { s with
          durableState := state
          supervision := afterFailure options generation.failureClassification
            retirement.stoppedAt state }

def quarantine (stoppedAt : Nat) (s : Supervisor) : Supervisor :=
  s.publishHealth around
    { activeGeneration := some none
      health := .quarantined
      readySince := some none
      timestamp := stoppedAt } (.closingGate .quarantined)

def openCircuit (stoppedAt cooldown : Nat) (s : Supervisor) : Supervisor :=
  s.publishHealth around
    { activeGeneration := some none
      circuitCooldownMillis := some cooldown
      circuitOpenedAt := some (some stoppedAt)
      halfOpen := some false
      health := .circuitOpen
      readySince := some none
      timestamp := stoppedAt } (.closingGate .circuitOpen)

/-- The prompts at the gate fail; the loop returns, or sleeps until the circuit's cooldown
is over. -/
def closeGate (health : AcpWorkspaceProcessHealth) (s : Supervisor) : Supervisor :=
  (s.closeReadyGate health around.now).settleInitialOutcome .unavailable
    |> fun s => { s with
      supervision := if health = .circuitOpen then .cooling else .quarantined }

def endCooling (s : Supervisor) : Supervisor :=
  if s.shuttingDown then { s with supervision := .stopped }
  else rotateReadyGate { s with supervision := .halfOpening }

def publishRestarting (stoppedAt : Nat) (s : Supervisor) : Supervisor :=
  s.publishHealth around
    { activeGeneration := some none
      health := .restarting
      restartEpisodeStartedAt :=
        some (some (s.durableState.restartEpisodeStartedAt.getD stoppedAt))
      timestamp := stoppedAt }
    (.backingOff (backoffDelay s.durableState.consecutiveFailures around.jitter))

/-! ## A defect of the loop -/

/-- The handler takes over what the loop left, unless the finalizer runs. -/
def claimDefect (s : Supervisor) : Supervisor :=
  if s.expectedShutdown then { s with supervision := .stopped }
  else
    let s' := match s.current with
      | none => s
      | some index => s.modifyGeneration index .withdraw
    { s' with
      current := none
      activeGenerationScope := none
      observedConversations := []
      durableState := { s.durableState with
        activeGeneration := none, health := .quarantined, readySince := none }
      supervision := .claimed
        { generation := (s.current.bind s.generation?).map (·.generation)
            |>.or s.durableState.activeGeneration
          hasGenerationScope := s.activeGenerationScope.isSome
          readyGate := s.readyGate
          retiring := s.current } }

/-- The scope that the claim holds is closed, within a bounded time. -/
def closeClaimedScope (claim : Claim) (s : Supervisor) : Supervisor :=
  { s with
    supervision := .recordingDefect claim
      (claim.hasGenerationScope && around.cleanupFailed) }

def recordDefect (claim : Claim) (cleanupFailed : Bool) (s : Supervisor) : Supervisor :=
  let next := Supervision.publishingDefect claim around.now
  match claim.generation with
  | none => { s with supervision := next }
  | some generation =>
    { s.attempt around
        (·.recordStop
          { cause := .unknown
            cleanupOutcome := cleanupOutcomeFor cleanupFailed s.activeCleanupOutcome
            exit := { code := none, signal := none }
            expected := false
            generation := generation
            phase := if 0 < s.activePrompts then .prompt else .startup
            timestamp := around.now }) with
      supervision := next }

def publishDefect (claim : Claim) (timestamp : Nat) (s : Supervisor) : Supervisor :=
  { s.attempt around
      (·.transition
        { activeGeneration := some none
          health := .quarantined
          readySince := some none
          timestamp := timestamp }) with
    supervision := .settlingRetired claim }

def settleRetired (claim : Claim) (s : Supervisor) : Supervisor :=
  let s' := match claim.retiring with
    | none => s
    | some index => s.succeedRetired index
  { s' with supervision := .settlingGate claim }

def settleGate (claim : Claim) (s : Supervisor) : Supervisor :=
  (s.failGate claim.readyGate (unavailable .quarantined none)).settleInitialOutcome .unavailable
    |> fun s => { s with supervision := .quarantined }

/-- The supervision fiber runs to its next effect. Where it waits for something that has not
happened, nothing changes. -/
def supervise (s : Supervisor) : Supervisor :=
  match s.supervision with
  | .starting => s.start around
  | .resuming => s.resume around
  | .publishingRestart now =>
    s.publishHealth around
      { activeGeneration := some none
        health := .restarting
        readySince := some none
        timestamp := now } .looping
  | .looping => s.loop options around
  | .reserving now => s.reserve around now
  | .loading generation => s.load around generation
  | .acquiring index => s.acquire around index
  | .publishingReady index readyAt => s.publishReady around index readyAt
  | .exposing index readyAt => s.expose index readyAt
  | .awaitingLoss index readyAt =>
    if (s.generation? index).any (·.lost) then
      { s with supervision := .retiring index (some readyAt) }
    else s
  | .retiring index readyAt => s.retire around index readyAt
  | .retired retirement =>
    { s.succeedRetired retirement.index with supervision := .draining retirement }
  | .draining retirement => s.publishDraining around retirement
  | .closing retirement => s.closeGenerationScope around retirement
  | .recordingStop retirement cleanupFailed => s.recordStop around retirement cleanupFailed
  | .resetting retirement => s.resetCircuit options around retirement
  | .recordingFailure retirement => s.recordFailure options around retirement
  | .quarantining stoppedAt => s.quarantine around stoppedAt
  | .openingCircuit stoppedAt cooldown => s.openCircuit around stoppedAt cooldown
  | .closingGate health => s.closeGate around health
  | .cooling => s.endCooling
  | .halfOpening => s.publishHalfOpen around .looping
  | .restarting stoppedAt => s.publishRestarting around stoppedAt
  | .backingOff _ => { s with supervision := .looping }
  | .defective => s.claimDefect
  | .claimed claim => s.closeClaimedScope around claim
  | .recordingDefect claim cleanupFailed => s.recordDefect around claim cleanupFailed
  | .publishingDefect claim timestamp => s.publishDefect around claim timestamp
  | .settlingRetired claim => s.settleRetired claim
  | .settlingGate claim => s.settleGate claim
  | .quarantined | .stopped | .interrupted => s

end Supervisor

inductive ProcessStatus where
  | closed
  | quarantined
  | ready
  | starting

inductive Observation where
  | health (generation : Nat) (status : ProcessStatus)
  | exit (exit : AcpGenerationExit)
  | cleanup (outcome : AcpProcessCleanupOutcome)
  | failureClassification (classification : AcpGenerationFailureClassification)
      (cause : AcpProcessStopCause)

def Generation.observeHealth (generation : Nat) (status : ProcessStatus) (activePrompts : Nat)
    (observed : Generation) : Generation :=
  if generation ≠ observed.generation then observed
  else match status with
    | .ready => { observed with becameReady := true }
    | .closed | .quarantined =>
      { observed with
        observedStopPhase :=
          observed.observedStopPhase.or (some (stopPhaseFor observed.becameReady activePrompts))
        available := false
        stopCause := if observed.becameReady then .transportLost else observed.stopCause
        lost := true }
    | .starting => observed

namespace Supervisor

def observe (index : Nat) (observation : Observation) (s : Supervisor) : Supervisor :=
  match observation with
  | .health generation status =>
    s.modifyGeneration index (·.observeHealth generation status s.activePrompts)
  | .exit exit => s.modifyGeneration index fun generation => { generation with exit := exit }
  | .cleanup outcome =>
    { s.modifyGeneration index fun generation => { generation with cleanupOutcome := outcome } with
      activeCleanupOutcome := outcome }
  | .failureClassification classification cause =>
    s.modifyGeneration index fun generation =>
      { generation with failureClassification := classification, stopCause := cause }

/-! ## The finalizer -/

/-- `Deferred.await(initialOutcome)` has returned: there is a supervisor to call and to
finalize. -/
def isMade (s : Supervisor) : Bool := s.initialOutcome.isSome

def beginFinalizing (around : Surroundings) (s : Supervisor) : Supervisor :=
  let generation := (s.current.bind s.generation?).map (·.generation)
    |>.or s.durableState.activeGeneration
  let preserve := generation.isNone &&
    (s.durableState.health = .circuitOpen || s.durableState.health = .quarantined)
  let s' := match generation with
    | none => s
    | some generation =>
      s.attempt around
        (·.transition
          { activeGeneration := some (some generation)
            health := .draining
            readySince := some none
            timestamp := around.now })
  { s' with
    expectedShutdown := true
    finalization := .interrupting generation preserve around.now }

def finalize (around : Surroundings) (s : Supervisor) : Supervisor :=
  match s.finalization with
  | .waiting => if s.isMade then s.beginFinalizing around else s
  | .interrupting generation preserve timestamp =>
    { s with
      supervision := .interrupted
      finalization := .closing generation preserve timestamp }
  | .closing generation preserve timestamp =>
    { s with
      activeGenerationScope := none
      finalization := .recordingStop generation preserve
        (s.activeGenerationScope.isSome && around.cleanupFailed) timestamp }
  | .recordingStop generation preserve cleanupFailed timestamp =>
    let s' := match generation with
      | none => s
      | some generation =>
        s.attempt around
          (·.recordStop
            { cause := .expectedShutdown
              cleanupOutcome := cleanupOutcomeFor cleanupFailed s.activeCleanupOutcome
              exit := { code := none, signal := none }
              expected := true
              generation := generation
              phase := if 0 < s.activePrompts then .prompt else .drain
              timestamp := timestamp })
    { s' with finalization := .clearing preserve timestamp }
  | .clearing preserve timestamp =>
    { s with current := none, finalization := .stopping preserve timestamp }
  | .stopping preserve timestamp =>
    if preserve then { s with finalization := .closingGate s.durableState.health }
    else
      { s.attempt around
          (·.transition
            { activeGeneration := some none
              health := .stopped
              readySince := some none
              timestamp := timestamp }) with
        finalization := .closingGate .stopped }
  | .closingGate health =>
    { s.closeReadyGate health around.now with finalization := .finished }
  | .finished => s

end Supervisor

end Laborer.AcpRuntime
