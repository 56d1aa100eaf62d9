import Laborer.Terminal.AttachLane

/-!
# The agent status of a terminal

Process samples and hook reports are arbitrated by a status engine. Its snapshot is what a
terminal shows of its agent: an agent that is idle and was not seen since is done.
-/

namespace Laborer.Terminal

inductive AgentStatus where
  | working
  | needs_input
  | idle
  | unknown
deriving DecidableEq

inductive AgentStatusSource where
  | hook
  | ps
deriving DecidableEq

structure AgentStatusSnapshot where
  status : AgentStatus
  source : AgentStatusSource
  changedAt : ℕ
  stale : Bool
  seen : Bool
deriving DecidableEq

structure AgentStatusReport where
  status : AgentStatus
  sequence : ℕ

structure AgentProcess where
  pid : ℕ
  rawName : String

structure ProcessDetectionResult where
  agentProcesses : List AgentProcess
  foregroundProcess : Option String
  hasChildProcess : Bool
  processChain : List String

def EMPTY_DETECTION : ProcessDetectionResult where
  agentProcesses := []
  foregroundProcess := none
  hasChildProcess := false
  processChain := []

/-- Agents that report through a hook: that one of them runs does not say it is busy. -/
def HOOK_BACKED_AGENTS : List String := ["claude", "opencode", "opencode2"]

def DEFAULT_DOWNWARD_CONFIRMATIONS : ℕ := 3

def DEFAULT_STALE_AFTER_MS : ℕ := 10000

structure HookAuthority where
  processIds : List ℕ
  status : AgentStatus

structure StatusEngineOptions where
  downwardConfirmations : Option ℕ
  staleAfterMs : Option ℕ

structure TerminalStatusEngine where
  downwardConfirmations : ℕ
  staleAfterMs : ℕ
  snapshot : Option AgentStatusSnapshot
  lastAgentProcessIds : List ℕ
  hookAuthority : Option HookAuthority
  lastHookSequence : ℤ
  downwardSamples : ℕ
  firstFailureAt : Option ℕ
  hasSuccessfulSample : Bool
  observed : Bool

namespace TerminalStatusEngine

def create (options : StatusEngineOptions) : TerminalStatusEngine where
  downwardConfirmations := options.downwardConfirmations.getD DEFAULT_DOWNWARD_CONFIRMATIONS
  staleAfterMs := options.staleAfterMs.getD DEFAULT_STALE_AFTER_MS
  snapshot := none
  lastAgentProcessIds := []
  hookAuthority := none
  lastHookSequence := -1
  downwardSamples := 0
  firstFailureAt := none
  hasSuccessfulSample := false
  observed := false

def initial : TerminalStatusEngine := create ⟨none, none⟩

/-- Observing a terminal acknowledges its unseen completion. -/
def setObserved (observed : Bool) (engine : TerminalStatusEngine) : TerminalStatusEngine :=
  { engine with
    observed := observed
    snapshot := engine.snapshot.map fun snapshot =>
      if observed then { snapshot with seen := true } else snapshot }

def transition (status : AgentStatus) (source : AgentStatusSource) (changedAt : ℕ)
    (engine : TerminalStatusEngine) : TerminalStatusEngine :=
  match engine.snapshot with
  | none =>
    { engine with
      snapshot := some
        { status := status, source := source, changedAt := changedAt, stale := false,
          seen := true } }
  | some snapshot =>
    if snapshot.status = status ∧ snapshot.source = source then
      if status ≠ .idle then { engine with snapshot := some { snapshot with seen := true } }
      else engine
    else
      let completed := status = .idle ∧ snapshot.status ≠ .idle
      let seen :=
        if status ≠ .idle then true
        else if completed then engine.observed
        else snapshot.seen || engine.observed
      { engine with
        snapshot := some
          { status := status, source := source, changedAt := changedAt, stale := false,
            seen := seen } }

def recoverDetection (engine : TerminalStatusEngine) : TerminalStatusEngine :=
  { engine with
    firstFailureAt := none
    snapshot := engine.snapshot.map fun snapshot => { snapshot with stale := false } }

def statusFromProcesses (agentProcesses : List AgentProcess) : AgentStatus :=
  if agentProcesses.all fun process => HOOK_BACKED_AGENTS.contains process.rawName then .unknown
  else .working

/-- The authority of a hook after a sample that found agents: it adopts their process
generation, keeps it, or is void when they are all others. -/
def adoptGeneration (processIds : List ℕ) (authority : HookAuthority) : Option HookAuthority :=
  if authority.processIds = [] then some { authority with processIds := processIds }
  else if authority.processIds.any processIds.contains then some authority
  else none

def sample (agentProcesses : List AgentProcess) (hasNonAgentProcess : Bool) (sampledAt : ℕ)
    (engine : TerminalStatusEngine) : TerminalStatusEngine :=
  let processIds := agentProcesses.map AgentProcess.pid
  let recovered : TerminalStatusEngine :=
    { engine.recoverDetection with hasSuccessfulSample := true, lastAgentProcessIds := processIds }
  if processIds ≠ [] then
    let authority := recovered.hookAuthority.bind (adoptGeneration processIds)
    let adopted := { recovered with downwardSamples := 0, hookAuthority := authority }
    match authority with
    | some authority => adopted.transition authority.status .hook sampledAt
    | none => adopted.transition (statusFromProcesses agentProcesses) .ps sampledAt
  else if recovered.snapshot = none then
    { recovered with hookAuthority := none, downwardSamples := 0 }
  else if recovered.downwardSamples + 1 < recovered.downwardConfirmations then
    { recovered with downwardSamples := recovered.downwardSamples + 1 }
  else
    let confirmed :=
      { recovered with downwardSamples := recovered.downwardSamples + 1, hookAuthority := none }
    if hasNonAgentProcess then { confirmed with snapshot := none }
    else confirmed.transition .idle .ps sampledAt

/-- A detection that failed says nothing of the lifecycle; after a while the snapshot is
marked stale. -/
def unavailable (observedAt : ℕ) (engine : TerminalStatusEngine) : TerminalStatusEngine :=
  let firstFailureAt := engine.firstFailureAt.getD observedAt
  { engine with
    downwardSamples := 0
    firstFailureAt := some firstFailureAt
    snapshot := engine.snapshot.map fun snapshot =>
      if firstFailureAt + engine.staleAfterMs ≤ observedAt then { snapshot with stale := true }
      else snapshot }

def processExited (observedAt : ℕ) (engine : TerminalStatusEngine) : TerminalStatusEngine :=
  let cleared :=
    { engine with lastAgentProcessIds := [], hookAuthority := none, downwardSamples := 0 }
  if engine.snapshot = none then cleared else cleared.transition .idle .ps observedAt

def report (report : AgentStatusReport) (reportedAt : ℕ) (engine : TerminalStatusEngine) :
    TerminalStatusEngine :=
  if (report.sequence : ℤ) ≤ engine.lastHookSequence then engine
  else
    let accepted := { engine with lastHookSequence := report.sequence }
    -- Late evidence of an agent that is known to be gone.
    if accepted.hasSuccessfulSample ∧ accepted.lastAgentProcessIds = [] then accepted
    else
      let authorised :=
        { accepted with
          hookAuthority := some
            { processIds := accepted.lastAgentProcessIds, status := report.status }
          downwardSamples := 0 }
      authorised.transition report.status .hook reportedAt

end TerminalStatusEngine

/-! ## What the manager keeps of it -/

structure ManagedTerminal where
  status : TerminalStatus
  shellPid : Option ℕ
deriving DecidableEq

structure TerminalRecord where
  agentProcessIds : List ℕ
  agentStatus : Option AgentStatusSnapshot
  foregroundProcess : Option String
  hasChildProcess : Bool
  processChain : List String
  status : TerminalStatus
deriving DecidableEq

structure ProcessDetectionBatch where
  available : Bool
  result : Option ProcessDetectionResult

/-- Who asked for a sample: the background tick publishes what has changed. -/
inductive SampleKind where
  | listTerminals
  | detectionTick

/-- The status of one terminal. A sample in flight holds the terminal as it was when the
process table was asked for. -/
structure StatusLane where
  engine : Option TerminalStatusEngine
  observed : Bool
  lastProcessSnapshot : Option ProcessDetectionResult
  lastRecord : Option TerminalRecord
  inFlight : List (SampleKind × Option ManagedTerminal)
  published : List TerminalRecord

namespace StatusLane

def initial : StatusLane where
  engine := none
  observed := false
  lastProcessSnapshot := none
  lastRecord := none
  inFlight := []
  published := []

def emitEvent (record : TerminalRecord) (lane : StatusLane) : StatusLane :=
  { lane with published := lane.published ++ [record] }

def deleteEngine (lane : StatusLane) : StatusLane := { lane with engine := none }

/-- `current` is the terminal that is listed now. -/
def getStatusEngine (current : Option ManagedTerminal) (lane : StatusLane) :
    TerminalStatusEngine :=
  lane.engine.getD (TerminalStatusEngine.initial.setObserved (current.isSome && lane.observed))

def toTerminalRecord (terminal : ManagedTerminal) (detected : Option ProcessDetectionResult)
    (lane : StatusLane) : TerminalRecord :=
  let liveDetection := if terminal.status = .running then detected else none
  { agentProcessIds := (liveDetection.elim [] ProcessDetectionResult.agentProcesses).map
      AgentProcess.pid
    agentStatus := lane.engine.bind TerminalStatusEngine.snapshot
    foregroundProcess := liveDetection.bind ProcessDetectionResult.foregroundProcess
    hasChildProcess := liveDetection.elim false ProcessDetectionResult.hasChildProcess
    processChain := liveDetection.elim [] ProcessDetectionResult.processChain
    status := terminal.status }

/-- Before an exit stops the terminal, an agent that it still shows is shown as idle. -/
def emitAgentCompletionBeforeStop (current : Option ManagedTerminal) (now : ℕ)
    (lane : StatusLane) : StatusLane :=
  match current with
  | none => lane
  | some terminal =>
    let cleared := { lane with lastProcessSnapshot := some EMPTY_DETECTION }
    match lane.engine with
    | none => cleared
    | some engine =>
      let exited := engine.processExited now
      let updated := { cleared with engine := some exited }
      if exited.snapshot = none then updated
      else
        updated.emitEvent
          { updated.toTerminalRecord terminal (some EMPTY_DETECTION) with status := .stopped }

/-- `terminal` is the one the sample was taken for, `current` the one listed now. -/
def observeProcessDetection (current : Option ManagedTerminal) (terminal : ManagedTerminal)
    (batch : ProcessDetectionBatch) (sampledAt : ℕ) (lane : StatusLane) : StatusLane :=
  let sampled := terminal.status = .running ∧ terminal.shellPid ≠ none
  -- Only terminals that run are asked for.
  let freshDetection := if sampled then batch.result else none
  let observed :=
    if sampled then
      let engine := lane.getStatusEngine current
      match batch.available, freshDetection with
      | true, some fresh =>
        { lane with
          engine := some (engine.sample fresh.agentProcesses fresh.hasChildProcess sampledAt) }
      | true, none => { lane with engine := some engine }
      | false, _ => { lane with engine := some (engine.unavailable sampledAt) }
    else lane
  match freshDetection with
  | some fresh => { observed with lastProcessSnapshot := some fresh }
  | none => observed

/-- A terminal that is gone leaves no sample behind. -/
def cleanUp (lane : StatusLane) : StatusLane :=
  if lane.lastRecord = none then lane
  else { lane with lastRecord := none, lastProcessSnapshot := none }

def diffAndEmitChanges (current : Option ManagedTerminal) (captured : Option ManagedTerminal)
    (batch : ProcessDetectionBatch) (sampledAt : ℕ) (lane : StatusLane) : StatusLane :=
  match captured with
  | none => lane.cleanUp
  | some terminal =>
    let observed := lane.observeProcessDetection current terminal batch sampledAt
    let record := observed.toTerminalRecord terminal observed.lastProcessSnapshot
    if observed.lastRecord = some record then observed
    else { observed with lastRecord := some record }.emitEvent record

/-- A sample of the process table is asked for. -/
def beginSample (kind : SampleKind) (current : Option ManagedTerminal) (lane : StatusLane) :
    StatusLane :=
  { lane with inFlight := lane.inFlight ++ [(kind, current)] }

/-- A sample in flight arrives. -/
def completeSample (index : ℕ) (current : Option ManagedTerminal)
    (batch : ProcessDetectionBatch) (sampledAt : ℕ) (lane : StatusLane) : StatusLane :=
  match lane.inFlight[index]? with
  | none => lane
  | some (kind, captured) =>
    let arrived := { lane with inFlight := lane.inFlight.eraseIdx index }
    match kind with
    | .detectionTick => arrived.diffAndEmitChanges current captured batch sampledAt
    | .listTerminals =>
      match captured with
      | none => arrived
      | some terminal => arrived.observeProcessDetection current terminal batch sampledAt

def setAgentStatusFromHook (current : Option ManagedTerminal) (report : AgentStatusReport)
    (now : ℕ) (lane : StatusLane) : StatusLane :=
  match current with
  | none => lane
  | some terminal =>
    let reported := { lane with engine := some ((lane.getStatusEngine current).report report now) }
    reported.emitEvent (reported.toTerminalRecord terminal reported.lastProcessSnapshot)

/-- The workspace of the terminal came into view or left it. -/
def setObservedWorkspaces (observed : Bool) (current : Option ManagedTerminal)
    (lane : StatusLane) : StatusLane :=
  let noted := { lane with observed := observed }
  match current, lane.engine with
  | some terminal, some engine =>
    let updated := { noted with engine := some (engine.setObserved observed) }
    if (engine.setObserved observed).snapshot.map AgentStatusSnapshot.seen =
        engine.snapshot.map AgentStatusSnapshot.seen then updated
    else updated.emitEvent (updated.toTerminalRecord terminal updated.lastProcessSnapshot)
  | _, _ => noted

end StatusLane

end Laborer.Terminal
