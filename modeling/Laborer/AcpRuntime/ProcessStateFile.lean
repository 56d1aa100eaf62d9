import Laborer.AcpRuntime.ProcessState
import Laborer.Library.Codecs

/-!
# The file of the process state

The state is kept as JSON. What is written meets the schema, which bounds its lists, and so
the text of a state is far below the limit of the file.
-/

namespace Laborer.AcpRuntime

open Library

/-! ## The names in the file -/

def AcpWorkspaceProcessHealth.name : AcpWorkspaceProcessHealth → String
  | .stopped => "stopped"
  | .starting => "starting"
  | .ready => "ready"
  | .restarting => "restarting"
  | .draining => "draining"
  | .circuitOpen => "circuit_open"
  | .quarantined => "quarantined"

def AcpProcessStopPhase.name : AcpProcessStopPhase → String
  | .startup => "startup"
  | .idle => "idle"
  | .prompt => "prompt"
  | .drain => "drain"

def AcpProcessStopCause.name : AcpProcessStopCause → String
  | .deadline => "deadline"
  | .expectedShutdown => "expected_shutdown"
  | .initializationFailed => "initialization_failed"
  | .processExit => "process_exit"
  | .protocolIncompatible => "protocol_incompatible"
  | .readinessFailed => "readiness_failed"
  | .spawnFailed => "spawn_failed"
  | .stateUnavailable => "state_unavailable"
  | .transportLost => "transport_lost"
  | .unknown => "unknown"

def AcpProcessCleanupOutcome.name : AcpProcessCleanupOutcome → String
  | .alreadyExited => "already_exited"
  | .completed => "completed"
  | .failed => "failed"
  | .kill => "kill"
  | .notAttempted => "not_attempted"
  | .term => "term"

def AcpGenerationFailureClassification.name : AcpGenerationFailureClassification → String
  | .deterministic => "deterministic"
  | .transient => "transient"

def stopSignals : List String :=
  ["SIGABRT", "SIGALRM", "SIGBUS", "SIGBREAK", "SIGCHLD", "SIGCONT", "SIGFPE", "SIGHUP", "SIGILL",
    "SIGINFO", "SIGINT", "SIGIO", "SIGIOT", "SIGKILL", "SIGLOST", "SIGPIPE", "SIGPOLL", "SIGPROF",
    "SIGPWR", "SIGQUIT", "SIGSEGV", "SIGSTKFLT", "SIGSTOP", "SIGSYS", "SIGTERM", "SIGTRAP",
    "SIGTSTP", "SIGTTIN", "SIGTTOU", "SIGURG", "SIGUNUSED", "SIGUSR1", "SIGUSR2", "SIGVTALRM",
    "SIGWINCH", "SIGXCPU", "SIGXFSZ"]

/-! ## The schemas -/

namespace Schemas

open Codec Properties

def health : Codec AcpWorkspaceProcessHealth :=
  literals AcpWorkspaceProcessHealth.name
    [.stopped, .starting, .ready, .restarting, .draining, .circuitOpen, .quarantined]
    fun a => by cases a <;> rfl

def stopPhase : Codec AcpProcessStopPhase :=
  literals AcpProcessStopPhase.name [.startup, .idle, .prompt, .drain] fun a => by cases a <;> rfl

def stopCause : Codec AcpProcessStopCause :=
  literals AcpProcessStopCause.name
    [.deadline, .expectedShutdown, .initializationFailed, .processExit, .protocolIncompatible,
      .readinessFailed, .spawnFailed, .stateUnavailable, .transportLost, .unknown]
    fun a => by cases a <;> rfl

def cleanupOutcome : Codec AcpProcessCleanupOutcome :=
  literals AcpProcessCleanupOutcome.name
    [.alreadyExited, .completed, .failed, .kill, .notAttempted, .term] fun a => by cases a <;> rfl

def classification : Codec AcpGenerationFailureClassification :=
  literals AcpGenerationFailureClassification.name [.deterministic, .transient]
    fun a => by cases a <;> rfl

/-- `Schema.Int.check(Schema.isGreaterThan(0))` -/
def positive : Codec ℕ := natural fun n => decide (0 < n)

/-- `Schema.Int.check(Schema.isGreaterThanOrEqualTo(0))` -/
def count : Codec ℕ := natural fun _ => true

def positiveOrNull : Codec (Option ℕ) := positive.nullOr fun _ h => by cases h

def countOrNull : Codec (Option ℕ) := count.nullOr fun _ h => by cases h

def stopRecord : Codec AcpProcessStopRecord :=
  object <|
    ((one "cause" stopCause).and
      ((one "cleanupOutcome" cleanupOutcome).and
        ((one "code" (integer.nullOr fun _ h => by cases h)).and
          ((one "expected" boolean).and
            ((one "generation" positive).and
              ((one "phase" stopPhase).and
                ((one "signal" ((oneOf stopSignals).nullOr fun _ h => by cases h)).and
                  (one "timestamp" count)
                  (by decide)) (by decide)) (by decide)) (by decide)) (by decide)) (by decide))
      (by decide)).map
      (fun (cause, cleanupOutcome, code, expected, generation, phase, signal, timestamp) =>
        { cause := cause
          cleanupOutcome := cleanupOutcome
          exit := { code := code, signal := signal }
          expected := expected
          generation := generation
          phase := phase
          timestamp := timestamp })
      (fun stop =>
        (stop.cause, stop.cleanupOutcome, stop.exit.code, stop.expected, stop.generation,
          stop.phase,
          stop.exit.signal, stop.timestamp))
      fun _ => rfl

def transition : Codec AcpProcessTransition :=
  object <|
    ((one "generation" positiveOrNull).and
      ((one "health" health).and (one "timestamp" count) (by decide)) (by decide)).map
      (fun (generation, health, timestamp) =>
        { generation := generation, health := health, timestamp := timestamp })
      (fun transition => (transition.generation, transition.health, transition.timestamp))
      fun _ => rfl

def failureRecord : Codec AcpProcessFailureRecord :=
  object <|
    ((one "cause" stopCause).and
      ((one "classification" classification).and
        ((one "generation" positive).and (one "timestamp" count) (by decide)) (by decide))
      (by decide)).map
      (fun (cause, classification, generation, timestamp) =>
        { cause := cause
          classification := classification
          generation := generation
          timestamp := timestamp })
      (fun failure =>
        (failure.cause, failure.classification, failure.generation, failure.timestamp))
      fun _ => rfl

def processState : Codec AcpProcessState :=
  object <|
    ((one "activeGeneration" positiveOrNull).and
      ((one "circuitCooldownMillis" positive).and
        ((one "circuitOpenedAt" countOrNull).and
          ((one "consecutiveFailures" count).and
            ((one "failures" (failureRecord.atMost maxFailures)).and
              ((one "halfOpen" boolean).and
                ((one "health" health).and
                  ((one "lastStop" (stopRecord.nullOr fun _ h => by cases h)).and
                    ((one "nextGeneration" positive).and
                      ((one "readySince" countOrNull).and
                        ((one "restartEpisodeStartedAt" countOrNull).and
                          ((constant "schemaVersion" count 1 rfl (fun n => n == 1) rfl).and
                            (one "transitions" (transition.atMost maxTransitions))
                            (by decide)) (by decide)) (by decide)) (by decide)) (by decide))
                  (by decide)) (by decide)) (by decide)) (by decide)) (by decide)) (by decide))
      (by decide)).map
      (fun (activeGeneration, circuitCooldownMillis, circuitOpenedAt, consecutiveFailures, failures,
          halfOpen, health, lastStop, nextGeneration, readySince, restartEpisodeStartedAt, _,
          transitions) =>
        { activeGeneration := activeGeneration
          circuitCooldownMillis := circuitCooldownMillis
          circuitOpenedAt := circuitOpenedAt
          consecutiveFailures := consecutiveFailures
          failures := failures
          halfOpen := halfOpen
          health := health
          lastStop := lastStop
          nextGeneration := nextGeneration
          readySince := readySince
          restartEpisodeStartedAt := restartEpisodeStartedAt
          transitions := transitions })
      (fun state =>
        (state.activeGeneration, state.circuitCooldownMillis, state.circuitOpenedAt,
          state.consecutiveFailures, state.failures, state.halfOpen, state.health, state.lastStop,
          state.nextGeneration, state.readySince, state.restartEpisodeStartedAt, (),
          state.transitions))
      fun _ => rfl

/-! ## How long the texts are -/

theorem within_health : health.Within 14 :=
  within_literals _ (by decide)

theorem within_positiveOrNull : positiveOrNull.Within 16 :=
  (within_natural _).nullOr (by decide) _

theorem within_countOrNull : countOrNull.Within 16 :=
  (within_natural _).nullOr (by decide) _

theorem within_stopCause : stopCause.Within 23 :=
  within_literals _ (by decide)

theorem within_stopRecord : stopRecord.Within 300 := by
  have hoption : (integer.nullOr fun _ h => by cases h).Within 17 :=
    within_integer.nullOr (by decide) _
  have hsignal : ((oneOf stopSignals).nullOr fun _ h => by cases h).Within 11 :=
    (within_oneOf (by decide)).nullOr (by decide) _
  have hphase : stopPhase.Within 9 := within_literals _ (by decide)
  have hcleanup : cleanupOutcome.Within 17 := within_literals _ (by decide)
  have hproperties := (within_one "cause" within_stopCause).and
    ((within_one "cleanupOutcome" hcleanup).and ((within_one "code" hoption).and
        ((within_one "expected" within_boolean).and
          ((within_one "generation" (within_natural fun n => decide (0 < n))).and
            ((within_one "phase" hphase).and ((within_one "signal" hsignal).and
                (within_one "timestamp" (within_natural fun _ => true))
                (by decide)) (by decide)) (by decide)) (by decide)) (by decide)) (by decide))
    (by decide)
  exact (hproperties.map _).object.mono (by decide)

theorem within_transition : transition.Within 100 := by
  have hproperties := (within_one "generation" within_positiveOrNull).and
    ((within_one "health" within_health).and
      (within_one "timestamp" (within_natural fun _ => true)) (by decide)) (by decide)
  exact (hproperties.map _).object.mono (by decide)

theorem within_failureRecord : failureRecord.Within 150 := by
  have hclassification : classification.Within 15 := within_literals _ (by decide)
  have hproperties := (within_one "cause" within_stopCause).and
    ((within_one "classification" hclassification).and
      ((within_one "generation" (within_natural fun n => decide (0 < n))).and
        (within_one "timestamp" (within_natural fun _ => true)) (by decide)) (by decide))
    (by decide)
  exact (hproperties.map _).object.mono (by decide)

/-- **A state takes little of what its file may hold.** -/
theorem within_processState : processState.Within 13000 := by
  have hcount := within_natural fun _ => true
  have hpositive := within_natural fun n => decide (0 < n)
  have hstop : (stopRecord.nullOr fun _ h => by cases h).Within 300 :=
    within_stopRecord.nullOr (by decide) _
  have hproperties := (within_one "activeGeneration" within_positiveOrNull).and
    ((within_one "circuitCooldownMillis" hpositive).and
      ((within_one "circuitOpenedAt" within_countOrNull).and
        ((within_one "consecutiveFailures" hcount).and
          ((within_one "failures" (within_failureRecord.atMost maxFailures)).and
            ((within_one "halfOpen" within_boolean).and ((within_one "health" within_health).and
                ((within_one "lastStop" hstop).and ((within_one "nextGeneration" hpositive).and
                    ((within_one "readySince" within_countOrNull).and
                      ((within_one "restartEpisodeStartedAt" within_countOrNull).and
                        ((within_constant "schemaVersion" 1 rfl (fun n => n == 1) rfl hcount).and
                          (within_one "transitions" (within_transition.atMost maxTransitions))
                          (by decide)) (by decide)) (by decide)) (by decide)) (by decide))
                (by decide)) (by decide)) (by decide)) (by decide)) (by decide)) (by decide))
    (by decide)
  exact (hproperties.map _).object.mono (by decide)

end Schemas

/-! ## Reading and writing -/

def maxProcessStateBytes : ℕ := 256 * 1024

/-- `AcpProcessState.make`, which throws where a field does not meet the schema. -/
def AcpProcessState.make (state : AcpProcessState) : Option AcpProcessState :=
  if Schemas.processState.valid state then some state else none

/-- `readState`, of a file that holds the JSON text of a value, or that is missing. -/
def readState (file : Option JsValue) : Option AcpProcessState :=
  match file with
  | none => some initialAcpProcessState
  | some source =>
    if maxProcessStateBytes < textBytes source then none
    else source.reread.bind Schemas.processState.decode

def serialized (state : AcpProcessState) : Option JsValue :=
  if maxProcessStateBytes < textBytes (Schemas.processState.encode state) then none
  else some (Schemas.processState.encode state)

variable {state : AcpProcessState}

theorem textBytes_le_of_valid (h : Schemas.processState.valid state = true) :
    textBytes (Schemas.processState.encode state) ≤ maxProcessStateBytes :=
  (Schemas.within_processState state h).trans (by decide)

theorem serialized_of_valid (h : Schemas.processState.valid state = true) :
    serialized state = some (Schemas.processState.encode state) :=
  if_neg (not_lt.mpr (textBytes_le_of_valid h))

/-- **What is written is read again.** -/
theorem readState_serialized (h : Schemas.processState.valid state = true) :
    readState (serialized state) = some state := by
  rw [serialized_of_valid h, readState, if_neg (not_lt.mpr (textBytes_le_of_valid h)),
    JsValue.reread_of_isPlain (Schemas.processState.plain state), Option.bind_some,
    Schemas.processState.decode_encode state h]

theorem valid_initial : Schemas.processState.valid initialAcpProcessState = true := by
  decide

theorem make_eq_some {made : AcpProcessState} :
    state.make = some made ↔ Schemas.processState.valid state = true ∧ state = made := by
  rw [AcpProcessState.make]
  split
  · next h => simp [h]
  · next h => simp [h]

end Laborer.AcpRuntime
