import Mathlib.Algebra.Group.Nat.Even
import Mathlib.Data.List.Basic

/-!
# The stored state of an ACP process

What the repository keeps about a workspace's agent process from one host to the next,
and the updates of it that the supervisor asks for.
-/

namespace Laborer.AcpRuntime

/-! ## Bounded histories -/

/-- A history of which the last `bound` entries are kept. -/
abbrev Retained (α : Type) (bound : Nat) := { entries : List α // entries.length ≤ bound }

namespace Retained

variable {α : Type} {bound : Nat}

def empty : Retained α bound := ⟨[], Nat.zero_le bound⟩

theorem length_drop_le (entries : List α) :
    (entries.drop (entries.length - bound)).length ≤ bound := by
  rw [List.length_drop]
  omega

/-- `[...entries, entry].slice(-bound)` -/
def push (retained : Retained α bound) (entry : α) : Retained α bound :=
  ⟨(retained.val ++ [entry]).drop ((retained.val ++ [entry]).length - bound), length_drop_le _⟩

end Retained

/-! ## The state -/

inductive AcpWorkspaceProcessHealth where
  | stopped
  | starting
  | ready
  | restarting
  | draining
  | circuitOpen
  | quarantined
deriving DecidableEq

inductive AcpProcessStopPhase where
  | startup
  | idle
  | prompt
  | drain

inductive AcpProcessStopCause where
  | deadline
  | expectedShutdown
  | initializationFailed
  | processExit
  | protocolIncompatible
  | readinessFailed
  | spawnFailed
  | stateUnavailable
  | transportLost
  | unknown

inductive AcpProcessCleanupOutcome where
  | alreadyExited
  | completed
  | failed
  | kill
  | notAttempted
  | term
deriving DecidableEq

inductive AcpGenerationFailureClassification where
  | deterministic
  | transient
deriving DecidableEq

structure AcpGenerationExit where
  code : Option Int
  signal : Option String

structure AcpProcessStopRecord where
  cause : AcpProcessStopCause
  cleanupOutcome : AcpProcessCleanupOutcome
  exit : AcpGenerationExit
  expected : Bool
  generation : Nat
  phase : AcpProcessStopPhase
  timestamp : Nat

structure AcpProcessTransition where
  generation : Option Nat
  health : AcpWorkspaceProcessHealth
  timestamp : Nat

structure AcpProcessFailureRecord where
  cause : AcpProcessStopCause
  classification : AcpGenerationFailureClassification
  generation : Nat
  timestamp : Nat

def maxTransitions : Nat := 64

def maxFailures : Nat := 32

/-- Times and durations are in milliseconds. -/
structure AcpProcessState where
  activeGeneration : Option Nat
  circuitCooldownMillis : Nat
  circuitOpenedAt : Option Nat
  consecutiveFailures : Nat
  failures : Retained AcpProcessFailureRecord maxFailures
  halfOpen : Bool
  health : AcpWorkspaceProcessHealth
  lastStop : Option AcpProcessStopRecord
  nextGeneration : Nat
  readySince : Option Nat
  restartEpisodeStartedAt : Option Nat
  transitions : Retained AcpProcessTransition maxTransitions

def initialAcpProcessState : AcpProcessState where
  activeGeneration := none
  circuitCooldownMillis := 5 * 60 * 1000
  circuitOpenedAt := none
  consecutiveFailures := 0
  failures := .empty
  halfOpen := false
  health := .stopped
  lastStop := none
  nextGeneration := 1
  readySince := none
  restartEpisodeStartedAt := none
  transitions := .empty

/-! ## Updates -/

structure ProcessStateChange where
  activeGeneration : Option (Option Nat) := none
  circuitCooldownMillis : Option Nat := none
  circuitOpenedAt : Option (Option Nat) := none
  consecutiveFailures : Option Nat := none
  halfOpen : Option Bool := none
  health : AcpWorkspaceProcessHealth
  readySince : Option (Option Nat) := none
  restartEpisodeStartedAt : Option (Option Nat) := none
  timestamp : Nat

namespace AcpProcessState

def transition (change : ProcessStateChange) (state : AcpProcessState) : AcpProcessState :=
  let activeGeneration := change.activeGeneration.getD state.activeGeneration
  { state with
    activeGeneration := activeGeneration
    circuitCooldownMillis := change.circuitCooldownMillis.getD state.circuitCooldownMillis
    circuitOpenedAt := change.circuitOpenedAt.getD state.circuitOpenedAt
    consecutiveFailures := change.consecutiveFailures.getD state.consecutiveFailures
    halfOpen := change.halfOpen.getD state.halfOpen
    health := change.health
    readySince := change.readySince.getD state.readySince
    restartEpisodeStartedAt := change.restartEpisodeStartedAt.getD state.restartEpisodeStartedAt
    transitions := state.transitions.push
      { generation := activeGeneration, health := change.health, timestamp := change.timestamp } }

def recordFailure (failure : AcpProcessFailureRecord) (state : AcpProcessState) :
    AcpProcessState :=
  { state with
    consecutiveFailures := state.consecutiveFailures + 1
    failures := state.failures.push failure }

def recordStop (stop : AcpProcessStopRecord) (state : AcpProcessState) : AcpProcessState :=
  { state with lastStop := some stop }

/-- The generation that `reserveGeneration` returns is the `nextGeneration` before it. -/
def reserveGeneration (timestamp : Nat) (state : AcpProcessState) : AcpProcessState :=
  { state with
    activeGeneration := some state.nextGeneration
    health := .starting
    nextGeneration := state.nextGeneration + 1
    readySince := none
    transitions := state.transitions.push
      { generation := some state.nextGeneration, health := .starting, timestamp := timestamp } }

end AcpProcessState

end Laborer.AcpRuntime
