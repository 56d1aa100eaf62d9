import Laborer.AcpRuntime.ProcessSupervisor

/-!
# Prompts that wait for a generation

`runAgent` from its registration to its end, and the runs of a supervisor with its
prompts, its agents' reports and its finalizer in any order.
-/

namespace Laborer.AcpRuntime

open Library

/-! ## Calls -/

inductive PromptMove where
  | proceed
  /-- The agent of the generation fails. -/
  | fail (failure : HandlerFailure)
  | interrupt
deriving DecidableEq

namespace Supervisor

def modifyPrompt (index : Nat) (f : Prompt → Prompt) (s : Supervisor) : Supervisor :=
  { s with prompts := s.prompts.modify index f }

def setStage (index : Nat) (stage : PromptStage) (s : Supervisor) : Supervisor :=
  s.modifyPrompt index fun prompt => { prompt with stage := stage }

def registerQueuedConversation (conversationId : String) (s : Supervisor) : Supervisor :=
  if maxQueuedPrompts ≤ s.queuedPrompts then
    { s with
      prompts := s.prompts ++
        [{ conversationId := conversationId
           released := true
           stage := .finished (some queueAtCapacity) }] }
  else
    let count := (s.queuedConversationCounts.get? conversationId).getD 0
    { s with
      queuedConversationCounts := s.queuedConversationCounts.set conversationId (count + 1)
      queuedPrompts := s.queuedPrompts + 1
      prompts := s.prompts ++
        [{ conversationId := conversationId, released := false, stage := .queued }] }

/-- `release` of a registration, which acts once. -/
def release (index : Nat) (prompt : Prompt) (s : Supervisor) : Supervisor :=
  if prompt.released then s
  else
    let currentCount := (s.queuedConversationCounts.get? prompt.conversationId).getD 0
    modifyPrompt index (fun prompt => { prompt with released := true })
      { s with
        queuedPrompts := s.queuedPrompts - 1
        queuedConversationCounts :=
          if currentCount ≤ 1 then s.queuedConversationCounts.delete prompt.conversationId
          else s.queuedConversationCounts.set prompt.conversationId (currentCount - 1) }

def beginPrompt (prompt : Prompt) (s : Supervisor) : Supervisor :=
  { s with
    activePrompts := s.activePrompts + 1
    observedConversations :=
      if s.observedConversations.length < maxTrackedConversations then
        s.observedConversations.insert prompt.conversationId
      else s.observedConversations }

/-- The call gives back what it holds: its place among the active prompts and the permit of
`promptAdmission`. -/
def leave (index : Nat) (stage : PromptStage) (failure : Option HandlerFailure)
    (s : Supervisor) : Supervisor :=
  setStage index (.leaving failure)
    { s with
      activePrompts := if stage.isActive then s.activePrompts - 1 else s.activePrompts
      promptAdmission := if stage.isAdmitted then s.promptAdmission + 1 else s.promptAdmission }

/-- `awaitReady` on what it read under `stateGate`. -/
def awaitSelected (now : Nat) (current : Option Nat) (gate : Nat)
    (health : AcpWorkspaceProcessHealth) (index : Nat) (s : Supervisor) : Supervisor :=
  match current with
  | some generation =>
    if s.isAvailable generation then s.setStage index (.resolved generation)
    else s.setStage index (.awaitingRetired generation)
  | none =>
    if health = .circuitOpen ∨ health = .quarantined ∨ health = .stopped then
      s.leave index (.selected current gate health)
        (some (unavailable health (s.circuitRetryAfterMillis now)))
    else s.setStage index (.awaitingGate gate)

def promptStep (now index : Nat) (move : PromptMove) (s : Supervisor) : Supervisor :=
  match s.prompts[index]? with
  | none => s
  | some prompt =>
    match prompt.stage, move with
    | .finished _, _ => s
    | .leaving failure, _ => (s.release index prompt).setStage index (.finished failure)
    | stage, .interrupt => s.leave index stage none
    | .queued, _ =>
      -- `promptAdmission.withPermit` waits while the permit is out.
      if s.promptAdmission = 0 then s
      else { s.setStage index .admitted with promptAdmission := s.promptAdmission - 1 }
    | .admitted, _ => s.setStage index (.selected s.current s.readyGate s.durableState.health)
    | .selected current gate health, _ => s.awaitSelected now current gate health index
    | .awaitingRetired generation, _ =>
      if s.isRetired generation then s.setStage index .admitted else s
    | .awaitingGate gate, _ =>
      match s.gates.outcome? gate with
      | none => s
      | some (.ok generation) => s.setStage index (.resolved generation)
      | some (.error failure) => s.leave index prompt.stage (some failure)
    | .resolved generation, _ => (s.release index prompt).setStage index (.released generation)
    | .released generation, _ => (s.beginPrompt prompt).setStage index (.prompting generation)
    | .prompting generation, .fail failure => s.setStage index (.settling generation failure)
    | .prompting generation, .proceed => s.leave index (.prompting generation) none
    | .settling generation failure, _ =>
      s.leave index (.settling generation failure) (some failure)

end Supervisor

/-! ## Runs -/

/-- What happens next: a step of the loop or the finalizer, a report of an agent, a host
that shuts down, a call, or a step of one. -/
inductive SupervisorEvent where
  | supervise (around : Surroundings)
  | finalize (around : Surroundings)
  | observe (index : Nat) (observation : Observation)
  | requestShutdown
  | call (conversationId : String)
  | prompt (now index : Nat) (move : PromptMove)

def supervisorStep (options : Options) (event : SupervisorEvent) (s : Supervisor) : Supervisor :=
  match event with
  | .supervise around => s.supervise options around
  | .finalize around => s.finalize around
  | .observe index observation => s.observe index observation
  | .requestShutdown => { s with shutdownRequested := true }
  | .call conversationId => if s.isMade then s.registerQueuedConversation conversationId else s
  | .prompt now index move => s.promptStep now index move

end Laborer.AcpRuntime
