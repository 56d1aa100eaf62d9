import Laborer.AcpRuntime.RunAgent

/-!
# The gate that prompts wait at

Which gate and which generation a prompt may wait for, and when nobody completes them any
more.
-/

namespace Laborer.AcpRuntime

open Library List Bool

/-! ## What the loop still completes -/

namespace Supervision

def current? : Supervision → Option Nat
  | .awaitingLoss index _ | .retiring index (some _) => some index
  | _ => none

/-- The generation that prompts may have found and the loop has yet to retire. -/
def generation? : Supervision → Option Nat
  | .awaitingLoss index _ | .retiring index _ => some index
  | .retired retirement => some retirement.index
  | .claimed claim | .recordingDefect claim _ | .publishingDefect claim _
  | .settlingRetired claim => claim.retiring
  | _ => none

/-- The generation whose variables the loop refers to. -/
def index? : Supervision → Option Nat
  | .acquiring index | .publishingReady index _ | .exposing index _ | .awaitingLoss index _
  | .retiring index _ => some index
  | .retired retirement => some retirement.index
  | .claimed claim | .recordingDefect claim _ | .publishingDefect claim _
  | .settlingRetired claim => claim.retiring
  | _ => none

/-- The gate that the handler of a defect still has to fail. -/
def claimedGate? : Supervision → Option Nat
  | .claimed claim | .recordingDefect claim _ | .publishingDefect claim _
  | .settlingRetired claim | .settlingGate claim => some claim.readyGate
  | _ => none

/-- The ready gate is completed and not replaced yet. -/
def gateCompleted : Supervision → Bool
  | .awaitingLoss .. | .retiring _ (some _) | .cooling | .quarantined => true
  | _ => false

def neverReady : Supervision → Bool
  | .retiring _ none => true
  | _ => false

/-- A generation is ready, or the loop has made the workspace unavailable. -/
def isDecided : Supervision → Bool
  | .awaitingLoss .. | .cooling | .quarantined => true
  | _ => false

/-- The loop is at work, with no generation to retire and the gate still open. -/
def isQuiet : Supervision → Bool
  | .awaitingLoss .. | .retiring .. | .retired _ | .cooling | .quarantined | .claimed _
  | .recordingDefect .. | .publishingDefect .. | .settlingRetired _ | .settlingGate _
  | .interrupted => false
  | _ => true

variable {supervision : Supervision}

theorem current?_of_isQuiet (h : supervision.isQuiet) : supervision.current? = none := by
  cases supervision <;> first | rfl | cases h

theorem generation?_of_isQuiet (h : supervision.isQuiet) : supervision.generation? = none := by
  cases supervision <;> first | rfl | cases h

theorem claimedGate?_of_isQuiet (h : supervision.isQuiet) : supervision.claimedGate? = none := by
  cases supervision <;> first | rfl | cases h

theorem gateCompleted_of_isQuiet (h : supervision.isQuiet) : supervision.gateCompleted = false := by
  cases supervision <;> first | rfl | cases h

theorem gateCompleted_of_isDecided (h : supervision.isDecided) :
    supervision.gateCompleted = true := by
  cases supervision <;> first | rfl | cases h

theorem isQuiet_afterStop {retirement : Retirement} :
    (Supervisor.afterStop retirement).isQuiet = true := by
  unfold Supervisor.afterStop
  split
  · rfl
  · split <;> rfl

theorem index?_afterStop {retirement : Retirement} :
    (Supervisor.afterStop retirement).index? = none := by
  unfold Supervisor.afterStop
  split
  · rfl
  · split <;> rfl

theorem isQuiet_afterFailure {options : Options} {stoppedAt : Nat} {state : AcpProcessState}
    {classification : AcpGenerationFailureClassification} :
    (Supervisor.afterFailure options classification stoppedAt state).isQuiet = true := by
  unfold Supervisor.afterFailure
  split
  · rfl
  · split <;> rfl

theorem index?_afterFailure {options : Options} {stoppedAt : Nat} {state : AcpProcessState}
    {classification : AcpGenerationFailureClassification} :
    (Supervisor.afterFailure options classification stoppedAt state).index? = none := by
  unfold Supervisor.afterFailure
  split
  · rfl
  · split <;> rfl

end Supervision

/-- A health on which `awaitReady` fails instead of waiting. -/
def AcpWorkspaceProcessHealth.isUnavailable (health : AcpWorkspaceProcessHealth) : Prop :=
  health = .circuitOpen ∨ health = .quarantined ∨ health = .stopped

instance (health : AcpWorkspaceProcessHealth) : Decidable health.isUnavailable :=
  inferInstanceAs (Decidable (_ ∨ _ ∨ _))

/-- The finalizer is about to interrupt the loop. -/
def Finalization.interrupts : Finalization → Bool
  | .interrupting .. => true
  | _ => false

namespace PromptStage

/-- The gate that the prompt waits at, or has read and is about to wait at. -/
def awaitedGate? : PromptStage → Option Nat
  | .awaitingGate gate => some gate
  | .selected none gate health => if health.isUnavailable then none else some gate
  | _ => none

def awaitedRetirement? : PromptStage → Option Nat
  | .awaitingRetired index => some index
  | _ => none

/-- The current generation as the prompt has read it. -/
def selectedGeneration? : PromptStage → Option Nat
  | .selected current _ _ => current
  | _ => none

end PromptStage

namespace Supervisor

def isInterrupted (s : Supervisor) : Bool :=
  match s.finalization with
  | .waiting | .interrupting .. => false
  | _ => true

/-- A generation is ready, or the workspace is unavailable: with an open circuit,
quarantined or stopped. -/
def isDecided (s : Supervisor) : Bool :=
  s.supervision.isDecided || s.finalization = .finished

/-- Every prompt that is blocked in `awaitReady` is blocked at the ready gate or on the
retirement of the loop's generation, and none is blocked at a gate once a generation is
ready or the workspace is unavailable. -/
structure ServesPrompts (s : Supervisor) : Prop where
  gate : ∀ prompt ∈ s.prompts, ∀ gate, prompt.stage = .awaitingGate gate →
    s.gates.Pending gate → gate = s.readyGate
  retirement : ∀ prompt ∈ s.prompts, ∀ index, prompt.stage = .awaitingRetired index →
    s.isRetired index = false → s.supervision.generation? = some index
  decided : s.isDecided = true → ∀ prompt ∈ s.prompts, ∀ gate,
    prompt.stage = .awaitingGate gate → ¬ s.gates.Pending gate

/-! ## The invariant -/

/-- What a prompt has read of the supervisor is what the supervisor still completes, or has
completed. -/
def StageOk (s : Supervisor) : PromptStage → Prop
  | .awaitingGate gate => s.gates.Pending gate → gate = s.readyGate
  | .selected none gate health =>
    ¬ health.isUnavailable → s.gates.Pending gate → gate = s.readyGate
  | .selected (some index) _ _ =>
    s.isRetired index ∨ s.supervision.generation? = some index ∨ s.supervision = .interrupted
  | .awaitingRetired index => s.isRetired index ∨ s.supervision.generation? = some index
  | _ => True

structure Ok (s : Supervisor) : Prop where
  readyGate : s.readyGate < s.gates.length
  completed : s.supervision.gateCompleted = true → ¬ s.gates.Pending s.readyGate
  finished : s.finalization = .finished → ¬ s.gates.Pending s.readyGate
  interrupted : s.isInterrupted = true ↔ s.supervision = .interrupted
  current : s.supervision = .interrupted ∨ s.current = s.supervision.current?
  claimed : ∀ gate ∈ s.supervision.claimedGate?, gate = s.readyGate
  indexed : ∀ index ∈ s.supervision.index?, index < s.generations.length
  prompts : ∀ prompt ∈ s.prompts, s.StageOk prompt.stage

theorem ok_makeSupervisor (options : Options) (stored : AcpProcessState) (loads : Bool) :
    (makeSupervisor options stored loads).Ok where
  readyGate := Nat.zero_lt_one
  completed h := by cases h
  finished h := by cases h
  interrupted := ⟨nofun, nofun⟩
  current := .inr rfl
  claimed gate h := by cases h
  indexed index h := by cases h
  prompts prompt h := by cases h

theorem Ok.servesPrompts {s : Supervisor} (h : s.Ok) : s.ServesPrompts where
  gate prompt hprompt gate hstage := by
    have hok := h.prompts prompt hprompt
    rw [hstage] at hok
    exact hok
  retirement prompt hprompt index hstage hretired := by
    have hok := h.prompts prompt hprompt
    rw [hstage] at hok
    rcases hok with hok | hok
    · rw [hretired] at hok
      cases hok
    · exact hok
  decided hdecided prompt hprompt gate hstage hpending := by
    have hok := h.prompts prompt hprompt
    rw [hstage] at hok
    have hgate : gate = s.readyGate := hok hpending
    rw [hgate] at hpending
    rcases (or_eq_true _ _).mp hdecided with hdecided | hdecided
    · exact h.completed (Supervision.gateCompleted_of_isDecided hdecided) hpending
    · exact h.finished (of_decide_eq_true hdecided) hpending

variable {s s' : Supervisor} {options : Options} {around : Surroundings} {stored : AcpProcessState}
  {next : Supervision} {index : Nat} {health : AcpWorkspaceProcessHealth} {claim : Claim}

/-- A prompt keeps what it may wait for while the supervisor keeps the gate it may wait at,
and retires no generation without saying so. -/
theorem StageOk.mono {stage : PromptStage} (h : s.StageOk stage)
    (hgates : ∀ gate, stage.awaitedGate? = some gate → s'.gates.Pending gate →
      s.gates.Pending gate ∧ (gate = s.readyGate → gate = s'.readyGate))
    (hretired : ∀ index, s.isRetired index → s'.isRetired index)
    (hgeneration : ∀ index, s.supervision.generation? = some index →
      s'.isRetired index ∨ s'.supervision.generation? = some index)
    (hinterrupted : s.supervision = .interrupted → s'.supervision = .interrupted) :
    s'.StageOk stage := by
  cases stage with
  | awaitingGate gate =>
    intro hpending
    obtain ⟨hpending, hready⟩ := hgates gate rfl hpending
    exact hready (h hpending)
  | awaitingRetired index =>
    rcases h with h | h
    · exact .inl (hretired index h)
    · exact hgeneration index h
  | selected current gate health =>
    cases current with
    | none =>
      intro hhealth hpending
      obtain ⟨hpending, hready⟩ := hgates gate (if_neg hhealth) hpending
      exact hready (h hhealth hpending)
    | some index =>
      rcases h with h | h | h
      · exact .inl (hretired index h)
      · rcases hgeneration index h with h | h
        · exact .inl h
        · exact .inr (.inl h)
      · exact .inr (.inr (hinterrupted h))
  | _ => trivial

/-- The loop goes on, and what it no longer completes no prompt waits for. -/
theorem Ok.advance (h : s.Ok) (hactive : s.supervision ≠ .interrupted)
    (hactive' : s'.supervision ≠ .interrupted) (hfinalization : s'.finalization = s.finalization)
    (hready : s'.readyGate < s'.gates.length)
    (hcompleted : s'.supervision.gateCompleted = true → ¬ s'.gates.Pending s'.readyGate)
    (hcurrent : s'.current = s'.supervision.current?)
    (hclaimed : ∀ gate ∈ s'.supervision.claimedGate?, gate = s'.readyGate)
    (hindexed : ∀ index ∈ s'.supervision.index?, index < s'.generations.length)
    (hprompts : ∀ prompt ∈ s'.prompts, s'.StageOk prompt.stage) : s'.Ok := by
  have hwaiting : s.isInterrupted = false := by
    rw [← not_eq_true, h.interrupted]
    exact hactive
  have hwaiting' : s'.isInterrupted = false := by
    unfold isInterrupted at hwaiting ⊢
    rwa [hfinalization]
  refine ⟨hready, hcompleted, ?_, ?_, .inr hcurrent, hclaimed, hindexed, hprompts⟩
  · intro hfinished
    unfold isInterrupted at hwaiting'
    rw [hfinished] at hwaiting'
    cases hwaiting'
  · rw [hwaiting']
    exact ⟨nofun, fun heq => absurd heq hactive'⟩

/-! ## The quiet steps of the loop -/

/-- What most steps of the loop leave as it is. -/
structure QuietStep (s s' : Supervisor) : Prop where
  gates : s'.gates = s.gates
  readyGate : s'.readyGate = s.readyGate
  current : s'.current = s.current
  prompts : s'.prompts = s.prompts
  finalization : s'.finalization = s.finalization
  generations : s.generations.length ≤ s'.generations.length
  retired : ∀ index, s.isRetired index → s'.isRetired index
  quiet : s'.supervision.isQuiet
  indexed : ∀ index ∈ s'.supervision.index?,
    s.supervision.index? = some index ∨ index < s'.generations.length

theorem ne_interrupted_of_isQuiet {supervision : Supervision} (h : supervision.isQuiet) :
    supervision ≠ .interrupted := by
  intro heq
  rw [heq] at h
  cases h

theorem ne_interrupted_of_eq (h : s.supervision = next) (hnext : next ≠ .interrupted) :
    s.supervision ≠ .interrupted := by
  rw [h]
  exact hnext

theorem Ok.quiet (h : s.Ok) (hquiet : s.supervision.isQuiet) (hstep : QuietStep s s') : s'.Ok := by
  have hcurrent : s.current = none := by
    rcases h.current with hcurrent | hcurrent
    · exact absurd hcurrent (ne_interrupted_of_isQuiet hquiet)
    · rw [hcurrent, Supervision.current?_of_isQuiet hquiet]
  apply h.advance (ne_interrupted_of_isQuiet hquiet) (ne_interrupted_of_isQuiet hstep.quiet)
    hstep.finalization
  · rw [hstep.readyGate, hstep.gates]
    exact h.readyGate
  · intro hcompleted
    rw [Supervision.gateCompleted_of_isQuiet hstep.quiet] at hcompleted
    cases hcompleted
  · rw [hstep.current, hcurrent, Supervision.current?_of_isQuiet hstep.quiet]
  · rw [Supervision.claimedGate?_of_isQuiet hstep.quiet]
    intro gate hgate
    cases hgate
  · intro index hindex
    rcases hstep.indexed index hindex with hindex | hlt
    · exact Nat.lt_of_lt_of_le (h.indexed index hindex) hstep.generations
    · exact hlt
  · intro prompt hprompt
    rw [hstep.prompts] at hprompt
    apply (h.prompts prompt hprompt).mono
    · intro gate _ hpending
      rw [hstep.gates] at hpending
      rw [hstep.readyGate]
      exact ⟨hpending, id⟩
    · exact hstep.retired
    · intro index hindex
      rw [Supervision.generation?_of_isQuiet hquiet] at hindex
      cases hindex
    · exact fun heq => absurd heq (ne_interrupted_of_isQuiet hquiet)

theorem QuietStep.become {supervision : Supervision} {durableState : AcpProcessState}
    (hquiet : supervision.isQuiet)
    (hindexed : supervision.index? = none ∨ supervision.index? = s.supervision.index?) :
    QuietStep s { s with
      stored := stored, durableState := durableState, supervision := supervision } := by
  refine ⟨rfl, rfl, rfl, rfl, rfl, Nat.le_refl _, fun _ h => h, hquiet, ?_⟩
  intro index hindex
  rcases hindexed with hnone | heq
  · rw [hnone] at hindex
    cases hindex
  · exact .inl (heq ▸ hindex)

theorem QuietStep.ask {update : AcpProcessState → AcpProcessState}
    {answered : AcpProcessState → Supervisor → Supervisor}
    (hanswered : ∀ state, QuietStep s (answered state { s with stored := state })) :
    QuietStep s (s.ask around update answered) := by
  unfold Supervisor.ask
  split
  · exact hanswered (update s.stored)
  · exact .become rfl (.inl rfl)
  · exact .become rfl (.inl rfl)

theorem QuietStep.publishHealth {change : ProcessStateChange} (hnext : next.isQuiet)
    (hindexed : next.index? = none ∨ next.index? = s.supervision.index?) :
    QuietStep s (s.publishHealth around change next) :=
  .ask fun _ => .become hnext hindexed

theorem QuietStep.resume : QuietStep s (s.resume around) := by
  have hrestart : QuietStep s { s with supervision := .publishingRestart around.now } :=
    .become rfl (.inl rfl)
  unfold Supervisor.resume
  split
  case h_5 => exact .become rfl (.inl rfl)
  all_goals
    split
    · exact hrestart
    · exact .ask fun _ => .become rfl (.inl rfl)

theorem QuietStep.loop : QuietStep s (s.loop options around) := by
  unfold Supervisor.loop
  split
  · exact .become rfl (.inl rfl)
  · split
    · exact .publishHealth rfl (.inl rfl)
    · exact .become rfl (.inl rfl)

theorem isRetired_append {generation : Generation} (h : s.isRetired index) :
    (s.generations ++ [generation])[index]?.any (·.retired) = true := by
  have hlt : index < s.generations.length := by
    by_contra hle
    unfold isRetired generation? at h
    rw [getElem?_eq_none (Nat.le_of_not_lt hle)] at h
    cases h
  rw [getElem?_append_left hlt]
  exact h

theorem QuietStep.load (generation : Nat) : QuietStep s (s.load around generation) := by
  apply QuietStep.ask
  intro state
  refine ⟨rfl, rfl, rfl, rfl, rfl, ?_, fun _ h => isRetired_append h, rfl, ?_⟩
  · exact Nat.le_of_lt (by simp)
  · intro index hindex
    cases hindex
    exact .inr (by simp)

theorem QuietStep.recordStop (retirement : Retirement) (cleanupFailed : Bool) :
    QuietStep s (s.recordStop around retirement cleanupFailed) := by
  unfold Supervisor.recordStop
  split
  · exact .become rfl (.inl rfl)
  · exact .ask fun _ =>
      .become Supervision.isQuiet_afterStop (.inl Supervision.index?_afterStop)

theorem QuietStep.recordFailure (retirement : Retirement) :
    QuietStep s (s.recordFailure options around retirement) := by
  unfold Supervisor.recordFailure
  split
  · exact .become rfl (.inl rfl)
  · exact .ask fun _ =>
      .become Supervision.isQuiet_afterFailure (.inl Supervision.index?_afterFailure)

/-! ## The steps that complete or replace the gate -/

@[simp] theorem isRetired_modifyGeneration {f : Generation → Generation}
    (hf : ∀ generation, (f generation).retired = generation.retired) (index other : Nat) :
    (s.modifyGeneration index f).isRetired other = s.isRetired other := by
  unfold isRetired generation? modifyGeneration
  simp only [getElem?_modify]
  cases s.generations[other]? with
  | none => rfl
  | some generation =>
    by_cases heq : index = other
    · simp [heq, hf]
    · simp [heq]

theorem isRetired_succeedRetired (index : Nat) {other : Nat} (h : s.isRetired other) :
    (s.succeedRetired index).isRetired other := by
  unfold isRetired generation? succeedRetired modifyGeneration at *
  simp only [getElem?_modify]
  cases hother : s.generations[other]? with
  | none =>
    rw [hother] at h
    cases h
  | some generation =>
    rw [hother] at h
    by_cases heq : index = other
    · simp [heq]
    · simpa [heq] using h

theorem isRetired_succeedRetired_self (h : index < s.generations.length) :
    (s.succeedRetired index).isRetired index := by
  unfold isRetired generation? succeedRetired modifyGeneration
  simp [h]

section

variable (h : s.Ok)
include h

theorem Ok.prompts_of_complete {gate : Nat} {outcome : Except HandlerFailure Nat}
    (hgates : s'.gates = s.gates.complete gate outcome) (hready : s'.readyGate = s.readyGate)
    (hretired : ∀ index, s.isRetired index → s'.isRetired index)
    (hgeneration : ∀ index, s.supervision.generation? = some index →
      s'.isRetired index ∨ s'.supervision.generation? = some index)
    (hactive : s.supervision ≠ .interrupted) : ∀ prompt ∈ s.prompts, s'.StageOk prompt.stage := by
  intro prompt hprompt
  apply (h.prompts prompt hprompt).mono _ hretired hgeneration
  · exact fun heq => absurd heq hactive
  · intro other _ hpending
    rw [hgates] at hpending
    rw [hready]
    exact ⟨Deferreds.pending_of_pending_complete hpending, id⟩

theorem Ok.completeReadyGate (hquiet : s.supervision.isQuiet)
    {outcome : Except HandlerFailure Nat} {initialOutcome : Option InitialOutcome}
    {current : Option Nat} (hactive : next ≠ .interrupted)
    (hcurrent : current = next.current?) (hclaimed : next.claimedGate? = none)
    (hindexed : ∀ index ∈ next.index?, s.supervision.index? = some index) :
    Ok { s with
      gates := s.gates.complete s.readyGate outcome
      initialOutcome := initialOutcome
      current := current
      supervision := next } := by
  apply h.advance (ne_interrupted_of_isQuiet hquiet) hactive (by rfl)
  · show s.readyGate < (s.gates.complete _ _).length
    rw [Deferreds.length_complete]
    exact h.readyGate
  · exact fun _ => Deferreds.not_pending_complete h.readyGate outcome
  · exact hcurrent
  · intro gate hgate
    rw [show next.claimedGate? = none from hclaimed] at hgate
    cases hgate
  · exact fun index hindex => h.indexed index (hindexed index hindex)
  · apply h.prompts_of_complete (by rfl) (by rfl)
    · exact fun _ hretired => hretired
    · intro index hindex
      rw [Supervision.generation?_of_isQuiet hquiet] at hindex
      cases hindex
    · exact ne_interrupted_of_isQuiet hquiet

theorem Ok.current_of_isQuiet (hquiet : s.supervision.isQuiet) : s.current = none := by
  rcases h.current with hcurrent | hcurrent
  · exact absurd hcurrent (ne_interrupted_of_isQuiet hquiet)
  · rw [hcurrent, Supervision.current?_of_isQuiet hquiet]

theorem Ok.start (hsupervision : s.supervision = .starting) : (s.start around).Ok := by
  have hquiet : s.supervision.isQuiet := by rw [hsupervision]; rfl
  unfold Supervisor.start
  split
  · apply h.completeReadyGate hquiet
    · intro heq; cases heq
    · exact h.current_of_isQuiet hquiet
    · rfl
    · intro index hindex; cases hindex
  · exact h.quiet hquiet (.publishHealth rfl (.inl rfl))
  · exact h.quiet hquiet (.become rfl (.inl rfl))

theorem Ok.expose {readyAt : Nat}
    (hsupervision : s.supervision = .exposing index readyAt) : (s.expose index readyAt).Ok := by
  apply h.completeReadyGate (by rw [hsupervision]; rfl)
  · intro heq; cases heq
  · rfl
  · rfl
  · intro other hother
    rw [hsupervision]
    exact hother

theorem Ok.closeGate
    (hsupervision : s.supervision = .closingGate health) : (s.closeGate around health).Ok := by
  have hquiet : s.supervision.isQuiet := by rw [hsupervision]; rfl
  apply h.completeReadyGate hquiet
  · split <;> (intro heq; cases heq)
  · apply (h.current_of_isQuiet hquiet).trans
    split <;> rfl
  · split <;> rfl
  · intro index hindex
    split at hindex <;> cases hindex

/-- Where no prompt waits at the ready gate, or it is completed, it may be replaced. -/
theorem Ok.rotate (hactive : s.supervision ≠ .interrupted)
    (hunawaited : ∀ prompt ∈ s.prompts, s.gates.Pending s.readyGate →
      prompt.stage.awaitedGate? ≠ some s.readyGate)
    (hgates : s'.gates = s.gates.make) (hready : s'.readyGate = s.gates.length)
    (hprompts : s'.prompts = s.prompts) (hretired : ∀ index, s.isRetired index → s'.isRetired index)
    (hgeneration : ∀ index, s.supervision.generation? = some index →
      s'.supervision.generation? = some index) :
    s'.readyGate < s'.gates.length ∧ ∀ prompt ∈ s'.prompts, s'.StageOk prompt.stage := by
  constructor
  · rw [hready, hgates, Deferreds.length_make]
    exact Nat.lt_succ_self _
  · rw [hprompts]
    intro prompt hprompt
    apply (h.prompts prompt hprompt).mono _ hretired
    · exact fun index hindex => .inr (hgeneration index hindex)
    · exact fun heq => absurd heq hactive
    · intro gate hawaits hpending
      rw [hgates, Deferreds.pending_make] at hpending
      refine ⟨hpending, ?_⟩
      intro heq
      -- A prompt that may wait at the replaced gate finds it completed.
      subst heq
      exact absurd hawaits (hunawaited prompt hprompt hpending)

theorem Ok.retire {readyAt : Option Nat} (hsupervision : s.supervision = .retiring index readyAt)
    (hunawaited : readyAt = none → s.gates.Pending s.readyGate → ∀ prompt ∈ s.prompts,
      prompt.stage.awaitedGate? ≠ some s.readyGate) : (s.retire around index readyAt).Ok := by
  have hactive := ne_interrupted_of_eq hsupervision nofun
  have hcompleted : ∀ prompt ∈ s.prompts, s.gates.Pending s.readyGate →
      prompt.stage.awaitedGate? ≠ some s.readyGate := by
    intro prompt hprompt hpending
    cases readyAt with
    | none => exact hunawaited rfl hpending prompt hprompt
    | some readyAt =>
      exact absurd hpending (h.completed (by rw [hsupervision]; rfl))
  have hretired : ∀ other, s.isRetired other → (s.retire around index readyAt).isRetired other := by
    intro other hother
    exact (isRetired_modifyGeneration (f := .withdraw) (fun _ => rfl) index other).trans hother
  have hgeneration : ∀ other, s.supervision.generation? = some other →
      (s.retire around index readyAt).supervision.generation? = some other := by
    rw [hsupervision]
    exact fun _ hother => hother
  obtain ⟨hready, hprompts⟩ :=
    h.rotate hactive hcompleted (by rfl) (by rfl) (by rfl) hretired hgeneration
  apply h.advance hactive (fun heq => (by cases heq)) (by rfl) hready
  · intro hfalse
    cases hfalse
  · have hcurrent := h.current.resolve_left hactive
    rw [hsupervision] at hcurrent
    show (if s.current = some index then none else s.current) = none
    cases readyAt with
    | none => rw [show s.current = none from hcurrent, if_neg nofun]
    | some readyAt => exact if_pos hcurrent
  · intro gate hgate
    cases hgate
  · intro other hother
    have hlt := h.indexed other (by rw [hsupervision]; exact hother)
    show other < (s.generations.modify _ _).length
    rwa [length_modify]
  · exact hprompts

theorem Ok.move (hactive : s.supervision ≠ .interrupted)
    (hactive' : s'.supervision ≠ .interrupted) (hfinalization : s'.finalization = s.finalization)
    (hgates : s'.gates = s.gates) (hready : s'.readyGate = s.readyGate)
    (hprompts : s'.prompts = s.prompts)
    (hcompleted : s'.supervision.gateCompleted = true → s.supervision.gateCompleted = true)
    (hcurrent : s'.current = s'.supervision.current?)
    (hclaimed : ∀ gate ∈ s'.supervision.claimedGate?, gate = s.readyGate)
    (hindexed : ∀ index ∈ s'.supervision.index?, index < s'.generations.length)
    (hretired : ∀ index, s.isRetired index → s'.isRetired index)
    (hgeneration : ∀ index, s.supervision.generation? = some index →
      s'.isRetired index ∨ s'.supervision.generation? = some index) : s'.Ok := by
  apply h.advance hactive hactive' hfinalization
  · rw [hready, hgates]
    exact h.readyGate
  · intro hnext
    rw [hready, hgates]
    exact h.completed (hcompleted hnext)
  · exact hcurrent
  · intro gate hgate
    rw [hready]
    exact hclaimed gate hgate
  · exact hindexed
  · intro prompt hprompt
    rw [hprompts] at hprompt
    apply (h.prompts prompt hprompt).mono _ hretired hgeneration
    · exact fun heq => absurd heq hactive
    · intro gate _ hpending
      rw [hgates] at hpending
      rw [hready]
      exact ⟨hpending, id⟩

theorem Ok.succeedRetired {retirement : Retirement}
    (hsupervision : s.supervision = .retired retirement) :
    Ok { s.succeedRetired retirement.index with supervision := .draining retirement } := by
  have hactive := ne_interrupted_of_eq hsupervision nofun
  apply h.move hactive (fun heq => (by cases heq)) (by rfl) (by rfl) (by rfl) (by rfl)
  · intro hfalse
    cases hfalse
  · have hcurrent := h.current.resolve_left hactive
    rw [hsupervision] at hcurrent
    exact hcurrent
  · intro gate hgate
    cases hgate
  · intro index hindex
    cases hindex
  · exact fun index hindex => isRetired_succeedRetired retirement.index hindex
  · intro index hindex
    rw [hsupervision] at hindex
    cases hindex
    exact .inl (isRetired_succeedRetired_self (h.indexed _ (by rw [hsupervision]; rfl)))

theorem Ok.goOn {old : Supervision} (hsupervision : s.supervision = old)
    (hold : old ≠ .interrupted) (hnext : next ≠ .interrupted)
    (hcompleted : next.gateCompleted = true → old.gateCompleted = true)
    (hcurrent : old.current? = next.current?)
    (hclaimed : ∀ gate ∈ next.claimedGate?, gate ∈ old.claimedGate?)
    (hindexed : ∀ index ∈ next.index?, index ∈ old.index?)
    (hgeneration : ∀ index ∈ old.generation?, index ∈ next.generation?) :
    Ok { s with stored := stored, supervision := next } := by
  subst hsupervision
  apply h.move hold hnext (by rfl) (by rfl) (by rfl) (by rfl) hcompleted
  · exact (h.current.resolve_left hold).trans hcurrent
  · exact fun gate hgate => h.claimed gate (hclaimed gate hgate)
  · exact fun index hindex => h.indexed index (hindexed index hindex)
  · exact fun _ hretired => hretired
  · exact fun index hindex => .inr (hgeneration index hindex)

theorem Ok.awaitLoss {readyAt : Nat}
    (hsupervision : s.supervision = .awaitingLoss index readyAt) :
    Ok { s with supervision := .retiring index (some readyAt) } :=
  h.goOn hsupervision nofun nofun id rfl nofun (fun _ => id) fun _ => id

theorem Ok.endCooling (hsupervision : s.supervision = .cooling) : s.endCooling.Ok := by
  have hactive := ne_interrupted_of_eq hsupervision nofun
  have hcurrent : s.current = none := by
    rw [h.current.resolve_left hactive, hsupervision]
    rfl
  unfold Supervisor.endCooling
  split
  · exact h.goOn hsupervision nofun nofun nofun rfl nofun nofun nofun
  · have hcompleted := h.completed (by rw [hsupervision]; rfl)
    have hgeneration : ∀ index, s.supervision.generation? = some index →
        (rotateReadyGate { s with supervision := .halfOpening }).supervision.generation? =
          some index := by
      rw [hsupervision]
      intro index hindex
      cases hindex
    obtain ⟨hready, hprompts⟩ := h.rotate hactive
      (fun _ _ hpending => absurd hpending hcompleted) (by rfl) (by rfl) (by rfl)
      (by exact fun _ hretired => hretired) hgeneration
    apply h.advance hactive (fun heq => (by cases heq)) (by rfl) (by exact hready)
    · intro hfalse
      cases hfalse
    · exact hcurrent
    · intro gate hgate
      cases hgate
    · intro index hindex
      cases hindex
    · exact hprompts

/-! ## The handler of a defect -/

theorem Ok.claimDefect (hsupervision : s.supervision = .defective) : s.claimDefect.Ok := by
  have hquiet : s.supervision.isQuiet := by rw [hsupervision]; rfl
  have hactive := ne_interrupted_of_isQuiet hquiet
  have hcurrent := h.current_of_isQuiet hquiet
  unfold Supervisor.claimDefect
  split
  · exact h.quiet hquiet (.become rfl (.inl rfl))
  · rw [hcurrent]
    apply h.move hactive (fun heq => (by cases heq)) (by rfl) (by rfl) (by rfl) (by rfl)
    · intro hfalse
      cases hfalse
    · rfl
    · intro gate hgate
      cases hgate
      rfl
    · intro index hindex
      cases hindex
    · exact fun _ hretired => hretired
    · intro index hindex
      rw [hsupervision] at hindex
      cases hindex

theorem Ok.settleRetired
    (hsupervision : s.supervision = .settlingRetired claim) : (s.settleRetired claim).Ok := by
  have hactive := ne_interrupted_of_eq hsupervision nofun
  have hcurrent := h.current.resolve_left hactive
  have hclaimed := h.claimed
  have hindexed := h.indexed
  rw [hsupervision] at hcurrent hclaimed hindexed
  unfold Supervisor.settleRetired
  cases hretiring : claim.retiring with
  | none =>
    refine h.goOn hsupervision nofun nofun nofun rfl (fun _ => id) nofun fun index hindex => ?_
    cases hretiring.symm.trans hindex
  | some retiring =>
    apply h.move hactive (fun heq => (by cases heq)) (by rfl) (by rfl) (by rfl) (by rfl)
    · intro hfalse
      cases hfalse
    · exact hcurrent
    · exact hclaimed
    · intro index hindex
      cases hindex
    · exact fun index hindex => isRetired_succeedRetired retiring hindex
    · intro index hindex
      rw [hsupervision] at hindex
      cases hretiring.symm.trans hindex
      exact .inl (isRetired_succeedRetired_self (hindexed retiring hretiring))

theorem Ok.settleGate
    (hsupervision : s.supervision = .settlingGate claim) : (s.settleGate claim).Ok := by
  have hactive := ne_interrupted_of_eq hsupervision nofun
  have hgate : claim.readyGate = s.readyGate :=
    h.claimed claim.readyGate (by rw [hsupervision]; rfl)
  apply h.advance hactive (fun heq => (by cases heq)) (by rfl)
  · show s.readyGate < (s.gates.complete _ _).length
    rw [Deferreds.length_complete]
    exact h.readyGate
  · intro _
    show ¬ (s.gates.complete claim.readyGate _).Pending s.readyGate
    rw [hgate]
    exact Deferreds.not_pending_complete h.readyGate _
  · have hcurrent := h.current.resolve_left hactive
    rw [hsupervision] at hcurrent
    exact hcurrent
  · intro gate hgate
    cases hgate
  · intro index hindex
    cases hindex
  · apply h.prompts_of_complete (by rfl) (by rfl)
    · exact fun _ hretired => hretired
    · intro index hindex
      rw [hsupervision] at hindex
      cases hindex
    · exact hactive

end

theorem attempt_eq (update : AcpProcessState → AcpProcessState) :
    s.attempt around update = { s with
      stored := if around.repository = .failed then s.stored else update s.stored } := by
  unfold Supervisor.attempt
  cases around.repository <;> rfl

theorem Ok.recordDefect (h : s.Ok) {cleanupFailed : Bool}
    (hsupervision : s.supervision = .recordingDefect claim cleanupFailed) :
    (s.recordDefect around claim cleanupFailed).Ok := by
  have hpursue : ∀ stored, Ok { s with
      stored := stored, supervision := .publishingDefect claim around.now } := by
    intro stored
    exact h.goOn hsupervision nofun nofun nofun rfl (fun _ => id) (fun _ => id) fun _ => id
  unfold Supervisor.recordDefect
  cases claim.generation with
  | none => exact hpursue s.stored
  | some generation =>
    show Ok { s.attempt around _ with supervision := .publishingDefect claim around.now }
    rw [attempt_eq]
    exact hpursue _

/-! ## Every step of the loop -/

theorem Ok.acquire (h : s.Ok) (hsupervision : s.supervision = .acquiring index) :
    (s.acquire around index).Ok := by
  have hquiet : s.supervision.isQuiet := by rw [hsupervision]; rfl
  have hretiring : Ok { s with supervision := .retiring index none } :=
    h.goOn hsupervision nofun nofun nofun rfl nofun (fun _ => id) nofun
  unfold Supervisor.acquire
  split
  · exact h.quiet hquiet (.become rfl (.inl rfl))
  · exact hretiring
  · split
    · exact h.quiet hquiet (.become rfl (.inr (by rw [hsupervision]; rfl)))
    · exact hretiring

/-- The loop keeps the invariant, unless it replaces a gate that nobody completed under a
prompt that waits there. -/
theorem Ok.supervise (h : s.Ok)
    (hunawaited : s.supervision.neverReady = true → s.gates.Pending s.readyGate →
      ∀ prompt ∈ s.prompts, prompt.stage.awaitedGate? ≠ some s.readyGate) :
    (s.supervise options around).Ok := by
  unfold Supervisor.supervise
  cases hs : s.supervision with
  | starting => exact h.start hs
  | resuming => exact h.quiet (by rw [hs]; rfl) .resume
  | looping => exact h.quiet (by rw [hs]; rfl) .loop
  | reserving now => exact h.quiet (by rw [hs]; rfl) (.ask fun _ => .become rfl (.inl rfl))
  | loading generation => exact h.quiet (by rw [hs]; rfl) (.load generation)
  | acquiring index => exact h.acquire hs
  | publishingReady index readyAt =>
    exact h.quiet (by rw [hs]; rfl) (.publishHealth rfl (.inr (by rw [hs]; rfl)))
  | exposing index readyAt => exact h.expose hs
  | awaitingLoss index readyAt =>
    show Ok (if _ then _ else _)
    split
    · exact h.awaitLoss hs
    · exact h
  | retiring index readyAt =>
    apply h.retire hs
    intro hnone
    exact hunawaited (by rw [hs, hnone]; rfl)
  | retired retirement => exact h.succeedRetired hs
  | closing retirement =>
    apply h.quiet (by rw [hs]; rfl)
    exact ⟨rfl, rfl, rfl, rfl, rfl, Nat.le_refl _, fun _ h => h, rfl, nofun⟩
  | recordingStop retirement cleanupFailed =>
    exact h.quiet (by rw [hs]; rfl) (.recordStop retirement cleanupFailed)
  | recordingFailure retirement =>
    exact h.quiet (by rw [hs]; rfl) (.recordFailure retirement)
  | openingCircuit stoppedAt cooldown =>
    exact h.quiet (by rw [hs]; rfl) (.publishHealth rfl (.inl rfl))
  | closingGate health => exact h.closeGate hs
  | cooling => exact h.endCooling hs
  | backingOff delay => exact h.quiet (by rw [hs]; rfl) (.become rfl (.inl rfl))
  | defective => exact h.claimDefect hs
  | claimed claim =>
    exact h.goOn hs nofun nofun nofun rfl (fun _ => id) (fun _ => id) fun _ => id
  | recordingDefect claim cleanupFailed => exact h.recordDefect hs
  | publishingDefect claim timestamp =>
    show Ok { s.attempt around _ with supervision := _ }
    rw [attempt_eq]
    exact h.goOn hs nofun nofun nofun rfl (fun _ => id) (fun _ => id) fun _ => id
  | settlingRetired claim => exact h.settleRetired hs
  | settlingGate claim => exact h.settleGate hs
  | quarantined => exact h
  | stopped => exact h
  | interrupted => exact h
  | _ => exact h.quiet (by rw [hs]; rfl) (.publishHealth rfl (.inl rfl))

/-! ## The agents' reports and the finalizer -/

theorem Ok.keep (h : s.Ok) (hsupervision : s'.supervision = s.supervision)
    (hgates : s'.gates = s.gates) (hready : s'.readyGate = s.readyGate)
    (hcurrent : s'.current = s.current ∨ s.supervision = .interrupted)
    (hlength : s'.generations.length = s.generations.length)
    (hretired : ∀ index, s.isRetired index → s'.isRetired index)
    (hinterrupted : s'.isInterrupted = s.isInterrupted)
    (hfinished : s'.finalization = .finished → s.finalization = .finished)
    (hprompts : ∀ prompt ∈ s'.prompts, s.StageOk prompt.stage) : s'.Ok := by
  refine ⟨?_, ?_, ?_, ?_, ?_, ?_, ?_, ?_⟩
  · rw [hready, hgates]
    exact h.readyGate
  · rw [hsupervision, hready, hgates]
    exact h.completed
  · rw [hready, hgates]
    exact fun hfinal => h.finished (hfinished hfinal)
  · rw [hsupervision, hinterrupted]
    exact h.interrupted
  · rw [hsupervision]
    rcases hcurrent with hcurrent | hcurrent
    · rw [hcurrent]
      exact h.current
    · exact .inl hcurrent
  · rw [hsupervision, hready]
    exact h.claimed
  · rw [hsupervision, hlength]
    exact h.indexed
  · intro prompt hprompt
    apply (hprompts prompt hprompt).mono _ hretired
    · rw [hsupervision]
      exact fun index hindex => .inr hindex
    · rw [hsupervision]
      exact id
    · intro gate _ hpending
      rw [hgates] at hpending
      rw [hready]
      exact ⟨hpending, id⟩

/-- An agent's report changes the variables of its generation, but not whether the
generation is retired. -/
theorem Ok.modifyGeneration (h : s.Ok) {f : Generation → Generation}
    (hf : ∀ generation, (f generation).retired = generation.retired) (index : Nat)
    (cleanupOutcome : AcpProcessCleanupOutcome) :
    Ok { s.modifyGeneration index f with activeCleanupOutcome := cleanupOutcome } := by
  apply h.keep (by rfl) (by rfl) (by rfl) (.inl (by rfl)) _ _ (by rfl) (by exact id)
  · exact h.prompts
  · exact length_modify ..
  · exact fun other hother => (isRetired_modifyGeneration hf index other).trans hother

theorem observeHealth_retired (generation activePrompts : Nat) (status : ProcessStatus)
    (observed : Generation) :
    (observed.observeHealth generation status activePrompts).retired = observed.retired := by
  unfold Generation.observeHealth
  split
  · rfl
  · cases status <;> rfl

theorem Ok.observe (h : s.Ok) (index : Nat) (observation : Observation) :
    (s.observe index observation).Ok := by
  cases observation with
  | health generation status =>
    exact h.modifyGeneration (observeHealth_retired generation s.activePrompts status) index
      s.activeCleanupOutcome
  | exit exit => exact h.modifyGeneration (by exact fun _ => rfl) index s.activeCleanupOutcome
  | cleanup outcome => exact h.modifyGeneration (by exact fun _ => rfl) index outcome
  | failureClassification classification cause =>
    exact h.modifyGeneration (by exact fun _ => rfl) index s.activeCleanupOutcome

theorem Ok.finalizing (h : s.Ok) {scope : Option Nat}
    {expectedShutdown : Bool} {next : Finalization}
    (hinterrupted : Supervisor.isInterrupted { s with finalization := next } = s.isInterrupted)
    (hnext : next ≠ .finished) :
    Ok { s with
      stored := stored
      activeGenerationScope := scope
      expectedShutdown := expectedShutdown
      finalization := next } := by
  apply h.keep (by rfl) (by rfl) (by rfl) (.inl (by rfl)) (by rfl) _ (by exact hinterrupted)
  · exact fun hfinished => absurd hfinished hnext
  · exact h.prompts
  · exact fun _ hretired => hretired

theorem Ok.beginFinalizing (h : s.Ok) (hfinalization : s.finalization = .waiting) :
    (s.beginFinalizing around).Ok := by
  have hbegin : ∀ stored generation preserve, Ok { s with
      stored := stored
      expectedShutdown := true
      finalization := .interrupting generation preserve around.now } := by
    intro stored generation preserve
    apply h.finalizing
    · unfold isInterrupted
      rw [hfinalization]
    · intro heq
      cases heq
  unfold Supervisor.beginFinalizing
  cases ((s.current.bind s.generation?).map (·.generation)).or s.durableState.activeGeneration with
  | none => exact hbegin s.stored _ _
  | some generation =>
    show Ok { s.attempt around _ with expectedShutdown := true, finalization := _ }
    rw [attempt_eq]
    exact hbegin _ _ _

/-- The loop is interrupted while no prompt waits for a retirement that it has begun. -/
theorem Ok.interrupt (h : s.Ok) {generation : Option Nat} {preserve : Bool} {timestamp : Nat}
    (hretired : ∀ prompt ∈ s.prompts, ∀ index ∈ prompt.stage.awaitedRetirement?,
      s.isRetired index = true) :
    Ok { s with
      supervision := .interrupted
      finalization := .closing generation preserve timestamp } := by
  refine ⟨h.readyGate, ?_, ?_, ?_, .inl rfl, ?_, ?_, ?_⟩
  · intro hfalse
    cases hfalse
  · intro hfalse
    cases hfalse
  · exact ⟨fun _ => rfl, fun _ => rfl⟩
  · intro gate hgate
    cases hgate
  · intro index hindex
    cases hindex
  · intro prompt hprompt
    have hok := h.prompts prompt hprompt
    have hawaiting := hretired prompt hprompt
    cases hstage : prompt.stage with
    | awaitingGate gate =>
      rw [hstage] at hok
      exact hok
    | awaitingRetired index => exact .inl (hawaiting index (by rw [hstage]; rfl))
    | selected current gate health =>
      cases current with
      | none =>
        rw [hstage] at hok
        exact hok
      | some index => exact .inr (.inr rfl)
    | _ => trivial

theorem Ok.finish (h : s.Ok) (hfinalization : s.finalization = .closingGate health) :
    Ok { s.closeReadyGate health around.now with finalization := .finished } := by
  have hinterrupted : s.supervision = .interrupted := by
    rw [← h.interrupted]
    unfold isInterrupted
    rw [hfinalization]
  refine ⟨?_, ?_, ?_, ⟨fun _ => hinterrupted, fun _ => rfl⟩, .inl hinterrupted, ?_, h.indexed, ?_⟩
  · show s.readyGate < (s.gates.complete _ _).length
    rw [Deferreds.length_complete]
    exact h.readyGate
  · intro hcompleted
    rw [show (closeReadyGate health around.now s).supervision = _ from hinterrupted] at hcompleted
    cases hcompleted
  · exact fun _ => Deferreds.not_pending_complete h.readyGate _
  · exact h.claimed
  · intro prompt hprompt
    apply (h.prompts prompt hprompt).mono
    · exact fun gate _ hpending => ⟨Deferreds.pending_of_pending_complete hpending, id⟩
    · exact fun _ hretired => hretired
    · exact fun index hindex => .inr hindex
    · exact id

/-- The finalizer keeps the invariant, unless it interrupts the loop under a prompt that
waits for a retirement. -/
theorem Ok.finalize (h : s.Ok) (hretired : s.finalization.interrupts = true → ∀ prompt ∈ s.prompts,
      ∀ index ∈ prompt.stage.awaitedRetirement?, s.isRetired index = true) :
    (s.finalize around).Ok := by
  unfold Supervisor.finalize
  cases hfinalization : s.finalization with
  | waiting =>
    show Ok (if _ then _ else _)
    split
    · exact h.beginFinalizing hfinalization
    · exact h
  | interrupting generation preserve timestamp =>
    exact h.interrupt (hretired (by rw [hfinalization]; rfl))
  | closing generation preserve timestamp =>
    apply h.finalizing
    · unfold isInterrupted
      rw [hfinalization]
    · intro heq
      cases heq
  | recordingStop generation preserve cleanupFailed timestamp =>
    have hnext : ∀ stored, Ok { s with
        stored := stored, finalization := .clearing preserve timestamp } := by
      intro stored
      apply h.finalizing
      · unfold isInterrupted
        rw [hfinalization]
      · intro heq
        cases heq
    cases generation with
    | none => exact hnext s.stored
    | some generation =>
      show Ok { s.attempt around _ with finalization := .clearing preserve timestamp }
      rw [attempt_eq]
      exact hnext _
  | clearing preserve timestamp =>
    have hinterrupted : s.supervision = .interrupted := by
      rw [← h.interrupted]
      unfold isInterrupted
      rw [hfinalization]
    apply h.keep (by rfl) (by rfl) (by rfl) (.inr hinterrupted) (by rfl)
    · exact fun _ hretired => hretired
    · unfold isInterrupted
      rw [hfinalization]
    · intro heq
      cases heq
    · exact h.prompts
  | stopping preserve timestamp =>
    have hnext : ∀ stored health, Ok { s with
        stored := stored, finalization := .closingGate health } := by
      intro stored health
      apply h.finalizing
      · unfold isInterrupted
        rw [hfinalization]
      · intro heq
        cases heq
    show Ok (if _ then _ else _)
    split
    · exact hnext s.stored _
    · rw [attempt_eq]
      exact hnext _ _
  | closingGate health => exact h.finish hfinalization
  | finished => exact h

/-! ## The prompts -/

structure SameLoop (s s' : Supervisor) : Prop where
  supervision : s'.supervision = s.supervision
  finalization : s'.finalization = s.finalization
  gates : s'.gates = s.gates
  readyGate : s'.readyGate = s.readyGate
  current : s'.current = s.current
  generations : s'.generations = s.generations

theorem Ok.sameLoop (h : s.Ok) (hsame : SameLoop s s')
    (hprompts : ∀ prompt ∈ s'.prompts, s.StageOk prompt.stage) : s'.Ok := by
  apply h.keep hsame.supervision hsame.gates hsame.readyGate (.inl hsame.current)
  · rw [hsame.generations]
  · intro index hretired
    unfold isRetired generation? at *
    rwa [hsame.generations]
  · unfold isInterrupted
    rw [hsame.finalization]
  · rw [hsame.finalization]
    exact id
  · exact hprompts

theorem mem_modify {α : Type} {f : α → α} {l : List α} {a : α}
    (h : a ∈ l.modify index f) : a ∈ l ∨ ∃ b ∈ l, l[index]? = some b ∧ a = f b := by
  obtain ⟨other, hother⟩ := mem_iff_getElem?.mp h
  rw [getElem?_modify] at hother
  obtain ⟨b, hb, heq⟩ := Option.map_eq_some_iff.mp hother
  by_cases hindex : index = other
  · subst hindex
    rw [if_pos rfl] at heq
    exact .inr ⟨b, mem_of_getElem? hb, hb, heq.symm⟩
  · rw [if_neg hindex] at heq
    exact .inl (heq ▸ mem_of_getElem? hb)

theorem Ok.setStage (h : s.Ok) (index : Nat) {stage : PromptStage} (hstage : s.StageOk stage) :
    (s.setStage index stage).Ok := by
  refine h.sameLoop ⟨rfl, rfl, rfl, rfl, rfl, rfl⟩ ?_
  intro prompt hprompt
  rcases mem_modify hprompt with hmem | ⟨other, -, -, rfl⟩
  · exact h.prompts prompt hmem
  · exact hstage

theorem Ok.recount (h : s.Ok) (activePrompts promptAdmission : Nat)
    (observedConversations : List String) :
    Ok { s with
      activePrompts := activePrompts
      promptAdmission := promptAdmission
      observedConversations := observedConversations } :=
  h.sameLoop ⟨rfl, rfl, rfl, rfl, rfl, rfl⟩ h.prompts

theorem Ok.leave (h : s.Ok) (index : Nat) (stage : PromptStage)
    (failure : Option HandlerFailure) : (s.leave index stage failure).Ok :=
  (h.recount _ _ s.observedConversations).setStage index (by trivial)

theorem Ok.release (h : s.Ok) (index : Nat) (prompt : Prompt) : (s.release index prompt).Ok := by
  unfold Supervisor.release
  split
  · exact h
  · refine h.sameLoop ⟨rfl, rfl, rfl, rfl, rfl, rfl⟩ ?_
    intro other hother
    rcases mem_modify hother with hmem | ⟨before, hmem, -, rfl⟩
    · exact h.prompts other hmem
    · exact h.prompts before hmem

theorem Ok.registerQueuedConversation (h : s.Ok) (cid : String) :
    (s.registerQueuedConversation cid).Ok := by
  have hadded : ∀ {prompt added : Prompt}, s.StageOk added.stage →
      prompt ∈ s.prompts ++ [added] → s.StageOk prompt.stage := by
    intro prompt added hok hprompt
    rcases mem_append.mp hprompt with hprompt | hprompt
    · exact h.prompts prompt hprompt
    · rw [mem_singleton.mp hprompt]
      exact hok
  unfold Supervisor.registerQueuedConversation
  split
  · refine h.sameLoop ⟨rfl, rfl, rfl, rfl, rfl, rfl⟩ ?_
    exact fun prompt hprompt => hadded (by trivial) hprompt
  · refine h.sameLoop ⟨rfl, rfl, rfl, rfl, rfl, rfl⟩ ?_
    exact fun prompt hprompt => hadded (by trivial) hprompt

/-- `awaitReady` on what it read leads to what the supervisor serves, while the finalizer
has not interrupted the loop. -/
theorem Ok.awaitSelected (h : s.Ok) {now gate : Nat} {current : Option Nat}
    (hok : s.StageOk (.selected current gate health))
    (hserved : s.supervision = .interrupted → ∀ generation, current = some generation →
      s.isAvailable generation ∨ s.isRetired generation) :
    (s.awaitSelected now current gate health index).Ok := by
  cases current with
  | none =>
    show Ok (if _ then _ else _)
    split
    · exact h.leave index _ _
    · next hhealth => exact h.setStage index (hok hhealth)
  | some generation =>
    show Ok (if _ then _ else _)
    split
    · exact h.setStage index (by trivial)
    · next havailable =>
      apply h.setStage index
      rcases hok with hretired | hgeneration | hinterrupted
      · exact .inl hretired
      · exact .inr hgeneration
      · rcases hserved hinterrupted generation rfl with havailable' | hretired
        · exact absurd havailable' havailable
        · exact .inl hretired

theorem Ok.select (h : s.Ok) :
    s.StageOk (.selected s.current s.readyGate s.durableState.health) := by
  cases hcurrent : s.current with
  | none => exact fun _ _ => rfl
  | some index =>
    rcases h.current with hinterrupted | heq
    · exact .inr (.inr hinterrupted)
    · rw [hcurrent] at heq
      refine .inr (.inl ?_)
      cases hsupervision : s.supervision <;> rw [hsupervision] at heq
      case awaitingLoss => exact heq.symm
      case retiring index' readyAt =>
        cases readyAt with
        | none => cases heq
        | some => exact heq.symm
      all_goals cases heq

/-- A call keeps the invariant, unless it comes to wait for a retirement after the finalizer
interrupted the loop. -/
theorem Ok.promptStep (h : s.Ok) (now index : Nat) (move : PromptMove)
    (hserved : s.supervision = .interrupted → move ≠ .interrupt → ∀ prompt ∈ s.prompts[index]?,
      ∀ generation ∈ prompt.stage.selectedGeneration?,
        s.isAvailable generation ∨ s.isRetired generation) : (s.promptStep now index move).Ok := by
  unfold Supervisor.promptStep
  cases hprompt : s.prompts[index]? with
  | none => exact h
  | some prompt =>
    have hok := h.prompts prompt (mem_of_getElem? hprompt)
    dsimp only
    cases hstage : prompt.stage with
    | finished failure => exact h
    | leaving failure =>
      exact (h.release index prompt).setStage index (by trivial)
    | queued =>
      cases move with
      | interrupt => exact h.leave index _ none
      | _ =>
        show Ok (if _ then _ else _)
        split
        · exact h
        · exact (h.setStage index (by trivial)).recount s.activePrompts _ s.observedConversations
    | admitted =>
      cases move with
      | interrupt => exact h.leave index _ none
      | _ => exact h.setStage index h.select
    | selected current gate health =>
      rw [hstage] at hok
      cases move with
      | interrupt => exact h.leave index _ none
      | _ =>
        apply h.awaitSelected hok
        intro hinterrupted generation heq
        exact hserved hinterrupted nofun prompt hprompt generation
          (by rw [hstage, heq]; rfl)
    | awaitingRetired generation =>
      cases move with
      | interrupt => exact h.leave index _ none
      | _ =>
        show Ok (if _ then _ else _)
        split
        · exact h.setStage index (by trivial)
        · exact h
    | awaitingGate gate =>
      cases move with
      | interrupt => exact h.leave index _ none
      | _ =>
        dsimp only
        split
        · exact h
        · exact h.setStage index (by trivial)
        · exact h.leave index _ _
    | resolved generation =>
      cases move with
      | interrupt => exact h.leave index _ none
      | _ =>
        exact (h.release index prompt).setStage index (by trivial)
    | released generation =>
      cases move with
      | interrupt => exact h.leave index _ none
      | _ => exact (h.recount _ s.promptAdmission _).setStage index (by trivial)
    | prompting generation =>
      cases move with
      | interrupt => exact h.leave index _ none
      | proceed => exact h.leave index _ none
      | fail failure => exact h.setStage index (by trivial)
    | settling generation failure =>
      cases move with
      | interrupt => exact h.leave index _ none
      | _ => exact h.leave index _ (some failure)

end Supervisor

/-! ## Runs -/

/-- The step strands no prompt. It does where the loop replaces the gate of a generation that
never became ready under a prompt at that gate, and where the finalizer interrupts the loop
and a prompt waits, or comes to wait, for the loop to retire a generation. -/
def StrandsNoPrompt (event : SupervisorEvent) (s : Supervisor) : Prop :=
  match event with
  | .supervise _ =>
    s.supervision.neverReady = true → s.gates.Pending s.readyGate →
      ∀ prompt ∈ s.prompts, prompt.stage.awaitedGate? ≠ some s.readyGate
  | .finalize _ =>
    s.finalization.interrupts = true → ∀ prompt ∈ s.prompts,
      ∀ index ∈ prompt.stage.awaitedRetirement?, s.isRetired index = true
  | .prompt _ index move =>
    s.supervision = .interrupted → move ≠ .interrupt → ∀ prompt ∈ s.prompts[index]?,
      ∀ generation ∈ prompt.stage.selectedGeneration?,
        s.isAvailable generation = true ∨ s.isRetired generation = true
  | _ => True

instance (event : SupervisorEvent) (s : Supervisor) : Decidable (StrandsNoPrompt event s) :=
  match event with
  | .supervise _ => inferInstanceAs (Decidable (_ → _ → ∀ prompt ∈ s.prompts, _))
  | .finalize _ => inferInstanceAs (Decidable (_ → ∀ prompt ∈ s.prompts, ∀ index ∈ _, _))
  | .prompt _ index _ =>
    inferInstanceAs (Decidable (_ → _ → ∀ prompt ∈ s.prompts[index]?, ∀ generation ∈ _, _))
  | .observe .. | .requestShutdown | .call _ => isTrue trivial

theorem Supervisor.Ok.step {s : Supervisor} (h : s.Ok) (options : Options)
    (event : SupervisorEvent) (hstrands : StrandsNoPrompt event s) :
    (supervisorStep options event s).Ok := by
  cases event with
  | supervise around => exact h.supervise hstrands
  | finalize around => exact h.finalize hstrands
  | observe index observation => exact h.observe index observation
  | requestShutdown =>
    apply h.keep (by rfl) (by rfl) (by rfl) (.inl (by rfl)) (by rfl) _ (by rfl) (by exact id)
    · exact h.prompts
    · exact fun _ hretired => hretired
  | call cid =>
    show Supervisor.Ok (if _ then _ else _)
    split
    · exact h.registerQueuedConversation cid
    · exact h
  | prompt now index move => exact h.promptStep now index move hstrands

/-- **Every blocked prompt is served.** In a run whose steps strand no prompt, every prompt
that is blocked in `awaitReady` is blocked on what the supervisor still completes, and none
is blocked at a gate once a generation is ready or the workspace is unavailable. -/
theorem servesPrompts_of_run (options : Options) (stored : AcpProcessState) (loads : Bool)
    {events : List SupervisorEvent} (hrun : RunMeets (supervisorStep options) StrandsNoPrompt
      (makeSupervisor options stored loads) events) :
    ∀ s ∈ visited (supervisorStep options) (makeSupervisor options stored loads) events,
      s.ServesPrompts := by
  intro s hs
  have hok : s.Ok := invariant_visited (P := Supervisor.Ok)
    (fun event s hok hstrands => hok.step options event hstrands)
    (Supervisor.ok_makeSupervisor options stored loads) hrun s hs
  exact hok.servesPrompts

/-! ### Runs on fixed inputs -/

def supervises (count : Nat) : List SupervisorEvent :=
  List.replicate count (.supervise { now := 0 })

def becomesReady (index : Nat) : List SupervisorEvent :=
  supervises 3 ++ [.observe index (.health (index + 1) .ready)] ++ supervises 3

/-- The first generation becomes ready and is lost, and the loop comes to the next one. -/
def firstGenerationLost : List SupervisorEvent :=
  supervises 2 ++ becomesReady 0 ++ [.observe 0 (.health 1 .closed)] ++ supervises 9

def callsAndAwaits : List SupervisorEvent :=
  [.call "conversation", .prompt 0 0 .proceed, .prompt 0 0 .proceed, .prompt 0 0 .proceed]

/-- A prompt waits at the gate while the next generation starts; the generation fails
transiently, and the one after it becomes ready. -/
def strandingRun : List SupervisorEvent :=
  firstGenerationLost ++ callsAndAwaits ++ supervises 3 ++
    [.supervise { now := 0, acquired := .failed }] ++ supervises 8 ++ becomesReady 2

/-- A prompt waits for a lost generation to be retired and then at the gate, and gets the
generation that replaces it; then the supervisor is stopped. -/
def servingRun : List SupervisorEvent :=
  supervises 2 ++ becomesReady 0 ++ [.observe 0 (.health 1 .closed)] ++ callsAndAwaits ++
    supervises 3 ++ [.prompt 0 0 .proceed, .prompt 0 0 .proceed, .prompt 0 0 .proceed] ++
    supervises 6 ++ becomesReady 1 ++ [.prompt 0 0 .proceed] ++
    List.replicate 8 (.finalize { now := 1 })

theorem servesPrompts_of_servingRun :
    (∀ s ∈ visited (supervisorStep {}) (makeSupervisor {} initialAcpProcessState true) servingRun,
      s.ServesPrompts) ∧
    (finalState (supervisorStep {}) (makeSupervisor {} initialAcpProcessState true)
      servingRun).prompts.map (·.stage) = [.resolved 1] :=
  ⟨servesPrompts_of_run {} initialAcpProcessState true (by decide +kernel), by decide +kernel⟩

/-- The prompt of the stranding run still waits at the gate that was replaced, although a
generation is ready. -/
theorem strandingRun_strands :
    ¬ ∀ s ∈ visited (supervisorStep {}) (makeSupervisor {} initialAcpProcessState true)
      strandingRun, s.ServesPrompts := by
  intro hserves
  have hlast := hserves _ (finalState_mem_visited _ _)
  have hdecided : (finalState (supervisorStep {}) (makeSupervisor {} initialAcpProcessState true)
      strandingRun).isDecided = true := by decide +kernel
  have hmem : { conversationId := "conversation", released := false, stage := .awaitingGate 1 } ∈
      (finalState (supervisorStep {}) (makeSupervisor {} initialAcpProcessState true)
        strandingRun).prompts := by decide +kernel
  have hpending : (finalState (supervisorStep {}) (makeSupervisor {} initialAcpProcessState true)
      strandingRun).gates.Pending 1 := by decide +kernel
  exact hlast.decided hdecided _ hmem 1 rfl hpending

end Laborer.AcpRuntime
