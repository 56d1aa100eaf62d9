import Mathlib.Data.List.Basic

/-!
# Flow control of a PTY

The characters that were emitted and not acknowledged yet are counted while a consumer is
attached. Above one watermark the PTY is paused; it is resumed below the other.
-/

namespace Laborer.Terminal

open Bool

structure TransportConfig where
  highWatermarkChars : ℕ
  lowWatermarkChars : ℕ
  coalesceMaxBufferBytes : ℕ
  journalBytes : ℕ
  outputChunkBytes : ℕ
  snapshotBytes : ℕ
  low_pos : 0 < lowWatermarkChars
  low_lt_high : lowWatermarkChars < highWatermarkChars
  chunk_le_journal : outputChunkBytes ≤ journalBytes

/-- The two counters since the last reset are kept for the statements only. -/
structure FlowControlState where
  paused : Bool
  unacknowledgedCharCount : ℕ
  emittedSinceReset : ℕ
  acknowledgedSinceReset : ℕ

/-- The flow control of one terminal. `ptyPaused` is what the PTY itself was told last;
there is no state while there is no PTY. -/
structure FlowControl where
  state : Option FlowControlState
  consumers : ℕ
  ptyPaused : Bool

namespace FlowControlState

def initial : FlowControlState where
  paused := false
  unacknowledgedCharCount := 0
  emittedSinceReset := 0
  acknowledgedSinceReset := 0

end FlowControlState

namespace FlowControl

def initial : FlowControl where
  state := none
  consumers := 0
  ptyPaused := false

/-- The count starts again at zero and a paused PTY is resumed. `present` says whether the
terminal has a PTY. -/
def clearFlowControl (present : Bool) (flow : FlowControl) : FlowControl :=
  match flow.state with
  | none => flow
  | some state =>
    { flow with
      state := some FlowControlState.initial
      ptyPaused := if state.paused && present then false else flow.ptyPaused }

def trackEmittedChars (config : TransportConfig) (present : Bool) (charCount : ℕ)
    (flow : FlowControl) : FlowControl :=
  match flow.state with
  | none => flow
  | some state =>
    if flow.consumers = 0 then
      -- Detached output flows freely and is not counted.
      { flow with
        state := some { state with emittedSinceReset := state.emittedSinceReset + charCount } }
    else
      let count := state.unacknowledgedCharCount + charCount
      let pauses := !state.paused && decide (config.highWatermarkChars < count) && present
      { flow with
        state := some
          { state with
            unacknowledgedCharCount := count
            emittedSinceReset := state.emittedSinceReset + charCount
            paused := state.paused || pauses }
        ptyPaused := flow.ptyPaused || pauses }

def ack (config : TransportConfig) (present : Bool) (chars : ℕ) (flow : FlowControl) :
    FlowControl :=
  match flow.state with
  | none => flow
  | some state =>
    let count := state.unacknowledgedCharCount - chars
    let resumes := state.paused && decide (count < config.lowWatermarkChars) && present
    { flow with
      state := some
        { state with
          unacknowledgedCharCount := count
          acknowledgedSinceReset := state.acknowledgedSinceReset + chars
          paused := state.paused && !resumes }
      ptyPaused := flow.ptyPaused && !resumes }

/-- The debt of an earlier consumer never carries over to a new one. -/
def attachFlowControlConsumer (present : Bool) (flow : FlowControl) : FlowControl :=
  clearFlowControl present { flow with consumers := flow.consumers + 1 }

/-- With the last consumer gone the terminal keeps flowing unwatched. -/
def detachFlowControlConsumer (present : Bool) (flow : FlowControl) : FlowControl :=
  if flow.consumers - 1 = 0 then clearFlowControl present { flow with consumers := 0 }
  else { flow with consumers := flow.consumers - 1 }

/-- A PTY was spawned: nothing is owed and it is not paused. -/
def start (flow : FlowControl) : FlowControl :=
  { flow with state := some FlowControlState.initial, ptyPaused := false }

def stop (flow : FlowControl) : FlowControl :=
  { flow with state := none, ptyPaused := false }

@[simp] theorem clearFlowControl_consumers (present : Bool) (flow : FlowControl) :
    (flow.clearFlowControl present).consumers = flow.consumers := by
  unfold clearFlowControl
  split <;> rfl

@[simp] theorem trackEmittedChars_consumers (config : TransportConfig) (present : Bool)
    (charCount : ℕ) (flow : FlowControl) :
    (flow.trackEmittedChars config present charCount).consumers = flow.consumers := by
  unfold trackEmittedChars
  split
  · rfl
  · split <;> rfl

@[simp] theorem ack_consumers (config : TransportConfig) (present : Bool) (chars : ℕ)
    (flow : FlowControl) : (flow.ack config present chars).consumers = flow.consumers := by
  unfold ack
  split <;> rfl

@[simp] theorem detachFlowControlConsumer_consumers (present : Bool) (flow : FlowControl) :
    (flow.detachFlowControlConsumer present).consumers = flow.consumers - 1 := by
  unfold detachFlowControlConsumer
  split
  · next h =>
    rw [clearFlowControl_consumers]
    exact h.symm
  · rfl

@[simp] theorem attachFlowControlConsumer_consumers (present : Bool) (flow : FlowControl) :
    (flow.attachFlowControlConsumer present).consumers = flow.consumers + 1 := by
  unfold attachFlowControlConsumer
  rw [clearFlowControl_consumers]

/-! ## The debt of the consumers -/

/-- The state of a PTY that runs with so many characters owed. A paused PTY has not been
paid down to the low watermark, and no more was acknowledged than was emitted. -/
structure Owes (config : TransportConfig) (debt : ℕ) (flow : FlowControl) : Prop where
  state : ∃ state, flow.state = some state ∧ state.unacknowledgedCharCount = debt ∧
    state.paused = flow.ptyPaused ∧
    state.acknowledgedSinceReset + debt ≤ state.emittedSinceReset
  paused : flow.ptyPaused = true → config.lowWatermarkChars ≤ debt

variable {config : TransportConfig} {debt : ℕ} {flow : FlowControl}

theorem Owes.start (flow : FlowControl) : Owes config 0 flow.start where
  state := ⟨.initial, rfl, rfl, rfl, Nat.le_refl _⟩
  paused h := absurd h Bool.false_ne_true

theorem Owes.not_paused (h : Owes config 0 flow) : flow.ptyPaused = false := by
  cases hpaused : flow.ptyPaused with
  | false => rfl
  | true =>
    have hlow := h.paused hpaused
    have hpos := config.low_pos
    omega

section

variable (h : Owes config debt flow)
include h

theorem Owes.clearFlowControl : Owes config 0 (flow.clearFlowControl true) := by
  obtain ⟨state, hstate, -, hpaused, -⟩ := h.state
  unfold FlowControl.clearFlowControl
  rw [hstate]
  have hnot : (if state.paused && true then false else flow.ptyPaused) = false := by
    rw [Bool.and_true, hpaused]
    cases flow.ptyPaused <;> rfl
  constructor
  · exact ⟨.initial, rfl, rfl, hnot.symm, Nat.le_refl _⟩
  · intro hafter
    exact absurd (hnot.symm.trans hafter) false_ne_true

theorem Owes.consumers (consumers : ℕ) :
    Owes config debt { flow with consumers := consumers } :=
  ⟨h.state, h.paused⟩

theorem Owes.attachFlowControlConsumer : Owes config 0 (flow.attachFlowControlConsumer true) :=
  (h.consumers _).clearFlowControl

theorem Owes.detachFlowControlConsumer :
    Owes config (if flow.consumers ≤ 1 then 0 else debt) (flow.detachFlowControlConsumer true) := by
  unfold FlowControl.detachFlowControlConsumer
  by_cases hone : flow.consumers ≤ 1
  · rw [if_pos hone, if_pos (by omega)]
    exact (h.consumers _).clearFlowControl
  · rw [if_neg hone, if_neg (by omega)]
    exact h.consumers _

theorem Owes.trackEmittedChars (charCount : ℕ) :
    Owes config (if flow.consumers = 0 then debt else debt + charCount)
      (flow.trackEmittedChars config true charCount) := by
  obtain ⟨state, hstate, rfl, hpaused, hle⟩ := h.state
  unfold FlowControl.trackEmittedChars
  rw [hstate]
  by_cases hconsumers : flow.consumers = 0
  · simp only [if_pos hconsumers]
    constructor
    · refine ⟨_, rfl, rfl, hpaused, ?_⟩
      show state.acknowledgedSinceReset + _ ≤ state.emittedSinceReset + charCount
      omega
    · exact h.paused
  · simp only [if_neg hconsumers]
    constructor
    · refine ⟨_, rfl, rfl, ?_, ?_⟩
      · simp only [hpaused]
      · show state.acknowledgedSinceReset + (state.unacknowledgedCharCount + charCount) ≤
          state.emittedSinceReset + charCount
        omega
    · intro hafter
      -- Either it was paused already, or the high watermark is passed now.
      rcases or_eq_true_iff.mp hafter with hbefore | hnow
      · have hlow := h.paused hbefore
        omega
      · simp only [Bool.and_true, Bool.and_eq_true, decide_eq_true_eq] at hnow
        have hlt := config.low_lt_high
        omega

/-- Acknowledged characters that were owed are owed no more. -/
theorem Owes.ack {chars : ℕ} (hchars : chars ≤ debt) :
    Owes config (debt - chars) (flow.ack config true chars) := by
  obtain ⟨state, hstate, rfl, hpaused, hle⟩ := h.state
  unfold FlowControl.ack
  rw [hstate]
  constructor
  · refine ⟨_, rfl, rfl, ?_, ?_⟩
    · simp only [hpaused]
    · show state.acknowledgedSinceReset + chars + (state.unacknowledgedCharCount - chars) ≤
        state.emittedSinceReset
      omega
  · intro hafter
    have hafter : (flow.ptyPaused && !(state.paused &&
      decide (state.unacknowledgedCharCount - chars < config.lowWatermarkChars) && true)) = true :=
      hafter
    rw [hpaused] at hafter
    cases hbefore : flow.ptyPaused with
    | false =>
      rw [hbefore] at hafter
      exact absurd hafter false_ne_true
    | true =>
      by_contra hlow
      have hlt : state.unacknowledgedCharCount - chars < config.lowWatermarkChars := by omega
      simp [hlt] at hafter

end

end FlowControl

end Laborer.Terminal
