import Laborer.Terminal.StatusEngine

/-!
# Runs of the status engine

When a terminal shows a completion that nobody has seen, and when an agent is taken for gone,
in terms of the calls on its engine.
-/

namespace Laborer.Terminal

inductive EngineCall where
  | sample (agentProcesses : List AgentProcess) (hasNonAgentProcess : Bool) (sampledAt : ℕ)
  | unavailable (observedAt : ℕ)
  | report (report : AgentStatusReport) (reportedAt : ℕ)
  | setObserved (observed : Bool)
  | processExited (observedAt : ℕ)

namespace TerminalStatusEngine

def call : EngineCall → TerminalStatusEngine → TerminalStatusEngine
  | .sample agentProcesses hasNonAgentProcess sampledAt =>
    sample agentProcesses hasNonAgentProcess sampledAt
  | .unavailable observedAt => unavailable observedAt
  | .report update reportedAt => report update reportedAt
  | .setObserved observed => setObserved observed
  | .processExited observedAt => processExited observedAt

def after (options : StatusEngineOptions) : List EngineCall → TerminalStatusEngine
  | [] => create options
  | c :: earlier => (after options earlier).call c

def isObserved : List EngineCall → Bool
  | [] => false
  | .setObserved observed :: _ => observed
  | _ :: earlier => isObserved earlier

/-- Samples without an agent since the last one with an agent, failed detection or exit; a
report between them is late and does not count. -/
def emptySamples : List EngineCall → ℕ
  | .sample [] _ _ :: earlier => emptySamples earlier + 1
  | .report .. :: earlier | .setObserved _ :: earlier => emptySamples earlier
  | _ => 0

/-- What is shown, the status and whether it was seen, and whether the terminal is observed. -/
abbrev Shown := Option (AgentStatus × Bool) × Bool

def shown (engine : TerminalStatusEngine) : Shown :=
  (engine.snapshot.map fun snapshot => (snapshot.status, snapshot.seen), engine.observed)

def status (engine : TerminalStatusEngine) : Option AgentStatus := engine.shown.1.map Prod.fst

/-- A completion that is not acknowledged: the agent came to be idle while nobody observed
the terminal, and has been idle and unobserved since. -/
def Unacknowledged (options : StatusEngineOptions) : List EngineCall → Prop
  | [] => False
  | c :: earlier =>
    (∀ observed, c = .setObserved observed → observed = false) ∧
      (after options (c :: earlier)).status = some .idle ∧
        ((∃ before, (after options earlier).status = some before ∧ before ≠ .idle ∧
            isObserved earlier = false) ∨
          Unacknowledged options earlier)

/-! ## What a call does -/

/-- Only a completion is unseen, and only while nobody observes the terminal. -/
def Noticed (shown : Shown) : Prop :=
  ∀ status, shown.1 = some (status, false) → status = .idle ∧ shown.2 = false

def Unseen (shown : Shown) : Prop := ∃ status, shown.1 = some (status, false)

def settle (status : AgentStatus) : Shown → Shown
  | (none, observed) => (some (status, true), observed)
  | (some (before, seen), observed) =>
    (some (status, status ≠ .idle || if before = .idle then seen else observed), observed)

variable {engine engine' : TerminalStatusEngine} {options : StatusEngineOptions}

/-- A call leaves what is shown, takes the agent away or makes a transition. -/
def Follows (shown : Shown) (next : TerminalStatusEngine) : Prop :=
  next.shown = shown ∨ next.shown = (none, shown.2) ∨ ∃ status, next.shown = settle status shown

/-- The counter is at most so far on. -/
def Counts (engine : TerminalStatusEngine) (samples : ℕ) (next : TerminalStatusEngine) : Prop :=
  next.downwardSamples ≤ samples ∧ next.downwardConfirmations = engine.downwardConfirmations

theorem transition_shown (h : Noticed engine.shown) (hsame : engine'.shown = engine.shown)
    (status : AgentStatus) (source : AgentStatusSource) (changedAt : ℕ) :
    (engine'.transition status source changedAt).shown = settle status engine.shown := by
  rw [← hsame] at h ⊢
  clear hsame
  unfold Noticed at h
  unfold transition shown at *
  cases hsnapshot : engine'.snapshot with
  | none => rfl
  | some snapshot =>
    obtain ⟨before, source', changedAt', stale, seen⟩ := snapshot
    rw [hsnapshot] at h
    dsimp only
    by_cases hidle : status = .idle
    · subst hidle
      by_cases hbefore : before = .idle
      · -- an idle status that nobody has seen is that of an unobserved terminal
        subst hbefore
        cases seen with
        | false =>
          obtain ⟨-, hunobserved⟩ := h .idle rfl
          split <;> simp_all [settle]
        | true => split <;> simp [hsnapshot, settle]
      · simp [hbefore, settle]
    · split
      · next hkept => simp [hidle, hkept.1, settle]
      · simp [hidle, settle]

theorem transition_counts (status : AgentStatus) (source : AgentStatusSource) (changedAt : ℕ) :
    Counts engine engine.downwardSamples (engine.transition status source changedAt) := by
  unfold transition
  split
  · exact ⟨Nat.le_refl _, rfl⟩
  · split
    · split <;> exact ⟨Nat.le_refl _, rfl⟩
    · exact ⟨Nat.le_refl _, rfl⟩

theorem recoverDetection_shown : engine.recoverDetection.shown = engine.shown := by
  simp [shown, recoverDetection, Function.comp_def]

theorem sample_agents (h : Noticed engine.shown) {agentProcesses : List AgentProcess}
    (hagents : agentProcesses ≠ []) (hasNonAgentProcess : Bool) (sampledAt : ℕ) :
    let next := engine.sample agentProcesses hasNonAgentProcess sampledAt
    (∃ status, next.shown = settle status engine.shown) ∧ Counts engine 0 next := by
  unfold sample
  dsimp only
  rw [if_pos (by simpa using hagents)]
  split <;>
    exact ⟨⟨_, transition_shown h (by exact recoverDetection_shown) ..⟩, transition_counts ..⟩

theorem sample_empty (h : Noticed engine.shown) (hasNonAgentProcess : Bool) (sampledAt : ℕ) :
    let next := engine.sample [] hasNonAgentProcess sampledAt
    Counts engine (engine.downwardSamples + 1) next ∧
      (next.shown = engine.shown ∨
        (engine.downwardConfirmations ≤ engine.downwardSamples + 1 ∧
          next.shown =
            if hasNonAgentProcess then (none, engine.observed)
            else settle .idle engine.shown)) := by
  unfold sample
  dsimp only
  rw [if_neg (by simp)]
  split
  · exact ⟨⟨Nat.zero_le _, rfl⟩, .inl recoverDetection_shown⟩
  · split
    · exact ⟨⟨Nat.le_refl _, rfl⟩, .inl recoverDetection_shown⟩
    · next hconfirmed =>
      have hconfirmed := Nat.le_of_not_lt hconfirmed
      split
      · exact ⟨⟨Nat.le_refl _, rfl⟩, .inr ⟨hconfirmed, rfl⟩⟩
      · exact ⟨transition_counts ..,
          .inr ⟨hconfirmed, transition_shown h (by exact recoverDetection_shown) ..⟩⟩

theorem call_counts (h : Noticed engine.shown) (c : EngineCall) {earlier : List EngineCall}
    (hsamples : engine.downwardSamples ≤ emptySamples earlier) :
    Counts engine (emptySamples (c :: earlier)) (engine.call c) := by
  cases c with
  | sample agentProcesses hasNonAgentProcess sampledAt =>
    cases agentProcesses with
    | nil =>
      obtain ⟨hcounted, hsame⟩ := (sample_empty h hasNonAgentProcess sampledAt).1
      exact ⟨hcounted.trans (Nat.succ_le_succ hsamples), hsame⟩
    | cons => exact (sample_agents h (List.cons_ne_nil _ _) hasNonAgentProcess sampledAt).2
  | setObserved => exact ⟨hsamples, rfl⟩
  | unavailable => exact ⟨Nat.zero_le _, rfl⟩
  | report update reportedAt =>
    unfold call report
    dsimp only
    split
    · exact ⟨hsamples, rfl⟩
    · split
      · exact ⟨hsamples, rfl⟩
      · obtain ⟨hcounted, hsame⟩ := transition_counts update.status .hook reportedAt
        exact ⟨hcounted.trans (Nat.zero_le _), hsame⟩
  | processExited =>
    unfold call processExited
    dsimp only
    split
    · exact ⟨Nat.le_refl _, rfl⟩
    · exact transition_counts ..

theorem call_follows (h : Noticed engine.shown) {c : EngineCall}
    (hc : ∀ observed, c ≠ .setObserved observed) : Follows engine.shown (engine.call c) := by
  cases c with
  | setObserved observed => exact absurd rfl (hc observed)
  | sample agentProcesses hasNonAgentProcess sampledAt =>
    by_cases hagents : agentProcesses = []
    · subst hagents
      obtain ⟨-, hkept | ⟨-, hgone⟩⟩ := sample_empty h hasNonAgentProcess sampledAt
      · exact .inl hkept
      · cases hasNonAgentProcess
        · exact .inr (.inr ⟨_, hgone⟩)
        · exact .inr (.inl hgone)
    · exact .inr (.inr (sample_agents h hagents hasNonAgentProcess sampledAt).1)
  | report update reportedAt =>
    unfold call report
    dsimp only
    split
    · exact .inl rfl
    · split
      · exact .inl rfl
      · exact .inr (.inr ⟨_, transition_shown h (by rfl) ..⟩)
  | unavailable observedAt =>
    refine .inl ?_
    simp only [call, unavailable, shown, Option.map_map, Function.comp_def]
    congr! 2
    funext snapshot
    split <;> rfl
  | processExited observedAt =>
    unfold call processExited
    dsimp only
    split
    · exact .inl rfl
    · exact .inr (.inr ⟨_, transition_shown h (by rfl) ..⟩)

/-- A call makes a completion unseen or leaves it so. -/
theorem call_noticed (h : Noticed engine.shown) (c : EngineCall) :
    Noticed (engine.call c).shown ∧ (Unseen (engine.call c).shown ↔
      (∀ observed, c = .setObserved observed → observed = false) ∧
        (engine.call c).status = some .idle ∧
          ((∃ before, engine.status = some before ∧ before ≠ .idle ∧ engine.observed = false) ∨
            Unseen engine.shown)) := by
  have hobserved : engine.observed = engine.shown.2 := rfl
  rw [status, status, hobserved]
  by_cases hc : ∃ observed, c = .setObserved observed
  · obtain ⟨observed, rfl⟩ := hc
    have hshown : (engine.call (.setObserved observed)).shown =
        (engine.shown.1.map fun p => (p.1, observed || p.2), observed) := by
      cases observed <;> simp [call, setObserved, shown, Function.comp_def]
    rw [hshown]
    -- what is shown has few shapes, and `Noticed` excludes those that disagree
    generalize engine.shown = shown at h ⊢
    obtain ⟨_ | ⟨before, _ | _⟩, _ | _⟩ := shown <;> cases observed <;>
      simp_all [Noticed, Unseen]
  · have hfollows := call_follows h (not_exists.mp hc)
    rw [and_iff_right fun observed h => absurd ⟨observed, h⟩ hc]
    unfold Follows at hfollows
    generalize engine.shown = shown at h hfollows ⊢
    generalize (engine.call c).shown = next at hfollows ⊢
    rcases hfollows with rfl | rfl | ⟨settled, rfl⟩
    · obtain ⟨_ | ⟨before, _ | _⟩, _ | _⟩ := next <;> simp_all [Noticed, Unseen]
    · simp [Noticed, Unseen]
    · by_cases hidle : settled = .idle <;>
        obtain ⟨_ | ⟨before, _ | _⟩, _ | _⟩ := shown <;> simp_all [Noticed, Unseen, settle]

/-! ## Whole runs -/

theorem after_noticed (options : StatusEngineOptions) (calls : List EngineCall) :
    Noticed (after options calls).shown := by
  induction calls with
  | nil => simp [after, create, shown, Noticed]
  | cons c earlier ih => exact (call_noticed ih c).1

theorem after_observed (options : StatusEngineOptions) (calls : List EngineCall) :
    (after options calls).observed = isObserved calls := by
  induction calls with
  | nil => rfl
  | cons c earlier ih =>
    by_cases hc : ∃ observed, c = .setObserved observed
    · obtain ⟨observed, rfl⟩ := hc
      rfl
    · have hsame : ((after options earlier).call c).shown.2 = (after options earlier).observed := by
        obtain h | h | ⟨status, h⟩ :=
          call_follows (after_noticed options earlier) (not_exists.mp hc)
        · rw [h, shown]
        · rw [h, shown]
        · rw [h, shown]
          unfold settle
          split <;> simp_all
      rw [isObserved, ← ih]
      · exact hsame
      · exact fun observed h => hc ⟨observed, h⟩

theorem after_counts (options : StatusEngineOptions) (calls : List EngineCall) :
    Counts (create options) (emptySamples calls) (after options calls) := by
  induction calls with
  | nil => exact ⟨Nat.le_refl _, rfl⟩
  | cons c earlier ih =>
    obtain ⟨hsamples, hsame⟩ := call_counts (after_noticed options earlier) c ih.1
    exact ⟨hsamples, hsame.trans ih.2⟩

/-- **When a completion is shown as unseen.** After any calls in any order, exactly when the
agent became idle unobserved and was idle and unobserved ever since. -/
theorem unseen_iff_unacknowledged (options : StatusEngineOptions) (calls : List EngineCall) :
    (∃ snapshot, (after options calls).snapshot = some snapshot ∧ snapshot.seen = false) ↔
      Unacknowledged options calls := by
  have hunseen : Unseen (after options calls).shown ↔ Unacknowledged options calls := by
    induction calls with
    | nil => exact iff_of_false (fun ⟨_, h⟩ => nomatch h) id
    | cons c earlier ih =>
      rw [after, (call_noticed (after_noticed options earlier) c).2, ih, after_observed]
      rfl
  rw [← hunseen]
  unfold Unseen shown
  cases (after options calls).snapshot <;> simp

/-- **An agent is taken for gone only when that is confirmed.** -/
theorem gone_confirmed (options : StatusEngineOptions) (calls : List EngineCall)
    (hasNonAgentProcess : Bool) (sampledAt : ℕ) :
    let next := after options (.sample [] hasNonAgentProcess sampledAt :: calls)
    next.status = (after options calls).status ∨
      (options.downwardConfirmations.getD DEFAULT_DOWNWARD_CONFIRMATIONS ≤
          emptySamples calls + 1 ∧
        next.status = if hasNonAgentProcess then none else some .idle) := by
  obtain ⟨hsamples, hsame⟩ := after_counts options calls
  obtain ⟨-, hkept | ⟨hconfirmed, hgone⟩⟩ :=
    sample_empty (after_noticed options calls) hasNonAgentProcess sampledAt
  · exact .inl (congrArg (fun shown : Shown => shown.1.map Prod.fst) hkept)
  · refine .inr ⟨(hsame ▸ hconfirmed).trans (Nat.succ_le_succ hsamples), ?_⟩
    rw [after, status, call, hgone]
    cases hasNonAgentProcess with
    | true => rfl
    | false =>
      rw [if_neg (by decide), if_neg (by decide)]
      unfold settle
      split <;> rfl

end TerminalStatusEngine

end Laborer.Terminal
