import Laborer.AcpRuntime.ProcessStateFile
import Laborer.Library.Runs

/-!
# Runs over the process state

Supervisors of several processes load and update one state file. An update takes the lock of
the file, reads the state, writes the next one beside it and renames it; it may fail anywhere,
its process may end, and its caller may be interrupted while it goes on.
-/

namespace Laborer.AcpRuntime

open Library List Option

/-! ## Operations -/

inductive StateOperation where
  | transition (change : ProcessStateChange)
  | recordFailure (failure : AcpProcessFailureRecord)
  | recordStop (stop : AcpProcessStopRecord)
  | reserveGeneration (timestamp : ℕ)

inductive StateValue where
  | state (state : AcpProcessState)
  | generation (reserved : ℕ)

def AcpProcessState.generations (state : AcpProcessState) : List ℕ :=
  state.activeGeneration.toList ++ state.failures.val.map AcpProcessFailureRecord.generation ++
    state.lastStop.toList.map AcpProcessStopRecord.generation ++
      state.transitions.val.filterMap AcpProcessTransition.generation

/-- The generation numbers that a supervisor is told. -/
def StateValue.told : StateValue → List ℕ
  | .state loaded => loaded.generations
  | .generation reserved => [reserved]

def StateValue.reserved : StateValue → List ℕ
  | .state _ => []
  | .generation reserved => [reserved]

namespace StateOperation

def generations : StateOperation → List ℕ
  | .transition change => (change.activeGeneration.getD none).toList
  | .recordFailure failure => [failure.generation]
  | .recordStop stop => [stop.generation]
  | .reserveGeneration _ => []

def update (operation : StateOperation) (state : AcpProcessState) :
    Option (StateValue × AcpProcessState) :=
  match operation with
  | .transition change => (state.transition change).make.map fun next => (.state next, next)
  | .recordFailure failure => (state.recordFailure failure).make.map fun next => (.state next, next)
  | .recordStop stop => (state.recordStop stop).make.map fun next => (.state next, next)
  | .reserveGeneration timestamp =>
    (state.reserveGeneration timestamp).make.map fun next =>
      (.generation state.nextGeneration, next)

end StateOperation

/-! ## Transactions -/

inductive WritePhase where
  | waiting
  | locked
  | read (current : AcpProcessState)
  | updated (value : StateValue) (next : AcpProcessState)
  | staged (value : StateValue) (text : JsValue)
  | renamed (value : StateValue)
  | returned (value : StateValue)
  | failed
  | oversized

def WritePhase.holds : WritePhase → Bool
  | .locked => true
  | .read _ => true
  | .updated _ _ => true
  | .staged _ _ => true
  | .renamed _ => true
  | _ => false

/-- The call of an operation; `attended` where its caller still waits for it. -/
structure StateTransaction where
  operation : StateOperation
  phase : WritePhase
  attended : Bool

/-- One state file and all who use it. `known` are the generation numbers that the supervisors
have been told, `generations` those that `reserveGeneration` has returned. -/
structure StateSystem where
  file : Option JsValue
  lock : Option ℕ
  transactions : List StateTransaction
  known : List ℕ
  generations : List ℕ

inductive StateEvent where
  | loads
  | begins (operation : StateOperation)
  | proceeds (transaction : ℕ)
  | fails (transaction : ℕ)
  | interrupts (transaction : ℕ)

namespace StateSystem

def initial : StateSystem where
  file := none
  lock := none
  transactions := []
  known := []
  generations := []

def setTransaction (number : ℕ) (transaction : StateTransaction) (system : StateSystem) :
    StateSystem :=
  { system with transactions := system.transactions.set number transaction }

def setPhase (number : ℕ) (transaction : StateTransaction) (phase : WritePhase)
    (system : StateSystem) : StateSystem :=
  system.setTransaction number { transaction with phase := phase }

def finish (number : ℕ) (transaction : StateTransaction) (phase : WritePhase)
    (system : StateSystem) : StateSystem :=
  { system.setPhase number transaction phase with
    lock := if system.lock = some number then none else system.lock }

def tell (value : StateValue) (system : StateSystem) : StateSystem :=
  { system with
    known := system.known ++ value.told
    generations := system.generations ++ value.reserved }

def proceed (number : ℕ) (transaction : StateTransaction) (system : StateSystem) : StateSystem :=
  match transaction.phase with
  | .waiting =>
    if system.lock = none then
      { system.setPhase number transaction .locked with lock := some number }
    else system
  | .locked =>
    match readState system.file with
    | none => system.finish number transaction .failed
    | some current => system.setPhase number transaction (.read current)
  | .read current =>
    match transaction.operation.update current with
    | none => system.finish number transaction .failed
    | some (value, next) => system.setPhase number transaction (.updated value next)
  | .updated value next =>
    match serialized next with
    | none => system.finish number transaction .oversized
    | some text => system.setPhase number transaction (.staged value text)
  | .staged value text =>
    { system.setPhase number transaction (.renamed value) with file := some text }
  | .renamed value =>
    if transaction.attended then (system.finish number transaction (.returned value)).tell value
    else system.finish number transaction (.returned value)
  | .returned _ => system
  | .failed => system
  | .oversized => system

def fail (number : ℕ) (transaction : StateTransaction) (system : StateSystem) : StateSystem :=
  match transaction.phase with
  | .returned _ => system
  | .failed => system
  | .oversized => system
  | _ => system.finish number transaction .failed

/-- `repository.load`, which a supervisor runs first. -/
def load (system : StateSystem) : StateSystem :=
  match readState system.file with
  | none => system
  | some state => system.tell (.state state)

/-- A supervisor calls an operation with generation numbers that it has been told. -/
def begin (operation : StateOperation) (system : StateSystem) : StateSystem :=
  if operation.generations.all system.known.contains then
    { system with
      transactions := system.transactions ++
        [{ operation := operation, phase := .waiting, attended := true }] }
  else system

end StateSystem

def stateStep (event : StateEvent) (system : StateSystem) : StateSystem :=
  match event with
  | .loads => system.load
  | .begins operation => system.begin operation
  | .proceeds number =>
    match system.transactions[number]? with
    | none => system
    | some transaction => system.proceed number transaction
  | .fails number =>
    match system.transactions[number]? with
    | none => system
    | some transaction => system.fail number transaction
  | .interrupts number =>
    match system.transactions[number]? with
    | none => system
    | some transaction => system.setTransaction number { transaction with attended := false }

/-! ## Updates of the state -/

/-- Every generation number in the state has been reserved. -/
def AcpProcessState.Numbered (state : AcpProcessState) : Prop :=
  ∀ generation ∈ state.generations, generation < state.nextGeneration

theorem mem_push {α : Type} {bound : ℕ} {retained : Retained α bound} {entry item : α}
    (h : item ∈ (retained.push entry).val) : item ∈ retained.val ∨ item = entry := by
  rcases mem_append.mp (mem_of_mem_drop h) with hold | hnew
  · exact .inl hold
  · exact .inr (mem_singleton.mp hnew)

variable {generation : ℕ} {state : AcpProcessState}

theorem mem_generations : generation ∈ state.generations ↔
      state.activeGeneration = some generation ∨
        (∃ failure ∈ state.failures.val, failure.generation = generation) ∨
          (∃ stop, state.lastStop = some stop ∧ stop.generation = generation) ∨
            ∃ transition ∈ state.transitions.val, transition.generation = some generation := by
  simp [AcpProcessState.generations, mem_toList]

structure Numbers (value : StateValue) (state next : AcpProcessState) : Prop where
  valid : Schemas.processState.valid next = true
  grows : state.nextGeneration ≤ next.nextGeneration
  numbered : next.Numbered
  told : ∀ generation ∈ value.told, generation < next.nextGeneration
  reserved : ∀ generation ∈ value.reserved,
    generation = state.nextGeneration ∧ generation < next.nextGeneration

theorem numbered_of_mem {next : AcpProcessState} {given : List ℕ} (h : state.Numbered)
    (hnext : state.nextGeneration ≤ next.nextGeneration)
    (hgiven : ∀ generation ∈ given, generation < next.nextGeneration)
    (hmem : ∀ generation ∈ next.generations,
      generation ∈ state.generations ∨ generation ∈ given) : next.Numbered := by
  intro generation hgeneration
  rcases hmem generation hgeneration with hold | hnew
  · exact (h generation hold).trans_le hnext
  · exact hgiven generation hnew

theorem mem_generations_transition {change : ProcessStateChange}
    (h : generation ∈ (state.transition change).generations) :
    generation ∈ state.generations ∨ generation ∈ (change.activeGeneration.getD none).toList := by
  have hactive : change.activeGeneration.getD state.activeGeneration = some generation →
      generation ∈ state.generations ∨ generation ∈ (change.activeGeneration.getD none).toList := by
    intro heq
    cases hchange : change.activeGeneration with
    | none =>
      rw [hchange] at heq
      exact .inl (mem_generations.mpr (.inl heq))
    | some active =>
      rw [hchange] at heq
      exact .inr (mem_toList.mpr heq)
  rcases mem_generations.mp h with heq | hfailure | hstop | ⟨transition, hmem, heq⟩
  · exact hactive heq
  · exact .inl (mem_generations.mpr (.inr (.inl hfailure)))
  · exact .inl (mem_generations.mpr (.inr (.inr (.inl hstop))))
  · rcases mem_push hmem with hold | rfl
    · exact .inl (mem_generations.mpr (.inr (.inr (.inr ⟨transition, hold, heq⟩))))
    · exact hactive heq

theorem mem_generations_recordFailure {failure : AcpProcessFailureRecord}
    (h : generation ∈ (state.recordFailure failure).generations) :
    generation ∈ state.generations ∨ generation ∈ [failure.generation] := by
  rcases mem_generations.mp h with hactive | ⟨other, hmem, heq⟩ | hstop | htransition
  · exact .inl (mem_generations.mpr (.inl hactive))
  · rcases mem_push hmem with hold | rfl
    · exact .inl (mem_generations.mpr (.inr (.inl ⟨other, hold, heq⟩)))
    · exact .inr (mem_singleton.mpr heq.symm)
  · exact .inl (mem_generations.mpr (.inr (.inr (.inl hstop))))
  · exact .inl (mem_generations.mpr (.inr (.inr (.inr htransition))))

theorem mem_generations_recordStop {stop : AcpProcessStopRecord}
    (h : generation ∈ (state.recordStop stop).generations) :
    generation ∈ state.generations ∨ generation ∈ [stop.generation] := by
  rcases mem_generations.mp h with hactive | hfailure | ⟨other, hother, heq⟩ | htransition
  · exact .inl (mem_generations.mpr (.inl hactive))
  · exact .inl (mem_generations.mpr (.inr (.inl hfailure)))
  · cases hother
    exact .inr (mem_singleton.mpr heq.symm)
  · exact .inl (mem_generations.mpr (.inr (.inr (.inr htransition))))

theorem mem_generations_reserveGeneration {timestamp : ℕ}
    (h : generation ∈ (state.reserveGeneration timestamp).generations) :
    generation ∈ state.generations ∨ generation ∈ [state.nextGeneration] := by
  rcases mem_generations.mp h with hactive | hfailure | hstop | ⟨transition, hmem, heq⟩
  · cases hactive
    exact .inr mem_cons_self
  · exact .inl (mem_generations.mpr (.inr (.inl hfailure)))
  · exact .inl (mem_generations.mpr (.inr (.inr (.inl hstop))))
  · rcases mem_push hmem with hold | rfl
    · exact .inl (mem_generations.mpr (.inr (.inr (.inr ⟨transition, hold, heq⟩))))
    · cases heq
      exact .inr mem_cons_self

/-- **An update keeps the numbers below the next one.** -/
theorem numbers_of_update {operation : StateOperation} {next : AcpProcessState}
    {value : StateValue} (h : operation.update state = some (value, next)) (hstate : state.Numbered)
    (hgiven : ∀ generation ∈ operation.generations, generation < state.nextGeneration) :
    Numbers value state next := by
  have hreturned : ∀ result : AcpProcessState,
      (result.make.map fun made => (StateValue.state made, made)) = some (value, next) →
        Schemas.processState.valid result = true ∧ result = next ∧ value = .state result := by
    intro result hresult
    obtain ⟨made, hmade, heq⟩ := map_eq_some_iff.mp hresult
    obtain ⟨hvalid, rfl⟩ := make_eq_some.mp hmade
    obtain ⟨rfl, rfl⟩ := Prod.mk.inj heq
    exact ⟨hvalid, rfl, rfl⟩
  cases operation with (try obtain ⟨hvalid, rfl, rfl⟩ := hreturned _ h)
  | transition change =>
    have hnumbered : (state.transition change).Numbered :=
      numbered_of_mem hstate (le_refl _) hgiven fun _ => mem_generations_transition
    exact ⟨hvalid, le_refl _, hnumbered, hnumbered, fun _ hmem => absurd hmem not_mem_nil⟩
  | recordFailure failure =>
    have hnumbered : (state.recordFailure failure).Numbered :=
      numbered_of_mem hstate (le_refl _) hgiven fun _ => mem_generations_recordFailure
    exact ⟨hvalid, le_refl _, hnumbered, hnumbered, fun _ hmem => absurd hmem not_mem_nil⟩
  | recordStop stop =>
    have hnumbered : (state.recordStop stop).Numbered :=
      numbered_of_mem hstate (le_refl _) hgiven fun _ => mem_generations_recordStop
    exact ⟨hvalid, le_refl _, hnumbered, hnumbered, fun _ hmem => absurd hmem not_mem_nil⟩
  | reserveGeneration timestamp =>
    obtain ⟨made, hmade, heq⟩ := map_eq_some_iff.mp h
    obtain ⟨hvalid, rfl⟩ := make_eq_some.mp hmade
    obtain ⟨rfl, rfl⟩ := Prod.mk.inj heq
    have hless : ∀ generation ∈ [state.nextGeneration],
        generation < (state.reserveGeneration timestamp).nextGeneration := by
      intro generation hgeneration
      rw [mem_singleton.mp hgeneration]
      exact Nat.lt_succ_self _
    have hnumbered : (state.reserveGeneration timestamp).Numbered :=
      numbered_of_mem hstate (Nat.le_succ _) hless fun _ => mem_generations_reserveGeneration
    exact ⟨hvalid, Nat.le_succ _, hnumbered, hless, fun generation hmem =>
      ⟨mem_singleton.mp hmem, hless generation hmem⟩⟩

/-! ## The invariant -/

/-- What a transaction with the lock has found and made. -/
def WritePhase.Consistent (operation : StateOperation) (current : AcpProcessState)
    (generations : List ℕ) : WritePhase → Prop
  | .read state => state = current
  | .updated value next => operation.update current = some (value, next)
  | .staged value text =>
    ∃ next, operation.update current = some (value, next) ∧ serialized next = some text
  | .renamed value =>
    (∀ generation ∈ value.told, generation < current.nextGeneration) ∧
      ∀ generation ∈ value.reserved,
        generation < current.nextGeneration ∧ generation ∉ generations
  | .oversized => False
  | _ => True

structure TransactionInv (current : AcpProcessState) (generations : List ℕ) (lock : Option ℕ)
    (number : ℕ) (transaction : StateTransaction) : Prop where
  given : ∀ generation ∈ transaction.operation.generations, generation < current.nextGeneration
  locked : transaction.phase.holds = true → lock = some number
  consistent : transaction.phase.Consistent transaction.operation current generations

/-- The state in the file is `current`, and every number that is known is below its next one. -/
structure StateInv (current : AcpProcessState) (system : StateSystem) : Prop where
  stored : readState system.file = some current
  valid : Schemas.processState.valid current = true
  numbered : current.Numbered
  known : ∀ generation ∈ system.known, generation < current.nextGeneration
  returned : ∀ generation ∈ system.generations, generation < current.nextGeneration
  distinct : system.generations.Nodup
  transactions : ∀ (number : ℕ) (transaction : StateTransaction),
    system.transactions[number]? = some transaction →
      TransactionInv current system.generations system.lock number transaction

section Steps

variable {current next : AcpProcessState} {system : StateSystem} {number : ℕ}
variable {transaction : StateTransaction}

theorem stateInv_initial : StateInv initialAcpProcessState .initial where
  stored := rfl
  valid := valid_initial
  numbered := fun _ h => absurd h List.not_mem_nil
  known := fun _ h => absurd h List.not_mem_nil
  returned := fun _ h => absurd h List.not_mem_nil
  distinct := List.nodup_nil
  transactions := fun _ _ h => by cases h

theorem TransactionInv.other {generations generations' : List ℕ} {lock lock' : Option ℕ}
    (h : TransactionInv current generations lock number transaction)
    (hgrows : current.nextGeneration ≤ next.nextGeneration)
    (hlock : lock = some number → lock' = lock ∧ next = current ∧ generations' = generations) :
    TransactionInv next generations' lock' number transaction := by
  cases hholds : transaction.phase.holds with
  | true =>
    obtain ⟨rfl, rfl, rfl⟩ := hlock (h.locked hholds)
    exact h
  | false =>
    refine ⟨fun generation hmem => (h.given generation hmem).trans_le hgrows, fun hholds' => ?_, ?_⟩
    · rw [hholds] at hholds'
      cases hholds'
    · have hconsistent := h.consistent
      cases hphase : transaction.phase with
      | oversized =>
        rw [hphase] at hconsistent
        exact hconsistent.elim
      | waiting => trivial
      | returned value => trivial
      | failed => trivial
      | _ =>
        rw [hphase] at hholds
        cases hholds

section

variable (h : StateInv current system)
include h

theorem StateInv.transactions_set {replaced : StateTransaction}
    {generations : List ℕ} {lock : Option ℕ} (hgrows : current.nextGeneration ≤ next.nextGeneration)
    (hothers : ∀ other, other ≠ number → system.lock = some other →
      lock = system.lock ∧ next = current ∧ generations = system.generations)
    (hreplaced : TransactionInv next generations lock number replaced) (other : ℕ)
    (found : StateTransaction)
    (hfound : (system.transactions.set number replaced)[other]? = some found) :
    TransactionInv next generations lock other found := by
  rw [getElem?_set] at hfound
  split at hfound
  · next heq =>
    split at hfound
    · obtain rfl := some.inj hfound
      rw [← heq]
      exact hreplaced
    · cases hfound
  · next hne =>
    exact (h.transactions other found hfound).other hgrows (hothers other (Ne.symm hne))

theorem StateInv.setTransaction {replaced : StateTransaction}
    (hreplaced : TransactionInv current system.generations system.lock number replaced) :
    StateInv current (system.setTransaction number replaced) where
  stored := h.stored
  valid := h.valid
  numbered := h.numbered
  known := h.known
  returned := h.returned
  distinct := h.distinct
  transactions := h.transactions_set (le_refl _) (fun _ _ _ => ⟨rfl, rfl, rfl⟩) hreplaced

theorem StateInv.setPhase (hfound : system.transactions[number]? = some transaction)
    (hholds : transaction.phase.holds = true) {phase : WritePhase}
    (hconsistent : phase.Consistent transaction.operation current system.generations) :
    StateInv current (system.setPhase number transaction phase) := by
  have hold := h.transactions number transaction hfound
  apply h.setTransaction
  exact ⟨hold.given, fun _ => hold.locked hholds, hconsistent⟩

theorem StateInv.finish
    (hfound : system.transactions[number]? = some transaction) {phase : WritePhase}
    (hholds : phase.holds = false)
    (hconsistent : phase.Consistent transaction.operation current system.generations) :
    StateInv current (system.finish number transaction phase) where
  stored := h.stored
  valid := h.valid
  numbered := h.numbered
  known := h.known
  returned := h.returned
  distinct := h.distinct
  transactions := by
    have hold := h.transactions number transaction hfound
    refine h.transactions_set (le_refl _) (fun other hne hlock => ⟨if_neg ?_, rfl, rfl⟩)
      ⟨hold.given, fun hholds' => ?_, hconsistent⟩
    · rw [hlock]
      exact fun heq => hne (some.inj heq)
    · rw [hholds] at hholds'
      cases hholds'

theorem StateInv.tell {value : StateValue}
    (htold : ∀ generation ∈ value.told, generation < current.nextGeneration)
    (hreserved : ∀ generation ∈ value.reserved,
      generation < current.nextGeneration ∧ generation ∉ system.generations)
    (hlock : value.reserved = [] ∨ system.lock = none) : StateInv current (system.tell value) where
  stored := h.stored
  valid := h.valid
  numbered := h.numbered
  known := by
    intro generation hmem
    rcases mem_append.mp hmem with hold | hnew
    · exact h.known generation hold
    · exact htold generation hnew
  returned := by
    intro generation hmem
    rcases mem_append.mp hmem with hold | hnew
    · exact h.returned generation hold
    · exact (hreserved generation hnew).1
  distinct := by
    have hnodup : value.reserved.Nodup := by
      cases value with
      | state loaded => exact nodup_nil
      | generation reserved => exact nodup_singleton reserved
    refine h.distinct.append hnodup fun generation hold hnew => ?_
    exact (hreserved generation hnew).2 hold
  transactions := by
    intro other found hfound
    refine (h.transactions other found hfound).other (le_refl _) fun hother => ⟨rfl, rfl, ?_⟩
    rcases hlock with hnothing | hfree
    · show system.generations ++ value.reserved = system.generations
      rw [hnothing, append_nil]
    · rw [hfree] at hother
      cases hother

section

variable (hfound : system.transactions[number]? = some transaction)
include hfound

theorem StateInv.publish
    {value : StateValue}
    {text : JsValue} (hphase : transaction.phase = .staged value text) :
    ∃ next, StateInv next
      { system.setPhase number transaction (.renamed value) with file := some text } := by
  have hold := h.transactions number transaction hfound
  have hlock := hold.locked (by rw [hphase]; rfl)
  have hconsistent := hold.consistent
  rw [hphase] at hconsistent
  obtain ⟨next, hupdate, hserialized⟩ := hconsistent
  have hnumbers := numbers_of_update hupdate h.numbered hold.given
  refine ⟨next, ?_, hnumbers.valid, hnumbers.numbered, fun generation hmem => ?_,
    fun generation hmem => ?_, h.distinct, ?_⟩
  · show readState (some text) = some next
    rw [← hserialized]
    exact readState_serialized hnumbers.valid
  · exact (h.known generation hmem).trans_le hnumbers.grows
  · exact (h.returned generation hmem).trans_le hnumbers.grows
  · refine h.transactions_set hnumbers.grows (fun other hne hother => ?_) ⟨?_, fun _ => hlock, ?_⟩
    · rw [hlock] at hother
      exact absurd (some.inj hother).symm hne
    · exact fun generation hmem => (hold.given generation hmem).trans_le hnumbers.grows
    · refine ⟨hnumbers.told, fun generation hmem => ?_⟩
      obtain ⟨rfl, hless⟩ := hnumbers.reserved generation hmem
      -- the number is new, since all that were returned are below it
      exact ⟨hless, fun hreturned => lt_irrefl _ (h.returned _ hreturned)⟩

theorem StateInv.proceed : ∃ next, StateInv next (system.proceed number transaction) := by
  have hold := h.transactions number transaction hfound
  have hconsistent := hold.consistent
  unfold StateSystem.proceed
  cases hphase : transaction.phase with
  | waiting =>
    dsimp only
    split
    · next hfree =>
      refine ⟨current, h.stored, h.valid, h.numbered, h.known, h.returned, h.distinct, ?_⟩
      refine h.transactions_set (le_refl _) (fun other _ hother => ?_) ⟨hold.given, fun _ => rfl,
        trivial⟩
      rw [hfree] at hother
      cases hother
    · exact ⟨current, h⟩
  | locked =>
    dsimp only
    rw [h.stored]
    exact ⟨current, h.setPhase hfound (by rw [hphase]; rfl) rfl⟩
  | read state =>
    rw [hphase] at hconsistent
    obtain rfl : state = current := hconsistent
    dsimp only
    split
    · exact ⟨state, h.finish hfound rfl trivial⟩
    · next value next hupdate =>
      exact ⟨state, h.setPhase hfound (by rw [hphase]; rfl) hupdate⟩
  | updated value next =>
    rw [hphase] at hconsistent
    have hvalid := (numbers_of_update hconsistent h.numbered hold.given).valid
    have htext := serialized_of_valid hvalid
    dsimp only
    rw [htext]
    exact ⟨current, h.setPhase hfound (by rw [hphase]; rfl) ⟨next, hconsistent, htext⟩⟩
  | staged value text => exact h.publish hfound hphase
  | renamed value =>
    rw [hphase] at hconsistent
    have hlock := hold.locked (by rw [hphase]; rfl)
    have hfinished : StateInv current (system.finish number transaction (.returned value)) :=
      h.finish hfound rfl trivial
    dsimp only
    split
    · exact ⟨current, hfinished.tell hconsistent.1 hconsistent.2 (.inr (if_pos hlock))⟩
    · exact ⟨current, hfinished⟩
  | _ => exact ⟨current, h⟩

theorem StateInv.fail : StateInv current (system.fail number transaction) := by
  unfold StateSystem.fail
  split
  · exact h
  · exact h
  · exact h
  · exact h.finish hfound rfl trivial

end

theorem StateInv.load : StateInv current system.load := by
  unfold StateSystem.load
  rw [h.stored]
  exact h.tell h.numbered (fun _ hmem => absurd hmem not_mem_nil) (.inl rfl)

theorem StateInv.begin (operation : StateOperation) :
    StateInv current (system.begin operation) := by
  unfold StateSystem.begin
  split
  · next hknown =>
    refine ⟨h.stored, h.valid, h.numbered, h.known, h.returned, h.distinct, ?_⟩
    intro other found hfound
    rw [getElem?_append] at hfound
    split at hfound
    · exact h.transactions other found hfound
    · rw [mem_singleton.mp (mem_of_getElem? hfound)]
      refine ⟨fun generation hmem => ?_, fun hholds => (by cases hholds), trivial⟩
      have hcontains := all_eq_true.mp hknown generation hmem
      exact h.known generation (contains_iff_mem.mp hcontains)
  · exact h

/-- **Every step keeps the numbers.** -/
theorem StateInv.step (event : StateEvent) : ∃ next, StateInv next (stateStep event system) := by
  unfold stateStep
  cases event with (try dsimp only)
  | loads => exact ⟨current, h.load⟩
  | begins operation => exact ⟨current, h.begin operation⟩
  | proceeds number =>
    split
    · exact ⟨current, h⟩
    · next transaction hfound => exact h.proceed hfound
  | fails number =>
    split
    · exact ⟨current, h⟩
    · next transaction hfound => exact ⟨current, h.fail hfound⟩
  | interrupts number =>
    split
    · exact ⟨current, h⟩
    · next transaction hfound =>
      have hold := h.transactions number transaction hfound
      exact ⟨current, h.setTransaction ⟨hold.given, hold.locked, hold.consistent⟩⟩

end

end Steps

/-! ## The state file in every run -/

/-- What the supervisors rely on: no number is returned twice, the next load accepts what is
written, the next number is above all that are in the state, and the limit of the file stops
no update. -/
structure StateSystem.Sound (system : StateSystem) : Prop where
  distinct : system.generations.Nodup
  loads : ∃ state, readState system.file = some state ∧ state.Numbered
  written : ∀ transaction ∈ system.transactions, ∀ value text,
    transaction.phase = .staged value text →
      ∃ state, readState (some text) = some state ∧ state.Numbered
  fits : ∀ transaction ∈ system.transactions, transaction.phase ≠ .oversized

theorem StateInv.sound {current : AcpProcessState} {system : StateSystem}
    (h : StateInv current system) : system.Sound where
  distinct := h.distinct
  loads := ⟨current, h.stored, h.numbered⟩
  written := by
    intro transaction hmem value text hphase
    obtain ⟨number, hfound⟩ := mem_iff_getElem?.mp hmem
    have hold := h.transactions number transaction hfound
    have hconsistent := hold.consistent
    rw [hphase] at hconsistent
    obtain ⟨next, hupdate, hserialized⟩ := hconsistent
    have hnumbers := numbers_of_update hupdate h.numbered hold.given
    refine ⟨next, ?_, hnumbers.numbered⟩
    rw [← hserialized]
    exact readState_serialized hnumbers.valid
  fits := by
    intro transaction hmem hphase
    obtain ⟨number, hfound⟩ := mem_iff_getElem?.mp hmem
    have hconsistent := (h.transactions number transaction hfound).consistent
    rw [hphase] at hconsistent
    exact hconsistent

/-- **The state file in every run.** -/
theorem processState_sound (events : List StateEvent) :
    ∀ system ∈ visited stateStep .initial events, system.Sound := by
  have hstep : ∀ event system, (∃ current, StateInv current system) → True →
      ∃ current, StateInv current (stateStep event system) := by
    intro event system hinv _
    obtain ⟨current, h⟩ := hinv
    exact h.step event
  intro system hsystem
  obtain ⟨current, h⟩ := invariant_visited hstep ⟨_, stateInv_initial⟩ (runMeets_true _ _)
    system hsystem
  exact h.sound

/-- Two hosts start one after the other: the first one loses its process as it writes, and its
number is not used again. -/
def crashedReservation : List StateEvent :=
  [.loads, .begins (.reserveGeneration 5), .proceeds 0, .proceeds 0, .proceeds 0, .proceeds 0,
    .proceeds 0, .fails 0, .loads, .begins (.reserveGeneration 7), .proceeds 1, .proceeds 1,
    .proceeds 1, .proceeds 1, .proceeds 1, .proceeds 1]

theorem processState_sound_crashedReservation :
    (finalState stateStep .initial crashedReservation).generations = [2] ∧
      (finalState stateStep .initial crashedReservation).Sound :=
  ⟨by decide +kernel, processState_sound crashedReservation _ (finalState_mem_visited _ _)⟩

end Laborer.AcpRuntime
