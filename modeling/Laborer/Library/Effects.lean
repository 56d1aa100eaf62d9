import Mathlib.Logic.Basic

/-!
# Effects

Programs that end with a value, with a failure or by being stopped, and the combinators that
look at how another one ended. A failure has a cause, which can be caught; when the fiber of
the program itself is interrupted only the finalizers run.
-/

namespace Laborer.Library

/-- Why an effect failed: with an error that its type names, by a defect, or since an effect
that it ran was interrupted. -/
inductive Cause (ε : Type) where
  | fail (error : ε)
  | die
  | interrupted
deriving DecidableEq

inductive Exit (ε α : Type) where
  | success (value : α)
  | failure (cause : Cause ε)
  | stopped
deriving DecidableEq

/-- A program over a state. -/
def Effect (σ ε α : Type) : Type := σ → Exit ε α × σ

variable {σ ε ε' α β : Type}

namespace Exit

def isSuccess : Exit ε α → Bool
  | .success _ => true
  | _ => false

def mapError (f : ε → ε') : Exit ε α → Exit ε' α
  | .success value => .success value
  | .failure (.fail error) => .failure (.fail (f error))
  | .failure .die => .failure .die
  | .failure .interrupted => .failure .interrupted
  | .stopped => .stopped

end Exit

namespace Effect

def succeed (value : α) : Effect σ ε α := fun state => (.success value, state)

def done (exit : Exit ε α) : Effect σ ε α := fun state => (exit, state)

def modify (f : σ → σ) : Effect σ ε Unit := fun state => (.success (), f state)

def andThen (effect : Effect σ ε α) (next : α → Effect σ ε β) : Effect σ ε β := fun state =>
  match effect state with
  | (.success value, after) => next value after
  | (.failure cause, after) => (.failure cause, after)
  | (.stopped, after) => (.stopped, after)

def mapError (f : ε → ε') (effect : Effect σ ε α) : Effect σ ε' α := fun state =>
  ((effect state).1.mapError f, (effect state).2)

def ignore (effect : Effect σ ε Unit) : Effect σ ε' Unit := fun state =>
  match effect state with
  | (.success _, after) => (.success (), after)
  | (.failure (.fail _), after) => (.success (), after)
  | (.failure .die, after) => (.failure .die, after)
  | (.failure .interrupted, after) => (.failure .interrupted, after)
  | (.stopped, after) => (.stopped, after)

def tap (effect : Effect σ ε α) (next : α → Effect σ ε Unit) : Effect σ ε α :=
  effect.andThen fun value => (next value).andThen fun _ => succeed value

def catchError (effect : Effect σ ε α) (handler : ε → Effect σ ε' α) : Effect σ ε' α :=
  fun state =>
    match effect state with
    | (.failure (.fail error), after) => handler error after
    | (.failure .die, after) => (.failure .die, after)
    | (.failure .interrupted, after) => (.failure .interrupted, after)
    | (.success value, after) => (.success value, after)
    | (.stopped, after) => (.stopped, after)

/-- `Effect.catchCause`, of every failure. -/
def catchCause (effect : Effect σ ε α) (handler : Cause ε → Effect σ ε' α) : Effect σ ε' α :=
  fun state =>
    match effect state with
    | (.failure cause, after) => handler cause after
    | (.success value, after) => (.success value, after)
    | (.stopped, after) => (.stopped, after)

/-- `Effect.onExit`: the finalizer runs however the effect ended. -/
def onExit (effect : Effect σ ε α) (finalizer : Exit ε α → Effect σ ε Unit) : Effect σ ε α :=
  fun state =>
    match finalizer (effect state).1 (effect state).2 with
    | (.success _, after) => ((effect state).1, after)
    | (.failure cause, after) => (.failure cause, after)
    | (.stopped, after) => (.stopped, after)

def ensuring (effect : Effect σ ε α) (finalizer : Effect σ ε Unit) : Effect σ ε α :=
  effect.onExit fun _ => finalizer

/-! ## How they run -/

variable {effect : Effect σ ε α} {state after : σ} {next : α → Effect σ ε β} {value : α}
  {cause : Cause ε} {exit : Exit ε α} {last : σ} {handler : ε → Effect σ ε' α}

@[simp] theorem succeed_apply (value : α) (state : σ) :
    (succeed value : Effect σ ε α) state = (.success value, state) := rfl

@[simp] theorem modify_apply (f : σ → σ) (state : σ) :
    (modify f : Effect σ ε Unit) state = (.success (), f state) := rfl

theorem andThen_success
    (h : effect state = (.success value, after)) :
    effect.andThen next state = next value after := by
  rw [andThen, h]

theorem andThen_failure (h : effect state = (.failure cause, after)) :
    effect.andThen next state = (.failure cause, after) := by
  rw [andThen, h]

theorem andThen_stopped (h : effect state = (.stopped, after)) :
    effect.andThen next state = (.stopped, after) := by
  rw [andThen, h]

theorem andThen_cases (h : effect state = (exit, after)) :
    (∃ value, exit = .success value ∧ effect.andThen next state = next value after) ∨
      ∃ failed : Exit ε β, failed.isSuccess = false ∧
        effect.andThen next state = (failed, after) := by
  cases exit with
  | success value => exact .inl ⟨value, rfl, andThen_success h⟩
  | failure cause => exact .inr ⟨.failure cause, rfl, andThen_failure h⟩
  | stopped => exact .inr ⟨.stopped, rfl, andThen_stopped h⟩

theorem tap_success {next : α → Effect σ ε Unit}
    (h : effect state = (.success value, after)) (hnext : next value after = (.success (), last)) :
    effect.tap next state = (.success value, last) := by
  rw [tap, andThen_success h, andThen_success hnext, succeed_apply]

theorem tap_failure {next : α → Effect σ ε Unit} (h : effect state = (.failure cause, after)) :
    effect.tap next state = (.failure cause, after) :=
  andThen_failure h

theorem tap_stopped {next : α → Effect σ ε Unit} (h : effect state = (.stopped, after)) :
    effect.tap next state = (.stopped, after) :=
  andThen_stopped h

theorem catchError_fail {error : ε} (h : effect state = (.failure (.fail error), after)) :
    effect.catchError handler state = handler error after := by
  rw [catchError, h]

theorem catchError_die (h : effect state = (.failure .die, after)) :
    effect.catchError handler state = (.failure .die, after) := by
  rw [catchError, h]

theorem catchError_interrupted (h : effect state = (.failure .interrupted, after)) :
    effect.catchError handler state = (.failure .interrupted, after) := by
  rw [catchError, h]

theorem catchError_success (h : effect state = (.success value, after)) :
    effect.catchError handler state = (.success value, after) := by
  rw [catchError, h]

theorem catchError_stopped (h : effect state = (.stopped, after)) :
    effect.catchError handler state = (.stopped, after) := by
  rw [catchError, h]

theorem catchCause_failure {handler : Cause ε → Effect σ ε' α}
    (h : effect state = (.failure cause, after)) :
    effect.catchCause handler state = handler cause after := by
  rw [catchCause, h]

theorem catchCause_success {handler : Cause ε → Effect σ ε' α}
    (h : effect state = (.success value, after)) :
    effect.catchCause handler state = (.success value, after) := by
  rw [catchCause, h]

theorem catchCause_stopped {handler : Cause ε → Effect σ ε' α}
    (h : effect state = (.stopped, after)) :
    effect.catchCause handler state = (.stopped, after) := by
  rw [catchCause, h]

theorem onExit_success {finalizer : Exit ε α → Effect σ ε Unit}
    (h : effect state = (exit, after)) (hfinal : finalizer exit after = (.success (), last)) :
    effect.onExit finalizer state = (exit, last) := by
  rw [onExit, h, hfinal]

theorem ensuring_success {finalizer : Effect σ ε Unit}
    (h : effect state = (exit, after)) (hfinal : finalizer after = (.success (), last)) :
    effect.ensuring finalizer state = (exit, last) :=
  onExit_success h hfinal

end Effect

end Laborer.Library
