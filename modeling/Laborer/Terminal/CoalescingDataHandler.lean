import Laborer.Library.Runs
import Laborer.Terminal.Transport
import Mathlib.Data.List.Induction
import Mathlib.Algebra.Order.Ring.Rat

/-!
# Coalescing of PTY output

Output that arrives while a window is open is held back until the window closes. The clock
and the getter of the window are read wherever the code reads them, and each reading is an
input of the call.
-/

namespace Laborer.Terminal

open Library List Option

def INPUT_COALESCE_WINDOW_MS : ℚ := 1

def INPUT_PRIORITY_DURATION_MS : ℚ := 100

def COALESCE_MAX_BUFFER_BYTES_DEFAULT : ℕ := 256 * 1024

structure CoalescingOptions where
  maxBufferBytes : Option ℕ
  prioritizeInput : Option Bool

/-- What one call of `currentWindowMs` reads: the clock, then the window. -/
structure WindowReading where
  now : ℚ
  configuredWindowMs : ℚ

/-- What `openWindow` reads: the window, then the clock. -/
structure WindowOpening where
  window : WindowReading
  now : ℚ

/-- The handler with the timers that are pending, by the number of their `setTimeout`, and
what it passed to `onFlush`. -/
structure CoalescingDataHandler where
  maxBufferBytes : ℕ
  prioritizeInput : Bool
  inputPriorityUntil : ℚ
  chunks : List Output
  bufferedBytes : ℕ
  timer : Option ℕ
  flushAt : ℚ
  pending : List ℕ
  timeouts : ℕ
  emitted : List Output

namespace CoalescingDataHandler

def create (options : CoalescingOptions) : CoalescingDataHandler where
  maxBufferBytes := options.maxBufferBytes.getD COALESCE_MAX_BUFFER_BYTES_DEFAULT
  prioritizeInput := options.prioritizeInput ≠ some false
  inputPriorityUntil := 0
  chunks := []
  bufferedBytes := 0
  timer := none
  flushAt := 0
  pending := []
  timeouts := 0
  emitted := []

def currentWindowMs (reading : WindowReading) (handler : CoalescingDataHandler) : ℚ :=
  if reading.now < handler.inputPriorityUntil then
    min INPUT_COALESCE_WINDOW_MS reading.configuredWindowMs
  else reading.configuredWindowMs

def emit (handler : CoalescingDataHandler) : CoalescingDataHandler :=
  if handler.chunks = [] then handler
  else
    { handler with
      chunks := []
      bufferedBytes := 0
      emitted := handler.emitted ++ [handler.chunks.flatten] }

def clearTimeout (timer : ℕ) (handler : CoalescingDataHandler) : CoalescingDataHandler :=
  { handler with pending := handler.pending.erase timer }

def openWindow (opening : WindowOpening) (handler : CoalescingDataHandler) :
    CoalescingDataHandler :=
  { handler with
    flushAt := opening.now + handler.currentWindowMs opening.window
    timer := some handler.timeouts
    pending := handler.pending ++ [handler.timeouts]
    timeouts := handler.timeouts + 1 }

def onTimeout (opening : WindowOpening) (handler : CoalescingDataHandler) :
    CoalescingDataHandler :=
  let closed := { handler with timer := none }
  if closed.chunks ≠ [] then closed.emit.openWindow opening else closed

def onInput (now : ℚ) (reading : WindowReading) (opening : WindowOpening)
    (handler : CoalescingDataHandler) : CoalescingDataHandler :=
  if handler.prioritizeInput then
    let prioritized :=
      { handler with inputPriorityUntil := now + INPUT_PRIORITY_DURATION_MS }
    match prioritized.timer with
    | none => prioritized
    | some timer =>
      if now + prioritized.currentWindowMs reading < prioritized.flushAt then
        (prioritized.clearTimeout timer).openWindow opening
      else prioritized
  else handler

def flush (handler : CoalescingDataHandler) : CoalescingDataHandler :=
  match handler.timer with
  | none => handler.emit
  | some timer => { handler.clearTimeout timer with timer := none }.emit

def write (data : Output) (opening : WindowOpening) (handler : CoalescingDataHandler) :
    CoalescingDataHandler :=
  if data = [] then handler
  else
    let pushed :=
      { handler with
        chunks := handler.chunks ++ [data]
        bufferedBytes := handler.bufferedBytes + utf8Bytes data }
    if pushed.maxBufferBytes ≤ pushed.bufferedBytes then pushed.flush
    else if pushed.timer = none then pushed.emit.openWindow opening
    else pushed

end CoalescingDataHandler

/-- The calls, with the readings that they make on the way, and the timers. -/
inductive CoalescingCall where
  | write (data : Output) (opening : WindowOpening)
  | onInput (now : ℚ) (reading : WindowReading) (opening : WindowOpening)
  | flush
  | timeout (timer : ℕ) (opening : WindowOpening)

namespace CoalescingDataHandler

/-- A timer fires while it is pending. -/
def call : CoalescingCall → CoalescingDataHandler → CoalescingDataHandler
  | .write data opening, handler => handler.write data opening
  | .onInput now reading opening, handler => handler.onInput now reading opening
  | .flush, handler => handler.flush
  | .timeout timer opening, handler =>
    if timer ∈ handler.pending then (handler.clearTimeout timer).onTimeout opening else handler

/-! ## The invariant -/

/-- What the handler holds and emitted is what was written, and the pending timer is the one
it knows. -/
structure Holds (written : Output) (handler : CoalescingDataHandler) : Prop where
  order : handler.emitted.flatten ++ handler.chunks.flatten = written
  counted : handler.bufferedBytes = utf8Bytes handler.chunks.flatten
  pending : handler.pending = handler.timer.toList

/-- Between two calls, what is held is small and a timer is set for it. -/
structure Coalesces (written : Output) (handler : CoalescingDataHandler) : Prop
    extends Holds written handler where
  bounded : handler.chunks = [] ∨ handler.bufferedBytes < handler.maxBufferBytes
  armed : handler.chunks ≠ [] → handler.timer ≠ none

section

variable {written : Output} {handler : CoalescingDataHandler} {opening : WindowOpening}

@[simp] theorem emit_chunks : handler.emit.chunks = [] := by
  unfold emit
  split
  · next h => exact h
  · rfl

@[simp] theorem emit_timer : handler.emit.timer = handler.timer := by
  unfold emit
  split <;> rfl

@[simp] theorem emit_pending : handler.emit.pending = handler.pending := by
  unfold emit
  split <;> rfl

theorem Holds.emit (h : handler.Holds written) : handler.emit.Holds written := by
  refine ⟨?_, ?_, by rw [emit_pending, emit_timer, h.pending]⟩
  · unfold CoalescingDataHandler.emit
    split
    · exact h.order
    · simpa using h.order
  · unfold CoalescingDataHandler.emit
    split
    · exact h.counted
    · rfl

theorem Holds.coalesces (h : handler.Holds written) (hchunks : handler.chunks = []) :
    handler.Coalesces written :=
  ⟨h, .inl hchunks, fun hne => absurd hchunks hne⟩

theorem Holds.clearTimeout {timer : ℕ} (h : handler.Holds written)
    (htimer : handler.timer = some timer) : (handler.clearTimeout timer).pending = [] := by
  have hpending := h.pending
  rw [htimer, toList_some] at hpending
  rw [CoalescingDataHandler.clearTimeout, hpending]
  exact erase_cons_head ..

theorem Coalesces.openWindow (horder : handler.emitted.flatten ++ handler.chunks.flatten = written)
    (hcounted : handler.bufferedBytes = utf8Bytes handler.chunks.flatten)
    (hbounded : handler.chunks = [] ∨ handler.bufferedBytes < handler.maxBufferBytes)
    (hidle : handler.pending = []) : (handler.openWindow opening).Coalesces written := by
  refine ⟨⟨horder, hcounted, ?_⟩, hbounded, fun _ => some_ne_none _⟩
  rw [CoalescingDataHandler.openWindow, hidle]
  rfl

theorem Holds.openWindow_emit (h : handler.Holds written) (hidle : handler.pending = []) :
    (handler.emit.openWindow opening).Coalesces written :=
  .openWindow h.emit.order h.emit.counted (.inl emit_chunks) (emit_pending.trans hidle)

theorem Holds.flush (h : handler.Holds written) :
    handler.flush.Coalesces written ∧ handler.flush.chunks = [] := by
  unfold CoalescingDataHandler.flush
  cases htimer : handler.timer with
  | none => exact ⟨h.emit.coalesces emit_chunks, emit_chunks⟩
  | some timer =>
    have hcleared : Holds written { handler.clearTimeout timer with timer := none } :=
      ⟨h.order, h.counted, h.clearTimeout htimer⟩
    exact ⟨hcleared.emit.coalesces emit_chunks, emit_chunks⟩

/-! ## What a call does -/

theorem Coalesces.write (data : Output) (h : handler.Coalesces written) :
    (handler.write data opening).Coalesces (written ++ data) := by
  unfold CoalescingDataHandler.write
  by_cases hdata : data = []
  · rw [if_pos hdata, hdata, append_nil]
    exact h
  rw [if_neg hdata]
  have hpushed : Holds (written ++ data)
      { handler with
        chunks := handler.chunks ++ [data]
        bufferedBytes := handler.bufferedBytes + utf8Bytes data } := by
    refine ⟨?_, ?_, h.pending⟩
    · rw [flatten_append, flatten_singleton, ← append_assoc, h.order]
    · rw [flatten_append, flatten_singleton, utf8Bytes_append, h.counted]
  dsimp only
  split
  · exact hpushed.flush.1
  · next hroom =>
    split
    · next hidle => exact hpushed.openWindow_emit (by rw [h.pending, hidle]; rfl)
    · next hbusy => exact ⟨hpushed, .inr (Nat.lt_of_not_le hroom), fun _ => hbusy⟩

theorem Coalesces.onInput (now : ℚ) (reading : WindowReading) (h : handler.Coalesces written) :
    (handler.onInput now reading opening).Coalesces written := by
  unfold CoalescingDataHandler.onInput
  split
  · dsimp only
    split
    · next hidle => exact ⟨⟨h.order, h.counted, h.pending⟩, h.bounded, h.armed⟩
    · next timer htimer =>
      split
      · exact .openWindow h.order h.counted h.bounded (h.clearTimeout htimer)
      · exact ⟨⟨h.order, h.counted, h.pending⟩, h.bounded, h.armed⟩
  · exact h

theorem Coalesces.timeout {timer : ℕ} (htimer : timer ∈ handler.pending)
    (h : handler.Coalesces written) :
    ((handler.clearTimeout timer).onTimeout opening).Coalesces written := by
  -- the timer that fires is the one the handler knows
  rw [h.pending, mem_toList] at htimer
  have hcleared : Holds written { handler.clearTimeout timer with timer := none } :=
    ⟨h.order, h.counted, h.clearTimeout htimer⟩
  unfold onTimeout
  dsimp only
  split
  · exact hcleared.openWindow_emit (h.clearTimeout htimer)
  · next hempty => exact hcleared.coalesces (not_not.mp hempty)

def writes : CoalescingCall → Output
  | .write data _ => data
  | _ => []

theorem call_coalesces (c : CoalescingCall) (h : handler.Coalesces written) :
    (call c handler).Coalesces (written ++ writes c) := by
  cases c with
  | write data opening => exact h.write data
  | onInput now reading opening =>
    rw [show writes (.onInput now reading opening) = [] from rfl, append_nil]
    exact h.onInput now reading
  | flush =>
    rw [show writes .flush = [] from rfl, append_nil]
    exact h.flush.1
  | timeout timer opening =>
    rw [show writes (.timeout timer opening) = [] from rfl, append_nil, call]
    split
    · next htimer => exact h.timeout htimer
    · exact h

/-- The reading at which a window is opened again is no later than the deadline it replaces;
and there is room for a byte. -/
def Timely : CoalescingCall → CoalescingDataHandler → Prop
  | .write _ _, handler => 0 < handler.maxBufferBytes
  | .onInput now reading opening, handler =>
    handler.prioritizeInput = true → handler.timer ≠ none →
      let prioritized := { handler with inputPriorityUntil := now + INPUT_PRIORITY_DURATION_MS }
      now + prioritized.currentWindowMs reading < handler.flushAt →
        opening.now + prioritized.currentWindowMs opening.window ≤ handler.flushAt
  | _, _ => True

@[simp] theorem emit_maxBufferBytes : handler.emit.maxBufferBytes = handler.maxBufferBytes := by
  unfold emit
  split <;> rfl

@[simp] theorem flush_maxBufferBytes : handler.flush.maxBufferBytes = handler.maxBufferBytes := by
  unfold flush
  split
  · exact emit_maxBufferBytes
  · exact emit_maxBufferBytes

theorem openWindow_maxBufferBytes (opening : WindowOpening) (handler : CoalescingDataHandler) :
    (handler.openWindow opening).maxBufferBytes = handler.maxBufferBytes := rfl

theorem write_maxBufferBytes (data : Output) :
    (handler.write data opening).maxBufferBytes = handler.maxBufferBytes := by
  unfold write
  split
  · rfl
  · dsimp only
    split
    · exact flush_maxBufferBytes
    · split
      · rw [openWindow_maxBufferBytes, emit_maxBufferBytes]
      · rfl

theorem call_maxBufferBytes (c : CoalescingCall) (handler : CoalescingDataHandler) :
    (call c handler).maxBufferBytes = handler.maxBufferBytes := by
  cases c with
  | write data opening => exact write_maxBufferBytes data
  | onInput now reading opening =>
    rw [call, onInput]
    split
    · dsimp only
      split
      · rfl
      · split <;> rfl
    · rfl
  | flush => exact flush_maxBufferBytes
  | timeout timer opening =>
    rw [call]
    split
    · rw [onTimeout]
      dsimp only
      split
      · rw [openWindow_maxBufferBytes, emit_maxBufferBytes]
        rfl
      · rfl
    · rfl

def deadline (handler : CoalescingDataHandler) : Option ℚ :=
  handler.timer.map fun _ => handler.flushAt

/-- Input never puts the deadline off exactly when the readings are timely. -/
theorem onInput_deadline_iff (now : ℚ) (reading : WindowReading) :
    (∀ before, handler.deadline = some before →
      ∃ later, (handler.onInput now reading opening).deadline = some later ∧ later ≤ before) ↔
      Timely (.onInput now reading opening) handler := by
  unfold Timely onInput deadline
  by_cases hprioritize : handler.prioritizeInput = true
  · rw [if_pos hprioritize]
    dsimp only
    cases htimer : handler.timer with
    | none => simp
    | some timer =>
      dsimp only
      split
      · next hearlier =>
        -- the window is opened again, with readings of its own
        constructor
        · intro hall _ _ _
          obtain ⟨later, hlater, hle⟩ := hall _ rfl
          rwa [← some.inj hlater] at hle
        · intro htimely before hbefore
          rw [← some.inj hbefore]
          exact ⟨_, rfl, htimely hprioritize (some_ne_none _) hearlier⟩
      · next hlater => simp [hlater]
  · rw [if_neg hprioritize]
    exact iff_of_true (fun before h => ⟨before, h, le_rfl⟩) fun h => absurd h hprioritize

end

/-! ## Whole runs -/

def after (options : CoalescingOptions) (calls : List CoalescingCall) : CoalescingDataHandler :=
  finalState call (create options) calls

structure CoalesceSound (options : CoalescingOptions) (calls : List CoalescingCall) : Prop where
  order : (after options calls).emitted.flatten ++ (after options calls).chunks.flatten =
    calls.flatMap writes
  bounded : ∀ before data opening, calls = before ++ [.write data opening] →
    utf8Bytes (after options calls).chunks.flatten <
      options.maxBufferBytes.getD COALESCE_MAX_BUFFER_BYTES_DEFAULT
  armed : (after options calls).chunks ≠ [] →
    ∃ timer, (after options calls).timer = some timer ∧ timer ∈ (after options calls).pending
  shortened : ∀ before now reading opening, calls = before ++ [.onInput now reading opening] →
    ∀ earlier, (after options before).deadline = some earlier →
      ∃ later, (after options calls).deadline = some later ∧ later ≤ earlier
  single : (after options calls).pending.length ≤ 1

section Runs

variable {options : CoalescingOptions} {calls : List CoalescingCall}

@[simp] theorem after_concat (c : CoalescingCall) :
    after options (calls ++ [c]) = call c (after options calls) := finalState_concat _ _ _

theorem create_coalesces : (create options).Coalesces [] :=
  ⟨⟨rfl, rfl, rfl⟩, .inl rfl, fun h => absurd rfl h⟩

theorem after_coalesces (options : CoalescingOptions) (calls : List CoalescingCall) :
    (after options calls).Coalesces (calls.flatMap writes) := by
  induction calls using reverseRecOn with
  | nil => exact create_coalesces
  | append_singleton calls c ih =>
    rw [after_concat, flatMap_append, flatMap_singleton]
    exact call_coalesces c ih

theorem after_maxBufferBytes (options : CoalescingOptions) (calls : List CoalescingCall) :
    (after options calls).maxBufferBytes =
      options.maxBufferBytes.getD COALESCE_MAX_BUFFER_BYTES_DEFAULT := by
  induction calls using reverseRecOn with
  | nil => rfl
  | append_singleton calls c ih => rw [after_concat, call_maxBufferBytes, ih]

theorem bounded_iff (options : CoalescingOptions) (calls : List CoalescingCall) :
    utf8Bytes (after options calls).chunks.flatten < (after options calls).maxBufferBytes ↔
      0 < (after options calls).maxBufferBytes := by
  have h := after_coalesces options calls
  refine ⟨fun hlt => Nat.zero_lt_of_lt hlt, fun hpos => ?_⟩
  rcases h.bounded with hempty | hlt
  · rwa [hempty, flatten_nil, utf8Bytes_nil]
  · rwa [← h.counted]

theorem armed_of_coalesces {written : Output} {handler : CoalescingDataHandler}
    (h : handler.Coalesces written) (hchunks : handler.chunks ≠ []) :
    ∃ timer, handler.timer = some timer ∧ timer ∈ handler.pending := by
  obtain ⟨timer, htimer⟩ := ne_none_iff_exists'.mp (h.armed hchunks)
  exact ⟨timer, htimer, by rw [h.pending, htimer]; exact mem_singleton_self timer⟩

theorem single_of_coalesces {written : Output} {handler : CoalescingDataHandler}
    (h : handler.Coalesces written) : handler.pending.length ≤ 1 := by
  rw [h.pending]
  cases handler.timer <;> simp

theorem sound_nil (options : CoalescingOptions) : CoalesceSound options [] where
  order := rfl
  bounded before _ _ h := absurd h.symm (by simp)
  armed h := absurd rfl h
  shortened before _ _ _ h := absurd h.symm (by simp)
  single := Nat.zero_le _

/-- The last call is the only one that can break what holds of a run. -/
theorem sound_concat (c : CoalescingCall) :
    CoalesceSound options (calls ++ [c]) ↔ Timely c (after options calls) := by
  have h := after_coalesces options (calls ++ [c])
  constructor
  · intro hsound
    cases c with
    | write data opening =>
      have hlt := hsound.bounded calls data opening rfl
      rw [Timely, after_maxBufferBytes]
      exact Nat.zero_lt_of_lt hlt
    | onInput now reading opening =>
      rw [← onInput_deadline_iff]
      have hshortened := hsound.shortened calls now reading opening rfl
      rwa [after_concat] at hshortened
    | flush => trivial
    | timeout => trivial
  · intro htimely
    refine ⟨h.order, ?_, armed_of_coalesces h, ?_, single_of_coalesces h⟩
    · rintro before data opening heq
      obtain ⟨rfl, rfl⟩ := append_singleton_inj.mp heq
      rw [Timely, after_maxBufferBytes] at htimely
      rw [← after_maxBufferBytes options (calls ++ [.write data opening]), bounded_iff,
        after_maxBufferBytes]
      exact htimely
    · rintro before now reading opening heq
      obtain ⟨rfl, rfl⟩ := append_singleton_inj.mp heq
      rw [after_concat]
      exact onInput_deadline_iff now reading |>.mpr htimely

/-- **Coalescing** loses nothing, keeps the order, and leaves no output without a timer; the
bound and the deadline hold exactly in the runs whose readings are timely. -/
theorem coalesce_sound_iff (options : CoalescingOptions) (calls : List CoalescingCall) :
    (∀ earlier, earlier <+: calls → CoalesceSound options earlier) ↔
      RunMeets call Timely (create options) calls := by
  induction calls using reverseRecOn with
  | nil =>
    refine iff_of_true (fun earlier hearlier => ?_) trivial
    rw [prefix_nil.mp hearlier]
    exact sound_nil options
  | append_singleton calls c ih =>
    have hlast : RunMeets call Timely (after options calls) [c] ↔ Timely c (after options calls) :=
      and_iff_left trivial
    rw [runMeets_append, ← ih, ← after, hlast, ← sound_concat]
    constructor
    · exact fun hall => ⟨fun earlier hearlier =>
        hall earlier (hearlier.trans (prefix_append _ _)), hall _ prefix_rfl⟩
    · rintro ⟨hall, hsound⟩ earlier hearlier
      rcases prefix_concat_iff.mp hearlier with rfl | hearlier
      · exact hsound
      · exact hall earlier hearlier

end Runs

/-- Input just before the deadline: the clock passes on between the check and the timer. -/
def lateInput : List CoalescingCall :=
  [.write ['a'] ⟨⟨0, 16⟩, 0⟩,
    .onInput (149995 / 10000) ⟨149996 / 10000, 16⟩ ⟨⟨150004 / 10000, 16⟩, 150005 / 10000⟩]

/-- **Input can put the deadline off.** The window is constant, and the timer that was due at
16 is replaced by one that is due later. -/
theorem lateInput_delays : ¬ CoalesceSound ⟨none, none⟩ lateInput := by
  intro h
  obtain ⟨later, hlater, hle⟩ :=
    h.shortened [.write ['a'] ⟨⟨0, 16⟩, 0⟩] _ _ _ rfl 16 (by decide +kernel)
  have hlate : (after ⟨none, none⟩ lateInput).deadline = some (160005 / 10000) := by
    decide +kernel
  rw [hlate, Option.some.injEq] at hlater
  rw [← hlater] at hle
  exact absurd hle (by decide +kernel)

end CoalescingDataHandler

end Laborer.Terminal
