import Laborer.Library.Runs
import Mathlib.Algebra.GroupWithZero.Nat
import Mathlib.Data.List.Induction

/-!
# The replay recorder

The recorder keeps the last output of a terminal in frames, one for each size the terminal
had. What it recorded is always the end of what was written, each character in the size it was
written in. It trims from the front and stops at a frame without a chunk, so the bound on what
it keeps rests on there being none before the last frame.
-/

namespace Laborer.Terminal

open Library List

abbrev ReplayChunk := List UInt16

structure ReplayRecorderEntry where
  cols : ℕ
  rows : ℕ
  data : List ReplayChunk

structure SerializedReplayFrame where
  cols : ℕ
  rows : ℕ
  data : ReplayChunk

/-- `commands` is kept for the client, the recorder does not look at it. -/
structure SerializedReplayEvent (Commands : Type) where
  commands : Option Commands
  events : List SerializedReplayFrame

structure ReplayRecorder (Commands : Type) where
  commands : Option Commands
  entries : List ReplayRecorderEntry
  maxSize : ℕ
  totalDataLength : ℕ

namespace ReplayRecorderEntry

def chunkCount (entries : List ReplayRecorderEntry) : ℕ :=
  (entries.map fun entry => entry.data.length).sum

def trim (maxSize : ℕ) : ℕ → List ReplayRecorderEntry → ℕ × List ReplayRecorderEntry
  | totalDataLength, [] => (totalDataLength, [])
  -- the loop breaks at a first entry without a chunk
  | totalDataLength, ⟨cols, rows, []⟩ :: entries => (totalDataLength, ⟨cols, rows, []⟩ :: entries)
  | totalDataLength, ⟨cols, rows, firstChunk :: data⟩ :: entries =>
    if maxSize < totalDataLength then
      let remainingToDelete := totalDataLength - maxSize
      if firstChunk.length ≤ remainingToDelete then
        trim maxSize (totalDataLength - firstChunk.length)
          (if data = [] ∧ entries ≠ [] then entries else ⟨cols, rows, data⟩ :: entries)
      else
        trim maxSize (totalDataLength - remainingToDelete)
          (⟨cols, rows, firstChunk.drop remainingToDelete :: data⟩ :: entries)
    else (totalDataLength, ⟨cols, rows, firstChunk :: data⟩ :: entries)
termination_by totalDataLength entries => totalDataLength + chunkCount entries
decreasing_by
  all_goals simp only [chunkCount]
  all_goals grind

/-! ## What frames hold -/

def dimensions (entry : ReplayRecorderEntry) : ℕ × ℕ := (entry.cols, entry.rows)

/-- The characters of the frames, each with the size of its frame. -/
def placed (entries : List ReplayRecorderEntry) : List (UInt16 × ℕ × ℕ) :=
  entries.flatMap fun entry => entry.data.flatten.map (·, entry.dimensions)

/-- The characters that can be trimmed: those before the first frame without a chunk. -/
def loose : List ReplayRecorderEntry → ℕ
  | [] => 0
  | entry :: entries => if entry.data = [] then 0 else entry.data.flatten.length + loose entries

def lastDimensions (entries : List ReplayRecorderEntry) : Option (ℕ × ℕ) :=
  entries.getLast?.map dimensions

section

variable {entries later : List ReplayRecorderEntry} {entry : ReplayRecorderEntry}

@[simp] theorem placed_nil : placed [] = [] := rfl

@[simp] theorem placed_cons : placed (entry :: entries) =
    entry.data.flatten.map (·, entry.dimensions) ++ placed entries := rfl

@[simp] theorem placed_append : placed (entries ++ later) = placed entries ++ placed later :=
  flatMap_append

theorem loose_le_placed (entries : List ReplayRecorderEntry) :
    loose entries ≤ (placed entries).length := by
  induction entries with
  | nil => exact Nat.le_refl _
  | cons entry entries ih =>
    rw [loose, placed_cons, length_append, length_map]
    split
    · exact Nat.zero_le _
    · exact Nat.add_le_add_left ih _

/-- The last frame is not in the way of the frames before it. -/
theorem loose_concat (hchunk : entry.data ≠ []) : loose (entries ++ [entry]) =
    if ∀ earlier ∈ entries, earlier.data ≠ [] then (placed (entries ++ [entry])).length
    else loose entries := by
  induction entries with
  | nil =>
    rw [if_pos nofun, nil_append, loose, if_neg hchunk, loose, placed_cons, placed_nil,
      append_nil, length_map, Nat.add_zero]
  | cons first entries ih =>
    rw [cons_append, loose, ih, loose, placed_cons, length_append, length_map]
    by_cases hfirst : first.data = []
    · rw [if_pos hfirst, if_pos hfirst, if_neg]
      exact fun hall => hall first mem_cons_self hfirst
    · rw [if_neg hfirst, if_neg hfirst]
      by_cases hall : ∀ earlier ∈ entries, earlier.data ≠ []
      · rw [if_pos hall, if_pos]
        exact forall_mem_cons.mpr ⟨hfirst, hall⟩
      · rw [if_neg hall, if_neg]
        exact fun h => hall (forall_mem_cons.mp h).2

/-- What the trimming loop takes off: the excess, or as much of it as is loose. -/
def removed (maxSize totalDataLength : ℕ) (entries : List ReplayRecorderEntry) : ℕ :=
  min (loose entries) (totalDataLength - maxSize)

theorem shifted_spec (cols rows : ℕ) (firstChunk : ReplayChunk) (data : List ReplayChunk)
    (entries : List ReplayRecorderEntry) :
    let frames := ⟨cols, rows, firstChunk :: data⟩ :: entries
    let shifted := if data = [] ∧ entries ≠ [] then entries else ⟨cols, rows, data⟩ :: entries
    placed frames = firstChunk.map (·, cols, rows) ++ placed shifted ∧
      loose frames = firstChunk.length + loose shifted ∧
      lastDimensions shifted = lastDimensions frames := by
  by_cases hdata : data = []
  · subst hdata
    cases entries with
    | nil => simp [placed, loose, dimensions, lastDimensions]
    | cons entry entries => simp [placed, loose, dimensions, lastDimensions]
  · simp only [hdata, false_and, if_false]
    refine ⟨?_, ?_, ?_⟩
    · rw [placed_cons, placed_cons, flatten_cons, map_append, append_assoc]
      rfl
    · rw [loose, loose, if_neg (cons_ne_nil _ _), if_neg hdata, flatten_cons,
        length_append, Nat.add_assoc]
    · unfold lastDimensions
      cases entries with
      | nil => rfl
      | cons entry entries => rw [getLast?_cons_cons, getLast?_cons_cons]

theorem trim_spec (maxSize totalDataLength : ℕ) (entries : List ReplayRecorderEntry)
    (htotal : totalDataLength = (placed entries).length) :
    (trim maxSize totalDataLength entries).1 =
        totalDataLength - removed maxSize totalDataLength entries ∧
      placed (trim maxSize totalDataLength entries).2 =
        (placed entries).drop (removed maxSize totalDataLength entries) ∧
      lastDimensions (trim maxSize totalDataLength entries).2 = lastDimensions entries := by
  have hloose := loose_le_placed entries
  unfold removed
  fun_induction trim maxSize totalDataLength entries with
  | case1 => simp [loose]
  | case2 => simp [loose]
  | case3 totalDataLength cols rows firstChunk data entries hover remaining hfits ih =>
    -- the first chunk goes
    obtain ⟨hplaced, hchars, hlast⟩ := shifted_spec cols rows firstChunk data entries
    simp only [dite_eq_ite] at ih hplaced hchars hlast ⊢
    generalize (if data = [] ∧ entries ≠ [] then entries else
      ⟨cols, rows, data⟩ :: entries) = shifted at ih hplaced hchars hlast ⊢
    rw [hplaced, length_append, length_map] at htotal
    obtain ⟨htotal', hplaced', hlast'⟩ := ih (by omega) (loose_le_placed shifted)
    have hremoved : min (loose (⟨cols, rows, firstChunk :: data⟩ :: entries))
        (totalDataLength - maxSize) = firstChunk.length +
          min (loose shifted) (totalDataLength - firstChunk.length - maxSize) := by
      omega
    rw [hremoved, htotal', hplaced', hlast', hplaced]
    refine ⟨by omega, ?_, hlast⟩
    have hlength : (firstChunk.map (·, cols, rows)).length = firstChunk.length := length_map _
    rw [← hlength, drop_length_add_append]
  | case4 totalDataLength cols rows firstChunk data entries hover remaining hfits ih =>
    -- the rest of the excess is taken from the first chunk
    have hplaced : placed (⟨cols, rows, firstChunk.drop remaining :: data⟩ :: entries) =
        (placed (⟨cols, rows, firstChunk :: data⟩ :: entries)).drop remaining := by
      simp only [placed_cons, dimensions, flatten_cons, map_append, append_assoc]
      rw [drop_append_of_le_length (by rw [length_map]; omega), map_drop]
    have hlength := congrArg List.length hplaced
    rw [length_drop, ← htotal] at hlength
    obtain ⟨htotal', hplaced', hlast'⟩ := ih hlength.symm (loose_le_placed _)
    have hfull : firstChunk.length ≤ loose (⟨cols, rows, firstChunk :: data⟩ :: entries) := by
      rw [loose, if_neg (cons_ne_nil _ _), flatten_cons, length_append]
      omega
    have hdone : totalDataLength - remaining - maxSize = 0 := by omega
    have hall : min (loose (⟨cols, rows, firstChunk :: data⟩ :: entries))
        (totalDataLength - maxSize) = remaining := by omega
    rw [htotal', hplaced', hlast', hdone, hplaced, hall, Nat.min_zero]
    refine ⟨rfl, rfl, ?_⟩
    unfold lastDimensions
    cases entries with
    | nil => rfl
    | cons entry entries => rw [getLast?_cons_cons, getLast?_cons_cons]
  | case5 totalDataLength cols rows firstChunk data entries hover =>
    rw [Nat.sub_eq_zero_of_le (Nat.le_of_not_lt hover)]
    simp

end

end ReplayRecorderEntry

namespace ReplayRecorder

open ReplayRecorderEntry

variable {Commands : Type}

def create (cols rows maxSize : ℕ) : ReplayRecorder Commands where
  commands := none
  entries := [⟨cols, rows, []⟩]
  maxSize := maxSize
  totalDataLength := 0

def handleData (data : ReplayChunk) (recorder : ReplayRecorder Commands) :
    ReplayRecorder Commands :=
  match recorder.entries.getLast? with
  | none => recorder
  | some lastEntry =>
    let pushed := recorder.entries.dropLast ++ [{ lastEntry with data := lastEntry.data ++ [data] }]
    let trimmed := trim recorder.maxSize (recorder.totalDataLength + data.length) pushed
    { recorder with totalDataLength := trimmed.1, entries := trimmed.2 }

/-- The end of `handleResize`: a frame of the new size, unless the last one has it. -/
def settle (cols rows : ℕ) (entries : List ReplayRecorderEntry) : List ReplayRecorderEntry :=
  match entries.getLast? with
  | none => entries ++ [⟨cols, rows, []⟩]
  | some nextLastEntry =>
    if nextLastEntry.cols = cols ∧ nextLastEntry.rows = rows then entries
    else entries ++ [⟨cols, rows, []⟩]

def handleResize (cols rows : ℕ) (recorder : ReplayRecorder Commands) :
    ReplayRecorder Commands :=
  match recorder.entries.getLast? with
  | none => { recorder with entries := recorder.entries ++ [⟨cols, rows, []⟩] }
  | some lastEntry =>
    if lastEntry.data = [] then
      if recorder.entries.length = 1 then
        { recorder with
          entries := recorder.entries.dropLast ++ [{ lastEntry with cols := cols, rows := rows }] }
      else { recorder with entries := settle cols rows recorder.entries.dropLast }
    else { recorder with entries := settle cols rows recorder.entries }

def loadReplayEvent (replayEvent : SerializedReplayEvent Commands)
    (recorder : ReplayRecorder Commands) : ReplayRecorder Commands :=
  let entries := replayEvent.events.map fun event =>
    { cols := event.cols, rows := event.rows
      data := if 0 < event.data.length then [event.data] else [] }
  { recorder with
    commands := replayEvent.commands
    entries := if entries = [] then [⟨0, 0, []⟩] else entries
    totalDataLength := (replayEvent.events.map fun event => event.data.length).sum }

def toReplayEvent (recorder : ReplayRecorder Commands) : SerializedReplayEvent Commands where
  commands := recorder.commands
  events := recorder.entries.map fun entry =>
    { cols := entry.cols, rows := entry.rows, data := entry.data.flatten }

end ReplayRecorder

inductive RecorderCall where
  | handleData (data : ReplayChunk)
  | handleResize (cols rows : ℕ)
  | reload

namespace ReplayRecorder

open ReplayRecorderEntry

variable {Commands : Type}

def call : RecorderCall → ReplayRecorder Commands → ReplayRecorder Commands
  | .handleData data, recorder => recorder.handleData data
  | .handleResize cols rows, recorder => recorder.handleResize cols rows
  | .reload, recorder => recorder.loadReplayEvent recorder.toReplayEvent

/-! ## What a call does -/

/-- The recorder holds the end of what was written, and its last frame has the size of the
terminal. -/
structure Records (written : List (UInt16 × ℕ × ℕ)) (size : ℕ × ℕ)
    (recorder : ReplayRecorder Commands) : Prop where
  recorded : placed recorder.entries <:+ written
  last : lastDimensions recorder.entries = some size
  total : recorder.totalDataLength = (placed recorder.entries).length

/-- The excess can be trimmed: every frame before the last has a chunk, or those before the
first that has none hold enough. -/
def Trimmable : RecorderCall → ReplayRecorder Commands → Prop
  | .handleData data, recorder =>
    (∀ entry ∈ recorder.entries.dropLast, entry.data ≠ []) ∨
      recorder.totalDataLength + data.length ≤ recorder.maxSize + loose recorder.entries.dropLast
  | _, _ => True

def sizeAfter : ℕ × ℕ → RecorderCall → ℕ × ℕ
  | _, .handleResize cols rows => (cols, rows)
  | size, _ => size

def writes (size : ℕ × ℕ) : RecorderCall → List (UInt16 × ℕ × ℕ)
  | .handleData data => data.map (·, size)
  | _ => []

@[simp] theorem writes_handleResize (size : ℕ × ℕ) (cols rows : ℕ) :
    writes size (.handleResize cols rows) = [] := rfl

@[simp] theorem writes_reload (size : ℕ × ℕ) : writes size .reload = [] := rfl

section

variable {recorder : ReplayRecorder Commands} {written : List (UInt16 × ℕ × ℕ)} {size : ℕ × ℕ}

theorem Records.split (h : recorder.Records written size) :
    ∃ earlier lastEntry, recorder.entries = earlier ++ [lastEntry] ∧
      lastEntry.dimensions = size := by
  obtain ⟨lastEntry, hlast, hsize⟩ := Option.map_eq_some_iff.mp h.last
  obtain ⟨earlier, hentries⟩ := getLast?_eq_some_iff.mp hlast
  exact ⟨earlier, lastEntry, hentries, hsize⟩

@[simp] theorem lastDimensions_concat (entries : List ReplayRecorderEntry)
    (entry : ReplayRecorderEntry) :
    lastDimensions (entries ++ [entry]) = some entry.dimensions := by
  rw [lastDimensions, getLast?_concat, Option.map_some]

theorem placed_concat_empty {entries : List ReplayRecorderEntry} {entry : ReplayRecorderEntry}
    (h : entry.data = []) : placed (entries ++ [entry]) = placed entries := by
  rw [placed_append, placed_cons, h]
  exact append_nil _

theorem handleData_spec (data : ReplayChunk) (h : recorder.Records written size) :
    ∃ trimmed, trimmed ≤ recorder.totalDataLength + data.length - recorder.maxSize ∧
      (recorder.Trimmable (.handleData data) ↔
        trimmed = recorder.totalDataLength + data.length - recorder.maxSize) ∧
      (recorder.handleData data).totalDataLength =
        recorder.totalDataLength + data.length - trimmed ∧
      placed (recorder.handleData data).entries =
        (placed recorder.entries ++ data.map (·, size)).drop trimmed ∧
      lastDimensions (recorder.handleData data).entries = some size := by
  obtain ⟨earlier, lastEntry, hentries, rfl⟩ := h.split
  let grown : ReplayRecorderEntry := { lastEntry with data := lastEntry.data ++ [data] }
  have hplaced : placed (earlier ++ [grown]) =
      placed recorder.entries ++ data.map (·, lastEntry.dimensions) := by
    rw [hentries, placed_append, placed_append, append_assoc, placed_cons, placed_cons]
    simp [grown, dimensions]
  have htotal : recorder.totalDataLength + data.length = (placed (earlier ++ [grown])).length := by
    rw [hplaced, length_append, length_map, h.total]
  have hcall : recorder.handleData data =
      { recorder with
        totalDataLength := (trim recorder.maxSize (recorder.totalDataLength + data.length)
          (earlier ++ [grown])).1
        entries := (trim recorder.maxSize (recorder.totalDataLength + data.length)
          (earlier ++ [grown])).2 } := by
    unfold handleData
    rw [hentries, getLast?_concat, dropLast_concat]
  obtain ⟨hlength, hdrop, hlast⟩ := trim_spec recorder.maxSize _ _ htotal
  rw [hcall, ← hplaced]
  refine ⟨_, Nat.min_le_right _ _, ?_, hlength, hdrop, hlast.trans (lastDimensions_concat _ _)⟩
  rw [Trimmable, hentries, dropLast_concat, loose_concat (by simp [grown])]
  by_cases hall : ∀ entry ∈ earlier, entry.data ≠ []
  · rw [if_pos hall]
    exact iff_of_true (.inl hall) (by omega)
  · rw [if_neg hall, or_iff_right hall]
    omega

theorem settle_spec (cols rows : ℕ) (entries : List ReplayRecorderEntry) :
    placed (settle cols rows entries) = placed entries ∧
      lastDimensions (settle cols rows entries) = some (cols, rows) := by
  unfold settle
  cases hlast : entries.getLast? with
  | none => exact ⟨placed_concat_empty rfl, lastDimensions_concat _ _⟩
  | some nextLastEntry =>
    dsimp only
    split
    · next hsame =>
      refine ⟨rfl, ?_⟩
      rw [lastDimensions, hlast, Option.map_some, dimensions, hsame.1, hsame.2]
    · exact ⟨placed_concat_empty rfl, lastDimensions_concat _ _⟩

theorem handleResize_spec (cols rows : ℕ) (h : recorder.Records written size) :
    placed (recorder.handleResize cols rows).entries = placed recorder.entries ∧
      lastDimensions (recorder.handleResize cols rows).entries = some (cols, rows) ∧
      (recorder.handleResize cols rows).totalDataLength = recorder.totalDataLength := by
  obtain ⟨earlier, lastEntry, hentries, -⟩ := h.split
  unfold handleResize
  rw [hentries, getLast?_concat, dropLast_concat]
  dsimp only
  by_cases hempty : lastEntry.data = []
  · rw [if_pos hempty, placed_concat_empty hempty]
    split
    · exact ⟨placed_concat_empty hempty, lastDimensions_concat _ _, rfl⟩
    · obtain ⟨hplaced, hlast⟩ := settle_spec cols rows earlier
      exact ⟨hplaced, hlast, rfl⟩
  · rw [if_neg hempty]
    obtain ⟨hplaced, hlast⟩ := settle_spec cols rows (earlier ++ [lastEntry])
    exact ⟨hplaced, hlast, rfl⟩

def reloaded (entry : ReplayRecorderEntry) : ReplayRecorderEntry :=
  { entry with data := if 0 < entry.data.flatten.length then [entry.data.flatten] else [] }

theorem reloaded_flatten (entry : ReplayRecorderEntry) :
    (reloaded entry).data.flatten = entry.data.flatten := by
  unfold reloaded
  by_cases hchars : 0 < entry.data.flatten.length
  · rw [if_pos hchars, flatten_singleton]
  · rw [if_neg hchars, eq_nil_of_length_eq_zero (Nat.eq_zero_of_not_pos hchars)]
    rfl

theorem placed_reloaded (entries : List ReplayRecorderEntry) :
    placed (entries.map reloaded) = placed entries := by
  induction entries with
  | nil => rfl
  | cons entry entries ih =>
    rw [map_cons, placed_cons, placed_cons, reloaded_flatten, ih]
    rfl

theorem reload_eq (hentries : recorder.entries ≠ []) :
    recorder.loadReplayEvent recorder.toReplayEvent =
      { recorder with
        entries := recorder.entries.map reloaded
        totalDataLength := (placed recorder.entries).length } := by
  have hframes : recorder.entries.map reloaded ≠ [] := by simpa using hentries
  have hlength : ∀ entries : List ReplayRecorderEntry,
      (entries.map fun entry => entry.data.flatten.length).sum = (placed entries).length := by
    intro entries
    induction entries with
    | nil => rfl
    | cons entry entries ih =>
      rw [map_cons, sum_cons, ih, placed_cons, length_append, length_map]
  unfold loadReplayEvent toReplayEvent
  rw [← hlength]
  simp only [map_map]
  congr 1
  exact if_neg hframes

theorem reload_spec (h : recorder.Records written size) :
    (recorder.loadReplayEvent recorder.toReplayEvent).Records written size := by
  obtain ⟨earlier, lastEntry, hentries, rfl⟩ := h.split
  rw [reload_eq (by simp [hentries])]
  refine ⟨?_, ?_, ?_⟩
  · rw [placed_reloaded]
    exact h.recorded
  · rw [hentries, map_append]
    exact lastDimensions_concat _ _
  · rw [placed_reloaded]

theorem call_maxSize (c : RecorderCall) (recorder : ReplayRecorder Commands) :
    (call c recorder).maxSize = recorder.maxSize := by
  cases c with
  | handleData data =>
    rw [call, handleData]
    split <;> rfl
  | handleResize cols rows =>
    rw [call, handleResize]
    split
    · rfl
    · split
      · split <;> rfl
      · rfl
  | reload => rfl

theorem call_records (c : RecorderCall) (h : recorder.Records written size) :
    (call c recorder).Records (written ++ writes size c) (sizeAfter size c) := by
  cases c with
  | handleData data =>
    obtain ⟨trimmed, -, -, htotal, hplaced, hlast⟩ := handleData_spec data h
    refine ⟨?_, hlast, ?_⟩
    · rw [call, hplaced]
      exact (drop_suffix _ _).trans (suffix_append_self_iff.mpr h.recorded)
    · rw [call, htotal, hplaced, length_drop, length_append, length_map, h.total]
  | handleResize cols rows =>
    obtain ⟨hplaced, hlast, htotal⟩ := handleResize_spec cols rows h
    rw [writes_handleResize, append_nil]
    exact ⟨hplaced.symm ▸ h.recorded, hlast, by rw [call, htotal, hplaced, h.total]⟩
  | reload =>
    rw [writes_reload, append_nil]
    exact reload_spec h

theorem call_length (c : RecorderCall) (h : recorder.Records written size)
    (hlength : (placed recorder.entries).length = min recorder.maxSize written.length) :
    (placed (call c recorder).entries).length =
        min recorder.maxSize (written ++ writes size c).length ↔ Trimmable c recorder := by
  cases c with
  | handleData data =>
    obtain ⟨trimmed, hle, htrimmable, -, hplaced, -⟩ := handleData_spec data h
    rw [htrimmable, call, hplaced, writes, length_drop, length_append, length_append, length_map]
    have htotal := h.total
    omega
  | handleResize cols rows =>
    rw [writes_handleResize, append_nil, ← hlength, call, (handleResize_spec cols rows h).1]
    exact iff_of_true rfl trivial
  | reload =>
    rw [writes_reload, append_nil, ← hlength, call, reload_eq, placed_reloaded]
    · exact iff_of_true rfl trivial
    · obtain ⟨earlier, lastEntry, hentries, -⟩ := h.split
      simp [hentries]

end

/-! ## Whole runs -/

def after (Commands : Type) (cols rows maxSize : ℕ) (calls : List RecorderCall) :
    ReplayRecorder Commands :=
  finalState call (create cols rows maxSize) calls

/-- All that was written, each character with the size that was current then. -/
def written : ℕ × ℕ → List RecorderCall → List (UInt16 × ℕ × ℕ)
  | _, [] => []
  | size, c :: calls => writes size c ++ written (sizeAfter size c) calls

def currentSize (size : ℕ × ℕ) (calls : List RecorderCall) : ℕ × ℕ := calls.foldl sizeAfter size

/-- What a recorder holds after a sequence of calls: the end of what was written, each
character in a frame of the size it was written in. -/
structure ReplaySound (Commands : Type) (cols rows maxSize : ℕ) (calls : List RecorderCall) :
    Prop where
  recorded : placed (after Commands cols rows maxSize calls).entries <:+ written (cols, rows) calls
  bounded : (placed (after Commands cols rows maxSize calls).entries).length ≤ maxSize
  length : (placed (after Commands cols rows maxSize calls).entries).length =
    min maxSize (written (cols, rows) calls).length
  last : lastDimensions (after Commands cols rows maxSize calls).entries =
    some (currentSize (cols, rows) calls)

section Runs

variable {recorder : ReplayRecorder Commands} {before : List (UInt16 × ℕ × ℕ)} {size : ℕ × ℕ}

theorem run_records (calls : List RecorderCall) (h : recorder.Records before size) :
    (finalState call recorder calls).Records (before ++ written size calls)
      (currentSize size calls) := by
  induction calls generalizing recorder before size with
  | nil =>
    rw [written, append_nil]
    exact h
  | cons c calls ih =>
    rw [written, ← append_assoc]
    exact ih (call_records c h)

theorem run_length (calls : List RecorderCall) (h : recorder.Records before size)
    (hlength : (placed recorder.entries).length = min recorder.maxSize before.length) :
    (∀ earlier, earlier <+: calls → (placed (finalState call recorder earlier).entries).length =
        min recorder.maxSize (before ++ written size earlier).length) ↔
      RunMeets call Trimmable recorder calls := by
  induction calls generalizing recorder before size with
  | nil =>
    refine iff_of_true (fun earlier hearlier => ?_) trivial
    rw [prefix_nil.mp hearlier, written, append_nil]
    exact hlength
  | cons c calls ih =>
    -- the first call, and the run from the state after it
    have hcall := call_length c h hlength
    rw [← call_maxSize c recorder] at hcall
    constructor
    · intro hall
      have hfirst := hall [c] (by simp)
      rw [written, written, append_nil, ← call_maxSize c recorder] at hfirst
      refine ⟨hcall.mp hfirst, (ih (call_records c h) hfirst).mp fun earlier hearlier => ?_⟩
      have hlater := hall (c :: earlier) (cons_prefix_cons.mpr ⟨rfl, hearlier⟩)
      rwa [written, ← append_assoc, ← call_maxSize c recorder] at hlater
    · rintro ⟨htrimmable, hrun⟩ earlier hearlier
      cases earlier with
      | nil =>
        rw [written, append_nil]
        exact hlength
      | cons c' earlier =>
        obtain ⟨rfl, hrest⟩ := cons_prefix_cons.mp hearlier
        rw [written, ← append_assoc, ← call_maxSize c' recorder]
        exact (ih (call_records c' h) (hcall.mpr htrimmable)).mpr hrun earlier hrest

theorem create_records (cols rows maxSize : ℕ) :
    (create cols rows maxSize : ReplayRecorder Commands).Records [] (cols, rows) :=
  ⟨suffix_rfl, rfl, rfl⟩

/-- **What a restored terminal goes through.** Always the end of what was written, in the
sizes it was written in, up to the last one; and as much of it as fits exactly in the runs
where no excess is behind a frame without a chunk. -/
theorem replay_sound_iff (Commands : Type) (cols rows maxSize : ℕ) (calls : List RecorderCall) :
    (∀ earlier, earlier <+: calls → ReplaySound Commands cols rows maxSize earlier) ↔
      RunMeets call Trimmable (create cols rows maxSize : ReplayRecorder Commands) calls := by
  have hcreate : (create cols rows maxSize : ReplayRecorder Commands).Records [] (cols, rows) :=
    create_records cols rows maxSize
  have hlength := run_length calls hcreate (by simp [create, placed])
  rw [← hlength]
  constructor
  · exact fun hsound earlier hearlier => (hsound earlier hearlier).length
  · intro hall earlier hearlier
    have hrecords := run_records earlier hcreate
    have heq := hall earlier hearlier
    exact ⟨hrecords.recorded, Nat.le_trans (Nat.le_of_eq heq) (Nat.min_le_left _ _), heq,
      hrecords.last⟩

/-- An empty chunk is written, the terminal is resized and restored: what is written from
then on is kept without bound. -/
def emptied : List RecorderCall :=
  [.handleData [], .handleResize 100 24, .reload, .handleData [0x61, 0x62, 0x63]]

theorem emptied_unbounded : ¬ ReplaySound Unit 80 24 2 emptied := by
  intro h
  have hbounded := h.bounded
  simp [after, emptied, finalState, call, create, handleData, handleResize, settle,
    loadReplayEvent, toReplayEvent, trim, placed] at hbounded

end Runs

end ReplayRecorder

end Laborer.Terminal
