import Laborer.Files.WorktreeReads

/-!
# The listing of a worktree and the whole walk

The walk stops at `MAX_FILE_ENTRIES`. What it lists is the beginning of what the walk
without the cap would list.
-/

namespace Laborer.Files

open Laborer.Library FileSystem List

variable {host : Host} {fs : FileSystem} {root : AbsolutePath} {isIgnored : List Char → Bool}
  {state : EntryWalk} {listed : List FileEntry}

/-! ## The walk without the cap -/

structure WholeWalk where
  entries : List FileEntry
  failure : Option Errno

namespace WholeWalk

def andThen (first rest : WholeWalk) : WholeWalk :=
  match first.failure with
  | none => ⟨first.entries ++ rest.entries, rest.failure⟩
  | some _ => first

def under (entry : FileEntry) (below : WholeWalk) : WholeWalk :=
  ⟨entry :: below.entries, below.failure⟩

def ofDirents (walk : AbsolutePath → WholeWalk)
    (classify : Dirent → Option (FileEntry × AbsolutePath)) : List Dirent → WholeWalk
  | [] => ⟨[], none⟩
  | dirent :: rest =>
    match classify dirent with
    | none => ofDirents walk classify rest
    | some (entry, absolute) =>
      (under entry (if entry.kind = .directory then walk absolute else ⟨[], none⟩)).andThen
        (ofDirents walk classify rest)

def ofDirectory (host : Host) (fs : FileSystem) (worktreeRoot : AbsolutePath)
    (isIgnored : List Char → Bool) : ℕ → AbsolutePath → WholeWalk
  | 0, _ => ⟨[], none⟩
  | depth + 1, dir =>
    match fs.readdir host.maxLinks dir with
    | .error e => ⟨[], some e⟩
    | .ok opened =>
      ofDirents (ofDirectory host fs worktreeRoot isIgnored depth)
        (fun dirent => classifyWalkDirent dirent dir worktreeRoot isIgnored)
        (opened.dirents.insertionSort fun a b => compareDirents host a b)

/-- The walk with the cap, after what is listed already. -/
def capped (listed : List FileEntry) (whole : WholeWalk) : Except Errno FileEntriesResult :=
  if MAX_FILE_ENTRIES < (listed ++ whole.entries).length then
    .ok ⟨(listed ++ whole.entries).take MAX_FILE_ENTRIES, true⟩
  else
    match whole.failure with
    | none => .ok ⟨listed ++ whole.entries, false⟩
    | some e => .error e

variable {first rest : WholeWalk} {entry : FileEntry} {result : FileEntriesResult}

/-- The cap may be applied part by part. -/
theorem capped_andThen : (first.andThen rest).capped listed = (first.capped listed).bind
    fun result => if result.truncated then .ok result else rest.capped result.entries := by
  obtain ⟨entries, failure⟩ := first
  by_cases hover : MAX_FILE_ENTRIES < (listed ++ entries).length
  · have htruncated : (WholeWalk.mk entries failure).capped listed =
        .ok ⟨(listed ++ entries).take MAX_FILE_ENTRIES, true⟩ := if_pos hover
    rw [htruncated]
    cases failure with
    | some e => exact htruncated
    | none =>
      have hmore : MAX_FILE_ENTRIES < ((listed ++ entries) ++ rest.entries).length := by
        rw [length_append]
        exact Nat.lt_add_right _ hover
      rw [append_assoc] at hmore
      refine (if_pos hmore).trans ?_
      show Except.ok (FileEntriesResult.mk (take _ (listed ++ (entries ++ _))) true) = _
      rw [← append_assoc, take_append_of_le_length hover.le]
      rfl
  · cases failure with
    | some e =>
      have hfailed : (WholeWalk.mk entries (some e)).capped listed = .error e := if_neg hover
      exact hfailed.trans (congrArg (Except.bind · _) hfailed).symm
    | none =>
      have hwhole : (WholeWalk.mk entries none).capped listed = .ok ⟨listed ++ entries, false⟩ :=
        if_neg hover
      rw [hwhole]
      unfold capped andThen
      rw [← append_assoc]
      rfl

theorem capped_nil (hfits : listed.length ≤ MAX_FILE_ENTRIES) :
    (WholeWalk.mk [] none).capped listed = .ok ⟨listed, false⟩ := by
  unfold capped
  rw [append_nil, if_neg (Nat.not_lt_of_le hfits)]

theorem capped_under (hfits : listed.length ≤ MAX_FILE_ENTRIES) :
    (under entry rest).capped listed = if MAX_FILE_ENTRIES ≤ listed.length then .ok ⟨listed, true⟩
      else rest.capped (listed ++ [entry]) := by
  split
  · next hfull =>
    have hover : MAX_FILE_ENTRIES < (listed ++ entry :: rest.entries).length := by
      rw [length_append, length_cons]
      omega
    refine (if_pos hover).trans ?_
    rw [under, take_left' (le_antisymm hfits hfull)]
  · unfold capped under
    rw [append_assoc]
    rfl

theorem length_le_of_capped (h : first.capped listed = .ok result)
    (hwhole : result.truncated = false) : result.entries.length ≤ MAX_FILE_ENTRIES := by
  unfold capped at h
  split at h
  · cases h
    cases hwhole
  · next hfits =>
    split at h
    · cases h
      exact Nat.le_of_not_lt hfits
    · cases h

end WholeWalk

/-! ## The walk with the cap -/

def EntryWalk.result (state : EntryWalk) : FileEntriesResult :=
  ⟨state.entries, state.truncated⟩

/-- From any state in which the cap is not reached, the walk is the whole one, capped. -/
def Caps (walk : EntryWalk → Except Errno EntryWalk) (whole : WholeWalk) : Prop :=
  ∀ state : EntryWalk, state.truncated = false → state.entries.length ≤ MAX_FILE_ENTRIES →
    (walk state).map EntryWalk.result = whole.capped state.entries

open WholeWalk

theorem walkDirents_truncated {walk : AbsolutePath → EntryWalk → Except Errno EntryWalk}
    {classify : Dirent → Option (FileEntry × AbsolutePath)} (dirents : List Dirent)
    (h : state.truncated = true) : walkDirents walk classify dirents state = .ok state := by
  cases dirents with
  | nil => rfl
  | cons dirent rest => exact if_pos h

theorem caps_walkDirents {walk : AbsolutePath → EntryWalk → Except Errno EntryWalk}
    {whole : AbsolutePath → WholeWalk} {classify : Dirent → Option (FileEntry × AbsolutePath)}
    (hwalk : ∀ absolute, Caps (walk absolute) (whole absolute)) (dirents : List Dirent) :
    Caps (walkDirents walk classify dirents) (ofDirents whole classify dirents) := by
  induction dirents with
  | nil =>
    intro state hopen hfits
    rw [ofDirents, capped_nil hfits, ← hopen]
    rfl
  | cons dirent rest ih =>
    intro state hopen hfits
    rw [walkDirents, if_neg (Bool.not_eq_true _ ▸ hopen), ofDirents]
    cases classify dirent with
    | none => exact ih state hopen hfits
    | some found =>
      obtain ⟨entry, absolute⟩ := found
      dsimp only
      rw [capped_andThen, capped_under hfits]
      split
      · rfl
      · next hroom =>
        have hpushed : (state.entries ++ [entry]).length ≤ MAX_FILE_ENTRIES := by
          rw [length_append]
          exact Nat.lt_of_not_le hroom
        split
        · have hbelow := hwalk absolute (state.push entry) hopen hpushed
          cases hafter : walk absolute (state.push entry) with
          | error e =>
            rw [hafter] at hbelow
            exact congrArg (Except.bind · _) hbelow
          | ok after =>
            rw [hafter] at hbelow
            refine Eq.trans ?_ (congrArg (Except.bind · _) hbelow)
            by_cases htruncated : after.truncated = true
            · exact (congrArg _ (walkDirents_truncated rest htruncated)).trans
                (if_pos htruncated).symm
            · rw [Bool.not_eq_true] at htruncated
              have hfits' := length_le_of_capped hbelow.symm htruncated
              exact (ih after htruncated hfits').trans
                (if_neg (Bool.not_eq_true _ ▸ htruncated)).symm
        · rw [capped_nil hpushed]
          exact ih (state.push entry) hopen hpushed

theorem caps_walkDirectory (depth : ℕ) (dir : AbsolutePath) :
    Caps (walkDirectory host fs root isIgnored depth dir)
      (ofDirectory host fs root isIgnored depth dir) := by
  induction depth generalizing dir with
  | zero =>
    intro state hopen hfits
    rw [ofDirectory, capped_nil hfits, ← hopen]
    rfl
  | succ depth ih =>
    intro state hopen hfits
    rw [walkDirectory, ofDirectory]
    cases fs.readdir host.maxLinks dir with
    | error e =>
      refine (if_neg ?_).symm
      rw [append_nil]
      exact Nat.not_lt_of_le hfits
    | ok opened => exact caps_walkDirents ih _ _ hopen hfits

/-- **A listing is the beginning of the whole walk.** It goes up to the cap, says whether
there is more, and fails only where the walk fails before. -/
theorem walkWorktreeEntries_capped (more : ℕ) :
    (walkWorktreeEntries host fs root isIgnored).map Served.value =
      ((ofDirectory host fs root isIgnored (MAX_FILE_ENTRIES + 1 + more) root).capped []).mapError
        fun e => .rpcError ("Failed to list worktree entries: ".toList ++ host.errorText e root)
          .READDIR_FAILED := by
  -- no walk of that many entries goes deeper
  have hcaps : (walkDirectory host fs root isIgnored (MAX_FILE_ENTRIES + 1 + more) root {}).map
      EntryWalk.result = _ := caps_walkDirectory _ root {} rfl (Nat.zero_le _)
  rw [walkDirectory_enough] at hcaps
  rw [walkWorktreeEntries, ← hcaps]
  cases walkDirectory host fs root isIgnored (MAX_FILE_ENTRIES + 1) root {} with
  | error e => rfl
  | ok after => rfl

end Laborer.Files
