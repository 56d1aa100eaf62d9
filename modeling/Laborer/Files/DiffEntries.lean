import Laborer.Files.DiffChunks

/-!
# The entries of `file.diff`

Every change is shown once, with its status and its own patch, when no tracked file is
renamed, git prints every name as it is, no file is both tracked and untracked, and no
content imitates the header of a patch.
-/

namespace Laborer.Files

open Laborer.Library FileChange List Function OrderedMap

/-! ## The patches of the files -/

section Patches

variable {change : FileChange} {changes : List FileChange} {path : List Char}

theorem get?_addChunk_of_ne (h : Legible change) (map : PatchMap) (hpath : path ≠ change.path.val) :
    OrderedMap.get? (addChunk map change.patchText) path = OrderedMap.get? map path := by
  rw [addChunk]
  cases hread : fileFromPatchChunk change.patchText with
  | none => rfl
  | some read =>
    have hne : read ≠ path := by
      rw [fileFromPatchChunk_patchText h hread]
      exact hpath.symm
    rw [get?_set, if_neg hne]

theorem get?_addChunk_of_hunks (h : Legible change) (map : PatchMap) (hhunks : change.hunks ≠ []) :
    OrderedMap.get? (addChunk map change.patchText) change.path.val = some change.patchText := by
  rw [addChunk, fileFromPatchChunk_of_hunks h hhunks]
  dsimp only
  rw [get?_set, if_pos rfl]

theorem change_eq_of_path {other : FileChange} (hnodup : (changes.map FileChange.path).Nodup)
    (hchange : change ∈ changes) (hother : other ∈ changes)
    (h : other.path.val = change.path.val) : other = change :=
  inj_on_of_nodup_map hnodup hother hchange (Subtype.val_injective h)

theorem buildBatchedPatchMap_patches (h : ∀ change ∈ changes, Legible change)
    (himitates : ∀ change ∈ changes, ¬ ImitatesHeader change.patchText) :
    buildBatchedPatchMap (some ⟨0, (changes.map patchText).flatten⟩) =
      (changes.map patchText).foldl addChunk [] := by
  rw [buildBatchedPatchMap]
  dsimp only
  rw [if_neg (by simp), splitGitPatch_flatten h himitates]

theorem get?_patches_of_not_mem (h : ∀ change ∈ changes, Legible change)
    (hpath : ∀ change ∈ changes, path ≠ change.path.val) :
    OrderedMap.get? ((changes.map patchText).foldl addChunk []) path = none := by
  rw [get?_foldl_of_keeps]
  · rfl
  · intro chunk hchunk map
    obtain ⟨change, hchange, rfl⟩ := mem_map.mp hchunk
    exact get?_addChunk_of_ne (h change hchange) map (hpath change hchange)

/-- **A text change finds its own patch in the batch.** -/
theorem get?_patches_of_mem (h : ∀ change ∈ changes, Legible change)
    (hnodup : (changes.map FileChange.path).Nodup) (hchange : change ∈ changes)
    (hhunks : change.hunks ≠ []) :
    OrderedMap.get? ((changes.map patchText).foldl addChunk []) change.path.val =
      some change.patchText := by
  apply get?_foldl_of_writes (mem_map_of_mem hchange)
  · intro map
    exact get?_addChunk_of_hunks (h change hchange) map hhunks
  · intro chunk hchunk map
    obtain ⟨other, hother, rfl⟩ := mem_map.mp hchunk
    by_cases hpath : other.path.val = change.path.val
    · cases change_eq_of_path hnodup hchange hother hpath
      exact .inl (get?_addChunk_of_hunks (h change hchange) map hhunks)
    · exact .inr (get?_addChunk_of_ne (h other hother) map (Ne.symm hpath))

theorem get?_addUntrackedPatches_of_some {noIndex : List Char → List Char} {files : List FileInfo}
    {map : PatchMap} {patch : List Char} (h : OrderedMap.get? map path = some patch) :
    OrderedMap.get? (addUntrackedPatches noIndex files map) path = some patch := by
  rw [addUntrackedPatches, get?_foldl_of_keeps, h]
  intro file hfile map'
  have habsent := (of_decide_eq_true (mem_filter.mp hfile).2).2
  have hne : file.path ≠ path := by
    intro heq
    rw [heq, h] at habsent
    cases habsent
  cases buildUntrackedPatch (noIndex file.path) with
  | none => rfl
  | some patch' =>
    dsimp only
    rw [get?_set, if_neg hne]

theorem get?_addUntrackedPatches_of_added {noIndex : List Char → List Char}
    {files : List FileInfo} {map : PatchMap} {file : FileInfo} {patch : List Char}
    (hfile : file ∈ files) (hadded : file.status = .added)
    (habsent : OrderedMap.get? map file.path = none)
    (hpatch : buildUntrackedPatch (noIndex file.path) = some patch) :
    OrderedMap.get? (addUntrackedPatches noIndex files map) file.path = some patch := by
  have hlisted : file ∈ files.filter fun file =>
      file.status = .added ∧ OrderedMap.get? map file.path = none := by
    rw [mem_filter]
    exact ⟨hfile, decide_eq_true ⟨hadded, habsent⟩⟩
  rw [addUntrackedPatches]
  apply get?_foldl_of_writes hlisted
  · intro map'
    rw [hpatch]
    dsimp only
    rw [get?_set, if_pos rfl]
  · intro other hother map'
    by_cases hpath : other.path = file.path
    · left
      rw [hpath, hpatch]
      dsimp only
      rw [get?_set, if_pos rfl]
    · right
      cases buildUntrackedPatch (noIndex other.path) with
      | none => rfl
      | some patch' =>
        dsimp only
        rw [get?_set, if_neg hpath]

end Patches

/-! ## Assembling -/

theorem assembleFrom_names (patches : PatchMap) (totalBytes : ℕ) (capped : Bool)
    (files : List FileInfo) :
    ((assembleFrom patches totalBytes capped files).map fun entry => (entry.path, entry.status)) =
      files.map fun file => (file.path, file.status) := by
  induction files generalizing totalBytes capped with
  | nil => rfl
  | cons file files ih =>
    rw [assembleFrom]
    cases OrderedMap.get? patches file.path with
    | none => simp [FileInfo.entry, ih]
    | some patch =>
      dsimp only
      split
      · simp [FileInfo.entry, ih]
      · split
        · simp [FileInfo.entry, ih]
        · simp [FileInfo.entry, ih]

theorem patch_of_assembleFrom {patches : PatchMap} {totalBytes : ℕ} {capped : Bool}
    {files : List FileInfo} {entry : FileDiffEntry}
    (hentry : entry ∈ assembleFrom patches totalBytes capped files)
    (htruncated : entry.truncated = false) : entry.patch = OrderedMap.get? patches entry.path := by
  induction files generalizing totalBytes capped with
  | nil => cases hentry
  | cons file files ih =>
    rw [assembleFrom] at hentry
    cases hget : OrderedMap.get? patches file.path with
    | none =>
      rw [hget] at hentry
      rcases mem_cons.mp hentry with rfl | hentry
      · exact hget.symm
      · exact ih hentry
    | some patch =>
      rw [hget] at hentry
      dsimp only at hentry
      split at hentry
      · rcases mem_cons.mp hentry with rfl | hentry
        · cases htruncated
        · exact ih hentry
      · split at hentry
        · rcases mem_cons.mp hentry with rfl | hentry
          · cases htruncated
          · exact ih hentry
        · rcases mem_cons.mp hentry with rfl | hentry
          · exact hget.symm
          · exact ih hentry

/-! ## The files of a plain worktree -/

/-- The status of a change; a renamed file is a modified one at its new path. -/
def FileChange.status (change : FileChange) : FileStatus :=
  match change.kind with
  | .added => .added
  | .deleted => .deleted
  | .modified | .renamed _ => .modified

/-- What the listings and the patch need to be read back. -/
structure Plain (worktree : ChangedWorktree) : Prop where
  not_renamed : ∀ change ∈ worktree.tracked, ¬ change.IsRenamed
  unquoted : ∀ change ∈ worktree.changes, Unquoted change.path.val
  apart : ∀ change ∈ worktree.untracked, change.path ∉ worktree.tracked.map FileChange.path
  tracked_end : EndsPlain worktree.tracked
  untracked_start : StartsPlain worktree.untracked
  untracked_end : EndsPlain worktree.untracked
  deleted_start : StartsPlain worktree.deletedChanges
  deleted_end : EndsPlain worktree.deletedChanges
  added_start : StartsPlain worktree.addedChanges
  added_end : EndsPlain worktree.addedChanges
  not_imitated : ∀ change ∈ worktree.tracked, ¬ ImitatesHeader change.patchText

namespace Plain

variable {worktree : ChangedWorktree} (h : Plain worktree) {change : FileChange}

include h

theorem tracked_unquoted (hchange : change ∈ worktree.tracked) : Unquoted change.path.val :=
  h.unquoted change (mem_append_left _ hchange)

theorem untracked_unquoted (hchange : change ∈ worktree.untracked) : Unquoted change.path.val :=
  h.unquoted change (mem_append_right _ hchange)

theorem legible (hchange : change ∈ worktree.tracked) : Legible change :=
  ⟨h.not_renamed change hchange, h.tracked_unquoted hchange⟩

theorem parseNameOnlyOutput_filter (kind : ChangeKind)
    (hstart : StartsPlain (worktree.tracked.filter fun change => change.kind = kind))
    (hend : EndsPlain (worktree.tracked.filter fun change => change.kind = kind)) :
    parseNameOnlyOutput
        (ChangedWorktree.nameOnly (worktree.tracked.filter fun change => change.kind = kind)) =
      (worktree.tracked.filter fun change => change.kind = kind).map
        fun change => change.path.val := by
  apply parseNameOnlyOutput_nameOnly _ hstart hend
  intro change hchange
  exact h.tracked_unquoted (mem_of_mem_filter hchange)

end Plain

variable {change : FileChange} {worktree : ChangedWorktree}

theorem path_mem_filter (hchange : change ∈ worktree.tracked) (kind : ChangeKind) :
    change.path.val ∈ ((worktree.tracked.filter fun change => change.kind = kind).map
        fun change => change.path.val) ↔ change.kind = kind := by
  rw [mem_map]
  constructor
  · rintro ⟨other, hother, hpath⟩
    obtain ⟨hmem, hkind⟩ := mem_filter.mp hother
    cases change_eq_of_path worktree.tracked_nodup hchange hmem hpath
    exact of_decide_eq_true hkind
  · intro hkind
    exact ⟨change, mem_filter.mpr ⟨hchange, decide_eq_true hkind⟩, rfl⟩

namespace ChangedWorktree

variable (worktree : ChangedWorktree)

def keptChanges : List FileChange :=
  worktree.tracked.filter fun change => change.kind ≠ .deleted

def listedChanges : List FileChange :=
  worktree.keptChanges ++ worktree.untracked ++ worktree.deletedChanges

theorem listedChanges_perm : worktree.listedChanges.Perm worktree.changes := by
  have hsplit := filter_append_perm (fun change => decide (change.kind ≠ .deleted)) worktree.tracked
  have hdeleted : (worktree.tracked.filter fun change => !decide (change.kind ≠ .deleted)) =
      worktree.deletedChanges := by
    apply filter_congr
    intro change _
    simp
  rw [hdeleted] at hsplit
  rw [listedChanges, append_assoc]
  apply (List.Perm.append_left _ perm_append_comm).trans
  rw [← append_assoc]
  exact hsplit.append_right _

end ChangedWorktree

theorem corrected_names (files : List FileInfo) (addedPaths : List (List Char)) :
    ((files.map fun file =>
        if addedPaths.contains file.path then { file with status := .added } else file).map
      fun file => (file.path, file.status)) =
      files.map fun file =>
        (file.path, if addedPaths.contains file.path then .added else file.status) := by
  rw [map_map]
  apply map_congr_left
  intro file _
  rw [comp_apply]
  by_cases hadded : addedPaths.contains file.path
  · rw [if_pos hadded, if_pos hadded]
  · rw [if_neg hadded, if_neg hadded]

theorem kept_names (worktree : ChangedWorktree) {deletedPaths addedPaths : List (List Char)}
    (hdeleted : ∀ change ∈ worktree.tracked,
      (change.path.val ∈ deletedPaths ↔ change.kind = .deleted))
    (hadded : ∀ change ∈ worktree.tracked,
      (change.path.val ∈ addedPaths ↔ change.kind = .added)) :
    ((((worktree.tracked.map FileChange.stat).filter fun file =>
        !deletedPaths.contains file.path).map
        fun file => if addedPaths.contains file.path then { file with status := .added }
          else file).map
      fun file => (file.path, file.status)) =
      worktree.keptChanges.map fun change => (change.path.val, change.status) := by
  have hfilter : worktree.tracked.filter
      ((fun file : FileInfo => !deletedPaths.contains file.path) ∘ FileChange.stat) =
      worktree.keptChanges := by
    apply filter_congr
    intro change hchange
    rw [Bool.eq_iff_iff, Function.comp_apply, Bool.not_eq_true', decide_eq_true_iff,
      ← Bool.not_eq_true, contains_iff_mem]
    exact not_congr (hdeleted change hchange)
  rw [corrected_names, filter_map, hfilter, map_map]
  apply map_congr_left
  intro change hchange
  obtain ⟨hmem, hkept⟩ := mem_filter.mp hchange
  have hkind : change.kind ≠ .deleted := of_decide_eq_true hkept
  have hiff : addedPaths.contains change.stat.path ↔ change.kind = .added :=
    contains_iff_mem.trans (hadded change hmem)
  rw [comp_apply, FileChange.status]
  cases hchangeKind : change.kind with
  | added => rw [if_pos (hiff.mpr hchangeKind), FileChange.stat]
  | deleted => exact absurd hchangeKind hkind
  | modified =>
    have hnot : ¬ change.kind = .added := by simp [hchangeKind]
    rw [if_neg (mt hiff.mp hnot), FileChange.stat]
  | renamed oldPath =>
    have hnot : ¬ change.kind = .added := by simp [hchangeKind]
    rw [if_neg (mt hiff.mp hnot), FileChange.stat]

/-- **The files of a plain worktree are its changes with their status.** -/
theorem Plain.files_names (h : Plain worktree) :
    (worktree.files.map fun file => (file.path, file.status)) =
      worktree.listedChanges.map fun change => (change.path.val, change.status) := by
  have hdeleted := h.parseNameOnlyOutput_filter .deleted h.deleted_start h.deleted_end
  have hadded := h.parseNameOnlyOutput_filter .added h.added_start h.added_end
  have hstats := parseNumstatOutput_numstat h.not_renamed (fun _ hc => h.tracked_unquoted hc)
    h.tracked_end
  have hothers := parseNameOnlyOutput_nameOnly (fun _ hc => h.untracked_unquoted hc)
    h.untracked_start h.untracked_end
  have hkept := kept_names worktree (fun change hchange => path_mem_filter hchange .deleted)
    fun change hchange => path_mem_filter hchange .added
  rw [ChangedWorktree.files, ChangedWorktree.numstat, hstats, ChangedWorktree.deletedChanges,
    hdeleted, ChangedWorktree.addedChanges, hadded, parseUntrackedOutput, ChangedWorktree.others,
    hothers, classifyChangedFiles, ChangedWorktree.listedChanges, map_append, map_append,
    map_append, map_append, hkept, map_map, map_map, map_map]
  congr 1
  · congr 1
    apply map_congr_left
    intro change hchange
    have hkind := worktree.added_of_untracked change hchange
    simp [FileChange.status, hkind]
  · rw [map_map, ChangedWorktree.deletedChanges]
    apply map_congr_left
    intro change hchange
    have hkind : change.kind = .deleted := of_decide_eq_true (mem_filter.mp hchange).2
    simp [FileChange.status, hkind]

/-! ## The entries -/

/-- An entry shows a change: its path and status, and its patch unless it is truncated. -/
structure Shows (entry : FileDiffEntry) (change : FileChange) : Prop where
  path : entry.path = change.path.val
  status : entry.status = change.status
  patch : change.hunks ≠ [] → entry.truncated = false → entry.patch = some change.patchText

/-- The entries tell the changes: each path once, and nothing else. -/
structure Tells (entries : List FileDiffEntry) (changes : List FileChange) : Prop where
  path_nodup : (entries.map FileDiffEntry.path).Nodup
  change_of_entry : ∀ entry ∈ entries, ∃ change ∈ changes, Shows entry change
  entry_of_change : ∀ change ∈ changes, change.path.val ∈ entries.map FileDiffEntry.path

namespace Plain

variable {worktree : ChangedWorktree} (h : Plain worktree)

include h

theorem changes_nodup : (worktree.changes.map FileChange.path).Nodup := by
  rw [ChangedWorktree.changes, map_append, nodup_append]
  refine ⟨worktree.tracked_nodup, worktree.untracked_nodup, ?_⟩
  intro path hpath other hother
  obtain ⟨change, hchange, rfl⟩ := mem_map.mp hother
  intro heq
  exact h.apart change hchange (heq ▸ hpath)

/-- **Every text change finds its own patch.** -/
theorem get?_patches {change : FileChange} (hchange : change ∈ worktree.changes)
    (hhunks : change.hunks ≠ []) :
    OrderedMap.get? (addUntrackedPatches worktree.noIndex worktree.files
        (buildBatchedPatchMap (some ⟨0, worktree.patch⟩))) change.path.val =
      some change.patchText := by
  rw [ChangedWorktree.patch, buildBatchedPatchMap_patches (fun _ hc => h.legible hc) h.not_imitated]
  rcases mem_append.mp hchange with htracked | huntracked
  · apply get?_addUntrackedPatches_of_some
    exact get?_patches_of_mem (fun _ hc => h.legible hc) worktree.tracked_nodup htracked hhunks
  · -- the batch has nothing under the path, so the file gets a run of its own
    have hadded : change.status = .added := by
      rw [FileChange.status, worktree.added_of_untracked change huntracked]
    have hlisted : (change.path.val, change.status) ∈
        worktree.files.map fun file => (file.path, file.status) := by
      rw [h.files_names]
      apply mem_map_of_mem (f := fun change : FileChange => (change.path.val, change.status))
      exact worktree.listedChanges_perm.mem_iff.mpr hchange
    obtain ⟨file, hfile, hnames⟩ := mem_map.mp hlisted
    obtain ⟨hpath, hstatus⟩ := Prod.mk.inj hnames
    have habsent : ∀ other ∈ worktree.tracked, file.path ≠ other.path.val := by
      intro other hother heq
      have hsame : change.path = other.path := Subtype.val_injective (hpath.symm.trans heq)
      exact h.apart change huntracked (hsame ▸ mem_map_of_mem hother)
    have hpatch : buildUntrackedPatch (worktree.noIndex file.path) = some change.patchText := by
      have hhead := head?_of_prefix_header (header_prefix_patchText change)
      rw [hpath, worktree.noIndex_of_untracked change huntracked, buildUntrackedPatch,
        if_neg (trimChars_ne_nil hhead (by decide))]
    rw [← hpath]
    exact get?_addUntrackedPatches_of_added hfile (hstatus.trans hadded)
      (get?_patches_of_not_mem (fun _ hc => h.legible hc) habsent) hpatch

end Plain

theorem diff_names (h : Plain worktree) :
    (worktree.diff.map fun entry => (entry.path, entry.status)) =
      worktree.listedChanges.map fun change => (change.path.val, change.status) := by
  rw [ChangedWorktree.diff, assembleDiffEntries, assembleFrom_names]
  exact h.files_names

theorem diff_paths (h : Plain worktree) : worktree.diff.map FileDiffEntry.path =
      worktree.listedChanges.map fun change => change.path.val := by
  have hnames := congrArg (List.map Prod.fst) (diff_names h)
  rw [map_map, map_map] at hnames
  exact hnames

theorem unquoted_of_all {name : List Char} (h : name.all (fun c => !needsQuote c) = true) :
    Unquoted name := by
  intro c hc
  have hquote := all_eq_true.mp h c hc
  rwa [Bool.not_eq_true'] at hquote

theorem not_imitatesHeader_of_all {text : List Char}
    (h : text.all (fun c => !isLineTerminator c || c == '\n') = true) : ¬ ImitatesHeader text := by
  rintro ⟨c, hterminator, hne, hwithin⟩
  have hc := all_eq_true.mp h c (hwithin.subset (mem_cons_self ..))
  rw [hterminator, Bool.not_true, Bool.false_or] at hc
  exact hne (beq_iff_eq.mp hc)

def noteEdit : FileChange where
  path := ⟨['a'], List.cons_ne_nil _ _⟩
  kind := .modified
  counts := some (1, 0)
  headers := []
  hunks := [⟨.range, ⟨"@ -0,0 +1 @@".toList, by decide⟩⟩, ⟨.added, ⟨['x'], by decide⟩⟩]

def newNote : FileChange where
  path := ⟨['b'], List.cons_ne_nil _ _⟩
  kind := .added
  counts := some (1, 0)
  headers := []
  hunks := [⟨.range, ⟨"@ -0,0 +1 @@".toList, by decide⟩⟩, ⟨.added, ⟨['y'], by decide⟩⟩]

def editedNotes : ChangedWorktree where
  tracked := [noteEdit]
  untracked := [newNote]
  tracked_nodup := List.nodup_singleton _
  untracked_nodup := List.nodup_singleton _
  added_of_untracked := by
    intro change hchange
    rw [List.mem_singleton.mp hchange]
    rfl
  contents := fun _ => some ['y', '\n']
  noIndex := fun _ => newNote.patchText
  noIndex_of_untracked := by
    intro change hchange
    rw [List.mem_singleton.mp hchange]

theorem startsPlain_singleton
    (h : ∀ c ∈ change.path.val.head?, isJsWhitespace c = false) : StartsPlain [change] := by
  intro other hother
  cases hother
  exact h

theorem endsPlain_singleton
    (h : ∀ c ∈ change.path.val.getLast?, isJsWhitespace c = false) : EndsPlain [change] := by
  intro other hother
  cases hother
  exact h

theorem startsPlain_nil : StartsPlain [] := by
  intro change hchange
  cases hchange

theorem endsPlain_nil : EndsPlain [] := by
  intro change hchange
  cases hchange

theorem plain_editedNotes : Plain editedNotes where
  not_renamed := by
    intro change hchange
    rw [mem_singleton.mp hchange]
    rintro ⟨oldPath, hkind⟩
    cases hkind
  unquoted := by
    intro change hchange
    rcases mem_cons.mp hchange with rfl | hchange
    · exact unquoted_of_all rfl
    · rw [mem_singleton.mp hchange]
      exact unquoted_of_all rfl
  apart := by
    intro change hchange
    rw [mem_singleton.mp hchange]
    decide
  tracked_end := endsPlain_singleton fun c hc => by
    cases hc
    rfl
  untracked_start := startsPlain_singleton fun c hc => by
    cases hc
    rfl
  untracked_end := endsPlain_singleton fun c hc => by
    cases hc
    rfl
  deleted_start := startsPlain_nil
  deleted_end := endsPlain_nil
  added_start := startsPlain_nil
  added_end := endsPlain_nil
  not_imitated := by
    intro change hchange
    rw [mem_singleton.mp hchange]
    exact not_imitatesHeader_of_all rfl

def movedNote : FileChange where
  path := ⟨['b'], List.cons_ne_nil _ _⟩
  kind := .renamed ⟨['a'], List.cons_ne_nil _ _⟩
  counts := some (0, 0)
  headers := [⟨.similarityIndex, ⟨"100%".toList, by decide⟩⟩, ⟨.renameFrom, ⟨['a'], by decide⟩⟩,
    ⟨.renameTo, ⟨['b'], by decide⟩⟩]
  hunks := []

def movedNotes : ChangedWorktree where
  tracked := [movedNote]
  untracked := []
  tracked_nodup := List.nodup_singleton _
  untracked_nodup := List.nodup_nil
  added_of_untracked := by
    intro change hchange
    cases hchange
  contents := fun _ => none
  noIndex := fun _ => []
  noIndex_of_untracked := by
    intro change hchange
    cases hchange

end Laborer.Files
