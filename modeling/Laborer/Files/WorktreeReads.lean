import Laborer.Files.FileReads

/-!
# What a read of a worktree shows

Which paths the operations accept, and that what they show stands in the canonical
worktree root.
-/

namespace Laborer.Files

open Laborer.Library FileSystem List

variable {host : Host} {fs : FileSystem} {root : AbsolutePath} {target dir : AbsolutePath}
  {filePath : List Char} {maxBytes : ℕ} {request : DiffContentsRequest}
  {storedBaseBranch : Option (List Char)} {canonicalRoot : Location} {isIgnored : List Char → Bool}
  {after state : EntryWalk}

/-! ## The lexical check -/

theorem contains_of_validatePathContainment {dir : List Char}
    (h : validatePathContainment target root dir = .ok ()) : root.Contains target := by
  rw [validatePathContainment] at h
  split at h
  · cases h
  · next hcheck =>
    rw [AbsolutePath.normalize_text, AbsolutePath.normalize_text, not_and_or, not_not, not_not]
      at hcheck
    by_cases hroot : root.names = []
    · rw [AbsolutePath.Contains, hroot]
      exact nil_prefix
    · rcases hcheck with hbelow | heq
      · exact ((AbsolutePath.startsWith_slash_iff hroot).mp hbelow).1
      · rw [AbsolutePath.text_injective heq]
        exact AbsolutePath.contains_refl _

theorem validatePathContainment_of_contains {dir : List Char}
    (hroot : root.names ≠ []) (h : root.Contains target) :
    validatePathContainment target root dir = .ok () := by
  rw [validatePathContainment, if_neg]
  rw [AbsolutePath.normalize_text, AbsolutePath.normalize_text]
  intro hcheck
  have hne : root ≠ target := by
    rintro rfl
    exact hcheck.2 rfl
  exact hcheck.1 ((AbsolutePath.startsWith_slash_iff hroot).mpr ⟨h, hne⟩)

theorem validatePathContainment_of_not_contains {dir : List Char} (h : ¬ root.Contains target) :
    validatePathContainment target root dir = .error (escapesWorktreeRoot dir) := by
  rw [validatePathContainment]
  split
  · rfl
  · next hcheck =>
    have hvalid : validatePathContainment target root dir = .ok () := by
      rw [validatePathContainment, if_neg hcheck]
    exact absurd (contains_of_validatePathContainment hvalid) h

/-! ## Where the worktree stands -/

/-- The location lies at the canonical worktree root or below it. -/
def Inside (fs : FileSystem) (root : AbsolutePath) (location : Location) : Prop :=
  ∃ canonicalRoot, fs.Leads [] (segments root.names) canonicalRoot ∧ canonicalRoot <+: location

/-- No symbolic link stands between the worktree root and the target. -/
def PassesNoLink (fs : FileSystem) (root target : AbsolutePath) : Prop :=
  ∀ canonicalRoot rest, fs.Leads [] (segments root.names) canonicalRoot →
    target.names = root.names ++ rest → fs.Direct canonicalRoot rest

def Contained {α : Type} (fs : FileSystem) (root : AbsolutePath)
    (answer : Except FileError (Served α)) : Prop :=
  ∀ served, answer = .ok served → ∀ location ∈ served.sources, Inside fs root location

theorem inside_of_realpath {location : Location}
    (hcontains : root.Contains target) (hdirect : PassesNoLink fs root target)
    (h : fs.realpath host.maxLinks target = .ok location) : Inside fs root location := by
  obtain ⟨rest, hrest⟩ := hcontains
  have hleads := realpath_leads h
  rw [← hrest, segments, map_append] at hleads
  -- the walk reaches the canonical root, and goes on from it by plain names
  obtain ⟨canonicalRoot, hroot, hafter⟩ := hleads.split
  have hlocation := hafter.of_direct (hdirect canonicalRoot rest hroot hrest.symm)
  refine ⟨canonicalRoot, hroot, ?_⟩
  rw [hlocation]
  exact prefix_append _ _

/-! ## Text -/

theorem contained_readText (filePath : List Char) :
    Contained fs root (readText host fs root filePath) := by
  intro served h location hlocation
  rw [readText] at h
  split at h
  · cases h
  · cases hread : readContainedFile host fs root filePath MAX_READ_TEXT_BYTES with
    | error e =>
      rw [hread] at h
      cases h
    | ok contained =>
      rw [hread] at h
      dsimp only at h
      split at h
      · cases h
      · cases h
        obtain ⟨canonicalRoot, hroot, hinside⟩ := readContainedFile_inside hread
        rw [mem_singleton] at hlocation
        subst hlocation
        exact ⟨canonicalRoot, realpath_leads hroot, hinside⟩

theorem contained_read (hdirect : PassesNoLink fs root (root.resolveFrom filePath)) :
    Contained fs root (read host fs root filePath) := by
  intro served h location hlocation
  obtain ⟨_, hvalid, h⟩ := bind_eq_ok.mp h
  have hcontains := contains_of_validatePathContainment hvalid
  -- whatever is opened is what the full path leads to
  have hopened : ∀ opened, fs.readFile host.maxLinks (root.resolveFrom filePath) = .ok opened →
      Inside fs root opened.location := by
    intro opened hopened
    exact inside_of_realpath hcontains hdirect (readFile_eq_ok hopened).1
  by_cases himage : isImageByExtension host filePath
  · rw [if_pos himage] at h
    cases hread : fs.readFile host.maxLinks (root.resolveFrom filePath) with
    | error e =>
      rw [hread] at h
      cases h
      exact absurd hlocation not_mem_nil
    | ok opened =>
      rw [hread] at h
      cases h
      rw [mem_singleton.mp hlocation]
      exact hopened opened hread
  · rw [if_neg himage] at h
    by_cases hbinary : isBinaryByExtension host filePath
    · rw [if_pos hbinary] at h
      cases h
      exact absurd hlocation not_mem_nil
    · rw [if_neg hbinary] at h
      cases hread : fs.readFile host.maxLinks (root.resolveFrom filePath) with
      | error e =>
        rw [hread] at h
        cases h
        exact absurd hlocation not_mem_nil
      | ok opened =>
        rw [hread] at h
        cases h
        rw [mem_singleton.mp hlocation]
        exact hopened opened hread

theorem readWorktreeFile_inside {newPath : List Char} {newSide : Served CappedSide}
    (hdirect : PassesNoLink fs root (root.resolveFrom newPath))
    (h : readWorktreeFile host fs root newPath maxBytes = .ok newSide) :
    ∀ location ∈ newSide.sources, Inside fs root location := by
  obtain ⟨_, hvalid, h⟩ := bind_eq_ok.mp h
  have hcontains := contains_of_validatePathContainment hvalid
  cases hread : fs.readFile host.maxLinks (root.resolveFrom newPath) with
  | error e =>
    rw [hread] at h
    cases h
  | ok opened =>
    rw [hread] at h
    dsimp only at h
    split at h
    · cases h
    · cases h
      intro location hlocation
      rw [mem_singleton.mp hlocation]
      exact inside_of_realpath hcontains hdirect (readFile_eq_ok hread).1

theorem sources_withOldSide {baseRev : List Char}
    {newSide : Served CappedSide} {served : Served FileDiffContents}
    (h : withOldSide host root request baseRev maxBytes newSide = .ok served) :
    served.sources = newSide.sources := by
  rw [withOldSide] at h
  split at h
  · cases h
    rfl
  · obtain ⟨_, _, h⟩ := bind_eq_ok.mp h
    cases h
    rfl

theorem contained_diffContents (hdirect : PassesNoLink fs root (root.resolveFrom request.newPath)) :
    Contained fs root (diffContents host fs root storedBaseBranch request) := by
  intro served h
  obtain ⟨_, _, h⟩ := bind_eq_ok.mp h
  obtain ⟨_, _, h⟩ := bind_eq_ok.mp h
  split at h
  · cases h
  · obtain ⟨baseRev, _, h⟩ := bind_eq_ok.mp h
    obtain ⟨newSide, hnew, h⟩ := bind_eq_ok.mp h
    rw [sources_withOldSide h]
    exact readWorktreeFile_inside hdirect hnew

/-! ## Listings -/

theorem contained_list {dir : Option (List Char)}
    (hdirect : PassesNoLink fs root (listTarget root dir)) :
    Contained fs root (list host fs root dir) := by
  intro served h location hlocation
  obtain ⟨_, hvalid, h⟩ := bind_eq_ok.mp h
  have hcontains := contains_of_validatePathContainment hvalid
  rw [readAndBuildNodes] at h
  split at h
  · cases h
  · next opened hopened =>
    cases h
    rw [mem_singleton.mp hlocation]
    exact inside_of_realpath hcontains hdirect (readdir_eq_ok hopened).1

/-- The directory is reached from the canonical root by plain names. -/
structure Below (fs : FileSystem) (root : AbsolutePath) (canonicalRoot : Location)
    (dir : AbsolutePath) : Prop where
  names : ∃ rest, dir.names = root.names ++ rest ∧ fs.Direct canonicalRoot rest

theorem below_root : Below fs root canonicalRoot root where
  names := by
    refine ⟨[], (append_nil _).symm, ?_⟩
    intro passed hne hpassed
    exact absurd (prefix_nil.mp hpassed) hne

theorem Below.location {location : Location}
    (h : Below fs root canonicalRoot dir) (hroot : fs.Leads [] (segments root.names) canonicalRoot)
    (hreal : fs.realpath host.maxLinks dir = .ok location) :
    ∃ rest, dir.names = root.names ++ rest ∧ fs.Direct canonicalRoot rest ∧
      location = canonicalRoot ++ rest := by
  obtain ⟨rest, hrest, hdirect⟩ := h.names
  have hleads := realpath_leads hreal
  rw [hrest, segments, map_append] at hleads
  obtain ⟨middle, hmiddle, hafter⟩ := hleads.split
  rw [hmiddle.unique hroot] at hafter
  exact ⟨rest, hrest, hdirect, hafter.of_direct hdirect⟩

theorem Below.join {opened : OpenedDirectory}
    (h : Below fs root canonicalRoot dir) (hroot : fs.Leads [] (segments root.names) canonicalRoot)
    (hopened : fs.readdir host.maxLinks dir = .ok opened) {dirent : Dirent}
    (hdirent : dirent ∈ opened.dirents) (hdirectory : dirent.node = .directory) :
    Below fs root canonicalRoot (dir.join dirent.name.val) := by
  obtain ⟨hreal, -, hdirents⟩ := readdir_eq_ok hopened
  obtain ⟨rest, hrest, hdirect, hlocation⟩ := h.location hroot hreal
  rw [hdirents] at hdirent
  have hnode := node?_of_mem_direntsAt hdirent
  refine ⟨rest ++ [dirent.name], ?_, ?_⟩
  · rw [AbsolutePath.join_name, hrest, append_assoc]
  · intro passed hne hpassed target
    rcases prefix_concat_cases hpassed with hpassed | rfl
    · exact hdirect passed hne hpassed target
    · rw [← append_assoc, ← hlocation, hnode, hdirectory]
      exact fun h => FsNode.noConfusion (Option.some.inj h)

/-- Every directory opened so far stands in the canonical root. -/
def EntryWalk.Inside (canonicalRoot : Location) (state : EntryWalk) : Prop :=
  ∀ location ∈ state.opened, canonicalRoot <+: location

theorem classifyWalkDirent_directory {dirent : Dirent} {parentDir : AbsolutePath}
    {entry : FileEntry} {absolute : AbsolutePath}
    (h : classifyWalkDirent dirent parentDir root isIgnored = some (entry, absolute))
    (hkind : entry.kind = .directory) :
    dirent.node = .directory ∧ absolute = parentDir.join dirent.name.val := by
  rw [classifyWalkDirent] at h
  cases hnode : dirent.node with rw [hnode] at h
  | directory =>
    dsimp only at h
    split at h
    · cases h
    · cases h
      exact ⟨rfl, rfl⟩
  | file contents =>
    dsimp only at h
    split at h
    · cases h
    · cases h
      cases hkind
  | link target =>
    dsimp only at h
    split at h
    · cases h
    · cases h
      cases hkind
  | socket =>
    cases h

theorem walkDirents_keeps {P : EntryWalk → Prop}
    {walk : AbsolutePath → EntryWalk → Except Errno EntryWalk}
    {classify : Dirent → Option (FileEntry × AbsolutePath)} {dirents : List Dirent}
    (hpush : ∀ state entry, P state → P (state.push entry))
    (htruncated : ∀ state : EntryWalk, P state → P { state with truncated := true })
    (hwalk : ∀ dirent ∈ dirents, ∀ entry absolute, classify dirent = some (entry, absolute) →
      entry.kind = .directory → ∀ state after, walk absolute state = .ok after → P state →
        P after) (h : walkDirents walk classify dirents state = .ok after)
    (hstate : P state) : P after := by
  induction dirents generalizing state with
  | nil =>
    cases h
    exact hstate
  | cons dirent rest ih =>
    have hrest := fun other hother => hwalk other (mem_cons_of_mem dirent hother)
    rw [walkDirents] at h
    split at h
    · cases h
      exact hstate
    cases hclassify : classify dirent with
    | none =>
      rw [hclassify] at h
      exact ih hrest h hstate
    | some found =>
      obtain ⟨entry, absolute⟩ := found
      rw [hclassify] at h
      dsimp only at h
      split at h
      · cases h
        exact htruncated state hstate
      split at h
      · next hkind =>
        obtain ⟨middle, hmiddle, h⟩ := bind_eq_ok.mp h
        have hpushed := hpush state entry hstate
        exact ih hrest h (hwalk dirent (mem_cons_self ..) entry absolute hclassify hkind
          (state.push entry) middle hmiddle hpushed)
      · exact ih hrest h (hpush state entry hstate)

/-- **The walk opens directories inside the canonical root only.** -/
theorem walkDirectory_inside (hroot : fs.Leads [] (segments root.names) canonicalRoot) (depth : ℕ)
    (hdir : Below fs root canonicalRoot dir)
    (h : walkDirectory host fs root isIgnored depth dir state = .ok after)
    (hstate : state.Inside canonicalRoot) : after.Inside canonicalRoot := by
  induction depth generalizing dir state after with
  | zero =>
    cases h
    exact hstate
  | succ depth ih =>
    obtain ⟨opened, hopened, h⟩ := bind_eq_ok.mp h
    refine walkDirents_keeps (P := EntryWalk.Inside canonicalRoot) (fun _ _ h => h) (fun _ h => h)
      ?_ h ?_
    · intro dirent hdirent entry absolute hclassify hkind before behind hwalk hbefore
      obtain ⟨hdirectory, rfl⟩ := classifyWalkDirent_directory hclassify hkind
      have hmem : dirent ∈ opened.dirents := (mem_insertionSort _).mp hdirent
      exact ih (hdir.join hroot hopened hmem hdirectory) hwalk hbefore
    · intro location hlocation
      rcases mem_append.mp hlocation with hlocation | hlocation
      · exact hstate location hlocation
      · obtain ⟨rest, -, -, heq⟩ := hdir.location hroot (readdir_eq_ok hopened).1
        rw [mem_singleton.mp hlocation, heq]
        exact prefix_append _ _

theorem contained_listEntries : Contained fs root (listEntries host fs root) := by
  intro served h location hlocation
  rw [listEntries, walkWorktreeEntries] at h
  split at h
  · next state hwalk =>
    cases h
    -- the root itself was opened, so it leads somewhere
    obtain ⟨opened, hopened, -⟩ := bind_eq_ok.mp hwalk
    have hroot := realpath_leads (readdir_eq_ok hopened).1
    refine ⟨opened.location, hroot, ?_⟩
    refine walkDirectory_inside hroot _ below_root hwalk ?_ location hlocation
    exact fun _ hmem => absurd hmem not_mem_nil
  · cases h

/-! ## The depth of the walk -/

theorem walkDirectory_grows (depth : ℕ)
    (h : walkDirectory host fs root isIgnored depth dir state = .ok after) :
    state.entries.length ≤ after.entries.length := by
  induction depth generalizing dir state after with
  | zero =>
    cases h
    exact le_rfl
  | succ depth ih =>
    obtain ⟨opened, -, h⟩ := bind_eq_ok.mp h
    refine walkDirents_keeps (P := fun s => state.entries.length ≤ s.entries.length) ?_
      (fun _ h => h) ?_ h le_rfl
    · intro before entry hbefore
      rw [EntryWalk.push, length_append]
      exact Nat.le_add_right_of_le hbefore
    · intro _ _ _ _ _ _ before behind hwalk hbefore
      exact hbefore.trans (ih hwalk)

/-- The loop calls the walk only with more entries than it started from, and no more than fit. -/
theorem walkDirents_congr {walk walk' : AbsolutePath → EntryWalk → Except Errno EntryWalk}
    {classify : Dirent → Option (FileEntry × AbsolutePath)} {least : ℕ}
    (hgrows : ∀ dir state after, walk' dir state = .ok after →
      state.entries.length ≤ after.entries.length)
    (hwalk : ∀ dir (state : EntryWalk), least < state.entries.length →
      state.entries.length ≤ MAX_FILE_ENTRIES → walk dir state = walk' dir state)
    (dirents : List Dirent) (hleast : least ≤ state.entries.length) :
    walkDirents walk classify dirents state = walkDirents walk' classify dirents state := by
  induction dirents generalizing state with
  | nil => rfl
  | cons dirent rest ih =>
    rw [walkDirents, walkDirents]
    split
    · rfl
    cases classify dirent with
    | none => exact ih hleast
    | some found =>
      obtain ⟨entry, absolute⟩ := found
      have hlength : (state.push entry).entries.length = state.entries.length + 1 := length_append
      have hpushed : least ≤ (state.push entry).entries.length := by omega
      dsimp only
      split
      · rfl
      split
      · rw [hwalk absolute _ (by omega) (by omega)]
        cases hafter : walk' absolute (state.push entry) with
        | error e => rfl
        | ok after => exact ih (hpushed.trans (hgrows _ _ _ hafter))
      · exact ih hpushed

/-- **The cap on the entries bounds the depth that the walk can reach.** -/
theorem walkDirectory_succ (depth : ℕ) (hfits : state.entries.length ≤ MAX_FILE_ENTRIES)
    (hdepth : MAX_FILE_ENTRIES < depth + state.entries.length) :
    walkDirectory host fs root isIgnored (depth + 1) dir state =
      walkDirectory host fs root isIgnored depth dir state := by
  induction depth generalizing dir state with
  | zero => omega
  | succ depth ih =>
    rw [walkDirectory, walkDirectory]
    congr 1
    funext opened
    apply walkDirents_congr (fun _ _ _ => walkDirectory_grows depth) _ _ le_rfl
    intro dir' state' hleast hfits'
    have hmore : state.entries.length < state'.entries.length := hleast
    exact ih hfits' (by omega)

theorem walkDirectory_enough (more : ℕ) :
    walkDirectory host fs root isIgnored (MAX_FILE_ENTRIES + 1 + more) root {} =
      walkDirectory host fs root isIgnored (MAX_FILE_ENTRIES + 1) root {} := by
  induction more with
  | zero => rfl
  | succ more ih =>
    rw [← ih, ← Nat.add_assoc]
    apply walkDirectory_succ
    · exact Nat.zero_le _
    · have hempty : ({} : EntryWalk).entries.length = 0 := rfl
      omega

/-! ## Which paths are accepted -/

section Accepted

variable {α β : Type}

theorem accepts_ok (value : α) : Accepts (.ok value) := by
  intro e h
  cases h

theorem accepts_error_iff {e : FileError} :
    Accepts (.error e : Except FileError α) ↔ ¬ e.IsRefusal := by
  constructor
  · intro h
    exact h e rfl
  · intro h e' he
    cases he
    exact h

theorem accepts_bind {x : Except FileError α} {f : α → Except FileError β} (hx : Accepts x)
    (hf : ∀ a, Accepts (f a)) : Accepts (x.bind f) := by
  cases x with
  | error e => exact accepts_error_iff.mpr (accepts_error_iff.mp hx)
  | ok a => exact hf a

end Accepted

theorem not_accepts_escapesWorktreeRoot {α : Type} {dir : List Char} :
    ¬ Accepts (.error (escapesWorktreeRoot dir) : Except FileError α) := by
  intro h
  exact accepts_error_iff.mp h rfl

theorem accepts_read_iff (hroot : root.names ≠ []) :
    Accepts (read host fs root filePath) ↔ root.Contains (root.resolveFrom filePath) := by
  by_cases h : root.Contains (root.resolveFrom filePath)
  · refine iff_of_true ?_ h
    rw [read, validatePathContainment_of_contains hroot h]
    change Accepts (if _ then _ else _)
    split
    · split
      · exact accepts_ok _
      · exact accepts_ok _
    split
    · exact accepts_ok _
    split
    · exact accepts_ok _
    · exact accepts_ok _
  · refine iff_of_false ?_ h
    rw [read, validatePathContainment_of_not_contains h]
    exact not_accepts_escapesWorktreeRoot

theorem accepts_list_iff {dir : Option (List Char)} (hroot : root.names ≠ []) :
    Accepts (list host fs root dir) ↔ root.Contains (listTarget root dir) := by
  by_cases h : root.Contains (listTarget root dir)
  · refine iff_of_true ?_ h
    rw [list, validatePathContainment_of_contains hroot h]
    change Accepts (readAndBuildNodes _ _ _ _ _)
    rw [readAndBuildNodes]
    split
    · exact accepts_error_iff.mpr (fun h => RpcCode.noConfusion h)
    · exact accepts_ok _
  · refine iff_of_false ?_ h
    rw [list, validatePathContainment_of_not_contains h]
    exact not_accepts_escapesWorktreeRoot

def RepoRelative (filePath : List Char) : Prop :=
  filePath ≠ [] ∧ filePath.head? ≠ some '/' ∧ ['.', '.'] ∉ filePath.splitOn '/'

theorem validateRepoRelativePath_of_repoRelative (h : RepoRelative filePath) :
    validateRepoRelativePath filePath = .ok () := by
  rw [validateRepoRelativePath, if_neg]
  rintro (hempty | habsolute | hparent)
  · exact h.1 hempty
  · exact h.2.1 habsolute
  · exact h.2.2 (contains_iff_mem.mp hparent)

theorem validateRepoRelativePath_of_not_repoRelative (h : ¬ RepoRelative filePath) :
    validateRepoRelativePath filePath = .error (escapesWorktreeRoot filePath) := by
  rw [validateRepoRelativePath, if_pos]
  by_contra hnot
  rw [not_or, not_or] at hnot
  obtain ⟨hempty, habsolute, hparent⟩ := hnot
  exact h ⟨hempty, habsolute, fun hmem => hparent (contains_iff_mem.mpr hmem)⟩

theorem contains_of_repoRelative (h : RepoRelative filePath) :
    root.Contains (root.resolveFrom filePath) :=
  AbsolutePath.contains_resolveFrom h.2.1 h.2.2

theorem accepts_resolveMergeBase {ref : List Char} : Accepts (resolveMergeBase host root ref) := by
  rw [resolveMergeBase]
  dsimp only
  split
  · exact accepts_error_iff.mpr id
  split
  · exact accepts_error_iff.mpr id
  · exact accepts_ok _

theorem accepts_resolveBaseRev {target : DiffTarget} :
    Accepts (resolveBaseRev host root target storedBaseBranch) := by
  cases target with
  | working => exact accepts_ok _
  | ref ref => exact accepts_resolveMergeBase
  | branch =>
    rw [resolveBaseRev]
    split
    · exact accepts_resolveMergeBase
    · exact accepts_error_iff.mpr id

theorem accepts_readWorktreeFile {newPath : List Char} (hroot : root.names ≠ [])
    (h : root.Contains (root.resolveFrom newPath)) :
    Accepts (readWorktreeFile host fs root newPath maxBytes) := by
  rw [readWorktreeFile, validatePathContainment_of_contains hroot h, Except.bind]
  cases fs.readFile host.maxLinks (root.resolveFrom newPath) with
  | error _ => exact accepts_error_iff.mpr id
  | ok opened =>
    dsimp only
    split
    · exact accepts_error_iff.mpr id
    · exact accepts_ok _

theorem accepts_readBaseBlob {baseRev oldPath : List Char} :
    Accepts (readBaseBlob host root baseRev oldPath maxBytes) := by
  rw [readBaseBlob]
  split
  · exact accepts_error_iff.mpr (fun h => RpcCode.noConfusion h)
  · split
    · exact accepts_error_iff.mpr id
    split
    · exact accepts_error_iff.mpr id
    · exact accepts_ok _

theorem accepts_diffContents_iff (hroot : root.names ≠ []) :
    Accepts (diffContents host fs root storedBaseBranch request) ↔
      RepoRelative request.oldPath ∧ RepoRelative request.newPath := by
  by_cases hold : RepoRelative request.oldPath
  · by_cases hnew : RepoRelative request.newPath
    · refine iff_of_true ?_ ⟨hold, hnew⟩
      rw [diffContents, validateRepoRelativePath_of_repoRelative hold,
        validateRepoRelativePath_of_repoRelative hnew]
      change Accepts (if _ then _ else _)
      split
      · exact accepts_error_iff.mpr id
      · apply accepts_bind accepts_resolveBaseRev
        intro baseRev
        apply accepts_bind (accepts_readWorktreeFile hroot (contains_of_repoRelative hnew))
        intro newSide
        rw [withOldSide]
        split
        · exact accepts_ok _
        · exact accepts_bind accepts_readBaseBlob fun _ => accepts_ok _
    · refine iff_of_false ?_ (fun h => hnew h.2)
      rw [diffContents, validateRepoRelativePath_of_repoRelative hold,
        validateRepoRelativePath_of_not_repoRelative hnew]
      exact not_accepts_escapesWorktreeRoot
  · refine iff_of_false ?_ (fun h => hold h.1)
    rw [diffContents, validateRepoRelativePath_of_not_repoRelative hold]
    exact not_accepts_escapesWorktreeRoot

theorem isRefusal_containmentRpcError_iff {error : FilesystemContainmentError} :
    (containmentRpcError error filePath).IsRefusal ↔ error.reason = .PATH_TRAVERSAL := by
  rw [containmentRpcError]
  cases error.reason with
  | PATH_TRAVERSAL => exact iff_of_true rfl rfl
  | IO_FAILED =>
    refine iff_of_false ?_ (fun h => ContainmentReason.noConfusion h)
    dsimp only
    split
    · exact fun h => RpcCode.noConfusion h
    · exact fun h => RpcCode.noConfusion h

theorem accepts_readText_iff : Accepts (readText host fs root filePath) ↔
      isBinaryByExtension host filePath ∨ isImageByExtension host filePath ∨
        ∀ canonicalRoot, fs.realpath host.maxLinks root = .ok canonicalRoot →
          ¬ Escapes host fs canonicalRoot filePath := by
  rw [← or_assoc, readText]
  have hbinary : Accepts (.error (notATextFile filePath) : Except FileError
    (Served FileTextContent)) :=
    accepts_error_iff.mpr fun h => RpcCode.noConfusion h
  split
  · next hextension => exact iff_of_true hbinary (.inl hextension)
  next hextension =>
  rw [or_iff_right hextension]
  cases hread : readContainedFile host fs root filePath MAX_READ_TEXT_BYTES with
  | error e =>
    dsimp only
    rw [accepts_error_iff, isRefusal_containmentRpcError_iff]
    constructor
    · intro hreason canonicalRoot hroot hescapes
      obtain ⟨e', he', htraversal⟩ := (readContainedFile_traversal_iff hroot).mpr hescapes
      cases hread.symm.trans he'
      exact hreason htraversal
    · intro hnone hreason
      -- a refusal is only made once the root is canonical
      cases hroot : fs.realpath host.maxLinks root with
      | ok canonicalRoot =>
        exact hnone canonicalRoot hroot
          ((readContainedFile_traversal_iff hroot).mp ⟨e, hread, hreason⟩)
      | error errno =>
        rw [readContainedFile, canonicalizeRoot, hroot] at hread
        cases hread
        cases hreason
  | ok contained =>
    refine iff_of_true ?_ ?_
    · dsimp only
      split
      · exact hbinary
      · exact accepts_ok _
    · intro canonicalRoot hroot hescapes
      obtain ⟨e, he, -⟩ := (readContainedFile_traversal_iff hroot).mpr hescapes
      cases hread.symm.trans he

/-! ## The reads of a worktree -/

section Worktree

variable (host : Host) (fs : FileSystem) (root : AbsolutePath)

/-- No operation shows a file or a directory outside the canonical worktree root. -/
structure NothingFromOutside : Prop where
  readText : ∀ filePath, Contained fs root (readText host fs root filePath)
  read : ∀ filePath, Contained fs root (read host fs root filePath)
  diffContents : ∀ storedBaseBranch request,
    Contained fs root (diffContents host fs root storedBaseBranch request)
  list : ∀ dir, Contained fs root (list host fs root dir)
  listEntries : Contained fs root (listEntries host fs root)

/-- A path that one operation accepts is accepted by all of them. -/
structure AcceptTheSamePaths : Prop where
  readText : ∀ path,
    Accepts (readText host fs root path) ↔ Accepts (read host fs root path)
  list : ∀ path,
    Accepts (list host fs root (some path)) ↔ Accepts (read host fs root path)
  diffContents : ∀ storedBaseBranch request path, request.oldPath = path → request.newPath = path →
    (Accepts (diffContents host fs root storedBaseBranch request) ↔
      Accepts (read host fs root path))

/-- What the operations show stands in the canonical worktree root, when the operation
canonicalizes the path, never follows a link, or is given a path that passes none. -/
structure StaysInside : Prop where
  readText : ∀ filePath, Contained fs root (readText host fs root filePath)
  listEntries : Contained fs root (listEntries host fs root)
  read : ∀ filePath, PassesNoLink fs root (root.resolveFrom filePath) →
    Contained fs root (read host fs root filePath)
  diffContents : ∀ storedBaseBranch request,
    PassesNoLink fs root (root.resolveFrom request.newPath) →
      Contained fs root (diffContents host fs root storedBaseBranch request)
  list : ∀ dir, PassesNoLink fs root (listTarget root dir) →
    Contained fs root (list host fs root dir)

/-- The paths each operation accepts, in a worktree that is not the root of the file system.
Paths through links are left open, but for `readText`. -/
structure AcceptedPaths : Prop where
  read : root.names ≠ [] → ∀ filePath, PassesNoLink fs root (root.resolveFrom filePath) →
    (Accepts (read host fs root filePath) ↔ root.Contains (root.resolveFrom filePath))
  list : root.names ≠ [] → ∀ dir, PassesNoLink fs root (listTarget root dir) →
    (Accepts (list host fs root dir) ↔ root.Contains (listTarget root dir))
  diffContents : root.names ≠ [] → ∀ storedBaseBranch request,
    PassesNoLink fs root (root.resolveFrom request.newPath) →
      (Accepts (diffContents host fs root storedBaseBranch request) ↔
        RepoRelative request.oldPath ∧ RepoRelative request.newPath)
  repoRelative : ∀ filePath, RepoRelative filePath → root.Contains (root.resolveFrom filePath)
  readText : ∀ filePath,
    Accepts (readText host fs root filePath) ↔
      isBinaryByExtension host filePath ∨ isImageByExtension host filePath ∨
        ∀ canonicalRoot, fs.realpath host.maxLinks root = .ok canonicalRoot →
          ¬ Escapes host fs canonicalRoot filePath

/-- **Reads of a worktree stay inside its canonical root.** -/
theorem worktree_reads : StaysInside host fs root ∧ AcceptedPaths host fs root := by
  constructor
  · exact {
      readText := contained_readText
      listEntries := contained_listEntries
      read := fun _ => contained_read
      diffContents := fun _ _ => contained_diffContents
      list := fun _ => contained_list }
  · exact {
      read := fun hroot _ _ => accepts_read_iff hroot
      list := fun hroot _ _ => accepts_list_iff hroot
      diffContents := fun hroot _ _ _ => accepts_diffContents_iff hroot
      repoRelative := fun _ => contains_of_repoRelative
      readText := fun _ => accepts_readText_iff }

end Worktree

/-! ## A link that leads out -/

def linkedOut : FileSystem where
  nodes :=
    [([⟨['w'], by decide⟩], .directory),
      ([⟨['w'], by decide⟩, ⟨['l'], by decide⟩], .link ['/', 's']),
      ([⟨['s'], by decide⟩], .file [104, 105])]
  nodup := by decide
  placed := by decide

def linkedOutRoot : AbsolutePath := ⟨[⟨['w'], by decide⟩]⟩

/-- A platform whose texts are ASCII, and where git cannot be run. -/
def plainHost : Host where
  maxLinks := 40
  decode bytes := bytes.map fun byte => Char.ofNat byte.toNat
  encode text := text.map fun c => UInt8.ofNat c.toNat
  base64 bytes := bytes.map fun byte => Char.ofNat byte.toNat
  toLowerCase text := text
  localeCompare a b := compare a.length b.length
  errorText _ p := p.text
  ignores _ _ := false
  spawnGit _ _ := none
  structuredPatch filePath _ _ := ⟨filePath, filePath, []⟩
  formatPatch patch := patch.oldFileName

theorem not_inside {location : Location}
    (hroot : fs.realpath host.maxLinks root = .ok canonicalRoot)
    (h : ¬ canonicalRoot <+: location) : ¬ Inside fs root location := by
  rintro ⟨other, hother, hinside⟩
  rw [(realpath_leads hroot).unique hother] at h
  exact h hinside

theorem read_linkedOut : read plainHost linkedOut linkedOutRoot ['l'] =
      .ok ⟨{ type := .text, content := ['h', 'i'] }, [[⟨['s'], by decide⟩]]⟩ := rfl

def climbing : DiffContentsRequest where
  target := .working
  changeType := .change
  oldPath := "a/..".toList
  newPath := "a/..".toList
  maxBytes := none

/-- `read` shows what the link leads to; and `diffContents` refuses a parent segment on a path
that `read` accepts. -/
theorem linkedOut_leaves : ¬ NothingFromOutside plainHost linkedOut linkedOutRoot ∧
      ¬ AcceptTheSamePaths plainHost linkedOut linkedOutRoot := by
  constructor
  · intro h
    have hinside := h.read ['l'] _ read_linkedOut _ (mem_singleton_self _)
    have hroot : linkedOut.realpath plainHost.maxLinks linkedOutRoot = .ok linkedOutRoot.names :=
      rfl
    exact not_inside hroot (by decide) hinside
  · intro h
    have hroot : linkedOutRoot.names ≠ [] := cons_ne_nil _ _
    have hread : Accepts (read plainHost linkedOut linkedOutRoot climbing.newPath) :=
      (accepts_read_iff hroot).mpr (by decide)
    have hdiff := (h.diffContents none climbing climbing.newPath rfl rfl).mpr hread
    obtain ⟨-, hrelative⟩ := (accepts_diffContents_iff hroot).mp hdiff
    exact hrelative.2.2 (by decide)

end Laborer.Files
