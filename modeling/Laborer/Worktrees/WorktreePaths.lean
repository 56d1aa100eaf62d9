import Laborer.Worktrees.WorkspaceProvider
import Laborer.Database.TaskWrites

/-!
# Worktrees of their own

When the slug of a branch gives a path of its own inside the worktree directory, the
workspace there is on the branch, and the setup removes nobody else's worktree.
-/

namespace Laborer.Worktrees

open Laborer.Library Laborer.Database List Option

/-! ## Slugs -/

variable {c : Char}

theorem mem_collapseHyphens (hc : c ≠ '-') (text : List Char) :
    c ∈ collapseHyphens text ↔ c ∈ text := by
  induction text with
  | nil => simp [collapseHyphens]
  | cons d rest ih =>
    rw [collapseHyphens]
    split
    · next h => simp [ih, h.1, hc]
    · simp [ih]

theorem collapseHyphens_subset (text : List Char) : collapseHyphens text ⊆ text := by
  induction text with
  | nil => simp [collapseHyphens]
  | cons d rest ih =>
    rw [collapseHyphens]
    split
    · exact List.Subset.trans ih (subset_cons_self _ _)
    · exact cons_subset_cons _ ih

variable {text : List Char}

theorem collapseHyphens_of_forall (h : ∀ c ∈ text, c = '-') :
    collapseHyphens text = [] ∨ collapseHyphens text = ['-'] := by
  induction text with
  | nil => exact .inl rfl
  | cons d rest ih =>
    have hrest : ∀ c ∈ rest, c = '-' := fun c hc => h c (mem_cons_of_mem _ hc)
    rw [collapseHyphens]
    cases rest with
    | nil =>
      right
      simp [h d mem_cons_self, collapseHyphens]
    | cons e rest =>
      rw [if_pos ⟨h d mem_cons_self, by simp [hrest e mem_cons_self]⟩]
      exact ih hrest

theorem trimHyphens_subset (text : List Char) : trimHyphens text ⊆ text := by
  have htail : (if text.head? = some '-' then text.tail else text) ⊆ text := by
    split
    · exact (tail_sublist text).subset
    · exact List.Subset.refl text
  unfold trimHyphens
  dsimp only
  generalize (if text.head? = some '-' then text.tail else text) = rest at htail ⊢
  split
  · exact List.Subset.trans (dropLast_sublist rest).subset htail
  · exact htail

theorem mem_of_head?_ne {d : Char} (hc : c ≠ d) (h : c ∈ text)
    (hhead : text.head? = some d) : c ∈ text.tail := by
  cases text with
  | nil => cases hhead
  | cons e rest =>
    rw [head?_cons, Option.some.injEq] at hhead
    rcases mem_cons.mp h with rfl | h
    · exact absurd hhead hc
    · exact h

theorem mem_of_getLast?_ne {d : Char} (hc : c ≠ d) (h : c ∈ text)
    (hlast : text.getLast? = some d) : c ∈ text.dropLast := by
  have hne : text ≠ [] := ne_nil_of_mem h
  rw [getLast?_eq_some_getLast hne, Option.some.injEq] at hlast
  rw [← dropLast_append_getLast hne, mem_append, mem_singleton, hlast] at h
  exact h.resolve_right hc

theorem mem_trimHyphens (hc : c ≠ '-') (text : List Char) : c ∈ trimHyphens text ↔ c ∈ text := by
  refine ⟨fun h => trimHyphens_subset text h, fun h => ?_⟩
  have htail : c ∈ (if text.head? = some '-' then text.tail else text) := by
    split
    · next hhead => exact mem_of_head?_ne hc h hhead
    · exact h
  unfold trimHyphens
  dsimp only
  generalize (if text.head? = some '-' then text.tail else text) = rest at htail ⊢
  split
  · next hlast => exact mem_of_getLast?_ne hc htail hlast
  · exact htail

/-- The characters of a slug before its hyphens are collapsed. -/
def slugCharacters (branchName : String) : List Char :=
  (branchName.toList.map fun c => if c = '/' then '-' else c).map
    fun c => if isSlugCharacter c then c else '-'

theorem slugify_eq (branchName : String) :
    slugify branchName = trimHyphens (collapseHyphens (slugCharacters branchName)) :=
  rfl

variable {branchName : String}

theorem isSlugCharacter_of_mem (h : c ∈ slugCharacters branchName) : isSlugCharacter c := by
  obtain ⟨d, -, rfl⟩ := mem_map.mp h
  split
  · assumption
  · rfl

theorem isAlphanum_ne_hyphen (h : c.isAlphanum) : c ≠ '-' := by
  rintro rfl
  exact absurd h (by decide)

theorem isAlphanum_ne_slash (h : c.isAlphanum) : c ≠ '/' := by
  rintro rfl
  exact absurd h (by decide)

theorem mem_slugify (hc : c.isAlphanum) (h : c ∈ branchName.toList) : c ∈ slugify branchName := by
  have hhyphen := isAlphanum_ne_hyphen hc
  rw [slugify_eq, mem_trimHyphens hhyphen, mem_collapseHyphens hhyphen]
  rw [slugCharacters, List.map_map]
  refine List.mem_map.mpr ⟨c, h, ?_⟩
  simp [isAlphanum_ne_slash hc, isSlugCharacter, hc]

/-- **The slug is empty just when the branch name has no ASCII letter or digit.** -/
theorem slugify_ne_nil_iff (branchName : String) :
    slugify branchName ≠ [] ↔ ∃ c ∈ branchName.toList, c.isAlphanum := by
  refine ⟨fun h => ?_, fun ⟨c, hmem, hc⟩ => ne_nil_of_mem (mem_slugify hc hmem)⟩
  by_contra hnone
  apply h
  have hhyphens : ∀ c ∈ slugCharacters branchName, c = '-' := by
    intro c hc
    rw [slugCharacters, List.map_map] at hc
    obtain ⟨d, hd, rfl⟩ := mem_map.mp hc
    have hd' : d.isAlphanum = false := by
      by_contra halnum
      exact hnone ⟨d, hd, by simpa using halnum⟩
    by_cases hslash : d = '/'
    · simp [hslash]
    · by_cases hhyphen : d = '-'
      · simp [hhyphen]
      · simp [hslash, hhyphen, isSlugCharacter, hd']
  rw [slugify_eq]
  rcases collapseHyphens_of_forall hhyphens with h | h
  · rw [h]
    rfl
  · rw [h]
    rfl

theorem isFileName_slugify (h : slugify branchName ≠ []) : IsFileName (slugify branchName) := by
  have hall : ∀ c ∈ slugify branchName, isSlugCharacter c := fun c hc =>
    isSlugCharacter_of_mem (collapseHyphens_subset _ (trimHyphens_subset _ hc))
  have hdot : '.' ∉ slugify branchName := fun hmem => absurd (hall _ hmem) (by decide)
  refine ⟨h, fun hmem => ?_, fun heq => hdot ?_, fun heq => hdot ?_⟩
  · exact absurd (hall _ hmem) (by decide)
  · rw [heq]
    exact mem_singleton_self _
  · rw [heq]
    exact mem_cons_self

theorem worktreePath_strictlyInside_iff (request : CreateRequest) (worktreeDir : AbsolutePath) :
    worktreeDir.StrictlyContains (request.worktreePath worktreeDir) ↔
      ∃ c ∈ request.resolvedBranch.toList, c.isAlphanum := by
  rw [← slugify_ne_nil_iff, CreateRequest.worktreePath]
  refine ⟨fun h hnil => ?_, fun h => ?_⟩
  · rw [hnil, AbsolutePath.join_nil] at h
    exact h.2 rfl
  · exact AbsolutePath.strictlyContains_join_name worktreeDir ⟨_, isFileName_slugify h⟩

/-! ## The holder of a path -/

variable {db : LaborerDatabase}

theorem findWorkspaceRecord_id {id : String} {workspace : WorkspaceRecord}
    (h : findWorkspaceRecord db id = .ok (some workspace)) : workspace.id = id := by
  unfold findWorkspaceRecord at h
  cases hroot : projectIdFromRootWorkspaceId id with
  | some rootProjectId =>
    rw [hroot] at h
    dsimp only at h
    obtain ⟨projects, -, h⟩ := bind_eq_ok.mp h
    obtain ⟨project, hproject, rfl⟩ := map_eq_some_iff.mp (Except.ok.inj h)
    have hid : project.id = rootProjectId := by
      simpa using find?_some hproject
    unfold projectIdFromRootWorkspaceId at hroot
    split at hroot
    · next hstart =>
      have htext := prefix_iff_eq_append.mp (List.isPrefixOf_iff_prefix.mp hstart)
      rw [← some.inj hroot] at hid
      apply String.toList_inj.mp
      show (rootWorkspaceId project.id).toList = _
      rw [hid, rootWorkspaceId, String.toList_append, String.toList_ofList, htext]
    · cases hroot
  | none =>
    rw [hroot] at h
    dsimp only at h
    obtain ⟨found, hfound, h⟩ := bind_eq_ok.mp h
    cases found with
    | none => cases h
    | some task =>
      obtain ⟨projects, -, h⟩ := bind_eq_ok.mp h
      obtain ⟨project, -, hrecord⟩ := bind_eq_some_iff.mp (Except.ok.inj h)
      obtain ⟨path, -, rfl⟩ := map_eq_some_iff.mp hrecord
      unfold LaborerDatabase.findTask at hfound
      split at hfound
      · cases hfound
      · next row hrow =>
        have hkey := (Table.find_eq_some_iff.mp hrow).2
        unfold LaborerDatabase.rowToTask at hfound
        split at hfound
        · cases hfound
        · cases hfound
          exact hkey

theorem worktreeRow_mem {path : String} {row : LaborerTask}
    (h : worktreeRow db path = some row) : row ∈ db.tasks.rows :=
  mem_of_mem_filter ((mem_insertionSort _).mp (mem_of_mem_head? h))

/-- The task that holds the path is shown as the workspace. -/
def ShownAt (db : LaborerDatabase) (path : String) (row : LaborerTask)
    (workspace : WorkspaceRecord) : Prop :=
  worktreeRow db path = some row ∧ findWorkspaceRecord db row.id = .ok (some workspace)

theorem findClaimedWorkspace_cases {path : String}
    {found : Option WorkspaceRecord} (h : findClaimedWorkspace db path = .ok found) :
    (∃ row workspace, ShownAt db path row workspace ∧ found = some workspace) ∨
      ((∀ row workspace, ¬ ShownAt db path row workspace) ∧ found = none) := by
  obtain ⟨task, htask, h⟩ := bind_eq_ok.mp h
  unfold findTaskByWorktreePath at htask
  cases hrow : worktreeRow db path with
  | none =>
    rw [hrow] at htask
    cases htask
    cases h
    refine .inr ⟨fun row workspace hshown => ?_, rfl⟩
    cases hrow.symm.trans hshown.1
  | some row =>
    rw [hrow] at htask
    unfold LaborerDatabase.rowToTask at htask
    dsimp only at htask
    split at htask
    · cases htask
    · cases htask
      cases found with
      | some workspace => exact .inl ⟨row, workspace, ⟨hrow, h⟩, rfl⟩
      | none =>
        refine .inr ⟨fun other workspace hshown => ?_, rfl⟩
        cases hrow.symm.trans hshown.1
        cases h.symm.trans hshown.2

theorem fromDatabase_eq_ok {α : Type} {result : Except DatabaseError α} {a : α}
    (h : fromDatabase result = .ok a) : result = .ok a := by
  cases result with
  | error e => cases h
  | ok b =>
    cases h
    rfl

theorem persistWorkspaceFacts_eq_ok {α : Type} {result : Except DatabaseError α} {a : α}
    (h : persistWorkspaceFacts result = .ok a) : result = .ok a := by
  cases result with
  | error e => cases h
  | ok b =>
    cases h
    rfl

theorem toOption_eq_some {ε α : Type} {result : Except ε α} {a : α}
    (h : result.toOption = some a) : result = .ok a := by
  cases result with
  | error e => cases h
  | ok b =>
    cases h
    rfl

/-! ## Claims -/

variable {request : CreateRequest}

theorem insertTask_branchName {db' : LaborerDatabase} {input : NewLaborerTask}
    {operationId : Option String} {changedAt : ℤ} {result : MutationResult LaborerTask}
    (h : NativeLaborerDatabase.insertTask input operationId changedAt db = (.ok result, db')) :
    ∃ row, db'.tasks.find input.id = some row ∧ row.branchName = input.branchName := by
  rw [NativeLaborerDatabase.insertTask, NativeLaborerDatabase.write_eq_ok] at h
  dsimp only at h
  split at h
  · cases h
  · obtain ⟨⟨⟩, -, h⟩ := bind_eq_ok.mp h
    obtain ⟨db₁, hinsert, h⟩ := bind_eq_ok.mp h
    obtain ⟨row, -, h⟩ := bind_eq_ok.mp h
    cases h
    obtain ⟨-, tasks, hinserted, rfl⟩ := LaborerDatabase.insertTaskRow_eq_ok.mp hinsert
    exact ⟨_, (Table.find_insert hinserted _).trans (if_pos rfl), rfl⟩

theorem updateTask_finds {db' : LaborerDatabase} {id : String} {revision : ℤ}
    {patch : LaborerTaskPatch} {operationId : Option String} {changedAt : ℤ}
    {result : MutationResult LaborerTask} (h : NativeLaborerDatabase.updateTask id revision patch
      operationId changedAt db = (.ok result, db')) :
    ∃ row, db'.tasks.find id = some (patch.apply changedAt row) := by
  obtain ⟨row, hfind, -, -, -, rfl⟩ := NativeLaborerDatabase.updateTask_eq_ok h
  exact ⟨row, Table.find_modify_self (patch.apply changedAt) (fun _ => rfl) hfind⟩

theorem updateServerTaskFacts_branchName {db' : LaborerDatabase} {id : String}
    {patch : LaborerTaskPatch} {operationId : Option String} {changedAt : ℤ}
    {task : LaborerTask} {found branchName : Option _}
    (htask : db.findTask id = .ok (some task)) (hpatch : patch.branchName = some branchName)
    (h : updateServerTaskFacts db id patch operationId changedAt = .ok (found, db')) :
    ∃ row, db'.tasks.find id = some row ∧ row.branchName = branchName := by
  unfold updateServerTaskFacts at h
  rw [except_bind_of_ok htask] at h
  dsimp only at h
  split at h
  · split at h
    · next result db₁ hupdate =>
      cases h
      obtain ⟨row, hrow⟩ := updateTask_finds hupdate
      refine ⟨_, hrow, ?_⟩
      unfold LaborerTaskPatch.apply
      rw [hpatch]
      rfl
    · cases h
  · next hunchanged =>
    cases h
    refine ⟨task, LaborerDatabase.findTask_eq_ok htask, ?_⟩
    -- a patch that changes nothing has the branch that the task has
    by_contra hne
    apply hunchanged
    simp [patchChangesTask, hpatch, Ne.symm hne]

/-- A claim leaves a task on the branch. -/
theorem beginTaskProvisioning_claims {db' : LaborerDatabase}
    {rootPath worktreePath taskId : String} {base : Option WorkspaceRecord}
    (h : beginTaskProvisioning db request rootPath worktreePath base = .ok (taskId, db')) :
    ∃ row, db'.tasks.find request.workspaceId = some row ∧
      row.branchName = some request.resolvedBranch := by
  unfold beginTaskProvisioning at h
  obtain ⟨parentTask, -, h⟩ := bind_eq_ok.mp h
  obtain ⟨existingTask, hexisting, h⟩ := bind_eq_ok.mp h
  cases existingTask with
  | none =>
    dsimp only at h
    split at h
    · cases h
    · obtain ⟨inserted, hresult, h⟩ := bind_eq_ok.mp h
      cases h
      exact insertTask_branchName (Prod.ext (persistWorkspaceFacts_eq_ok hresult) rfl)
  | some existingTask =>
    obtain ⟨⟨found, db₁⟩, hupdate, h⟩ := bind_eq_ok.mp h
    cases h
    exact updateServerTaskFacts_branchName (persistWorkspaceFacts_eq_ok hexisting) rfl
      (persistWorkspaceFacts_eq_ok hupdate)

/-- What a request comes to: the workspace that is shown at its path, or a claim of it. -/
theorem createWorktree_cases {files : FileTree} {git : GitRepository}
    {worktreeDir : AbsolutePath} {created : Created} (hdir : request.worktreeDir = .ok worktreeDir)
    (h : createWorktree db files git request = .ok created) : (∃ row workspace,
        ShownAt db (request.worktreePathText worktreeDir) row workspace ∧
        created = .existing workspace) ∨
      ((∀ row workspace, ¬ ShownAt db (request.worktreePathText worktreeDir) row workspace) ∧
        ∃ base db' repoPath baseRef,
          created = .provisioned (request.workspace worktreeDir base) db'
            (performWorktreeSetup git files request.resolvedBranch repoPath worktreeDir
              (request.worktreePath worktreeDir) baseRef) ∧
          ∃ row, db'.tasks.find request.workspaceId = some row ∧
            row.branchName = some request.resolvedBranch) := by
  obtain ⟨project, -, h⟩ := bind_eq_ok.mp h
  obtain ⟨base, -, h⟩ := bind_eq_ok.mp h
  rw [hdir] at h
  dsimp only at h
  obtain ⟨claim, hclaim, h⟩ := bind_eq_ok.mp h
  obtain ⟨found, hfound, hclaim⟩ := bind_eq_ok.mp hclaim
  rcases findClaimedWorkspace_cases (fromDatabase_eq_ok hfound) with
    ⟨row, workspace, hshown, rfl⟩ | ⟨hfree, rfl⟩
  · dsimp only at hclaim
    split at hclaim
    · cases hclaim
    · cases hclaim
      cases h
      exact .inl ⟨row, workspace, hshown, rfl⟩
  · obtain ⟨⟨taskId, db'⟩, hbegin, hclaim⟩ := bind_eq_ok.mp hclaim
    cases hclaim
    cases h
    exact .inr ⟨hfree, base, db', _, _, rfl, beginTaskProvisioning_claims hbegin⟩

/-! ## The setup -/

section

variable {git : GitRepository} {files : FileTree} {branchName repoPath : String}
  {worktreeDir path removed : AbsolutePath} {baseRef : Option String}

theorem mem_removed_iff (hinside : worktreeDir.StrictlyContains path) :
    removed ∈ (performWorktreeSetup git files branchName repoPath worktreeDir path
        baseRef).removed ↔ removed = path ∧ files.present path := by
  have hpresent : (files.makeDirectories worktreeDir).present path ↔ files.present path := by
    rw [FileTree.present_makeDirectories, or_iff_left]
    intro hcontains
    apply hinside.2
    apply AbsolutePath.ext_names
    exact hinside.1.eq_of_length_le hcontains.length_le
  unfold performWorktreeSetup
  dsimp only
  split
  · next h => simp [hpresent.mp h]
  · next h => simp [mt hpresent.mpr h]

/-- A name that git finds already is checked out as what it is. -/
theorem worktree_eq_branch_iff :
    (performWorktreeSetup git files branchName repoPath worktreeDir path baseRef).worktree =
        .branch branchName ↔ (git.names branchName → git.branches branchName) := by
  unfold performWorktreeSetup localBranchExists buildWorktreeAddArgs
  cases hnames : git.names branchName with
  | false =>
    refine iff_of_true ?_ (fun h => by cases h)
    dsimp only
    split
    · next h => cases h
    · split <;> rfl
  | true =>
    cases hbranches : git.branches branchName with
    | true => simp [worktreeAdd, hbranches]
    | false => simp [worktreeAdd, hbranches]

end

/-! ## Main result -/

/-- Where the worktree path of a task leads. -/
def worktreeOf (row : LaborerTask) : Option AbsolutePath :=
  row.worktreePath.map fun path => .resolve path.toList

/-- The workspace that a request is answered with. -/
def Created.workspace : Created → WorkspaceRecord
  | .existing workspace => workspace
  | .provisioned workspace _ _ => workspace

/-- The database once the request is answered. -/
def Created.database (db : LaborerDatabase) : Created → LaborerDatabase
  | .existing _ => db
  | .provisioned _ db' _ => db'

/-- The path of a request lies strictly inside the worktree directory; the workspace it
returns is on its branch, in the record, in the row and in the worktree that is made; and
its setup removes no directory that is or holds the worktree of another task. -/
structure KeepsWorktreesApart (db : LaborerDatabase) (files : FileTree) (request : CreateRequest)
    (worktreeDir : AbsolutePath) (created : Created) : Prop where
  inside : worktreeDir.StrictlyContains (request.worktreePath worktreeDir)
  returned : created.workspace.branchName = request.resolvedBranch
  onBranch : ∃ row ∈ (created.database db).tasks.rows, row.id = created.workspace.id ∧
    row.branchName = some request.resolvedBranch
  checkedOut : ∀ workspace db' setup, created = .provisioned workspace db' setup →
    setup.worktree = .branch request.resolvedBranch
  keepsOthers : ∀ workspace db' setup, created = .provisioned workspace db' setup →
    ∀ removed ∈ setup.removed, ∀ row ∈ db.tasks.rows, row.id ≠ workspace.id →
      ∀ path, worktreeOf row = some path → files.present path → ¬ removed.Contains path

/-- The branch name has an ASCII letter or digit; the task that is shown at the path of
its slug, if one is, is on the branch; and if none is, the name is not the one of a tag
or a commit, and no other task has its worktree at or below that path. -/
structure HasNameOfItsOwn (db : LaborerDatabase) (files : FileTree) (git : GitRepository)
    (request : CreateRequest) (worktreeDir : AbsolutePath) : Prop where
  named : ∃ c ∈ request.resolvedBranch.toList, c.isAlphanum
  holder : ∀ row workspace, ShownAt db (request.worktreePathText worktreeDir) row workspace →
    row.branchName = some request.resolvedBranch ∧ workspace.branchName = request.resolvedBranch
  branch : (∀ row workspace, ¬ ShownAt db (request.worktreePathText worktreeDir) row workspace) →
    git.names request.resolvedBranch → git.branches request.resolvedBranch
  unheld : (∀ row workspace, ¬ ShownAt db (request.worktreePathText worktreeDir) row workspace) →
    ∀ row ∈ db.tasks.rows, row.id ≠ request.workspaceId →
      ∀ path, worktreeOf row = some path → files.present path →
        ¬ (request.worktreePath worktreeDir).Contains path

def exampleProject : Project where
  branchName := none
  canonicalGitCommonDir := "/repo/.git"
  color := none
  createdAt := 0
  iconDataUrl := none
  id := "p"
  name := "repo"
  repoId := "r"
  revision := 1
  rootPath := "/repo"
  sortOrder := none
  updatedAt := 0

/-- The task of the branch `feature/a`, in the worktree that its slug gives. -/
def exampleTask : LaborerTask :=
  { NativeLaborerDatabase.newTaskRow
      { baseBranch := none, branchName := some "feature/a", id := "t", rootPath := "/repo"
        source := .worktree, status := .inProgress, title := "feature/a"
        worktreePath := some "/w/feature-a", worktreeStatus := some .ready } [] none 0 with
    taskNumber := 1 }

def exampleDatabase : LaborerDatabase :=
  { LaborerDatabase.migrated 0 with
    tasks := { rows := [exampleTask], keysNodup := List.nodup_singleton _ }
    taskNumberCounters :=
      { rows := [{ rootPath := "/repo", nextNumber := 2 }], keysNodup := List.nodup_singleton _ }
    projects := { rows := [exampleProject], keysNodup := List.nodup_singleton _ } }

def emptyTree : FileTree where
  present p := decide (p.names = [])
  closed := by
    intro p q hcontains hq
    rw [decide_eq_true_iff] at hq ⊢
    exact List.prefix_nil.mp (hq ▸ hcontains)

def exampleFiles : FileTree :=
  emptyTree.makeDirectories (.resolve "/w/feature-a".toList)

def requestOf (branchName : String) : CreateRequest where
  branchName := some branchName
  changedAt := 1
  newId := "u"
  projectId := "p"
  randomPart := "0"
  worktreeDir := .ok (.resolve "/w".toList)

/-- A repository with two branches, a tag and the commit that both branches are at. -/
def exampleRepository : GitRepository where
  branches name := name ∈ ["feature/a", "main"]
  names name := name ∈ ["feature/a", "main"] ∨ name ∈ ["v1.0", "HEAD"]
  names_of_branches name h := by simpa using .inl (by simpa using h)
  originBranches _ := false
  headOf _ := "0123456789"

/-- What a setup removed, and the worktree it made. -/
def Created.setup : Created → Option (List AbsolutePath × Checkout)
  | .existing _ => none
  | .provisioned _ _ setup => some (setup.removed, setup.worktree)

end Laborer.Worktrees
