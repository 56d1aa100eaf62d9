import Laborer.Projects.ProjectTaskIdentifiers
import Laborer.Library.Runs

/-!
# Task references

Renames keep the keys of the projects apart and every former name a key. An identifier
then finds its task, unless a task has it as its id or another task of the project has the
same number, and whatever a text finds, it identifies.
-/

namespace Laborer.Projects

open Library Database List Option Table

variable {special : Char → List Char} {projects : List ProjectTaskIdentifierNamespace}
  {project candidate : ProjectTaskIdentifierNamespace} {db : LaborerDatabase}
  {key reference : String} {tasks : List Task}

/-! ## Keys -/

theorem validate_eq_ok {existing : List ProjectTaskIdentifierNamespace} :
    validateProjectTaskIdentifierNamespace candidate existing = .ok () ↔
      ∀ project ∈ existing, project.id ≠ candidate.id →
        ∀ key ∈ namespaceKeys project, key ∉ namespaceKeys candidate := by
  unfold validateProjectTaskIdentifierNamespace
  dsimp only
  cases hfind : existing.find? fun project =>
      project.id ≠ candidate.id && (namespaceKeys project).any (· ∈ namespaceKeys candidate) with
  | none =>
    rw [find?_eq_none] at hfind
    refine iff_of_true rfl fun project hproject hid key hkey hshared => ?_
    apply hfind project hproject
    simp only [Bool.and_eq_true, decide_eq_true_eq, List.any_eq_true]
    exact ⟨hid, key, hkey, hshared⟩
  | some project =>
    have hshared := List.find?_some hfind
    simp only [Bool.and_eq_true, decide_eq_true_eq, List.any_eq_true] at hshared
    obtain ⟨hid, key, hkey, hmem⟩ := hshared
    refine iff_of_false (fun h => ?_) fun h => ?_
    · cases h
    · exact h project (List.mem_of_find?_eq_some hfind) hid key hkey hmem

theorem mem_aliasesAfterRename {currentShortName nextShortName : String}
    {currentAliases : List String} :
    key ∈ aliasesAfterRename currentShortName currentAliases nextShortName ↔
      (key ∈ currentAliases ∨ key = currentShortName) ∧ key ≠ nextShortName := by
  simp [aliasesAfterRename]

theorem keys_candidate (rename : Rename) (current : ProjectTaskIdentifierNamespace) :
    ∀ key ∈ namespaceKeys current, key ∈ namespaceKeys (rename.candidate current) := by
  intro key hkey
  have hrenamed : ∀ aliases shortName, (key = current.shortName ∨ key ∈ aliases) →
      key = shortName ∨ key ∈ aliasesAfterRename current.shortName aliases shortName := by
    intro aliases shortName hold
    by_cases hnext : key = shortName
    · exact .inl hnext
    · exact .inr (mem_aliasesAfterRename.mpr ⟨hold.symm, hnext⟩)
  rw [namespaceKeys, mem_cons] at hkey ⊢
  cases rename with
  | updateConfig pid shortName =>
    dsimp only [Rename.candidate]
    by_cases hsame : shortName = current.shortName
    · rw [if_pos hsame, hsame]
      exact hkey
    · rw [if_neg hsame]
      exact hrenamed current.aliases shortName hkey
  | repoint pid shortName aliases repoPath =>
    exact hrenamed (current.aliases ++ aliases) shortName
      (hkey.imp_right fun hmem => mem_append_left _ hmem)

/-! ## Renames -/

/-- Projects that passed the validation, as they are registered: their keys are short
names, and no two have one in common. -/
structure Validated (projects : List ProjectTaskIdentifierNamespace) : Prop where
  ids : (projects.map (·.id)).Nodup
  names : ∀ project ∈ projects, ∀ key ∈ namespaceKeys project, isProjectShortName key = true
  apart : ∀ project ∈ projects,
    validateProjectTaskIdentifierNamespace project projects = .ok ()

theorem Validated.unique (h : Validated projects) {other : ProjectTaskIdentifierNamespace}
    (hproject : project ∈ projects) (hother : other ∈ projects)
    (hkey : key ∈ namespaceKeys project) (hkey' : key ∈ namespaceKeys other) : other = project := by
  by_contra hne
  have hid : other.id ≠ project.id := fun heq => hne (inj_on_of_nodup_map h.ids hother hproject heq)
  exact validate_eq_ok.mp (h.apart project hproject) other hother hid key hkey' hkey

/-- The projects are validated, and a former name of one is a key of it. -/
structure ProjectNames.Ok (s : ProjectNames) : Prop where
  validated : Validated s.projects
  former : ∀ entry ∈ s.formerNames, ∀ project ∈ s.projects, project.id = entry.1 →
    entry.2 ∈ namespaceKeys project

theorem id_candidate (rename : Rename) (current : ProjectTaskIdentifierNamespace) :
    (rename.candidate current).id = current.id := by
  cases rename <;> rfl

/-- **A rename keeps the names.** -/
theorem ProjectNames.Ok.rename {s : ProjectNames} (h : s.Ok) (rename : Rename) :
    (s.rename rename).Ok := by
  unfold ProjectNames.rename
  cases hfind : s.projects.find? (·.id = rename.projectId) with
  | none => exact h
  | some current =>
    dsimp only
    split
    · next haccepted =>
      have hcurrent := mem_of_find?_eq_some hfind
      have hid := id_candidate rename current
      have hkeys := keys_candidate rename current
      generalize rename.candidate current = candidate at haccepted hid hkeys
      obtain ⟨hnames, hvalidate⟩ := (Bool.and_eq_true _ _).mp haccepted
      rw [List.all_eq_true] at hnames
      have hapart : validateProjectTaskIdentifierNamespace candidate s.projects = .ok () := by
        cases hresult : validateProjectTaskIdentifierNamespace candidate s.projects with
        | ok => rfl
        | error e =>
          rw [hresult] at hvalidate
          cases hvalidate
      rw [validate_eq_ok] at hapart
      -- A project afterwards is the candidate or was there before.
      have hafter : ∀ project ∈ s.projects.map (fun project =>
          if project.id = current.id then candidate else project),
          project = candidate ∨ (project ∈ s.projects ∧ project.id ≠ current.id) := by
        intro project hproject
        obtain ⟨old, hold, rfl⟩ := mem_map.mp hproject
        by_cases heq : old.id = current.id
        · rw [if_pos heq]
          exact .inl rfl
        · rw [if_neg heq]
          exact .inr ⟨hold, heq⟩
      have hids : ∀ old ∈ s.projects,
          (if old.id = current.id then candidate else old).id = old.id := by
        intro old _
        by_cases heq : old.id = current.id
        · rw [if_pos heq, hid, heq]
        · rw [if_neg heq]
      refine ⟨⟨?_, ?_, ?_⟩, ?_⟩
      · rw [List.map_map]
        have hmap : s.projects.map ((·.id) ∘ fun project =>
            if project.id = current.id then candidate else project) = s.projects.map (·.id) :=
          map_congr_left hids
        rw [hmap]
        exact h.validated.ids
      · intro project hproject
        rcases hafter project hproject with rfl | ⟨hproject, -⟩
        · exact hnames
        · exact h.validated.names project hproject
      · intro project hproject
        rw [validate_eq_ok]
        intro other hother hne key hkey hshared
        rcases hafter project hproject with rfl | ⟨hpmem, hpid⟩
        · rcases hafter other hother with rfl | ⟨homem, hoid⟩
          · exact hne rfl
          · exact hapart other homem (hid ▸ hoid) key hkey hshared
        · rcases hafter other hother with rfl | ⟨homem, -⟩
          · exact hapart project hpmem (hid ▸ hpid) key hshared hkey
          · exact validate_eq_ok.mp (h.validated.apart project hpmem) other homem hne key hkey
              hshared
      · intro entry hentry project hproject heq
        have hold : ∀ old ∈ s.projects, old.id = entry.1 → entry.2 ∈ namespaceKeys old := by
          intro old hold hoid
          rcases mem_cons.mp hentry with rfl | hentry
          · -- The name that was replaced.
            rw [inj_on_of_nodup_map h.validated.ids hold hcurrent hoid]
            exact mem_cons_self
          · exact h.former entry hentry old hold hoid
        rcases hafter project hproject with rfl | ⟨hproject, -⟩
        · exact hkeys entry.2 (hold current hcurrent (hid ▸ heq))
        · exact hold project hproject heq
    · exact h

theorem ProjectNames.ok_finalState (hvalidated : Validated projects) (renames : List Rename) :
    (finalState ProjectNames.rename { projects, formerNames := [] } renames).Ok := by
  have hinit : ProjectNames.Ok { projects, formerNames := [] } :=
    ⟨hvalidated, fun entry hentry => absurd hentry not_mem_nil⟩
  have hstep : ∀ (rename : Rename) (s : ProjectNames), s.Ok → True → (s.rename rename).Ok :=
    fun rename s h _ => h.rename rename
  exact invariant_finalState hstep hinit (runMeets_true _ _)

/-! ## Lookup -/

theorem eq_singleton_of_forall {α : Type} {xs : List α} (hnodup : xs.Nodup) {x : α} (hmem : x ∈ xs)
    (hall : ∀ y ∈ xs, y = x) : xs = [x] := by
  cases xs with
  | nil => cases hmem
  | cons y ys =>
    cases hall y mem_cons_self
    cases ys with
    | nil => rfl
    | cons z zs =>
      cases hall z (mem_cons_of_mem _ mem_cons_self)
      exact absurd mem_cons_self (nodup_cons.mp hnodup).1

theorem perm_of_snapshotTasks (h : snapshotTasks db = .ok tasks) :
    tasks.Perm (db.tasks.rows.map LaborerTask.toTask) := by
  unfold snapshotTasks TaskDatabase.snapshotUnsafe at h
  dsimp only at h
  split at h
  · next hsnapshot =>
    split at hsnapshot
    · cases hsnapshot
    · next hlength =>
      cases hsnapshot
      cases h
      rw [length_take] at hlength
      rw [take_of_length_le (by omega)]
      exact (perm_insertionSort _ _).map _
  · next hsnapshot =>
    split at hsnapshot
    · cases hsnapshot
    · cases hsnapshot
  · cases h

theorem exists_snapshotTasks (hlength : db.tasks.rows.length ≤ maxSnapshotTasks) :
    ∃ tasks, snapshotTasks db = .ok tasks := by
  unfold snapshotTasks TaskDatabase.snapshotUnsafe
  dsimp only
  rw [if_neg]
  · exact ⟨_, rfl⟩
  · rw [length_take, length_insertionSort]
    omega

theorem nodup_of_snapshotTasks (h : snapshotTasks db = .ok tasks) : tasks.Nodup := by
  rw [(perm_of_snapshotTasks h).nodup_iff]
  have hids := db.tasks.keysNodup
  have hmap : db.tasks.rows.map (·.id) = (db.tasks.rows.map LaborerTask.toTask).map (·.id) := by
    rw [List.map_map]
    rfl
  exact List.Nodup.of_map _ (hmap ▸ hids)

theorem Validated.matching (h : Validated projects) (hproject : project ∈ projects)
    (hkey : key ∈ namespaceKeys project) :
    projects.filter (fun other => decide (key ∈ namespaceKeys other)) = [project] := by
  apply eq_singleton_of_forall ((List.Nodup.of_map _ h.ids).filter _)
  · exact mem_filter.mpr ⟨hproject, decide_eq_true hkey⟩
  · intro other hother
    obtain ⟨hmem, hkey'⟩ := mem_filter.mp hother
    exact h.unique hproject hmem hkey (of_decide_eq_true hkey')

theorem findTaskByReference_number (h : Validated projects) (hproject : project ∈ projects) {n : ℕ}
    (hkey : key ∈ namespaceKeys project) (hpos : 0 < n)
    (hsafe : n ≤ maxSafeNumber) (hid : TaskDatabase.find db (formatTaskIdentifier key n) = none) :
    findTaskByReference special db (formatTaskIdentifier key n) projects =
      (numberedTasks projects (some project) (some n) db).bind fun tasks =>
        if 1 < tasks.length then
          .error (ambiguousIdentifier ("Task identifier " ++ formatTaskIdentifier key n ++
            " matches more than one task"))
        else
          match tasks.head? with
          | none => .error (.identifier
              { code := "NOT_FOUND", message := "Task not found: " ++ formatTaskIdentifier key n })
          | some task => .ok task := by
  have hparse : parseTaskIdentifier special (formatTaskIdentifier key n) = some ⟨key, n⟩ :=
    parseTaskIdentifier_formatTaskIdentifier (h.names project hproject key hkey) hpos hsafe
  unfold findTaskByReference
  rw [hid]
  rw [hparse]
  have hmatching := h.matching hproject hkey
  simp only [any_some, map_some, hmatching]
  rfl

/-! ## What a reference finds -/

section

variable (special : Char → List Char) (db : LaborerDatabase)
  (projects : List ProjectTaskIdentifierNamespace)

/-- A text identifies a task: it is its id, or the identifier of a key of its project and
its number, up to blanks around it and its case. -/
def Identifies (reference : String) (task : Task) : Prop :=
  reference = task.id ∨ ∃ project ∈ projects, belongsTo projects project task.rootPath = true ∧
    ∃ key ∈ namespaceKeys project,
      toUpperCase special (jsTrim reference) = formatTaskIdentifier key task.taskNumber

def HasNamesake (project : ProjectTaskIdentifierNamespace) (row : LaborerTask) : Prop :=
  ∃ other ∈ db.tasks.rows, other ≠ row ∧ belongsTo projects project other.rootPath = true ∧
    other.taskNumber = row.taskNumber

/-- What the identifier of a task finds: the task where nothing else goes by it, an error
where another task of the project has the number, and never another task, but for one that
has the text as its id. -/
structure FindsTask (project : ProjectTaskIdentifierNamespace) (row : LaborerTask) (key : String) :
    Prop where
  found : (∀ other ∈ db.tasks.rows, other ≠ row →
      other.id ≠ formatTaskIdentifier key row.taskNumber) →
    db.tasks.rows.length ≤ maxSnapshotTasks → ¬ HasNamesake db projects project row →
      findTaskByReference special db (formatTaskIdentifier key row.taskNumber) projects =
        .ok row.toTask
  refused : (∀ other ∈ db.tasks.rows, other.id ≠ formatTaskIdentifier key row.taskNumber) →
    db.tasks.rows.length ≤ maxSnapshotTasks → HasNamesake db projects project row →
      findTaskByReference special db (formatTaskIdentifier key row.taskNumber) projects =
        .error (ambiguousIdentifier ("Task identifier " ++
          formatTaskIdentifier key row.taskNumber ++ " matches more than one task"))
  only : ∀ task,
    findTaskByReference special db (formatTaskIdentifier key row.taskNumber) projects = .ok task →
      task = row.toTask ∨ task.id = formatTaskIdentifier key row.taskNumber

end

theorem mem_of_nearestTaskProject {path : String}
    (h : nearestTaskProject path projects = some project) : project ∈ projects := by
  unfold nearestTaskProject at h
  have hmem := mem_of_mem_head? h
  rw [mem_insertionSort] at hmem
  exact mem_of_mem_filter hmem

theorem find_eq_none (h : ∀ other ∈ db.tasks.rows, other.id ≠ reference) :
    TaskDatabase.find db reference = none := by
  unfold TaskDatabase.find
  rw [find_eq_none_iff.mpr h]
  rfl

theorem findTaskByReference_direct {task : Task} (h : TaskDatabase.find db reference = some task) :
    findTaskByReference special db reference projects = .ok task := by
  unfold findTaskByReference
  rw [h]
  rfl

theorem of_numberedTasks {n : ℕ}
    (h : numberedTasks projects (some project) (some n) db = .ok tasks) :
    tasks.Nodup ∧ ∀ task, task ∈ tasks ↔ ∃ row ∈ db.tasks.rows, row.toTask = task ∧
      belongsTo projects project row.rootPath = true ∧ row.taskNumber = n := by
  unfold numberedTasks at h
  obtain ⟨all, hall, hfilter⟩ := bind_eq_ok.mp h
  cases hfilter
  refine ⟨(nodup_of_snapshotTasks hall).filter _, fun task => ?_⟩
  rw [List.mem_filter, (perm_of_snapshotTasks hall).mem_iff, List.mem_map]
  simp only [Bool.and_eq_true, decide_eq_true_eq, Option.some.injEq]
  constructor
  · rintro ⟨⟨row, hrow, rfl⟩, hbelongs, hnumber⟩
    exact ⟨row, hrow, rfl, hbelongs, hnumber⟩
  · rintro ⟨row, hrow, rfl, hbelongs, hnumber⟩
    exact ⟨⟨row, hrow, rfl⟩, hbelongs, hnumber⟩

theorem exists_numberedTasks (projects : List ProjectTaskIdentifierNamespace)
    (project : ProjectTaskIdentifierNamespace) (n : ℕ)
    (hlength : db.tasks.rows.length ≤ maxSnapshotTasks) :
    ∃ tasks, numberedTasks projects (some project) (some n) db = .ok tasks := by
  obtain ⟨all, hall⟩ := exists_snapshotTasks hlength
  exact ⟨_, except_bind_of_ok hall⟩

/-- The identifier of a task whose project has the key. -/
theorem findsTask (h : Validated projects) {row : LaborerTask} (hrow : row ∈ db.tasks.rows)
    (hnearest : nearestTaskProject row.rootPath projects = some project)
    (hkey : key ∈ namespaceKeys project) (hpos : 0 < row.taskNumber)
    (hsafe : row.taskNumber ≤ maxSafeNumber) : FindsTask special db projects project row key := by
  have hproject := mem_of_nearestTaskProject hnearest
  have hself : belongsTo projects project row.rootPath = true := by
    unfold belongsTo
    rw [hnearest]
    exact decide_eq_true rfl
  have hsame : ∀ other ∈ db.tasks.rows, other.toTask = row.toTask → other = row := by
    intro other hother heq
    exact inj_on_of_nodup_map db.tasks.keysNodup hother hrow (congrArg Task.id heq)
  -- A single task that counts is the task itself.
  have hsingle : ∀ tasks, numberedTasks projects (some project) (some row.taskNumber) db =
    .ok tasks →
      ¬ 1 < tasks.length → tasks = [row.toTask] := by
    intro tasks htasks hlength
    have hmem := ((of_numberedTasks htasks).2 row.toTask).mpr ⟨row, hrow, rfl, hself, rfl⟩
    cases tasks with
    | nil => cases hmem
    | cons task rest =>
      cases rest with
      | nil => rw [mem_singleton.mp hmem]
      | cons _ _ => exact absurd (by simp) hlength
  constructor
  case found =>
    intro hids hlength hfree
    cases hdirect : TaskDatabase.find db (formatTaskIdentifier key row.taskNumber) with
    | some direct =>
      obtain ⟨found, hfound, rfl⟩ := map_eq_some_iff.mp hdirect
      have hid : found.id = formatTaskIdentifier key row.taskNumber := key_of_find hfound
      have heq : found = row := by
        by_contra hne
        exact hids found (mem_of_find hfound) hne hid
      rw [findTaskByReference_direct hdirect, heq]
    | none =>
      obtain ⟨tasks, htasks⟩ := exists_numberedTasks projects project row.taskNumber hlength
      have hone : tasks = [row.toTask] := by
        apply eq_singleton_of_forall (of_numberedTasks htasks).1
        · exact ((of_numberedTasks htasks).2 _).mpr ⟨row, hrow, rfl, hself, rfl⟩
        · intro task htask
          obtain ⟨other, hother, rfl, hbelongs, heq⟩ := ((of_numberedTasks htasks).2 task).mp htask
          by_contra hne
          exact hfree ⟨other, hother, fun hrows => hne (congrArg _ hrows), hbelongs, heq⟩
      rw [findTaskByReference_number h hproject hkey hpos hsafe hdirect, htasks, hone]
      rfl
  case refused =>
    rintro hids hlength ⟨other, hother, hne, hbelongs, heq⟩
    obtain ⟨tasks, htasks⟩ := exists_numberedTasks projects project row.taskNumber hlength
    have hmany : 1 < tasks.length := by
      by_contra hfew
      have hmem := ((of_numberedTasks htasks).2 other.toTask).mpr
        ⟨other, hother, rfl, hbelongs, heq⟩
      rw [hsingle tasks htasks hfew, mem_singleton] at hmem
      exact hne (hsame other hother hmem)
    rw [findTaskByReference_number h hproject hkey hpos hsafe (find_eq_none hids), htasks]
    exact if_pos hmany
  case only =>
    intro task htask
    cases hdirect : TaskDatabase.find db (formatTaskIdentifier key row.taskNumber) with
    | some direct =>
      rw [findTaskByReference_direct hdirect] at htask
      cases htask
      obtain ⟨found, hfound, rfl⟩ := map_eq_some_iff.mp hdirect
      have hid : found.id = formatTaskIdentifier key row.taskNumber := key_of_find hfound
      exact .inr hid
    | none =>
      rw [findTaskByReference_number h hproject hkey hpos hsafe hdirect] at htask
      obtain ⟨tasks, htasks, hresult⟩ := bind_eq_ok.mp htask
      split at hresult
      · cases hresult
      · next hlength =>
        rw [hsingle tasks htasks hlength] at hresult
        cases hresult
        exact .inl rfl

theorem identifies_of_findTaskByReference {task : Task}
    (hfound : findTaskByReference special db reference projects = .ok task) :
    Identifies special projects reference task := by
  cases hdirect : TaskDatabase.find db reference with
  | some direct =>
    rw [findTaskByReference_direct hdirect] at hfound
    cases hfound
    obtain ⟨found, hrow, rfl⟩ := map_eq_some_iff.mp hdirect
    have hid : found.id = reference := key_of_find hrow
    exact .inl hid.symm
  | none =>
    unfold findTaskByReference at hfound
    rw [hdirect] at hfound
    dsimp only at hfound
    split at hfound
    · cases hfound
    · obtain ⟨tasks, htasks, hresult⟩ := bind_eq_ok.mp hfound
      split at hresult
      · cases hresult
      · cases htask : tasks.head? with
        | none =>
          rw [htask] at hresult
          cases hresult
        | some found =>
          rw [htask] at hresult
          cases hresult
          have hmem := mem_of_mem_head? htask
          cases hmatching : (projects.filter fun project =>
              (parseTaskIdentifier special reference).any
                (·.projectShortName ∈ namespaceKeys project)).head? with
          | none =>
            rw [hmatching] at htasks
            cases htasks
            cases hmem
          | some project =>
            rw [hmatching] at htasks
            obtain ⟨hproject, hkey⟩ := mem_filter.mp (mem_of_mem_head? hmatching)
            obtain ⟨parsed, hparsed, hkey⟩ := (any_eq_true _ _).mp hkey
            rw [hparsed] at htasks
            obtain ⟨row, -, rfl, hbelongs, hnumber⟩ := ((of_numberedTasks htasks).2 task).mp hmem
            refine .inr ⟨project, hproject, hbelongs, _, of_decide_eq_true hkey, ?_⟩
            have htaskNumber : row.toTask.taskNumber = parsed.taskNumber := hnumber
            rw [(format_of_parseTaskIdentifier hparsed).2.2, htaskNumber]

/-- **Identifiers find their tasks.** After any history of renames of validated projects,
the identifier of a task, by a key that its project has or had, finds the task up to
namesakes and ids, and whatever a text finds it identifies. -/
theorem findsTask_after_renames (special : Char → List Char)
    (projects : List ProjectTaskIdentifierNamespace) (hvalidated : Validated projects)
    (renames : List Rename) (db : LaborerDatabase) :
    let s := finalState ProjectNames.rename { projects, formerNames := [] } renames
    (∀ row ∈ db.tasks.rows, ∀ project, nearestTaskProject row.rootPath s.projects = some project →
      ∀ key, (key ∈ namespaceKeys project ∨ (project.id, key) ∈ s.formerNames) →
        0 < row.taskNumber → row.taskNumber ≤ maxSafeNumber →
          FindsTask special db s.projects project row key) ∧
      ∀ reference task, findTaskByReference special db reference s.projects = .ok task →
        Identifies special s.projects reference task := by
  intro s
  have hok : s.Ok := ProjectNames.ok_finalState hvalidated renames
  refine ⟨?_, fun reference task hfound => identifies_of_findTaskByReference hfound⟩
  intro row hrow project hnearest key hkey hpos hsafe
  apply findsTask hok.validated hrow hnearest _ hpos hsafe
  rcases hkey with hkey | hformer
  · exact hkey
  · exact hok.former _ hformer project (mem_of_nearestTaskProject hnearest) rfl

def agents : ProjectTaskIdentifierNamespace where
  aliases := []
  id := "project"
  name := "Agents"
  repoPath := "/agents"
  shortName := "AGT"

theorem agents_validated : Validated [agents] := by
  constructor
  · exact nodup_singleton _
  · decide
  · decide

def firstTask (id rootPath : String) : LaborerTask :=
  { TaskDatabase.newTaskRow
      { id, rootPath, source := .manual, status := .todo, title := id } 0 0 with
    taskNumber := 1 }

def oneRoot : LaborerDatabase :=
  { LaborerDatabase.migrated 0 with
    tasks := { rows := [firstTask "root-task" "/agents"], keysNodup := List.nodup_singleton _ } }

/-- It is found by the name that the project had. -/
theorem findsTask_formerName : FindsTask (fun c => [c]) oneRoot
      (finalState ProjectNames.rename { projects := [agents], formerNames := [] }
        [.updateConfig "project" "BOT"]).projects
      { agents with aliases := ["AGT"], shortName := "BOT" } (firstTask "root-task" "/agents")
      "AGT" :=
  (findsTask_after_renames (fun c => [c]) [agents] agents_validated [.updateConfig "project" "BOT"]
    oneRoot).1 (firstTask "root-task" "/agents") (mem_singleton_self _)
    { agents with aliases := ["AGT"], shortName := "BOT" } (by decide) "AGT" (.inl (by decide))
    (by decide) (by decide)

def nestedRoots : LaborerDatabase :=
  { LaborerDatabase.migrated 0 with
    tasks :=
      { rows := [firstTask "root-task" "/agents", firstTask "nested-task" "/agents/nested"]
        keysNodup := by decide } }

/-- They have the same identifier, which finds neither. -/
theorem findTaskByReference_nestedRoots : nearestTaskProject "/agents" [agents] = some agents ∧
      nearestTaskProject "/agents/nested" [agents] = some agents ∧
      findTaskByReference (fun c => [c]) nestedRoots (formatTaskIdentifier "AGT" 1) [agents] =
        .error (ambiguousIdentifier "Task identifier AGT-1 matches more than one task") := by
  refine ⟨by decide, by decide, ?_⟩
  decide

end Laborer.Projects
