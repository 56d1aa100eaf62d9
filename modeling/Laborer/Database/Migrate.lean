import Laborer.Library.Transactions
import Mathlib.Data.Int.Notation
import Mathlib.Data.List.Nodup

/-!
# Migrations

The task database and the native server database open the same file, and each
brings it up to date with its own `migrate`: the ledger of applied migrations is
compared with the known ones, and what is missing is run and recorded, all in one
transaction. The SQL engine and the hash function are parameters.
-/

namespace Laborer.Database

open Laborer.Library List Function

/-! ## The ledger -/

structure TaskDbMigration where
  name : String
  sql : String

structure AppliedMigration where
  name : String
  hash : String
  createdAt : ℤ

/-- A database file: the ledger in the order of its ids, if its table is there,
and everything else. -/
structure MigrationStore (σ : Type) where
  ledger : Option (List AppliedMigration)
  contents : σ

inductive MigrateFailure where
  /-- A `TaskDatabaseSchemaTooNewError` or a `LaborerDatabaseSchemaTooNewError`. -/
  | schemaTooNew (message migration : String)
  /-- A plain `Error`. -/
  | error (message : String)
  /-- What SQLite threw. -/
  | sql (message : String)

def taskDbMigrationNames : List String :=
  ["0000_shared_task_db", "0001_execution_lifecycle_statuses",
    "0002_task_description_agent_source", "0003_worktree_task_source",
    "0004_task_worktree_pr_columns", "0005_projects", "0006_app_settings_and_ledger",
    "0007_projects_sort_order", "0008_complete_removed_worktrees", "0009_git_hosted_status",
    "0010_pr_check_runs", "0011_task_numbers", "0012_task_labels", "0013_correlated_operations",
    "0014_pr_unresolved_threads", "0015_pr_review_decision", "0016_review_comments",
    "0017_pr_author_login", "0018_project_appearance"]

/-- `taskDbMigrations`, with the SQL text of each file. -/
def taskDbMigrations (sqlOf : String → String) : List TaskDbMigration :=
  taskDbMigrationNames.map fun name => { name, sql := sqlOf name }

section Migrate

variable {σ : Type} (sha256 : String → String) (exec : String → σ → Except MigrateFailure σ)
  (now : ℕ → ℤ)

/-- The loop over the rows that are there, each against the known migration at
its place. -/
def checkApplied (check : ℕ → AppliedMigration → Except MigrateFailure Unit) :
    ℕ → List AppliedMigration → Except MigrateFailure Unit
  | _, [] => pure ()
  | index, row :: rest => do
    check index row
    checkApplied check (index + 1) rest

/-- The body of that loop in the task database. -/
def TaskDatabase.checkMigration (known : List TaskDbMigration) (index : ℕ)
    (row : AppliedMigration) : Except MigrateFailure Unit :=
  match known[index]? with
  | none =>
    throw (.schemaTooNew s!"Task database schema is newer than this binary: {row.name}" row.name)
  | some migration =>
    if ¬ known.any (·.name = row.name) then
      throw (.schemaTooNew s!"Task database schema is newer than this binary: {row.name}" row.name)
    else if migration.name ≠ row.name then
      throw (.error
        ("Task database migration ledger is out of order: " ++
          s!"expected {migration.name}, found {row.name}"))
    else if sha256 migration.sql ≠ row.hash then
      throw (.error s!"Task database migration hash mismatch: {row.name}")
    else pure ()

/-- The body of that loop in the native server database. -/
def NativeLaborerDatabase.checkMigration (known : List TaskDbMigration) (index : ℕ)
    (row : AppliedMigration) : Except MigrateFailure Unit :=
  match known[index]? with
  | none =>
    throw (.schemaTooNew s!"Laborer database schema is newer than this binary: {row.name}" row.name)
  | some migration =>
    if migration.name ≠ row.name then
      throw (.error
        ("Laborer database migration ledger is out of order: " ++
          s!"expected {migration.name}, found {row.name}"))
    else if sha256 migration.sql ≠ row.hash then
      throw (.error s!"Laborer database migration hash mismatch: {row.name}")
    else pure ()

/-- `INSERT INTO __drizzle_migrations`; names are unique. -/
def recordMigration (ledger : List AppliedMigration) (row : AppliedMigration) :
    Except MigrateFailure (List AppliedMigration) :=
  if ledger.any (·.name = row.name) then
    throw (.sql "UNIQUE constraint failed: __drizzle_migrations.name")
  else pure (ledger ++ [row])

/-- The row that a migration is recorded with; the index is that of the clock. -/
def TaskDbMigration.row (migration : TaskDbMigration) (index : ℕ) : AppliedMigration :=
  { name := migration.name, hash := sha256 migration.sql, createdAt := now index }

def TaskDbMigration.statements (migration : TaskDbMigration) : String :=
  migration.sql.replace "--> statement-breakpoint" ""

def applyMissing : ℕ → List TaskDbMigration → List AppliedMigration → σ →
    Except MigrateFailure (List AppliedMigration × σ)
  | _, [], ledger, contents => pure (ledger, contents)
  | index, migration :: rest, ledger, contents => do
    let contents ← exec migration.statements contents
    let ledger ← recordMigration ledger (migration.row sha256 now index)
    applyMissing (index + 1) rest ledger contents

/-- What `migrate` does between `BEGIN` and `COMMIT`, over the body of the first loop. -/
def migrateOperation
    (check : List TaskDbMigration → ℕ → AppliedMigration → Except MigrateFailure Unit)
    (sqlOf : String → String) (store : MigrationStore σ) :
    Except MigrateFailure (Unit × MigrationStore σ) := do
  -- `CREATE TABLE IF NOT EXISTS`
  let applied := store.ledger.getD []
  checkApplied (check (taskDbMigrations sqlOf)) 0 applied
  let (ledger, contents) ← applyMissing sha256 exec now 0
    ((taskDbMigrations sqlOf).drop applied.length) applied store.contents
  pure ((), { ledger := some ledger, contents })

/-- `migrate`, over the body of the first loop. -/
def migrateWith (check : List TaskDbMigration → ℕ → AppliedMigration → Except MigrateFailure Unit)
    (sqlOf : String → String) : MigrationStore σ → Except MigrateFailure Unit × MigrationStore σ :=
  transaction (migrateOperation sha256 exec now check sqlOf)

def TaskDatabase.migrate (sqlOf : String → String) :
    MigrationStore σ → Except MigrateFailure Unit × MigrationStore σ :=
  migrateWith sha256 exec now (TaskDatabase.checkMigration sha256) sqlOf

def NativeLaborerDatabase.migrate (sqlOf : String → String) :
    MigrationStore σ → Except MigrateFailure Unit × MigrationStore σ :=
  migrateWith sha256 exec now (NativeLaborerDatabase.checkMigration sha256) sqlOf

end Migrate

/-! ## What a ledger should be -/

section Expected

variable {σ : Type} (sha256 : String → String) (exec : String → σ → Except MigrateFailure σ)

def MigrationStore.applied (store : MigrationStore σ) : List AppliedMigration :=
  store.ledger.getD []

def AppliedMigration.entry (row : AppliedMigration) : String × String :=
  (row.name, row.hash)

/-- The name and the hash that a known migration is recorded with. -/
def TaskDbMigration.entry (migration : TaskDbMigration) : String × String :=
  (migration.name, sha256 migration.sql)

def runMigrations (migrations : List TaskDbMigration) (contents : σ) : Except MigrateFailure σ :=
  migrations.foldlM (fun contents migration => exec migration.statements contents) contents

/-- The ledger was a prefix of the known migrations; now it has every one, once
and in order, and the missing ones were run. -/
structure BroughtUpToDate (sqlOf : String → String) (before after : MigrationStore σ) : Prop where
  wasPrefix : before.applied.map AppliedMigration.entry <+:
    (taskDbMigrations sqlOf).map (TaskDbMigration.entry sha256)
  kept : before.applied <+: after.applied
  complete : after.applied.map AppliedMigration.entry =
    (taskDbMigrations sqlOf).map (TaskDbMigration.entry sha256)
  ran : runMigrations exec ((taskDbMigrations sqlOf).drop before.applied.length) before.contents =
    .ok after.contents

end Expected

/-! ## The first loop -/

section Check

variable {sha256 : String → String} {known : List TaskDbMigration}

/-- A row is the known migration at its place. -/
def Matches (sha256 : String → String) (known : List TaskDbMigration) (index : ℕ)
    (row : AppliedMigration) : Prop :=
  ∃ migration, known[index]? = some migration ∧ row.entry = migration.entry sha256

theorem NativeLaborerDatabase.checkMigration_eq_ok (index : ℕ) (row : AppliedMigration) :
    NativeLaborerDatabase.checkMigration sha256 known index row = .ok () ↔
      Matches sha256 known index row := by
  unfold NativeLaborerDatabase.checkMigration Matches
  cases known[index]? with
  | none => simp [throw, throwThe, MonadExceptOf.throw]
  | some migration =>
    simp only [Option.some.injEq, exists_eq_left', AppliedMigration.entry, TaskDbMigration.entry,
      Prod.mk.injEq]
    split
    · next hname => simp [throw, throwThe, MonadExceptOf.throw, Ne.symm hname]
    · next hname =>
      rw [not_not] at hname
      split
      · next hhash => simp [throw, throwThe, MonadExceptOf.throw, Ne.symm hhash]
      · next hhash =>
        rw [not_not] at hhash
        simp [pure, Except.pure, hname, hhash]

/-- The extra test of the task database never decides: a row with the name of the
migration at its place has a known name. -/
theorem TaskDatabase.checkMigration_eq_ok (index : ℕ) (row : AppliedMigration) :
    TaskDatabase.checkMigration sha256 known index row = .ok () ↔
      Matches sha256 known index row := by
  rw [← NativeLaborerDatabase.checkMigration_eq_ok]
  unfold TaskDatabase.checkMigration NativeLaborerDatabase.checkMigration
  cases hmigration : known[index]? with
  | none => simp [throw, throwThe, MonadExceptOf.throw]
  | some migration =>
    by_cases hname : migration.name = row.name
    · have hknown : known.any (·.name = row.name) = true :=
        any_eq_true.mpr ⟨migration, mem_of_getElem? hmigration, decide_eq_true hname⟩
      by_cases hhash : sha256 migration.sql = row.hash
      · simp [hknown, hname, hhash]
      · simp [hknown, hname, hhash, throw, throwThe, MonadExceptOf.throw]
    · by_cases hknown : known.any (·.name = row.name) = true
      · simp [hknown, hname, throw, throwThe, MonadExceptOf.throw]
      · simp [hknown, hname, throw, throwThe, MonadExceptOf.throw]

theorem checkApplied_eq_ok {check : ℕ → AppliedMigration → Except MigrateFailure Unit}
    (hcheck : ∀ index row, check index row = .ok () ↔ Matches sha256 known index row)
    (applied : List AppliedMigration) (index : ℕ) : checkApplied check index applied = .ok () ↔
      applied.map AppliedMigration.entry <+:
        (known.drop index).map (TaskDbMigration.entry sha256) := by
  induction applied generalizing index with
  | nil => simp [checkApplied, pure, Except.pure]
  | cons row rest ih =>
    unfold checkApplied
    rw [bind_eq_ok]
    simp only [exists_const, hcheck, ih, map_cons]
    unfold Matches
    cases hmigration : known[index]? with
    | none =>
      rw [List.getElem?_eq_none_iff] at hmigration
      simp [drop_eq_nil_of_le hmigration]
    | some migration =>
      obtain ⟨hlt, rfl⟩ := List.getElem?_eq_some_iff.mp hmigration
      rw [drop_eq_getElem_cons hlt, map_cons, cons_prefix_cons]
      simp

end Check

/-! ## The second loop -/

section Apply

variable {σ : Type} (sha256 : String → String) {exec : String → σ → Except MigrateFailure σ}
  (now : ℕ → ℤ) {ledger : List AppliedMigration}

def Unrecorded (ledger : List AppliedMigration) (migrations : List TaskDbMigration) : Prop :=
  (ledger.map AppliedMigration.name ++ migrations.map TaskDbMigration.name).Nodup

theorem recordMigration_unrecorded {migration : TaskDbMigration}
    {rest : List TaskDbMigration} (h : Unrecorded ledger (migration :: rest)) (index : ℕ) :
    recordMigration ledger (migration.row sha256 now index) =
      .ok (ledger ++ [migration.row sha256 now index]) := by
  unfold recordMigration
  have hfresh : ¬ ledger.any (·.name = migration.name) = true := by
    intro hany
    obtain ⟨row, hrow, hname⟩ := any_eq_true.mp hany
    apply disjoint_of_nodup_append h (mem_map_of_mem hrow)
    rw [of_decide_eq_true hname]
    exact mem_cons_self
  exact if_neg hfresh

theorem Unrecorded.cons {migration : TaskDbMigration}
    {rest : List TaskDbMigration} (h : Unrecorded ledger (migration :: rest)) (index : ℕ) :
    Unrecorded (ledger ++ [migration.row sha256 now index]) rest := by
  unfold Unrecorded at h ⊢
  simpa [TaskDbMigration.row] using h

/-- The loop does what running the migrations does, and records each of them: the
names are new, so that the `UNIQUE` constraint never stops it. -/
theorem applyMissing_eq {migrations : List TaskDbMigration}
    (h : Unrecorded ledger migrations) (index : ℕ) (contents : σ) :
    applyMissing sha256 exec now index migrations ledger contents =
      (runMigrations exec migrations contents).map fun contents =>
        (ledger ++ migrations.mapIdx fun i migration => migration.row sha256 now (index + i),
          contents) := by
  induction migrations generalizing index ledger contents with
  | nil => simp [applyMissing, runMigrations, pure, Except.pure, Except.map]
  | cons migration rest ih =>
    unfold applyMissing runMigrations
    rw [foldlM_cons]
    cases hexec : exec migration.statements contents with
    | error e => rfl
    | ok contents' =>
      have hrecord := recordMigration_unrecorded sha256 now h index
      have hrest := ih (h.cons sha256 now index) (index + 1) contents'
      simp only [bind, Except.bind, hrecord, hrest]
      simp [runMigrations, Nat.add_assoc, Nat.add_comm 1]

end Apply

/-! ## Both databases -/

section Migrated

variable {σ : Type} {sha256 : String → String} {exec : String → σ → Except MigrateFailure σ}
  {now : ℕ → ℤ} {sqlOf : String → String}
  {check : List TaskDbMigration → ℕ → AppliedMigration → Except MigrateFailure Unit}

theorem taskDbMigrationNames_nodup : taskDbMigrationNames.Nodup := by decide

theorem taskDbMigrations_names (sqlOf : String → String) :
    (taskDbMigrations sqlOf).map TaskDbMigration.name = taskDbMigrationNames := by
  simp [taskDbMigrations, comp_def]

theorem names_of_entries {applied : List AppliedMigration} {known : List TaskDbMigration}
    (h : applied.map AppliedMigration.entry = known.map (TaskDbMigration.entry sha256)) :
    applied.map AppliedMigration.name = known.map TaskDbMigration.name := by
  have hfst := congrArg (List.map Prod.fst) h
  simpa [comp_def, AppliedMigration.entry, TaskDbMigration.entry] using hfst

theorem unrecorded_drop {applied : List AppliedMigration}
    (h : applied.map AppliedMigration.entry <+:
      (taskDbMigrations sqlOf).map (TaskDbMigration.entry sha256)) :
    Unrecorded applied ((taskDbMigrations sqlOf).drop applied.length) := by
  have htake := prefix_iff_eq_take.mp h
  rw [length_map, ← map_take] at htake
  unfold Unrecorded
  rw [names_of_entries htake, ← map_append, take_append_drop, taskDbMigrations_names]
  exact taskDbMigrationNames_nodup

section

variable (hcheck : ∀ index row, check (taskDbMigrations sqlOf) index row = .ok () ↔
    Matches sha256 (taskDbMigrations sqlOf) index row)
include hcheck

/-- `migrate` accepts the ledgers that are a prefix of the known migrations when
the SQL of the others runs, and no others; what it leaves is determined. -/
theorem migrateWith_eq_ok
    (store after : MigrationStore σ) :
    migrateWith sha256 exec now check sqlOf store = (.ok (), after) ↔
      store.applied.map AppliedMigration.entry <+:
          (taskDbMigrations sqlOf).map (TaskDbMigration.entry sha256) ∧
        ∃ contents, runMigrations exec ((taskDbMigrations sqlOf).drop store.applied.length)
            store.contents = .ok contents ∧
          after = { ledger := some (store.applied ++
                      ((taskDbMigrations sqlOf).drop store.applied.length).mapIdx
                        fun i migration => migration.row sha256 now i),
                    contents } := by
  unfold migrateWith
  rw [transaction_eq_ok]
  unfold migrateOperation
  rw [bind_eq_ok]
  have haccepted := checkApplied_eq_ok hcheck store.applied 0
  constructor
  · rintro ⟨_, happlied, hrest⟩
    have hpre := haccepted.mp happlied
    refine ⟨hpre, ?_⟩
    obtain ⟨⟨ledger, contents⟩, hmissing, hafter⟩ := bind_eq_ok.mp hrest
    change applyMissing sha256 exec now 0
      ((taskDbMigrations sqlOf).drop store.applied.length) store.applied store.contents = _
      at hmissing
    rw [applyMissing_eq sha256 now (unrecorded_drop hpre)] at hmissing
    cases hrun : runMigrations exec ((taskDbMigrations sqlOf).drop store.applied.length)
        store.contents with
    | error e =>
      rw [hrun] at hmissing
      cases hmissing
    | ok contents' =>
      rw [hrun] at hmissing
      simp only [Except.map, Except.ok.injEq, Prod.mk.injEq, Nat.zero_add] at hmissing
      obtain ⟨rfl, rfl⟩ := hmissing
      cases hafter
      exact ⟨contents', rfl, rfl⟩
  · rintro ⟨hpre, contents, hrun, rfl⟩
    refine ⟨(), haccepted.mpr hpre, ?_⟩
    have hmissing : applyMissing sha256 exec now 0 _ store.applied store.contents = _ :=
      applyMissing_eq sha256 now (unrecorded_drop hpre) 0 store.contents
    rw [hrun] at hmissing
    refine bind_eq_ok.mpr ⟨_, hmissing, ?_⟩
    simp [pure, Except.pure]

theorem migrateWith_broughtUpToDate {store after : MigrationStore σ}
    (h : migrateWith sha256 exec now check sqlOf store = (.ok (), after)) :
    BroughtUpToDate sha256 exec sqlOf store after := by
  obtain ⟨haccepted, contents, hrun, rfl⟩ := (migrateWith_eq_ok hcheck store after).mp h
  refine ⟨haccepted, prefix_append _ _, ?_, hrun⟩
  -- the rows that were there are the first entries, the recorded ones are the others
  have htake := prefix_iff_eq_take.mp haccepted
  rw [length_map] at htake
  have hdrop : (((taskDbMigrations sqlOf).drop store.applied.length).mapIdx
      fun i migration => migration.row sha256 now i).map AppliedMigration.entry =
      ((taskDbMigrations sqlOf).map (TaskDbMigration.entry sha256)).drop store.applied.length := by
    apply ext_getElem
    · simp
    · intro i _ _
      simp [TaskDbMigration.row, AppliedMigration.entry, TaskDbMigration.entry]
  change (store.applied ++ _).map AppliedMigration.entry = _
  rw [map_append, hdrop]
  nth_rewrite 1 [htake]
  exact take_append_drop _ _

theorem migrateWith_cases (store : MigrationStore σ) :
    (∃ failure, migrateWith sha256 exec now check sqlOf store = (.error failure, store)) ∨
      ∃ after, migrateWith sha256 exec now check sqlOf store = (.ok (), after) ∧
        BroughtUpToDate sha256 exec sqlOf store after := by
  rcases transaction_cases (migrateOperation sha256 exec now check sqlOf) store with
    ⟨⟨⟩, after, hresult, -⟩ | ⟨failure, hresult, -⟩
  · exact .inr ⟨after, hresult, migrateWith_broughtUpToDate hcheck hresult⟩
  · exact .inl ⟨failure, hresult⟩

end

end Migrated

/-- **Migrations are all or nothing, and the two databases agree.** On every
ledger each `migrate` throws and changes nothing, or the ledger was a prefix of the
known migrations and now has each of them once, in order; one throws when the other
does, and they leave the same store. -/
theorem migrate_outcomes {σ : Type} (sha256 : String → String)
    (exec : String → σ → Except MigrateFailure σ) (now : ℕ → ℤ) (sqlOf : String → String)
    (store : MigrationStore σ) : (∀ migrate ∈ [TaskDatabase.migrate sha256 exec now sqlOf,
        NativeLaborerDatabase.migrate sha256 exec now sqlOf],
      (∃ failure, migrate store = (.error failure, store)) ∨
        ∃ after, migrate store = (.ok (), after) ∧ BroughtUpToDate sha256 exec sqlOf store after ∧
          (after.applied.map AppliedMigration.name).Nodup) ∧
    (TaskDatabase.migrate sha256 exec now sqlOf store).1.toOption =
      (NativeLaborerDatabase.migrate sha256 exec now sqlOf store).1.toOption ∧
    (TaskDatabase.migrate sha256 exec now sqlOf store).2 =
      (NativeLaborerDatabase.migrate sha256 exec now sqlOf store).2 := by
  constructor
  · intro migrate hmigrate
    have hcases : (∃ failure, migrate store = (.error failure, store)) ∨
        ∃ after, migrate store = (.ok (), after) ∧
          BroughtUpToDate sha256 exec sqlOf store after := by
      rcases mem_pair.mp hmigrate with rfl | rfl
      · exact migrateWith_cases TaskDatabase.checkMigration_eq_ok store
      · exact migrateWith_cases NativeLaborerDatabase.checkMigration_eq_ok store
    apply hcases.imp_right
    rintro ⟨after, hafter, hupToDate⟩
    refine ⟨after, hafter, hupToDate, ?_⟩
    rw [names_of_entries hupToDate.complete, taskDbMigrations_names]
    exact taskDbMigrationNames_nodup
  · -- both accept exactly what `migrateWith_eq_ok` says, which names neither
    apply transaction_congr
    rintro ⟨⟩ after
    exact (migrateWith_eq_ok TaskDatabase.checkMigration_eq_ok store after).trans
      (migrateWith_eq_ok NativeLaborerDatabase.checkMigration_eq_ok store after).symm

/-! ## Starting again -/

section Starts

variable {σ : Type} {sha256 sqlOf : String → String}

/-- A start of either program: the SQL engine and the clock as they are then. -/
structure MigrationStart (σ : Type) where
  native : Bool
  exec : String → σ → Except MigrateFailure σ
  now : ℕ → ℤ

namespace MigrationStart

def check (sha256 : String → String) (start : MigrationStart σ) :
    List TaskDbMigration → ℕ → AppliedMigration → Except MigrateFailure Unit :=
  if start.native then NativeLaborerDatabase.checkMigration sha256
  else TaskDatabase.checkMigration sha256

def migrate (sha256 sqlOf : String → String) (start : MigrationStart σ) :
    MigrationStore σ → Except MigrateFailure Unit × MigrationStore σ :=
  migrateWith sha256 start.exec start.now (start.check sha256) sqlOf

/-- The start throws, and the store is as it was. -/
def Fails (sha256 sqlOf : String → String) (store : MigrationStore σ)
    (start : MigrationStart σ) : Prop :=
  ∃ failure, start.migrate sha256 sqlOf store = (.error failure, store)

theorem check_eq_ok (start : MigrationStart σ) (index : ℕ) (row : AppliedMigration) :
    start.check sha256 (taskDbMigrations sqlOf) index row = .ok () ↔
      Matches sha256 (taskDbMigrations sqlOf) index row := by
  unfold check
  split
  · exact NativeLaborerDatabase.checkMigration_eq_ok index row
  · exact TaskDatabase.checkMigration_eq_ok index row

/-- What one start has migrated, any other leaves as it is. -/
theorem migrate_again {start : MigrationStart σ} {store after : MigrationStore σ}
    (h : start.migrate sha256 sqlOf store = (.ok (), after)) (later : MigrationStart σ) :
    later.migrate sha256 sqlOf after = (.ok (), after) := by
  have hcomplete := (migrateWith_broughtUpToDate start.check_eq_ok h).complete
  obtain ⟨-, contents, -, rfl⟩ := (migrateWith_eq_ok start.check_eq_ok store after).mp h
  have hnone := drop_eq_nil_of_le (Nat.le_of_eq (congrArg length hcomplete).symm)
  rw [length_map, ← map_drop, map_eq_nil_iff] at hnone
  apply (migrateWith_eq_ok later.check_eq_ok _ _).mpr
  rw [hnone]
  refine ⟨hcomplete ▸ prefix_rfl, contents, rfl, ?_⟩
  rw [mapIdx_nil, append_nil]
  rfl

end MigrationStart

/-- **Over any starts the migrations are run once.** All fail and leave the store as it is,
or those before one fail so, this one brings it up to date, and every later one succeeds
without a change. -/
theorem starts_migrate_once (store : MigrationStore σ) (starts : List (MigrationStart σ)) :
    let final := starts.foldl (fun store start => (start.migrate sha256 sqlOf store).2) store
    (final = store ∧ ∀ start ∈ starts, start.Fails sha256 sqlOf store) ∨
      ∃ before start later, starts = before ++ start :: later ∧
        (∀ failed ∈ before, failed.Fails sha256 sqlOf store) ∧
        start.migrate sha256 sqlOf store = (.ok (), final) ∧
        BroughtUpToDate sha256 start.exec sqlOf store final ∧
        ∀ again ∈ later, again.migrate sha256 sqlOf final = (.ok (), final) := by
  induction starts with
  | nil => exact .inl ⟨rfl, forall_mem_nil _⟩
  | cons start starts ih =>
    have hcases : start.Fails sha256 sqlOf store ∨
        ∃ after, start.migrate sha256 sqlOf store = (.ok (), after) ∧ _ :=
      migrateWith_cases start.check_eq_ok store
    rw [foldl_cons]
    obtain ⟨failure, hfailed⟩ | ⟨after, hafter, hupToDate⟩ := hcases
    · rw [hfailed]
      obtain ⟨hfinal, hall⟩ | ⟨before, first, later, rfl, hbefore, hfirst⟩ := ih
      · exact .inl ⟨hfinal, forall_mem_cons.mpr ⟨⟨failure, hfailed⟩, hall⟩⟩
      · exact .inr ⟨start :: before, first, later, rfl,
          forall_mem_cons.mpr ⟨⟨failure, hfailed⟩, hbefore⟩, hfirst⟩
    · have hlater := MigrationStart.migrate_again hafter
      have hfinal : starts.foldl (fun store start => (start.migrate sha256 sqlOf store).2) after =
          after := foldl_fixed' (fun later => by rw [hlater later]) starts
      rw [hafter, hfinal]
      exact .inr ⟨[], start, starts, rfl, forall_mem_nil _, hafter, hupToDate,
        fun again _ => hlater again⟩

end Starts

end Laborer.Database
