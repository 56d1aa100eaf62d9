import Laborer.Library.Acyclic
import Laborer.Library.OrderedMap
import Laborer.Library.Runs

/-!
# Context locks

A call takes a lock for each of its paths before its operation runs: it opens a database at
the path, which several processes may be making at the same time, and begins an immediate
transaction in it. The paths are made canonical, and taken in order.
-/

namespace Laborer.AcpRuntime.ContextLocks

open Library List

/-- How the links between directories lead: what is canonical leads to itself. -/
structure DirectoryLinks (Path : Type) where
  canonicalLockPath : Path → Path
  canonical_canonical : ∀ path,
    canonicalLockPath (canonicalLockPath path) = canonicalLockPath path

/-- A lock that is held: the path, the inode it was found to have, and the inode of the
database in which the transaction is. -/
structure HeldLock (Path : Type) where
  path : Path
  identity : ℕ
  database : ℕ

/-- How far a call has come; `rest` are the paths after the one that is being locked. -/
inductive LockPhase (Path : Type) where
  | canonicalizing
  | resolving (path : Path) (rest : List Path)
  | inspecting (path : Path) (rest : List Path)
  | linking (path : Path) (rest : List Path)
  | identifying (path : Path) (rest : List Path)
  | opening (path : Path) (rest : List Path) (identity : ℕ)
  | attempting (path : Path) (rest : List Path) (identity database : ℕ)
  | verifying (path : Path) (rest : List Path) (identity database : ℕ)
  | ready
  | operating
  | committing
  | releasing
  | ended
deriving DecidableEq

/-- One call, with the locks it holds in the order it took them. -/
structure LockCall (Path : Type) where
  lockPaths : List Path
  phase : LockPhase Path
  held : List (HeldLock Path)

/-- The calls of all processes, and the lock files that are there by path. An inode is given
to a file when it is linked: the temporary database is a file of its own. -/
structure LockSystem (Path : Type) where
  calls : List (LockCall Path)
  files : OrderedMap Path ℕ
  nextInode : ℕ

inductive LockStep (Path : Type) where
  | calls (lockPaths : List Path)
  | proceeds (call : ℕ)
  | fails (call : ℕ)
  | exits (call : ℕ)

section Definitions

variable {Path : Type} [LinearOrder Path] (links : DirectoryLinks Path)

/-- `[...new Set(canonicalPaths)].sort()`. -/
def orderedPaths (lockPaths : List Path) : List Path :=
  (distinct (lockPaths.map links.canonicalLockPath)).insertionSort (· ≤ ·)

/-- The database in which the transaction is that is not among the held locks yet. -/
def LockPhase.begun : LockPhase Path → List ℕ
  | .verifying _ _ _ database => [database]
  | _ => []

namespace LockCall

def transactions (call : LockCall Path) : List ℕ :=
  call.held.map HeldLock.database ++ call.phase.begun

/-- The call throws. Its last database is closed in `acquireLock`, and the `finally` is next. -/
def throws (call : LockCall Path) : LockCall Path := { call with phase := .releasing }

def next (rest : List Path) (call : LockCall Path) : LockCall Path :=
  match rest with
  | [] => { call with phase := .ready }
  | path :: rest => { call with phase := .resolving path rest }

def releaseLast (call : LockCall Path) : LockCall Path :=
  match call.held with
  | [] => { call with phase := .ended }
  | _ :: _ => { call with held := call.held.dropLast }

/-- A wait ends in a failure. There is no wait in the `finally`. -/
def fail (call : LockCall Path) : LockCall Path :=
  match call.phase with
  | .releasing => call
  | .ended => call
  | _ => call.throws

def exit (call : LockCall Path) : LockCall Path := { call with phase := .ended, held := [] }

end LockCall

namespace LockSystem

def initial : LockSystem Path where
  calls := []
  files := []
  nextInode := 0

def Busy (database : ℕ) (system : LockSystem Path) : Prop :=
  ∃ call ∈ system.calls, database ∈ call.transactions

instance (database : ℕ) (system : LockSystem Path) : Decidable (system.Busy database) :=
  inferInstanceAs (Decidable (∃ call ∈ system.calls, database ∈ call.transactions))

/-- `assertCanCommit`: every path still leads to the file that was locked. -/
def assertCanCommit (call : LockCall Path) (system : LockSystem Path) : Bool :=
  call.held.all fun lock => system.files.get? lock.path == some lock.identity

/-- `link` fails where the name exists. -/
def linkFile (path : Path) (system : LockSystem Path) : LockSystem Path :=
  match system.files.get? path with
  | some _ => system
  | none =>
    { system with
      files := system.files.set path system.nextInode
      nextInode := system.nextInode + 1 }

def proceed (system : LockSystem Path) (call : LockCall Path) : LockCall Path :=
  match call.phase with
  | .canonicalizing => call.next (orderedPaths links call.lockPaths)
  | .resolving path rest => { call with phase := .inspecting (links.canonicalLockPath path) rest }
  | .inspecting path rest =>
    match system.files.get? path with
    | some identity => { call with phase := .opening path rest identity }
    | none => { call with phase := .linking path rest }
  | .linking path rest => { call with phase := .identifying path rest }
  | .identifying path rest =>
    match system.files.get? path with
    | some identity => { call with phase := .opening path rest identity }
    | none => call.throws
  | .opening path rest identity =>
    match system.files.get? path with
    | some database => { call with phase := .attempting path rest identity database }
    | none => call.throws
  | .attempting path rest identity database =>
    -- `BEGIN IMMEDIATE`: contention makes the call wait and try again
    if system.Busy database then call
    else { call with phase := .verifying path rest identity database }
  | .verifying path rest identity database =>
    if system.files.get? path = some identity then
      LockCall.next rest
        { call with
          held := call.held ++ [{ path := path, identity := identity, database := database }] }
    else call.throws
  | .ready => if system.assertCanCommit call then { call with phase := .operating } else call.throws
  | .operating => { call with phase := .committing }
  | .committing => call.throws
  | .releasing => call.releaseLast
  | .ended => call

/-- The file that a step of the call makes. A database that is not there is made when it is
opened. -/
def linkFor (call : LockCall Path) (system : LockSystem Path) : LockSystem Path :=
  match call.phase with
  | .linking path _ => system.linkFile path
  | .opening path _ _ => system.linkFile path
  | _ => system

def setCall (number : ℕ) (call : LockCall Path) (system : LockSystem Path) : LockSystem Path :=
  { system with calls := system.calls.set number call }

end LockSystem

/-- A new call, or one step of one. A call may fail, be cancelled or time out wherever it
waits, and its process may end. -/
def lockStep (step : LockStep Path) (system : LockSystem Path) : LockSystem Path :=
  match step with
  | .calls lockPaths =>
    { system with
      calls := system.calls ++ [{ lockPaths := lockPaths, phase := .canonicalizing, held := [] }] }
  | .proceeds number =>
    match system.calls[number]? with
    | none => system
    | some call =>
      (system.linkFor call).setCall number ((system.linkFor call).proceed links call)
  | .fails number =>
    match system.calls[number]? with
    | none => system
    | some call => system.setCall number call.fail
  | .exits number =>
    match system.calls[number]? with
    | none => system
    | some call => system.setCall number call.exit

end Definitions

/-! ## The order of the paths -/

section Order

variable {Path : Type} [LinearOrder Path] {links : DirectoryLinks Path}

theorem mem_orderedPaths {lockPaths : List Path} {path : Path} :
    path ∈ orderedPaths links lockPaths ↔
    ∃ given ∈ lockPaths, links.canonicalLockPath given = path := by
  rw [orderedPaths, mem_insertionSort, mem_distinct, mem_map]

theorem orderedPaths_pairwise (lockPaths : List Path) :
    (orderedPaths links lockPaths).Pairwise (· < ·) := by
  have hsorted : (orderedPaths links lockPaths).Pairwise (· ≤ ·) := pairwise_insertionSort _ _
  have hnodup : (orderedPaths links lockPaths).Nodup :=
    (perm_insertionSort _ _).nodup_iff.mpr (distinct_nodup _)
  exact hsorted.imp₂ (fun _ _ hle hne => lt_of_le_of_ne hle hne) hnodup

theorem canonical_of_mem_orderedPaths {lockPaths : List Path} {path : Path}
    (h : path ∈ orderedPaths links lockPaths) : links.canonicalLockPath path = path := by
  obtain ⟨given, -, rfl⟩ := mem_orderedPaths.mp h
  exact links.canonical_canonical given

end Order

/-! ## One call -/

section Calls

variable {Path : Type} [LinearOrder Path] {links : DirectoryLinks Path}
variable {system : LockSystem Path} {call : LockCall Path} {files : OrderedMap Path ℕ}

/-- The paths that are still to be locked, while the call is locking or has its locks. -/
def LockPhase.pending : LockPhase Path → Option (List Path)
  | .canonicalizing => none
  | .resolving path rest => some (path :: rest)
  | .inspecting path rest => some (path :: rest)
  | .linking path rest => some (path :: rest)
  | .identifying path rest => some (path :: rest)
  | .opening path rest _ => some (path :: rest)
  | .attempting path rest _ _ => some (path :: rest)
  | .verifying path rest _ _ => some (path :: rest)
  | .ready => some []
  | .operating => some []
  | .committing => some []
  | .releasing => none
  | .ended => none

def LockPhase.found : LockPhase Path → List (Path × ℕ)
  | .opening path _ identity => [(path, identity)]
  | .attempting path _ identity database => [(path, identity), (path, database)]
  | .verifying path _ identity database => [(path, identity), (path, database)]
  | _ => []

/-- The call has not taken a lock yet, or has none any more. -/
def LockPhase.outside : LockPhase Path → Bool
  | .canonicalizing => true
  | .ended => true
  | _ => false

/-- The locks of a call and the paths it is still to lock are its paths in order, and every
inode it has found is the one at the path. -/
structure CallInv (links : DirectoryLinks Path) (files : OrderedMap Path ℕ)
    (call : LockCall Path) : Prop where
  ordered : ∀ rest, call.phase.pending = some rest →
    call.held.map HeldLock.path ++ rest = orderedPaths links call.lockPaths
  nothing : call.phase.outside = true → call.held = []
  kept : ∀ lock ∈ call.held, files.get? lock.path = some lock.database
  found : ∀ entry ∈ call.phase.found, files.get? entry.1 = some entry.2

theorem callInv_initial (files : OrderedMap Path ℕ) (lockPaths : List Path) :
    CallInv links files { lockPaths := lockPaths, phase := .canonicalizing, held := [] } where
  ordered := fun _ h => by cases h
  nothing := fun _ => rfl
  kept := fun _ h => absurd h List.not_mem_nil
  found := fun _ h => absurd h List.not_mem_nil

theorem CallInv.mono {files' : OrderedMap Path ℕ} (h : CallInv links files call)
    (hfiles : ∀ path inode, files.get? path = some inode → files'.get? path = some inode) :
    CallInv links files' call where
  ordered := h.ordered
  nothing := h.nothing
  kept := fun lock hlock => hfiles _ _ (h.kept lock hlock)
  found := fun entry hentry => hfiles _ _ (h.found entry hentry)

theorem CallInv.throws (h : CallInv links files call) : CallInv links files call.throws where
  ordered := fun _ hrest => by cases hrest
  nothing := fun houtside => by cases houtside
  kept := h.kept
  found := fun _ hentry => absurd hentry List.not_mem_nil

theorem CallInv.fail (h : CallInv links files call) : CallInv links files call.fail := by
  unfold LockCall.fail
  split
  · exact h
  · exact h
  · exact h.throws

theorem callInv_exit (files : OrderedMap Path ℕ) (call : LockCall Path) :
    CallInv links files call.exit where
  ordered := fun _ h => by cases h
  nothing := fun _ => rfl
  kept := fun _ h => absurd h List.not_mem_nil
  found := fun _ h => absurd h List.not_mem_nil

theorem CallInv.releaseLast (h : CallInv links files call)
    (hphase : call.phase = .releasing) : CallInv links files call.releaseLast := by
  unfold LockCall.releaseLast
  split
  · next hheld =>
    exact ⟨fun _ hrest => (by cases hrest), fun _ => hheld, h.kept,
      fun _ hentry => absurd hentry not_mem_nil⟩
  · refine ⟨fun rest hrest => ?_, fun houtside => ?_, fun lock hlock => ?_, h.found⟩
    · rw [hphase] at hrest
      cases hrest
    · rw [hphase] at houtside
      cases houtside
    · exact h.kept lock (mem_of_mem_dropLast hlock)

theorem callInv_next {rest : List Path}
    (hordered : call.held.map HeldLock.path ++ rest = orderedPaths links call.lockPaths)
    (hkept : ∀ lock ∈ call.held, files.get? lock.path = some lock.database) :
    CallInv links files (call.next rest) := by
  cases rest with
  | nil =>
    refine ⟨fun rest hrest => ?_, fun houtside => (by cases houtside), hkept,
      fun _ h => absurd h not_mem_nil⟩
    obtain rfl := Option.some.inj hrest
    exact hordered
  | cons path rest =>
    refine ⟨fun rest hrest => ?_, fun houtside => (by cases houtside), hkept,
      fun _ h => absurd h not_mem_nil⟩
    obtain rfl := Option.some.inj hrest
    exact hordered

theorem CallInv.goesOn (h : CallInv links files call)
    {phase : LockPhase Path} (hpending : phase.pending = call.phase.pending)
    (hinside : phase.outside = false)
    (hfound : ∀ entry ∈ phase.found, files.get? entry.1 = some entry.2) :
    CallInv links files { call with phase := phase } where
  ordered := fun rest hrest => h.ordered rest (hpending.symm.trans hrest)
  nothing := fun houtside => absurd houtside (ne_true_of_eq_false hinside)
  kept := h.kept
  found := hfound

/-- **A step of a call keeps its locks in order.** -/
theorem CallInv.proceed (h : CallInv links system.files call) :
    CallInv links system.files (system.proceed links call) := by
  unfold LockSystem.proceed
  cases hphase : call.phase with
  | canonicalizing =>
    have hheld := h.nothing (by rw [hphase]; rfl)
    apply callInv_next
    · rw [hheld, map_nil, nil_append]
    · exact h.kept
  | resolving path rest =>
    have hordered := h.ordered (path :: rest) (by rw [hphase]; rfl)
    have hmem : path ∈ orderedPaths links call.lockPaths := by
      rw [← hordered]
      exact mem_append_right _ mem_cons_self
    apply h.goesOn _ rfl
    · exact fun _ hentry => absurd hentry not_mem_nil
    · rw [hphase, canonical_of_mem_orderedPaths hmem]
      rfl
  | inspecting path rest =>
    dsimp only
    split
    · next identity hidentity =>
      apply h.goesOn (by rw [hphase]; rfl) rfl
      intro entry hentry
      rw [mem_singleton.mp hentry]
      exact hidentity
    · exact h.goesOn (by rw [hphase]; rfl) rfl fun _ hentry => absurd hentry not_mem_nil
  | linking path rest =>
    exact h.goesOn (by rw [hphase]; rfl) rfl fun _ hentry => absurd hentry not_mem_nil
  | identifying path rest =>
    dsimp only
    split
    · next identity hidentity =>
      apply h.goesOn (by rw [hphase]; rfl) rfl
      intro entry hentry
      rw [mem_singleton.mp hentry]
      exact hidentity
    · exact h.throws
  | opening path rest identity =>
    dsimp only
    split
    · next database hdatabase =>
      apply h.goesOn (by rw [hphase]; rfl) rfl
      intro entry hentry
      have hidentity := h.found (path, identity) (by rw [hphase]; exact mem_singleton_self _)
      rcases mem_cons.mp hentry with rfl | hlast
      · exact hidentity
      · rw [mem_singleton.mp hlast]
        exact hdatabase
    · exact h.throws
  | attempting path rest identity database =>
    dsimp only
    split
    · exact h
    · apply h.goesOn (by rw [hphase]; rfl) rfl
      intro entry hentry
      apply h.found entry
      rw [hphase]
      exact hentry
  | verifying path rest identity database =>
    dsimp only
    split
    · have hordered := h.ordered (path :: rest) (by rw [hphase]; rfl)
      have hdatabase := h.found (path, database) (by rw [hphase]; simp [LockPhase.found])
      apply callInv_next
      · simpa using hordered
      · intro lock hlock
        rcases mem_append.mp hlock with hheld | hnew
        · exact h.kept lock hheld
        · rw [mem_singleton.mp hnew]
          exact hdatabase
    · exact h.throws
  | ready =>
    dsimp only
    split
    · exact h.goesOn (by rw [hphase]; rfl) rfl fun _ hentry => absurd hentry not_mem_nil
    · exact h.throws
  | operating =>
    exact h.goesOn (by rw [hphase]; rfl) rfl fun _ hentry => absurd hentry not_mem_nil
  | committing => exact h.throws
  | releasing => exact h.releaseLast hphase
  | ended => exact h

end Calls

/-! ## The transactions -/

section Transactions

variable {Path : Type} {call : LockCall Path} {database : ℕ}

theorem LockCall.mem_transactions_of_held (h : database ∈ call.held.map HeldLock.database) :
    database ∈ call.transactions :=
  mem_append_left _ h

theorem LockCall.mem_transactions_throws (h : database ∈ call.throws.transactions) :
    database ∈ call.transactions := by
  apply mem_transactions_of_held
  simpa [transactions, LockCall.throws, LockPhase.begun] using h

theorem LockCall.mem_transactions_fail (h : database ∈ call.fail.transactions) :
    database ∈ call.transactions := by
  unfold LockCall.fail at h
  split at h
  · exact h
  · exact h
  · exact mem_transactions_throws h

theorem LockCall.transactions_next (rest : List Path) (call : LockCall Path) :
    (call.next rest).transactions = call.held.map HeldLock.database := by
  cases rest with
  | nil => exact append_nil _
  | cons path rest => exact append_nil _

theorem LockCall.mem_transactions_releaseLast (h : database ∈ call.releaseLast.transactions)
    (hphase : call.phase = .releasing) : database ∈ call.transactions := by
  apply mem_transactions_of_held
  unfold LockCall.releaseLast at h
  split at h
  · simpa [transactions, LockPhase.begun] using h
  · have hbegun : LockPhase.begun (.releasing : LockPhase Path) = [] := rfl
    rw [transactions, hphase, hbegun, append_nil] at h
    obtain ⟨lock, hlock, rfl⟩ := mem_map.mp h
    exact mem_map_of_mem (mem_of_mem_dropLast hlock)

theorem LockCall.mem_transactions_goesOn {phase : LockPhase Path}
    (h : database ∈ LockCall.transactions { call with phase := phase })
    (hbegun : phase.begun = []) :
    database ∈ call.transactions := by
  apply mem_transactions_of_held
  rw [transactions, hbegun, append_nil] at h
  exact h

variable [LinearOrder Path] {links : DirectoryLinks Path} {system : LockSystem Path}

/-- **A transaction is begun only in a database in which there is none.** -/
theorem mem_transactions_proceed (h : database ∈ (system.proceed links call).transactions) :
    database ∈ call.transactions ∨ ¬system.Busy database := by
  unfold LockSystem.proceed at h
  cases hphase : call.phase with rw [hphase] at h
  | canonicalizing =>
    rw [LockCall.transactions_next] at h
    exact .inl (LockCall.mem_transactions_of_held h)
  | inspecting path rest =>
    dsimp only at h
    split at h
    · exact .inl (LockCall.mem_transactions_goesOn h rfl)
    · exact .inl (LockCall.mem_transactions_goesOn h rfl)
  | identifying path rest =>
    dsimp only at h
    split at h
    · exact .inl (LockCall.mem_transactions_goesOn h rfl)
    · exact .inl (LockCall.mem_transactions_throws h)
  | opening path rest identity =>
    dsimp only at h
    split at h
    · exact .inl (LockCall.mem_transactions_goesOn h rfl)
    · exact .inl (LockCall.mem_transactions_throws h)
  | attempting path rest identity wanted =>
    dsimp only at h
    split at h
    · exact .inl h
    · next hfree =>
      rcases mem_append.mp h with hheld | hbegun
      · exact .inl (LockCall.mem_transactions_of_held hheld)
      · obtain rfl := mem_singleton.mp hbegun
        exact .inr hfree
  | verifying path rest identity begun =>
    dsimp only at h
    split at h
    · left
      rw [LockCall.transactions_next, map_append] at h
      rw [LockCall.transactions, hphase]
      exact h
    · exact .inl (LockCall.mem_transactions_throws h)
  | ready =>
    dsimp only at h
    split at h
    · exact .inl (LockCall.mem_transactions_goesOn h rfl)
    · exact .inl (LockCall.mem_transactions_throws h)
  | committing =>
    exact .inl (LockCall.mem_transactions_throws h)
  | releasing =>
    exact .inl (LockCall.mem_transactions_releaseLast h hphase)
  | ended =>
    exact .inl h
  | _ =>
    exact .inl (LockCall.mem_transactions_goesOn h rfl)

end Transactions

/-! ## All calls -/

section Systems

variable {Path : Type} [LinearOrder Path] {links : DirectoryLinks Path}
variable {system : LockSystem Path} {call : LockCall Path} {number : ℕ}

theorem get?_linkFile (path wanted : Path) :
    (system.linkFile path).files.get? wanted =
      if wanted = path ∧ system.files.get? path = none then some system.nextInode
      else system.files.get? wanted := by
  unfold LockSystem.linkFile
  cases hfile : system.files.get? path with
  | some inode => simp
  | none =>
    dsimp only
    rw [OrderedMap.get?_set]
    by_cases heq : wanted = path
    · simp [heq]
    · simp [heq, Ne.symm heq]

structure FilesInv (system : LockSystem Path) : Prop where
  fresh : ∀ path inode, system.files.get? path = some inode → inode < system.nextInode
  injective : ∀ path other inode, system.files.get? path = some inode →
    system.files.get? other = some inode → path = other

theorem get?_linkFile_of_some {path wanted : Path} {inode : ℕ}
    (h : system.files.get? wanted = some inode) :
    (system.linkFile path).files.get? wanted = some inode := by
  rw [get?_linkFile, if_neg]
  · exact h
  · rintro ⟨rfl, hnone⟩
    rw [hnone] at h
    cases h

theorem FilesInv.linkFile (h : FilesInv system) (path : Path) :
    FilesInv (system.linkFile path) := by
  cases hfile : system.files.get? path with
  | some inode =>
    have hsame : system.linkFile path = system := by rw [LockSystem.linkFile, hfile]
    rw [hsame]
    exact h
  | none =>
    have hnext : (system.linkFile path).nextInode = system.nextInode + 1 := by
      rw [LockSystem.linkFile, hfile]
    have hget : ∀ wanted inode, (system.linkFile path).files.get? wanted = some inode →
        (wanted = path ∧ inode = system.nextInode) ∨
          (system.files.get? wanted = some inode ∧ inode < system.nextInode) := by
      intro wanted inode hwanted
      rw [get?_linkFile] at hwanted
      split at hwanted
      · next hnew => exact .inl ⟨hnew.1, (Option.some.inj hwanted).symm⟩
      · exact .inr ⟨hwanted, h.fresh _ _ hwanted⟩
    constructor
    · intro wanted inode hwanted
      rw [hnext]
      rcases hget _ _ hwanted with ⟨-, rfl⟩ | ⟨-, hold⟩
      · exact Nat.lt_succ_self _
      · exact Nat.lt_succ_of_lt hold
    · intro wanted other inode hwanted hother
      rcases hget _ _ hwanted with ⟨rfl, rfl⟩ | ⟨hold, hless⟩
      · rcases hget _ _ hother with ⟨rfl, -⟩ | ⟨-, hless⟩
        · rfl
        · exact absurd hless (lt_irrefl _)
      · rcases hget _ _ hother with ⟨-, rfl⟩ | ⟨hold', -⟩
        · exact absurd hless (lt_irrefl _)
        · exact h.injective _ _ _ hold hold'

theorem linkFile_calls (path : Path) : (system.linkFile path).calls = system.calls := by
  unfold LockSystem.linkFile
  split <;> rfl

/-- The locks of all calls: no two calls have a transaction in one database. -/
structure SystemInv (links : DirectoryLinks Path) (system : LockSystem Path) : Prop where
  files : FilesInv system
  calls : ∀ call ∈ system.calls, CallInv links system.files call
  exclusive : ∀ (first second : ℕ) (firstCall secondCall : LockCall Path) (database : ℕ),
    system.calls[first]? = some firstCall → system.calls[second]? = some secondCall →
    database ∈ firstCall.transactions → database ∈ secondCall.transactions → first = second

theorem systemInv_initial : SystemInv links (LockSystem.initial : LockSystem Path) where
  files := ⟨fun _ _ h => (by cases h), fun _ _ _ h _ => (by cases h)⟩
  calls := fun _ h => absurd h List.not_mem_nil
  exclusive := fun _ _ _ _ _ h _ _ _ => by cases h

theorem SystemInv.linkFile (h : SystemInv links system) (path : Path) :
    SystemInv links (system.linkFile path) where
  files := h.files.linkFile path
  calls := by
    intro call hcall
    rw [linkFile_calls] at hcall
    exact (h.calls call hcall).mono fun _ _ hfile => get?_linkFile_of_some hfile
  exclusive := by
    intro first second firstCall secondCall database hfirst hsecond
    rw [linkFile_calls] at hfirst hsecond
    exact h.exclusive first second firstCall secondCall database hfirst hsecond

theorem SystemInv.linkFor (h : SystemInv links system) (call : LockCall Path) :
    SystemInv links (system.linkFor call) := by
  unfold LockSystem.linkFor
  split
  · exact h.linkFile _
  · exact h.linkFile _
  · exact h

theorem linkFor_calls (call : LockCall Path) : (system.linkFor call).calls = system.calls := by
  unfold LockSystem.linkFor
  split
  · exact linkFile_calls _
  · exact linkFile_calls _
  · rfl

omit [LinearOrder Path] in
theorem busy_of_getElem? {database : ℕ} (hcall : system.calls[number]? = some call)
    (h : database ∈ call.transactions) : system.Busy database :=
  ⟨call, mem_of_getElem? hcall, h⟩

theorem SystemInv.setCall (h : SystemInv links system) {next : LockCall Path}
    (hcall : system.calls[number]? = some call) (hnext : CallInv links system.files next)
    (hbegun : ∀ database ∈ next.transactions,
      database ∈ call.transactions ∨ ¬system.Busy database) :
    SystemInv links (system.setCall number next) where
  files := ⟨h.files.fresh, h.files.injective⟩
  calls := by
    intro other hother
    rcases mem_or_eq_of_mem_set hother with hold | rfl
    · exact h.calls other hold
    · exact hnext
  exclusive := by
    -- what the new call has, no other call has
    have hother : ∀ (second : ℕ) (secondCall : LockCall Path) (database : ℕ),
        system.calls[second]? = some secondCall → number ≠ second →
        database ∈ next.transactions → database ∉ secondCall.transactions := by
      intro second secondCall database hsecond hne hmine htheirs
      rcases hbegun database hmine with hold | hfree
      · exact hne (h.exclusive _ _ _ _ _ hcall hsecond hold htheirs)
      · exact hfree (busy_of_getElem? hsecond htheirs)
    have hget : ∀ (index : ℕ) (found : LockCall Path),
        (system.setCall number next).calls[index]? = some found →
        (number = index ∧ found = next) ∨ (number ≠ index ∧ system.calls[index]? = some found) := by
      intro index found hfound
      rw [LockSystem.setCall, getElem?_set] at hfound
      split at hfound
      · next heq =>
        split at hfound
        · exact .inl ⟨heq, (Option.some.inj hfound).symm⟩
        · cases hfound
      · next hne => exact .inr ⟨hne, hfound⟩
    intro first second firstCall secondCall database hfirst hsecond hmine htheirs
    rcases hget first firstCall hfirst with ⟨rfl, rfl⟩ | ⟨hne, hfirst'⟩
    · rcases hget second secondCall hsecond with ⟨rfl, rfl⟩ | ⟨hne, hsecond⟩
      · rfl
      · exact absurd htheirs (hother second secondCall database hsecond hne hmine)
    · rcases hget second secondCall hsecond with ⟨heq, rfl⟩ | ⟨-, hsecond⟩
      · exact absurd hmine (hother first firstCall database hfirst' hne htheirs)
      · exact h.exclusive _ _ _ _ _ hfirst' hsecond hmine htheirs

theorem SystemInv.begin (h : SystemInv links system) (lockPaths : List Path) :
    SystemInv links (lockStep links (.calls lockPaths) system) where
  files := ⟨h.files.fresh, h.files.injective⟩
  calls := by
    intro call hcall
    rcases mem_append.mp hcall with hold | hnew
    · exact h.calls call hold
    · rw [mem_singleton.mp hnew]
      exact callInv_initial _ lockPaths
  exclusive := by
    have hget : ∀ (index : ℕ) (found : LockCall Path) (database : ℕ),
        (lockStep links (.calls lockPaths) system).calls[index]? = some found →
        database ∈ found.transactions → system.calls[index]? = some found := by
      intro index found database hfound hmem
      rw [lockStep, getElem?_append] at hfound
      split at hfound
      · exact hfound
      · rw [mem_singleton.mp (mem_of_getElem? hfound)] at hmem
        exact absurd hmem not_mem_nil
    intro first second firstCall secondCall database hfirst hsecond hmine htheirs
    exact h.exclusive _ _ _ _ _ (hget _ _ _ hfirst hmine) (hget _ _ _ hsecond htheirs) hmine htheirs

/-- **Every step keeps the locks apart.** -/
theorem SystemInv.lockStep (h : SystemInv links system) (step : LockStep Path) :
    SystemInv links (lockStep links step system) := by
  unfold ContextLocks.lockStep
  cases step with (try dsimp only)
  | calls lockPaths => exact h.begin lockPaths
  | proceeds number =>
    split
    · exact h
    · next call hcall =>
      have hlinked := h.linkFor call
      have hsame : (system.linkFor call).calls[number]? = some call := by
        rw [linkFor_calls]
        exact hcall
      have hinv := hlinked.calls call (mem_of_getElem? hsame)
      exact hlinked.setCall hsame hinv.proceed fun _ => mem_transactions_proceed
  | fails number =>
    split
    · exact h
    · next call hcall =>
      have hinv := h.calls call (mem_of_getElem? hcall)
      exact h.setCall hcall hinv.fail fun _ hmem => .inl (LockCall.mem_transactions_fail hmem)
  | exits number =>
    split
    · exact h
    · next call hcall =>
      exact h.setCall hcall (callInv_exit _ call) fun _ hmem => absurd hmem not_mem_nil

end Systems

/-! ## Exclusion, waiting and release -/

section Results

variable {Path : Type} [LinearOrder Path] {links : DirectoryLinks Path}
variable {system : LockSystem Path}

/-- The path at whose database the call waits. -/
def LockPhase.attempted : LockPhase Path → Option Path
  | .attempting path _ _ _ => some path
  | _ => none

def LockSystem.waitsAt (system : LockSystem Path) (number : ℕ) : Option Path :=
  system.calls[number]?.bind fun call => call.phase.attempted

/-- The first call tries to begin a transaction in a database where the second has one. -/
def LockSystem.Waits (system : LockSystem Path) (first second : ℕ) : Prop :=
  ∃ (firstCall secondCall : LockCall Path) (path : Path) (rest : List Path) (identity database : ℕ),
    system.calls[first]? = some firstCall ∧
      firstCall.phase = .attempting path rest identity database ∧
      system.calls[second]? = some secondCall ∧ database ∈ secondCall.transactions

def SharesPath (links : DirectoryLinks Path) (first second : List Path) : Prop :=
  ∃ path ∈ first, ∃ other ∈ second, links.canonicalLockPath path = links.canonicalLockPath other

/-- What the locks are for: operations at one path run one at a time, no calls wait for each
other in a circle, and a call that has ended has no lock. -/
structure LocksSound (links : DirectoryLinks Path) (system : LockSystem Path) : Prop where
  exclusive : ∀ (first second : ℕ) (firstCall secondCall : LockCall Path),
    system.calls[first]? = some firstCall → system.calls[second]? = some secondCall →
    firstCall.phase = .operating → secondCall.phase = .operating →
    SharesPath links firstCall.lockPaths secondCall.lockPaths → first = second
  acyclic : Acyclic system.Waits
  released : ∀ call ∈ system.calls, call.phase = .ended → call.transactions = []

theorem CallInv.exists_held {files : OrderedMap Path ℕ} {call : LockCall Path}
    (h : CallInv links files call) (hphase : call.phase = .operating) {path : Path}
    (hpath : path ∈ call.lockPaths) :
    ∃ database ∈ call.transactions, files.get? (links.canonicalLockPath path) = some database := by
  have hordered := h.ordered [] (by rw [hphase]; rfl)
  rw [append_nil] at hordered
  have hmem : links.canonicalLockPath path ∈ call.held.map HeldLock.path := by
    rw [hordered]
    exact mem_orderedPaths.mpr ⟨path, hpath, rfl⟩
  obtain ⟨lock, hlock, heq⟩ := mem_map.mp hmem
  refine ⟨lock.database, LockCall.mem_transactions_of_held (mem_map_of_mem hlock), ?_⟩
  rw [← heq]
  exact h.kept lock hlock

/-- **Exclusion.** Operations that share a path are one. -/
theorem SystemInv.operating_eq (h : SystemInv links system) {first second : ℕ}
    {firstCall secondCall : LockCall Path} (hfirst : system.calls[first]? = some firstCall)
    (hsecond : system.calls[second]? = some secondCall) (hmine : firstCall.phase = .operating)
    (htheirs : secondCall.phase = .operating)
    (hshares : SharesPath links firstCall.lockPaths secondCall.lockPaths) : first = second := by
  obtain ⟨path, hpath, other, hother, heq⟩ := hshares
  have hfirstInv := h.calls firstCall (mem_of_getElem? hfirst)
  have hsecondInv := h.calls secondCall (mem_of_getElem? hsecond)
  obtain ⟨database, hdatabase, hfile⟩ := hfirstInv.exists_held hmine hpath
  obtain ⟨database', hdatabase', hfile'⟩ := hsecondInv.exists_held htheirs hother
  -- one path has one file, in which only one call has a transaction
  rw [heq, hfile'] at hfile
  obtain rfl := Option.some.inj hfile
  exact h.exclusive _ _ _ _ _ hfirst hsecond hdatabase hdatabase'

/-- **Whoever is waited for waits further on.** -/
theorem SystemInv.waitsAt_lt (h : SystemInv links system) {first second : ℕ}
    (hwaits : system.Waits first second) : ∃ path, system.waitsAt first = some path ∧
      ∀ later, system.waitsAt second = some later → path < later := by
  obtain ⟨firstCall, secondCall, path, rest, identity, database, hfirst, hphase, hsecond, hmem⟩ :=
    hwaits
  refine ⟨path, ?_, fun later hlater => ?_⟩
  · rw [LockSystem.waitsAt, hfirst, Option.bind_some, hphase]
    rfl
  have hfirstInv := h.calls firstCall (mem_of_getElem? hfirst)
  have hsecondInv := h.calls secondCall (mem_of_getElem? hsecond)
  have hfile := hfirstInv.found (path, database) (by rw [hphase]; simp [LockPhase.found])
  rw [LockSystem.waitsAt, hsecond, Option.bind_some] at hlater
  cases hsecondPhase : secondCall.phase with
  | attempting wanted rest' identity' database' =>
    rw [hsecondPhase] at hlater
    obtain rfl := Option.some.inj hlater
    -- the transaction is that of a lock it holds, so of an earlier path
    have hbegun : secondCall.phase.begun = [] := by rw [hsecondPhase]; rfl
    rw [LockCall.transactions, hbegun, append_nil] at hmem
    obtain ⟨lock, hlock, rfl⟩ := mem_map.mp hmem
    have hsame : lock.path = path := h.files.injective _ _ _ (hsecondInv.kept lock hlock) hfile
    have hordered := hsecondInv.ordered (wanted :: rest') (by rw [hsecondPhase]; rfl)
    have hsorted : (orderedPaths links secondCall.lockPaths).Pairwise (· < ·) :=
      orderedPaths_pairwise secondCall.lockPaths
    rw [← hordered, pairwise_append] at hsorted
    rw [← hsame]
    exact hsorted.2.2 lock.path (mem_map_of_mem hlock) wanted mem_cons_self
  | _ =>
    rw [hsecondPhase] at hlater
    cases hlater

theorem SystemInv.locksSound (h : SystemInv links system) : LocksSound links system where
  exclusive := fun _ _ _ _ => h.operating_eq
  acyclic := acyclic_of_increasing system.waitsAt fun _ _ => h.waitsAt_lt
  released := by
    intro call hcall hended
    have hheld := (h.calls call hcall).nothing (by rw [hended]; rfl)
    rw [LockCall.transactions, hheld, hended]
    rfl

end Results

/-- One call operates at both of its paths while another, which came second to the first of
them, waits. -/
def twoCallers : List (LockStep ℕ) :=
  .calls [2, 1, 2] :: .calls [1] :: List.replicate 16 (.proceeds 0) ++
    List.replicate 8 (.proceeds 1)

end Laborer.AcpRuntime.ContextLocks
