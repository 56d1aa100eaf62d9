import Laborer.ChatPlane.SqliteState
import Laborer.Library.Runs
import Mathlib.Algebra.Order.Ring.Rat

/-!
# The answers of the chat state

Plain maps, lists, queues and locks in memory, from which everything that has expired is
removed before each operation and after it. They have their own reading of times and bounds. The
SQLite tables answer every operation as they do, however many expired rows are left in them.
-/

namespace Laborer.ChatPlane

open Library List Option Function Table Bool

/-! ## The state in memory -/

structure Stored where
  value : Json
  expiresAt : Option ℕ

def Stored.remains (now : ℕ) (stored : Stored) : Bool :=
  stored.expiresAt.all (now < ·)

structure MemoryState where
  subscriptions : String → Bool
  locks : String → Option Lock
  cache : String → Option Stored
  lists : String → List Stored
  queues : String → List QueueEntry

namespace MemoryState

def empty : MemoryState where
  subscriptions := fun _ => false
  locks := fun _ => none
  cache := fun _ => none
  lists := fun _ => []
  queues := fun _ => []

def expire (now : ℕ) (memory : MemoryState) : MemoryState where
  subscriptions := memory.subscriptions
  locks := fun threadId => (memory.locks threadId).filter fun lock => now < lock.expiresAt
  cache := fun key => (memory.cache key).filter (Stored.remains now)
  lists := fun key => (memory.lists key).filter (Stored.remains now)
  queues := fun threadId => (memory.queues threadId).filter fun entry => (now : ℚ) < entry.expiresAt

abbrev Outcome := Except String Answer × MemoryState

/-- A time or a bound is a whole number from zero up to `Number.MAX_SAFE_INTEGER`. -/
def whole (number : ℚ) (field : String) : Except String ℕ :=
  if number.isInt ∧ 0 ≤ number ∧ number ≤ 9007199254740991 then .ok number.floor.toNat
  else .error (field ++ " must be a non-negative integer")

/-- What is kept for so many milliseconds expires when they have passed. -/
def moment (now ttlMs : ℕ) : Except String ℕ :=
  if now + ttlMs ≤ 9007199254740991 then .ok (now + ttlMs)
  else .error "Chat state expiration exceeds SQLite's safe integer range"

/-- Only what has a JSON text can be kept. -/
def text (value : Option Json) : Except String Json :=
  value.elim (.error "Chat state value is not JSON serializable") .ok

def acquireLock (now : ℕ) (threadId : String) (ttlMs : ℚ) (token : String)
    (memory : MemoryState) : Outcome :=
  match (whole ttlMs "ttlMs").bind fun ttlMs => moment now ttlMs with
  | .error message => (.error message, memory)
  | .ok expiresAt =>
    match memory.locks threadId with
    | some _ => (.ok (.lock none), memory)
    | none =>
      let lock := { threadId, token, expiresAt }
      (.ok (.lock (some lock)),
        { memory with locks := Function.update memory.locks threadId (some lock) })

/-- Releasing a lock that is not the one held does nothing. -/
def releaseLock (lock : Lock) (memory : MemoryState) : Outcome :=
  (.ok .done,
    { memory with
      locks := Function.update memory.locks lock.threadId
        ((memory.locks lock.threadId).filter fun held => held.token ≠ lock.token) })

def extendLock (now : ℕ) (lock : Lock) (ttlMs : ℚ) (memory : MemoryState) : Outcome :=
  match (whole ttlMs "ttlMs").bind fun ttlMs => moment now ttlMs with
  | .error message => (.error message, memory)
  | .ok expiresAt =>
    match (memory.locks lock.threadId).filter fun held => held.token = lock.token with
    | none => (.ok (.flag false), memory)
    | some held =>
      (.ok (.flag true),
        { memory with
          locks := Function.update memory.locks lock.threadId
            (some { held with expiresAt := expiresAt }) })

def toStore (now : ℕ) (value : Option Json) (ttlMs : Option ℚ) : Except String Stored :=
  (ttlMs.mapM (whole · "ttlMs")).bind fun ttlMs =>
    (text value).bind fun value =>
      (ttlMs.mapM (moment now)).map fun expiresAt => { value, expiresAt }

def set (now : ℕ) (key : String) (value : Option Json) (ttlMs : Option ℚ) (memory : MemoryState) :
    Outcome :=
  match toStore now value ttlMs with
  | .error message => (.error message, memory)
  | .ok stored =>
    (.ok .done, { memory with cache := Function.update memory.cache key (some stored) })

def setIfNotExists (now : ℕ) (key : String) (value : Option Json) (ttlMs : Option ℚ)
    (memory : MemoryState) : Outcome :=
  match toStore now value ttlMs with
  | .error message => (.error message, memory)
  | .ok stored =>
    match memory.cache key with
    | some _ => (.ok (.flag false), memory)
    | none =>
      (.ok (.flag true), { memory with cache := Function.update memory.cache key (some stored) })

def newest {α : Type} (bound : Option ℕ) (entries : List α) : List α :=
  match bound with
  | none => entries
  | some bound => entries.rtake bound

/-- An entry is added at the end, all entries expire when it does, and the newest stay. -/
def appendToList (now : ℕ) (key : String) (value : Option Json) (maxLength ttlMs : Option ℚ)
    (memory : MemoryState) : Outcome :=
  match (maxLength.mapM (whole · "maxLength")).bind fun maxLength =>
    (ttlMs.mapM (whole · "ttlMs")).bind fun ttlMs =>
      (ttlMs.mapM (moment now)).bind fun expiresAt =>
        (text value).map fun value => (maxLength, ({ value, expiresAt } : Stored)) with
  | .error message => (.error message, memory)
  | .ok (maxLength, stored) =>
    let refreshed := (memory.lists key ++ [stored]).map fun entry =>
      { entry with expiresAt := stored.expiresAt }
    (.ok .done,
      { memory with lists := Function.update memory.lists key (newest maxLength refreshed) })

/-- A message is added at the end unless it has expired already, and the newest stay. -/
def enqueue (now : ℕ) (threadId : String) (entry : QueueEntry) (maxSize : ℚ)
    (memory : MemoryState) : Outcome :=
  match (whole maxSize "maxSize").bind fun maxSize =>
    (whole entry.enqueuedAt "entry.enqueuedAt").bind fun _ =>
      (whole entry.expiresAt "entry.expiresAt").map fun _ => maxSize with
  | .error message => (.error message, memory)
  | .ok maxSize =>
    let added := (memory.queues threadId ++ [entry]).filter fun entry =>
      (now : ℚ) < entry.expiresAt
    (.ok (.depth (added.rtake maxSize).length),
      { memory with queues := Function.update memory.queues threadId (added.rtake maxSize) })

def apply (now : ℕ) (operation : Operation) (memory : MemoryState) : Outcome :=
  match operation with
  | .subscribe threadId =>
    (.ok .done,
      { memory with subscriptions := Function.update memory.subscriptions threadId true })
  | .unsubscribe threadId =>
    (.ok .done,
      { memory with subscriptions := Function.update memory.subscriptions threadId false })
  | .isSubscribed threadId => (.ok (.flag (memory.subscriptions threadId)), memory)
  | .acquireLock threadId ttlMs token => memory.acquireLock now threadId ttlMs token
  | .forceReleaseLock threadId =>
    (.ok .done, { memory with locks := Function.update memory.locks threadId none })
  | .releaseLock lock => memory.releaseLock lock
  | .extendLock lock ttlMs => memory.extendLock now lock ttlMs
  | .get key => (.ok (.value (((memory.cache key).map Stored.value).getD .null)), memory)
  | .set key value ttlMs => memory.set now key value ttlMs
  | .setIfNotExists key value ttlMs => memory.setIfNotExists now key value ttlMs
  | .delete key =>
    (.ok .done,
      { memory with
        cache := Function.update memory.cache key none
        lists := Function.update memory.lists key [] })
  | .appendToList key value maxLength ttlMs => memory.appendToList now key value maxLength ttlMs
  | .getList key => (.ok (.values ((memory.lists key).map Stored.value)), memory)
  | .enqueue threadId entry maxSize => memory.enqueue now threadId entry maxSize
  | .dequeue threadId =>
    (.ok (.entry (memory.queues threadId).head?),
      { memory with
        queues := Function.update memory.queues threadId (memory.queues threadId).tail })
  | .queueDepth threadId => (.ok (.depth (memory.queues threadId).length), memory)

/-- Everything that expires is removed at once. -/
def perform (now : ℕ) (operation : Operation) (memory : MemoryState) : Outcome :=
  let outcome := (memory.expire now).apply now operation
  (outcome.1, outcome.2.expire now)

end MemoryState

/-! ## The checks of the adapter -/

theorem Stored.remains_eq (now : ℕ) :
    Stored.remains now = fun stored => isLive now stored.expiresAt := by
  funext stored
  unfold Stored.remains
  cases stored.expiresAt <;> rfl

theorem whole_eq : MemoryState.whole = validateBound := by
  funext number field
  unfold MemoryState.whole validateBound Decoder.isSafeInteger
  by_cases hden : number.den = 1
  · obtain ⟨n, rfl⟩ : ∃ n : ℤ, number = n :=
      ⟨number.num, (Rat.coe_int_num_of_den_eq_one hden).symm⟩
    have hnonneg : (0 : ℚ) ≤ n ↔ 0 ≤ n := by norm_cast
    have hbound : (n : ℚ) ≤ 9007199254740991 ↔ n ≤ 9007199254740991 := by norm_cast
    have hsafe : (n : ℚ).isInt = true ∧ (0 : ℚ) ≤ n ∧ (n : ℚ) ≤ 9007199254740991 ↔
        ((n : ℚ).den = 1 && n.natAbs < 2 ^ 53) = true ∧ (0 : ℚ) ≤ n := by
      rw [hnonneg, hbound]
      simp [Rat.isInt]
      omega
    exact if_congr hsafe rfl rfl
  · simp [Rat.isInt, hden]

theorem moment_eq : MemoryState.moment = expirationFrom := by
  funext now ttlMs
  unfold MemoryState.moment expirationFrom
  congr 1
  exact propext (by omega)

theorem text_eq : MemoryState.text = serialize := by
  funext value
  cases value <;> rfl

theorem mapM_validateBound (value : Option ℚ) (field : String) :
    value.mapM (validateBound · field) = validateOptional value field := by
  cases value <;> rfl

theorem mapM_expirationFrom (now : ℕ) (ttlMs : Option ℕ) :
    ttlMs.mapM (expirationFrom now) = optionalExpiration now ttlMs := by
  cases ttlMs <;> rfl

/-! ## What the tables stand for -/

def CacheRow.stored (row : CacheRow) : Stored := { value := row.value, expiresAt := row.expiresAt }

def ListRow.stored (row : ListRow) : Stored := { value := row.value, expiresAt := row.expiresAt }

def QueueEntry.row (threadId : String) (entry : QueueEntry) : QueueRow where
  threadId := threadId
  value := entry.toJson
  expiresAt := entry.expiresAt.num.toNat

/-- What `enqueue` checks of a message. -/
structure QueueEntry.Valid (entry : QueueEntry) : Prop where
  enqueuedAt : Decoder.isSafeInteger entry.enqueuedAt = true ∧ 0 ≤ entry.enqueuedAt
  expiresAt : Decoder.isSafeInteger entry.expiresAt = true ∧ 0 ≤ entry.expiresAt

/-- The live rows are the state in memory. -/
structure Represents (now : ℕ) (db : SqliteState) (memory : MemoryState) : Prop where
  subscriptions : ∀ threadId,
    (db.subscriptions.find threadId).isSome = memory.subscriptions threadId
  locks : ∀ threadId,
    (db.locks.find threadId).filter (fun lock => now < lock.expiresAt) = memory.locks threadId
  cache : ∀ key, ((db.cache.find key).filter fun row => isLive now row.expiresAt).map
    CacheRow.stored = memory.cache key
  lists : ∀ key, (db.lists.select (SqliteState.listed now key)).map ListRow.stored =
    memory.lists key
  queues : ∀ threadId, db.queues.select (SqliteState.queued now threadId) =
    (memory.queues threadId).map (QueueEntry.row threadId)
  valid : ∀ threadId, ∀ entry ∈ memory.queues threadId, entry.Valid

variable {now now' : ℕ} {db : SqliteState} {memory : MemoryState} {entry : QueueEntry}
  {threadId key other : String}

theorem represents_empty (now : ℕ) : Represents now .empty .empty where
  subscriptions := fun _ => rfl
  locks := fun _ => rfl
  cache := fun _ => rfl
  lists := fun _ => rfl
  queues := fun _ => rfl
  valid := fun _ _ hentry => absurd hentry List.not_mem_nil

/-! ## Values and messages -/

theorem validateBound_of_valid {value : ℚ} {field : String}
    (h : Decoder.isSafeInteger value = true ∧ 0 ≤ value) :
    validateBound value field = .ok value.num.toNat :=
  if_pos h

theorem valid_of_validateBound {value : ℚ} {field : String} {bound : ℕ}
    (h : validateBound value field = .ok bound) :
    (Decoder.isSafeInteger value = true ∧ 0 ≤ value) ∧ bound = value.num.toNat := by
  unfold validateBound at h
  split at h
  · next hvalid =>
    cases h
    exact ⟨hvalid, rfl⟩
  · cases h

theorem QueueEntry.Valid.deserialize (h : entry.Valid) :
    deserializeQueueEntry entry.toJson = .ok entry := by
  unfold deserializeQueueEntry QueueEntry.toJson validateJsonBound
  simp only [Json.get?_cons, if_true, String.reduceEq, if_false, bind_some, Json.num?,
    validateBound_of_valid h.enqueuedAt, validateBound_of_valid h.expiresAt, Except.map]
  show (if h : isObject entry.message = true then _ else _) = _
  rw [dif_pos entry.messageIsObject]

theorem QueueEntry.Valid.lt_expiresAt (h : entry.Valid) (now : ℕ) :
    now < entry.expiresAt.num.toNat ↔ (now : ℚ) < entry.expiresAt := by
  have hden : entry.expiresAt.den = 1 := by
    have hsafe := h.expiresAt.1
    unfold Decoder.isSafeInteger at hsafe
    simp only [and_eq_true, decide_eq_true_eq] at hsafe
    exact hsafe.1
  have hnum : 0 ≤ entry.expiresAt.num := Rat.num_nonneg.mpr h.expiresAt.2
  have hcast : entry.expiresAt = (entry.expiresAt.num.toNat : ℚ) := by
    conv_lhs => rw [← Rat.coe_int_num_of_den_eq_one hden, ← Int.toNat_of_nonneg hnum]
    rfl
  conv_rhs => rw [hcast]
  rw [Nat.cast_lt]

/-! ## The clock and the cleanup -/

section

variable (h : Represents now db memory)
include h

theorem Represents.expire (hle : now ≤ now') : Represents now' db (memory.expire now') where
  subscriptions := h.subscriptions
  locks := by
    intro threadId
    show _ = (memory.locks threadId).filter _
    rw [← h.locks, Option.filter_filter]
    congr 1
    funext lock
    by_cases hlive : now' < lock.expiresAt
    · simp [hlive, Nat.lt_of_le_of_lt hle hlive]
    · simp [hlive]
  cache := by
    intro key
    show _ = (memory.cache key).filter _
    rw [Stored.remains_eq, ← h.cache]
    cases hfind : db.cache.find key with
    | none => rfl
    | some row =>
      cases hlive : isLive now' row.expiresAt with
      | true => simp [Option.filter, hlive, isLive_of_le hle hlive, CacheRow.stored]
      | false =>
        cases hbefore : isLive now row.expiresAt with
        | true => simp [Option.filter, hlive, hbefore, CacheRow.stored]
        | false => simp [Option.filter, hlive, hbefore]
  lists := by
    intro key
    show _ = (memory.lists key).filter _
    rw [Stored.remains_eq, ← h.lists, List.filter_map]
    congr 1
    unfold SequenceTable.select
    rw [List.filter_filter]
    apply filter_congr
    intro row _
    unfold SqliteState.listed
    show _ = (isLive now' row.expiresAt && _)
    cases hlive : isLive now' row.expiresAt with
    | true => simp [isLive_of_le hle hlive]
    | false => simp
  queues := by
    intro threadId
    show _ = ((memory.queues threadId).filter _).map _
    have hsame : (memory.queues threadId).filter
      (fun entry => decide ((now' : ℚ) < entry.expiresAt)) =
        (memory.queues threadId).filter fun entry => decide (now' < entry.expiresAt.num.toNat) := by
      apply List.filter_congr
      intro entry hentry
      simp only [(h.valid threadId entry hentry).lt_expiresAt now']
    have hcomp : (fun entry : QueueEntry => decide (now' < entry.expiresAt.num.toNat)) =
        (fun row : QueueRow => decide (now' < row.expiresAt)) ∘ QueueEntry.row threadId := rfl
    rw [hsame, hcomp, ← List.filter_map, ← h.queues]
    unfold SequenceTable.select
    rw [List.filter_filter]
    apply filter_congr
    intro row _
    unfold SqliteState.queued
    by_cases hlive : now' < row.expiresAt
    · simp [hlive, Nat.lt_of_le_of_lt hle hlive]
    · simp [hlive]
  valid := by
    intro threadId entry hentry
    exact h.valid threadId entry (mem_filter.mp hentry).1

theorem Represents.deleteExpiredLocks (picks : ℕ → Bool) :
    Represents now (db.deleteExpiredLocks now picks) memory :=
  { h with
    locks := by
      intro threadId
      rw [← h.locks]
      apply find_sweep
      exact fun lock hlive => hlive }

theorem Represents.deleteExpiredCache (picks : ℕ → Bool) :
    Represents now (db.deleteExpiredCache now picks) memory :=
  { h with
    cache := by
      intro key
      rw [← h.cache]
      congr 1
      apply find_sweep
      exact fun row hlive => hlive }

theorem Represents.deleteExpiredLists (picks : ℕ → Bool) :
    Represents now (db.deleteExpiredLists now picks) memory :=
  { h with
    lists := by
      intro key
      rw [← h.lists]
      congr 1
      apply SequenceTable.select_sweep
      exact fun row hlisted => (and_eq_true_iff.mp hlisted).2 }

theorem Represents.deleteExpiredQueues (picks : ℕ → Bool) :
    Represents now (db.deleteExpiredQueues now picks) memory :=
  { h with
    queues := by
      intro threadId
      rw [← h.queues]
      apply SequenceTable.select_sweep
      exact fun row hqueued => (and_eq_true_iff.mp hqueued).2 }

end

/-! ## One operation -/

/-- An operation on the tables answers as the one in memory, and leaves what it leaves. -/
structure Agrees (now : ℕ) (outcome : SqliteState.Outcome) (expected : MemoryState.Outcome) :
    Prop where
  answer : outcome.1 = expected.1
  state : Represents now outcome.2 (expected.2.expire now)

section

variable (h : Represents now db memory)
include h

theorem Represents.agrees (answer : Except String Answer) :
    Agrees now (answer, db) (answer, memory) :=
  ⟨rfl, h.expire (Nat.le_refl now)⟩

theorem Represents.setSubscriptions {table : Table String id}
    {subscriptions : String → Bool}
    (htable : ∀ threadId, (table.find threadId).isSome = subscriptions threadId) :
    Represents now { db with subscriptions := table }
      ({ memory with subscriptions := subscriptions }.expire now) :=
  { h.expire (Nat.le_refl now) with subscriptions := htable }

theorem Represents.setLocks {table : Table Lock Lock.threadId}
    {locks : String → Option Lock}
    (htable : ∀ threadId, (table.find threadId).filter (fun lock => now < lock.expiresAt) =
      (locks threadId).filter fun lock => now < lock.expiresAt) :
    Represents now { db with locks := table } ({ memory with locks := locks }.expire now) :=
  { h.expire (Nat.le_refl now) with locks := htable }

theorem Represents.setCache {table : Table CacheRow CacheRow.cacheKey}
    {cache : String → Option Stored}
    (htable : ∀ key, ((table.find key).filter fun row => isLive now row.expiresAt).map
      CacheRow.stored = (cache key).filter fun stored => isLive now stored.expiresAt) :
    Represents now { db with cache := table } ({ memory with cache := cache }.expire now) :=
  { h.expire (Nat.le_refl now) with
    cache := by
      intro key
      show _ = (cache key).filter _
      rw [Stored.remains_eq]
      exact htable key }

theorem Represents.setLists {table : SequenceTable ListRow}
    {lists : String → List Stored}
    (htable : ∀ key, (table.select (SqliteState.listed now key)).map ListRow.stored =
      (lists key).filter fun stored => isLive now stored.expiresAt) :
    Represents now { db with lists := table } ({ memory with lists := lists }.expire now) :=
  { h.expire (Nat.le_refl now) with
    lists := by
      intro key
      show _ = (lists key).filter _
      rw [Stored.remains_eq]
      exact htable key }

theorem Represents.setQueues {table : SequenceTable QueueRow}
    {queues : String → List QueueEntry}
    (hvalid : ∀ threadId, ∀ entry ∈ queues threadId, entry.Valid)
    (hlive : ∀ threadId, ∀ entry ∈ queues threadId, (now : ℚ) < entry.expiresAt)
    (htable : ∀ threadId, table.select (SqliteState.queued now threadId) =
      (queues threadId).map (QueueEntry.row threadId)) :
    Represents now { db with queues := table } ({ memory with queues := queues }.expire now) := by
  have hsame : ∀ threadId, (queues threadId).filter
      (fun entry => decide ((now : ℚ) < entry.expiresAt)) = queues threadId := by
    intro threadId
    rw [filter_eq_self]
    exact fun entry hentry => decide_eq_true (hlive threadId entry hentry)
  exact
    { h.expire (Nat.le_refl now) with
      queues := by
        intro threadId
        show _ = ((queues threadId).filter _).map _
        rw [hsame]
        exact htable threadId
      valid := by
        intro threadId entry hentry
        exact hvalid threadId entry (mem_filter.mp hentry).1 }

/-! ### Locks -/

theorem Represents.find_lock {held : Lock} (hheld : memory.locks threadId = some held) :
    db.locks.find threadId = some held ∧ now < held.expiresAt := by
  rw [← h.locks] at hheld
  obtain ⟨hfind, hlive⟩ := filter_eq_some_iff.mp hheld
  exact ⟨hfind, of_decide_eq_true hlive⟩

theorem Represents.lock_expired {held : Lock}
    (hnone : memory.locks threadId = none) (hfind : db.locks.find threadId = some held) :
    held.expiresAt ≤ now := by
  rw [← h.locks, hfind] at hnone
  by_contra hlt
  simp [Option.filter, Nat.lt_of_not_le hlt] at hnone

theorem Represents.acquireLock (picks : ℕ → Bool) (threadId : String) (ttlMs : ℚ) (token : String) :
    Agrees now (db.acquireLock now picks threadId ttlMs token)
      (memory.acquireLock now threadId ttlMs token) := by
  unfold SqliteState.acquireLock MemoryState.acquireLock
  rw [whole_eq, moment_eq]
  cases hbound : validateBound ttlMs "ttlMs" with
  | error message => exact h.agrees _
  | ok ttl =>
    have hswept := h.deleteExpiredLocks picks
    rw [Except.bind]
    dsimp only
    cases hexpiration : expirationFrom now ttl with
    | error message => exact hswept.agrees _
    | ok expiresAt =>
      dsimp only
      cases hheld : memory.locks threadId with
      | some held =>
        obtain ⟨hfind, hlive⟩ := hswept.find_lock hheld
        rw [upsertWhere_of_held hfind (by simpa using hlive)]
        exact hswept.agrees _
      | none =>
        have hwritten := find_upsertWhere_of_written
          (db.deleteExpiredLocks now picks).locks { threadId, token, expiresAt }
          (fun held => held.expiresAt ≤ now)
          fun held hfind => decide_eq_true (hswept.lock_expired hheld hfind)
        constructor
        · rw [(hwritten threadId).1]
          rfl
        · apply hswept.setLocks
          intro other
          rw [(hwritten other).2]
          by_cases hother : other = threadId
          · subst hother
            rw [if_pos rfl, update_self]
          · rw [if_neg hother, Function.update_of_ne hother, ← hswept.locks, Option.filter_filter]
            simp

theorem Represents.releaseLock (lock : Lock) :
    Agrees now (db.releaseLock lock) (memory.releaseLock lock) := by
  unfold SqliteState.releaseLock MemoryState.releaseLock deleteWhere
  refine ⟨rfl, ?_⟩
  split
  · next hany =>
    apply h.setLocks
    intro other
    rw [find_erase]
    by_cases hother : other = lock.threadId
    · subst hother
      rw [if_pos rfl, update_self]
      cases hheld : memory.locks lock.threadId with
      | none => rfl
      | some held =>
        rw [(h.find_lock hheld).1] at hany
        have htoken : held.token = lock.token := by simpa using hany
        simp [Option.filter, htoken]
    · rw [if_neg hother, Function.update_of_ne hother, ← h.locks, Option.filter_filter]
      simp
  · next hany =>
    apply h.setLocks
    intro other
    by_cases hother : other = lock.threadId
    · subst hother
      rw [update_self, h.locks]
      cases hheld : memory.locks lock.threadId with
      | none => rfl
      | some held =>
        obtain ⟨hfind, hlive⟩ := h.find_lock hheld
        rw [hfind] at hany
        have htoken : held.token ≠ lock.token := by simpa using hany
        simp [Option.filter, htoken, hlive]
    · rw [Function.update_of_ne hother, ← h.locks, Option.filter_filter]
      simp

theorem Represents.forceReleaseLock (threadId : String) :
    Agrees now (db.forceReleaseLock threadId) (memory.apply now (.forceReleaseLock threadId)) := by
  refine ⟨rfl, ?_⟩
  apply h.setLocks
  intro other
  rw [find_erase]
  by_cases hother : other = threadId
  · subst hother
    rw [if_pos rfl, update_self]
  · rw [if_neg hother, Function.update_of_ne hother, ← h.locks, Option.filter_filter]
    simp

theorem Represents.extendLock (lock : Lock) (ttlMs : ℚ) :
    Agrees now (db.extendLock now lock ttlMs) (memory.extendLock now lock ttlMs) := by
  unfold SqliteState.extendLock MemoryState.extendLock
  rw [whole_eq, moment_eq]
  cases hbound : validateBound ttlMs "ttlMs" with
  | error message => exact h.agrees _
  | ok ttl =>
    rw [Except.bind]
    dsimp only
    cases hexpiration : expirationFrom now ttl with
    | error message => exact h.agrees _
    | ok expiresAt =>
      dsimp only
      unfold updateWhere
      cases hheld : (memory.locks lock.threadId).filter fun held => held.token = lock.token with
      | none =>
        rw [if_neg]
        · exact h.agrees _
        · intro hany
          cases hfind : db.locks.find lock.threadId with
          | none =>
            rw [hfind] at hany
            cases hany
          | some row =>
            rw [hfind, any_some, and_eq_true, decide_eq_true_eq, decide_eq_true_eq] at hany
            rw [← h.locks, hfind] at hheld
            simp [Option.filter, hany] at hheld
      | some held =>
        obtain ⟨hlock, htoken⟩ := filter_eq_some_iff.mp hheld
        obtain ⟨hfind, hlive⟩ := h.find_lock hlock
        rw [if_pos]
        · refine ⟨rfl, ?_⟩
          apply h.setLocks
          intro other
          rw [find_modify]
          by_cases hother : other = lock.threadId
          · subst hother
            rw [if_pos rfl, update_self, hfind]
            rfl
          · rw [if_neg hother, Function.update_of_ne hother, ← h.locks, Option.filter_filter]
            simp
        · rw [hfind, any_some, and_eq_true]
          exact ⟨htoken, decide_eq_true hlive⟩

/-! ### Cached values -/

theorem Represents.find_cached {stored : Stored} (hstored : memory.cache key = some stored) :
    ∃ row, db.cache.find key = some row ∧ isLive now row.expiresAt = true ∧
      row.stored = stored := by
  rw [← h.cache] at hstored
  obtain ⟨row, hrow, hsame⟩ := map_eq_some_iff.mp hstored
  obtain ⟨hfind, hlive⟩ := filter_eq_some_iff.mp hrow
  exact ⟨row, hfind, hlive, hsame⟩

theorem Represents.cached_expired {row : CacheRow}
    (hnone : memory.cache key = none) (hfind : db.cache.find key = some row) :
    isLive now row.expiresAt = false := by
  rw [← h.cache, hfind] at hnone
  by_contra hlive
  simp [Option.filter, hlive] at hnone

theorem Represents.cache_live (key : String) :
    ((db.cache.find key).filter fun row => isLive now row.expiresAt).map CacheRow.stored =
      (memory.cache key).filter fun stored => isLive now stored.expiresAt := by
  rw [← Stored.remains_eq]
  exact (h.expire (Nat.le_refl now)).cache key

theorem Represents.get (key : String) : Agrees now (db.get now key)
      (.ok (.value (((memory.cache key).map Stored.value).getD .null)), memory) := by
  unfold SqliteState.get transaction
  dsimp only
  cases hstored : memory.cache key with
  | some stored =>
    obtain ⟨row, hfind, hlive, rfl⟩ := h.find_cached hstored
    rw [hfind, filter_some, if_pos hlive]
    exact h.agrees _
  | none =>
    have hfiltered : ((db.cache.find key).filter fun row => isLive now row.expiresAt) = none := by
      have hcache := h.cache key
      rw [hstored] at hcache
      exact map_eq_none_iff.mp hcache
    rw [hfiltered]
    refine ⟨rfl, ?_⟩
    apply h.setCache
    intro other
    unfold deleteWhere
    split
    · rw [find_erase]
      by_cases hother : other = key
      · subst hother
        rw [if_pos rfl, hstored]
        rfl
      · rw [if_neg hother]
        exact h.cache_live other
    · exact h.cache_live other

theorem Represents.cacheWritten (row : CacheRow)
    (p : CacheRow → Bool)
    (hp : ∀ held, db.cache.find row.cacheKey = some held → p held = true) :
    (db.cache.upsertWhere row p).1 = 1 ∧
      Represents now { db with cache := (db.cache.upsertWhere row p).2 }
        ({ memory with
          cache := Function.update memory.cache row.cacheKey (some row.stored) }.expire now) := by
  have hwritten := find_upsertWhere_of_written db.cache row p hp
  refine ⟨(hwritten row.cacheKey).1, ?_⟩
  apply h.setCache
  intro other
  rw [(hwritten other).2]
  by_cases hother : other = row.cacheKey
  · subst hother
    rw [if_pos rfl, update_self]
    cases hlive : isLive now row.expiresAt with
    | true => simp [Option.filter, hlive, CacheRow.stored]
    | false => simp [Option.filter, hlive, CacheRow.stored]
  · rw [if_neg hother, update_of_ne hother]
    exact h.cache_live other

end

theorem toStore_def (value : Option Json) (ttlMs : Option ℚ) :
    MemoryState.toStore now value ttlMs =
      (validateOptional ttlMs "ttlMs").bind fun ttlMs => (serialize value).bind fun value =>
        (optionalExpiration now ttlMs).map fun expiresAt => { value, expiresAt } := by
  unfold MemoryState.toStore
  simp only [whole_eq, moment_eq, text_eq, mapM_validateBound, mapM_expirationFrom]

theorem toStore_eq {value : Option Json} {ttlMs : Option ℚ} {ttl : Option ℕ}
    (httl : validateOptional ttlMs "ttlMs" = .ok ttl) : MemoryState.toStore now value ttlMs =
      ((serialize value).bind fun value =>
        (optionalExpiration now ttl).map fun expiresAt => (value, expiresAt)).map fun stored =>
          { value := stored.1, expiresAt := stored.2 } := by
  rw [toStore_def, httl]
  show (serialize value).bind _ = _
  cases serialize value with
  | error message => rfl
  | ok value =>
    show (optionalExpiration now ttl).map _ = ((optionalExpiration now ttl).map _).map _
    cases optionalExpiration now ttl <;> rfl

theorem Represents.set (h : Represents now db memory) (picks : ℕ → Bool) (key : String)
    (value : Option Json) (ttlMs : Option ℚ) :
    Agrees now (db.set now picks key value ttlMs) (memory.set now key value ttlMs) := by
  unfold SqliteState.set MemoryState.set
  cases httl : validateOptional ttlMs "ttlMs" with
  | error message =>
    rw [toStore_def, httl]
    exact h.agrees _
  | ok ttl =>
    rw [toStore_eq httl]
    have hswept := h.deleteExpiredCache picks
    dsimp only
    cases (serialize value).bind fun value =>
        (optionalExpiration now ttl).map fun expiresAt => (value, expiresAt) with
    | error message => exact hswept.agrees _
    | ok stored =>
      obtain ⟨value, expiresAt⟩ := stored
      have hwritten : Represents now _ _ :=
        (hswept.cacheWritten { cacheKey := key, value, expiresAt } (fun _ => true) fun _ _ => rfl).2
      exact ⟨rfl, hwritten⟩

theorem Represents.setIfNotExists (h : Represents now db memory) (picks : ℕ → Bool) (key : String)
    (value : Option Json) (ttlMs : Option ℚ) :
    Agrees now (db.setIfNotExists now picks key value ttlMs)
      (memory.setIfNotExists now key value ttlMs) := by
  unfold SqliteState.setIfNotExists MemoryState.setIfNotExists
  cases httl : validateOptional ttlMs "ttlMs" with
  | error message =>
    rw [toStore_def, httl]
    exact h.agrees _
  | ok ttl =>
    rw [toStore_eq httl]
    have hswept := h.deleteExpiredCache picks
    dsimp only
    cases (serialize value).bind fun value =>
        (optionalExpiration now ttl).map fun expiresAt => (value, expiresAt) with
    | error message => exact hswept.agrees _
    | ok stored =>
      obtain ⟨value, expiresAt⟩ := stored
      dsimp only [Except.map]
      cases hcached : memory.cache key with
      | some held =>
        obtain ⟨row, hfind, hlive, -⟩ := hswept.find_cached hcached
        rw [upsertWhere_of_held hfind (by simp [hlive])]
        exact hswept.agrees _
      | none =>
        obtain ⟨hcount, hwritten⟩ := hswept.cacheWritten { cacheKey := key, value, expiresAt }
          (fun held => !isLive now held.expiresAt) fun held hfind => by
            rw [hswept.cached_expired hcached hfind]
            rfl
        exact ⟨by rw [hcount]; rfl, hwritten⟩

/-! ### Lists -/

theorem listed_disjoint (hother : other ≠ key) (row : ListRow)
    (h : SqliteState.listed now other row = true) : SqliteState.listed now key row = false := by
  have hkey : row.listKey = other := by
    simpa using (and_eq_true_iff.mp h).1
  unfold SqliteState.listed
  simp [hkey, hother]

theorem Represents.lists_live (h : Represents now db memory) (key : String) :
    (db.lists.select (SqliteState.listed now key)).map ListRow.stored =
      (memory.lists key).filter fun stored => isLive now stored.expiresAt := by
  rw [← Stored.remains_eq]
  exact (h.expire (Nat.le_refl now)).lists key

theorem Represents.delete (h : Represents now db memory) (key : String) :
    Agrees now (db.delete key) (memory.apply now (.delete key)) := by
  refine ⟨rfl, ?_⟩
  exact
    { h.expire (Nat.le_refl now) with
      cache := by
        intro other
        show ((db.cache.erase key).find other |>.filter _).map _ =
          (Function.update memory.cache key none other).filter _
        rw [Stored.remains_eq, find_erase]
        by_cases hother : other = key
        · subst hother
          rw [if_pos rfl, update_self]
          rfl
        · rw [if_neg hother, update_of_ne hother]
          exact h.cache_live other
      lists := by
        intro other
        show ((db.lists.deleteWhere fun row => row.listKey = key).select _).map _ =
          (Function.update memory.lists key [] other).filter _
        rw [Stored.remains_eq]
        by_cases hother : other = key
        · subst hother
          rw [SequenceTable.select_deleteWhere_of_imp, update_self]
          · rfl
          · exact fun row hlisted => (and_eq_true_iff.mp hlisted).1
        · rw [SequenceTable.select_deleteWhere, update_of_ne hother]
          · exact h.lists_live other
          · intro row hlisted
            have hkey : row.listKey = other := by
              simpa using (and_eq_true_iff.mp hlisted).1
            simp [hkey, hother] }

theorem Represents.getList (h : Represents now db memory) (picks : ℕ → Bool) (key : String) :
    Agrees now (db.getList now picks key)
      (.ok (.values ((memory.lists key).map Stored.value)), memory) := by
  have hswept := h.deleteExpiredLists picks
  constructor
  · show Except.ok (Answer.values _) = _
    rw [← hswept.lists, List.map_map]
    rfl
  · exact hswept.expire (Nat.le_refl now)

/-- A list after an append, before it is trimmed. -/
def refreshedLists (now : ℕ) (row : ListRow) (lists : SequenceTable ListRow) :
    SequenceTable ListRow :=
  (lists.insert row).updateWhere (SqliteState.listed now row.listKey) fun old =>
    { old with expiresAt := row.expiresAt }

theorem select_refreshedLists (row : ListRow) (lists : SequenceTable ListRow) :
    ((refreshedLists now row lists).select (SqliteState.listed now row.listKey)).map
      ListRow.stored =
      (((lists.select (SqliteState.listed now row.listKey)).map ListRow.stored ++ [row.stored]).map
        fun stored => { stored with expiresAt := row.expiresAt }).filter fun stored =>
          isLive now stored.expiresAt := by
  have hself : SqliteState.listed now row.listKey row = isLive now row.expiresAt := by
    unfold SqliteState.listed
    simp
  -- What is selected after the refresh was selected before, if the new time is not past.
  have hselected : (fun old : ListRow => SqliteState.listed now row.listKey
      (if SqliteState.listed now row.listKey old then { old with expiresAt := row.expiresAt }
        else old)) = fun old =>
          SqliteState.listed now row.listKey old && isLive now row.expiresAt := by
    funext old
    cases hold : SqliteState.listed now row.listKey old with
    | false => simp [hold]
    | true =>
      have hkey : old.listKey = row.listKey := by
        simpa using (and_eq_true_iff.mp hold).1
      simp [SqliteState.listed, hkey]
  unfold refreshedLists
  rw [SequenceTable.select_updateWhere, hselected]
  cases hlive : isLive now row.expiresAt with
  | false =>
    rw [filter_eq_nil_iff.mpr]
    · simp [SequenceTable.select]
    · intro stored hstored
      obtain ⟨before, -, rfl⟩ := mem_map.mp hstored
      simp [hlive]
  | true =>
    simp only [Bool.and_true]
    rw [SequenceTable.select_insert, hself, if_pos hlive, List.filter_eq_self.mpr, List.map_map]
    · rw [List.map_append, List.map_append, List.map_map, List.map_singleton, List.map_singleton]
      congr 1
      · apply map_congr_left
        intro old hold
        have hlisted : SqliteState.listed now row.listKey old = true := (mem_filter.mp hold).2
        simp [hlisted, ListRow.stored]
      · simp [hself, hlive, ListRow.stored]
    · intro stored hstored
      obtain ⟨before, -, rfl⟩ := mem_map.mp hstored
      exact hlive

theorem select_refreshedLists_of_ne {row : ListRow} {lists : SequenceTable ListRow}
    (hother : other ≠ row.listKey) :
    (refreshedLists now row lists).select (SqliteState.listed now other) =
      lists.select (SqliteState.listed now other) := by
  have hselected : (fun old : ListRow => SqliteState.listed now other
      (if SqliteState.listed now row.listKey old then { old with expiresAt := row.expiresAt }
        else old)) = SqliteState.listed now other := by
    funext old
    cases hold : SqliteState.listed now row.listKey old with
    | false => simp
    | true =>
      have hkey : old.listKey = row.listKey := by
        simpa using (and_eq_true_iff.mp hold).1
      simp [SqliteState.listed, hkey, Ne.symm hother]
  unfold refreshedLists
  rw [SequenceTable.select_updateWhere, hselected, SequenceTable.select_insert, if_neg, append_nil]
  · conv_rhs => rw [← map_id (lists.select _)]
    apply map_congr_left
    intro old hold
    have hlisted := listed_disjoint hother old (mem_filter.mp hold).2
    simp [hlisted]
  · simp [SqliteState.listed, Ne.symm hother]

theorem newest_map {α β : Type} (f : α → β) (bound : Option ℕ) (entries : List α) :
    MemoryState.newest bound (entries.map f) = (MemoryState.newest bound entries).map f := by
  cases bound with
  | none => rfl
  | some bound =>
    unfold MemoryState.newest rtake
    rw [map_drop, length_map]

/-- The newest of what expires at one time, live or not. -/
theorem newest_filter {expiresAt : Option ℕ} (bound : Option ℕ) {entries : List Stored}
    (h : ∀ stored ∈ entries, stored.expiresAt = expiresAt) :
    MemoryState.newest bound (entries.filter fun stored => isLive now stored.expiresAt) =
      (MemoryState.newest bound entries).filter fun stored => isLive now stored.expiresAt := by
  have hsublist : (MemoryState.newest bound entries).Sublist entries := by
    cases bound with
    | none => exact .refl _
    | some bound => exact drop_sublist _ _
  cases hlive : isLive now expiresAt with
  | true =>
    rw [filter_eq_self.mpr, filter_eq_self.mpr]
    · intro stored hstored
      rw [h stored (hsublist.subset hstored)]
      exact hlive
    · intro stored hstored
      rw [h stored hstored]
      exact hlive
  | false =>
    rw [filter_eq_nil_iff.mpr, filter_eq_nil_iff.mpr]
    · cases bound with
      | none => rfl
      | some bound => simp [MemoryState.newest, rtake]
    · intro stored hstored
      rw [h stored (hsublist.subset hstored), hlive]
      exact false_ne_true
    · intro stored hstored
      rw [h stored hstored, hlive]
      exact false_ne_true

def trimmedLists (now : ℕ) (key : String) (maxLength : Option ℕ) (lists : SequenceTable ListRow) :
    SequenceTable ListRow :=
  match maxLength with
  | none => lists
  | some maxLength => lists.deleteBeyond (SqliteState.listed now key) maxLength

theorem select_trimmedLists (key : String) (maxLength : Option ℕ) (lists : SequenceTable ListRow) :
    (trimmedLists now key maxLength lists).select (SqliteState.listed now key) =
      MemoryState.newest maxLength (lists.select (SqliteState.listed now key)) := by
  cases maxLength with
  | none => rfl
  | some maxLength => exact SequenceTable.select_deleteBeyond maxLength

theorem select_trimmedLists_of_ne (hother : other ≠ key)
    (maxLength : Option ℕ) (lists : SequenceTable ListRow) :
    (trimmedLists now key maxLength lists).select (SqliteState.listed now other) =
      lists.select (SqliteState.listed now other) := by
  cases maxLength with
  | none => rfl
  | some maxLength =>
    exact SequenceTable.select_deleteBeyond_of_disjoint (listed_disjoint hother) maxLength

theorem Represents.appendToList (h : Represents now db memory) (picks : ℕ → Bool) (key : String)
    (value : Option Json) (maxLength ttlMs : Option ℚ) :
    Agrees now (db.appendToList now picks key value maxLength ttlMs)
      (memory.appendToList now key value maxLength ttlMs) := by
  unfold SqliteState.appendToList MemoryState.appendToList
  simp only [whole_eq, moment_eq, text_eq, mapM_validateBound, mapM_expirationFrom]
  cases hmaxLength : validateOptional maxLength "maxLength" with
  | error message => exact h.agrees _
  | ok maxLength =>
    cases httl : validateOptional ttlMs "ttlMs" with
    | error message => exact h.agrees _
    | ok ttl =>
      have hswept := h.deleteExpiredLists picks
      dsimp only [Except.bind, Except.map]
      unfold transaction
      cases hexpiration : optionalExpiration now ttl with
      | error message => exact h.agrees _
      | ok expiresAt =>
        cases hvalue : serialize value with
        | error message => exact h.agrees _
        | ok value =>
          refine ⟨rfl, ?_⟩
          apply hswept.setLists
          intro other
          show ((trimmedLists now key maxLength (refreshedLists now
            { listKey := key, value, expiresAt } (db.deleteExpiredLists now picks).lists)).select
              _).map ListRow.stored = _
          by_cases hother : other = key
          · subst hother
            have hselect : ((refreshedLists now { listKey := other, value, expiresAt }
                (db.deleteExpiredLists now picks).lists).select
                  (SqliteState.listed now other)).map ListRow.stored =
                ((((db.deleteExpiredLists now picks).lists.select
                  (SqliteState.listed now other)).map ListRow.stored ++
                    [({ value, expiresAt } : Stored)]).map
                    fun stored => { stored with expiresAt := expiresAt }).filter fun stored =>
                      isLive now stored.expiresAt :=
              select_refreshedLists { listKey := other, value, expiresAt } _
            rw [select_trimmedLists, ← newest_map, hselect, hswept.lists, update_self]
            apply newest_filter
            intro stored hstored
            obtain ⟨before, -, rfl⟩ := mem_map.mp hstored
            rfl
          · rw [select_trimmedLists_of_ne hother, select_refreshedLists_of_ne hother,
              update_of_ne hother]
            exact hswept.lists_live other

/-! ### Queues -/

theorem queued_disjoint (hother : other ≠ threadId) (row : QueueRow)
    (h : SqliteState.queued now other row = true) :
    SqliteState.queued now threadId row = false := by
  have hthread : row.threadId = other := by
    simpa using (and_eq_true_iff.mp h).1
  unfold SqliteState.queued
  simp [hthread, hother]

theorem Represents.queue_live (h : Represents now db memory)
    (hentry : entry ∈ memory.queues threadId) :
    (now : ℚ) < entry.expiresAt := by
  have hrow : entry.row threadId ∈ db.queues.select (SqliteState.queued now threadId) := by
    rw [h.queues]
    exact mem_map_of_mem hentry
  have hlive := (and_eq_true_iff.mp (mem_filter.mp hrow).2).2
  exact ((h.valid threadId entry hentry).lt_expiresAt now).mp (of_decide_eq_true hlive)

theorem Represents.changeQueue (h : Represents now db memory) (threadId : String)
    {table : SequenceTable QueueRow} {entries : List QueueEntry}
    (hentries : ∀ entry ∈ entries, entry.Valid ∧ (now : ℚ) < entry.expiresAt)
    (htable : table.select (SqliteState.queued now threadId) =
      entries.map (QueueEntry.row threadId))
    (hothers : ∀ other, other ≠ threadId → table.select (SqliteState.queued now other) =
      db.queues.select (SqliteState.queued now other)) :
    Represents now { db with queues := table }
      ({ memory with queues := Function.update memory.queues threadId entries }.expire now) := by
  apply h.setQueues
  · intro other entry hentry
    by_cases hother : other = threadId
    · subst hother
      rw [update_self] at hentry
      exact (hentries entry hentry).1
    · rw [update_of_ne hother] at hentry
      exact h.valid other entry hentry
  · intro other entry hentry
    by_cases hother : other = threadId
    · subst hother
      rw [update_self] at hentry
      exact (hentries entry hentry).2
    · rw [update_of_ne hother] at hentry
      exact h.queue_live hentry
  · intro other
    by_cases hother : other = threadId
    · subst hother
      rw [update_self]
      exact htable
    · rw [update_of_ne hother, hothers other hother]
      exact h.queues other

theorem rtake_map {α β : Type} (f : α → β) (n : ℕ) (entries : List α) :
    (entries.map f).rtake n = (entries.rtake n).map f :=
  newest_map f (some n) entries

def enqueuedRows (now : ℕ) (threadId : String) (entry : QueueEntry)
    (queues : SequenceTable QueueRow) : SequenceTable QueueRow :=
  if now < entry.expiresAt.num.toNat then queues.insert (entry.row threadId) else queues

theorem Represents.select_enqueuedRows (h : Represents now db memory) (threadId : String)
    (hvalid : entry.Valid) :
    (enqueuedRows now threadId entry db.queues).select (SqliteState.queued now threadId) =
      ((memory.queues threadId ++ [entry]).filter fun entry => (now : ℚ) < entry.expiresAt).map
        (QueueEntry.row threadId) := by
  have hbefore : (memory.queues threadId).filter
      (fun entry => decide ((now : ℚ) < entry.expiresAt)) = memory.queues threadId := by
    rw [filter_eq_self]
    exact fun entry hentry => decide_eq_true (h.queue_live hentry)
  unfold enqueuedRows
  rw [filter_append, hbefore, map_append, ← h.queues]
  by_cases hlive : now < entry.expiresAt.num.toNat
  · have hqueued : SqliteState.queued now threadId (entry.row threadId) = true := by
      simp [SqliteState.queued, QueueEntry.row, hlive]
    have hentry : (now : ℚ) < entry.expiresAt := (hvalid.lt_expiresAt now).mp hlive
    rw [if_pos hlive, SequenceTable.select_insert, if_pos hqueued]
    simp [hentry]
  · have hentry : ¬(now : ℚ) < entry.expiresAt :=
      fun hlt => hlive ((hvalid.lt_expiresAt now).mpr hlt)
    rw [if_neg hlive]
    simp [hentry]

theorem select_enqueuedRows_of_ne (hother : other ≠ threadId)
    (entry : QueueEntry) (queues : SequenceTable QueueRow) :
    (enqueuedRows now threadId entry queues).select (SqliteState.queued now other) =
      queues.select (SqliteState.queued now other) := by
  unfold enqueuedRows
  split
  · rw [SequenceTable.select_insert, if_neg, append_nil]
    simp [SqliteState.queued, QueueEntry.row, Ne.symm hother]
  · rfl

section

variable (h : Represents now db memory)
include h

theorem Represents.enqueue (picks : ℕ → Bool) (threadId : String)
    (entry : QueueEntry) (maxSize : ℚ) : Agrees now (db.enqueue now picks threadId entry maxSize)
      (memory.enqueue now threadId entry maxSize) := by
  unfold SqliteState.enqueue MemoryState.enqueue
  rw [whole_eq]
  cases hmaxSize : validateBound maxSize "maxSize" with
  | error message => exact h.agrees _
  | ok bound =>
    cases henqueuedAt : validateBound entry.enqueuedAt "entry.enqueuedAt" with
    | error message => exact h.agrees _
    | ok enqueuedAt =>
      cases hexpiresAt : validateBound entry.expiresAt "entry.expiresAt" with
      | error message => exact h.agrees _
      | ok expiresAt =>
        have hswept := h.deleteExpiredQueues picks
        obtain ⟨hvalidExpires, rfl⟩ := valid_of_validateBound hexpiresAt
        have hvalid : entry.Valid := ⟨(valid_of_validateBound henqueuedAt).1, hvalidExpires⟩
        have hrows := hswept.select_enqueuedRows threadId hvalid
        have htrimmed : ((enqueuedRows now threadId entry
            (db.deleteExpiredQueues now picks).queues).deleteBeyond
              (SqliteState.queued now threadId) bound).select (SqliteState.queued now threadId) =
            (((memory.queues threadId ++ [entry]).filter fun entry =>
              (now : ℚ) < entry.expiresAt).rtake bound).map (QueueEntry.row threadId) := by
          rw [SequenceTable.select_deleteBeyond, hrows, rtake_map]
        constructor
        · show Except.ok (Answer.depth (((enqueuedRows now threadId entry
            (db.deleteExpiredQueues now picks).queues).deleteBeyond
              (SqliteState.queued now threadId) bound).select
                (SqliteState.queued now threadId)).length) = _
          rw [htrimmed, length_map]
          rfl
        · apply hswept.changeQueue threadId _ htrimmed
          · intro other hother
            rw [SequenceTable.select_deleteBeyond_of_disjoint (queued_disjoint hother)]
            exact select_enqueuedRows_of_ne hother entry _
          · intro left hleft
            obtain ⟨hmem, hlive⟩ := mem_filter.mp ((drop_sublist _ _).subset hleft)
            refine ⟨?_, of_decide_eq_true hlive⟩
            rcases mem_append.mp hmem with hmem | hmem
            · exact h.valid threadId left hmem
            · rw [mem_singleton.mp hmem]
              exact hvalid

theorem Represents.dequeue (picks : ℕ → Bool) (threadId : String) :
    Agrees now (db.dequeue now picks threadId)
      (.ok (.entry (memory.queues threadId).head?),
        { memory with
          queues := Function.update memory.queues threadId (memory.queues threadId).tail }) := by
  have hswept := h.deleteExpiredQueues picks
  obtain ⟨hanswer, hrest, hothers⟩ := SequenceTable.deleteOldest_spec
    (t := (db.deleteExpiredQueues now picks).queues) (p := SqliteState.queued now threadId)
  rw [hswept.queues] at hanswer hrest
  have hchanged : Represents now { db.deleteExpiredQueues now picks with
      queues := ((db.deleteExpiredQueues now picks).queues.deleteOldest
        (SqliteState.queued now threadId)).2 }
      ({ memory with
        queues := Function.update memory.queues threadId (memory.queues threadId).tail }.expire
          now) := by
    apply hswept.changeQueue threadId
    · intro entry hentry
      have hmem := mem_of_mem_tail hentry
      exact ⟨h.valid threadId entry hmem, h.queue_live hmem⟩
    · rw [hrest, map_tail]
    · exact fun other hother => hothers _ (queued_disjoint hother)
  unfold SqliteState.dequeue transaction
  dsimp only
  rw [hanswer]
  cases hqueue : memory.queues threadId with
  | nil =>
    rw [hqueue] at hchanged
    exact ⟨rfl, hchanged⟩
  | cons entry rest =>
    rw [hqueue] at hchanged
    have hvalid : entry.Valid := h.valid threadId entry (by rw [hqueue]; exact mem_cons_self)
    have hread : deserializeQueueEntry (entry.row threadId).value = .ok entry := hvalid.deserialize
    simp only [map_cons, head?_cons, hread]
    exact ⟨rfl, hchanged⟩

theorem Represents.queueDepth (picks : ℕ → Bool) (threadId : String) :
    Agrees now (db.queueDepth now picks threadId)
      (.ok (.depth (memory.queues threadId).length), memory) := by
  have hswept := h.deleteExpiredQueues picks
  constructor
  · show Except.ok (Answer.depth ((db.deleteExpiredQueues now picks).queues.select _).length) = _
    rw [hswept.queues, length_map]
  · exact hswept.expire (Nat.le_refl now)

/-! ### Subscriptions -/

theorem Represents.subscribe (threadId : String) :
    Agrees now (db.subscribe threadId) (memory.apply now (.subscribe threadId)) := by
  refine ⟨rfl, ?_⟩
  apply h.setSubscriptions
  intro other
  cases hfind : db.subscriptions.find threadId with
  | none =>
    obtain ⟨table, htable⟩ := exists_insert hfind
    rw [htable, getD_some, find_insert htable, id_eq]
    by_cases hother : other = threadId
    · subst hother
      rw [if_pos rfl, update_self]
      rfl
    · rw [if_neg (Ne.symm hother), update_of_ne hother]
      exact h.subscriptions other
  | some found =>
    -- A row with this key is there already.
    have hignored : db.subscriptions.insert threadId = none := by
      cases hinsert : db.subscriptions.insert threadId with
      | none => rfl
      | some table =>
        have hnone := (insert_eq_some_iff.mp hinsert).1
        rw [show id threadId = threadId from rfl, hfind] at hnone
        cases hnone
    rw [hignored, getD_none]
    by_cases hother : other = threadId
    · subst hother
      rw [update_self, hfind]
      rfl
    · rw [update_of_ne hother]
      exact h.subscriptions other

theorem Represents.unsubscribe (threadId : String) :
    Agrees now (db.unsubscribe threadId) (memory.apply now (.unsubscribe threadId)) := by
  refine ⟨rfl, ?_⟩
  apply h.setSubscriptions
  intro other
  rw [find_erase]
  by_cases hother : other = threadId
  · subst hother
    rw [if_pos rfl, update_self]
    rfl
  · rw [if_neg hother, update_of_ne hother]
    exact h.subscriptions other

theorem Represents.isSubscribed (threadId : String) :
    Agrees now (db.isSubscribed threadId) (memory.apply now (.isSubscribed threadId)) := by
  refine ⟨?_, h.expire (Nat.le_refl now)⟩
  show Except.ok (Answer.flag _) = Except.ok (Answer.flag _)
  rw [h.subscriptions]

/-! ## Runs -/

theorem Represents.apply (picks : ℕ → Bool) (operation : Operation) :
    Agrees now (db.perform now picks operation) (memory.apply now operation) := by
  cases operation with
  | subscribe threadId => exact h.subscribe threadId
  | unsubscribe threadId => exact h.unsubscribe threadId
  | isSubscribed threadId => exact h.isSubscribed threadId
  | acquireLock threadId ttlMs token => exact h.acquireLock picks threadId ttlMs token
  | forceReleaseLock threadId => exact h.forceReleaseLock threadId
  | releaseLock lock => exact h.releaseLock lock
  | extendLock lock ttlMs => exact h.extendLock lock ttlMs
  | get key => exact h.get key
  | set key value ttlMs => exact h.set picks key value ttlMs
  | setIfNotExists key value ttlMs => exact h.setIfNotExists picks key value ttlMs
  | delete key => exact h.delete key
  | appendToList key value maxLength ttlMs =>
    exact h.appendToList picks key value maxLength ttlMs
  | getList key => exact h.getList picks key
  | enqueue threadId entry maxSize => exact h.enqueue picks threadId entry maxSize
  | dequeue threadId => exact h.dequeue picks threadId
  | queueDepth threadId => exact h.queueDepth picks threadId

end

structure ChatRun (σ : Type) where
  now : ℕ
  state : σ
  answers : List (Except String Answer)

def sqliteStep (request : Request) (run : ChatRun SqliteState) : ChatRun SqliteState :=
  let now := run.now + request.elapsed
  let outcome := run.state.perform now request.picks request.operation
  { now, state := outcome.2, answers := run.answers ++ [outcome.1] }

def memoryStep (request : Request) (run : ChatRun MemoryState) : ChatRun MemoryState :=
  let now := run.now + request.elapsed
  let outcome := run.state.perform now request.operation
  { now, state := outcome.2, answers := run.answers ++ [outcome.1] }

structure SideBySide (run : ChatRun SqliteState) (run' : ChatRun MemoryState) : Prop where
  now : run.now = run'.now
  answers : run.answers = run'.answers
  state : Represents run.now run.state run'.state

theorem SideBySide.step {run : ChatRun SqliteState} {run' : ChatRun MemoryState}
    (h : SideBySide run run') (request : Request) :
    SideBySide (sqliteStep request run) (memoryStep request run') := by
  have hlater := h.state.expire (Nat.le_add_right run.now request.elapsed)
  obtain ⟨hanswer, hstate⟩ := hlater.apply request.picks request.operation
  constructor
  · show run.now + request.elapsed = run'.now + request.elapsed
    rw [h.now]
  · unfold sqliteStep memoryStep MemoryState.perform
    dsimp only
    rw [h.answers, hanswer, h.now]
  · unfold sqliteStep memoryStep MemoryState.perform
    dsimp only
    rw [← h.now]
    exact hstate

theorem SideBySide.finalState {run : ChatRun SqliteState} {run' : ChatRun MemoryState}
    (h : SideBySide run run') (requests : List Request) :
    SideBySide (finalState sqliteStep run requests) (finalState memoryStep run' requests) := by
  induction requests generalizing run run' with
  | nil => exact h
  | cons request requests ih => exact ih (h.step request)

theorem Represents.expire_eq (h : Represents now db memory) : memory.expire now = memory := by
  have hnow := h.expire (Nat.le_refl now)
  have hqueues : (memory.expire now).queues = memory.queues := by
    funext threadId
    show (memory.queues threadId).filter _ = _
    rw [filter_eq_self]
    exact fun entry hentry => decide_eq_true (h.queue_live hentry)
  have hlocks : (memory.expire now).locks = memory.locks :=
    funext fun threadId => (hnow.locks threadId).symm.trans (h.locks threadId)
  have hcache : (memory.expire now).cache = memory.cache :=
    funext fun key => (hnow.cache key).symm.trans (h.cache key)
  have hlists : (memory.expire now).lists = memory.lists :=
    funext fun key => (hnow.lists key).symm.trans (h.lists key)
  cases memory
  simp only [MemoryState.expire] at hqueues hlocks hcache hlists ⊢
  rw [hqueues, hlocks, hcache, hlists]

theorem Represents.releaseLock_of_old (h : Represents now db memory) {lock : Lock}
    (hold : ∀ held, memory.locks lock.threadId = some held → held.token ≠ lock.token) :
    Represents now (db.releaseLock lock).2 memory := by
  have hstate := (h.releaseLock lock).state
  have hkept : (memory.releaseLock lock).2 = memory := by
    unfold MemoryState.releaseLock
    have hlocks : (memory.locks lock.threadId).filter
        (fun held => decide (held.token ≠ lock.token)) = memory.locks lock.threadId := by
      cases hheld : memory.locks lock.threadId with
      | none => rfl
      | some held => simp [Option.filter, hold held hheld]
    rw [hlocks, update_eq_self]
  rw [hkept, h.expire_eq] at hstate
  exact hstate

/-- While a lock is held nobody is handed out another one. -/
theorem Represents.acquireLock_of_held (h : Represents now db memory) {held : Lock}
    (hheld : memory.locks threadId = some held) {elapsed : ℕ}
    (hlive : now + elapsed < held.expiresAt) (picks : ℕ → Bool) (ttlMs : ℚ) (token : String)
    (lock : Lock) : (db.perform (now + elapsed) picks (.acquireLock threadId ttlMs token)).1 ≠
      .ok (.lock (some lock)) := by
  have hlater := h.expire (Nat.le_add_right now elapsed)
  rw [(hlater.apply picks (.acquireLock threadId ttlMs token)).answer]
  have hstill : (memory.expire (now + elapsed)).locks threadId = some held := by
    show (memory.locks threadId).filter _ = _
    rw [hheld, filter_some, if_pos (decide_eq_true hlive)]
  unfold MemoryState.apply MemoryState.acquireLock
  dsimp only
  rw [hstill]
  split
  · nofun
  · nofun

/-- **The chat state is plain maps, lists, queues and locks.** Every sequence of operations is
answered as in memory, where everything expired is removed at once, and the live rows are what is
in memory. So no two unexpired locks are of one thread, nobody gets a lock while another is held,
and releasing with a token that holds none changes nothing. -/
theorem answers_as_in_memory (requests : List Request) :
    let run := finalState sqliteStep { now := 0, state := .empty, answers := [] } requests
    let run' := finalState memoryStep { now := 0, state := .empty, answers := [] } requests
    run.answers = run'.answers ∧ Represents run.now run.state run'.state ∧
      (∀ lock ∈ run.state.locks.rows, ∀ lock' ∈ run.state.locks.rows,
        run.now < lock.expiresAt → run.now < lock'.expiresAt → lock.threadId = lock'.threadId →
          lock = lock') ∧
      (∀ threadId held, run'.state.locks threadId = some held → ∀ elapsed picks ttlMs token lock,
        run.now + elapsed < held.expiresAt → (run.state.perform (run.now + elapsed) picks
          (.acquireLock threadId ttlMs token)).1 ≠ .ok (.lock (some lock))) ∧
      ∀ lock : Lock, (∀ held, run'.state.locks lock.threadId = some held →
        held.token ≠ lock.token) →
          Represents run.now (run.state.releaseLock lock).2 run'.state := by
  intro run run'
  have hstart : SideBySide { now := 0, state := .empty, answers := [] }
      { now := 0, state := .empty, answers := [] } :=
    ⟨rfl, rfl, represents_empty 0⟩
  have hfinal : SideBySide run run' := hstart.finalState requests
  refine ⟨hfinal.answers, hfinal.state, ?_, ?_, fun lock => hfinal.state.releaseLock_of_old⟩
  · intro lock hlock lock' hlock' _ _ hthread
    have hfind := find_key hlock
    rw [hthread, find_key hlock'] at hfind
    exact (some.inj hfind).symm
  · intro threadId held hheld elapsed picks ttlMs token lock hlive
    exact hfinal.state.acquireLock_of_held hheld hlive picks ttlMs token lock

/-- A lock for a second, which a second caller gets when it has expired; the first one's release
then comes too late. -/
def lockRequests : List Request :=
  [⟨0, fun _ => false, .acquireLock "t" 1000 "first"⟩,
    ⟨999, fun _ => false, .acquireLock "t" 1000 "second"⟩,
    ⟨1, fun _ => false, .acquireLock "t" 1000 "second"⟩,
    ⟨0, fun _ => false, .releaseLock ⟨"t", "first", 1000⟩⟩,
    ⟨999, fun _ => false, .acquireLock "t" 1000 "third"⟩,
    ⟨0, fun _ => true, .acquireLock "t" 9007199254740991 "third"⟩]

theorem answers_as_in_memory_lockRequests :
    (finalState sqliteStep { now := 0, state := .empty, answers := [] } lockRequests).answers =
      [.ok (.lock (some ⟨"t", "first", 1000⟩)), .ok (.lock none),
        .ok (.lock (some ⟨"t", "second", 2000⟩)), .ok .done, .ok (.lock none),
        .error "Chat state expiration exceeds SQLite's safe integer range"] :=
  (answers_as_in_memory lockRequests).1.trans rfl

end Laborer.ChatPlane
