import Laborer.Library.Decoder
import Laborer.Library.ExpiringRows
import Laborer.Library.Json
import Laborer.Library.Transactions

/-!
# The SQLite chat state

The tables of the chat state adapter and its operations, statement by statement. A `value`
column is kept as the value it is the JSON text of. Every operation reads the clock once; which
of the expired rows a bounded cleanup takes is up to SQLite, so it is an argument.
-/

namespace Laborer.ChatPlane

open Library

/-- A lock as it is handed out, and its row. -/
structure Lock where
  threadId : String
  token : String
  expiresAt : ℕ

structure CacheRow where
  cacheKey : String
  value : Json
  expiresAt : Option ℕ

structure ListRow where
  listKey : String
  value : Json
  expiresAt : Option ℕ

structure QueueRow where
  threadId : String
  value : Json
  expiresAt : ℕ

/-- `typeof value === 'object' && value !== null`. -/
def isObject : Json → Bool
  | .arr _ => true
  | .obj _ => true
  | _ => false

/-- A queued message; the type of `message` is an object. -/
structure QueueEntry where
  message : Json
  enqueuedAt : ℚ
  expiresAt : ℚ
  messageIsObject : isObject message = true

/-! ## Checks -/

def validateBound (value : ℚ) (field : String) : Except String ℕ :=
  if Decoder.isSafeInteger value = true ∧ 0 ≤ value then .ok value.num.toNat
  else .error (field ++ " must be a non-negative integer")

def validateOptional (value : Option ℚ) (field : String) : Except String (Option ℕ) :=
  match value with
  | none => .ok none
  | some value => (validateBound value field).map some

def expirationFrom (now ttlMs : ℕ) : Except String ℕ :=
  if now + ttlMs < 2 ^ 53 then .ok (now + ttlMs)
  else .error "Chat state expiration exceeds SQLite's safe integer range"

def optionalExpiration (now : ℕ) (ttlMs : Option ℕ) : Except String (Option ℕ) :=
  match ttlMs with
  | none => .ok none
  | some ttlMs => (expirationFrom now ttlMs).map some

/-- `none` is a value without a JSON text. -/
def serialize (value : Option Json) : Except String Json :=
  match value with
  | none => .error "Chat state value is not JSON serializable"
  | some value => .ok value

namespace QueueEntry

def toJson (entry : QueueEntry) : Json :=
  .obj
    [("message", entry.message), ("enqueuedAt", .num entry.enqueuedAt),
      ("expiresAt", .num entry.expiresAt)]

end QueueEntry

/-- A missing time, or one that is no number, is checked as `NaN`. -/
def validateJsonBound (value : Option Json) (field : String) : Except String ℚ :=
  match value.bind Json.num? with
  | none => .error (field ++ " must be a non-negative integer")
  | some value => (validateBound value field).map fun _ => value

def deserializeQueueEntry (value : Json) : Except String QueueEntry :=
  match value.get? "message" with
  | none => .error "Corrupt SQLite chat state: invalid queue entry"
  | some message => do
    let enqueuedAt ← validateJsonBound (value.get? "enqueuedAt") "entry.enqueuedAt"
    let expiresAt ← validateJsonBound (value.get? "expiresAt") "entry.expiresAt"
    if h : isObject message = true then
      .ok { message, enqueuedAt, expiresAt, messageIsObject := h }
    else .error "Corrupt SQLite chat state: invalid queued message"

/-! ## Tables -/

structure SqliteState where
  subscriptions : Table String id
  locks : Table Lock Lock.threadId
  cache : Table CacheRow CacheRow.cacheKey
  lists : SequenceTable ListRow
  queues : SequenceTable QueueRow

def expirationCleanupBatchSize : ℕ := 256

inductive Answer where
  | done
  | flag (holds : Bool)
  | lock (lock : Option Lock)
  | value (value : Json)
  | values (values : List Json)
  | depth (depth : ℕ)
  | entry (entry : Option QueueEntry)

inductive Operation where
  | subscribe (threadId : String)
  | unsubscribe (threadId : String)
  | isSubscribed (threadId : String)
  | acquireLock (threadId : String) (ttlMs : ℚ) (token : String)
  | forceReleaseLock (threadId : String)
  | releaseLock (lock : Lock)
  | extendLock (lock : Lock) (ttlMs : ℚ)
  | get (key : String)
  | set (key : String) (value : Option Json) (ttlMs : Option ℚ)
  | setIfNotExists (key : String) (value : Option Json) (ttlMs : Option ℚ)
  | delete (key : String)
  | appendToList (key : String) (value : Option Json) (maxLength ttlMs : Option ℚ)
  | getList (key : String)
  | enqueue (threadId : String) (entry : QueueEntry) (maxSize : ℚ)
  | dequeue (threadId : String)
  | queueDepth (threadId : String)

namespace SqliteState

def empty : SqliteState where
  subscriptions := .empty
  locks := .empty
  cache := .empty
  lists := .empty
  queues := .empty

/-- What a statement outside a transaction did stays when a later one throws. -/
abbrev Outcome := Except String Answer × SqliteState

variable (now : ℕ) (picks : ℕ → Bool)

/-! ## `#deleteExpired` -/

def deleteExpiredLocks (db : SqliteState) : SqliteState :=
  { db with locks := db.locks.sweep (some ∘ Lock.expiresAt) now picks expirationCleanupBatchSize }

def deleteExpiredCache (db : SqliteState) : SqliteState :=
  { db with cache := db.cache.sweep CacheRow.expiresAt now picks expirationCleanupBatchSize }

def deleteExpiredLists (db : SqliteState) : SqliteState :=
  { db with lists := db.lists.sweep ListRow.expiresAt now picks expirationCleanupBatchSize }

def deleteExpiredQueues (db : SqliteState) : SqliteState :=
  { db with
    queues := db.queues.sweep (some ∘ QueueRow.expiresAt) now picks expirationCleanupBatchSize }

/-! ## Subscriptions and locks -/

def subscribe (threadId : String) (db : SqliteState) : Outcome :=
  (.ok .done, { db with subscriptions := (db.subscriptions.insert threadId).getD db.subscriptions })

def unsubscribe (threadId : String) (db : SqliteState) : Outcome :=
  (.ok .done, { db with subscriptions := db.subscriptions.erase threadId })

def isSubscribed (threadId : String) (db : SqliteState) : Outcome :=
  (.ok (.flag (db.subscriptions.find threadId).isSome), db)

def acquireLock (threadId : String) (ttlMs : ℚ) (token : String) (db : SqliteState) : Outcome :=
  match validateBound ttlMs "ttlMs" with
  | .error message => (.error message, db)
  | .ok ttlMs =>
    let swept := db.deleteExpiredLocks now picks
    match expirationFrom now ttlMs with
    | .error message => (.error message, swept)
    | .ok expiresAt =>
      let lock := { threadId, token, expiresAt }
      let result := swept.locks.upsertWhere lock fun held => held.expiresAt ≤ now
      (.ok (.lock (if result.1 = 0 then none else some lock)), { swept with locks := result.2 })

def forceReleaseLock (threadId : String) (db : SqliteState) : Outcome :=
  (.ok .done, { db with locks := db.locks.erase threadId })

def releaseLock (lock : Lock) (db : SqliteState) : Outcome :=
  let result := db.locks.deleteWhere lock.threadId fun held => held.token = lock.token
  (.ok .done, { db with locks := result.2 })

def extendLock (lock : Lock) (ttlMs : ℚ) (db : SqliteState) : Outcome :=
  match validateBound ttlMs "ttlMs" with
  | .error message => (.error message, db)
  | .ok ttlMs =>
    match expirationFrom now ttlMs with
    | .error message => (.error message, db)
    | .ok expiresAt =>
      let result := db.locks.updateWhere lock.threadId
        (fun held => held.token = lock.token && now < held.expiresAt)
        (fun held => { held with expiresAt := expiresAt }) fun _ => rfl
      (.ok (.flag (result.1 > 0)), { db with locks := result.2 })

/-! ## The cache -/

def get (key : String) (db : SqliteState) : Outcome :=
  transaction (fun db =>
    match (db.cache.find key).filter fun row => isLive now row.expiresAt with
    | none =>
      let result := db.cache.deleteWhere key fun row => !isLive now row.expiresAt
      .ok (.value .null, { db with cache := result.2 })
    | some row => .ok (.value row.value, db)) db

def set (key : String) (value : Option Json) (ttlMs : Option ℚ) (db : SqliteState) : Outcome :=
  match validateOptional ttlMs "ttlMs" with
  | .error message => (.error message, db)
  | .ok ttlMs =>
    let swept := db.deleteExpiredCache now picks
    match (serialize value).bind fun value =>
      (optionalExpiration now ttlMs).map fun expiresAt => (value, expiresAt) with
    | .error message => (.error message, swept)
    | .ok (value, expiresAt) =>
      let result := swept.cache.upsertWhere { cacheKey := key, value, expiresAt } fun _ => true
      (.ok .done, { swept with cache := result.2 })

def setIfNotExists (key : String) (value : Option Json) (ttlMs : Option ℚ) (db : SqliteState) :
    Outcome :=
  match validateOptional ttlMs "ttlMs" with
  | .error message => (.error message, db)
  | .ok ttlMs =>
    let swept := db.deleteExpiredCache now picks
    match (serialize value).bind fun value =>
      (optionalExpiration now ttlMs).map fun expiresAt => (value, expiresAt) with
    | .error message => (.error message, swept)
    | .ok (value, expiresAt) =>
      let result := swept.cache.upsertWhere { cacheKey := key, value, expiresAt } fun held =>
        !isLive now held.expiresAt
      (.ok (.flag (result.1 > 0)), { swept with cache := result.2 })

/-- One key names a cached value and a list. -/
def delete (key : String) (db : SqliteState) : Outcome :=
  transaction (fun db =>
    .ok (.done,
      { db with
        cache := db.cache.erase key
        lists := db.lists.deleteWhere fun row => row.listKey = key })) db

/-! ## Lists -/

def listed (key : String) (row : ListRow) : Bool := row.listKey = key && isLive now row.expiresAt

def appendToList (key : String) (value : Option Json) (maxLength ttlMs : Option ℚ)
    (db : SqliteState) : Outcome :=
  match (validateOptional maxLength "maxLength").bind fun maxLength =>
    (validateOptional ttlMs "ttlMs").map fun ttlMs => (maxLength, ttlMs) with
  | .error message => (.error message, db)
  | .ok (maxLength, ttlMs) =>
    transaction (fun db => do
      let swept := db.deleteExpiredLists now picks
      let expiresAt ← optionalExpiration now ttlMs
      let value ← serialize value
      let inserted := swept.lists.insert { listKey := key, value, expiresAt }
      let refreshed := inserted.updateWhere (listed now key) fun row =>
        { row with expiresAt := expiresAt }
      let trimmed := match maxLength with
        | none => refreshed
        | some maxLength => refreshed.deleteBeyond (listed now key) maxLength
      .ok (.done, { swept with lists := trimmed })) db

def getList (key : String) (db : SqliteState) : Outcome :=
  transaction (fun db =>
    let swept := db.deleteExpiredLists now picks
    .ok (.values ((swept.lists.select (listed now key)).map ListRow.value), swept)) db

/-! ## Queues -/

def queued (threadId : String) (row : QueueRow) : Bool :=
  row.threadId = threadId && now < row.expiresAt

def enqueue (threadId : String) (entry : QueueEntry) (maxSize : ℚ) (db : SqliteState) : Outcome :=
  match (validateBound maxSize "maxSize").bind fun maxSize =>
    (validateBound entry.enqueuedAt "entry.enqueuedAt").bind fun _ =>
      (validateBound entry.expiresAt "entry.expiresAt").map fun expiresAt =>
        (maxSize, expiresAt) with
  | .error message => (.error message, db)
  | .ok (maxSize, expiresAt) =>
    transaction (fun db =>
      let swept := db.deleteExpiredQueues now picks
      let inserted :=
        if now < expiresAt then swept.queues.insert { threadId, value := entry.toJson, expiresAt }
        else swept.queues
      let trimmed := inserted.deleteBeyond (queued now threadId) maxSize
      .ok (.depth (trimmed.select (queued now threadId)).length, { swept with queues := trimmed }))
      db

def dequeue (threadId : String) (db : SqliteState) : Outcome :=
  transaction (fun db =>
    let swept := db.deleteExpiredQueues now picks
    let result := swept.queues.deleteOldest (queued now threadId)
    match result.1 with
    | none => .ok (.entry none, { swept with queues := result.2 })
    | some row => (deserializeQueueEntry row.value).map fun entry =>
      (.entry (some entry), { swept with queues := result.2 })) db

def queueDepth (threadId : String) (db : SqliteState) : Outcome :=
  let swept := db.deleteExpiredQueues now picks
  (.ok (.depth (swept.queues.select (queued now threadId)).length), swept)

def perform (operation : Operation) (db : SqliteState) : Outcome :=
  match operation with
  | .subscribe threadId => db.subscribe threadId
  | .unsubscribe threadId => db.unsubscribe threadId
  | .isSubscribed threadId => db.isSubscribed threadId
  | .acquireLock threadId ttlMs token => db.acquireLock now picks threadId ttlMs token
  | .forceReleaseLock threadId => db.forceReleaseLock threadId
  | .releaseLock lock => db.releaseLock lock
  | .extendLock lock ttlMs => db.extendLock now lock ttlMs
  | .get key => db.get now key
  | .set key value ttlMs => db.set now picks key value ttlMs
  | .setIfNotExists key value ttlMs => db.setIfNotExists now picks key value ttlMs
  | .delete key => db.delete key
  | .appendToList key value maxLength ttlMs => db.appendToList now picks key value maxLength ttlMs
  | .getList key => db.getList now picks key
  | .enqueue threadId entry maxSize => db.enqueue now picks threadId entry maxSize
  | .dequeue threadId => db.dequeue now picks threadId
  | .queueDepth threadId => db.queueDepth now picks threadId

end SqliteState

/-- An operation of some connection: how long after the last one it reads the clock, and which
expired rows its cleanup takes. -/
structure Request where
  elapsed : ℕ
  picks : ℕ → Bool
  operation : Operation

end Laborer.ChatPlane
