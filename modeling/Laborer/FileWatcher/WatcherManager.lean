import Laborer.Library.OrderedMap
import Laborer.Library.Runs

/-!
# The watcher manager

Subscriptions to directories, each with a watcher of the backend behind it. Making a watcher
is waited for, and an update of what a subscription ignores closes its watcher and makes
another one. What a subscription keeps is an object that every call on it shares.
-/

namespace Laborer.FileWatcher

open Library

/-! ## Ignore rules -/

def defaultIgnoredPrefixes : List String :=
  [".git", "node_modules", "dist", "build", "out", ".next", ".nuxt", ".svelte-kit", ".turbo",
    ".yarn", ".pnpm-store", ".idea", ".vscode", ".DS_Store", "Thumbs.db", "coverage",
    ".nyc_output", ".laborer-state"]

def rootOnlyIgnoredPrefixes : List String := [".git"]

/-- A path is silenced by its first segment, and by any segment unless the name is ignored at
the root only. -/
def shouldIgnore (relativePath : String) (ignoredPrefixes : List String) : Bool :=
  if relativePath = "" then true
  else
    let segments := (relativePath.toList.splitOn '/').map String.ofList
    ignoredPrefixes.any fun pathStart =>
      if segments.head? = some pathStart ∨ relativePath = pathStart then true
      else if rootOnlyIgnoredPrefixes.contains pathStart then false
      else segments.contains pathStart

/-- What the native backend is given to ignore. -/
def toNativeIgnoreEntries (prefixes callerGlobs : List String) : List String :=
  distinct (callerGlobs ++ prefixes.flatMap fun pathStart =>
    pathStart :: if rootOnlyIgnoredPrefixes.contains pathStart then []
      else ["**/" ++ pathStart ++ "/**"])

def mergeIgnorePrefixes (additional : List String) : List String :=
  if additional = [] then defaultIgnoredPrefixes
  else distinct (defaultIgnoredPrefixes ++ additional)

def fromWatcherIgnoreGlobs (globs : List String) : List String :=
  globs.map fun glob =>
    if "/**".toList.isSuffixOf glob.toList then
      String.ofList (glob.toList.take (glob.toList.length - 3))
    else glob

/-! ## Events -/

inductive RawKind where
  | rename
  | change

inductive NativeKind where
  | create
  | update
  | delete

inductive EventType where
  | add
  | change
  | delete

/-- An event of the backend, with what the file system says of its path: the path relative to
the one that is watched, and whether there is anything. -/
structure WatchEvent where
  kind : RawKind
  nativeKind : Option NativeKind
  fileName : Option String
  relPath : String
  pathExists : Bool

def resolveEventType (event : WatchEvent) : EventType :=
  match event.nativeKind with
  | some .create => .add
  | some .update => .change
  | some .delete => .delete
  | none =>
    match event.kind with
    | .rename => if event.pathExists then .add else .delete
    | .change => .change

structure WatchFileEvent where
  subscriptionId : ℕ
  type : EventType
  fileName : Option String
  absolutePath : String

/-! ## The backend -/

/-- What a driver makes of a request: a watcher, `null` for a path that is not there, or a
failure. -/
inductive DriverOutcome where
  | opened
  | missing
  | failed (message : String)

inductive FileWatcherBackendName where
  | fs
  | native

def makeFileWatcher (preferredBackend : FileWatcherBackendName) (native fs : DriverOutcome) :
    DriverOutcome :=
  match preferredBackend with
  | .fs => fs
  | .native =>
    match native with
    | .failed _ => fs
    | outcome => outcome

/-- A watcher of the backend and what it was asked for. One that is closed delivers nothing. -/
structure Watcher where
  subscriptionId : ℕ
  path : String
  recursive : Bool
  ignore : List String
  isOpen : Bool

/-! ## State -/

structure ManagedSubscription where
  path : String
  recursive : Bool
  ignoreGlobs : List String
  ignorePrefixes : List String
  watchSubscription : Option ℕ

def ManagedSubscription.ignoreEntries (managed : ManagedSubscription) : List String :=
  toNativeIgnoreEntries managed.ignorePrefixes managed.ignoreGlobs

/-- A call that waits for the backend: what it has asked for, and what it has got, which is no
watcher for `null` and for a failure. -/
structure PendingCall where
  id : ℕ
  path : String
  recursive : Bool
  ignore : List String
  outcome : Option (Option ℕ)

/-- The manager and its backend. A subscription is named by the number in its id, its object
stays when it leaves the list. Whether the last creation for an id succeeded, the ids an
unsubscribe has returned for, and which events were of these are kept for the statements. -/
structure WatcherManager where
  nextId : ℕ
  objects : OrderedMap ℕ ManagedSubscription
  subscriptions : List ℕ
  calls : List PendingCall
  watchers : List Watcher
  lastCreations : OrderedMap ℕ Bool
  unsubscribed : List ℕ
  fileEvents : List (WatchFileEvent × Bool)

inductive WatcherEvent where
  | subscribe (path : String) (recursive : Option Bool) (ignoreGlobs : Option (List String))
  | unsubscribe (id : ℕ)
  | updateIgnore (id : ℕ) (ignoreGlobs : List String)
  | settles (call : ℕ) (native fs : DriverOutcome)
  | finishes (call : ℕ)
  | occurs (watcher : ℕ) (event : WatchEvent)

namespace WatcherManager

def initial : WatcherManager where
  nextId := 0
  objects := []
  subscriptions := []
  calls := []
  watchers := []
  lastCreations := []
  unsubscribed := []
  fileEvents := []

def close (handle : Option ℕ) (watchers : List Watcher) : List Watcher :=
  match handle with
  | none => watchers
  | some number => watchers.modify number fun watcher => { watcher with isOpen := false }

/-- `createWatchSubscription` up to where the backend is waited for. -/
def createWatchSubscription (id : ℕ) (managed : ManagedSubscription) (manager : WatcherManager) :
    WatcherManager :=
  { manager with
    objects := manager.objects.set id managed
    calls := manager.calls ++
      [{ id := id, path := managed.path, recursive := managed.recursive,
         ignore := managed.ignoreEntries, outcome := none }] }

def subscribe (path : String) (recursive : Option Bool) (ignoreGlobs : Option (List String))
    (manager : WatcherManager) : WatcherManager :=
  let id := manager.nextId + 1
  let globs := ignoreGlobs.getD []
  { manager with nextId := id }.createWatchSubscription id
    { path := path
      recursive := recursive.getD true
      ignoreGlobs := globs
      ignorePrefixes := mergeIgnorePrefixes (fromWatcherIgnoreGlobs globs)
      watchSubscription := none }

def unsubscribe (id : ℕ) (manager : WatcherManager) : WatcherManager :=
  let returned := { manager with unsubscribed := manager.unsubscribed ++ [id] }
  if id ∈ manager.subscriptions then
    match manager.objects.get? id with
    | none => returned
    | some existing =>
      { returned with
        watchers := close existing.watchSubscription manager.watchers
        subscriptions := manager.subscriptions.filter (· ≠ id) }
  else returned

def updateIgnore (id : ℕ) (ignoreGlobs : List String) (manager : WatcherManager) :
    WatcherManager :=
  if id ∈ manager.subscriptions then
    match manager.objects.get? id with
    | none => manager
    | some existing =>
      { manager with
        watchers := close existing.watchSubscription manager.watchers }.createWatchSubscription id
        { existing with
          ignoreGlobs := ignoreGlobs
          ignorePrefixes := mergeIgnorePrefixes (fromWatcherIgnoreGlobs ignoreGlobs) }
  else manager

def settles (preferredBackend : FileWatcherBackendName) (number : ℕ) (native fs : DriverOutcome)
    (manager : WatcherManager) : WatcherManager :=
  match manager.calls[number]? with
  | none => manager
  | some call =>
    match call.outcome with
    | some _ => manager
    | none =>
      match makeFileWatcher preferredBackend native fs with
      | .opened =>
        { manager with
          calls := manager.calls.set number
            { call with outcome := some (some manager.watchers.length) }
          watchers := manager.watchers ++
            [{ subscriptionId := call.id, path := call.path, recursive := call.recursive,
               ignore := call.ignore, isOpen := true }]
          lastCreations := manager.lastCreations.set call.id true }
      | _ =>
        { manager with
          calls := manager.calls.set number { call with outcome := some none }
          lastCreations := manager.lastCreations.set call.id false }

/-- A call goes on with what the backend has given it: the object gets the watcher and is put
into the list. -/
def finishes (number : ℕ) (manager : WatcherManager) : WatcherManager :=
  match manager.calls[number]? with
  | none => manager
  | some call =>
    match call.outcome, manager.objects.get? call.id with
    | some handle, some managed =>
      { manager with
        objects := manager.objects.set call.id { managed with watchSubscription := handle }
        subscriptions :=
          if call.id ∈ manager.subscriptions then manager.subscriptions
          else manager.subscriptions ++ [call.id]
        calls := manager.calls.eraseIdx number }
    | _, _ => manager

/-- An open watcher delivers an event, which is published unless it is to be ignored. -/
def occurs (number : ℕ) (event : WatchEvent) (manager : WatcherManager) : WatcherManager :=
  match manager.watchers[number]? with
  | none => manager
  | some watcher =>
    if watcher.isOpen then
      match manager.objects.get? watcher.subscriptionId with
      | none => manager
      | some managed =>
        if event.fileName.isSome && shouldIgnore event.relPath managed.ignorePrefixes then manager
        else
          let published : WatchFileEvent :=
            { subscriptionId := watcher.subscriptionId
              type := resolveEventType event
              fileName := event.fileName
              absolutePath := event.fileName.elim managed.path (managed.path ++ "/" ++ ·) }
          { manager with
            fileEvents := manager.fileEvents ++
              [(published, manager.unsubscribed.contains watcher.subscriptionId)] }
    else manager

end WatcherManager

def watcherStep (preferredBackend : FileWatcherBackendName) (event : WatcherEvent)
    (manager : WatcherManager) : WatcherManager :=
  match event with
  | .subscribe path recursive ignoreGlobs => manager.subscribe path recursive ignoreGlobs
  | .unsubscribe id => manager.unsubscribe id
  | .updateIgnore id ignoreGlobs => manager.updateIgnore id ignoreGlobs
  | .settles call native fs => manager.settles preferredBackend call native fs
  | .finishes call => manager.finishes call
  | .occurs watcher event => manager.occurs watcher event

end Laborer.FileWatcher
