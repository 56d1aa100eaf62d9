import Laborer.Library.OrderedMap
import Mathlib.Data.List.Sort

/-!
# The browser previews of the server

The sessions of the previews, the operations on them and the events that tell of these.
Every operation holds the reference of the sessions while it changes them and publishes,
so it is one step here. A timestamp is its instant in milliseconds, and a tab id or an epoch
the number its text stands for. Normalising a URL is left to a parameter.
-/

namespace Laborer.Previews

open Library

/-! ## Sessions and events -/

abbrev PreviewTabId := ℕ

inductive PreviewViewportSetting where
  | fill
  | freeform (height width : ℕ)
  | preset (height width : ℕ) (presetId : String)
deriving DecidableEq

inductive PreviewNavStatus where
  | idle
  | loading (title url : String)
  | success (title url : String)
  | loadFailed (code : ℤ) (description title url : String)
deriving DecidableEq

structure PreviewSessionSnapshot where
  canGoBack : Bool
  canGoForward : Bool
  navStatus : PreviewNavStatus
  tabId : PreviewTabId
  updatedAt : ℕ
  viewport : Option PreviewViewportSetting
  workspaceId : String
deriving DecidableEq

inductive PreviewEventType where
  | opened (snapshot : PreviewSessionSnapshot)
  | navigated (snapshot : PreviewSessionSnapshot)
  | resized (snapshot : PreviewSessionSnapshot)
  | failed (code : ℤ) (description title url : String)
  | closed

structure PreviewEventDraft where
  createdAt : ℕ
  tabId : PreviewTabId
  type : PreviewEventType
  workspaceId : String

structure PreviewEvent extends PreviewEventDraft where
  revision : ℕ
  serverEpoch : ℕ

structure PreviewListResult where
  revision : ℕ
  serverEpoch : ℕ
  sessions : List PreviewSessionSnapshot

/-- What the normaliser says of a URL that it rejects. -/
structure PreviewInvalidUrlError where
  inputLength : ℕ
  protocol : Option String
  reason : String

inductive PreviewError where
  | invalidUrl (error : PreviewInvalidUrlError)
  | sessionLookup (tabId : PreviewTabId) (workspaceId : String)

/-! ## Inputs -/

structure PreviewOpenInput where
  url : Option String
  viewport : Option PreviewViewportSetting
  workspaceId : String

structure PreviewNavigateInput where
  resolvedTitle : Option String
  tabId : PreviewTabId
  url : String
  workspaceId : String

structure PreviewReportStatusInput where
  canGoBack : Bool
  canGoForward : Bool
  navStatus : PreviewNavStatus
  tabId : PreviewTabId
  workspaceId : String

structure PreviewResizeInput where
  tabId : PreviewTabId
  viewport : PreviewViewportSetting
  workspaceId : String

structure PreviewRefreshInput where
  tabId : PreviewTabId
  workspaceId : String

structure PreviewCloseInput where
  tabId : Option PreviewTabId
  workspaceId : String

/-! ## The manager -/

structure PreviewSessionState where
  snapshot : PreviewSessionSnapshot
  tabId : PreviewTabId
  workspaceId : String

/-- The state of the manager, with the epoch of its layer and the last tab number that
was given out. -/
structure ManagerState where
  serverEpoch : ℕ
  nextPreviewTabSequence : ℕ
  revision : ℕ
  sessions : OrderedMap (String × PreviewTabId) PreviewSessionState

def ManagerState.start (serverEpoch : ℕ) : ManagerState where
  serverEpoch := serverEpoch
  nextPreviewTabSequence := 0
  revision := 0
  sessions := []

structure PreviewOutcome (α : Type) where
  result : Except PreviewError α
  events : List PreviewEvent
  state : ManagerState

def sessionsForWorkspace (state : ManagerState) (workspaceId : String) :
    List PreviewSessionState :=
  (OrderedMap.values state.sessions).filter (·.workspaceId = workspaceId)

/-- The draft with a revision and the epoch. -/
def ManagerState.publish (state : ManagerState) (emit : PreviewEventDraft) (revision : ℕ) :
    PreviewEvent :=
  { emit with revision := revision, serverEpoch := state.serverEpoch }

/-- What a mutation of a session gives: the event, the next session and the answer. -/
structure PreviewMutation (α : Type) where
  emit : Option PreviewEventDraft
  next : PreviewSessionState
  result : α

variable {α : Type}

namespace ManagerState

def mutateExisting (state : ManagerState) (workspaceId : String) (tabId : PreviewTabId)
    (mutate : PreviewSessionState → PreviewMutation α) : PreviewOutcome α :=
  match OrderedMap.get? state.sessions (workspaceId, tabId) with
  | none => ⟨.error (.sessionLookup tabId workspaceId), [], state⟩
  | some session =>
    let mutation := mutate session
    let sessions := OrderedMap.set state.sessions (workspaceId, tabId) mutation.next
    match mutation.emit with
    | none => ⟨.ok mutation.result, [], { state with sessions := sessions }⟩
    | some emit =>
      ⟨.ok mutation.result, [state.publish emit (state.revision + 1)],
        { state with revision := state.revision + 1, sessions := sessions }⟩

def register (state : ManagerState) (snapshot : PreviewSessionSnapshot) :
    PreviewOutcome PreviewSessionSnapshot :=
  let emit : PreviewEventDraft :=
    { createdAt := snapshot.updatedAt, tabId := snapshot.tabId, type := .opened snapshot
      workspaceId := snapshot.workspaceId }
  ⟨.ok snapshot, [state.publish emit (state.revision + 1)],
    { state with
      revision := state.revision + 1
      sessions := OrderedMap.set state.sessions (snapshot.workspaceId, snapshot.tabId)
        ⟨snapshot, snapshot.tabId, snapshot.workspaceId⟩ }⟩

def openTab (normalizePreviewUrl : String → Except PreviewInvalidUrlError String)
    (state : ManagerState) (now : ℕ) (input : PreviewOpenInput) :
    PreviewOutcome PreviewSessionSnapshot :=
  let tabId := state.nextPreviewTabSequence + 1
  let state := { state with nextPreviewTabSequence := tabId }
  let snapshot (navStatus : PreviewNavStatus) : PreviewSessionSnapshot :=
    { canGoBack := false, canGoForward := false, navStatus := navStatus, tabId := tabId
      updatedAt := now, viewport := some (input.viewport.getD .fill)
      workspaceId := input.workspaceId }
  match input.url with
  | none => state.register (snapshot .idle)
  | some rawUrl =>
    match normalizePreviewUrl rawUrl with
    | .error error => ⟨.error (.invalidUrl error), [], state⟩
    | .ok url => state.register (snapshot (.loading "" url))

end ManagerState

def PreviewNavStatus.title : PreviewNavStatus → String
  | .idle => ""
  | .loading title _ => title
  | .success title _ => title
  | .loadFailed _ _ title _ => title

def navigateSession (now : ℕ) (input : PreviewNavigateInput) (url : String)
    (session : PreviewSessionState) : PreviewMutation PreviewSessionSnapshot :=
  let snapshot : PreviewSessionSnapshot :=
    { session.snapshot with
      navStatus := .success (input.resolvedTitle.getD session.snapshot.navStatus.title) url
      updatedAt := now
      viewport := some (session.snapshot.viewport.getD .fill) }
  { emit := some
      { createdAt := now, tabId := input.tabId, type := .navigated snapshot
        workspaceId := input.workspaceId }
    next := { session with snapshot := snapshot }
    result := snapshot }

/-- A failure is told by its status alone, every other report by the snapshot. -/
def reportSessionStatus (now : ℕ) (input : PreviewReportStatusInput)
    (session : PreviewSessionState) : PreviewMutation Unit :=
  let snapshot : PreviewSessionSnapshot :=
    { session.snapshot with
      canGoBack := input.canGoBack
      canGoForward := input.canGoForward
      navStatus := input.navStatus
      updatedAt := now
      viewport := some (session.snapshot.viewport.getD .fill) }
  { emit := some
      { createdAt := now
        tabId := input.tabId
        type :=
          match input.navStatus with
          | .loadFailed code description title url => .failed code description title url
          | _ => .navigated snapshot
        workspaceId := input.workspaceId }
    next := { session with snapshot := snapshot }
    result := () }

def resizeSession (now : ℕ) (input : PreviewResizeInput) (session : PreviewSessionState) :
    PreviewMutation PreviewSessionSnapshot :=
  let snapshot : PreviewSessionSnapshot :=
    { session.snapshot with updatedAt := now, viewport := some input.viewport }
  { emit := some
      { createdAt := now, tabId := input.tabId, type := .resized snapshot
        workspaceId := input.workspaceId }
    next := { session with snapshot := snapshot }
    result := snapshot }

namespace ManagerState

def navigate (normalizePreviewUrl : String → Except PreviewInvalidUrlError String)
    (state : ManagerState) (now : ℕ) (input : PreviewNavigateInput) :
    PreviewOutcome PreviewSessionSnapshot :=
  match normalizePreviewUrl input.url with
  | .error error => ⟨.error (.invalidUrl error), [], state⟩
  | .ok url => state.mutateExisting input.workspaceId input.tabId (navigateSession now input url)

def reportStatus (state : ManagerState) (now : ℕ) (input : PreviewReportStatusInput) :
    PreviewOutcome Unit :=
  state.mutateExisting input.workspaceId input.tabId (reportSessionStatus now input)

def resize (state : ManagerState) (now : ℕ) (input : PreviewResizeInput) :
    PreviewOutcome PreviewSessionSnapshot :=
  state.mutateExisting input.workspaceId input.tabId (resizeSession now input)

def refresh (state : ManagerState) (input : PreviewRefreshInput) : PreviewOutcome Unit :=
  state.mutateExisting input.workspaceId input.tabId fun session =>
    { emit := none, next := session, result := () }

/-- One target of `close` after the other, each with a revision of its own. -/
def closeEach (createdAt : ℕ) : List PreviewSessionState → ManagerState → PreviewOutcome Unit
  | [], state => ⟨.ok (), [], state⟩
  | target :: targets, state =>
    let emit : PreviewEventDraft :=
      { createdAt := createdAt, tabId := target.tabId, type := .closed
        workspaceId := target.workspaceId }
    let rest := closeEach createdAt targets
      { state with
        revision := state.revision + 1
        sessions := OrderedMap.delete state.sessions (target.workspaceId, target.tabId) }
    { rest with events := state.publish emit (state.revision + 1) :: rest.events }

def close (state : ManagerState) (now : ℕ) (input : PreviewCloseInput) : PreviewOutcome Unit :=
  let targets :=
    match input.tabId with
    | none => sessionsForWorkspace state input.workspaceId
    | some tabId => (OrderedMap.get? state.sessions (input.workspaceId, tabId)).toList
  closeEach now targets state

def list (state : ManagerState) (workspaceId : String) : PreviewListResult where
  revision := state.revision
  serverEpoch := state.serverEpoch
  sessions := ((sessionsForWorkspace state workspaceId).map (·.snapshot)).insertionSort
    fun left right => left.updatedAt ≤ right.updatedAt

end ManagerState

/-! ## Operations -/

inductive PreviewOperation where
  | openTab (now : ℕ) (input : PreviewOpenInput)
  | navigate (now : ℕ) (input : PreviewNavigateInput)
  | reportStatus (now : ℕ) (input : PreviewReportStatusInput)
  | resize (now : ℕ) (input : PreviewResizeInput)
  | refresh (input : PreviewRefreshInput)
  | close (now : ℕ) (input : PreviewCloseInput)

def PreviewOutcome.map {α β : Type} (f : α → β) (outcome : PreviewOutcome α) : PreviewOutcome β :=
  ⟨outcome.result.map f, outcome.events, outcome.state⟩

/-- A call at the manager; of the answers only the snapshots are kept. -/
def ManagerState.perform (normalizePreviewUrl : String → Except PreviewInvalidUrlError String)
    (state : ManagerState) :
    PreviewOperation → PreviewOutcome (Option PreviewSessionSnapshot)
  | .openTab now input => (state.openTab normalizePreviewUrl now input).map some
  | .navigate now input => (state.navigate normalizePreviewUrl now input).map some
  | .reportStatus now input => (state.reportStatus now input).map fun _ => none
  | .resize now input => (state.resize now input).map some
  | .refresh input => (state.refresh input).map fun _ => none
  | .close now input => (state.close now input).map fun _ => none

end Laborer.Previews
