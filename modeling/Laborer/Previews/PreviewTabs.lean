import Laborer.Previews.TabLogs

/-!
# A server that restarts and a client that closes tabs

The server answers calls, publishes events and is restarted under a new epoch. On their
way to the client are the events, in order, and the lists and the answers of calls, in any
order; what an earlier server sent may still arrive or be lost. The client folds the events
and the lists, puts the sessions that its calls answer into its store, and hides a tab while
it waits for a close of it. A close may reach the server late, and the client may be told that
it failed when it did not.
-/

namespace Laborer.Previews

open Library

/-! ## The state -/

/-- A close that the client waits for, with the session that it took away. -/
structure CloseCall where
  workspaceId : String
  tabId : PreviewTabId
  snapshot : Option PreviewSessionSnapshot
  processed : Bool

structure PreviewTabs where
  server : ManagerState
  /-- The events of the running server. -/
  log : List PreviewEvent
  /-- How many of these the client has taken. -/
  delivered : ℕ
  /-- The events of earlier servers that are still on their way. -/
  earlier : List PreviewEvent
  /-- The lists that the client waits for, by workspace. -/
  requests : List String
  lists : List (String × PreviewListResult)
  /-- The answers of calls of the client, with the epoch of the server that gave them. -/
  answers : List (ℕ × PreviewSessionSnapshot)
  closes : List CloseCall
  byWorkspaceId : OrderedMap String WorkspacePreviewState

inductive TabsStep where
  /-- An operation at the server; `called` if the client called it. -/
  | perform (operation : PreviewOperation) (called : Bool)
  | restart
  | takeEvent
  | loseEvent
  | requestList (workspaceId : String)
  | answerList (request : ℕ)
  | takeList (list : ℕ)
  | takeAnswer (answer : ℕ)
  | beginClose (workspaceId : String) (tabId : PreviewTabId)
  | processClose (close : ℕ) (now : ℕ)
  | closeAnswered (close : ℕ)
  | closeFailed (close : ℕ)
  | setActive (workspaceId : String) (tabId : PreviewTabId)

namespace PreviewTabs

/-- A server that has started and a client that has not asked for anything. -/
def start : PreviewTabs where
  server := .start 0
  log := []
  delivered := 0
  earlier := []
  requests := []
  lists := []
  answers := []
  closes := []
  byWorkspaceId := []

/-- `byWorkspaceId[workspaceId] ?? EMPTY` -/
def workspace (s : PreviewTabs) (workspaceId : String) : WorkspacePreviewState :=
  (OrderedMap.get? s.byWorkspaceId workspaceId).getD emptyWorkspacePreviewState

def updateWorkspace (s : PreviewTabs) (workspaceId : String)
    (update : WorkspacePreviewState → WorkspacePreviewState) : PreviewTabs :=
  { s with
    byWorkspaceId :=
      OrderedMap.set s.byWorkspaceId workspaceId (update (s.workspace workspaceId)) }

/-- An event of another server than the one the client knows makes it ask for a list. -/
def receive (s : PreviewTabs) (event : PreviewEvent) : PreviewTabs :=
  let state := s.workspace event.workspaceId
  if state.serverEpoch ≠ none ∧ state.serverEpoch ≠ some event.serverEpoch then
    { s with requests := s.requests ++ [event.workspaceId] }
  else s.updateWorkspace event.workspaceId (·.applyEvent event)

def step (normalizePreviewUrl : String → Except PreviewInvalidUrlError String) :
    TabsStep → PreviewTabs → PreviewTabs
  | .perform operation called, s =>
    let outcome := s.server.perform normalizePreviewUrl operation
    { s with
      server := outcome.state
      log := s.log ++ outcome.events
      answers :=
        match called, outcome.result with
        | true, .ok (some snapshot) => s.answers ++ [(s.server.serverEpoch, snapshot)]
        | _, _ => s.answers }
  | .restart, s =>
    { s with
      server := .start (s.server.serverEpoch + 1)
      log := []
      delivered := 0
      earlier := s.earlier ++ s.log.drop s.delivered }
  | .takeEvent, s =>
    match s.earlier with
    | event :: earlier => { s with earlier := earlier }.receive event
    | [] =>
      match s.log[s.delivered]? with
      | none => s
      | some event => { s with delivered := s.delivered + 1 }.receive event
  | .loseEvent, s => { s with earlier := s.earlier.tail }
  | .requestList workspaceId, s => { s with requests := s.requests ++ [workspaceId] }
  | .answerList request, s =>
    match s.requests[request]? with
    | none => s
    | some workspaceId =>
      { s with
        requests := s.requests.eraseIdx request
        lists := s.lists ++ [(workspaceId, s.server.list workspaceId)] }
  | .takeList list, s =>
    match s.lists[list]? with
    | none => s
    | some (workspaceId, result) =>
      { s with lists := s.lists.eraseIdx list }.updateWorkspace workspaceId (·.reconcile result)
  | .takeAnswer answer, s =>
    match s.answers[answer]? with
    | none => s
    | some (_, snapshot) =>
      { s with answers := s.answers.eraseIdx answer }.updateWorkspace snapshot.workspaceId
        (·.upsert snapshot)
  | .beginClose workspaceId tabId, s =>
    let call : CloseCall :=
      { workspaceId := workspaceId, tabId := tabId
        snapshot := OrderedMap.get? (s.workspace workspaceId).sessions tabId
        processed := false }
    { s with closes := s.closes ++ [call] }.updateWorkspace workspaceId (·.beginClose tabId)
  | .processClose close now, s =>
    match s.closes[close]? with
    | none => s
    | some call =>
      if call.processed then s
      else
        let outcome := s.server.close now
          { tabId := some call.tabId, workspaceId := call.workspaceId }
        { s with
          server := outcome.state
          log := s.log ++ outcome.events
          closes := s.closes.set close { call with processed := true } }
  | .closeAnswered close, s =>
    match s.closes[close]? with
    | none => s
    | some call => if call.processed then { s with closes := s.closes.eraseIdx close } else s
  | .closeFailed close, s =>
    match s.closes[close]? with
    | none => s
    | some call =>
      { s with closes := s.closes.eraseIdx close }.updateWorkspace call.workspaceId
        (·.cancelClose call.tabId call.snapshot)
  | .setActive workspaceId tabId, s => s.updateWorkspace workspaceId (·.setActive tabId)

/-! ## What is expected of the client -/

/-- Every event of the workspace is delivered, no list of it is asked for, no list or
answer of the running server is on its way, and no close is pending. -/
structure Settled (s : PreviewTabs) (workspaceId : String) : Prop where
  events : ∀ event ∈ s.log.drop s.delivered, event.workspaceId ≠ workspaceId
  requests : workspaceId ∉ s.requests
  lists : ∀ list ∈ s.lists, list.1 = workspaceId → list.2.serverEpoch ≠ s.server.serverEpoch
  answers : ∀ answer ∈ s.answers, answer.2.workspaceId = workspaceId →
    answer.1 ≠ s.server.serverEpoch
  closes : ∀ call ∈ s.closes, call.workspaceId ≠ workspaceId

structure TabsAgree (s : PreviewTabs) (workspaceId : String) : Prop where
  tabs : ∀ tabId, (OrderedMap.get? (s.workspace workspaceId).sessions tabId).isSome =
    (s.server.snapshots workspaceId tabId).isSome
  active : ∀ tabId ∈ (s.workspace workspaceId).activeTabId,
    (OrderedMap.get? (s.workspace workspaceId).sessions tabId).isSome
  /-- No tab that the server closed is there. -/
  closed : ∀ event ∈ s.log, event.workspaceId = workspaceId → event.type.isClosed = true →
    OrderedMap.get? (s.workspace workspaceId).sessions event.tabId = none

/-! ## The condition -/

variable (s : PreviewTabs) (workspaceId : String) (tabId : PreviewTabId)

def Awaits : Prop :=
  workspaceId ∈ s.requests ∨
    ∃ list ∈ s.lists, list.1 = workspaceId ∧ list.2.serverEpoch = s.server.serverEpoch

def ClosePending : Prop :=
  ∃ call ∈ s.closes, call.workspaceId = workspaceId ∧ call.tabId = tabId ∧ call.processed = false

/-- The tab is closed, or will be by a call that is under way. -/
def Closing : Prop :=
  s.ClosePending workspaceId tabId ∨ s.server.snapshots workspaceId tabId = none

instance : Decidable (s.Awaits workspaceId) := inferInstanceAs (Decidable (_ ∨ _))

instance : Decidable (s.Closing workspaceId tabId) :=
  inferInstanceAs (Decidable ((∃ call ∈ s.closes,
    call.workspaceId = workspaceId ∧ call.tabId = tabId ∧ call.processed = false) ∨ _))

/-- A session may be put into a store: the running server opened its tab and the client
has not taken a close of it, or a list is to replace the store. -/
def Welcome (state : WorkspacePreviewState) : Prop :=
  if state.Accepts s.server.serverEpoch then
    OpenedBy s.log workspaceId tabId s.log.length ∧
      ¬ ClosedBy s.log workspaceId tabId state.serverRevision
  else s.Awaits workspaceId ∨ OpenedBy s.log workspaceId tabId s.log.length

instance (state : WorkspacePreviewState) : Decidable (s.Welcome workspaceId tabId state) :=
  inferInstanceAs (Decidable (if state.Accepts s.server.serverEpoch then
      OpenedBy s.log workspaceId tabId s.log.length ∧
        ¬ ClosedBy s.log workspaceId tabId state.serverRevision
    else s.Awaits workspaceId ∨ OpenedBy s.log workspaceId tabId s.log.length))

/-- No list that the client waits for is lost, and a client that knows no server has no
session. -/
def RestartCalm : Prop :=
  ∀ entry ∈ s.byWorkspaceId, entry.2.sessions = [] ∨
    entry.2.serverEpoch ≠ none ∧ entry.1 ∈ s.requests

/-- An event of an earlier server adds no session, or a list is to replace the store; a tab
that is opened while it is suppressed is being closed. -/
def EventCalm : Prop :=
  match s.earlier with
  | event :: _ =>
    (s.workspace event.workspaceId).Accepts event.serverEpoch →
      (s.workspace event.workspaceId).serverRevision < event.revision →
        event.type.snapshot?.isSome = true → s.Awaits event.workspaceId
  | [] =>
    ∀ event ∈ s.log[s.delivered]?, event.type.isOpened = true →
      event.tabId ∈ (s.workspace event.workspaceId).suppressedTabIds →
      s.Closing event.workspaceId event.tabId

/-- A list of an earlier server does not take the client back to it, and comes before the
one that is to replace it. A list that takes the client to the running server is as new as
the events it has taken, and one that hides a tab finds it being closed. -/
def ListCalm (list : String × PreviewListResult) : Prop :=
  let state := s.workspace list.1
  if list.2.serverEpoch = s.server.serverEpoch then
    if state.serverEpoch = some list.2.serverEpoch then
      state.serverRevision ≤ list.2.revision →
        ∀ snapshot ∈ list.2.sessions, snapshot.tabId ∈ state.suppressedTabIds →
          s.Closing list.1 snapshot.tabId
    else
      ∀ event ∈ s.log.take s.delivered, event.workspaceId = list.1 →
        event.revision ≤ list.2.revision
  else
    state.serverEpoch ≠ some s.server.serverEpoch ∧ (s.Awaits list.1 ∨ list.2.sessions = [])

/-- A session that a failed close gives back is welcome; where none is given back, the
store has the tab, or the tab is not known to be open, or it is being closed by others. -/
def CancelCalm (close : ℕ) (call : CloseCall) : Prop :=
  let state := s.workspace call.workspaceId
  if call.snapshot.isSome = true then s.Welcome call.workspaceId call.tabId state
  else
    state.Accepts s.server.serverEpoch →
      OpenedBy s.log call.workspaceId call.tabId state.serverRevision →
      (OrderedMap.get? state.sessions call.tabId).isSome = true ∨
        { s with closes := s.closes.eraseIdx close }.Closing call.workspaceId call.tabId

end PreviewTabs

namespace TabsStep

open PreviewTabs

def Calm : TabsStep → PreviewTabs → Prop
  | .restart, s => s.RestartCalm
  | .takeEvent, s => s.EventCalm
  | .takeList list, s => ∀ taken ∈ s.lists[list]?, s.ListCalm taken
  | .takeAnswer answer, s =>
    ∀ taken ∈ s.answers[answer]?,
      s.Welcome taken.2.workspaceId taken.2.tabId (s.workspace taken.2.workspaceId)
  | .closeFailed close, s => ∀ call ∈ s.closes[close]?, s.CancelCalm close call
  | .perform _ _, _ => True
  | .loseEvent, _ => True
  | .requestList _, _ => True
  | .answerList _, _ => True
  | .beginClose _ _, _ => True
  | .processClose _ _, _ => True
  | .closeAnswered _, _ => True
  | .setActive _ _, _ => True

instance (s : PreviewTabs) : Decidable s.RestartCalm :=
  inferInstanceAs (Decidable (∀ entry ∈ s.byWorkspaceId, _))

instance (s : PreviewTabs) : Decidable s.EventCalm :=
  match h : s.earlier with
  | event :: _ =>
    decidable_of_iff ((s.workspace event.workspaceId).Accepts event.serverEpoch →
      (s.workspace event.workspaceId).serverRevision < event.revision →
        event.type.snapshot?.isSome = true → s.Awaits event.workspaceId)
      (by unfold EventCalm; rw [h])
  | [] =>
    decidable_of_iff (∀ event ∈ s.log[s.delivered]?, event.type.isOpened = true →
      event.tabId ∈ (s.workspace event.workspaceId).suppressedTabIds →
      s.Closing event.workspaceId event.tabId)
      (by unfold EventCalm; rw [h])

instance (s : PreviewTabs) (list : String × PreviewListResult) : Decidable (s.ListCalm list) :=
  inferInstanceAs (Decidable (if list.2.serverEpoch = s.server.serverEpoch then
      (if (s.workspace list.1).serverEpoch = some list.2.serverEpoch then
        (s.workspace list.1).serverRevision ≤ list.2.revision →
          ∀ snapshot ∈ list.2.sessions,
            snapshot.tabId ∈ (s.workspace list.1).suppressedTabIds →
              s.Closing list.1 snapshot.tabId
      else
        ∀ event ∈ s.log.take s.delivered, event.workspaceId = list.1 →
          event.revision ≤ list.2.revision)
    else
      (s.workspace list.1).serverEpoch ≠ some s.server.serverEpoch ∧
        (s.Awaits list.1 ∨ list.2.sessions = [])))

instance (s : PreviewTabs) (close : ℕ) (call : CloseCall) : Decidable (s.CancelCalm close call) :=
  inferInstanceAs (Decidable (if call.snapshot.isSome = true then
      s.Welcome call.workspaceId call.tabId (s.workspace call.workspaceId)
    else
      (s.workspace call.workspaceId).Accepts s.server.serverEpoch →
        OpenedBy s.log call.workspaceId call.tabId (s.workspace call.workspaceId).serverRevision →
        (OrderedMap.get? (s.workspace call.workspaceId).sessions call.tabId).isSome = true ∨
          { s with closes := s.closes.eraseIdx close }.Closing call.workspaceId call.tabId))

instance : (step : TabsStep) → (s : PreviewTabs) → Decidable (step.Calm s)
  | .restart, s => inferInstanceAs (Decidable s.RestartCalm)
  | .takeEvent, s => inferInstanceAs (Decidable s.EventCalm)
  | .takeList list, s => inferInstanceAs (Decidable (∀ taken ∈ s.lists[list]?, s.ListCalm taken))
  | .takeAnswer answer, s => inferInstanceAs (Decidable
      (∀ taken ∈ s.answers[answer]?,
        s.Welcome taken.2.workspaceId taken.2.tabId (s.workspace taken.2.workspaceId)))
  | .closeFailed close, s =>
    inferInstanceAs (Decidable (∀ call ∈ s.closes[close]?, s.CancelCalm close call))
  | .perform _ _, _ => isTrue trivial
  | .loseEvent, _ => isTrue trivial
  | .requestList _, _ => isTrue trivial
  | .answerList _, _ => isTrue trivial
  | .beginClose _ _, _ => isTrue trivial
  | .processClose _ _, _ => isTrue trivial
  | .closeAnswered _, _ => isTrue trivial
  | .setActive _ _, _ => isTrue trivial

end TabsStep

end Laborer.Previews
