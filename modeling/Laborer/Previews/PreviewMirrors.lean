import Laborer.Library.Replicas
import Laborer.Library.Runs
import Laborer.Previews.PreviewEvents
import Laborer.Previews.PreviewStateStore

/-!
# The previews of a client and those of the server

A client takes the events of the server one after the other and, at any time and as often
as it likes, any list that the server has answered. What it then holds of a workspace is
the value that the events build up to the revision it has reached.
-/

namespace Laborer.Previews

open Library List Function

/-! ## What the events build -/

def PreviewEvent.change (workspaceId : String) (event : PreviewEvent)
    (snapshots : PreviewTabId → Option PreviewSessionSnapshot) :
    PreviewTabId → Option PreviewSessionSnapshot :=
  if event.workspaceId = workspaceId then
    Function.update snapshots event.tabId (event.told (snapshots event.tabId))
  else snapshots

variable {event : PreviewEvent}

theorem PreviewEvent.change_of_ne {wid : String} (h : ¬ event.workspaceId = wid)
    (snapshots : PreviewTabId → Option PreviewSessionSnapshot) :
    event.change wid snapshots = snapshots := if_neg h

/-- The snapshots that the first events of a log build. -/
abbrev snapshotsAt (workspaceId : String) (log : List PreviewEvent) (revision : ℕ) :
    PreviewTabId → Option PreviewSessionSnapshot :=
  valueAt (PreviewEvent.change workspaceId) (fun _ => none) log revision

/-- An event tells the whole change that it stands for. -/
theorem Changes.told {previous next : Option PreviewSessionSnapshot}
    (h : Changes True event.tabId event.createdAt event.type previous next) :
    event.told previous = next := by
  unfold PreviewEvent.told
  cases htype : event.type with rw [htype] at h
  | failed code description title url =>
    cases h with
    | failed previous canGoBack canGoForward _ _ _ _ hexact =>
      obtain ⟨rfl, rfl⟩ := hexact trivial
      rfl
  | _ =>
    cases h
    rfl

variable {state state' : ManagerState}

theorem Published.snapshots (h : Published True state event state') (wid : String) :
    state'.snapshots wid = event.change wid (state.snapshots wid) := by
  funext tabId
  unfold PreviewEvent.change
  split
  · next hworkspace =>
    by_cases htab : tabId = event.tabId
    · rw [htab, update_self, ← hworkspace]
      exact h.changes.told.symm
    · rw [update_of_ne htab]
      exact h.others wid tabId fun heq => htab (congrArg Prod.snd heq).symm
  · next hworkspace =>
    exact h.others wid tabId fun heq => hworkspace (congrArg Prod.fst heq)

theorem Told.snapshots {events : List PreviewEvent}
    (h : Told True state events state') (wid : String) : state'.snapshots wid =
      events.foldl (fun snapshots event => event.change wid snapshots) (state.snapshots wid) := by
  induction h with
  | silent _ _ _ same => rw [same, foldl_nil]
  | event published _ ih => rw [foldl_cons, ← published.snapshots, ih]

/-! ## A copy of a workspace -/

/-- The events carry their place in the log and the epoch. -/
def Numbered (serverEpoch : ℕ) (log : List PreviewEvent) : Prop :=
  ∀ i event, log[i]? = some event → event.revision = i + 1 ∧ event.serverEpoch = serverEpoch

structure Lists (workspaceId : String) (log : List PreviewEvent) (result : PreviewListResult) :
    Prop where
  revision_le : result.revision ≤ log.length
  nodup : (result.sessions.map (·.tabId)).Nodup
  mem_iff : ∀ tabId snapshot, snapshot ∈ result.sessions ∧ snapshot.tabId = tabId ↔
    snapshotsAt workspaceId log result.revision tabId = some snapshot

theorem Lists.append {wid : String} {log : List PreviewEvent} {result : PreviewListResult}
    (h : Lists wid log result) (added : List PreviewEvent) : Lists wid (log ++ added) result where
  revision_le := by
    rw [length_append]
    exact Nat.le_add_right_of_le h.revision_le
  nodup := h.nodup
  mem_iff tabId snapshot := by
    rw [snapshotsAt, valueAt_append h.revision_le]
    exact h.mem_iff tabId snapshot

/-- A list that is taken does not find a session that was updated later. -/
def WorkspacePreviewState.NotLater (state : WorkspacePreviewState) (result : PreviewListResult) :
    Prop :=
  state.serverEpoch = some result.serverEpoch → state.serverRevision ≤ result.revision →
    ∀ incoming ∈ result.sessions, ∀ existing ∈ OrderedMap.get? state.sessions incoming.tabId,
      existing.updatedAt ≤ incoming.updatedAt

/-- The sessions of a workspace are what the events build up to the revision. -/
structure Copy (serverEpoch : ℕ) (workspaceId : String) (log : List PreviewEvent)
    (delivered : ℕ) (state : WorkspacePreviewState) : Prop where
  replica : Replica (PreviewEvent.change workspaceId) (fun _ => none)
    (fun event => event.workspaceId = workspaceId) log delivered state.serverRevision
    (OrderedMap.get? state.sessions)
  unsuppressed : state.suppressedTabIds = ∅
  epoch : state.serverEpoch = some serverEpoch ∨
    state.serverEpoch = none ∧ state.serverRevision = 0

namespace Copy

variable {serverEpoch : ℕ} {wid : String} {log : List PreviewEvent} {delivered : ℕ}
  {state : WorkspacePreviewState}

theorem initial (serverEpoch : ℕ) (wid : String) (log : List PreviewEvent) :
    Copy serverEpoch wid log 0 emptyWorkspacePreviewState :=
  ⟨Replica.initial log, rfl, .inr ⟨rfl, rfl⟩⟩

section

variable (h : Copy serverEpoch wid log delivered state)
include h

theorem append (added : List PreviewEvent) : Copy serverEpoch wid (log ++ added) delivered state :=
  ⟨h.replica.append added, h.unsuppressed, h.epoch⟩

theorem accepts : state.Accepts serverEpoch :=
  h.epoch.elim .inr fun hnone => .inl hnone.1

theorem pass {event : PreviewEvent}
    (hentry : log[delivered]? = some event) (hne : ¬ event.workspaceId = wid) :
    Copy serverEpoch wid log (delivered + 1) state :=
  ⟨h.replica.pass hentry fun heq => absurd heq hne, h.unsuppressed, h.epoch⟩

theorem applyEvent (hnumbered : Numbered serverEpoch log) {event : PreviewEvent}
    (hentry : log[delivered]? = some event) (hworkspace : event.workspaceId = wid) :
    Copy serverEpoch wid log (delivered + 1) (state.applyEvent event) := by
  obtain ⟨hrevision, hepoch⟩ := hnumbered _ _ hentry
  by_cases hold : event.revision ≤ state.serverRevision
  · -- a list was faster
    rw [WorkspacePreviewState.applyEvent_of_old hold]
    exact ⟨h.replica.pass hentry fun _ => by omega, h.unsuppressed, h.epoch⟩
  · have hnot : event.tabId ∉ state.suppressedTabIds := by
      rw [h.unsuppressed]
      exact Finset.notMem_empty _
    have hread : OrderedMap.get? (state.fold event).sessions =
        event.change wid (OrderedMap.get? state.sessions) := by
      funext tabId
      rw [PreviewEvent.change, if_pos hworkspace]
      by_cases htab : tabId = event.tabId
      · rw [htab, update_self]
        exact WorkspacePreviewState.get?_fold_of_not_suppressed hnot
      · rw [update_of_ne htab]
        exact WorkspacePreviewState.get?_fold_of_ne (Ne.symm htab)
    have hnew := h.replica.receive (fun _ hne => PreviewEvent.change_of_ne hne) hentry (by omega)
    rw [WorkspacePreviewState.applyEvent_of_new (by rw [hepoch]; exact h.accepts)
      (Nat.not_le.mp hold)]
    refine ⟨?_, ?_, .inl (congrArg some hepoch)⟩
    · rw [← hread, ← hrevision] at hnew
      exact hrevision ▸ hnew
    · apply Finset.subset_empty.mp
      rw [← h.unsuppressed]
      exact WorkspacePreviewState.fold_suppressedTabIds_subset

theorem reconcile {result : PreviewListResult} (hlists : Lists wid log result)
    (hepoch : result.serverEpoch = serverEpoch) (hlater : state.NotLater result) :
    Copy serverEpoch wid log delivered (state.reconcile result) := by
  by_cases hold : state.serverEpoch = some result.serverEpoch ∧
      result.revision < state.serverRevision
  · -- an older list is ignored
    have hsame : state.reconcile result = state := by
      unfold WorkspacePreviewState.reconcile
      exact if_pos hold
    rw [hsame]
    exact h
  · obtain ⟨hsessions, hserver, hrevision, hsuppressed⟩ :=
      WorkspacePreviewState.reconcile_of_le hold
    have hle : state.serverRevision ≤ result.revision := by
      rcases h.epoch with hsome | ⟨_, hzero⟩
      · have hsame : state.serverEpoch = some result.serverEpoch := by rw [hsome, hepoch]
        exact Nat.not_lt.mp fun hlt => hold ⟨hsame, hlt⟩
      · rw [hzero]
        exact Nat.zero_le _
    rw [h.unsuppressed, ite_self] at hsessions hsuppressed
    -- the session of the list wins wherever there is one
    have hnewer : ∀ incoming ∈ result.sessions,
        WorkspacePreviewState.newer (if state.serverEpoch = some result.serverEpoch then
          OrderedMap.get? state.sessions incoming.tabId else none) incoming = incoming := by
      intro incoming hmem
      split
      · next hsame =>
        cases hget : OrderedMap.get? state.sessions incoming.tabId with
        | none => rfl
        | some existing =>
          exact if_neg (Nat.not_lt.mpr (hlater hsame hle incoming hmem existing hget))
      · rfl
    have hread : OrderedMap.get? (state.reconcile result).sessions =
        snapshotsAt wid log result.revision := by
      funext tabId
      rw [hsessions]
      cases hvalue : snapshotsAt wid log result.revision tabId with
      | none =>
        rw [WorkspacePreviewState.get?_merge_of_not_listed]
        · rfl
        · exact fun incoming hmem => congrArg _ (hnewer incoming hmem)
        · intro incoming hmem htab
          have hlisted := (hlists.mem_iff tabId incoming).mp ⟨hmem, htab⟩
          rw [hvalue] at hlisted
          cases hlisted
      | some snapshot =>
        obtain ⟨hmem, rfl⟩ := (hlists.mem_iff tabId snapshot).mpr hvalue
        rw [WorkspacePreviewState.get?_merge_of_listed _ hlists.nodup hmem (Finset.notMem_empty _)]
        · exact congrArg some (hnewer snapshot hmem)
        · exact fun incoming hmem => congrArg _ (hnewer incoming hmem)
    refine ⟨?_, hsuppressed, .inl (hserver.trans (congrArg some hepoch))⟩
    rw [hrevision, hread]
    exact h.replica.renew hle hlists.revision_le

theorem caughtUp (hall : ∀ i event, log[i]? = some event → event.workspaceId = wid →
      i < state.serverRevision) : OrderedMap.get? state.sessions = snapshotsAt wid log log.length :=
  h.replica.caughtUp (fun _ hne => PreviewEvent.change_of_ne hne) hall

end

end Copy

/-! ## The server and a client -/

/-- The server with all events it has published and all lists it has answered, and a client
with what it has taken of these: the number of events, and for each workspace the highest
revision of a list. -/
structure PreviewSync where
  server : ManagerState
  log : List PreviewEvent
  answers : List (String × PreviewListResult)
  delivered : ℕ
  listed : String → ℕ
  byWorkspaceId : String → WorkspacePreviewState

/-- An operation at the server, a list that it answers, the next event at the client, a list
at the client. -/
inductive SyncStep where
  | perform (operation : PreviewOperation)
  | answerList (workspaceId : String)
  | applyEvent
  | reconcile (answer : ℕ)

namespace PreviewSync

def start (serverEpoch : ℕ) : PreviewSync where
  server := .start serverEpoch
  log := []
  answers := []
  delivered := 0
  listed := fun _ => 0
  byWorkspaceId := fun _ => emptyWorkspacePreviewState

def step (normalizePreviewUrl : String → Except PreviewInvalidUrlError String) :
    SyncStep → PreviewSync → PreviewSync
  | .perform operation, s =>
    let outcome := s.server.perform normalizePreviewUrl operation
    { s with server := outcome.state, log := s.log ++ outcome.events }
  | .answerList workspaceId, s =>
    { s with answers := s.answers ++ [(workspaceId, s.server.list workspaceId)] }
  | .applyEvent, s =>
    match s.log[s.delivered]? with
    | none => s
    | some event =>
      { s with
        delivered := s.delivered + 1
        byWorkspaceId := Function.update s.byWorkspaceId event.workspaceId
          ((s.byWorkspaceId event.workspaceId).applyEvent event) }
  | .reconcile answer, s =>
    match s.answers[answer]? with
    | none => s
    | some (workspaceId, result) =>
      { s with
        listed := Function.update s.listed workspaceId (max (s.listed workspaceId) result.revision)
        byWorkspaceId := Function.update s.byWorkspaceId workspaceId
          ((s.byWorkspaceId workspaceId).reconcile result) }

/-- A report of a failure repeats the flags that are stored, and a list that the client
takes is not older by its timestamps than what the client has. -/
def Calm : SyncStep → PreviewSync → Prop
  | .perform operation, s => operation.RepeatsFlags s.server
  | .reconcile answer, s =>
    ∀ answered ∈ s.answers[answer]?, (s.byWorkspaceId answered.1).NotLater answered.2
  | .answerList _, _ => True
  | .applyEvent, _ => True

instance (state : WorkspacePreviewState) (result : PreviewListResult) :
    Decidable (state.NotLater result) :=
  inferInstanceAs (Decidable (_ → _ → ∀ incoming ∈ result.sessions,
    ∀ existing ∈ OrderedMap.get? state.sessions incoming.tabId,
      existing.updatedAt ≤ incoming.updatedAt))

instance : (step : SyncStep) → (s : PreviewSync) → Decidable (Calm step s)
  | .perform operation, s => inferInstanceAs (Decidable (operation.RepeatsFlags s.server))
  | .reconcile answer, s => inferInstanceAs (Decidable
      (∀ answered ∈ s.answers[answer]?, (s.byWorkspaceId answered.1).NotLater answered.2))
  | .answerList _, _ => isTrue trivial
  | .applyEvent, _ => isTrue trivial

/-- The client has taken every event of the workspace, or a list that is as new as the last
of them. -/
def CaughtUp (s : PreviewSync) (workspaceId : String) : Prop :=
  (∀ event ∈ s.log.drop s.delivered, event.workspaceId ≠ workspaceId) ∨
    ∀ event ∈ s.log, event.workspaceId = workspaceId → event.revision ≤ s.listed workspaceId

def eventSessions (s : PreviewSync) (workspaceId : String) :
    OrderedMap PreviewTabId PreviewSessionSnapshot :=
  ((s.log.filter (·.workspaceId = workspaceId)).foldl WorkspacePreviewState.applyEvent
    emptyWorkspacePreviewState).sessions

def listSessions (s : PreviewSync) (workspaceId : String) :
    OrderedMap PreviewTabId PreviewSessionSnapshot :=
  (emptyWorkspacePreviewState.reconcile (s.server.list workspaceId)).sessions

/-- Every workspace the client is caught up with reads as it does at the server, and the
events alone make what a list alone makes. -/
structure Mirrored (s : PreviewSync) : Prop where
  caughtUp : ∀ workspaceId, s.CaughtUp workspaceId → ∀ tabId,
    OrderedMap.get? (s.byWorkspaceId workspaceId).sessions tabId =
      s.server.snapshots workspaceId tabId
  sources : ∀ workspaceId tabId,
    OrderedMap.get? (s.eventSessions workspaceId) tabId =
      OrderedMap.get? (s.listSessions workspaceId) tabId

/-! ## The invariant -/

structure Synced (s : PreviewSync) : Prop where
  wellFormed : s.server.WellFormed
  revision : s.server.revision = s.log.length
  numbered : Numbered s.server.serverEpoch s.log
  built : ∀ workspaceId, s.server.snapshots workspaceId =
    snapshotsAt workspaceId s.log s.log.length
  answered : ∀ answer ∈ s.answers, answer.2.serverEpoch = s.server.serverEpoch ∧
    Lists answer.1 s.log answer.2
  copies : ∀ workspaceId,
    Copy s.server.serverEpoch workspaceId s.log s.delivered (s.byWorkspaceId workspaceId)
  listed : ∀ workspaceId, s.listed workspaceId ≤ (s.byWorkspaceId workspaceId).serverRevision

theorem synced_start (serverEpoch : ℕ) : (start serverEpoch).Synced where
  wellFormed := ManagerState.wellFormed_start serverEpoch
  revision := rfl
  numbered _ _ h := absurd h nofun
  built _ := rfl
  answered _ h := absurd h List.not_mem_nil
  copies wid := Copy.initial serverEpoch wid []
  listed _ := le_rfl

end PreviewSync

theorem Told.numbered {exact : Prop} {events : List PreviewEvent}
    (h : Told exact state events state') :
    state'.serverEpoch = state.serverEpoch ∧ state'.revision = state.revision + events.length ∧
      ∀ i event, events[i]? = some event →
        event.revision = state.revision + i + 1 ∧ event.serverEpoch = state.serverEpoch := by
  induction h with
  | silent revision serverEpoch _ _ => exact ⟨serverEpoch, revision, fun _ _ h => absurd h nofun⟩
  | @event state state' state'' first events published _ ih =>
    obtain ⟨hepoch, hrevision, hevents⟩ := ih
    refine ⟨hepoch.trans published.serverEpoch, ?_, ?_⟩
    · rw [hrevision, published.revision, length_cons]
      omega
    · intro i event hentry
      cases i with
      | zero =>
        cases hentry
        exact ⟨published.event_revision, published.event_serverEpoch⟩
      | succ i =>
        obtain ⟨hnumber, hsame⟩ := hevents i event hentry
        rw [published.revision] at hnumber
        exact ⟨by omega, hsame.trans published.serverEpoch⟩

theorem Numbered.append {serverEpoch : ℕ} {log added : List PreviewEvent}
    (h : Numbered serverEpoch log) (hadded : ∀ i event, added[i]? = some event →
      event.revision = log.length + i + 1 ∧ event.serverEpoch = serverEpoch) :
    Numbered serverEpoch (log ++ added) := by
  intro i event hentry
  by_cases hi : i < log.length
  · rw [getElem?_append_left hi] at hentry
    exact h i event hentry
  · rw [getElem?_append_right (Nat.not_lt.mp hi)] at hentry
    obtain ⟨hrevision, hepoch⟩ := hadded _ event hentry
    exact ⟨by omega, hepoch⟩

namespace PreviewSync

variable {s : PreviewSync}

theorem Synced.lists (h : s.Synced) (wid : String) : Lists wid s.log (s.server.list wid) where
  revision_le := h.revision.le
  nodup := h.wellFormed.nodup_list wid
  mem_iff tabId snapshot := by
    have hrevision : (s.server.list wid).revision = s.log.length := h.revision
    rw [hrevision, ← h.built wid]
    exact h.wellFormed.mem_list

theorem Synced.perform (h : s.Synced)
    (normalizePreviewUrl : String → Except PreviewInvalidUrlError String)
    (operation : PreviewOperation) (hcalm : operation.RepeatsFlags s.server) :
    (step normalizePreviewUrl (.perform operation) s).Synced := by
  obtain ⟨htold, hwellFormed⟩ := h.wellFormed.perform normalizePreviewUrl operation
  have htold := htold.mono fun _ : True => hcalm
  obtain ⟨hepoch, hrevision, hevents⟩ := htold.numbered
  have hnumbered : Numbered (s.server.perform normalizePreviewUrl operation).state.serverEpoch
      (s.log ++ (s.server.perform normalizePreviewUrl operation).events) := by
    rw [hepoch]
    apply h.numbered.append
    rw [← h.revision]
    exact hevents
  refine ⟨hwellFormed, ?_, hnumbered, ?_, ?_, ?_, h.listed⟩
  · exact hrevision.trans (by rw [h.revision]; exact length_append.symm)
  · intro wid
    refine (htold.snapshots wid).trans ?_
    rw [h.built]
    exact (valueAt_length_append _ _).symm
  · intro answer hanswer
    obtain ⟨hsame, hlists⟩ := h.answered answer hanswer
    exact ⟨hsame.trans hepoch.symm, hlists.append _⟩
  · intro wid
    have hcopy := (h.copies wid).append (s.server.perform normalizePreviewUrl operation).events
    exact hepoch.symm ▸ hcopy

theorem Synced.answerList (h : s.Synced)
    (normalizePreviewUrl : String → Except PreviewInvalidUrlError String) (wid : String) :
    (step normalizePreviewUrl (.answerList wid) s).Synced := by
  refine { h with answered := ?_ }
  intro answer hanswer
  rcases mem_append.mp hanswer with hanswer | hanswer
  · exact h.answered answer hanswer
  · rw [mem_singleton.mp hanswer]
    exact ⟨rfl, h.lists wid⟩

theorem serverRevision_le_applyEvent (state : WorkspacePreviewState) (event : PreviewEvent) :
    state.serverRevision ≤ (state.applyEvent event).serverRevision := by
  unfold WorkspacePreviewState.applyEvent
  split
  · exact le_rfl
  · split
    · exact le_rfl
    · next hnew => exact (Nat.not_le.mp hnew).le

theorem Synced.applyEvent (h : s.Synced)
    (normalizePreviewUrl : String → Except PreviewInvalidUrlError String) :
    (step normalizePreviewUrl .applyEvent s).Synced := by
  unfold step
  dsimp only
  cases hentry : s.log[s.delivered]? with
  | none => exact h
  | some event =>
    refine { h with copies := ?_, listed := ?_ }
    · intro wid
      show Copy _ wid s.log (s.delivered + 1) (Function.update s.byWorkspaceId _ _ wid)
      by_cases hworkspace : wid = event.workspaceId
      · rw [hworkspace, update_self]
        exact (h.copies event.workspaceId).applyEvent h.numbered hentry rfl
      · rw [update_of_ne hworkspace]
        exact (h.copies wid).pass hentry (Ne.symm hworkspace)
    · intro wid
      show s.listed wid ≤ (Function.update s.byWorkspaceId _ _ wid).serverRevision
      by_cases hworkspace : wid = event.workspaceId
      · rw [hworkspace, update_self]
        exact (h.listed event.workspaceId).trans (serverRevision_le_applyEvent _ _)
      · rw [update_of_ne hworkspace]
        exact h.listed wid

theorem serverRevision_reconcile (state : WorkspacePreviewState) (result : PreviewListResult)
    (h : state.serverEpoch = some result.serverEpoch ∨ state.serverRevision = 0) :
    max state.serverRevision result.revision ≤ (state.reconcile result).serverRevision := by
  by_cases hold : state.serverEpoch = some result.serverEpoch ∧
      result.revision < state.serverRevision
  · have hsame : state.reconcile result = state := by
      unfold WorkspacePreviewState.reconcile
      exact if_pos hold
    rw [hsame]
    exact max_le le_rfl hold.2.le
  · rw [(WorkspacePreviewState.reconcile_of_le hold).2.2.1]
    rcases h with hsame | hzero
    · exact max_le (Nat.not_lt.mp fun hlt => hold ⟨hsame, hlt⟩) le_rfl
    · rw [hzero]
      exact max_le (Nat.zero_le _) le_rfl

theorem Synced.reconcile (h : s.Synced)
    (normalizePreviewUrl : String → Except PreviewInvalidUrlError String) (answer : ℕ)
    (hcalm : Calm (.reconcile answer) s) :
    (step normalizePreviewUrl (.reconcile answer) s).Synced := by
  unfold step
  dsimp only
  cases hanswer : s.answers[answer]? with
  | none => exact h
  | some answered =>
    obtain ⟨answeredId, result⟩ := answered
    obtain ⟨hepoch, hlists⟩ := h.answered _ (mem_of_getElem? hanswer)
    have hlater : (s.byWorkspaceId answeredId).NotLater result := hcalm _ hanswer
    have hcopy := h.copies answeredId
    refine { h with copies := ?_, listed := ?_ }
    · intro wid
      show Copy _ wid s.log s.delivered (Function.update s.byWorkspaceId _ _ wid)
      by_cases hworkspace : wid = answeredId
      · rw [hworkspace, update_self]
        exact hcopy.reconcile hlists hepoch hlater
      · rw [update_of_ne hworkspace]
        exact h.copies wid
    · intro wid
      show Function.update s.listed _ _ wid ≤
        (Function.update s.byWorkspaceId _ _ wid).serverRevision
      by_cases hworkspace : wid = answeredId
      · rw [hworkspace, update_self, update_self]
        refine le_trans (max_le_max (h.listed answeredId) le_rfl) (serverRevision_reconcile _ _ ?_)
        exact hcopy.epoch.imp (fun hsome => hsome.trans (congrArg some hepoch.symm)) And.right
      · rw [update_of_ne hworkspace, update_of_ne hworkspace]
        exact h.listed wid

/-! ## What holds of the copies -/

theorem Synced.caughtUp (h : s.Synced) {wid : String} (hcaught : s.CaughtUp wid) :
    OrderedMap.get? (s.byWorkspaceId wid).sessions = s.server.snapshots wid := by
  rw [h.built]
  apply (h.copies wid).caughtUp
  intro i event hentry hworkspace
  rcases hcaught with hdelivered | hlisted
  · apply (h.copies wid).replica.told i event ?_ hentry hworkspace
    apply Nat.not_le.mp
    intro hle
    refine hdelivered event (mem_of_getElem? (i := i - s.delivered) ?_) hworkspace
    rw [getElem?_drop, Nat.add_sub_cancel' hle]
    exact hentry
  · have hrevision := hlisted event (mem_of_getElem? hentry) hworkspace
    rw [(h.numbered i event hentry).1] at hrevision
    exact hrevision.trans (h.listed wid)

theorem copy_of_events {serverEpoch : ℕ} {log : List PreviewEvent}
    (hnumbered : Numbered serverEpoch log) (wid : String) {n : ℕ} (hn : n ≤ log.length) :
    Copy serverEpoch wid log n (((log.take n).filter (·.workspaceId = wid)).foldl
        WorkspacePreviewState.applyEvent emptyWorkspacePreviewState) := by
  induction n with
  | zero => exact Copy.initial serverEpoch wid log
  | succ n ih =>
    have ih := ih (Nat.le_of_succ_le hn)
    have hentry : log[n]? = some log[n] := getElem?_eq_getElem hn
    rw [take_add_one, hentry, Option.toList_some, filter_append, foldl_append]
    by_cases hworkspace : log[n].workspaceId = wid
    · have hkept : [log[n]].filter (·.workspaceId = wid) = [log[n]] := by
        simp [hworkspace]
      rw [hkept]
      exact ih.applyEvent hnumbered hentry hworkspace
    · have hdropped : [log[n]].filter (·.workspaceId = wid) = [] := by
        simp [hworkspace]
      rw [hdropped]
      exact ih.pass hentry hworkspace

theorem Synced.eventSessions (h : s.Synced) (wid : String) :
    OrderedMap.get? (s.eventSessions wid) = s.server.snapshots wid := by
  have hcopy := copy_of_events h.numbered wid le_rfl
  rw [take_length] at hcopy
  rw [h.built]
  apply hcopy.caughtUp
  intro i event hentry hworkspace
  exact hcopy.replica.told i event (List.getElem?_eq_some_iff.mp hentry).1 hentry hworkspace

theorem Synced.listSessions (h : s.Synced) (wid : String) :
    OrderedMap.get? (s.listSessions wid) = s.server.snapshots wid := by
  have hcopy := (Copy.initial s.server.serverEpoch wid s.log).reconcile
    (h.lists wid) rfl (fun hsome => absurd hsome nofun)
  rw [h.built]
  apply hcopy.caughtUp
  intro i event hentry _
  refine Nat.lt_of_lt_of_le (List.getElem?_eq_some_iff.mp hentry).1 ?_
  have hrevision := serverRevision_reconcile emptyWorkspacePreviewState (s.server.list wid)
    (.inr rfl)
  refine le_trans ?_ ((le_max_right _ _).trans hrevision)
  exact h.revision.ge

theorem Synced.mirrored (h : s.Synced) : s.Mirrored where
  caughtUp _ hcaught tabId := congrFun (h.caughtUp hcaught) tabId
  sources wid tabId := by
    rw [h.eventSessions, h.listSessions]

/-- **The client mirrors the server.** In every state of a calm run. -/
theorem mirrored_of_calm (normalizePreviewUrl : String → Except PreviewInvalidUrlError String)
    (serverEpoch : ℕ) (steps : List SyncStep)
    (hcalm : RunMeets (step normalizePreviewUrl) Calm (start serverEpoch) steps) :
    ∀ s ∈ visited (step normalizePreviewUrl) (start serverEpoch) steps, s.Mirrored := by
  intro s hs
  have hstep : ∀ (next : SyncStep) (s : PreviewSync), s.Synced → Calm next s →
      (step normalizePreviewUrl next s).Synced := by
    intro next s h hok
    cases next with
    | perform operation => exact h.perform normalizePreviewUrl operation hok
    | answerList workspaceId => exact h.answerList normalizePreviewUrl workspaceId
    | applyEvent => exact h.applyEvent normalizePreviewUrl
    | reconcile answer => exact h.reconcile normalizePreviewUrl answer hok
  exact (invariant_visited hstep (synced_start serverEpoch) hcalm s hs).mirrored

/-! ## Runs -/

/-- A page that is opened and fails to load, with the flags that a report gives. -/
def failedLoad (canGoBack : Bool) : List SyncStep :=
  [.perform (.openTab 1 { url := some "http://localhost:3000/", viewport := none
                          workspaceId := "workspace" }),
    .applyEvent,
    .perform (.reportStatus 2
      { canGoBack := canGoBack, canGoForward := false
        navStatus := .loadFailed (-105) "ERR_NAME_NOT_RESOLVED" "" "http://localhost:3000/"
        tabId := 1, workspaceId := "workspace" }),
    .applyEvent]

/-- A list that is answered before the page fails, and taken after its events. -/
def lateList : List SyncStep :=
  (failedLoad false).take 1 ++ [.answerList "workspace"] ++ (failedLoad false).drop 1 ++
    [.reconcile 0]

theorem mirrored_lateList :
    (finalState (step .ok) (start 0) lateList).CaughtUp "workspace" ∧
      (finalState (step .ok) (start 0) lateList).Mirrored :=
  ⟨.inl (by decide),
    mirrored_of_calm .ok 0 lateList (by decide) _ (finalState_mem_visited _ _)⟩

/-- The event of a failure does not tell that the page can go back. -/
theorem not_mirrored_failedLoad :
    let s := finalState (step .ok) (start 0) (failedLoad true)
    s.delivered = s.log.length ∧
      (OrderedMap.get? (s.byWorkspaceId "workspace").sessions 1).map (·.canGoBack) = some false ∧
      (s.server.snapshots "workspace" 1).map (·.canGoBack) = some true ∧
      OrderedMap.get? (s.eventSessions "workspace") 1 ≠
        OrderedMap.get? (s.listSessions "workspace") 1 := by
  decide

end PreviewSync

end Laborer.Previews
