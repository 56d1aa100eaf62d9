import Laborer.Previews.PreviewManager

/-!
# What the operations on the previews tell

Every event stands for one change of one tab. The operations are taken apart into the
changes they publish, once for all of them; what holds of the sessions over a run, and
what the events of a run look like, is read off the changes.
-/

namespace Laborer.Previews

open Library List Option OrderedMap

variable {α : Type} {exact : Prop} {state : ManagerState}

/-! ## Well-formed sessions -/

/-- A session that is what its key says, with a viewport. -/
structure PreviewSessionState.Belongs (session : PreviewSessionState) (workspaceId : String)
    (tabId : PreviewTabId) : Prop where
  workspaceId_eq : session.workspaceId = workspaceId
  tabId_eq : session.tabId = tabId
  snapshot_workspaceId : session.snapshot.workspaceId = workspaceId
  snapshot_tabId : session.snapshot.tabId = tabId
  viewport : session.snapshot.viewport.isSome

namespace ManagerState

def snapshots (state : ManagerState) (workspaceId : String) (tabId : PreviewTabId) :
    Option PreviewSessionSnapshot :=
  (OrderedMap.get? state.sessions (workspaceId, tabId)).map (·.snapshot)

structure WellFormed (state : ManagerState) : Prop where
  nodup : (state.sessions.map Prod.fst).Nodup
  belongs : ∀ workspaceId tabId session,
    OrderedMap.get? state.sessions (workspaceId, tabId) = some session →
      session.Belongs workspaceId tabId
  issued : ∀ workspaceId tabId session,
    OrderedMap.get? state.sessions (workspaceId, tabId) = some session →
      tabId ≤ state.nextPreviewTabSequence

theorem wellFormed_start (serverEpoch : ℕ) : (start serverEpoch).WellFormed :=
  ⟨nodup_nil, fun _ _ _ h => absurd h nofun, fun _ _ _ h => absurd h nofun⟩

variable {state : ManagerState} {wid : String} {tabId : PreviewTabId}
  {session : PreviewSessionState} {state' : ManagerState}

theorem snapshots_eq_some {snapshot : PreviewSessionSnapshot}
    (h : state.snapshots wid tabId = some snapshot) :
    ∃ session, OrderedMap.get? state.sessions (wid, tabId) = some session ∧
      session.snapshot = snapshot :=
  map_eq_some_iff.mp h

theorem snapshots_of_get? (h : OrderedMap.get? state.sessions (wid, tabId) = some session) :
    state.snapshots wid tabId = some session.snapshot := by
  rw [snapshots, h, map_some]

theorem snapshots_stored (state : ManagerState)
    (h : state'.sessions = OrderedMap.set state.sessions (wid, tabId) session)
    (workspaceId' : String) (tabId' : PreviewTabId) :
    state'.snapshots workspaceId' tabId' =
      if (wid, tabId) = (workspaceId', tabId') then some session.snapshot
      else state.snapshots workspaceId' tabId' := by
  rw [snapshots, h, get?_set]
  split
  · rfl
  · rfl

theorem snapshots_deleted (state : ManagerState)
    (h : state'.sessions = OrderedMap.delete state.sessions (wid, tabId))
    (workspaceId' : String) (tabId' : PreviewTabId) :
    state'.snapshots workspaceId' tabId' =
      if (wid, tabId) = (workspaceId', tabId') then none
      else state.snapshots workspaceId' tabId' := by
  rw [snapshots, h, get?_delete]
  split
  · rfl
  · rfl

theorem WellFormed.stored (h : state.WellFormed) (hsession : session.Belongs wid tabId)
    (hissued : tabId ≤ state'.nextPreviewTabSequence)
    (hsequence : state.nextPreviewTabSequence ≤ state'.nextPreviewTabSequence)
    (hset : state'.sessions = OrderedMap.set state.sessions (wid, tabId) session) :
    state'.WellFormed where
  nodup := by
    rw [hset]
    exact nodup_keys_set _ _ h.nodup
  belongs workspaceId' tabId' session' hget := by
    rw [hset, get?_set] at hget
    split at hget
    · next heq =>
      cases heq
      cases hget
      exact hsession
    · exact h.belongs _ _ _ hget
  issued workspaceId' tabId' session' hget := by
    rw [hset, get?_set] at hget
    split at hget
    · next heq =>
      cases heq
      exact hissued
    · exact (h.issued _ _ _ hget).trans hsequence

theorem WellFormed.deleted (h : state.WellFormed) (key : String × PreviewTabId)
    (hsequence : state'.nextPreviewTabSequence = state.nextPreviewTabSequence)
    (hdelete : state'.sessions = OrderedMap.delete state.sessions key) : state'.WellFormed where
  nodup := by
    rw [hdelete]
    exact nodup_keys_delete _ h.nodup
  belongs wid tabId session hget := by
    rw [hdelete, get?_delete] at hget
    split at hget
    · cases hget
    · exact h.belongs _ _ _ hget
  issued wid tabId session hget := by
    rw [hdelete, get?_delete] at hget
    split at hget
    · cases hget
    · exact (h.issued _ _ _ hget).trans hsequence.ge

end ManagerState

/-! ## Changes -/

/-- The change of a tab that an event stands for. A failure does not tell the two flags;
`exact` says that they are what they were. -/
inductive Changes (exact : Prop) (tabId : PreviewTabId) (createdAt : ℕ) :
    PreviewEventType → Option PreviewSessionSnapshot → Option PreviewSessionSnapshot → Prop
  | opened (snapshot : PreviewSessionSnapshot) (htab : snapshot.tabId = tabId) :
      Changes exact tabId createdAt (.opened snapshot) none (some snapshot)
  | navigated (previous snapshot : PreviewSessionSnapshot) (htab : snapshot.tabId = tabId) :
      Changes exact tabId createdAt (.navigated snapshot) (some previous) (some snapshot)
  | resized (previous snapshot : PreviewSessionSnapshot) (htab : snapshot.tabId = tabId) :
      Changes exact tabId createdAt (.resized snapshot) (some previous) (some snapshot)
  | failed (previous : PreviewSessionSnapshot) (canGoBack canGoForward : Bool) (code : ℤ)
      (description title url : String)
      (hexact : exact → canGoBack = previous.canGoBack ∧ canGoForward = previous.canGoForward) :
      Changes exact tabId createdAt (.failed code description title url) (some previous)
        (some { previous with
          canGoBack := canGoBack
          canGoForward := canGoForward
          navStatus := .loadFailed code description title url
          updatedAt := createdAt })
  | closed (previous : PreviewSessionSnapshot) :
      Changes exact tabId createdAt .closed (some previous) none

theorem Changes.mono {exact' : Prop} {tabId : PreviewTabId} {createdAt : ℕ}
    {type : PreviewEventType} {previous next : Option PreviewSessionSnapshot}
    (h : Changes exact tabId createdAt type previous next) (himp : exact' → exact) :
    Changes exact' tabId createdAt type previous next := by
  cases h with
  | opened snapshot htab => exact .opened snapshot htab
  | navigated previous snapshot htab => exact .navigated previous snapshot htab
  | resized previous snapshot htab => exact .resized previous snapshot htab
  | failed previous canGoBack canGoForward code description title url hexact =>
    exact .failed previous canGoBack canGoForward code description title url
      fun he => hexact (himp he)
  | closed previous => exact .closed previous

structure Published (exact : Prop) (state : ManagerState) (event : PreviewEvent)
    (state' : ManagerState) : Prop where
  event_revision : event.revision = state.revision + 1
  revision : state'.revision = state.revision + 1
  event_serverEpoch : event.serverEpoch = state.serverEpoch
  serverEpoch : state'.serverEpoch = state.serverEpoch
  sequence : state.nextPreviewTabSequence ≤ state'.nextPreviewTabSequence
  /-- An opened tab has a number that no tab had before. -/
  fresh : ∀ snapshot, event.type = .opened snapshot →
    state.nextPreviewTabSequence < event.tabId ∧ event.tabId ≤ state'.nextPreviewTabSequence
  others : ∀ workspaceId tabId, (event.workspaceId, event.tabId) ≠ (workspaceId, tabId) →
    state'.snapshots workspaceId tabId = state.snapshots workspaceId tabId
  changes : Changes exact event.tabId event.createdAt event.type
    (state.snapshots event.workspaceId event.tabId)
    (state'.snapshots event.workspaceId event.tabId)

inductive Told (exact : Prop) : ManagerState → List PreviewEvent → ManagerState → Prop
  | silent {state state' : ManagerState} (revision : state'.revision = state.revision)
      (serverEpoch : state'.serverEpoch = state.serverEpoch)
      (sequence : state.nextPreviewTabSequence ≤ state'.nextPreviewTabSequence)
      (same : state'.snapshots = state.snapshots) : Told exact state [] state'
  | event {state state' state'' : ManagerState} {event : PreviewEvent}
      {events : List PreviewEvent} (published : Published exact state event state')
      (rest : Told exact state' events state'') : Told exact state (event :: events) state''

theorem Told.mono {exact' : Prop} {state' : ManagerState}
    {events : List PreviewEvent} (h : Told exact state events state') (himp : exact' → exact) :
    Told exact' state events state' := by
  induction h with
  | silent revision serverEpoch sequence same => exact .silent revision serverEpoch sequence same
  | event published _ ih =>
    exact .event { published with changes := published.changes.mono himp } ih

theorem Told.refl (exact : Prop) (state : ManagerState) : Told exact state [] state :=
  .silent rfl rfl le_rfl rfl

theorem Told.single {state' : ManagerState} {event : PreviewEvent}
    (h : Published exact state event state') : Told exact state [event] state' :=
  .event h (.refl exact state')

/-! ## The operations -/

/-- A mutation that leaves the session where it is and tells what it changes. -/
structure PreviewMutation.Sound (exact : Prop) (workspaceId : String) (tabId : PreviewTabId)
    (session : PreviewSessionState) (mutation : PreviewMutation α) : Prop where
  belongs : mutation.next.Belongs workspaceId tabId
  quiet : mutation.emit = none → mutation.next = session
  emits : ∀ emit, mutation.emit = some emit → emit.workspaceId = workspaceId ∧ emit.tabId = tabId ∧
    Changes exact tabId emit.createdAt emit.type (some session.snapshot)
      (some mutation.next.snapshot)

namespace ManagerState

variable {exact : Prop} {state : ManagerState} {wid : String} {tabId : PreviewTabId}

/-- What is common to all operations on one session. -/
theorem WellFormed.mutateExisting (h : state.WellFormed)
    (mutate : PreviewSessionState → PreviewMutation α)
    (hsound : ∀ session, session.Belongs wid tabId →
      OrderedMap.get? state.sessions (wid, tabId) = some session →
      (mutate session).Sound exact wid tabId session) :
    let outcome := state.mutateExisting wid tabId mutate
    Told exact state outcome.events outcome.state ∧ outcome.state.WellFormed := by
  unfold ManagerState.mutateExisting
  dsimp only
  cases hget : OrderedMap.get? state.sessions (wid, tabId) with
  | none => exact ⟨.refl exact state, h⟩
  | some session =>
    have hmutation := hsound session (h.belongs _ _ _ hget) hget
    have hissued := h.issued _ _ _ hget
    dsimp only
    cases hemit : (mutate session).emit with
    | none =>
      refine ⟨.silent rfl rfl le_rfl ?_, h.stored hmutation.belongs hissued le_rfl rfl⟩
      funext workspaceId' tabId'
      rw [snapshots_stored state rfl, hmutation.quiet hemit]
      split
      · next heq =>
        cases heq
        exact (snapshots_of_get? hget).symm
      · rfl
    | some emit =>
      obtain ⟨hworkspace, htab, hchanges⟩ := hmutation.emits emit hemit
      refine ⟨.single ?_, h.stored hmutation.belongs hissued le_rfl rfl⟩
      refine ⟨rfl, rfl, rfl, rfl, le_rfl, ?_, ?_, ?_⟩
      · -- a session that exists is not opened
        intro snapshot hopened
        have hnot : emit.type = .opened snapshot := hopened
        rw [hnot] at hchanges
        cases hchanges
      · intro workspaceId' tabId' hne
        have hkey : (wid, tabId) ≠ (workspaceId', tabId') := by
          rw [← hworkspace, ← htab]
          exact hne
        rw [snapshots_stored state rfl, if_neg hkey]
      · show Changes exact emit.tabId emit.createdAt emit.type
          (state.snapshots emit.workspaceId emit.tabId) _
        rw [hworkspace, htab, snapshots_of_get? hget]
        show Changes exact tabId emit.createdAt emit.type (some session.snapshot)
          (ManagerState.snapshots _ emit.workspaceId emit.tabId)
        rw [snapshots_stored state rfl, if_pos (by rw [hworkspace, htab])]
        exact hchanges

end ManagerState

section Mutations

variable {exact : Prop} {wid : String} {tabId : PreviewTabId}
  {session : PreviewSessionState}

theorem navigateSession_sound (now : ℕ) (input : PreviewNavigateInput) (url : String)
    (h : session.Belongs input.workspaceId input.tabId) :
    (navigateSession now input url session).Sound exact input.workspaceId input.tabId session where
  belongs := ⟨h.workspaceId_eq, h.tabId_eq, h.snapshot_workspaceId, h.snapshot_tabId, rfl⟩
  quiet hemit := absurd hemit nofun
  emits emit hemit := by
    cases hemit
    exact ⟨rfl, rfl, .navigated _ _ h.snapshot_tabId⟩

theorem resizeSession_sound (now : ℕ) (input : PreviewResizeInput)
    (h : session.Belongs input.workspaceId input.tabId) :
    (resizeSession now input session).Sound exact input.workspaceId input.tabId session where
  belongs := ⟨h.workspaceId_eq, h.tabId_eq, h.snapshot_workspaceId, h.snapshot_tabId, rfl⟩
  quiet hemit := absurd hemit nofun
  emits emit hemit := by
    cases hemit
    exact ⟨rfl, rfl, .resized _ _ h.snapshot_tabId⟩

def PreviewNavStatus.isLoadFailed : PreviewNavStatus → Bool
  | .loadFailed _ _ _ _ => true
  | _ => false

/-- A report of a failure repeats the flags that are stored. -/
def PreviewReportStatusInput.RepeatsFlags (input : PreviewReportStatusInput)
    (previous : PreviewSessionSnapshot) : Prop :=
  input.navStatus.isLoadFailed = true →
    input.canGoBack = previous.canGoBack ∧ input.canGoForward = previous.canGoForward

theorem reportSessionStatus_sound (now : ℕ) (input : PreviewReportStatusInput)
    (h : session.Belongs input.workspaceId input.tabId)
    (hexact : exact → input.RepeatsFlags session.snapshot) :
    (reportSessionStatus now input session).Sound exact input.workspaceId input.tabId session where
  belongs := ⟨h.workspaceId_eq, h.tabId_eq, h.snapshot_workspaceId, h.snapshot_tabId, rfl⟩
  quiet hemit := absurd hemit nofun
  emits emit hemit := by
    obtain ⟨viewport, hviewport⟩ := isSome_iff_exists.mp h.viewport
    unfold reportSessionStatus at hemit ⊢
    dsimp only at hemit ⊢
    cases hemit
    refine ⟨rfl, rfl, ?_⟩
    dsimp only
    cases hstatus : input.navStatus with
    | loadFailed code description title url =>
      -- the viewport that is stored is told to stay
      rw [hviewport, getD_some, ← hviewport]
      exact .failed _ _ _ _ _ _ _ fun he => hexact he (by rw [hstatus]; rfl)
    | _ => exact .navigated _ _ h.snapshot_tabId

end Mutations

namespace ManagerState

variable {exact : Prop} {state : ManagerState}

theorem WellFormed.register (h : state.WellFormed) (snapshot : PreviewSessionSnapshot)
    (htab : snapshot.tabId = state.nextPreviewTabSequence + 1)
    (hviewport : snapshot.viewport.isSome) :
    let outcome :=
      { state with nextPreviewTabSequence := state.nextPreviewTabSequence + 1 }.register snapshot
    Told exact state outcome.events outcome.state ∧ outcome.state.WellFormed := by
  have hlt : state.nextPreviewTabSequence < snapshot.tabId :=
    Nat.lt_of_lt_of_eq (Nat.lt_succ_self _) htab.symm
  have hnew : state.snapshots snapshot.workspaceId snapshot.tabId = none := by
    cases hget : OrderedMap.get? state.sessions (snapshot.workspaceId, snapshot.tabId) with
    | none => rw [snapshots, hget, map_none]
    | some session =>
      exact absurd (h.issued _ _ _ hget) (Nat.not_le.mpr hlt)
  let session : PreviewSessionState := ⟨snapshot, snapshot.tabId, snapshot.workspaceId⟩
  let next : ManagerState :=
    { state with
      nextPreviewTabSequence := state.nextPreviewTabSequence + 1
      revision := state.revision + 1
      sessions := OrderedMap.set state.sessions (snapshot.workspaceId, snapshot.tabId) session }
  have hread : ∀ wid tabId, next.snapshots wid tabId =
      if (snapshot.workspaceId, snapshot.tabId) = (wid, tabId) then some session.snapshot
      else state.snapshots wid tabId := snapshots_stored state rfl
  have hsession : session.Belongs snapshot.workspaceId snapshot.tabId :=
    ⟨rfl, rfl, rfl, rfl, hviewport⟩
  refine ⟨.single ⟨rfl, rfl, rfl, rfl, Nat.le_succ _, ?_, ?_, ?_⟩, ?_⟩
  · intro _ _
    exact ⟨hlt, htab.le⟩
  · intro wid tabId hne
    exact (hread wid tabId).trans (if_neg hne)
  · show Changes exact snapshot.tabId snapshot.updatedAt (.opened snapshot)
      (state.snapshots snapshot.workspaceId snapshot.tabId)
      (next.snapshots snapshot.workspaceId snapshot.tabId)
    rw [hnew, hread, if_pos rfl]
    exact .opened snapshot rfl
  · exact h.stored hsession htab.le (Nat.le_succ _) rfl

theorem WellFormed.openTab (h : state.WellFormed)
    (normalizePreviewUrl : String → Except PreviewInvalidUrlError String) (now : ℕ)
    (input : PreviewOpenInput) :
    let outcome := state.openTab normalizePreviewUrl now input
    Told exact state outcome.events outcome.state ∧ outcome.state.WellFormed := by
  unfold ManagerState.openTab
  dsimp only
  cases input.url with
  | none => exact h.register _ rfl rfl
  | some rawUrl =>
    dsimp only
    cases normalizePreviewUrl rawUrl with
    | error error =>
      -- the tab number is gone all the same
      exact ⟨.silent rfl rfl (Nat.le_succ _) rfl, h.nodup, h.belongs,
        fun _ _ _ hget => (h.issued _ _ _ hget).trans (Nat.le_succ _)⟩
    | ok url => exact h.register _ rfl rfl

theorem WellFormed.navigate (h : state.WellFormed)
    (normalizePreviewUrl : String → Except PreviewInvalidUrlError String) (now : ℕ)
    (input : PreviewNavigateInput) :
    let outcome := state.navigate normalizePreviewUrl now input
    Told exact state outcome.events outcome.state ∧ outcome.state.WellFormed := by
  unfold ManagerState.navigate
  cases normalizePreviewUrl input.url with
  | error error => exact ⟨.refl exact state, h⟩
  | ok url => exact h.mutateExisting _ fun _ hb _ => navigateSession_sound now input url hb

/-- The targets of a close are sessions of the state, each once. -/
structure Targets (state : ManagerState) (targets : List PreviewSessionState) : Prop where
  stored : ∀ target ∈ targets,
    OrderedMap.get? state.sessions (target.workspaceId, target.tabId) = some target
  nodup : (targets.map fun target => (target.workspaceId, target.tabId)).Nodup

theorem WellFormed.closeEach (createdAt : ℕ) (targets : List PreviewSessionState)
    (h : state.WellFormed) (htargets : state.Targets targets) :
    let outcome := closeEach createdAt targets state
    Told exact state outcome.events outcome.state ∧ outcome.state.WellFormed := by
  induction targets generalizing state with
  | nil => exact ⟨.refl exact state, h⟩
  | cons target targets ih =>
    have hnodup := htargets.nodup
    rw [map_cons, nodup_cons] at hnodup
    have hstored := htargets.stored target mem_cons_self
    let next : ManagerState :=
      { state with
        revision := state.revision + 1
        sessions := OrderedMap.delete state.sessions (target.workspaceId, target.tabId) }
    have hread : ∀ wid tabId, next.snapshots wid tabId =
        if (target.workspaceId, target.tabId) = (wid, tabId) then none
        else state.snapshots wid tabId := snapshots_deleted state rfl
    have hnext : next.WellFormed := h.deleted (target.workspaceId, target.tabId) rfl rfl
    have hrest : next.Targets targets := by
      refine ⟨fun other hother => ?_, hnodup.2⟩
      have hne : (target.workspaceId, target.tabId) ≠ (other.workspaceId, other.tabId) :=
        fun heq => hnodup.1 (heq ▸ mem_map_of_mem hother)
      rw [get?_delete, if_neg hne]
      exact htargets.stored other (mem_cons_of_mem _ hother)
    obtain ⟨htold, hwellFormed⟩ := ih hnext hrest
    let emit : PreviewEventDraft :=
      { createdAt := createdAt, tabId := target.tabId, type := .closed
        workspaceId := target.workspaceId }
    have hpublished : Published exact state (state.publish emit (state.revision + 1)) next := by
      refine ⟨rfl, rfl, rfl, rfl, le_rfl, fun _ hopened => absurd hopened nofun, ?_, ?_⟩
      · intro wid tabId hne
        exact (hread wid tabId).trans (if_neg hne)
      · show Changes exact target.tabId createdAt .closed
          (state.snapshots target.workspaceId target.tabId)
          (next.snapshots target.workspaceId target.tabId)
        rw [snapshots_of_get? hstored, hread, if_pos rfl]
        exact .closed _
    exact ⟨.event hpublished htold, hwellFormed⟩

theorem WellFormed.targets_workspace (h : state.WellFormed) (wid : String) :
    state.Targets (sessionsForWorkspace state wid) := by
  have hstored : ∀ e ∈ state.sessions, (e.2.workspaceId, e.2.tabId) = e.1 := by
    intro e he
    have hbelongs := h.belongs _ _ _ (get?_of_mem h.nodup he)
    rw [hbelongs.workspaceId_eq, hbelongs.tabId_eq]
  refine ⟨fun target htarget => ?_, ?_⟩
  · obtain ⟨e, he, rfl⟩ := mem_map.mp (mem_of_mem_filter htarget)
    rw [hstored e he]
    exact get?_of_mem h.nodup he
  · have hkeys : (OrderedMap.values state.sessions).map
        (fun target => (target.workspaceId, target.tabId)) = state.sessions.map Prod.fst := by
      rw [List.map_map]
      exact map_congr_left hstored
    apply List.Nodup.sublist (filter_sublist.map _)
    rw [hkeys]
    exact h.nodup

theorem WellFormed.close (h : state.WellFormed) (now : ℕ) (input : PreviewCloseInput) :
    let outcome := state.close now input
    Told exact state outcome.events outcome.state ∧ outcome.state.WellFormed := by
  unfold ManagerState.close
  dsimp only
  apply h.closeEach
  cases input.tabId with
  | none => exact h.targets_workspace input.workspaceId
  | some tabId =>
    dsimp only
    cases hget : OrderedMap.get? state.sessions (input.workspaceId, tabId) with
    | none => exact ⟨fun _ hmem => absurd hmem not_mem_nil, nodup_nil⟩
    | some session =>
      refine ⟨fun target htarget => ?_, nodup_singleton _⟩
      have hbelongs := h.belongs _ _ _ hget
      rw [mem_singleton.mp htarget, hbelongs.workspaceId_eq, hbelongs.tabId_eq]
      exact hget

end ManagerState

/-- A report of a failure repeats the flags of the session it is about. -/
def PreviewOperation.RepeatsFlags (state : ManagerState) : PreviewOperation → Prop
  | .reportStatus _ input =>
    ∀ previous ∈ state.snapshots input.workspaceId input.tabId, input.RepeatsFlags previous
  | _ => True

instance (input : PreviewReportStatusInput) (previous : PreviewSessionSnapshot) :
    Decidable (input.RepeatsFlags previous) :=
  inferInstanceAs (Decidable (_ → _ ∧ _))

instance (state : ManagerState) : (operation : PreviewOperation) →
    Decidable (operation.RepeatsFlags state)
  | .reportStatus _ input =>
    inferInstanceAs (Decidable (∀ previous ∈ state.snapshots input.workspaceId input.tabId,
      input.RepeatsFlags previous))
  | .openTab _ _ => isTrue trivial
  | .navigate _ _ => isTrue trivial
  | .resize _ _ => isTrue trivial
  | .refresh _ => isTrue trivial
  | .close _ _ => isTrue trivial

/-- **What an operation does.** It publishes the changes that it makes. -/
theorem ManagerState.WellFormed.perform (h : state.WellFormed)
    (normalizePreviewUrl : String → Except PreviewInvalidUrlError String)
    (operation : PreviewOperation) :
    let outcome := state.perform normalizePreviewUrl operation
    Told (operation.RepeatsFlags state) state outcome.events outcome.state ∧
      outcome.state.WellFormed := by
  cases operation with
  | openTab now input => exact h.openTab normalizePreviewUrl now input
  | navigate now input => exact h.navigate normalizePreviewUrl now input
  | reportStatus now input =>
    exact h.mutateExisting _ fun session hb hget =>
      reportSessionStatus_sound now input hb fun hflags =>
        hflags session.snapshot (snapshots_of_get? hget)
  | resize now input => exact h.mutateExisting _ fun _ hb _ => resizeSession_sound now input hb
  | refresh input =>
    apply h.mutateExisting fun session => { emit := none, next := session, result := () }
    exact fun _ hb _ => ⟨hb, fun _ => rfl, fun _ hemit => absurd hemit nofun⟩
  | close now input => exact h.close now input

/-! ## Lists -/

namespace ManagerState

variable {state : ManagerState} {wid : String}

theorem WellFormed.mem_list (h : state.WellFormed) {tabId : PreviewTabId}
    {snapshot : PreviewSessionSnapshot} :
    snapshot ∈ (state.list wid).sessions ∧ snapshot.tabId = tabId ↔
      state.snapshots wid tabId = some snapshot := by
  unfold list
  rw [List.mem_insertionSort, List.mem_map]
  constructor
  · rintro ⟨⟨session, hmem, rfl⟩, rfl⟩
    have hstored := (h.targets_workspace wid).stored session hmem
    have hworkspace : session.workspaceId = wid := of_decide_eq_true (mem_filter.mp hmem).2
    rw [hworkspace] at hstored
    rw [(h.belongs _ _ _ hstored).snapshot_tabId]
    exact snapshots_of_get? hstored
  · intro hread
    obtain ⟨session, hget, rfl⟩ := snapshots_eq_some hread
    have hbelongs := h.belongs _ _ _ hget
    refine ⟨⟨session, mem_filter.mpr ⟨?_, ?_⟩, rfl⟩, hbelongs.snapshot_tabId⟩
    · exact mem_map.mpr ⟨_, mem_of_get? hget, rfl⟩
    · exact decide_eq_true hbelongs.workspaceId_eq

theorem WellFormed.nodup_list (h : state.WellFormed) (wid : String) :
    ((state.list wid).sessions.map (·.tabId)).Nodup := by
  have htargets := h.targets_workspace wid
  have htabs : (sessionsForWorkspace state wid).map (fun session => session.snapshot.tabId) =
      (sessionsForWorkspace state wid).map (·.tabId) := by
    apply List.map_congr_left
    intro session hmem
    have hbelongs := h.belongs _ _ _ (htargets.stored session hmem)
    rw [hbelongs.snapshot_tabId]
  unfold list
  apply ((perm_insertionSort _ _).map _).nodup_iff.mpr
  rw [List.map_map]
  show ((sessionsForWorkspace state wid).map fun session => session.snapshot.tabId).Nodup
  rw [htabs]
  refine (nodup_map_iff_inj_on ?_).mpr ?_
  · exact List.Nodup.of_map _ htargets.nodup
  · intro session hmem session' hmem' heq
    have hworkspace : session.workspaceId = wid := of_decide_eq_true (mem_filter.mp hmem).2
    have hworkspace' : session'.workspaceId = wid := of_decide_eq_true (mem_filter.mp hmem').2
    have hstored := htargets.stored session hmem
    have hstored' := htargets.stored session' hmem'
    rw [hworkspace, heq] at hstored
    rw [hworkspace'] at hstored'
    exact some.inj (hstored.symm.trans hstored')

end ManagerState

end Laborer.Previews
