import Laborer.Previews.PreviewManager
import Mathlib.Data.Finset.Basic

/-!
# The preview store of the client

What the client keeps of the previews of each workspace and how it folds the events and
the list answers of the server into it. The desktop overlays, which only the desktop
bridge fills, are left out.
-/

namespace Laborer.Previews

open Library List OrderedMap

structure WorkspacePreviewState where
  activeTabId : Option PreviewTabId
  recentlySeenUrls : List String
  serverEpoch : Option ℕ
  serverRevision : ℕ
  sessions : OrderedMap PreviewTabId PreviewSessionSnapshot
  suppressedTabIds : Finset PreviewTabId

def emptyWorkspacePreviewState : WorkspacePreviewState where
  activeTabId := none
  recentlySeenUrls := []
  serverEpoch := none
  serverRevision := 0
  sessions := []
  suppressedTabIds := ∅

def PreviewNavStatus.url? : PreviewNavStatus → Option String
  | .idle => none
  | .loading _ url => some url
  | .success _ url => some url
  | .loadFailed _ _ _ url => some url

def rememberUrl (urls : List String) (snapshot : PreviewSessionSnapshot) : List String :=
  match snapshot.navStatus.url? with
  | none => urls
  | some seen => (seen :: urls.filter (· ≠ seen)).take 8

def latest (sessions : OrderedMap PreviewTabId PreviewSessionSnapshot) :
    Option PreviewSessionSnapshot :=
  ((OrderedMap.values sessions).insertionSort
    fun left right => left.updatedAt ≤ right.updatedAt).getLast?

namespace WorkspacePreviewState

def removeSession (state : WorkspacePreviewState) (tabId : PreviewTabId) :
    WorkspacePreviewState :=
  match OrderedMap.get? state.sessions tabId with
  | none => state
  | some _ =>
    let sessions := OrderedMap.delete state.sessions tabId
    { state with
      sessions := sessions
      activeTabId :=
        if state.activeTabId = some tabId then (latest sessions).map (·.tabId)
        else state.activeTabId }

/-- The snapshot of an event that is not a failure and not a close. -/
def present (state : WorkspacePreviewState) (tabId : PreviewTabId)
    (activeTabId : PreviewTabId) (snapshot : PreviewSessionSnapshot) : WorkspacePreviewState :=
  if tabId ∈ state.suppressedTabIds then state
  else
    { state with
      sessions := OrderedMap.set state.sessions tabId snapshot
      activeTabId := some activeTabId
      recentlySeenUrls := rememberUrl state.recentlySeenUrls snapshot }

def fold (state : WorkspacePreviewState) (event : PreviewEvent) : WorkspacePreviewState :=
  match event.type with
  | .closed =>
    let next := state.removeSession event.tabId
    { next with suppressedTabIds := next.suppressedTabIds.erase event.tabId }
  | .failed code description title url =>
    match OrderedMap.get? state.sessions event.tabId with
    | none => state
    | some previous =>
      { state with
        sessions := OrderedMap.set state.sessions event.tabId
          { previous with
            updatedAt := event.createdAt
            navStatus := .loadFailed code description title url } }
  | .opened snapshot => state.present event.tabId event.tabId snapshot
  | .navigated snapshot =>
    state.present event.tabId (state.activeTabId.getD event.tabId) snapshot
  | .resized snapshot =>
    state.present event.tabId (state.activeTabId.getD event.tabId) snapshot

def applyEvent (state : WorkspacePreviewState) (event : PreviewEvent) : WorkspacePreviewState :=
  if state.serverEpoch ≠ none ∧ some event.serverEpoch ≠ state.serverEpoch then state
  else if event.revision ≤ state.serverRevision then state
  else
    { state.fold event with
      serverEpoch := some event.serverEpoch
      serverRevision := event.revision }

def beginClose (state : WorkspacePreviewState) (tabId : PreviewTabId) : WorkspacePreviewState :=
  { state.removeSession tabId with
    suppressedTabIds := insert tabId state.suppressedTabIds }

def cancelClose (state : WorkspacePreviewState) (tabId : PreviewTabId)
    (snapshot : Option PreviewSessionSnapshot) : WorkspacePreviewState :=
  let suppressedTabIds := state.suppressedTabIds.erase tabId
  match snapshot with
  | none => { state with suppressedTabIds := suppressedTabIds }
  | some snapshot =>
    { state with
      suppressedTabIds := suppressedTabIds
      sessions := OrderedMap.set state.sessions tabId snapshot
      activeTabId := some tabId }

/-- An existing session is kept where it is later than the one of a list. -/
def newer (existing : Option PreviewSessionSnapshot) (incoming : PreviewSessionSnapshot) :
    PreviewSessionSnapshot :=
  match existing with
  | none => incoming
  | some existing => if existing.updatedAt > incoming.updatedAt then existing else incoming

/-- The sessions of a list answer and the URLs seen in them, one session after the other:
a suppressed tab is skipped. -/
def merge (existing : PreviewTabId → Option PreviewSessionSnapshot)
    (suppressedTabIds : Finset PreviewTabId) :
    List PreviewSessionSnapshot →
      OrderedMap PreviewTabId PreviewSessionSnapshot × List String →
      OrderedMap PreviewTabId PreviewSessionSnapshot × List String
  | [], merged => merged
  | incoming :: rest, merged =>
    if incoming.tabId ∈ suppressedTabIds then merge existing suppressedTabIds rest merged
    else
      let snapshot := newer (existing incoming.tabId) incoming
      merge existing suppressedTabIds rest
        (OrderedMap.set merged.1 snapshot.tabId snapshot, rememberUrl merged.2 snapshot)

def reconcile (state : WorkspacePreviewState) (result : PreviewListResult) :
    WorkspacePreviewState :=
  let sameServer := state.serverEpoch = some result.serverEpoch
  if sameServer ∧ result.revision < state.serverRevision then state
  else
    let suppressedTabIds := if sameServer then state.suppressedTabIds else ∅
    let merged := merge
      (fun tabId => if sameServer then OrderedMap.get? state.sessions tabId else none)
      suppressedTabIds result.sessions ([], state.recentlySeenUrls)
    { activeTabId :=
        match state.activeTabId.filter fun tabId => (OrderedMap.get? merged.1 tabId).isSome with
        | some tabId => some tabId
        | none => (latest merged.1).map (·.tabId)
      recentlySeenUrls := merged.2
      serverEpoch := some result.serverEpoch
      serverRevision := result.revision
      sessions := merged.1
      suppressedTabIds := suppressedTabIds.filter fun tabId =>
        tabId ∈ result.sessions.map (·.tabId) }

def setActive (state : WorkspacePreviewState) (tabId : PreviewTabId) : WorkspacePreviewState :=
  if (OrderedMap.get? state.sessions tabId).isSome then { state with activeTabId := some tabId }
  else state

def upsert (state : WorkspacePreviewState) (snapshot : PreviewSessionSnapshot) :
    WorkspacePreviewState :=
  { state with
    sessions := OrderedMap.set state.sessions snapshot.tabId snapshot
    activeTabId := some snapshot.tabId
    recentlySeenUrls := rememberUrl state.recentlySeenUrls snapshot }

/-! ## Events -/

section Events

variable (state : WorkspacePreviewState) (tabId : PreviewTabId)

theorem get?_removeSession (tabId' : PreviewTabId) :
    OrderedMap.get? (state.removeSession tabId).sessions tabId' =
      if tabId = tabId' then none else OrderedMap.get? state.sessions tabId' := by
  unfold removeSession
  cases hget : OrderedMap.get? state.sessions tabId with
  | none =>
    by_cases heq : tabId = tabId'
    · rw [if_pos heq, ← heq]
      exact hget
    · exact (if_neg heq).symm
  | some _ => exact get?_delete _ _ _

@[simp] theorem removeSession_suppressedTabIds :
    (state.removeSession tabId).suppressedTabIds = state.suppressedTabIds := by
  unfold removeSession
  cases OrderedMap.get? state.sessions tabId with
  | none => rfl
  | some _ => rfl

@[simp] theorem removeSession_serverEpoch :
    (state.removeSession tabId).serverEpoch = state.serverEpoch := by
  unfold removeSession
  cases OrderedMap.get? state.sessions tabId with
  | none => rfl
  | some _ => rfl

@[simp] theorem removeSession_serverRevision :
    (state.removeSession tabId).serverRevision = state.serverRevision := by
  unfold removeSession
  cases OrderedMap.get? state.sessions tabId with
  | none => rfl
  | some _ => rfl

variable {state tabId}

theorem present_of_not_suppressed (h : tabId ∉ state.suppressedTabIds)
    (activeTabId : PreviewTabId) (snapshot : PreviewSessionSnapshot) :
    (state.present tabId activeTabId snapshot).sessions =
      OrderedMap.set state.sessions tabId snapshot := by
  rw [present, if_neg h]

@[simp] theorem present_suppressedTabIds (activeTabId : PreviewTabId)
    (snapshot : PreviewSessionSnapshot) :
    (state.present tabId activeTabId snapshot).suppressedTabIds = state.suppressedTabIds := by
  unfold present
  split
  · rfl
  · rfl

end Events

end WorkspacePreviewState

/-- What a tab has after an event that tells of it. -/
def PreviewEvent.told (event : PreviewEvent) (previous : Option PreviewSessionSnapshot) :
    Option PreviewSessionSnapshot :=
  match event.type with
  | .closed => none
  | .failed code description title url => previous.map fun previous =>
    { previous with
      updatedAt := event.createdAt
      navStatus := .loadFailed code description title url }
  | .opened snapshot => some snapshot
  | .navigated snapshot => some snapshot
  | .resized snapshot => some snapshot

namespace WorkspacePreviewState

variable {state : WorkspacePreviewState} {event : PreviewEvent}

theorem get?_fold_of_ne {tabId : PreviewTabId} (h : event.tabId ≠ tabId) :
    OrderedMap.get? (state.fold event).sessions tabId = OrderedMap.get? state.sessions tabId := by
  have hpresent : ∀ activeTabId snapshot,
      OrderedMap.get? (state.present event.tabId activeTabId snapshot).sessions tabId =
        OrderedMap.get? state.sessions tabId := by
    intro activeTabId snapshot
    unfold present
    split
    · rfl
    · exact (get?_set _ _ _ _).trans (if_neg h)
  unfold fold
  cases event.type with
  | closed => exact (get?_removeSession state _ _).trans (if_neg h)
  | failed code description title url =>
    cases OrderedMap.get? state.sessions event.tabId with
    | none => rfl
    | some previous => exact (get?_set _ _ _ _).trans (if_neg h)
  | _ => exact hpresent _ _

theorem get?_fold_of_not_suppressed (h : event.tabId ∉ state.suppressedTabIds) :
    OrderedMap.get? (state.fold event).sessions event.tabId =
      event.told (OrderedMap.get? state.sessions event.tabId) := by
  have hpresent : ∀ activeTabId snapshot,
      OrderedMap.get? (state.present event.tabId activeTabId snapshot).sessions event.tabId =
        some snapshot := by
    intro activeTabId snapshot
    rw [present_of_not_suppressed h, get?_set, if_pos rfl]
  unfold fold PreviewEvent.told
  cases event.type with
  | closed => exact (get?_removeSession state _ _).trans (if_pos rfl)
  | failed code description title url =>
    cases hget : OrderedMap.get? state.sessions event.tabId with
    | none => exact hget
    | some previous => exact (get?_set _ _ _ _).trans (if_pos rfl)
  | _ => exact hpresent _ _

/-- Neither an event nor a list of another server is known yet, or the event is of the
same one. -/
def Accepts (state : WorkspacePreviewState) (serverEpoch : ℕ) : Prop :=
  state.serverEpoch = none ∨ state.serverEpoch = some serverEpoch

instance (state : WorkspacePreviewState) (serverEpoch : ℕ) :
    Decidable (state.Accepts serverEpoch) :=
  inferInstanceAs (Decidable (_ ∨ _))

theorem applyEvent_of_old (h : event.revision ≤ state.serverRevision) :
    state.applyEvent event = state := by
  unfold applyEvent
  rw [if_pos h, ite_self]

theorem applyEvent_of_new (haccepts : state.Accepts event.serverEpoch)
    (h : state.serverRevision < event.revision) :
    state.applyEvent event =
      { state.fold event with
        serverEpoch := some event.serverEpoch
        serverRevision := event.revision } := by
  have hepoch : ¬ (state.serverEpoch ≠ none ∧ some event.serverEpoch ≠ state.serverEpoch) := by
    rcases haccepts with hnone | hsome
    · exact fun hne => hne.1 hnone
    · exact fun hne => hne.2 hsome.symm
  rw [applyEvent, if_neg hepoch, if_neg (Nat.not_le.mpr h)]

theorem fold_suppressedTabIds_subset :
    (state.fold event).suppressedTabIds ⊆ state.suppressedTabIds := by
  unfold fold
  cases event.type with
  | closed =>
    dsimp only
    rw [removeSession_suppressedTabIds]
    exact Finset.erase_subset _ _
  | failed code description title url =>
    cases OrderedMap.get? state.sessions event.tabId with
    | none => exact Finset.Subset.refl _
    | some previous => exact Finset.Subset.refl _
  | _ => exact (present_suppressedTabIds _ _).subset

/-! ## Lists -/

section Lists

variable {existing : PreviewTabId → Option PreviewSessionSnapshot}
  {suppressedTabIds : Finset PreviewTabId} {incoming : List PreviewSessionSnapshot}
  {snapshot : PreviewSessionSnapshot} {tabId : PreviewTabId}

theorem get?_merge_of_not_listed
    (hkeyed : ∀ listed ∈ incoming, (newer (existing listed.tabId) listed).tabId = listed.tabId)
    (h : ∀ listed ∈ incoming, listed.tabId = tabId → tabId ∈ suppressedTabIds)
    (merged : OrderedMap PreviewTabId PreviewSessionSnapshot × List String) :
    OrderedMap.get? (merge existing suppressedTabIds incoming merged).1 tabId =
      OrderedMap.get? merged.1 tabId := by
  induction incoming generalizing merged with
  | nil => rfl
  | cons listed rest ih =>
    have ih := ih (fun l hl => hkeyed l (mem_cons_of_mem _ hl))
      fun l hl => h l (mem_cons_of_mem _ hl)
    unfold merge
    split
    · exact ih merged
    · next hsuppressed =>
      have hne : listed.tabId ≠ tabId := by
        intro heq
        apply hsuppressed
        rw [heq]
        exact h listed mem_cons_self heq
      rw [ih, get?_set, hkeyed listed mem_cons_self, if_neg hne]

theorem get?_merge_of_listed
    (hkeyed : ∀ listed ∈ incoming, (newer (existing listed.tabId) listed).tabId = listed.tabId)
    (hnodup : (incoming.map (·.tabId)).Nodup) (hmem : snapshot ∈ incoming)
    (hsuppressed : snapshot.tabId ∉ suppressedTabIds)
    (merged : OrderedMap PreviewTabId PreviewSessionSnapshot × List String) :
    OrderedMap.get? (merge existing suppressedTabIds incoming merged).1 snapshot.tabId =
      some (newer (existing snapshot.tabId) snapshot) := by
  induction incoming generalizing merged with
  | nil => exact absurd hmem not_mem_nil
  | cons listed rest ih =>
    rw [map_cons, nodup_cons] at hnodup
    have hrest : ∀ l ∈ rest, (newer (existing l.tabId) l).tabId = l.tabId :=
      fun l hl => hkeyed l (mem_cons_of_mem _ hl)
    unfold merge
    rcases mem_cons.mp hmem with rfl | hmem
    · -- no later entry has the tab
      have hlater : ∀ l ∈ rest, l.tabId = snapshot.tabId → snapshot.tabId ∈ suppressedTabIds :=
        fun l hl heq => absurd (heq ▸ mem_map_of_mem hl) hnodup.1
      rw [if_neg hsuppressed, get?_merge_of_not_listed hrest hlater, get?_set,
        hkeyed snapshot mem_cons_self, if_pos rfl]
    · split
      · exact ih hrest hnodup.2 hmem merged
      · exact ih hrest hnodup.2 hmem _

theorem reconcile_of_le {state : WorkspacePreviewState} {result : PreviewListResult}
    (h : ¬ (state.serverEpoch = some result.serverEpoch ∧ result.revision < state.serverRevision)) :
    (state.reconcile result).sessions = (merge
        (fun tabId => if state.serverEpoch = some result.serverEpoch then
          OrderedMap.get? state.sessions tabId else none)
        (if state.serverEpoch = some result.serverEpoch then state.suppressedTabIds else ∅)
        result.sessions ([], state.recentlySeenUrls)).1 ∧
    (state.reconcile result).serverEpoch = some result.serverEpoch ∧
    (state.reconcile result).serverRevision = result.revision ∧
    (state.reconcile result).suppressedTabIds =
      (if state.serverEpoch = some result.serverEpoch then state.suppressedTabIds else ∅).filter
        fun tabId => tabId ∈ result.sessions.map (·.tabId) := by
  unfold reconcile
  dsimp only
  rw [if_neg h]
  exact ⟨rfl, rfl, rfl, rfl⟩

theorem accepts_reconcile (state : WorkspacePreviewState) (result : PreviewListResult) :
    (state.reconcile result).Accepts result.serverEpoch := by
  by_cases hold : state.serverEpoch = some result.serverEpoch ∧
      result.revision < state.serverRevision
  · rw [reconcile, if_pos hold]
    exact .inr hold.1
  · exact .inr (reconcile_of_le hold).2.1

end Lists

end WorkspacePreviewState

end Laborer.Previews
