import Laborer.Previews.PreviewMirrors

/-!
# The tabs in the events of a server

The events of a server open a tab once, before anything else is told of it, and close it
at most once, after which nothing is told of it. The tabs that a server has open are those
opened and not closed in its events.
-/

namespace Laborer.Previews

open Library List Option

/-! ## Opening and closing events -/

def PreviewEventType.isOpened : PreviewEventType → Bool
  | .opened _ => true
  | _ => false

def PreviewEventType.isClosed : PreviewEventType → Bool
  | .closed => true
  | _ => false

theorem PreviewEventType.exists_of_isOpened {type : PreviewEventType} (h : type.isOpened = true) :
    ∃ snapshot, type = .opened snapshot := by
  cases type with
  | opened snapshot => exact ⟨snapshot, rfl⟩
  | _ => cases h

def PreviewEventType.snapshot? : PreviewEventType → Option PreviewSessionSnapshot
  | .opened snapshot => some snapshot
  | .navigated snapshot => some snapshot
  | .resized snapshot => some snapshot
  | .failed _ _ _ _ => none
  | .closed => none

/-- The snapshot of an event is one of its tab. -/
def PreviewEvent.Keyed (event : PreviewEvent) : Prop :=
  ∀ snapshot ∈ event.type.snapshot?, snapshot.tabId = event.tabId

section Changes

variable {exact : Prop} {tabId : PreviewTabId} {createdAt : ℕ} {type : PreviewEventType}
  {previous next : Option PreviewSessionSnapshot}

theorem Changes.isOpened_iff (h : Changes exact tabId createdAt type previous next) :
    type.isOpened = true ↔ previous = none := by
  cases h with
  | opened => exact ⟨fun _ => rfl, fun _ => rfl⟩
  | _ => exact ⟨nofun, nofun⟩

theorem Changes.isClosed_iff (h : Changes exact tabId createdAt type previous next) :
    type.isClosed = true ↔ next = none := by
  cases h with
  | closed => exact ⟨fun _ => rfl, fun _ => rfl⟩
  | _ => exact ⟨nofun, nofun⟩

theorem Changes.keyed (h : Changes exact tabId createdAt type previous next) :
    ∀ snapshot ∈ type.snapshot?, snapshot.tabId = tabId := by
  intro snapshot hmem
  cases h with
  | opened shown htab =>
    cases hmem
    exact htab
  | navigated previous shown htab =>
    cases hmem
    exact htab
  | resized previous shown htab =>
    cases hmem
    exact htab
  | failed => cases hmem
  | closed => cases hmem

end Changes

def PreviewEvent.Opens (event : PreviewEvent) (workspaceId : String) (tabId : PreviewTabId) :
    Prop :=
  (event.workspaceId, event.tabId) = (workspaceId, tabId) ∧ event.type.isOpened = true

def PreviewEvent.Closes (event : PreviewEvent) (workspaceId : String) (tabId : PreviewTabId) :
    Prop :=
  (event.workspaceId, event.tabId) = (workspaceId, tabId) ∧ event.type.isClosed = true

instance (event : PreviewEvent) (workspaceId : String) (tabId : PreviewTabId) :
    Decidable (event.Opens workspaceId tabId) :=
  inferInstanceAs (Decidable (_ ∧ _))

instance (event : PreviewEvent) (workspaceId : String) (tabId : PreviewTabId) :
    Decidable (event.Closes workspaceId tabId) :=
  inferInstanceAs (Decidable (_ ∧ _))

/-! ## Up to a revision -/

def Within (log : List PreviewEvent) (n : ℕ) (kind : PreviewEvent → Prop) : Prop :=
  ∃ event ∈ log.take n, kind event

instance (log : List PreviewEvent) (n : ℕ) (kind : PreviewEvent → Prop) [DecidablePred kind] :
    Decidable (Within log n kind) :=
  inferInstanceAs (Decidable (∃ event ∈ log.take n, kind event))

section Within

variable {log : List PreviewEvent} {kind : PreviewEvent → Prop} {m n : ℕ} {event : PreviewEvent}

theorem Within.mono (h : Within log m kind) (hle : m ≤ n) : Within log n kind := by
  obtain ⟨event, hmem, hkind⟩ := h
  exact ⟨event, (take_subset_take_left log hle) hmem, hkind⟩

theorem not_within_nil : ¬ Within [] n kind := by
  rintro ⟨event, hmem, _⟩
  rw [take_nil] at hmem
  exact not_mem_nil hmem

theorem within_iff : Within log n kind ↔ ∃ i event, i < n ∧ log[i]? = some event ∧ kind event := by
  constructor
  · rintro ⟨event, hmem, hkind⟩
    obtain ⟨i, hi⟩ := mem_iff_getElem?.mp hmem
    have hlt : i < n := by
      have hlength := (List.getElem?_eq_some_iff.mp hi).1
      rw [length_take] at hlength
      omega
    rw [getElem?_take_of_lt hlt] at hi
    exact ⟨i, event, hlt, hi, hkind⟩
  · rintro ⟨i, event, hlt, hi, hkind⟩
    refine ⟨event, mem_of_getElem? (i := i) ?_, hkind⟩
    rw [getElem?_take_of_lt hlt]
    exact hi

theorem within_succ (hentry : log[n]? = some event) :
    Within log (n + 1) kind ↔ Within log n kind ∨ kind event := by
  unfold Within
  rw [take_add_one, hentry]
  simp [mem_append, or_and_right, exists_or]

theorem within_append (hle : n ≤ log.length) (added : List PreviewEvent) :
    Within (log ++ added) n kind ↔ Within log n kind := by
  unfold Within
  rw [take_append_of_le_length hle]

end Within

abbrev OpenedBy (log : List PreviewEvent) (workspaceId : String) (tabId : PreviewTabId) (n : ℕ) :
    Prop :=
  Within log n (·.Opens workspaceId tabId)

abbrev ClosedBy (log : List PreviewEvent) (workspaceId : String) (tabId : PreviewTabId) (n : ℕ) :
    Prop :=
  Within log n (·.Closes workspaceId tabId)

/-! ## The log of a server -/

structure TabLog (server : ManagerState) (log : List PreviewEvent) : Prop where
  revision : server.revision = log.length
  numbered : Numbered server.serverEpoch log
  open_iff : ∀ workspaceId tabId, (server.snapshots workspaceId tabId).isSome ↔
    OpenedBy log workspaceId tabId log.length ∧ ¬ ClosedBy log workspaceId tabId log.length
  after_open : ∀ i event, log[i]? = some event →
    event.type.isOpened = true ∨ OpenedBy log event.workspaceId event.tabId i
  before_close : ∀ i event, log[i]? = some event →
    ¬ ClosedBy log event.workspaceId event.tabId i
  issued : ∀ workspaceId tabId, OpenedBy log workspaceId tabId log.length →
    tabId ≤ server.nextPreviewTabSequence
  keyed : ∀ event ∈ log, event.Keyed

namespace TabLog

variable {server server' : ManagerState} {log : List PreviewEvent} {wid : String}
  {tabId : PreviewTabId} {n : ℕ}

theorem start (serverEpoch : ℕ) : TabLog (ManagerState.start serverEpoch) [] where
  revision := rfl
  numbered _ _ h := absurd h nofun
  open_iff _ _ := ⟨fun h => Bool.noConfusion h, fun h => absurd h.1 not_within_nil⟩
  after_open _ _ h := absurd h nofun
  before_close _ _ h := absurd h nofun
  issued _ _ h := absurd h not_within_nil
  keyed _ h := absurd h List.not_mem_nil

theorem openedBy_of_closedBy (h : TabLog server log) (hclosed : ClosedBy log wid tabId n) :
    OpenedBy log wid tabId n := by
  obtain ⟨i, event, hlt, hentry, hkey, hkind⟩ := within_iff.mp hclosed
  cases hkey
  rcases h.after_open i event hentry with hopened | hopened
  · -- no event opens and closes
    obtain ⟨snapshot, htype⟩ := PreviewEventType.exists_of_isOpened hopened
    rw [htype] at hkind
    cases hkind
  · exact hopened.mono hlt.le

theorem snapshots_of_closedBy (h : TabLog server log) (hn : n ≤ log.length)
    (hclosed : ClosedBy log wid tabId n) : server.snapshots wid tabId = none := by
  apply not_isSome_iff_eq_none.mp
  intro hsome
  exact ((h.open_iff wid tabId).mp hsome).2 (hclosed.mono hn)

theorem published {exact : Prop} (h : TabLog server log) {event : PreviewEvent}
    (hpublished : Published exact server event server') : TabLog server' (log ++ [event]) := by
  have hlast : (log ++ [event])[log.length]? = some event := getElem?_concat_length
  have hlength : (log ++ [event]).length = log.length + 1 := by
    rw [length_append, length_singleton]
  have hwithin : ∀ kind : PreviewEvent → Prop,
      Within (log ++ [event]) (log ++ [event]).length kind ↔
        Within log log.length kind ∨ kind event := by
    intro kind
    rw [hlength, within_succ hlast, within_append le_rfl]
  have hopened := hpublished.changes.isOpened_iff
  have hclosed := hpublished.changes.isClosed_iff
  -- nothing of an opened tab has been told yet, and any other tab is open
  have hbefore : ¬ ClosedBy log event.workspaceId event.tabId log.length := by
    intro hwas
    cases hprevious : server.snapshots event.workspaceId event.tabId with
    | none =>
      have hissued := h.issued _ _ (h.openedBy_of_closedBy hwas)
      obtain ⟨snapshot, htype⟩ := PreviewEventType.exists_of_isOpened (hopened.mpr hprevious)
      exact absurd hissued (Nat.not_le.mpr (hpublished.fresh snapshot htype).1)
    | some snapshot =>
      exact ((h.open_iff _ _).mp (by rw [hprevious]; rfl)).2 hwas
  refine ⟨?_, ?_, ?_, ?_, ?_, ?_, ?_⟩
  · rw [hpublished.revision, h.revision, hlength]
  · rw [hpublished.serverEpoch]
    apply h.numbered.append
    intro i entry hentry
    cases i with
    | zero =>
      cases hentry
      exact ⟨by rw [hpublished.event_revision, h.revision], hpublished.event_serverEpoch⟩
    | succ i => cases hentry
  · intro wid tabId
    unfold OpenedBy ClosedBy
    rw [hwithin, hwithin]
    by_cases hkey : (event.workspaceId, event.tabId) = (wid, tabId)
    · cases hkey
      have hopens : event.Opens event.workspaceId event.tabId ↔
          server.snapshots event.workspaceId event.tabId = none :=
        ⟨fun ho => hopened.mp ho.2, fun hnone => ⟨rfl, hopened.mpr hnone⟩⟩
      have hcloses : event.Closes event.workspaceId event.tabId ↔
          server'.snapshots event.workspaceId event.tabId = none :=
        ⟨fun hc => hclosed.mp hc.2, fun hnone => ⟨rfl, hclosed.mpr hnone⟩⟩
      rw [hopens, hcloses, isSome_iff_ne_none]
      constructor
      · intro hsome
        refine ⟨?_, not_or.mpr ⟨hbefore, hsome⟩⟩
        rw [or_iff_not_imp_right]
        intro hprevious
        exact ((h.open_iff _ _).mp (isSome_iff_ne_none.mpr hprevious)).1
      · exact fun hopen => (not_or.mp hopen.2).2
    · have hopens : ¬ event.Opens wid tabId := fun ho => hkey ho.1
      have hcloses : ¬ event.Closes wid tabId := fun hc => hkey hc.1
      rw [hpublished.others wid tabId hkey, or_iff_left hopens, or_iff_left hcloses]
      exact h.open_iff wid tabId
  · intro i entry hentry
    by_cases hi : i < log.length
    · rw [getElem?_append_left hi] at hentry
      rw [OpenedBy, within_append hi.le]
      exact h.after_open i entry hentry
    · have hi : i = log.length := by
        have hbound := (List.getElem?_eq_some_iff.mp hentry).1
        omega
      subst hi
      cases hlast.symm.trans hentry
      rw [OpenedBy, within_append le_rfl]
      by_cases hprevious : server.snapshots event.workspaceId event.tabId = none
      · exact .inl (hopened.mpr hprevious)
      · exact .inr ((h.open_iff _ _).mp (isSome_iff_ne_none.mpr hprevious)).1
  · intro i entry hentry
    by_cases hi : i < log.length
    · rw [getElem?_append_left hi] at hentry
      rw [ClosedBy, within_append hi.le]
      exact h.before_close i entry hentry
    · have hi : i = log.length := by
        have hbound := (List.getElem?_eq_some_iff.mp hentry).1
        omega
      subst hi
      cases hlast.symm.trans hentry
      rw [ClosedBy, within_append le_rfl]
      exact hbefore
  · intro wid tabId hwas
    rcases (hwithin _).mp hwas with hwas | ⟨hkey, hkind⟩
    · exact (h.issued wid tabId hwas).trans hpublished.sequence
    · cases hkey
      obtain ⟨snapshot, htype⟩ := PreviewEventType.exists_of_isOpened hkind
      exact (hpublished.fresh snapshot htype).2
  · intro entry hmem
    rcases mem_append.mp hmem with hmem | hmem
    · exact h.keyed entry hmem
    · rw [mem_singleton.mp hmem]
      exact hpublished.changes.keyed

theorem told {exact : Prop} {events : List PreviewEvent} (htold : Told exact server events server')
    (h : TabLog server log) : TabLog server' (log ++ events) := by
  induction htold generalizing log with
  | silent revision serverEpoch sequence same =>
    rw [append_nil]
    refine ⟨revision.trans h.revision, ?_, ?_, h.after_open, h.before_close, ?_, h.keyed⟩
    · rw [serverEpoch]
      exact h.numbered
    · rw [same]
      exact h.open_iff
    · exact fun wid tabId hwas => (h.issued wid tabId hwas).trans sequence
  | event published _ ih =>
    have hrest := ih (h.published published)
    rw [append_assoc] at hrest
    exact hrest

end TabLog

end Laborer.Previews
