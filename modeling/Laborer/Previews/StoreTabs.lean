import Laborer.Previews.TabLogs

/-!
# The tabs in the preview store

Which tabs each operation on the store of a client leaves in it, and that the active tab
is always one of them.
-/

namespace Laborer.Previews

open Library List OrderedMap Option

namespace WorkspacePreviewState

def Holds (state : WorkspacePreviewState) (tabId : PreviewTabId) : Prop :=
  (OrderedMap.get? state.sessions tabId).isSome = true

instance (state : WorkspacePreviewState) (tabId : PreviewTabId) : Decidable (state.Holds tabId) :=
  inferInstanceAs (Decidable (_ = true))

/-- Sessions stand under their own tab, and the active tab has one. -/
structure Sane (state : WorkspacePreviewState) : Prop where
  keyed : ∀ entry ∈ state.sessions, entry.2.tabId = entry.1
  active : ∀ tabId ∈ state.activeTabId, state.Holds tabId

theorem sane_empty : emptyWorkspacePreviewState.Sane :=
  ⟨fun _ h => absurd h not_mem_nil, fun _ h => absurd h nofun⟩

variable {state : WorkspacePreviewState} {tabId tabId' : PreviewTabId}
  {sessions : OrderedMap PreviewTabId PreviewSessionSnapshot}
  {snapshot : PreviewSessionSnapshot} {event : PreviewEvent}

theorem keyed_set (hkeyed : ∀ entry ∈ sessions, entry.2.tabId = entry.1)
    (htab : snapshot.tabId = tabId) :
    ∀ entry ∈ OrderedMap.set sessions tabId snapshot, entry.2.tabId = entry.1 := by
  intro entry hmem
  rcases mem_set hmem with rfl | hmem
  · exact htab
  · exact hkeyed entry hmem

theorem isSome_get?_set :
    (OrderedMap.get? (OrderedMap.set sessions tabId snapshot) tabId').isSome = true ↔
      tabId = tabId' ∨ (OrderedMap.get? sessions tabId').isSome = true := by
  rw [get?_set]
  by_cases htab : tabId = tabId'
  · simp [htab]
  · simp [htab]

theorem isSome_latest (hkeyed : ∀ entry ∈ sessions, entry.2.tabId = entry.1)
    (h : tabId ∈ (latest sessions).map (·.tabId)) :
    (OrderedMap.get? sessions tabId).isSome = true := by
  obtain ⟨last, hlast, rfl⟩ := map_eq_some_iff.mp h
  have hmem : last ∈ OrderedMap.values sessions := (mem_insertionSort _).mp (mem_of_getLast? hlast)
  obtain ⟨entry, hentry, rfl⟩ := mem_map.mp hmem
  rw [hkeyed entry hentry]
  obtain ⟨found, hfound⟩ := exists_get? (mem_map_of_mem hentry)
  rw [hfound]
  rfl

/-! ## Removing and adding -/

theorem holds_removeSession :
    (state.removeSession tabId).Holds tabId' ↔ tabId ≠ tabId' ∧ state.Holds tabId' := by
  unfold Holds
  rw [get?_removeSession]
  by_cases htab : tabId = tabId'
  · simp [htab]
  · simp [htab]

theorem Sane.removeSession (h : state.Sane) (tabId : PreviewTabId) :
    (state.removeSession tabId).Sane := by
  have hkeyed : ∀ entry ∈ OrderedMap.delete state.sessions tabId, entry.2.tabId = entry.1 :=
    fun entry hmem => h.keyed entry (mem_of_mem_filter hmem)
  unfold WorkspacePreviewState.removeSession
  cases hget : OrderedMap.get? state.sessions tabId with
  | none => exact h
  | some removed =>
    refine ⟨hkeyed, ?_⟩
    intro active hactive
    dsimp only at hactive
    split at hactive
    · exact isSome_latest hkeyed hactive
    · next hne =>
      have hother : tabId ≠ active := fun heq => hne (heq ▸ hactive)
      show (OrderedMap.get? (OrderedMap.delete state.sessions tabId) active).isSome = true
      rw [get?_delete, if_neg hother]
      exact h.active active hactive

theorem Sane.suppress (h : state.Sane) (suppressedTabIds : Finset PreviewTabId) :
    { state with suppressedTabIds := suppressedTabIds }.Sane :=
  ⟨h.keyed, h.active⟩

theorem Sane.store (h : state.Sane) (snapshot : PreviewSessionSnapshot)
    (htab : snapshot.tabId = tabId) {state' : WorkspacePreviewState}
    (hsessions : state'.sessions = OrderedMap.set state.sessions tabId snapshot)
    (hactive : ∀ active ∈ state'.activeTabId, active = tabId ∨ active ∈ state.activeTabId) :
    state'.Sane where
  keyed := by
    rw [hsessions]
    exact keyed_set h.keyed htab
  active active hmem := by
    unfold Holds
    rw [hsessions]
    rcases hactive active hmem with rfl | hmem
    · exact isSome_get?_set.mpr (.inl rfl)
    · exact isSome_get?_set.mpr (.inr (h.active active hmem))

theorem holds_of_set {state' : WorkspacePreviewState}
    (hsessions : state'.sessions = OrderedMap.set state.sessions tabId snapshot) :
    state'.Holds tabId' ↔ tabId = tabId' ∨ state.Holds tabId' := by
  unfold Holds
  rw [hsessions]
  exact isSome_get?_set

theorem Sane.upsert (h : state.Sane) (snapshot : PreviewSessionSnapshot) :
    (state.upsert snapshot).Sane := by
  refine h.store snapshot rfl rfl ?_
  intro active hactive
  exact .inl (some.inj hactive).symm

theorem holds_upsert : (state.upsert snapshot).Holds tabId ↔
    snapshot.tabId = tabId ∨ state.Holds tabId :=
  holds_of_set rfl

theorem Sane.beginClose (h : state.Sane) (tabId : PreviewTabId) : (state.beginClose tabId).Sane :=
  (h.removeSession tabId).suppress _

theorem holds_beginClose :
    (state.beginClose tabId).Holds tabId' ↔ tabId ≠ tabId' ∧ state.Holds tabId' :=
  holds_removeSession

theorem Sane.cancelClose (h : state.Sane) (tabId : PreviewTabId)
    (snapshot : Option PreviewSessionSnapshot) (htab : ∀ kept ∈ snapshot, kept.tabId = tabId) :
    (state.cancelClose tabId snapshot).Sane := by
  cases snapshot with
  | none => exact h.suppress _
  | some kept =>
    refine h.store kept (htab kept rfl) rfl ?_
    intro active hactive
    exact .inl (some.inj hactive).symm

theorem Sane.setActive (h : state.Sane) (tabId : PreviewTabId) : (state.setActive tabId).Sane := by
  unfold WorkspacePreviewState.setActive
  split
  · next hholds =>
    refine ⟨h.keyed, ?_⟩
    intro active hactive
    cases hactive
    exact hholds
  · exact h

/-! ## Events -/

theorem Sane.present (h : state.Sane) (htab : snapshot.tabId = tabId) {active : PreviewTabId}
    (hactive : active = tabId ∨ active ∈ state.activeTabId) :
    (state.present tabId active snapshot).Sane := by
  unfold WorkspacePreviewState.present
  split
  · exact h
  · refine h.store snapshot htab rfl ?_
    intro other hother
    cases hother
    exact hactive

theorem getD_active (state : WorkspacePreviewState) (tabId : PreviewTabId) :
    state.activeTabId.getD tabId = tabId ∨ state.activeTabId.getD tabId ∈ state.activeTabId := by
  cases state.activeTabId with
  | none => exact .inl rfl
  | some active => exact .inr rfl

theorem Sane.fold (h : state.Sane) (hkeyed : event.Keyed) : (state.fold event).Sane := by
  unfold PreviewEvent.Keyed at hkeyed
  unfold WorkspacePreviewState.fold
  cases htype : event.type with
  | closed => exact (h.removeSession event.tabId).suppress _
  | failed code description title url =>
    cases hget : OrderedMap.get? state.sessions event.tabId with
    | none => exact h
    | some previous =>
      have htab : previous.tabId = event.tabId := h.keyed _ (mem_of_get? hget)
      let failed : PreviewSessionSnapshot :=
        { previous with
          updatedAt := event.createdAt
          navStatus := .loadFailed code description title url }
      exact h.store failed htab rfl fun _ => .inr
  | opened snapshot => exact h.present (hkeyed snapshot (by rw [htype]; rfl)) (.inl rfl)
  | navigated snapshot => exact h.present (hkeyed snapshot (by rw [htype]; rfl)) (getD_active _ _)
  | resized snapshot => exact h.present (hkeyed snapshot (by rw [htype]; rfl)) (getD_active _ _)

theorem Sane.applyEvent (h : state.Sane) (hkeyed : event.Keyed) :
    (state.applyEvent event).Sane := by
  unfold WorkspacePreviewState.applyEvent
  split
  · exact h
  · split
    · exact h
    · exact ⟨(h.fold hkeyed).keyed, (h.fold hkeyed).active⟩

/-- Only the tab of an event can be new, and only if the event carries a snapshot. -/
theorem holds_of_holds_fold (h : (state.fold event).Holds tabId) :
    state.Holds tabId ∨ event.tabId = tabId ∧ event.type.snapshot?.isSome = true := by
  by_cases htab : event.tabId = tabId
  · unfold WorkspacePreviewState.fold at h
    cases htype : event.type with
    | closed =>
      rw [htype] at h
      exact .inl (holds_removeSession.mp h).2
    | failed code description title url =>
      rw [htype] at h
      dsimp only at h
      cases hget : OrderedMap.get? state.sessions event.tabId with
      | none =>
        rw [hget] at h
        exact .inl h
      | some previous =>
        left
        unfold Holds
        rw [← htab, hget]
        rfl
    | _ => exact .inr ⟨htab, rfl⟩
  · left
    unfold Holds at h ⊢
    rw [get?_fold_of_ne htab] at h
    exact h

theorem holds_fold_of_holds (event : PreviewEvent) (h : state.Holds tabId) :
    (state.fold event).Holds tabId ∨ event.tabId = tabId ∧ event.type.isClosed = true := by
  by_cases htab : event.tabId = tabId
  · have hpresent : ∀ active snapshot, (state.present event.tabId active snapshot).Holds tabId := by
      intro active snapshot
      unfold WorkspacePreviewState.present
      split
      · exact h
      · exact (holds_of_set rfl).mpr (.inr h)
    unfold WorkspacePreviewState.fold
    cases event.type with
    | closed => exact .inr ⟨htab, rfl⟩
    | failed code description title url =>
      left
      cases OrderedMap.get? state.sessions event.tabId with
      | none => exact h
      | some previous => exact (holds_of_set rfl).mpr (.inr h)
    | _ => exact .inl (hpresent _ _)
  · left
    unfold Holds at h ⊢
    rw [get?_fold_of_ne htab]
    exact h

theorem not_holds_fold_of_isClosed (h : event.type.isClosed = true) :
    ¬ (state.fold event).Holds event.tabId := by
  unfold WorkspacePreviewState.fold
  cases htype : event.type with (try rw [htype] at h)
  | closed => exact fun hholds => (holds_removeSession.mp hholds).1 rfl
  | _ =>
    cases h

theorem holds_fold_of_isOpened (h : event.type.isOpened = true)
    (hsuppressed : event.tabId ∉ state.suppressedTabIds) :
    (state.fold event).Holds event.tabId := by
  obtain ⟨snapshot, htype⟩ := PreviewEventType.exists_of_isOpened h
  unfold Holds
  rw [get?_fold_of_not_suppressed hsuppressed, PreviewEvent.told, htype]
  rfl

/-! ## Lists -/

theorem newer_tabId {existing : Option PreviewSessionSnapshot} {incoming : PreviewSessionSnapshot}
    (h : ∀ held ∈ existing, held.tabId = incoming.tabId) :
    (newer existing incoming).tabId = incoming.tabId := by
  cases existing with
  | none => rfl
  | some held =>
    show (if held.updatedAt > incoming.updatedAt then held else incoming).tabId = incoming.tabId
    split
    · exact h held rfl
    · rfl

theorem keyed_merge (existing : PreviewTabId → Option PreviewSessionSnapshot)
    (suppressedTabIds : Finset PreviewTabId) (incoming : List PreviewSessionSnapshot)
    (merged : OrderedMap PreviewTabId PreviewSessionSnapshot × List String)
    (h : ∀ entry ∈ merged.1, entry.2.tabId = entry.1) :
    ∀ entry ∈ (merge existing suppressedTabIds incoming merged).1, entry.2.tabId = entry.1 := by
  induction incoming generalizing merged with
  | nil => exact h
  | cons listed rest ih =>
    unfold merge
    split
    · exact ih merged h
    · exact ih (_, _) (keyed_set h rfl)

theorem isSome_get?_merge {existing : PreviewTabId → Option PreviewSessionSnapshot}
    {suppressedTabIds : Finset PreviewTabId} {incoming : List PreviewSessionSnapshot}
    (hkeyed : ∀ listed ∈ incoming, (newer (existing listed.tabId) listed).tabId = listed.tabId)
    (merged : OrderedMap PreviewTabId PreviewSessionSnapshot × List String) :
    (OrderedMap.get? (merge existing suppressedTabIds incoming merged).1 tabId).isSome = true ↔
      tabId ∈ incoming.map (·.tabId) ∧ tabId ∉ suppressedTabIds ∨
        (OrderedMap.get? merged.1 tabId).isSome = true := by
  induction incoming generalizing merged with
  | nil => simp [merge]
  | cons listed rest ih =>
    have ih := ih fun l hl => hkeyed l (mem_cons_of_mem _ hl)
    unfold merge
    rw [map_cons, mem_cons]
    split
    · next hsuppressed =>
      rw [ih]
      constructor
      · exact Or.imp_left fun h => ⟨.inr h.1, h.2⟩
      · refine Or.imp_left fun h => ⟨h.1.resolve_left ?_, h.2⟩
        rintro rfl
        exact h.2 hsuppressed
    · next hsuppressed =>
      rw [ih, isSome_get?_set, hkeyed listed mem_cons_self]
      constructor
      · rintro (h | rfl | h)
        · exact .inl ⟨.inr h.1, h.2⟩
        · exact .inl ⟨.inl rfl, hsuppressed⟩
        · exact .inr h
      · rintro (⟨rfl | h, hnot⟩ | h)
        · exact .inr (.inl rfl)
        · exact .inl ⟨h, hnot⟩
        · exact .inr (.inr h)

theorem Sane.reconcile (h : state.Sane) (result : PreviewListResult) :
    (state.reconcile result).Sane := by
  unfold WorkspacePreviewState.reconcile
  dsimp only
  split
  · exact h
  · have hkeyed := keyed_merge (fun tabId => if state.serverEpoch = some result.serverEpoch then
        OrderedMap.get? state.sessions tabId else none)
      (if state.serverEpoch = some result.serverEpoch then state.suppressedTabIds else ∅)
      result.sessions ([], state.recentlySeenUrls)
      fun _ hmem => absurd hmem not_mem_nil
    refine ⟨hkeyed, ?_⟩
    intro active hactive
    dsimp only at hactive
    split at hactive
    · next tabId hfilter =>
      cases hactive
      exact (mem_filter_iff.mp hfilter).2
    · exact isSome_latest hkeyed hactive

theorem Sane.holds_reconcile (h : state.Sane) {result : PreviewListResult}
    (hnew : ¬ (state.serverEpoch = some result.serverEpoch ∧
      result.revision < state.serverRevision)) :
    (state.reconcile result).Holds tabId ↔ tabId ∈ result.sessions.map (·.tabId) ∧
      (state.serverEpoch = some result.serverEpoch → tabId ∉ state.suppressedTabIds) := by
  unfold Holds
  rw [(reconcile_of_le hnew).1, isSome_get?_merge]
  · have hsuppressed : (tabId ∉ if state.serverEpoch = some result.serverEpoch then
        state.suppressedTabIds else ∅) ↔
        (state.serverEpoch = some result.serverEpoch → tabId ∉ state.suppressedTabIds) := by
      split
      · next hsame => exact ⟨fun hnot _ => hnot, fun hnot => hnot hsame⟩
      · next hother => exact ⟨fun _ hsame => absurd hsame hother, fun _ => Finset.notMem_empty _⟩
    rw [hsuppressed]
    exact or_iff_left nofun
  · intro listed _
    apply newer_tabId
    intro held hheld
    split at hheld
    · exact h.keyed _ (mem_of_get? hheld)
    · cases hheld

end WorkspacePreviewState

end Laborer.Previews
