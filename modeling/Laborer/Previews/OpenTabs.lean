import Laborer.Previews.PreviewTabs
import Laborer.Previews.StoreTabs

/-!
# The tabs of a client and those of the server

A client that knows the running server has every tab that the server has opened up to its
revision, unless a close of it is under way, and has no tab that was closed up to there. A
client of an earlier server waits for a list that will replace what it has.
-/

namespace Laborer.Previews

open Library List

namespace PreviewTabs

/-! ## The invariant -/

structure Follows (s : PreviewTabs) (workspaceId : String) (state : WorkspacePreviewState) :
    Prop where
  revision_le : state.serverRevision ≤ s.log.length
  unknown : state.serverEpoch = none → state.serverRevision = 0
  told : ∀ i event, i < s.delivered → s.log[i]? = some event → event.workspaceId = workspaceId →
    i < state.serverRevision
  shown : ∀ tabId, OpenedBy s.log workspaceId tabId state.serverRevision →
    state.Holds tabId ∨ s.Closing workspaceId tabId
  live : ∀ tabId, state.Holds tabId → OpenedBy s.log workspaceId tabId s.log.length ∧
    ¬ ClosedBy s.log workspaceId tabId state.serverRevision

/-- A store of an earlier server: a list is to come, or the running server has told nothing
of the workspace yet. -/
def Behind (s : PreviewTabs) (workspaceId : String) (state : WorkspacePreviewState) : Prop :=
  s.Awaits workspaceId ∨
    (∀ (i : ℕ) (event : PreviewEvent), i < s.delivered → s.log[i]? = some event →
        event.workspaceId ≠ workspaceId) ∧
      ∀ tabId, state.Holds tabId → OpenedBy s.log workspaceId tabId s.log.length

structure TabsOk (s : PreviewTabs) (workspaceId : String) (state : WorkspacePreviewState) :
    Prop where
  sane : state.Sane
  epoch_le : ∀ epoch ∈ state.serverEpoch, epoch ≤ s.server.serverEpoch
  follows : state.Accepts s.server.serverEpoch → s.Follows workspaceId state
  behind : ¬ state.Accepts s.server.serverEpoch → s.Behind workspaceId state

/-- A list of the running server holds the tabs that were open at its revision. -/
structure ListedTabs (log : List PreviewEvent) (workspaceId : String) (result : PreviewListResult) :
    Prop where
  revision_le : result.revision ≤ log.length
  tabs : ∀ tabId, tabId ∈ result.sessions.map (·.tabId) ↔
    OpenedBy log workspaceId tabId result.revision ∧
      ¬ ClosedBy log workspaceId tabId result.revision

structure Kept (s : PreviewTabs) : Prop where
  wellFormed : s.server.WellFormed
  tabLog : TabLog s.server s.log
  delivered_le : s.delivered ≤ s.log.length
  earlier : ∀ event ∈ s.earlier, event.serverEpoch < s.server.serverEpoch ∧ event.Keyed
  listed_le : ∀ list ∈ s.lists, list.2.serverEpoch ≤ s.server.serverEpoch
  listed : ∀ list ∈ s.lists, list.2.serverEpoch = s.server.serverEpoch →
    ListedTabs s.log list.1 list.2
  closes : ∀ call ∈ s.closes, ∀ snapshot ∈ call.snapshot, snapshot.tabId = call.tabId
  tabs : ∀ workspaceId, TabsOk s workspaceId (s.workspace workspaceId)

theorem kept_start : Kept start where
  wellFormed := ManagerState.wellFormed_start 0
  tabLog := TabLog.start 0
  delivered_le := le_rfl
  earlier _ h := absurd h List.not_mem_nil
  listed_le _ h := absurd h List.not_mem_nil
  listed _ h := absurd h List.not_mem_nil
  closes _ h := absurd h List.not_mem_nil
  tabs _ :=
    { sane := WorkspacePreviewState.sane_empty
      epoch_le := fun _ h => absurd h nofun
      follows := fun _ => ⟨le_rfl, fun _ => rfl, fun _ _ h => absurd h (Nat.not_lt_zero _),
        fun _ h => absurd h not_within_nil, fun _ h => Bool.noConfusion h⟩
      behind := fun h => absurd (Or.inl rfl) h }

/-! ## What the rest of the system does to a store -/

structure Onward (s s' : PreviewTabs) (workspaceId : String) (state : WorkspacePreviewState) :
    Prop where
  serverEpoch : s'.server.serverEpoch = s.server.serverEpoch
  log : ∃ added, s'.log = s.log ++ added
  /-- No event of the workspace is taken. -/
  delivered : ∀ i event, i < s'.delivered → s'.log[i]? = some event →
    event.workspaceId = workspaceId → i < s.delivered
  awaits : s.Awaits workspaceId → s'.Awaits workspaceId
  closing : ∀ tabId, state.Accepts s.server.serverEpoch → ¬ state.Holds tabId →
    OpenedBy s.log workspaceId tabId state.serverRevision →
      s.Closing workspaceId tabId → s'.Closing workspaceId tabId

section Onward

variable {s s' : PreviewTabs} {wid : String} {state : WorkspacePreviewState}

theorem Onward.entry (h : Onward s s' wid state) (hdelivered : s.delivered ≤ s.log.length)
    {i : ℕ} (hi : i < s.delivered) : s'.log[i]? = s.log[i]? := by
  obtain ⟨added, hlog⟩ := h.log
  rw [hlog, getElem?_append_left (Nat.lt_of_lt_of_le hi hdelivered)]

theorem Onward.within_iff (h : Onward s s' wid state) {n : ℕ} (hn : n ≤ s.log.length)
    (kind : PreviewEvent → Prop) : Within s'.log n kind ↔ Within s.log n kind := by
  obtain ⟨added, hlog⟩ := h.log
  rw [hlog, within_append hn]

theorem Onward.length_le (h : Onward s s' wid state) : s.log.length ≤ s'.log.length := by
  obtain ⟨added, hlog⟩ := h.log
  rw [hlog, length_append]
  exact Nat.le_add_right _ _

theorem Onward.opened (h : Onward s s' wid state) {tabId : PreviewTabId}
    (hopened : OpenedBy s.log wid tabId s.log.length) : OpenedBy s'.log wid tabId s'.log.length :=
  ((h.within_iff le_rfl _).mpr hopened).mono h.length_le

theorem TabsOk.onward (h : TabsOk s wid state) (hdelivered : s.delivered ≤ s.log.length)
    (honward : Onward s s' wid state) : TabsOk s' wid state where
  sane := h.sane
  epoch_le := by
    rw [honward.serverEpoch]
    exact h.epoch_le
  follows haccepts := by
    rw [honward.serverEpoch] at haccepts
    obtain ⟨hrevision, hunknown, htold, hshown, hlive⟩ := h.follows haccepts
    refine ⟨hrevision.trans honward.length_le, hunknown, ?_, ?_, ?_⟩
    · intro i event hi hentry hworkspace
      have hi := honward.delivered i event hi hentry hworkspace
      rw [honward.entry hdelivered hi] at hentry
      exact htold i event hi hentry hworkspace
    · intro tabId hopened
      rw [OpenedBy, honward.within_iff hrevision] at hopened
      by_cases hholds : state.Holds tabId
      · exact .inl hholds
      · have hclosing := (hshown tabId hopened).resolve_left hholds
        exact .inr (honward.closing tabId haccepts hholds hopened hclosing)
    · intro tabId hholds
      obtain ⟨hopened, hclosed⟩ := hlive tabId hholds
      rw [ClosedBy, honward.within_iff hrevision]
      exact ⟨honward.opened hopened, hclosed⟩
  behind hnot := by
    rw [honward.serverEpoch] at hnot
    rcases h.behind hnot with hawaits | ⟨huntold, hopened⟩
    · exact .inl (honward.awaits hawaits)
    · refine .inr ⟨?_, fun tabId hholds => honward.opened (hopened tabId hholds)⟩
      intro i event hi hentry hworkspace
      have hi := honward.delivered i event hi hentry hworkspace
      rw [honward.entry hdelivered hi] at hentry
      exact huntold i event hi hentry hworkspace

theorem Onward.of_same (hserver : s'.server = s.server) (hlog : s'.log = s.log)
    (hdelivered : s'.delivered = s.delivered) (hawaits : s.Awaits wid → s'.Awaits wid)
    (hpending : ∀ tabId, state.Accepts s.server.serverEpoch → ¬ state.Holds tabId →
      OpenedBy s.log wid tabId state.serverRevision →
        s.ClosePending wid tabId → s'.Closing wid tabId) : Onward s s' wid state where
  serverEpoch := by rw [hserver]
  log := ⟨[], by rw [hlog, List.append_nil]⟩
  delivered _ _ hi _ _ := hdelivered ▸ hi
  awaits := hawaits
  closing tabId haccepts hholds hopened hclosing := by
    rcases hclosing with hclosing | hclosing
    · exact hpending tabId haccepts hholds hopened hclosing
    · exact .inr (by rw [hserver]; exact hclosing)

end Onward

/-! ## What the client does to a store -/

section Stores

variable {s : PreviewTabs} {wid : String} {state state' : WorkspacePreviewState}

/-- A store that keeps its revision: new tabs are welcome and lost ones are being closed. -/
theorem TabsOk.store (h : TabsOk s wid state) (hsane : state'.Sane)
    (hepoch : state'.serverEpoch = state.serverEpoch)
    (hrevision : state'.serverRevision = state.serverRevision) (hnew : ∀ tabId, state'.Holds tabId →
      state.Holds tabId ∨ s.Welcome wid tabId state)
    (hlost : ∀ tabId, state.Holds tabId → state'.Holds tabId ∨ s.Closing wid tabId) :
    TabsOk s wid state' where
  sane := hsane
  epoch_le := by
    rw [hepoch]
    exact h.epoch_le
  follows haccepts := by
    have haccepts : state.Accepts s.server.serverEpoch := by
      rw [WorkspacePreviewState.Accepts, ← hepoch]
      exact haccepts
    obtain ⟨hle, hunknown, htold, hshown, hlive⟩ := h.follows haccepts
    rw [← hrevision] at hle hunknown htold hshown hlive
    refine ⟨hle, fun hnone => hunknown (hepoch ▸ hnone), htold, ?_, ?_⟩
    · intro tabId hopened
      rcases hshown tabId hopened with hholds | hclosing
      · exact hlost tabId hholds
      · exact .inr hclosing
    · intro tabId hholds
      rcases hnew tabId hholds with hholds | hwelcome
      · exact hlive tabId hholds
      · rw [Welcome, if_pos haccepts, ← hrevision] at hwelcome
        exact hwelcome
  behind hnot := by
    have hnot : ¬ state.Accepts s.server.serverEpoch := by
      rw [WorkspacePreviewState.Accepts, ← hepoch]
      exact hnot
    rcases h.behind hnot with hawaits | ⟨huntold, hopened⟩
    · exact .inl hawaits
    · by_cases hawaits : s.Awaits wid
      · exact .inl hawaits
      · refine .inr ⟨huntold, fun tabId hholds => ?_⟩
        rcases hnew tabId hholds with hholds | hwelcome
        · exact hopened tabId hholds
        · rw [Welcome, if_neg hnot] at hwelcome
          exact hwelcome.resolve_left hawaits

theorem TabsOk.upsert (h : TabsOk s wid state) (snapshot : PreviewSessionSnapshot)
    (hwelcome : s.Welcome wid snapshot.tabId state) : TabsOk s wid (state.upsert snapshot) := by
  refine h.store (h.sane.upsert snapshot) rfl rfl ?_ ?_
  · intro tabId hholds
    rcases WorkspacePreviewState.holds_upsert.mp hholds with rfl | hholds
    · exact .inr hwelcome
    · exact .inl hholds
  · exact fun tabId hholds => .inl (WorkspacePreviewState.holds_upsert.mpr (.inr hholds))

theorem TabsOk.cancelClose (h : TabsOk s wid state) (tabId : PreviewTabId)
    (snapshot : Option PreviewSessionSnapshot) (htab : ∀ kept ∈ snapshot, kept.tabId = tabId)
    (hwelcome : snapshot.isSome = true → s.Welcome wid tabId state) :
    TabsOk s wid (state.cancelClose tabId snapshot) := by
  have hsane := h.sane.cancelClose tabId snapshot htab
  cases snapshot with
  | none => exact h.store hsane rfl rfl (fun _ => .inl) fun _ => .inl
  | some kept =>
    have hholds : ∀ tabId', (state.cancelClose tabId (some kept)).Holds tabId' ↔
        tabId = tabId' ∨ state.Holds tabId' :=
      fun _ => WorkspacePreviewState.holds_of_set rfl
    refine h.store hsane rfl rfl ?_ ?_
    · intro tabId' hheld
      rcases (hholds tabId').mp hheld with rfl | hheld
      · exact .inr (hwelcome rfl)
      · exact .inl hheld
    · exact fun tabId' hheld => .inl ((hholds tabId').mpr (.inr hheld))

theorem TabsOk.beginClose (h : TabsOk s wid state) (tabId : PreviewTabId)
    (hpending : s.ClosePending wid tabId) : TabsOk s wid (state.beginClose tabId) := by
  refine h.store (h.sane.beginClose tabId) (WorkspacePreviewState.removeSession_serverEpoch _ _)
    (WorkspacePreviewState.removeSession_serverRevision _ _) ?_ ?_
  · exact fun tabId' hholds => .inl (WorkspacePreviewState.holds_beginClose.mp hholds).2
  · intro tabId' hholds
    by_cases htab : tabId = tabId'
    · exact .inr (.inl (htab ▸ hpending))
    · exact .inl (WorkspacePreviewState.holds_beginClose.mpr ⟨htab, hholds⟩)

theorem TabsOk.setActive (h : TabsOk s wid state) (tabId : PreviewTabId) :
    TabsOk s wid (state.setActive tabId) := by
  have hsane := h.sane.setActive tabId
  unfold WorkspacePreviewState.setActive at hsane ⊢
  split at hsane
  · next hholds =>
    rw [if_pos hholds]
    exact h.store hsane rfl rfl (fun _ => .inl) fun _ => .inl
  · next hholds =>
    rw [if_neg hholds]
    exact h

end Stores

section Messages

variable {s s' : PreviewTabs} {wid : String} {state : WorkspacePreviewState}
  {event : PreviewEvent} {result : PreviewListResult}

theorem Follows.within_delivered (h : s.Follows wid state)
    (hrevision : state.serverRevision ≤ s.delivered) {kind : PreviewEvent → Prop}
    (hkind : ∀ event, kind event → event.workspaceId = wid) :
    Within s.log s.delivered kind ↔ Within s.log state.serverRevision kind := by
  constructor
  · intro hwithin
    obtain ⟨i, event, hi, hentry, hevent⟩ := within_iff.mp hwithin
    exact within_iff.mpr ⟨i, event, h.told i event hi hentry (hkind event hevent), hentry, hevent⟩
  · exact fun hwithin => hwithin.mono hrevision

theorem workspaceId_of_opens {tabId : PreviewTabId}
    (h : event.Opens wid tabId) : event.workspaceId = wid :=
  congrArg Prod.fst h.1

theorem workspaceId_of_closes {tabId : PreviewTabId}
    (h : event.Closes wid tabId) : event.workspaceId = wid :=
  congrArg Prod.fst h.1

theorem Follows.fold (h : s.Follows wid state) (htabLog : TabLog s.server s.log)
    (hentry : s.log[s.delivered]? = some event)
    (hworkspace : event.workspaceId = wid) (hnew : state.serverRevision ≤ s.delivered)
    (hcalm : event.type.isOpened = true → event.tabId ∈ state.suppressedTabIds →
      s.Closing wid event.tabId) :
    { s with delivered := s.delivered + 1 }.Follows wid
      { state.fold event with
        serverEpoch := some event.serverEpoch
        serverRevision := event.revision } := by
  have hrevision : event.revision = s.delivered + 1 := (htabLog.numbered _ _ hentry).1
  have hlt : s.delivered + 1 ≤ s.log.length := (List.getElem?_eq_some_iff.mp hentry).1
  have hopenedBy : ∀ tabId, OpenedBy s.log wid tabId (s.delivered + 1) ↔
      OpenedBy s.log wid tabId state.serverRevision ∨ event.Opens wid tabId := by
    intro tabId
    rw [OpenedBy, within_succ hentry, h.within_delivered hnew fun _ => workspaceId_of_opens]
  have hclosedBy : ∀ tabId, ClosedBy s.log wid tabId (s.delivered + 1) ↔
      ClosedBy s.log wid tabId state.serverRevision ∨ event.Closes wid tabId := by
    intro tabId
    rw [ClosedBy, within_succ hentry, h.within_delivered hnew fun _ => workspaceId_of_closes]
  refine ⟨?_, fun hnone => absurd hnone (Option.some_ne_none _), ?_, ?_, ?_⟩
  · rw [hrevision]
    exact hlt
  · intro i _ hi _ _
    show i < event.revision
    rw [hrevision]
    exact hi
  · intro tabId hopened
    have hopened : OpenedBy s.log wid tabId (s.delivered + 1) := hrevision ▸ hopened
    rcases (hopenedBy tabId).mp hopened with hopened | ⟨hkey, hkind⟩
    · rcases h.shown tabId hopened with hholds | hclosing
      · rcases WorkspacePreviewState.holds_fold_of_holds event hholds with
          hholds | ⟨htab, hclosed⟩
        · exact .inl hholds
        · -- the event closes the tab
          have hcloses : event.Closes wid tabId := ⟨by rw [hworkspace, htab], hclosed⟩
          exact .inr (.inr (htabLog.snapshots_of_closedBy hlt
            ((hclosedBy tabId).mpr (.inr hcloses))))
      · exact .inr hclosing
    · cases hkey
      by_cases hsuppressed : event.tabId ∈ state.suppressedTabIds
      · exact .inr (hcalm hkind hsuppressed)
      · exact .inl (WorkspacePreviewState.holds_fold_of_isOpened hkind hsuppressed)
  · intro tabId hholds
    show OpenedBy s.log wid tabId s.log.length ∧ ¬ ClosedBy s.log wid tabId event.revision
    rw [hrevision, hclosedBy]
    rcases WorkspacePreviewState.holds_of_holds_fold hholds with hheld | ⟨htab, hsnapshot⟩
    · obtain ⟨hopened, hclosed⟩ := h.live tabId hheld
      refine ⟨hopened, not_or.mpr ⟨hclosed, ?_⟩⟩
      rintro ⟨hkey, hkind⟩
      cases hkey
      exact WorkspacePreviewState.not_holds_fold_of_isClosed hkind hholds
    · -- the event tells of a tab that is open
      subst htab
      subst hworkspace
      have hbefore := htabLog.before_close _ _ hentry
      refine ⟨?_, not_or.mpr ⟨fun hclosed => hbefore (hclosed.mono hnew), ?_⟩⟩
      · rcases htabLog.after_open _ _ hentry with hopened | hopened
        · exact ((hopenedBy event.tabId).mpr (.inr ⟨rfl, hopened⟩)).mono hlt
        · exact hopened.mono (Nat.le_of_succ_le hlt)
      · rintro ⟨_, hkind⟩
        cases htype : event.type with (try rw [htype] at hkind)
        | closed =>
          rw [htype] at hsnapshot
          cases hsnapshot
        | _ =>
          cases hkind

theorem TabsOk.applyEvent (h : TabsOk s wid state) (htabLog : TabLog s.server s.log)
    (hentry : s.log[s.delivered]? = some event)
    (hworkspace : event.workspaceId = wid) (haccepts : state.Accepts s.server.serverEpoch)
    (hcalm : event.type.isOpened = true → event.tabId ∈ state.suppressedTabIds →
      s.Closing wid event.tabId) :
    TabsOk { s with delivered := s.delivered + 1 } wid (state.applyEvent event) := by
  obtain ⟨hrevision, hepoch⟩ := htabLog.numbered _ _ hentry
  have hfollows := h.follows haccepts
  have hkeyed := htabLog.keyed event (mem_of_getElem? hentry)
  have hsane := h.sane.applyEvent hkeyed
  by_cases hold : event.revision ≤ state.serverRevision
  · -- a list was faster
    rw [WorkspacePreviewState.applyEvent_of_old hold] at hsane ⊢
    refine ⟨hsane, h.epoch_le, fun _ => ⟨hfollows.revision_le, hfollows.unknown, ?_,
      hfollows.shown, hfollows.live⟩, fun hnot => absurd haccepts hnot⟩
    intro i other hi hother hworkspace'
    rcases Nat.lt_succ_iff_lt_or_eq.mp hi with hi | rfl
    · exact hfollows.told i other hi hother hworkspace'
    · omega
  · have haccepts' : state.Accepts event.serverEpoch := hepoch ▸ haccepts
    rw [WorkspacePreviewState.applyEvent_of_new haccepts' (Nat.not_le.mp hold)] at hsane ⊢
    refine ⟨hsane, ?_, fun _ => hfollows.fold htabLog hentry hworkspace (by omega) hcalm, ?_⟩
    · intro epoch hmem
      cases hmem
      exact hepoch.le
    · intro hnot
      exact absurd (Or.inr (congrArg some hepoch)) hnot

theorem TabsOk.applyEarlier (h : TabsOk s wid state)
    (hepoch : event.serverEpoch < s.server.serverEpoch) (hkeyed : event.Keyed)
    (haccepts : state.Accepts event.serverEpoch)
    (hcalm : state.serverRevision < event.revision → event.type.snapshot?.isSome = true →
      s.Awaits wid) : TabsOk s wid (state.applyEvent event) := by
  have hsane := h.sane.applyEvent hkeyed
  by_cases hold : event.revision ≤ state.serverRevision
  · rw [WorkspacePreviewState.applyEvent_of_old hold]
    exact h
  · have hnew := Nat.not_le.mp hold
    rw [WorkspacePreviewState.applyEvent_of_new haccepts hnew] at hsane ⊢
    refine ⟨hsane, ?_, ?_, fun _ => ?_⟩
    · intro epoch hmem
      cases hmem
      exact hepoch.le
    · intro hcurrent
      rcases hcurrent with hnone | hsome
      · cases hnone
      · exact absurd (Option.some.inj hsome) hepoch.ne
    · by_cases hsnapshot : event.type.snapshot?.isSome = true
      · exact .inl (hcalm hnew hsnapshot)
      · -- no session is added, and what holds of the store goes on to hold
        have hheld : ∀ tabId, (state.fold event).Holds tabId → state.Holds tabId :=
          fun tabId hholds => (WorkspacePreviewState.holds_of_holds_fold hholds).resolve_right
            fun hadded => hsnapshot hadded.2
        by_cases hcurrent : state.Accepts s.server.serverEpoch
        · have hfollows := h.follows hcurrent
          have hnone : state.serverEpoch = none := by
            rcases haccepts with hnone | hsome
            · exact hnone
            · rcases hcurrent with hnone | hsome'
              · exact hnone
              · exact absurd (Option.some.inj (hsome.symm.trans hsome')) hepoch.ne
          refine .inr ⟨?_, fun tabId hholds => (hfollows.live tabId (hheld tabId hholds)).1⟩
          intro i entry hi hentry hworkspace
          have htold := hfollows.told i entry hi hentry hworkspace
          rw [hfollows.unknown hnone] at htold
          exact Nat.not_lt_zero _ htold
        · rcases h.behind hcurrent with hawaits | ⟨huntold, hopened⟩
          · exact .inl hawaits
          · exact .inr ⟨huntold, fun tabId hholds => hopened tabId (hheld tabId hholds)⟩

theorem Follows.of_list (htabLog : TabLog s.server s.log)
    (hlisted : ListedTabs s.log wid result) (hsane : state.Sane)
    (hnew : ¬ (state.serverEpoch = some result.serverEpoch ∧
      result.revision < state.serverRevision))
    (htold : ∀ i event, i < s.delivered → s.log[i]? = some event →
      event.workspaceId = wid → i < result.revision)
    (hcalm : state.serverEpoch = some result.serverEpoch →
      ∀ tabId ∈ result.sessions.map (·.tabId), tabId ∈ state.suppressedTabIds →
        s.Closing wid tabId) : s.Follows wid (state.reconcile result) := by
  obtain ⟨_, hserver, hrevision, _⟩ := WorkspacePreviewState.reconcile_of_le hnew
  refine ⟨?_, ?_, ?_, ?_, ?_⟩
  · rw [hrevision]
    exact hlisted.revision_le
  · intro hnone
    rw [hserver] at hnone
    cases hnone
  · rw [hrevision]
    exact htold
  · intro tabId hopened
    rw [hrevision] at hopened
    rw [hsane.holds_reconcile hnew]
    by_cases hclosed : ClosedBy s.log wid tabId result.revision
    · exact .inr (.inr (htabLog.snapshots_of_closedBy hlisted.revision_le hclosed))
    · have hmem := (hlisted.tabs tabId).mpr ⟨hopened, hclosed⟩
      by_cases hhidden : state.serverEpoch = some result.serverEpoch ∧
          tabId ∈ state.suppressedTabIds
      · exact .inr (hcalm hhidden.1 tabId hmem hhidden.2)
      · exact .inl ⟨hmem, not_and.mp hhidden⟩
  · intro tabId hholds
    rw [hrevision]
    obtain ⟨hopened, hclosed⟩ := (hlisted.tabs tabId).mp ((hsane.holds_reconcile hnew).mp hholds).1
    exact ⟨hopened.mono hlisted.revision_le, hclosed⟩

theorem TabsOk.takeCurrent (h : TabsOk s wid state) (htabLog : TabLog s.server s.log)
    (hepoch : result.serverEpoch = s.server.serverEpoch)
    (hlisted : ListedTabs s.log wid result) (hswitch : state.serverEpoch ≠ some result.serverEpoch →
      ∀ event ∈ s.log.take s.delivered, event.workspaceId = wid →
        event.revision ≤ result.revision) (hcalm : state.serverEpoch = some result.serverEpoch →
      state.serverRevision ≤ result.revision →
        ∀ snapshot ∈ result.sessions, snapshot.tabId ∈ state.suppressedTabIds →
          s.Closing wid snapshot.tabId) : TabsOk s wid (state.reconcile result) := by
  have hsane := h.sane.reconcile result
  by_cases hold : state.serverEpoch = some result.serverEpoch ∧
      result.revision < state.serverRevision
  · rw [WorkspacePreviewState.reconcile, if_pos hold]
    exact h
  · have hserver := (WorkspacePreviewState.reconcile_of_le hold).2.1
    have haccepts : (state.reconcile result).Accepts s.server.serverEpoch :=
      .inr (by rw [hserver, hepoch])
    refine ⟨hsane, ?_, fun _ => Follows.of_list htabLog hlisted h.sane hold ?_ ?_,
      fun hnot => absurd haccepts hnot⟩
    · intro epoch hmem
      rw [hserver] at hmem
      cases hmem
      exact hepoch.le
    · intro i event hi hentry hworkspace
      by_cases hsame : state.serverEpoch = some result.serverEpoch
      · have hle : state.serverRevision ≤ result.revision :=
          Nat.not_lt.mp fun hlt => hold ⟨hsame, hlt⟩
        have hfollows := h.follows (.inr (by rw [hsame, hepoch]))
        exact Nat.lt_of_lt_of_le (hfollows.told i event hi hentry hworkspace) hle
      · have hmem : event ∈ s.log.take s.delivered :=
          mem_of_getElem? (i := i) ((getElem?_take_of_lt hi).trans hentry)
        have hrevision := hswitch hsame event hmem hworkspace
        rw [(htabLog.numbered i event hentry).1] at hrevision
        exact hrevision
    · intro hsame tabId hmem hhidden
      obtain ⟨snapshot, hsnapshot, rfl⟩ := mem_map.mp hmem
      exact hcalm hsame (Nat.not_lt.mp fun hlt => hold ⟨hsame, hlt⟩) snapshot hsnapshot hhidden

theorem TabsOk.takeEarlier (h : TabsOk s wid state)
    (hepoch : result.serverEpoch < s.server.serverEpoch)
    (hother : state.serverEpoch ≠ some s.server.serverEpoch)
    (hcalm : s.Awaits wid ∨ result.sessions = []) : TabsOk s wid (state.reconcile result) := by
  have hsane := h.sane.reconcile result
  by_cases hold : state.serverEpoch = some result.serverEpoch ∧
      result.revision < state.serverRevision
  · rw [WorkspacePreviewState.reconcile, if_pos hold]
    exact h
  · have hserver := (WorkspacePreviewState.reconcile_of_le hold).2.1
    have hnot : ¬ (state.reconcile result).Accepts s.server.serverEpoch := by
      rintro (hnone | hsome)
      · rw [hserver] at hnone
        cases hnone
      · rw [hserver] at hsome
        exact absurd (Option.some.inj hsome) hepoch.ne
    refine ⟨hsane, ?_, fun haccepts => absurd haccepts hnot, fun _ => ?_⟩
    · intro epoch hmem
      rw [hserver] at hmem
      cases hmem
      exact hepoch.le
    · rcases hcalm with hawaits | hempty
      · exact .inl hawaits
      · have hnone : ∀ tabId, ¬ (state.reconcile result).Holds tabId := by
          intro tabId hholds
          have hmem := ((h.sane.holds_reconcile hold).mp hholds).1
          rw [hempty] at hmem
          exact absurd hmem not_mem_nil
        have hbehind : s.Awaits wid ∨ ∀ (i : ℕ) (event : PreviewEvent), i < s.delivered →
            s.log[i]? = some event → event.workspaceId ≠ wid := by
          by_cases haccepts : state.Accepts s.server.serverEpoch
          · have hfollows := h.follows haccepts
            right
            intro i event hi hentry hworkspace
            have htold := hfollows.told i event hi hentry hworkspace
            rw [hfollows.unknown (haccepts.resolve_right hother)] at htold
            exact Nat.not_lt_zero _ htold
          · exact (h.behind haccepts).imp id And.left
        exact hbehind.imp id fun huntold => ⟨huntold, fun tabId hholds =>
          absurd hholds (hnone tabId)⟩

end Messages

/-! ## What the server does -/

section Server

variable {s s' : PreviewTabs} {wid : String} {state : WorkspacePreviewState}

/-- Events that the server adds; a close that reaches it takes the tab away. -/
theorem Onward.of_told {exact : Prop} {events : List PreviewEvent}
    (htold : Told exact s.server events s'.server) (htabLog : TabLog s.server s.log)
    (hlog : s'.log = s.log ++ events) (hdelivered : s'.delivered = s.delivered)
    (hrevision : state.Accepts s.server.serverEpoch → state.serverRevision ≤ s.log.length)
    (hawaits : s.Awaits wid → s'.Awaits wid)
    (hpending : ∀ tabId, s.ClosePending wid tabId → s'.Closing wid tabId) :
    Onward s s' wid state where
  serverEpoch := htold.numbered.1
  log := ⟨events, hlog⟩
  delivered _ _ hi _ _ := hdelivered ▸ hi
  awaits := hawaits
  closing tabId haccepts _ hopened hclosing := by
    rcases hclosing with hclosing | hclosing
    · exact hpending tabId hclosing
    · -- an opened tab that is not there was closed, and stays so
      have hopened := hopened.mono (hrevision haccepts)
      have hclosed : ClosedBy s.log wid tabId s.log.length := by
        by_contra hnot
        have hsome := (htabLog.open_iff wid tabId).mpr ⟨hopened, hnot⟩
        rw [hclosing] at hsome
        cases hsome
      have htabLog' : TabLog s'.server s'.log := hlog ▸ htabLog.told htold
      refine .inr (htabLog'.snapshots_of_closedBy (n := s.log.length) ?_ ?_)
      · rw [hlog, length_append]
        exact Nat.le_add_right _ _
      · rw [hlog, ClosedBy, within_append le_rfl]
        exact hclosed

theorem snapshots_close (h : s.server.WellFormed) (now : ℕ) (wid : String) (tabId : PreviewTabId) :
    (s.server.close now { tabId := some tabId, workspaceId := wid }).state.snapshots
      wid tabId = none := by
  unfold ManagerState.close
  dsimp only
  cases hget : OrderedMap.get? s.server.sessions (wid, tabId) with
  | none =>
    show (OrderedMap.get? s.server.sessions (wid, tabId)).map _ = none
    rw [hget]
    rfl
  | some session =>
    have hbelongs := h.belongs _ _ _ hget
    rw [Option.toList_some]
    show (OrderedMap.get? (OrderedMap.delete s.server.sessions
      (session.workspaceId, session.tabId)) (wid, tabId)).map _ = none
    rw [hbelongs.workspaceId_eq, hbelongs.tabId_eq, OrderedMap.get?_delete, if_pos rfl]
    rfl

theorem listedTabs_list (h : s.server.WellFormed) (htabLog : TabLog s.server s.log)
    (wid : String) : ListedTabs s.log wid (s.server.list wid) where
  revision_le := htabLog.revision.le
  tabs tabId := by
    have hrevision : (s.server.list wid).revision = s.log.length := htabLog.revision
    rw [hrevision, ← htabLog.open_iff, mem_map]
    constructor
    · rintro ⟨snapshot, hmem, htab⟩
      rw [h.mem_list.mp ⟨hmem, htab⟩]
      rfl
    · intro hsome
      obtain ⟨snapshot, hsnapshot⟩ := Option.isSome_iff_exists.mp hsome
      obtain ⟨hmem, htab⟩ := h.mem_list.mpr hsnapshot
      exact ⟨snapshot, hmem, htab⟩

end Server

end PreviewTabs

end Laborer.Previews
