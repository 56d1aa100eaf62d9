import Laborer.Previews.OpenTabs

/-!
# Runs of a server and a client that closes tabs

What holds of all stores is kept by every calm step, so that in every state of a calm run
in which nothing is under way the client has the tabs of the server.
-/

namespace Laborer.Previews

open Library List OrderedMap

namespace PreviewTabs

variable {s s' : PreviewTabs} {wid : String}

/-! ## One store at a time -/

theorem workspace_updateWorkspace (s : PreviewTabs) (wid : String)
    (update : WorkspacePreviewState → WorkspacePreviewState) (workspaceId' : String) :
    (s.updateWorkspace wid update).workspace workspaceId' =
      if wid = workspaceId' then update (s.workspace wid)
      else s.workspace workspaceId' := by
  unfold workspace updateWorkspace
  rw [get?_set]
  split
  · rfl
  · rfl

theorem tabs_updateWorkspace {update : WorkspacePreviewState → WorkspacePreviewState}
    (hother : ∀ workspaceId', wid ≠ workspaceId' → TabsOk s workspaceId' (s.workspace workspaceId'))
    (hown : TabsOk s wid (update (s.workspace wid))) (workspaceId' : String) :
    TabsOk (s.updateWorkspace wid update) workspaceId'
      ((s.updateWorkspace wid update).workspace workspaceId') := by
  have hsame : ∀ state, TabsOk s workspaceId' state →
      TabsOk (s.updateWorkspace wid update) workspaceId' state :=
    fun _ h => ⟨h.sane, h.epoch_le, fun ha => let f := h.follows ha
      ⟨f.revision_le, f.unknown, f.told, f.shown, f.live⟩, h.behind⟩
  rw [workspace_updateWorkspace]
  split
  · next heq =>
    subst heq
    exact hsame _ hown
  · next hne => exact hsame _ (hother workspaceId' hne)

/-- Messages and calls, and the stores, change; the server and its events do not. -/
theorem Kept.of_same (h : s.Kept) (hserver : s'.server = s.server) (hlog : s'.log = s.log)
    (hdelivered : s'.delivered ≤ s'.log.length) (hearlier : ∀ event ∈ s'.earlier, event ∈ s.earlier)
    (hlists : ∀ list ∈ s'.lists, list ∈ s.lists)
    (hcloses : ∀ call ∈ s'.closes, ∀ snapshot ∈ call.snapshot, snapshot.tabId = call.tabId)
    (htabs : ∀ wid, TabsOk s' wid (s'.workspace wid)) : s'.Kept where
  wellFormed := by
    rw [hserver]
    exact h.wellFormed
  tabLog := by
    rw [hserver, hlog]
    exact h.tabLog
  delivered_le := hdelivered
  earlier event hmem := by
    rw [hserver]
    exact h.earlier event (hearlier event hmem)
  listed_le list hmem := by
    rw [hserver]
    exact h.listed_le list (hlists list hmem)
  listed list hmem hepoch := by
    rw [hserver] at hepoch
    rw [hlog]
    exact h.listed list (hlists list hmem) hepoch
  closes := hcloses
  tabs := htabs

theorem ListedTabs.append {log : List PreviewEvent}
    {result : PreviewListResult} (h : ListedTabs log wid result)
    (added : List PreviewEvent) : ListedTabs (log ++ added) wid result where
  revision_le := by
    rw [length_append]
    exact Nat.le_add_right_of_le h.revision_le
  tabs tabId := by
    rw [OpenedBy, ClosedBy, within_append h.revision_le, within_append h.revision_le]
    exact h.tabs tabId

/-- The server adds events; the stores do not change. -/
theorem Kept.of_told (h : s.Kept) {exact : Prop} {events : List PreviewEvent}
    (htold : Told exact s.server events s'.server) (hwellFormed : s'.server.WellFormed)
    (hlog : s'.log = s.log ++ events) (hdelivered : s'.delivered = s.delivered)
    (hearlier : s'.earlier = s.earlier) (hrequests : s'.requests = s.requests)
    (hlists : s'.lists = s.lists) (hstores : s'.byWorkspaceId = s.byWorkspaceId)
    (hcloses : ∀ call ∈ s'.closes, ∀ snapshot ∈ call.snapshot, snapshot.tabId = call.tabId)
    (hpending : ∀ wid tabId, s.ClosePending wid tabId → s'.Closing wid tabId) : s'.Kept where
  wellFormed := hwellFormed
  tabLog := hlog ▸ TabLog.told htold h.tabLog
  delivered_le := by
    rw [hdelivered, hlog, length_append]
    exact Nat.le_add_right_of_le h.delivered_le
  earlier event hmem := by
    rw [htold.numbered.1]
    exact h.earlier event (hearlier ▸ hmem)
  listed_le list hmem := by
    rw [htold.numbered.1]
    exact h.listed_le list (hlists ▸ hmem)
  listed list hmem hepoch := by
    rw [htold.numbered.1] at hepoch
    rw [hlog]
    exact (h.listed list (hlists ▸ hmem) hepoch).append events
  closes := hcloses
  tabs wid := by
    have hstore : s'.workspace wid = s.workspace wid := by
      rw [workspace, hstores]
      rfl
    have htabs := h.tabs wid
    rw [hstore]
    refine htabs.onward h.delivered_le (Onward.of_told htold h.tabLog hlog hdelivered
      (fun haccepts => (htabs.follows haccepts).revision_le) ?_ (hpending wid))
    unfold Awaits
    rw [hrequests, hlists, htold.numbered.1]
    exact id

/-! ## The steps of the server -/

variable (normalizePreviewUrl : String → Except PreviewInvalidUrlError String)

theorem Kept.perform (h : s.Kept) (operation : PreviewOperation) (called : Bool) :
    (step normalizePreviewUrl (.perform operation called) s).Kept := by
  obtain ⟨htold, hwellFormed⟩ := h.wellFormed.perform normalizePreviewUrl operation
  exact h.of_told htold hwellFormed rfl rfl rfl rfl rfl rfl h.closes fun _ _ => .inl

theorem Kept.processClose (h : s.Kept) (close now : ℕ) :
    (step normalizePreviewUrl (.processClose close now) s).Kept := by
  unfold step
  dsimp only
  cases hcall : s.closes[close]? with
  | none => exact h
  | some call =>
    dsimp only
    split
    · exact h
    · let input : PreviewCloseInput := { tabId := some call.tabId, workspaceId := call.workspaceId }
      obtain ⟨htold, hwellFormed⟩ : Told True s.server (s.server.close now input).events
          (s.server.close now input).state ∧ (s.server.close now input).state.WellFormed :=
        h.wellFormed.close now input
      refine h.of_told htold hwellFormed rfl rfl rfl rfl rfl rfl ?_ ?_
      · intro other hmem
        rcases mem_or_eq_of_mem_set hmem with hmem | rfl
        · exact h.closes other hmem
        · exact h.closes call (mem_of_getElem? hcall)
      · rintro wid tabId ⟨other, hmem, rfl, rfl, hunprocessed⟩
        obtain ⟨i, hi⟩ := mem_iff_getElem?.mp hmem
        by_cases heq : close = i
        · -- the close has reached the server
          rw [← heq, hcall, Option.some.injEq] at hi
          rw [← hi]
          exact .inr (snapshots_close h.wellFormed now call.workspaceId call.tabId)
        · refine .inl ⟨other, mem_of_getElem? (i := i) ?_, rfl, rfl, hunprocessed⟩
          exact (getElem?_set_ne heq).trans hi

theorem RestartCalm.store (h : s.RestartCalm) (wid : String) : (s.workspace wid).sessions = [] ∨
      (s.workspace wid).serverEpoch ≠ none ∧ wid ∈ s.requests := by
  unfold workspace
  cases hget : OrderedMap.get? s.byWorkspaceId wid with
  | none => exact .inl rfl
  | some state => exact h (wid, state) (mem_of_get? hget)

theorem Kept.restart (h : s.Kept) (hcalm : s.RestartCalm) :
    (step normalizePreviewUrl .restart s).Kept := by
  have hlt : s.server.serverEpoch < s.server.serverEpoch + 1 := Nat.lt_succ_self _
  refine ⟨ManagerState.wellFormed_start _, TabLog.start _, le_rfl, ?_, ?_, ?_, h.closes, ?_⟩
  · intro event hmem
    rcases mem_append.mp hmem with hmem | hmem
    · obtain ⟨hearlier, hkeyed⟩ := h.earlier event hmem
      exact ⟨hearlier.trans hlt, hkeyed⟩
    · have hmem := mem_of_mem_drop hmem
      obtain ⟨i, hi⟩ := mem_iff_getElem?.mp hmem
      exact ⟨(h.tabLog.numbered i event hi).2.trans_lt hlt, h.tabLog.keyed event hmem⟩
  · exact fun list hmem => (h.listed_le list hmem).trans hlt.le
  · intro list hmem hepoch
    exact absurd hepoch ((h.listed_le list hmem).trans_lt hlt).ne
  · intro wid
    have htabs := h.tabs wid
    have hepoch := htabs.epoch_le
    have hempty : (s.workspace wid).sessions = [] → ∀ tabId, ¬ (s.workspace wid).Holds tabId := by
      intro hnil tabId hholds
      rw [WorkspacePreviewState.Holds, hnil] at hholds
      cases hholds
    refine ⟨htabs.sane, fun epoch hmem => (hepoch epoch hmem).trans hlt.le, ?_, ?_⟩
    · intro haccepts
      have hnone : (s.workspace wid).serverEpoch = none := by
        rcases haccepts with hnone | hsome
        · exact hnone
        · exact absurd (hepoch _ hsome) (Nat.not_le.mpr hlt)
      have hnil := (hcalm.store wid).resolve_right fun hwaits => hwaits.1 hnone
      have hzero := (htabs.follows (.inl hnone)).unknown hnone
      exact ⟨hzero.le, fun _ => hzero, fun _ _ hi => absurd hi (Nat.not_lt_zero _),
        fun _ hopened => absurd hopened not_within_nil,
        fun tabId hholds => absurd hholds (hempty hnil tabId)⟩
    · intro _
      rcases hcalm.store wid with hnil | ⟨_, hrequest⟩
      · exact .inr ⟨fun _ _ hi => absurd hi (Nat.not_lt_zero _),
          fun tabId hholds => absurd hholds (hempty hnil tabId)⟩
      · exact .inl (.inl hrequest)

theorem Kept.answerList (h : s.Kept) (request : ℕ) :
    (step normalizePreviewUrl (.answerList request) s).Kept := by
  unfold step
  dsimp only
  cases hrequest : s.requests[request]? with
  | none => exact h
  | some answered =>
    refine ⟨h.wellFormed, h.tabLog, h.delivered_le, h.earlier, ?_, ?_, h.closes, ?_⟩
    · intro list hmem
      rcases mem_append.mp hmem with hmem | hmem
      · exact h.listed_le list hmem
      · rw [mem_singleton.mp hmem]
        exact le_rfl
    · intro list hmem hepoch
      rcases mem_append.mp hmem with hmem | hmem
      · exact h.listed list hmem hepoch
      · rw [mem_singleton.mp hmem]
        exact listedTabs_list h.wellFormed h.tabLog answered
    · intro wid
      refine (h.tabs wid).onward h.delivered_le (Onward.of_same rfl rfl rfl ?_ fun _ _ _ _ => .inl)
      rintro (hmem | ⟨list, hmem, hlist⟩)
      · obtain ⟨i, hi⟩ := mem_iff_getElem?.mp hmem
        by_cases heq : i = request
        · -- the list that was waited for is on its way
          rw [heq, hrequest, Option.some.injEq] at hi
          exact .inr ⟨(answered, s.server.list answered),
            mem_append_right _ (mem_singleton_self _), hi, rfl⟩
        · exact .inl (mem_eraseIdx_iff_getElem?.mpr ⟨i, heq, hi⟩)
      · exact .inr ⟨list, mem_append_left _ hmem, hlist⟩

/-! ## The steps of the client -/

theorem Awaits.request (wid : String) {workspaceId' : String}
    (h : s.Awaits workspaceId') :
    { s with requests := s.requests ++ [wid] }.Awaits workspaceId' :=
  h.imp (mem_append_left _) id

section

variable (h : s.Kept)
include h

theorem Kept.requestList (wid : String) :
    { s with requests := s.requests ++ [wid] }.Kept :=
  h.of_same rfl rfl h.delivered_le (fun _ => id) (fun _ => id) h.closes fun workspaceId' =>
    (h.tabs workspaceId').onward h.delivered_le
      (Onward.of_same rfl rfl rfl (Awaits.request wid) fun _ _ _ _ => .inl)

theorem Kept.loseEvent : { s with earlier := s.earlier.tail }.Kept :=
  h.of_same rfl rfl h.delivered_le (fun _ => mem_of_mem_tail) (fun _ => id) h.closes
    fun wid => (h.tabs wid).onward h.delivered_le
      (Onward.of_same rfl rfl rfl id fun _ _ _ _ => .inl)

theorem Kept.takeEarlier {event : PreviewEvent} {earlier : List PreviewEvent}
    (hearlier : s.earlier = event :: earlier) (hcalm : s.EventCalm) :
    ({ s with earlier := earlier }.receive event).Kept := by
  obtain ⟨hepoch, hkeyed⟩ := h.earlier event (hearlier ▸ mem_cons_self)
  have htail : { s with earlier := earlier }.Kept := by
    have hlost := h.loseEvent
    rw [hearlier] at hlost
    exact hlost
  unfold EventCalm at hcalm
  rw [hearlier] at hcalm
  unfold receive
  dsimp only
  split
  · exact htail.requestList event.workspaceId
  · next hknown =>
    have haccepts : (s.workspace event.workspaceId).Accepts event.serverEpoch := by
      by_cases hnone : (s.workspace event.workspaceId).serverEpoch = none
      · exact .inl hnone
      · exact .inr (not_not.mp fun hne => hknown ⟨hnone, hne⟩)
    refine htail.of_same rfl rfl h.delivered_le (fun _ => id) (fun _ => id) h.closes
      (tabs_updateWorkspace (fun workspaceId' _ => htail.tabs workspaceId') ?_)
    exact (htail.tabs event.workspaceId).applyEarlier hepoch hkeyed haccepts (hcalm haccepts)

theorem Kept.takeEvent {event : PreviewEvent}
    (hentry : s.log[s.delivered]? = some event)
    (hcalm : event.type.isOpened = true →
      event.tabId ∈ (s.workspace event.workspaceId).suppressedTabIds →
        s.Closing event.workspaceId event.tabId) :
    ({ s with delivered := s.delivered + 1 }.receive event).Kept := by
  have hdelivered : s.delivered + 1 ≤ s.log.length := (List.getElem?_eq_some_iff.mp hentry).1
  have hepoch := (h.tabLog.numbered _ _ hentry).2
  -- for another workspace nothing was taken
  have hother : ∀ workspaceId', event.workspaceId ≠ workspaceId' →
      TabsOk { s with delivered := s.delivered + 1 } workspaceId' (s.workspace workspaceId') := by
    intro workspaceId' hne
    refine (h.tabs workspaceId').onward h.delivered_le
      ⟨rfl, ⟨[], (append_nil _).symm⟩, ?_, id, fun _ _ _ _ => id⟩
    intro i entry hi hother hworkspace
    rcases Nat.lt_succ_iff_lt_or_eq.mp hi with hi | rfl
    · exact hi
    · cases hentry.symm.trans hother
      exact absurd hworkspace hne
  unfold receive
  dsimp only
  split
  · next hknown =>
    refine h.of_same rfl rfl hdelivered (fun _ => id) (fun _ => id) h.closes ?_
    intro workspaceId'
    show TabsOk _ workspaceId' (s.workspace workspaceId')
    by_cases hworkspace : event.workspaceId = workspaceId'
    · -- the client asks for a list
      subst hworkspace
      have htabs := h.tabs event.workspaceId
      have hnot : ¬ (s.workspace event.workspaceId).Accepts s.server.serverEpoch := by
        rintro (hnone | hsome)
        · exact hknown.1 hnone
        · exact hknown.2 (hsome.trans (congrArg some hepoch.symm))
      exact ⟨htabs.sane, htabs.epoch_le, fun haccepts => absurd haccepts hnot,
        fun _ => .inl (.inl (mem_append_right _ (mem_singleton_self _)))⟩
    · exact (hother workspaceId' hworkspace).onward hdelivered
        (Onward.of_same rfl rfl rfl (Awaits.request event.workspaceId) fun _ _ _ _ => .inl)
  · next hknown =>
    have haccepts : (s.workspace event.workspaceId).Accepts s.server.serverEpoch := by
      rw [← hepoch]
      by_cases hnone : (s.workspace event.workspaceId).serverEpoch = none
      · exact .inl hnone
      · exact .inr (not_not.mp fun hne => hknown ⟨hnone, hne⟩)
    refine h.of_same rfl rfl hdelivered (fun _ => id) (fun _ => id) h.closes
      (tabs_updateWorkspace hother ?_)
    exact (h.tabs event.workspaceId).applyEvent h.tabLog hentry rfl haccepts hcalm

theorem Kept.takeList {list : ℕ} {result : PreviewListResult}
    (htaken : s.lists[list]? = some (wid, result))
    (hcalm : s.ListCalm (wid, result)) :
    ({ s with lists := s.lists.eraseIdx list }.updateWorkspace wid
      (·.reconcile result)).Kept := by
  have hmem := mem_of_getElem? htaken
  have htabs := h.tabs wid
  -- what a store waits for is still to come, unless it is this list
  have hawaits : ∀ workspaceId', (wid ≠ workspaceId' ∨
      result.serverEpoch ≠ s.server.serverEpoch) → s.Awaits workspaceId' →
        { s with lists := s.lists.eraseIdx list }.Awaits workspaceId' := by
    intro workspaceId' hne hawaits
    refine hawaits.imp id ?_
    rintro ⟨other, hother, hworkspace, hepoch⟩
    obtain ⟨i, hi⟩ := mem_iff_getElem?.mp hother
    refine ⟨other, mem_eraseIdx_iff_getElem?.mpr ⟨i, ?_, hi⟩, hworkspace, hepoch⟩
    rintro rfl
    cases htaken.symm.trans hi
    exact hne.elim (fun hne => hne hworkspace) fun hne => hne hepoch
  have hother : ∀ workspaceId', wid ≠ workspaceId' →
      TabsOk { s with lists := s.lists.eraseIdx list } workspaceId' (s.workspace workspaceId') :=
    fun workspaceId' hne => (h.tabs workspaceId').onward h.delivered_le
      (Onward.of_same rfl rfl rfl (hawaits workspaceId' (.inl hne)) fun _ _ _ _ => .inl)
  refine h.of_same rfl rfl h.delivered_le (fun _ => id) (fun _ => mem_of_mem_eraseIdx) h.closes
    (tabs_updateWorkspace hother ?_)
  unfold ListCalm at hcalm
  dsimp only at hcalm
  split at hcalm
  · next hepoch =>
    have hreconciled : TabsOk s wid ((s.workspace wid).reconcile result) := by
      apply htabs.takeCurrent h.tabLog hepoch (h.listed _ hmem hepoch)
      · intro hswitch
        rw [if_neg hswitch] at hcalm
        exact hcalm
      · intro hsame
        rw [if_pos hsame] at hcalm
        exact hcalm
    -- the store is one of the running server now and waits for nothing
    have haccepts := WorkspacePreviewState.accepts_reconcile (s.workspace wid) result
    rw [hepoch] at haccepts
    have hfollows := hreconciled.follows haccepts
    exact ⟨hreconciled.sane, hreconciled.epoch_le, fun _ => ⟨hfollows.revision_le,
      hfollows.unknown, hfollows.told, hfollows.shown, hfollows.live⟩,
      fun hnot => absurd haccepts hnot⟩
  · next hepoch =>
    have hlt : result.serverEpoch < s.server.serverEpoch :=
      Nat.lt_of_le_of_ne (h.listed_le _ hmem) hepoch
    have hsame : TabsOk { s with lists := s.lists.eraseIdx list } wid
        (s.workspace wid) := htabs.onward h.delivered_le
      (Onward.of_same rfl rfl rfl (hawaits wid (.inr hepoch)) fun _ _ _ _ => .inl)
    exact hsame.takeEarlier hlt hcalm.1 (hcalm.2.imp (hawaits wid (.inr hepoch)) id)

theorem Kept.takeAnswer {answer : ℕ} (snapshot : PreviewSessionSnapshot)
    (hcalm : s.Welcome snapshot.workspaceId snapshot.tabId (s.workspace snapshot.workspaceId)) :
    ({ s with answers := s.answers.eraseIdx answer }.updateWorkspace snapshot.workspaceId
      (·.upsert snapshot)).Kept := by
  have hsame : ∀ wid state, TabsOk s wid state →
      TabsOk { s with answers := s.answers.eraseIdx answer } wid state :=
    fun _ _ htabs => htabs.onward h.delivered_le (Onward.of_same rfl rfl rfl id fun _ _ _ _ => .inl)
  refine h.of_same rfl rfl h.delivered_le (fun _ => id) (fun _ => id) h.closes
    (tabs_updateWorkspace (fun wid _ => hsame wid _ (h.tabs wid)) ?_)
  exact hsame _ _ ((h.tabs snapshot.workspaceId).upsert snapshot hcalm)

theorem Kept.beginClose (wid : String) (tabId : PreviewTabId) :
    (step normalizePreviewUrl (.beginClose wid tabId) s).Kept := by
  unfold step
  dsimp only
  have hsame : ∀ workspaceId' call,
      TabsOk { s with closes := s.closes ++ [call] } workspaceId' (s.workspace workspaceId') := by
    intro workspaceId' call
    refine (h.tabs workspaceId').onward h.delivered_le (Onward.of_same rfl rfl rfl id ?_)
    rintro tabId' _ _ _ ⟨other, hmem, hother⟩
    exact .inl ⟨other, mem_append_left _ hmem, hother⟩
  refine h.of_same rfl rfl h.delivered_le (fun _ => id) (fun _ => id) ?_
    (tabs_updateWorkspace (fun workspaceId' _ => hsame workspaceId' _) ?_)
  · intro call hmem snapshot hsnapshot
    rcases mem_append.mp hmem with hmem | hmem
    · exact h.closes call hmem snapshot hsnapshot
    · rw [mem_singleton.mp hmem] at hsnapshot ⊢
      exact (h.tabs wid).sane.keyed _ (mem_of_get? hsnapshot)
  · exact (hsame wid _).beginClose tabId
      ⟨_, mem_append_right _ (mem_singleton_self _), rfl, rfl, rfl⟩

theorem Kept.closeAnswered {close : ℕ} {call : CloseCall}
    (hcall : s.closes[close]? = some call) (hprocessed : call.processed = true) :
    { s with closes := s.closes.eraseIdx close }.Kept := by
  refine h.of_same rfl rfl h.delivered_le (fun _ => id) (fun _ => id)
    (fun other hmem => h.closes other (mem_of_mem_eraseIdx hmem)) fun wid => ?_
  refine (h.tabs wid).onward h.delivered_le (Onward.of_same rfl rfl rfl id ?_)
  rintro tabId _ _ _ ⟨other, hmem, hworkspace, htab, hunprocessed⟩
  obtain ⟨i, hi⟩ := mem_iff_getElem?.mp hmem
  refine .inl ⟨other, mem_eraseIdx_iff_getElem?.mpr ⟨i, ?_, hi⟩, hworkspace, htab, hunprocessed⟩
  rintro rfl
  cases hcall.symm.trans hi
  rw [hprocessed] at hunprocessed
  cases hunprocessed

theorem Kept.closeFailed {close : ℕ} {call : CloseCall}
    (hcall : s.closes[close]? = some call) (hcalm : s.CancelCalm close call) :
    ({ s with closes := s.closes.eraseIdx close }.updateWorkspace call.workspaceId
      (·.cancelClose call.tabId call.snapshot)).Kept := by
  -- a call for another tab is still pending
  have hpending : ∀ wid tabId, (call.workspaceId, call.tabId) ≠ (wid, tabId) →
      s.ClosePending wid tabId →
        { s with closes := s.closes.eraseIdx close }.ClosePending wid tabId := by
    rintro wid tabId hne ⟨other, hmem, rfl, rfl, hunprocessed⟩
    obtain ⟨i, hi⟩ := mem_iff_getElem?.mp hmem
    refine ⟨other, mem_eraseIdx_iff_getElem?.mpr ⟨i, ?_, hi⟩, rfl, rfl, hunprocessed⟩
    rintro rfl
    cases hcall.symm.trans hi
    exact hne rfl
  refine h.of_same rfl rfl h.delivered_le (fun _ => id) (fun _ => id)
    (fun other hmem => h.closes other (mem_of_mem_eraseIdx hmem))
    (tabs_updateWorkspace ?_ ?_)
  · intro wid hne
    refine (h.tabs wid).onward h.delivered_le (Onward.of_same rfl rfl rfl id ?_)
    intro tabId _ _ _ hclosing
    exact .inl (hpending wid tabId (fun heq => hne (congrArg Prod.fst heq)) hclosing)
  · unfold CancelCalm at hcalm
    dsimp only at hcalm
    have hcancelled := (h.tabs call.workspaceId).cancelClose call.tabId call.snapshot
      (h.closes call (mem_of_getElem? hcall)) (fun hsome => by
        rw [if_pos hsome] at hcalm
        exact hcalm)
    refine hcancelled.onward h.delivered_le (Onward.of_same rfl rfl rfl id ?_)
    intro tabId haccepts hholds hopened hclosing
    by_cases htab : call.tabId = tabId
    · subst htab
      cases hsnapshot : call.snapshot with
      | some kept =>
        rw [hsnapshot] at hholds
        exact absurd ((WorkspacePreviewState.holds_of_set rfl).mpr (.inl rfl)) hholds
      | none =>
        rw [hsnapshot] at hcalm haccepts hholds hopened
        rw [if_neg nofun] at hcalm
        exact (hcalm haccepts hopened).resolve_left hholds
    · exact .inl (hpending call.workspaceId tabId (fun heq => htab (congrArg Prod.snd heq))
        hclosing)

theorem Kept.setActive (wid : String) (tabId : PreviewTabId) :
    (s.updateWorkspace wid (·.setActive tabId)).Kept :=
  h.of_same rfl rfl h.delivered_le (fun _ => id) (fun _ => id) h.closes
    (tabs_updateWorkspace (fun workspaceId' _ => h.tabs workspaceId')
      ((h.tabs wid).setActive tabId))

theorem Kept.step (next : TabsStep) (hcalm : next.Calm s) :
    (step normalizePreviewUrl next s).Kept := by
  cases next with
  | perform operation called => exact h.perform normalizePreviewUrl operation called
  | restart => exact h.restart normalizePreviewUrl hcalm
  | takeEvent =>
    have hcalm : s.EventCalm := hcalm
    unfold PreviewTabs.step
    dsimp only
    cases hearlier : s.earlier with
    | cons event earlier => exact h.takeEarlier hearlier hcalm
    | nil =>
      dsimp only
      cases hentry : s.log[s.delivered]? with
      | none => exact h
      | some event =>
        unfold EventCalm at hcalm
        rw [hearlier] at hcalm
        have htaken := h.takeEvent hentry (hcalm event hentry)
        rw [hearlier] at htaken
        exact htaken
  | loseEvent => exact h.loseEvent
  | requestList wid => exact h.requestList wid
  | answerList request => exact h.answerList normalizePreviewUrl request
  | takeList list =>
    unfold PreviewTabs.step
    dsimp only
    cases htaken : s.lists[list]? with
    | none => exact h
    | some taken => exact h.takeList htaken (hcalm taken htaken)
  | takeAnswer answer =>
    unfold PreviewTabs.step
    dsimp only
    cases htaken : s.answers[answer]? with
    | none => exact h
    | some taken => exact h.takeAnswer taken.2 (hcalm taken htaken)
  | beginClose wid tabId => exact h.beginClose normalizePreviewUrl wid tabId
  | processClose close now => exact h.processClose normalizePreviewUrl close now
  | closeAnswered close =>
    unfold PreviewTabs.step
    dsimp only
    cases hcall : s.closes[close]? with
    | none => exact h
    | some call =>
      dsimp only
      split
      · next hprocessed => exact h.closeAnswered hcall hprocessed
      · exact h
  | closeFailed close =>
    unfold PreviewTabs.step
    dsimp only
    cases hcall : s.closes[close]? with
    | none => exact h
    | some call => exact h.closeFailed hcall (hcalm call hcall)
  | setActive wid tabId => exact h.setActive wid tabId

/-! ## The tabs of a settled client -/

theorem Kept.tabsAgree (hsettled : s.Settled wid) : s.TabsAgree wid := by
  have htabs := h.tabs wid
  -- every event of the workspace has been taken
  have htaken : ∀ i event, s.log[i]? = some event → event.workspaceId = wid → i < s.delivered := by
    intro i event hentry hworkspace
    apply Nat.not_le.mp
    intro hle
    refine hsettled.events event (mem_of_getElem? (i := i - s.delivered) ?_) hworkspace
    rw [getElem?_drop, Nat.add_sub_cancel' hle]
    exact hentry
  have hawaits : ¬ s.Awaits wid := by
    rintro (hrequest | ⟨list, hmem, hworkspace, hepoch⟩)
    · exact hsettled.requests hrequest
    · exact hsettled.lists list hmem hworkspace hepoch
  have hholds : ∀ tabId, (s.workspace wid).Holds tabId ↔
      (s.server.snapshots wid tabId).isSome = true := by
    intro tabId
    by_cases haccepts : (s.workspace wid).Accepts s.server.serverEpoch
    · have hfollows := htabs.follows haccepts
      have hall : ∀ kind : PreviewEvent → Prop, (∀ event, kind event → event.workspaceId = wid) →
          Within s.log s.log.length kind → Within s.log (s.workspace wid).serverRevision kind := by
        intro kind hkind hwithin
        obtain ⟨i, event, _, hentry, hevent⟩ := within_iff.mp hwithin
        have hworkspace := hkind event hevent
        exact within_iff.mpr ⟨i, event,
          hfollows.told i event (htaken i event hentry hworkspace) hentry hworkspace,
          hentry, hevent⟩
      constructor
      · intro hheld
        obtain ⟨hopened, hclosed⟩ := hfollows.live tabId hheld
        exact (h.tabLog.open_iff wid tabId).mpr
          ⟨hopened, fun hwas => hclosed (hall _ (fun _ => workspaceId_of_closes) hwas)⟩
      · intro hsome
        have hopened := ((h.tabLog.open_iff wid tabId).mp hsome).1
        rcases hfollows.shown tabId (hall _ (fun _ => workspaceId_of_opens) hopened) with
          hheld | ⟨call, hmem, hworkspace, _⟩ | hnone
        · exact hheld
        · exact absurd hworkspace (hsettled.closes call hmem)
        · rw [hnone] at hsome
          cases hsome
    · -- the running server has told nothing of the workspace
      obtain ⟨huntold, hopened⟩ := (htabs.behind haccepts).resolve_left hawaits
      have hnever : ¬ OpenedBy s.log wid tabId s.log.length := by
        intro hwithin
        obtain ⟨i, event, _, hentry, hevent⟩ := within_iff.mp hwithin
        have hworkspace := workspaceId_of_opens hevent
        exact huntold i event (htaken i event hentry hworkspace) hentry hworkspace
      exact ⟨fun hheld => absurd (hopened tabId hheld) hnever,
        fun hsome => absurd ((h.tabLog.open_iff wid tabId).mp hsome).1 hnever⟩
  refine ⟨fun tabId => Bool.eq_iff_iff.mpr (hholds tabId), htabs.sane.active, ?_⟩
  intro event hmem hworkspace hclosed
  obtain ⟨i, hi⟩ := mem_iff_getElem?.mp hmem
  have hnone : s.server.snapshots wid event.tabId = none :=
    h.tabLog.snapshots_of_closedBy le_rfl (within_iff.mpr
      ⟨i, event, (List.getElem?_eq_some_iff.mp hi).1, hi, by rw [hworkspace], hclosed⟩)
  apply Option.not_isSome_iff_eq_none.mp
  intro hheld
  have hsome := (hholds event.tabId).mp hheld
  rw [hnone] at hsome
  cases hsome

end

/-- **The client has the tabs of the server.** In every state of a calm run, for every
workspace of which nothing is under way. -/
theorem tabsAgree_of_calm (steps : List TabsStep)
    (hcalm : RunMeets (step normalizePreviewUrl) TabsStep.Calm start steps) :
    ∀ s ∈ visited (step normalizePreviewUrl) start steps, ∀ workspaceId,
      s.Settled workspaceId → s.TabsAgree workspaceId := by
  intro s hs workspaceId hsettled
  have hstep : ∀ (next : TabsStep) (s : PreviewTabs), s.Kept → next.Calm s →
      (step normalizePreviewUrl next s).Kept :=
    fun next s h hok => h.step normalizePreviewUrl next hok
  exact (invariant_visited hstep kept_start hcalm s hs).tabsAgree hsettled

/-! ## Runs -/

/-- The client opens a tab, learns of it and closes it again. -/
def openedAndClosed : List TabsStep :=
  [.perform (.openTab 1 { url := none, viewport := none, workspaceId := "workspace" }) true,
    .takeAnswer 0, .takeEvent, .beginClose "workspace" 1, .processClose 0 2, .closeAnswered 0,
    .takeEvent]

theorem tabsAgree_openedAndClosed :
    (finalState (step .ok) start openedAndClosed).TabsAgree "workspace" :=
  tabsAgree_of_calm .ok openedAndClosed (by decide) _ (finalState_mem_visited _ _) "workspace"
    ⟨by decide, by decide, by decide, by decide, by decide⟩

/-- The answer of the call that opened a tab comes after the events that the tab was opened
and closed. -/
def lateAnswer : List TabsStep :=
  [.perform (.openTab 1 { url := none, viewport := none, workspaceId := "workspace" }) true,
    .perform (.close 2 { tabId := some 1, workspaceId := "workspace" }) false,
    .takeEvent, .takeEvent, .takeAnswer 0]

theorem not_tabsAgree_lateAnswer :
    let s := finalState (step .ok) start lateAnswer
    s.delivered = s.log.length ∧ s.earlier.length = 0 ∧ s.requests = [] ∧ s.lists.length = 0 ∧
      s.answers.length = 0 ∧ s.closes.length = 0 ∧
      (OrderedMap.get? (s.workspace "workspace").sessions 1).isSome = true ∧
      s.server.snapshots "workspace" 1 = none := by
  decide

end PreviewTabs

end Laborer.Previews
