import Laborer.Worktrees.PrPollCalls

/-!
# One poll for each workspace

While no stop comes between a start and its record, and a workspace that goes has nothing in
the caches, a workspace whose last call was a start has one poll and no other has one, and the
caches keep nothing of a workspace that is not polled.
-/

namespace Laborer.Worktrees

open Library List Option Function OrderedMap

namespace PrWatcher

open WatcherCall (clearsReviews clearsState roles starts_roles)

variable {s : PrWatcher} {call : WatcherCall} {wid : String}

/-! ## Stops -/

/-- The calls of a stop of the workspace, whoever makes it. -/
structure StopsAs (workspaceId : String) (mk : StopPhase → WatcherCall) : Prop where
  stops : ∀ phase, roles.Stops (mk phase)
  ends : ∀ phase fiber, (mk phase).ends fiber = phase.ends fiber
  clearsState : ∀ phase other,
    (mk phase).clearsState other = (workspaceId == other && phase.clearsState)
  clearsReviews : ∀ phase other, (mk phase).clearsReviews other = (workspaceId == other)
  relies : ∀ recorded runs fiber, (mk (.interrupting fiber)).Relies recorded runs ↔
    ∀ other, runs fiber = some other → other = workspaceId
  cleared : ∀ recorded runs, (mk .clearingStates).Relies recorded runs ∧
    (mk .clearingReviews).Relies recorded runs

theorem stopsAs_stopping (wid : String) : StopsAs wid (WatcherCall.stopping wid) :=
  ⟨fun _ => ⟨fun _ => rfl, fun _ _ => rfl⟩, fun _ _ => rfl, fun _ _ => rfl, fun _ _ => rfl,
    fun _ _ _ => Iff.rfl, fun _ _ => ⟨trivial, trivial⟩⟩

theorem stopsAs_checking (wid : String) :
    StopsAs wid fun phase => .checking wid (.stopping phase) :=
  ⟨fun _ => ⟨fun _ => rfl, fun _ _ => rfl⟩, fun _ _ => rfl, fun _ _ => rfl, fun _ _ => rfl,
    fun _ _ _ => Iff.rfl, fun _ _ => ⟨trivial, trivial⟩⟩

variable {mk : StopPhase → WatcherCall} {fiber : ℕ} {phase : CheckPhase} {poll : Poll}

theorem StopsAs.free (hmk : StopsAs wid mk) :
    roles.Free (mk .clearingStates) ∧ roles.Free (mk .clearingReviews) :=
  ⟨⟨⟨(hmk.stops _).starts, (hmk.stops _).forks, fun fiber => hmk.ends _ fiber⟩,
      fun recorded runs => (hmk.cleared recorded runs).1⟩,
    ⟨⟨(hmk.stops _).starts, (hmk.stops _).forks, fun fiber => hmk.ends _ fiber⟩,
      fun recorded runs => (hmk.cleared recorded runs).2⟩⟩

theorem Inv.take (h : s.Inv) (hmk : StopsAs wid mk) (hfirst : ¬s.Starting wid) :
    Inv ((s.takePoll wid).addCalls
      ((s.pollingFibers.get? wid).toList.map fun fiber => mk (.interrupting fiber))) := by
  have hnext : ∀ call ∈ (s.pollingFibers.get? wid).toList.map
      (fun fiber => mk (.interrupting fiber)),
      ∃ fiber, s.pollingFibers.get? wid = some fiber ∧ call = mk (.interrupting fiber) := by
    intro call hmem
    obtain ⟨fiber, hfiber, rfl⟩ := mem_map.mp hmem
    exact ⟨fiber, mem_toList.mp hfiber, rfl⟩
  have hmem : ∀ fiber, s.pollingFibers.get? wid = some fiber →
      mk (.interrupting fiber) ∈ (s.pollingFibers.get? wid).toList.map
        fun fiber => mk (.interrupting fiber) := by
    intro fiber hfiber
    rw [hfiber]
    exact mem_singleton_self _
  have hstops : ∀ call ∈ (s.pollingFibers.get? wid).toList.map
      (fun fiber => mk (.interrupting fiber)), roles.Stops call := by
    intro call hcall
    obtain ⟨fiber, -, rfl⟩ := hnext call hcall
    exact hmk.stops _
  refine ⟨h.kept.takeKey hfirst hstops (fun fiber => or_congr ?_ Iff.rfl) (fun call hcall => ?_)
    fun cache hwas _ => ?_, fun other => ?_, h.itself⟩
  · constructor
    · rintro ⟨call, hcall, hends⟩
      obtain ⟨fiber', hfiber', rfl⟩ := hnext call hcall
      have heq : fiber' = fiber := of_decide_eq_true ((hmk.ends _ fiber).symm.trans hends)
      rw [← heq]
      exact hfiber'
    · intro hfiber
      exact ⟨_, hmem fiber hfiber, (hmk.ends _ fiber).trans (beq_self_eq_true _)⟩
  · obtain ⟨fiber, hfiber, rfl⟩ := hnext call hcall
    refine (hmk.relies _ _ fiber).mpr fun other hother => ?_
    exact some.inj (hother.symm.trans (h.kept.polling.tracked.recorded_runs wid fiber hfiber))
  · -- the workspace was wanted because its poll is recorded
    have hsome := ((h.kept.polling.wanted_iff wid).mp hwas).resolve_right hfirst
    obtain ⟨fiber, hfiber⟩ := isSome_iff_exists.mp hsome
    refine ⟨_, hmem fiber hfiber, ?_⟩
    cases cache with
    | states => exact (hmk.clearsState _ wid).trans (by simp [StopPhase.clearsState])
    | reviews => exact (hmk.clearsReviews _ wid).trans (beq_self_eq_true _)
  · refine (h.reserved other).trans (Iff.trans ?_ Pending.append_iff.symm)
    exact (or_iff_right (Pending.of_forall fun call hcall => (hstops call hcall).starts other)).symm

theorem stops_of_starting (h : call.starting = none) : roles.Stops call := by
  cases call <;> first | exact ⟨fun _ => rfl, fun _ _ => rfl⟩ | cases h

theorem Inv.stopAll (h : s.Inv) (hfirst : ∀ call ∈ s.calls, call.starting = none) :
    s.stopAllPolling.Inv := by
  refine ⟨h.kept.takeAll ?_ (stops_of_starting rfl) (fun _ => contains_iff_mem)
    (fun _ _ => trivial) ?_, fun other => ?_, h.itself⟩
  · rintro wid ⟨call, hmem, hcall⟩
    rw [(stops_of_starting (hfirst call hmem)).starts] at hcall
    cases hcall
  · rintro (_ | _) _ <;> rfl
  · exact (h.reserved other).trans (Pending.cons_iff_of_not (by rfl)).symm

/-! ## Interruptions -/

theorem update_none_eq_some {other : ℕ} {found : Poll} :
    Function.update s.polls fiber none other = some found ↔
      other ≠ fiber ∧ s.polls other = some found := by
  rw [update_apply]
  split
  · next heq => simp [heq]
  · next hne => simp [hne]

theorem itself_update_none (s : PrWatcher) (fiber other : ℕ) :
    Itself { s with polls := Function.update s.polls fiber none } other ↔
      other ≠ fiber ∧ s.Itself other := by
  simp only [Itself, update_none_eq_some, and_assoc, exists_and_left]

theorem Inv.interrupt (h : s.Inv) {call' : WatcherCall} (hcall : call ∈ s.calls)
    (hends : call.ends fiber = true) (hstops : roles.Stops call)
    (hstops' : roles.Stops call')
    (hsub : ∀ found, call'.ends found = true → call.ends found = true)
    (hrest : ∀ found, found ≠ fiber → call.ends found = true → call'.ends found = true)
    (hclears : ∀ cache other, roles.clears cache other call = true →
      roles.clears cache other call' = true)
    (hrelies : ∀ recorded runs, call'.Relies recorded runs) :
    Inv ({ s.without call with polls := Function.update s.polls fiber none }.addCalls [call']) := by
  have hitself := itself_update_none s fiber
  refine ⟨h.kept.interrupt hcall hends hstops hstops' hsub hrest hclears hrelies
    (map_update s.polls Poll.workspaceId fiber none)
    (fun found hfound => ((hitself found).mp hfound).2)
    fun found hne hfound => (hitself found).mpr ⟨hne, hfound⟩,
    h.reserved_advance hcall fun other => (hstops'.starts other).trans (hstops.starts other).symm,
    fun other poll phase hother => h.itself other poll phase (update_none_eq_some.mp hother).2⟩

theorem Inv.stopStep (h : s.Inv) (hmk : StopsAs wid mk) (phase : StopPhase)
    (hcall : mk phase ∈ s.calls) : Inv (((s.without (mk phase)).stopStep wid phase).2.addCalls
      (((s.without (mk phase)).stopStep wid phase).1.toList.map mk)) := by
  cases phase with
  | interrupting fiber =>
    refine h.interrupt hcall ((hmk.ends _ fiber).trans (beq_self_eq_true _)) (hmk.stops _)
      (hmk.stops _) (fun found hends => ?_) (fun found hne hends => ?_)
      (fun cache other hother => ?_)
      fun recorded runs => (hmk.cleared recorded runs).1
    · rw [hmk.ends] at hends
      cases hends
    · rw [hmk.ends] at hends
      exact absurd (of_decide_eq_true hends).symm hne
    · cases cache with
      | states =>
        have hinterrupting := hmk.clearsState (.interrupting fiber) other
        exact (hmk.clearsState _ other).trans (hinterrupting.symm.trans hother)
      | reviews =>
        exact (hmk.clearsReviews _ other).trans ((hmk.clearsReviews _ other).symm.trans hother)
  | clearingStates =>
    refine h.goes hcall hmk.free.1 (fun call hmem => ?_) (fun other hother => ?_)
      (fun other hother => ⟨hother, fun hclears => Pending.singleton_iff.mpr ?_⟩)
    · rw [mem_singleton.mp hmem]
      exact hmk.free.2
    · obtain ⟨hne, hold⟩ := update_false_cases hother
      refine ⟨hold, fun hclears => ?_⟩
      rw [hmk.clearsState] at hclears
      exact absurd (beq_iff_eq.mp (Bool.and_eq_true_iff.mp hclears).1) hne
    · rw [hmk.clearsReviews] at hclears ⊢
      exact hclears
  | clearingReviews =>
    refine h.goes hcall hmk.free.2 (fun call hmem => absurd hmem not_mem_nil)
      (fun other hother => ⟨hother, fun hclears => ?_⟩) (fun other hother => ?_)
    · rw [hmk.clearsState] at hclears
      exact absurd (Bool.and_eq_true_iff.mp hclears).2 Bool.false_ne_true
    · obtain ⟨hne, hold⟩ := update_false_cases hother
      refine ⟨hold, fun hclears => ?_⟩
      rw [hmk.clearsReviews] at hclears
      exact absurd (beq_iff_eq.mp hclears) hne

theorem toList_map_map {α β γ : Type} (found : Option α) (f : α → β) (g : β → γ) :
    (found.map f).toList.map g = found.toList.map fun a => g (f a) := by
  cases found <;> rfl

theorem free_checking (hphase : ∀ stop, phase ≠ .stopping stop) :
    roles.Free (.checking wid phase) := by
  cases phase with
  | stopping stop => exact absurd rfl (hphase stop)
  | _ => exact ⟨⟨fun _ => rfl, fun _ _ => rfl, fun _ => rfl⟩, fun _ _ => trivial⟩

theorem not_clears_checking (hphase : ∀ stop, phase ≠ .stopping stop)
    (other : String) : (WatcherCall.checking wid phase).clearsReviews other = false := by
  cases phase with
  | stopping stop => exact absurd rfl (hphase stop)
  | _ => rfl

theorem Inv.withoutCheck (h : s.Inv)
    (hcall : .checking wid phase ∈ s.calls) (hphase : ∀ stop, phase ≠ .stopping stop) :
    (s.without (.checking wid phase)).Inv := by
  refine h.without hcall (free_checking hphase) (fun other => ?_) (not_clears_checking hphase)
  refine Bool.eq_false_iff.mpr fun hclears => ?_
  have hreviews := clearsReviews_of_clearsState hclears
  rw [not_clears_checking hphase] at hreviews
  cases hreviews

theorem Inv.checkStep (h : s.Inv) (phase : CheckPhase) (answer : WatcherAnswer)
    (hcall : .checking wid phase ∈ s.calls) (hcalm : s.CalmCheck wid phase answer) :
    Inv (((s.without (.checking wid phase)).checkStep wid phase answer).2.addCalls
      (((s.without (.checking wid phase)).checkStep wid phase answer).1.toList.map
        (.checking wid))) := by
  cases phase with (try have hinv := h.withoutCheck hcall fun _ => CheckPhase.noConfusion)
  | reading =>
    cases answer with
    | yes => exact hinv.begins (free_checking fun _ => CheckPhase.noConfusion)
    | no => exact hinv.begins (free_checking fun _ => CheckPhase.noConfusion)
    | failed => exact hinv
  | loading =>
    cases answer with
    | no => exact hinv.begins (free_checking fun _ => CheckPhase.noConfusion)
    | failed => exact hinv.begins (free_checking fun _ => CheckPhase.noConfusion)
    | yes =>
      have hcovered : (s.without (.checking wid .loading)).Covered
          (clearsReviews wid) wid :=
        (hcalm rfl).imp_right (Pending.erase_iff (by rfl)).mpr
      exact (hinv.cacheReviews hcovered).begins (free_checking fun _ => CheckPhase.noConfusion)
  | caching =>
    have hcovered : (s.without (.checking wid .caching)).Covered
        (clearsState wid) wid :=
      hcalm.imp_right (Pending.erase_iff (by rfl)).mpr
    exact (hinv.cacheState hcovered).begins (free_checking fun _ => CheckPhase.noConfusion)
  | reporting => exact h.withoutCheck hcall fun _ => CheckPhase.noConfusion
  | givingUp =>
    have htake := hinv.take (stopsAs_checking wid) fun hstarting => hcalm hstarting.of_erase
    unfold PrWatcher.checkStep
    dsimp only
    rw [toList_map_map]
    exact htake
  | stopping phase =>
    have hstep := h.stopStep (stopsAs_checking wid) phase hcall
    unfold PrWatcher.checkStep
    dsimp only
    rw [toList_map_map]
    exact hstep

theorem free_interruptingAll_nil : roles.Free (.interruptingAll []) :=
  ⟨⟨fun _ => rfl, fun _ _ => rfl, fun _ => rfl⟩, fun _ _ => trivial⟩

theorem free_clearingAllStates : roles.Free .clearingAllStates :=
  ⟨⟨fun _ => rfl, fun _ _ => rfl, fun _ => rfl⟩, fun _ _ => trivial⟩

theorem free_clearingAllReviews : roles.Free .clearingAllReviews :=
  ⟨⟨fun _ => rfl, fun _ _ => rfl, fun _ => rfl⟩, fun _ _ => trivial⟩

theorem Inv.stopAllStep (h : s.Inv) :
    (.interruptingAll [] ∈ s.calls →
      ((s.without (.interruptingAll [])).addCalls [.clearingAllStates]).Inv) ∧
    (.clearingAllStates ∈ s.calls → Inv ({ s.without .clearingAllStates with
      previousPrState := fun _ => false }.addCalls [.clearingAllReviews])) ∧
    (.clearingAllReviews ∈ s.calls → Inv { s.without .clearingAllReviews with
      reviewSummaryCache := fun _ => false }) := by
  have hnone : ∀ other : String, (fun _ => false) other = true → False :=
    fun _ hother => Bool.false_ne_true hother
  refine ⟨fun hcall => ?_, fun hcall => ?_, fun hcall => ?_⟩
  · refine h.goes hcall free_interruptingAll_nil (fun call hmem => ?_)
      (fun other hother => ⟨hother, fun _ => Pending.singleton_iff.mpr (by rfl)⟩)
      (fun other hother => ⟨hother, fun _ => Pending.singleton_iff.mpr (by rfl)⟩)
    rw [mem_singleton.mp hmem]
    exact free_clearingAllStates
  · refine h.goes hcall free_clearingAllStates (fun call hmem => ?_)
      (fun other hother => (hnone other hother).elim)
      (fun other hother => ⟨hother, fun _ => Pending.singleton_iff.mpr (by rfl)⟩)
    rw [mem_singleton.mp hmem]
    exact free_clearingAllReviews
  · exact h.goes hcall free_clearingAllReviews (fun call hmem => absurd hmem not_mem_nil)
      (fun other hother => ⟨hother, nofun⟩)
      (fun other hother => (hnone other hother).elim)

theorem Inv.callStep (h : s.Inv) (hcall : call ∈ s.calls) (answer : WatcherAnswer)
    (hcalm : s.Calm (.proceeds call answer)) : ((s.without call).callStep call answer).Inv := by
  cases call with
  | reserved wid rest =>
    obtain ⟨hreserved, hforking, hreleasing⟩ := starts_roles wid rest
    have hclears : ∀ cache other,
        roles.clears cache other (.reserved wid rest) = false := by
      rintro (_ | _) _ <;> rfl
    unfold PrWatcher.callStep
    dsimp only
    split
    · next hsome => exact h.choose hcall hreserved hreleasing hclears hsome
    · next hnone =>
      exact h.choose hcall hreserved hforking hclears (not_isSome_iff_eq_none.mp hnone)
  | forking wid rest => exact h.fork hcall
  | recording wid fiber rest => exact h.record hcall
  | releasing wid rest => exact (h.release hcall).refreshRest rest
  | refreshing rest =>
    have hinv := h.without hcall (free_refreshing rest) (fun _ => rfl) fun _ => rfl
    cases rest with
    | nil => exact hinv
    | cons wid rest => exact hinv.reserve wid rest
  | stopping wid phase => exact h.stopStep (stopsAs_stopping wid) phase hcall
  | interruptingAll fibers =>
    cases fibers with
    | nil => exact h.stopAllStep.1 hcall
    | cons fiber fibers =>
      refine h.interrupt hcall ?_ (stops_of_starting rfl) (stops_of_starting rfl)
        (fun found hends => ?_) (fun found hne hends => ?_) ?_ fun _ _ => trivial
      · exact contains_iff_mem.mpr mem_cons_self
      · exact contains_iff_mem.mpr (mem_cons_of_mem _ (contains_iff_mem.mp hends))
      · refine contains_iff_mem.mpr ?_
        exact (mem_cons.mp (contains_iff_mem.mp hends)).resolve_left hne
      · rintro (_ | _) _ _ <;> rfl
  | clearingAllStates => exact h.stopAllStep.2.1 hcall
  | clearingAllReviews => exact h.stopAllStep.2.2 hcall
  | checking wid phase => exact h.checkStep phase answer hcall hcalm

/-! ## Polls -/

theorem runs_setPoll (hpoll : s.polls fiber = some poll) (check : Option CheckPhase) :
    (s.setPoll fiber { poll with check := check }).runs = s.runs := by
  funext other
  refine (map_update s.polls Poll.workspaceId fiber _ other).trans ?_
  split
  · next heq => rw [heq, runs, hpoll]; rfl
  · rfl

theorem Inv.setPoll (h : s.Inv) (hpoll : s.polls fiber = some poll)
    (hcheck : ∀ phase, poll.check ≠ some (.stopping phase)) {check : Option CheckPhase}
    (hgoes : ∀ phase, check ≠ some (.stopping phase)) :
    (s.setPoll fiber { poll with check := check }).Inv := by
  have hpolls : ∀ other found phase, found.check = some (.stopping phase) →
      ((s.setPoll fiber { poll with check := check }).polls other = some found ↔
        s.polls other = some found) := by
    intro other found phase hphase
    refine update_eq_some_iff hpoll (iff_of_false (fun hold => ?_) fun hnew => ?_)
    · rw [← some.inj hold] at hphase
      exact hcheck phase hphase
    · rw [← some.inj hnew] at hphase
      exact hgoes phase hphase
  have hitself : (s.setPoll fiber { poll with check := check }).Itself = s.Itself := by
    funext other
    refine propext (exists_congr fun found => exists_congr fun phase => ?_)
    exact and_congr_left fun hphase => hpolls other found phase hphase
  refine ⟨?_, h.reserved, fun other found phase hother hphase =>
    h.itself other found phase ((hpolls other found phase hphase).mp hother) hphase⟩
  unfold polled
  rw [runs_setPoll hpoll, hitself]
  exact h.kept

/-- A poll whose workspace has gone takes itself out of the map. -/
theorem Inv.takeItself (h : s.Inv) (hpoll : s.polls fiber = some poll)
    (hfirst : ¬s.Starting poll.workspaceId)
    (hrecorded : s.pollingFibers.get? poll.workspaceId = some fiber)
    (hstate : s.previousPrState poll.workspaceId = false)
    (hreview : s.reviewSummaryCache poll.workspaceId = false) :
    Inv ((s.takePoll poll.workspaceId).setPoll fiber
      { poll with check := some (.stopping (.interrupting fiber)) }) := by
  set taken : Poll := { poll with check := some (.stopping (.interrupting fiber)) }
  have hpolls : ∀ other, ((s.takePoll poll.workspaceId).setPoll fiber taken).polls other =
      if other = fiber then some taken else s.polls other := fun other => update_apply ..
  have hnone : ∀ call ∈ ([] : List WatcherCall), False := fun _ => not_mem_nil
  have hkept : Kept roles ((s.takePoll poll.workspaceId).setPoll fiber taken).Itself
      (s.takePoll poll.workspaceId).polled := by
    refine h.kept.takeKey hfirst (fun call hmem => (hnone call hmem).elim) (fun found => ?_)
      (fun call hmem => (hnone call hmem).elim) fun cache _ hremembered => ?_
    · rw [show s.polled.fibers.get? poll.workspaceId = some fiber from hrecorded, some_inj]
      constructor
      · rintro (hpending | ⟨found', phase, hother, hphase⟩)
        · exact absurd hpending Pending.not_nil
        · rw [hpolls] at hother
          split at hother
          · next heq => exact .inl heq.symm
          · exact .inr ⟨found', phase, hother, hphase⟩
      · rintro (rfl | ⟨found', phase, hother, hphase⟩)
        · exact .inr ⟨taken, _, by rw [hpolls, if_pos rfl], rfl⟩
        · by_cases heq : found = fiber
          · exact .inr ⟨taken, _, by rw [hpolls, if_pos heq], rfl⟩
          · exact .inr ⟨found', phase, by rw [hpolls, if_neg heq]; exact hother, hphase⟩
    · cases cache with
      | states => exact absurd (hstate.symm.trans hremembered) Bool.false_ne_true
      | reviews => exact absurd (hreview.symm.trans hremembered) Bool.false_ne_true
  refine ⟨?_, h.reserved, fun other found phase hother hphase => ?_⟩
  · have hpolled : ((s.takePoll poll.workspaceId).setPoll fiber taken).polled =
        (s.takePoll poll.workspaceId).polled := by
      unfold polled
      rw [runs_setPoll (s := s.takePoll poll.workspaceId) hpoll]
      rfl
    rw [hpolled]
    exact hkept
  · rw [hpolls] at hother
    split at hother
    · next heq =>
      cases hother
      cases hphase
      rw [heq]
    · exact h.itself other found phase hother hphase

theorem Inv.interruptItself (h : s.Inv) (hitself : s.Itself fiber) :
    Inv { s with polls := Function.update s.polls fiber none } :=
  ⟨h.kept.finish hitself (map_update s.polls Poll.workspaceId fiber none)
    (fun found hfound => ((itself_update_none s fiber found).mp hfound).2)
    fun found hne hfound => (itself_update_none s fiber found).mpr ⟨hne, hfound⟩, h.reserved,
    fun other found phase hother => h.itself other found phase (update_none_eq_some.mp hother).2⟩

theorem Inv.pollCheck (h : s.Inv) (hpoll : s.polls fiber = some poll)
    (hcheck : poll.check = some phase) (answer : WatcherAnswer)
    (hcalm : s.CalmPoll fiber poll) {after : PrWatcher} {check : Option CheckPhase}
    (hstep : s.checkStep poll.workspaceId phase answer = (check, after)) :
    (if (after.polls fiber).isSome then after.setPoll fiber { poll with check := check }
      else after).Inv := by
  -- a check that does not stop the polling goes on in the same poll
  have hgoes : ∀ {after : PrWatcher}, after.Inv → after.polls fiber = some poll →
      (∀ stop, phase ≠ .stopping stop) → (∀ stop, check ≠ some (.stopping stop)) →
        (if (after.polls fiber).isSome then after.setPoll fiber { poll with check := check }
          else after).Inv := by
    intro after hinv hafter hold hnext
    rw [hafter, if_pos isSome_some]
    refine hinv.setPoll hafter (fun stop heq => hold stop ?_) hnext
    rw [hcheck] at heq
    exact some.inj heq
  have hcovered : (∀ stop, phase ≠ .stopping stop) →
      s.Covered (clearsState poll.workspaceId) poll.workspaceId := by
    intro hold
    refine h.covered hpoll fun stop heq => hold stop ?_
    rw [hcheck] at heq
    exact some.inj heq
  cases phase with
  | reading =>
    cases hstep
    refine hgoes h hpoll (fun _ => CheckPhase.noConfusion) fun stop => ?_
    cases answer <;> exact nofun
  | loading =>
    cases hstep
    refine hgoes ?_ ?_ (fun _ => CheckPhase.noConfusion) nofun
    · split
      · exact h.cacheReviews (hcovered fun _ => CheckPhase.noConfusion).reviews
      · exact h
    · split <;> exact hpoll
  | caching =>
    cases hstep
    exact hgoes (h.cacheState (hcovered fun _ => CheckPhase.noConfusion)) hpoll
      (fun _ => CheckPhase.noConfusion) nofun
  | reporting =>
    cases hstep
    exact hgoes h hpoll (fun _ => CheckPhase.noConfusion) nofun
  | givingUp =>
    cases hstep
    obtain ⟨hfirst, hnone | ⟨hrecorded, hstate, hreview⟩⟩ := hcalm hcheck
    · -- some stop has taken the poll already, and this one finds nothing
      have htake := h.take (stopsAs_stopping poll.workspaceId) hfirst
      rw [hnone] at htake
      refine hgoes htake hpoll (fun _ => CheckPhase.noConfusion) fun stop heq => ?_
      rw [hnone] at heq
      cases heq
    · have htake := h.takeItself hpoll hfirst hrecorded hstate hreview
      rw [hrecorded]
      have hkept : (s.takePoll poll.workspaceId).polls fiber = some poll := hpoll
      rw [hkept, if_pos isSome_some]
      exact htake
  | stopping stop =>
    have hitself := h.itself fiber poll stop hpoll hcheck
    rw [hitself] at hstep
    cases hstep
    rw [if_neg ?_]
    · exact h.interruptItself ⟨poll, stop, hpoll, hcheck⟩
    · show ¬(Function.update s.polls fiber none fiber).isSome = true
      rw [update_self]
      exact Bool.false_ne_true

theorem Inv.pollStep (h : s.Inv) (fiber : ℕ) (answer : WatcherAnswer)
    (hcalm : s.Calm (.polls fiber answer)) : (s.pollStep fiber answer).Inv := by
  have hpolls : ∀ poll ∈ s.polls fiber, s.CalmPoll fiber poll := hcalm
  unfold PrWatcher.pollStep
  cases hpoll : s.polls fiber with
  | none => exact h
  | some poll =>
    dsimp only
    cases hcheck : poll.check with
    | none =>
      refine h.setPoll hpoll (fun phase heq => ?_) fun phase heq => (by cases heq)
      rw [hcheck] at heq
      cases heq
    | some phase => exact h.pollCheck hpoll hcheck answer (hpolls poll hpoll) rfl

/-! ## Runs -/

theorem Inv.step (h : s.Inv) (event : WatcherStep) (hcalm : s.Calm event) : (s.step event).Inv := by
  cases event with
  | startPolling wid => exact h.reserve wid []
  | refreshPolling workspaceIds => exact h.refreshRest workspaceIds
  | stopPolling wid => exact h.take (stopsAs_stopping wid) hcalm
  | stopAllPolling => exact h.stopAll hcalm
  | checkPr wid => exact h.begins (free_checking fun _ => CheckPhase.noConfusion)
  | proceeds call answer =>
    unfold PrWatcher.step
    dsimp only
    split
    · next hcall => exact h.callStep hcall answer hcalm
    · exact h
  | polls fiber answer => exact h.pollStep fiber answer hcalm

def Quiet (s : PrWatcher) : Prop :=
  s.calls = [] ∧ ∀ fiber < s.nextFiber, ∀ poll ∈ s.polls fiber,
    poll.check ≠ some (.stopping (.interrupting fiber))

instance (s : PrWatcher) : Decidable s.Quiet := inferInstanceAs (Decidable (_ ∧ _))

/-- Each workspace whose last call was a start has exactly one poll, no other workspace has one,
each poll is the one recorded, and what the caches keep is of workspaces that are polled. -/
structure Settled (s : PrWatcher) : Prop where
  one : ∀ workspaceId, s.wanted workspaceId = true →
    ∃ fiber, ∀ other, s.runs other = some workspaceId ↔ other = fiber
  stopped : ∀ workspaceId, s.wanted workspaceId = false →
    ∀ fiber, s.runs fiber ≠ some workspaceId
  recorded : ∀ fiber workspaceId, s.runs fiber = some workspaceId →
    s.pollingFibers.get? workspaceId = some fiber
  states : ∀ workspaceId, s.previousPrState workspaceId = true →
    (s.pollingFibers.get? workspaceId).isSome = true
  reviews : ∀ workspaceId, s.reviewSummaryCache workspaceId = true →
    (s.pollingFibers.get? workspaceId).isSome = true

theorem Inv.settled (h : s.Inv) (hquiet : s.Quiet) : s.Settled := by
  obtain ⟨hcalls, hpolls⟩ := hquiet
  have hitself : ∀ fiber, ¬s.Itself fiber := by
    rintro fiber ⟨poll, phase, hpoll, hphase⟩
    have hlt := h.kept.polling.tracked.runs_lt fiber poll.workspaceId
      (show (s.polls fiber).map Poll.workspaceId = _ by rw [hpoll, map_some])
    rw [h.itself fiber poll phase hpoll hphase] at hphase
    exact hpolls fiber hlt poll hpoll hphase
  have hpolling := h.kept.polling
  rw [show s.polled.calls = [] from hcalls] at hpolling
  obtain ⟨hone, hstopped, hrecorded, -⟩ := hpolling.settled hitself
  exact ⟨hone, hstopped, hrecorded,
    fun _ => h.kept.isSome_of_remembered (i := WatcherCache.states) hcalls,
    fun _ => h.kept.isSome_of_remembered (i := WatcherCache.reviews) hcalls⟩

end PrWatcher

end Laborer.Worktrees
