import Laborer.Library.PolledKeys
import Laborer.Worktrees.PrPolling

/-!
# What the calls of the pull request polls keep

What each call holds and relies on, the condition under which the calls do not get into each
other's way, and the invariant, through checks and starts.
-/

namespace Laborer.Worktrees

open Library List Function Option OrderedMap Bool

/-! ## What a call holds -/

namespace WatcherCall

/-- The workspace of a start that is going to record its poll, or has found one recorded. -/
def starting : WatcherCall → Option String
  | .reserved workspaceId _ => some workspaceId
  | .forking workspaceId _ => some workspaceId
  | .recording workspaceId _ _ => some workspaceId
  | .releasing workspaceId _ => some workspaceId
  | _ => none

def starts (workspaceId : String) (call : WatcherCall) : Bool :=
  call.starting == some workspaceId

/-- The call has forked the fiber and not recorded it yet. -/
def forks (fiber : ℕ) (workspaceId : String) : WatcherCall → Bool
  | .recording other forked _ => forked == fiber && other == workspaceId
  | _ => false

end WatcherCall

def StopPhase.ends (fiber : ℕ) : StopPhase → Bool
  | .interrupting taken => taken == fiber
  | _ => false

def StopPhase.clearsState : StopPhase → Bool
  | .interrupting _ => true
  | .clearingStates => true
  | .clearingReviews => false

namespace WatcherCall

/-- The call has taken the fiber and not interrupted it yet. -/
def ends (fiber : ℕ) : WatcherCall → Bool
  | .stopping _ phase => phase.ends fiber
  | .checking _ (.stopping phase) => phase.ends fiber
  | .interruptingAll fibers => fibers.contains fiber
  | _ => false

def clearsState (workspaceId : String) : WatcherCall → Bool
  | .stopping other phase => other == workspaceId && phase.clearsState
  | .checking other (.stopping phase) => other == workspaceId && phase.clearsState
  | .interruptingAll _ => true
  | .clearingAllStates => true
  | _ => false

def clearsReviews (workspaceId : String) : WatcherCall → Bool
  | .stopping other _ => other == workspaceId
  | .checking other (.stopping _) => other == workspaceId
  | .interruptingAll _ => true
  | .clearingAllStates => true
  | .clearingAllReviews => true
  | _ => false

def Relies (recorded : String → Option ℕ) (runs : ℕ → Option String) : WatcherCall → Prop
  | .forking workspaceId _ => recorded workspaceId = none
  | .releasing workspaceId _ => (recorded workspaceId).isSome = true
  | .stopping workspaceId (.interrupting fiber) =>
    ∀ other, runs fiber = some other → other = workspaceId
  | .checking workspaceId (.stopping (.interrupting fiber)) =>
    ∀ other, runs fiber = some other → other = workspaceId
  | _ => True

end WatcherCall

inductive WatcherCache where
  | states
  | reviews

namespace WatcherCall

theorem starts_of_forks (fiber : ℕ) (wid : String) (call : WatcherCall)
    (h : call.forks fiber wid = true) : call.starts wid = true := by
  cases call with
  | recording other forked rest =>
    have hother := (and_eq_true_iff.mp h).2
    rw [beq_iff_eq] at hother
    rw [hother]
    exact beq_self_eq_true _
  | _ => cases h

theorem Relies.mono {recorded recorded' : String → Option ℕ} {runs runs' : ℕ → Option String}
    {call : WatcherCall} (h : call.Relies recorded runs)
    (hrecorded : ∀ wid, call.starts wid = true → recorded' wid = recorded wid)
    (hruns : ∀ fiber name, call.ends fiber = true → runs' fiber = some name →
      runs fiber = some name) : call.Relies recorded' runs' := by
  cases call with
  | forking wid rest => exact (hrecorded wid (beq_self_eq_true _)).trans h
  | releasing wid rest =>
    exact (congrArg Option.isSome (hrecorded wid (beq_self_eq_true _))).trans h
  | stopping wid phase =>
    cases phase with
    | interrupting fiber =>
      exact fun name hname => h name (hruns fiber name (beq_self_eq_true _) hname)
    | _ => trivial
  | checking wid phase =>
    cases phase with
    | stopping phase =>
      cases phase with
      | interrupting fiber =>
        exact fun name hname => h name (hruns fiber name (beq_self_eq_true _) hname)
      | _ => trivial
    | _ => trivial
  | _ => trivial

def roles : PollRoles String WatcherCall WatcherCache where
  starts := starts
  forks := forks
  ends := ends
  starts_of_forks := starts_of_forks
  clears
    | .states => clearsState
    | .reviews => clearsReviews
  relies := fun recorded runs call => call.Relies recorded runs
  relies_mono := Relies.mono

theorem starts_roles (wid : String) (rest : List String) : roles.Starts wid (.reserved wid rest) ∧
      roles.Starts wid (.forking wid rest) ∧ roles.Starts wid (.releasing wid rest) := by
  have hstarts : ∀ other, (some wid == some other) = true ↔ other = wid := by
    intro other
    rw [beq_iff_eq, Option.some.injEq]
    exact eq_comm
  exact ⟨⟨hstarts, fun _ _ => rfl, fun _ => rfl⟩, ⟨hstarts, fun _ _ => rfl, fun _ => rfl⟩,
    ⟨hstarts, fun _ _ => rfl, fun _ => rfl⟩⟩

theorem forks_recording (wid : String) (fiber : ℕ) (rest : List String) :
    roles.Forks fiber wid (.recording wid fiber rest) where
  starts := (starts_roles wid rest).1.starts
  forks found other := by
    show (fiber == found && wid == other) = true ↔ _
    rw [and_eq_true_iff, beq_iff_eq, beq_iff_eq, eq_comm, @eq_comm _ wid]
  ends _ := rfl

end WatcherCall

/-! ## The condition -/

namespace PrWatcher

open WatcherCall (clearsReviews clearsState forks_recording roles starts starts_roles)

def Starting (s : PrWatcher) (workspaceId : String) : Prop :=
  Pending s.calls (starts workspaceId)

instance (s : PrWatcher) (workspaceId : String) : Decidable (s.Starting workspaceId) :=
  inferInstanceAs (Decidable (Pending _ _))

/-- The last call for the workspace was a start, or some call is going to clear what the cache
has of it. -/
def Covered (s : PrWatcher) (clears : WatcherCall → Bool) (workspaceId : String) : Prop :=
  s.wanted workspaceId = true ∨ Pending s.calls clears

instance (s : PrWatcher) (clears : WatcherCall → Bool) (workspaceId : String) :
    Decidable (s.Covered clears workspaceId) :=
  inferInstanceAs (Decidable (_ ∨ _))

/-- A check from elsewhere writes into a cache only while its workspace is covered, and stops
the polling only while no start of it is pending. -/
def CalmCheck (workspaceId : String) (phase : CheckPhase) (answer : WatcherAnswer) (s : PrWatcher) :
    Prop :=
  match phase with
  | .loading => answer = .yes → s.Covered (clearsReviews workspaceId) workspaceId
  | .caching => s.Covered (clearsState workspaceId) workspaceId
  | .givingUp => ¬s.Starting workspaceId
  | _ => True

/-- A poll stops itself only while no start of its workspace is pending, and while it is the one
recorded and has nothing in the caches. -/
def CalmPoll (fiber : ℕ) (poll : Poll) (s : PrWatcher) : Prop :=
  poll.check = some .givingUp → ¬s.Starting poll.workspaceId ∧
    (s.pollingFibers.get? poll.workspaceId = none ∨
      (s.pollingFibers.get? poll.workspaceId = some fiber ∧
        s.previousPrState poll.workspaceId = false ∧
          s.reviewSummaryCache poll.workspaceId = false))

/-- No start is pending of what is stopped, and a check leaves nothing behind. -/
def Calm (event : WatcherStep) (s : PrWatcher) : Prop :=
  match event with
  | .stopPolling workspaceId => ¬s.Starting workspaceId
  | .stopAllPolling => ∀ call ∈ s.calls, call.starting = none
  | .proceeds (.checking workspaceId phase) answer => s.CalmCheck workspaceId phase answer
  | .polls fiber _ => ∀ poll ∈ s.polls fiber, s.CalmPoll fiber poll
  | _ => True

instance (workspaceId : String) (phase : CheckPhase) (answer : WatcherAnswer) (s : PrWatcher) :
    Decidable (s.CalmCheck workspaceId phase answer) :=
  match phase with
  | .loading => inferInstanceAs (Decidable (answer = .yes → s.Covered _ workspaceId))
  | .caching => inferInstanceAs (Decidable (s.Covered _ workspaceId))
  | .givingUp => inferInstanceAs (Decidable (¬s.Starting workspaceId))
  | .reading => isTrue trivial
  | .reporting => isTrue trivial
  | .stopping _ => isTrue trivial

instance (fiber : ℕ) (poll : Poll) (s : PrWatcher) : Decidable (s.CalmPoll fiber poll) :=
  inferInstanceAs (Decidable (poll.check = some .givingUp → ¬s.Starting poll.workspaceId ∧
    (s.pollingFibers.get? poll.workspaceId = none ∨
      (s.pollingFibers.get? poll.workspaceId = some fiber ∧
        s.previousPrState poll.workspaceId = false ∧
          s.reviewSummaryCache poll.workspaceId = false))))

instance decidableCalm (event : WatcherStep) (s : PrWatcher) : Decidable (s.Calm event) :=
  match event with
  | .stopPolling workspaceId => inferInstanceAs (Decidable (¬s.Starting workspaceId))
  | .stopAllPolling => inferInstanceAs (Decidable (∀ call ∈ s.calls, call.starting = none))
  | .proceeds call answer =>
    match call with
    | .checking workspaceId phase =>
        inferInstanceAs (Decidable (s.CalmCheck workspaceId phase answer))
    | .reserved _ _ => isTrue trivial
    | .forking _ _ => isTrue trivial
    | .recording _ _ _ => isTrue trivial
    | .releasing _ _ => isTrue trivial
    | .refreshing _ => isTrue trivial
    | .stopping _ _ => isTrue trivial
    | .interruptingAll _ => isTrue trivial
    | .clearingAllStates => isTrue trivial
    | .clearingAllReviews => isTrue trivial
  | .polls fiber _ => inferInstanceAs (Decidable (∀ poll ∈ s.polls fiber, s.CalmPoll fiber poll))
  | .startPolling _ => isTrue trivial
  | .refreshPolling _ => isTrue trivial
  | .checkPr _ => isTrue trivial

/-! ## The invariant -/

def runs (s : PrWatcher) (fiber : ℕ) : Option String := (s.polls fiber).map Poll.workspaceId

/-- The fiber is stopping its own polling. -/
def Itself (s : PrWatcher) (fiber : ℕ) : Prop :=
  ∃ poll phase, s.polls fiber = some poll ∧ poll.check = some (.stopping phase)

/-- The polls of the workspaces, and those that the caches have an entry of. -/
def polled (s : PrWatcher) : PolledKeys String WatcherCall WatcherCache where
  fibers := s.pollingFibers
  runs := s.runs
  calls := s.calls
  number := s.nextFiber
  wanted := s.wanted
  remembered
    | .states => s.previousPrState
    | .reviews => s.reviewSummaryCache

structure Inv (s : PrWatcher) : Prop where
  kept : Kept roles s.Itself s.polled
  reserved : ∀ workspaceId, s.startingWorkspaces workspaceId = true ↔ s.Starting workspaceId
  itself : ∀ fiber poll phase, s.polls fiber = some poll →
    poll.check = some (.stopping phase) → phase = .interrupting fiber

theorem inv_initial : initial.Inv where
  kept := by
    have hitself : initial.Itself = fun _ => False := by
      funext fiber
      refine eq_false ?_
      rintro ⟨poll, phase, hpoll, -⟩
      cases hpoll
    have hpolled : initial.polled =
      ⟨[], fun _ => none, [], 0, fun _ => false, fun _ _ => false⟩ := by
      unfold polled
      congr
      funext cache
      cases cache <;> rfl
    rw [hitself, hpolled]
    exact Kept.empty 0
  reserved := fun _ => ⟨nofun, fun h => absurd h Pending.not_nil⟩
  itself := nofun

/-! ## Calls that go on -/

variable {s : PrWatcher} {call : WatcherCall} {next : List WatcherCall} {wid : String}
  {fiber : ℕ} {rest : List String}

theorem Inv.begins (h : s.Inv) (hfree : roles.Free call) : Inv (s.addCalls [call]) := by
  refine ⟨h.kept.begins fun other hmem => ?_, fun other => ?_, h.itself⟩
  · rw [mem_singleton.mp hmem]
    exact hfree
  · exact (h.reserved other).trans (Pending.cons_iff_of_not (hfree.idle.starts other)).symm

theorem Inv.goes (h : s.Inv) (hcall : call ∈ s.calls) (hfree : roles.Free call)
    (hnext : ∀ call ∈ next, roles.Free call)
    {previousPrState reviewSummaryCache : String → Bool}
    (hstates : ∀ wid, previousPrState wid = true →
      s.previousPrState wid = true ∧ (call.clearsState wid = true →
        Pending next (clearsState wid)))
    (hreviews : ∀ wid, reviewSummaryCache wid = true →
      s.reviewSummaryCache wid = true ∧ (call.clearsReviews wid = true →
        Pending next (clearsReviews wid))) :
    Inv ({ s with
      calls := s.calls.erase call
      previousPrState := previousPrState
      reviewSummaryCache := reviewSummaryCache }.addCalls next) := by
  have hadvanced : Advanced s.calls call next (next ++ s.calls.erase call) := ⟨hcall, rfl⟩
  refine ⟨h.kept.goes hcall hfree hnext fun cache => ?_, fun other => ?_, h.itself⟩
  · cases cache with
    | states => exact hstates
    | reviews => exact hreviews
  · exact (h.reserved other).trans (hadvanced.pending_iff_of_not (hfree.idle.starts other)
      fun call hmem => (hnext call hmem).idle.starts other).symm

def without (call : WatcherCall) (s : PrWatcher) : PrWatcher :=
  { s with calls := s.calls.erase call }

theorem Inv.without (h : s.Inv) (hcall : call ∈ s.calls) (hfree : roles.Free call)
    (hstate : ∀ wid, call.clearsState wid = false)
    (hreview : ∀ wid, call.clearsReviews wid = false) : (s.without call).Inv := by
  refine h.goes hcall hfree (fun call hmem => absurd hmem not_mem_nil)
    (fun other hother => ⟨hother, fun hclears => ?_⟩)
    fun other hother => ⟨hother, fun hclears => ?_⟩
  · rw [hstate] at hclears
    cases hclears
  · rw [hreview] at hclears
    cases hclears

theorem free_refreshing (rest : List String) : roles.Free (.refreshing rest) :=
  ⟨⟨fun _ => rfl, fun _ _ => rfl, fun _ => rfl⟩, fun _ _ => trivial⟩

theorem Inv.refreshRest (h : s.Inv) (rest : List String) : (s.refreshRest rest).Inv := by
  unfold PrWatcher.refreshRest
  split
  · exact h
  · exact h.begins (free_refreshing rest)

/-! ## The caches -/

theorem update_true_cases {cache : String → Bool} {other : String}
    (h : Function.update cache wid true other = true) : other = wid ∨ cache other = true := by
  rw [update_apply] at h
  split at h
  · next heq => exact .inl heq
  · exact .inr h

theorem update_false_cases {cache : String → Bool} {other : String}
    (h : Function.update cache wid false other = true) : wid ≠ other ∧ cache other = true := by
  rw [update_apply] at h
  split at h
  · cases h
  · next hne => exact ⟨Ne.symm hne, h⟩

theorem Inv.cacheState (h : s.Inv)
    (hcovered : s.Covered (clearsState wid) wid) :
    Inv { s with previousPrState := Function.update s.previousPrState wid true } := by
  refine ⟨h.kept.remember fun cache other hother => ?_, h.reserved, h.itself⟩
  cases cache with
  | reviews => exact .inl hother
  | states =>
    rcases update_true_cases hother with rfl | hold
    · exact .inr hcovered
    · exact .inl hold

theorem Inv.cacheReviews (h : s.Inv)
    (hcovered : s.Covered (clearsReviews wid) wid) :
    Inv { s with reviewSummaryCache := Function.update s.reviewSummaryCache wid true } := by
  refine ⟨h.kept.remember fun cache other hother => ?_, h.reserved, h.itself⟩
  cases cache with
  | states => exact .inl hother
  | reviews =>
    rcases update_true_cases hother with rfl | hold
    · exact .inr hcovered
    · exact .inl hold

theorem clearsReviews_of_clearsState (h : call.clearsState wid = true) :
    call.clearsReviews wid = true := by
  cases call with
  | stopping other phase => exact (and_eq_true_iff.mp h).1
  | checking other phase =>
    cases phase with
    | stopping phase => exact (and_eq_true_iff.mp h).1
    | _ => cases h
  | interruptingAll fibers => rfl
  | clearingAllStates => rfl
  | _ => cases h

/-- A call that is going to interrupt a fiber clears what there is of its workspace. -/
theorem clearsState_of_ends {recorded : String → Option ℕ} (hrelies : call.Relies recorded s.runs)
    (hruns : s.runs fiber = some wid) (h : call.ends fiber = true) :
    call.clearsState wid = true := by
  have hphase : ∀ (other : String) (phase : StopPhase), phase.ends fiber = true →
      (∀ found, phase = .interrupting found → ∀ name, s.runs found = some name → name = other) →
        (other == wid && phase.clearsState) = true := by
    intro other phase hends hfound
    cases phase with
    | interrupting found =>
      have heq : found = fiber := of_decide_eq_true hends
      rw [heq] at hfound
      have hname := hfound fiber rfl wid hruns
      rw [hname, beq_self_eq_true]
      rfl
    | _ => cases hends
  cases call with
  | stopping other phase =>
    refine hphase other phase h fun found heq => ?_
    rw [heq] at hrelies
    exact hrelies
  | checking other phase =>
    cases phase with
    | stopping phase =>
      refine hphase other phase h fun found heq => ?_
      rw [heq] at hrelies
      exact hrelies
    | _ => cases h
  | interruptingAll fibers => rfl
  | _ => cases h

theorem Inv.covered (h : s.Inv) {poll : Poll} (hpoll : s.polls fiber = some poll)
    (hcheck : ∀ phase, poll.check ≠ some (.stopping phase)) :
    s.Covered (clearsState poll.workspaceId) poll.workspaceId := by
  have hruns : s.runs fiber = some poll.workspaceId := by rw [runs, hpoll, map_some]
  refine h.kept.covered_of_runs (i := WatcherCache.states) hruns ?_ fun call hrelies hends =>
    clearsState_of_ends hrelies hruns hends
  rintro ⟨poll', phase, hpoll', hphase⟩
  rw [hpoll] at hpoll'
  cases hpoll'
  exact hcheck phase hphase

theorem Covered.reviews (h : s.Covered (clearsState wid) wid) :
    s.Covered (clearsReviews wid) wid := by
  refine h.imp_right ?_
  rintro ⟨call, hmem, hclears⟩
  exact ⟨call, hmem, clearsReviews_of_clearsState hclears⟩

/-! ## Starts -/

theorem Inv.reserve (h : s.Inv) (wid : String) (rest : List String) : (s.reserve wid rest).Inv := by
  unfold PrWatcher.reserve
  dsimp only
  split
  · next hreserved =>
    have hinv : Inv { s with wanted := Function.update s.wanted wid true } :=
      ⟨h.kept.want (.inr ((h.reserved wid).mp hreserved)), h.reserved, h.itself⟩
    exact hinv.refreshRest rest
  · next hreserved =>
    have hfirst : ¬s.Starting wid := fun hstarting =>
      hreserved ((h.reserved wid).mpr hstarting)
    have hstarts := (starts_roles wid rest).1
    refine ⟨h.kept.start hstarts hfirst trivial, fun other => ?_, h.itself⟩
    refine Iff.trans ?_ (Pending.cons_iff.trans (or_congr (hstarts.starts other) Iff.rfl)).symm
    show Function.update s.startingWorkspaces wid true other = true ↔ _
    rw [update_apply]
    split
    · next heq => exact iff_of_true rfl (.inl heq)
    · next hne => exact (h.reserved other).trans (or_iff_right hne).symm

/-- A start goes on, and its workspace stays reserved. -/
theorem Inv.reserved_advance (h : s.Inv) {call' : WatcherCall} (hcall : call ∈ s.calls)
    (hstarts : ∀ other, call'.starts other = call.starts other) (other : String) :
    s.startingWorkspaces other = true ↔
      Pending (call' :: s.calls.erase call) (starts other) := by
  have hadvanced : Advanced s.calls call [call'] (call' :: s.calls.erase call) := ⟨hcall, rfl⟩
  refine (h.reserved other).trans (hadvanced.pending_iff ?_).symm
  rw [Pending.singleton_iff, hstarts]

theorem Inv.choose (h : s.Inv) {call' : WatcherCall} (hcall : call ∈ s.calls)
    (hstarts : roles.Starts wid call) (hstarts' : roles.Starts wid call')
    (hclears : ∀ cache other, roles.clears cache other call = false)
    (hrelies : call'.Relies s.pollingFibers.get? s.runs) :
    Inv ((s.without call).addCalls [call']) :=
  ⟨h.kept.advance hcall hstarts hstarts' hclears hrelies, h.reserved_advance hcall fun other =>
    Bool.eq_iff_iff.mpr ((hstarts'.starts other).trans (hstarts.starts other).symm), h.itself⟩

theorem update_eq_some_iff {other : ℕ} {poll poll' : Option Poll} {found : Poll}
    (hpoll : s.polls fiber = poll) (hcheck : poll = some found ↔ poll' = some found) :
    Function.update s.polls fiber poll' other = some found ↔ s.polls other = some found := by
  rw [update_apply]
  split
  · next heq =>
    rw [heq, hpoll]
    exact hcheck.symm
  · rfl

theorem Inv.fork (h : s.Inv) (hcall : .forking wid rest ∈ s.calls) :
    Inv (((s.without (.forking wid rest)).fork wid).addCalls
      [.recording wid s.nextFiber rest]) := by
  have hpolls : ∀ fiber poll phase, poll.check = some (.stopping phase) →
      (((s.without (.forking wid rest)).fork wid).polls fiber = some poll ↔
        s.polls fiber = some poll) := by
    intro fiber poll phase hphase
    have hnext : s.polls s.nextFiber = none := by
      cases hpoll : s.polls s.nextFiber with
      | none => rfl
      | some poll =>
        have hlt := h.kept.polling.tracked.runs_lt s.nextFiber poll.workspaceId
          (show (s.polls s.nextFiber).map Poll.workspaceId = _ by rw [hpoll, map_some])
        exact absurd hlt (Nat.lt_irrefl _)
    refine update_eq_some_iff hnext (iff_of_false nofun fun heq => ?_)
    cases heq
    cases hphase
  refine ⟨?_, h.reserved_advance hcall fun _ => rfl, fun fiber poll phase hpoll hphase =>
    h.itself fiber poll phase ((hpolls fiber poll phase hphase).mp hpoll) hphase⟩
  refine h.kept.fork hcall (starts_roles wid rest).2.1 (h.kept.relied _ hcall) ?_
    (forks_recording wid _ rest) (fun _ _ => trivial)
    (map_update s.polls Poll.workspaceId s.nextFiber _) fun fiber => ?_
  · rintro (_ | _) _ <;> rfl
  · exact exists_congr fun poll => exists_congr fun phase =>
      and_congr_left fun hphase => hpolls fiber poll phase hphase

theorem Inv.record (h : s.Inv) (hcall : .recording wid fiber rest ∈ s.calls) :
    Inv ({ s.without (.recording wid fiber rest) with
      pollingFibers := s.pollingFibers.set wid fiber }.addCalls
        [.releasing wid rest]) := by
  refine ⟨?_, h.reserved_advance hcall fun _ => rfl, h.itself⟩
  refine h.kept.record hcall (forks_recording wid fiber rest) ?_ (fun call hmem => ?_)
    countP_le_length fun call hmem => ?_
  · rintro (_ | _) _ <;> rfl
  · rw [mem_singleton.mp hmem]
    exact .inl (starts_roles wid rest).2.2
  · rw [mem_singleton.mp hmem]
    show ((s.pollingFibers.set wid fiber).get? wid).isSome = true
    rw [get?_set, if_pos rfl]
    rfl

theorem Inv.release (h : s.Inv) (hcall : .releasing wid rest ∈ s.calls) :
    Inv { s.without (.releasing wid rest) with
      startingWorkspaces := Function.update s.startingWorkspaces wid false } := by
  have hadvanced : Advanced s.calls (.releasing wid rest) []
      (s.calls.erase (.releasing wid rest)) := ⟨hcall, rfl⟩
  have hstarts := (starts_roles wid rest).2.2
  refine ⟨h.kept.of_polling (h.kept.polling.release hadvanced hstarts (h.kept.relied _ hcall))
    (fun other hother => .inl (mem_of_mem_erase hother)) fun cache other hother =>
      (h.kept.covered cache other hother).imp_right (hadvanced.pending_of fun hclears => ?_),
    fun other => ?_, h.itself⟩
  · cases cache <;> cases hclears
  · show Function.update s.startingWorkspaces wid false other = true ↔ _
    rw [update_apply]
    split
    · next heq =>
      refine iff_of_false false_ne_true ?_
      rw [heq]
      refine Pending.of_forall fun call hmem => ?_
      exact h.kept.polling.not_starts_of_mem_erase hcall ((hstarts.starts wid).mpr rfl) hmem
    · next hne =>
      refine (h.reserved other).trans (Pending.erase_iff ?_).symm
      exact eq_false_iff.mpr fun hother => hne ((hstarts.starts other).mp hother)

end PrWatcher

end Laborer.Worktrees
