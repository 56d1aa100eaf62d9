import Laborer.Library.PolledKeys
import Laborer.Worktrees.SyncPolling

/-!
# One sync poll for each workspace

While a workspace has one start at a time and no stop comes before its record, a workspace whose
last call was a start has one poll and no other has one, and the workspaces that are remembered
as fetched are polled.
-/

namespace Laborer.Worktrees

open Library List Function Option

/-! ## What a call holds -/

namespace SyncCall

/-- The workspace of a start that is going to record its poll. -/
def starting : SyncCall → Option String
  | .ensuring workspaceId _ => some workspaceId
  | .enrolling workspaceId _ => some workspaceId
  | .forking workspaceId _ => some workspaceId
  | .recording workspaceId _ _ => some workspaceId
  | _ => none

def starts (workspaceId : String) (call : SyncCall) : Bool :=
  call.starting == some workspaceId

def forks (fiber : ℕ) (workspaceId : String) : SyncCall → Bool
  | .recording other forked _ => forked == fiber && other == workspaceId
  | _ => false

def ends (fiber : ℕ) : SyncCall → Bool
  | .stopping _ (.interrupting taken) => taken == fiber
  | .interruptingAll fibers => fibers.contains fiber
  | _ => false

def forgets (workspaceId : String) : SyncCall → Bool
  | .stopping other _ => other == workspaceId
  | .interruptingAll _ => true
  | .unfetchingAll => true
  | .forgettingAll => true
  | _ => false

def Relies (recorded : String → Option ℕ) (runs : ℕ → Option String) : SyncCall → Prop
  | .ensuring workspaceId _ => recorded workspaceId = none
  | .enrolling workspaceId _ => recorded workspaceId = none
  | .forking workspaceId _ => recorded workspaceId = none
  | .stopping workspaceId (.interrupting fiber) =>
    ∀ other, runs fiber = some other → other = workspaceId
  | _ => True

theorem starts_of_forks (fiber : ℕ) (wid : String) (call : SyncCall)
    (h : call.forks fiber wid = true) : call.starts wid = true := by
  cases call with
  | recording other forked rest =>
    have hother := (Bool.and_eq_true_iff.mp h).2
    rw [beq_iff_eq] at hother
    rw [hother]
    exact beq_self_eq_true _
  | _ => cases h

theorem Relies.mono {recorded recorded' : String → Option ℕ} {runs runs' : ℕ → Option String}
    {call : SyncCall} (h : call.Relies recorded runs)
    (hrecorded : ∀ wid, call.starts wid = true → recorded' wid = recorded wid)
    (hruns : ∀ fiber name, call.ends fiber = true → runs' fiber = some name →
      runs fiber = some name) : call.Relies recorded' runs' := by
  cases call with
  | ensuring wid rest => exact (hrecorded wid (beq_self_eq_true _)).trans h
  | enrolling wid rest => exact (hrecorded wid (beq_self_eq_true _)).trans h
  | forking wid rest => exact (hrecorded wid (beq_self_eq_true _)).trans h
  | stopping wid phase =>
    cases phase with
    | interrupting fiber =>
      exact fun name hname => h name (hruns fiber name (beq_self_eq_true _) hname)
    | _ => trivial
  | _ => trivial

def roles : PollRoles String SyncCall Unit where
  starts := starts
  forks := forks
  ends := ends
  starts_of_forks := starts_of_forks
  clears := fun _ => forgets
  relies := fun recorded runs call => call.Relies recorded runs
  relies_mono := Relies.mono

theorem starts_roles (wid : String) (rest : List String) : roles.Starts wid (.ensuring wid rest) ∧
      roles.Starts wid (.enrolling wid rest) ∧ roles.Starts wid (.forking wid rest) := by
  have hstarts : ∀ other, (some wid == some other) = true ↔ other = wid := by
    intro other
    rw [beq_iff_eq, Option.some.injEq]
    exact eq_comm
  exact ⟨⟨hstarts, fun _ _ => rfl, fun _ => rfl⟩, ⟨hstarts, fun _ _ => rfl, fun _ => rfl⟩,
    ⟨hstarts, fun _ _ => rfl, fun _ => rfl⟩⟩

theorem forks_recording (wid : String) (fiber : ℕ) (rest : List String) :
    roles.Forks fiber wid (.recording wid fiber rest) where
  starts := (starts_roles wid rest).1.starts
  forks found other := by
    show (fiber == found && wid == other) = true ↔ _
    rw [Bool.and_eq_true_iff, beq_iff_eq, beq_iff_eq, eq_comm, @eq_comm _ wid]
  ends _ := rfl

theorem stops_of_starting {call : SyncCall} (h : call.starting = none) : roles.Stops call := by
  cases call <;> first | exact ⟨fun _ => rfl, fun _ _ => rfl⟩ | cases h

end SyncCall

/-! ## The condition -/

namespace WorkspaceSyncService

open SyncCall (forgets forks_recording roles starts starts_roles stops_of_starting)

def Starting (s : WorkspaceSyncService) (workspaceId : String) : Prop :=
  Pending s.calls (starts workspaceId)

instance (s : WorkspaceSyncService) (workspaceId : String) : Decidable (s.Starting workspaceId) :=
  inferInstanceAs (Decidable (Pending _ _))

/-- The last call for the workspace was a start, or some call is going to forget it. -/
def Covered (s : WorkspaceSyncService) (workspaceId : String) : Prop :=
  s.wanted workspaceId = true ∨ Pending s.calls (forgets workspaceId)

instance (s : WorkspaceSyncService) (workspaceId : String) : Decidable (s.Covered workspaceId) :=
  inferInstanceAs (Decidable (_ ∨ _))

/-- A start of a workspace without a poll is its only one. -/
def CalmStart (workspaceId : String) (s : WorkspaceSyncService) : Prop :=
  s.pollingFibers.get? workspaceId = none → ¬s.Starting workspaceId

instance (workspaceId : String) (s : WorkspaceSyncService) : Decidable (s.CalmStart workspaceId) :=
  inferInstanceAs (Decidable (_ → _))

/-- No start is pending of what is started or stopped, and a check from elsewhere remembers its
workspace only while it is covered. -/
def Calm (event : SyncStep) (s : WorkspaceSyncService) : Prop :=
  match event with
  | .startPolling workspaceId => s.CalmStart workspaceId
  | .stopPolling workspaceId => ¬s.Starting workspaceId
  | .stopAllPolling => ∀ call ∈ s.calls, call.starting = none
  | .proceeds (.bootstrapping (workspaceId :: _)) _ => s.CalmStart workspaceId
  | .proceeds (.checking workspaceId .ensuring) _ => s.Covered workspaceId
  | _ => True

instance decidableCalm (event : SyncStep) (s : WorkspaceSyncService) : Decidable (s.Calm event) :=
  match event with
  | .startPolling workspaceId => inferInstanceAs (Decidable (s.CalmStart workspaceId))
  | .stopPolling workspaceId => inferInstanceAs (Decidable (¬s.Starting workspaceId))
  | .stopAllPolling => inferInstanceAs (Decidable (∀ call ∈ s.calls, call.starting = none))
  | .proceeds (.bootstrapping (workspaceId :: _)) _ =>
    inferInstanceAs (Decidable (s.CalmStart workspaceId))
  | .proceeds (.bootstrapping []) _ => isTrue trivial
  | .proceeds (.checking workspaceId .ensuring) _ =>
    inferInstanceAs (Decidable (s.Covered workspaceId))
  | .proceeds (.checking _ .reading) _ => isTrue trivial
  | .proceeds (.checking _ .enrolling) _ => isTrue trivial
  | .proceeds (.checking _ .status) _ => isTrue trivial
  | .proceeds (.ensuring _ _) _ => isTrue trivial
  | .proceeds (.enrolling _ _) _ => isTrue trivial
  | .proceeds (.forking _ _) _ => isTrue trivial
  | .proceeds (.recording _ _ _) _ => isTrue trivial
  | .proceeds (.stopping _ _) _ => isTrue trivial
  | .proceeds (.interruptingAll _) _ => isTrue trivial
  | .proceeds .unfetchingAll _ => isTrue trivial
  | .proceeds .forgettingAll _ => isTrue trivial
  | .bootstrapPolling _ => isTrue trivial
  | .checkStatus _ => isTrue trivial
  | .polls _ _ => isTrue trivial

/-! ## The invariant -/

def runs (s : WorkspaceSyncService) (fiber : ℕ) : Option String :=
  (s.polls fiber).map SyncPoll.workspaceId

def polled (s : WorkspaceSyncService) : PolledKeys String SyncCall Unit where
  fibers := s.pollingFibers
  runs := s.runs
  calls := s.calls
  number := s.nextFiber
  wanted := s.wanted
  remembered := fun _ => s.fetchedWorkspaces

def Inv (s : WorkspaceSyncService) : Prop := Kept roles (fun _ => False) s.polled

theorem inv_initial : initial.Inv := Kept.empty 0

/-! ## Calls that go on -/

variable {s : WorkspaceSyncService} {call : SyncCall} {wid : String} {rest : List String}
  {fiber : ℕ}

def without (call : SyncCall) (s : WorkspaceSyncService) : WorkspaceSyncService :=
  { s with calls := s.calls.erase call }

theorem free_bootstrapping (rest : List String) : roles.Free (.bootstrapping rest) :=
  ⟨⟨fun _ => rfl, fun _ _ => rfl, fun _ => rfl⟩, fun _ _ => trivial⟩

theorem free_bootstrapRest (rest : List String) :
    ∀ call ∈ bootstrapRest rest, roles.Free call := by
  intro call hmem
  unfold bootstrapRest at hmem
  split at hmem
  · cases hmem
  · rw [mem_singleton.mp hmem]
    exact free_bootstrapping rest

theorem free_checking (phase : SyncCheckPhase) : roles.Free (.checking wid phase) :=
  ⟨⟨fun _ => rfl, fun _ _ => rfl, fun _ => rfl⟩, fun _ _ => trivial⟩

theorem Inv.remember (h : s.Inv) (hcovered : s.Covered wid) : (s.remember wid).Inv := by
  refine Kept.remember h fun _ other hother => ?_
  have hupdate : Function.update s.fetchedWorkspaces wid true other = true := hother
  rw [update_apply] at hupdate
  split at hupdate
  · next heq =>
    rw [heq]
    exact .inr hcovered
  · exact .inl hupdate

/-! ## Starts -/

theorem Inv.startPolling (h : s.Inv) (rest : List String) (hcalm : s.CalmStart wid) :
    (s.startPolling wid rest).Inv := by
  unfold WorkspaceSyncService.startPolling
  dsimp only
  split
  · next hsome => exact (Kept.want h (.inl hsome)).begins (free_bootstrapRest rest)
  · next hnone =>
    have hget := not_isSome_iff_eq_none.mp hnone
    exact Kept.start h (starts_roles wid rest).1 (hcalm hget) hget

theorem Inv.ensure (h : s.Inv) (hcall : .ensuring wid rest ∈ s.calls) :
    ((s.without (.ensuring wid rest)).callStep (.ensuring wid rest) true).Inv := by
  obtain ⟨hensuring, henrolling, hforking⟩ := starts_roles wid rest
  have hnone : s.pollingFibers.get? wid = none := Kept.relied h _ hcall
  have hwanted : s.wanted wid = true :=
    ((Kept.polling h).wanted_iff wid).mpr (.inr ⟨_, hcall, (hensuring.starts _).mpr rfl⟩)
  unfold WorkspaceSyncService.callStep
  dsimp only
  split
  · exact Kept.advance h hcall hensuring hforking (fun _ _ => rfl) hnone
  · have hinv : ((s.without (.ensuring wid rest)).addCalls [.enrolling wid rest]).Inv :=
      Kept.advance h hcall hensuring henrolling (fun _ _ => rfl) hnone
    exact hinv.remember (.inl hwanted)

/-! ## Stops -/

theorem Inv.stopPolling (h : s.Inv) (hfirst : ¬s.Starting wid) : (s.stopPolling wid).Inv := by
  refine Kept.takeKey h hfirst (fun call hmem => ?_) (fun fiber => or_congr ?_ Iff.rfl)
    (fun call hmem => ?_) fun _ _ _ => Pending.singleton_iff.mpr (beq_self_eq_true wid)
  · rw [mem_singleton.mp hmem]
    exact stops_of_starting rfl
  · refine Pending.singleton_iff.trans ?_
    cases hget : s.pollingFibers.get? wid with
    | none => exact iff_of_false Bool.false_ne_true fun heq => absurd (hget.symm.trans heq) nofun
    | some found => exact beq_iff_eq.trans (some_inj.symm.trans (by rw [← hget]; rfl))
  · rw [mem_singleton.mp hmem]
    cases hget : s.pollingFibers.get? wid with
    | none => trivial
    | some fiber =>
      intro other hother
      exact some.inj (hother.symm.trans ((Kept.polling h).tracked.recorded_runs wid fiber hget))

theorem Inv.stopAll (h : s.Inv) (hfirst : ∀ call ∈ s.calls, call.starting = none) :
    s.stopAllPolling.Inv := by
  refine Kept.takeAll h ?_ (stops_of_starting rfl) (fun _ => contains_iff_mem)
    (fun _ _ => trivial) fun _ _ => rfl
  rintro wid ⟨call, hmem, hcall⟩
  rw [(stops_of_starting (hfirst call hmem)).starts] at hcall
  cases hcall

theorem Inv.interrupt (h : s.Inv) {call' : SyncCall} (hcall : call ∈ s.calls)
    (hends : call.ends fiber = true) (hstops : call.starting = none)
    (hstops' : call'.starting = none)
    (hsub : ∀ found, call'.ends found = true → call.ends found = true)
    (hrest : ∀ found, found ≠ fiber → call.ends found = true → call'.ends found = true)
    (hforgets : ∀ other, call.forgets other = true → call'.forgets other = true)
    (hrelies : ∀ recorded runs, call'.Relies recorded runs) :
    Inv ({ s.without call with polls := Function.update s.polls fiber none }.addCalls [call']) :=
  Kept.interrupt h hcall hends (stops_of_starting hstops)
    (stops_of_starting hstops') hsub hrest (fun _ => hforgets) hrelies
    (map_update s.polls SyncPoll.workspaceId fiber none) (fun _ => id) fun _ _ => id

theorem free_stopping {phase : SyncStopPhase} (hphase : ∀ fiber, phase ≠ .interrupting fiber) :
    roles.Free (.stopping wid phase) := by
  cases phase with
  | interrupting fiber => exact absurd rfl (hphase fiber)
  | _ => exact ⟨⟨fun _ => rfl, fun _ _ => rfl, fun _ => rfl⟩, fun _ _ => trivial⟩

theorem Inv.stopStep (h : s.Inv) (phase : SyncStopPhase)
    (hcall : .stopping wid phase ∈ s.calls) (answer : Bool) :
    ((s.without (.stopping wid phase)).callStep (.stopping wid phase) answer).Inv := by
  cases phase with
  | interrupting fiber =>
    refine h.interrupt hcall (beq_self_eq_true _) rfl rfl (fun found hends => (by cases hends))
      (fun found hne hends => ?_) (fun _ => id) fun _ _ => trivial
    exact absurd (of_decide_eq_true hends).symm hne
  | unfetching =>
    exact Kept.goesTo h hcall (free_stopping fun _ => SyncStopPhase.noConfusion)
      (free_stopping fun _ => SyncStopPhase.noConfusion) fun _ _ hother => ⟨hother, id⟩
  | forgetting =>
    refine Kept.goes h hcall (free_stopping fun _ => SyncStopPhase.noConfusion)
      (fun call hmem => absurd hmem not_mem_nil) fun _ other hother => ?_
    have hupdate : Function.update s.fetchedWorkspaces wid false other = true := hother
    rw [update_apply] at hupdate
    split at hupdate
    · cases hupdate
    · next hne => exact ⟨hupdate, fun hforgets => absurd (beq_iff_eq.mp hforgets).symm hne⟩

theorem Inv.stopAllStep (h : s.Inv) :
    (∀ fibers, .interruptingAll fibers ∈ s.calls →
      ((s.without (.interruptingAll fibers)).callStep (.interruptingAll fibers) true).Inv) ∧
    (.unfetchingAll ∈ s.calls → ((s.without .unfetchingAll).addCalls [.forgettingAll]).Inv) ∧
    (.forgettingAll ∈ s.calls → Inv { s.without .forgettingAll with
      fetchedWorkspaces := fun _ => false }) := by
  have hunfetching : roles.Free .unfetchingAll :=
    ⟨⟨fun _ => rfl, fun _ _ => rfl, fun _ => rfl⟩, fun _ _ => trivial⟩
  have hforgetting : roles.Free .forgettingAll :=
    ⟨⟨fun _ => rfl, fun _ _ => rfl, fun _ => rfl⟩, fun _ _ => trivial⟩
  refine ⟨fun fibers hcall => ?_, fun hcall => ?_, fun hcall => ?_⟩
  · cases fibers with
    | nil =>
      have hfree : roles.Free (.interruptingAll []) :=
        ⟨⟨fun _ => rfl, fun _ _ => rfl, fun _ => rfl⟩, fun _ _ => trivial⟩
      exact Kept.goesTo h hcall hfree hunfetching fun _ _ hother => ⟨hother, fun _ => rfl⟩
    | cons fiber fibers =>
      refine h.interrupt hcall ?_ rfl rfl (fun found hends => ?_) (fun found hne hends => ?_)
        (fun _ _ => rfl) fun _ _ => trivial
      · exact contains_iff_mem.mpr mem_cons_self
      · exact contains_iff_mem.mpr (mem_cons_of_mem _ (contains_iff_mem.mp hends))
      · refine contains_iff_mem.mpr ?_
        exact (mem_cons.mp (contains_iff_mem.mp hends)).resolve_left hne
  · exact Kept.goesTo h hcall hunfetching hforgetting fun _ _ hother => ⟨hother, fun _ => rfl⟩
  · exact Kept.goes h hcall hforgetting (fun call hmem => absurd hmem not_mem_nil)
      fun _ other hother => absurd hother Bool.false_ne_true

/-! ## Checks -/

theorem Inv.checkStep (h : s.Inv) (phase : SyncCheckPhase) (answer : Bool)
    (hcovered : phase = .ensuring → s.Covered wid) : (s.checkStep wid phase answer).2.Inv := by
  cases phase with
  | ensuring => exact h.remember (hcovered rfl)
  | _ => exact h

theorem Inv.callStep (h : s.Inv) (hcall : call ∈ s.calls) (answer : Bool)
    (hcalm : s.Calm (.proceeds call answer)) : ((s.without call).callStep call answer).Inv := by
  cases call with
  | ensuring wid rest => exact h.ensure hcall
  | enrolling wid rest =>
    obtain ⟨-, henrolling, hforking⟩ := starts_roles wid rest
    have hnone : s.pollingFibers.get? wid = none := Kept.relied h _ hcall
    exact Kept.advance h hcall henrolling hforking (fun _ _ => rfl) hnone
  | forking wid rest =>
    exact Kept.fork h hcall (starts_roles wid rest).2.2 (Kept.relied h _ hcall)
      (fun _ _ => rfl) (forks_recording wid _ rest) (fun _ _ => trivial)
      (map_update s.polls SyncPoll.workspaceId s.nextFiber _) fun _ => Iff.rfl
  | recording wid fiber rest =>
    have hfree := free_bootstrapRest rest
    refine Kept.record h hcall (forks_recording wid fiber rest) (fun _ _ => rfl)
      (fun call hmem => .inr (hfree call hmem).idle) ?_
      fun call hmem => (hfree call hmem).relies _ _
    rw [Pending.countP_eq_zero fun call hmem => (hfree call hmem).idle.starts wid]
    exact Nat.zero_le _
  | bootstrapping rest =>
    have hinv : (s.without (.bootstrapping rest)).Inv :=
      Kept.without h hcall (free_bootstrapping rest) fun _ _ => rfl
    cases rest with
    | nil => exact hinv
    | cons wid rest =>
      refine hinv.startPolling rest fun hnone hstarting => hcalm hnone ?_
      exact hstarting.of_erase
  | stopping wid phase => exact h.stopStep phase hcall answer
  | interruptingAll fibers =>
    have hstep := h.stopAllStep.1 fibers hcall
    cases fibers <;> exact hstep
  | unfetchingAll => exact h.stopAllStep.2.1 hcall
  | forgettingAll => exact h.stopAllStep.2.2 hcall
  | checking wid phase =>
    have hinv : (s.without (.checking wid phase)).Inv :=
      Kept.without h hcall (free_checking phase) fun _ _ => rfl
    have hcovered : phase = .ensuring → (s.without (.checking wid phase)).Covered wid := by
      rintro rfl
      have hcovered : s.Covered wid := hcalm
      exact hcovered.imp_right (Pending.erase_iff (by rfl)).mpr
    refine Kept.begins (hinv.checkStep phase answer hcovered) fun call hmem => ?_
    obtain ⟨phase', -, rfl⟩ := mem_map.mp hmem
    exact free_checking phase'

/-! ## Polls -/

theorem Inv.setPoll (h : s.Inv) {poll : SyncPoll} (hpoll : s.polls fiber = some poll)
    (check : Option SyncCheckPhase) : (s.setPoll fiber { poll with check := check }).Inv := by
  have hruns : (s.setPoll fiber { poll with check := check }).runs = s.runs := by
    funext other
    refine (map_update s.polls SyncPoll.workspaceId fiber _ other).trans ?_
    split
    · next heq => rw [heq, runs, hpoll]; rfl
    · rfl
  unfold Inv polled
  rw [hruns]
  exact h

theorem Inv.covered (h : s.Inv) {poll : SyncPoll} (hpoll : s.polls fiber = some poll) :
    s.Covered poll.workspaceId := by
  have hruns : s.runs fiber = some poll.workspaceId := by rw [runs, hpoll, map_some]
  refine Kept.covered_of_runs (i := ()) h hruns id fun call hrelies hcall => ?_
  cases call with
  | stopping wid phase =>
    cases phase with
    | interrupting found =>
      have heq : found = fiber := of_decide_eq_true hcall
      rw [heq] at hrelies
      rw [hrelies _ hruns]
      exact beq_self_eq_true _
    | _ => cases hcall
  | interruptingAll fibers => rfl
  | _ => cases hcall

theorem Inv.pollStep (h : s.Inv) (fiber : ℕ) (answer : Bool) : (s.pollStep fiber answer).Inv := by
  unfold WorkspaceSyncService.pollStep
  cases hpoll : s.polls fiber with
  | none => exact h
  | some poll =>
    dsimp only
    cases poll.check with
    | none => exact h.setPoll hpoll _
    | some phase =>
      refine (h.checkStep phase answer fun _ => h.covered hpoll).setPoll ?_ _
      cases phase <;> exact hpoll

/-! ## Runs -/

theorem Inv.step (h : s.Inv) (event : SyncStep) (hcalm : s.Calm event) : (s.step event).Inv := by
  cases event with
  | startPolling wid => exact h.startPolling [] hcalm
  | bootstrapPolling workspaceIds => exact h.begins (free_bootstrapRest workspaceIds)
  | stopPolling wid => exact h.stopPolling hcalm
  | stopAllPolling => exact h.stopAll hcalm
  | checkStatus wid =>
    refine h.begins fun call hmem => ?_
    rw [mem_singleton.mp hmem]
    exact free_checking _
  | proceeds call answer =>
    unfold WorkspaceSyncService.step
    dsimp only
    split
    · next hcall => exact h.callStep hcall answer hcalm
    · exact h
  | polls fiber answer => exact h.pollStep fiber answer

def Quiet (s : WorkspaceSyncService) : Prop := s.calls = []

instance (s : WorkspaceSyncService) : Decidable s.Quiet := inferInstanceAs (Decidable (_ = _))

/-- Each workspace whose last call was a start has exactly one poll, no other workspace has one,
each poll is the one recorded, and the workspaces remembered are polled. -/
structure Settled (s : WorkspaceSyncService) : Prop where
  one : ∀ workspaceId, s.wanted workspaceId = true →
    ∃ fiber, ∀ other, s.runs other = some workspaceId ↔ other = fiber
  stopped : ∀ workspaceId, s.wanted workspaceId = false →
    ∀ fiber, s.runs fiber ≠ some workspaceId
  recorded : ∀ fiber workspaceId, s.runs fiber = some workspaceId →
    s.pollingFibers.get? workspaceId = some fiber
  fetched : ∀ workspaceId, s.fetchedWorkspaces workspaceId = true →
    (s.pollingFibers.get? workspaceId).isSome = true

theorem Inv.settled (h : s.Inv) (hquiet : s.Quiet) : s.Settled := by
  have hpolling := Kept.polling h
  rw [show s.polled.calls = [] from hquiet] at hpolling
  obtain ⟨hone, hstopped, hrecorded, -⟩ := hpolling.settled fun _ => id
  exact ⟨hone, hstopped, hrecorded, fun _ hmem => Kept.isSome_of_remembered (i := ()) h hquiet hmem⟩

end WorkspaceSyncService

end Laborer.Worktrees
