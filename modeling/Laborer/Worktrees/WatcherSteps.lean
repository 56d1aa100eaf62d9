import Laborer.Worktrees.WatcherStates

/-!
# What the operations of the coordinator keep

One lemma for each operation that steps are made of: the end of a watch, the start of a
program, its next wait, the answer to a subscription and the changes of timers.
-/

namespace Laborer.Worktrees

open Library Option Function

def targetsOf (program : Option WatchFiber) : List String :=
  program.elim [] (·.targets)

def carriedBy (program : Option WatchFiber) : List ℕ :=
  program.elim [] (·.carried)

/-- A program that subscribes for a watcher. -/
def WatchFiber.switches : WatchFiber → Option ℕ
  | .switchingToWorktrees watcher => some watcher
  | _ => none

theorem targetsOf_nextStart (projects : List WatchTarget) :
    targetsOf (WatchCoordinator.nextStart projects) = projects.map (·.projectId) := by
  cases projects with
  | nil => rfl
  | cons => rfl

theorem carriedBy_nextStart (projects : List WatchTarget) :
    carriedBy (WatchCoordinator.nextStart projects) = [] := by
  cases projects with
  | nil => rfl
  | cons => rfl

namespace WatchCoordinator

variable {s : WatchCoordinator} {fiber watcher : ℕ} {pid : String} {program : WatchFiber}
  {state : ProjectWatcherState} {s' : WatchCoordinator}
  {f : ProjectWatcherState → ProjectWatcherState} {other subscription : ℕ} {new : Option WatchFiber}
  {owner : SubscriptionOwner} {purpose : SubscriptionPurpose} {succeeded : Bool}

/-! ## Programs -/

theorem starts_iff : s.Starts fiber pid ↔ pid ∈ targetsOf (s.fibers fiber) := by
  unfold Starts
  cases s.fibers fiber with
  | none => simp [targetsOf]
  | some program => simp [targetsOf]

theorem concerned_of_switches (h : program.switches = none) :
    s.concerned program = program.targets := by
  cases program with
  | switchingToWorktrees watcher => cases h
  | _ => rfl

theorem switches_eq_some : program.switches = some watcher ↔
    program = .switchingToWorktrees watcher := by
  cases program with
  | switchingToWorktrees other => simp [WatchFiber.switches]
  | resolvingIdentity => simp [WatchFiber.switches]
  | resolvingConfig => simp [WatchFiber.switches]
  | subscribingGitDir => simp [WatchFiber.switches]
  | subscribingWorktrees => simp [WatchFiber.switches]
  | subscribingRepoRoot => simp [WatchFiber.switches]
  | reconcilingAll => simp [WatchFiber.switches]
  | refreshingAll => simp [WatchFiber.switches]

theorem targets_of_switches (h : program.switches = some watcher) : program.targets = [] := by
  rw [switches_eq_some.mp h]
  rfl

theorem busy_iff : s.Busy fiber pid ↔ s.Starts fiber pid ∨
    ∃ watcher state, s.fibers fiber = some (.switchingToWorktrees watcher) ∧
      s.watchers watcher = some state ∧ state.projectId = pid := by
  constructor
  · rintro ⟨program, hprogram, hmem⟩
    cases hswitches : program.switches with
    | none =>
      rw [concerned_of_switches hswitches] at hmem
      exact .inl ⟨program, hprogram, hmem⟩
    | some watcher =>
      obtain rfl := switches_eq_some.mp hswitches
      obtain ⟨state, hstate, rfl⟩ := List.mem_map.mp hmem
      exact .inr ⟨watcher, state, hprogram, mem_toList.mp hstate, rfl⟩
  · rintro (⟨program, hprogram, hmem⟩ | ⟨watcher, state, hprogram, hstate, rfl⟩)
    · refine ⟨program, hprogram, ?_⟩
      cases hswitches : program.switches with
      | none => rwa [concerned_of_switches hswitches]
      | some watcher => simp [targets_of_switches hswitches] at hmem
    · refine ⟨_, hprogram, ?_⟩
      simp [concerned, hstate]

theorem Busy.of_starts (h : s.Starts fiber pid) : s.Busy fiber pid :=
  busy_iff.mpr (.inl h)

theorem busy_of_watchers (hfibers : s'.fibers = s.fibers)
    (hwatchers : ∀ watcher, (s'.watchers watcher).map (·.projectId) =
      (s.watchers watcher).map (·.projectId)) : s'.Busy fiber pid ↔ s.Busy fiber pid := by
  unfold Busy
  rw [hfibers]
  have hconcerned : ∀ program, s'.concerned program = s.concerned program := by
    intro program
    cases hswitches : program.switches with
    | none => rw [concerned_of_switches hswitches, concerned_of_switches hswitches]
    | some watcher =>
      obtain rfl := switches_eq_some.mp hswitches
      have hmap := congrArg Option.toList (hwatchers watcher)
      rwa [toList_map, toList_map] at hmap
  simp only [hconcerned]

theorem modifyWatcher_projectIds (f : ProjectWatcherState → ProjectWatcherState)
    (hf : ∀ state, (f state).projectId = state.projectId) (other : ℕ) :
    ((s.modifyWatcher watcher f).watchers other).map (·.projectId) =
      (s.watchers other).map (·.projectId) := by
  simp only [modifyWatcher, update_apply]
  split
  case isTrue h =>
    subst h
    rw [map_map]
    apply congrFun (congrArg _ (funext hf))
  case isFalse => rfl

/-! ## Watchers -/

theorem modifyWatcher_eq_some {state' : ProjectWatcherState} :
    (s.modifyWatcher watcher f).watchers other = some state' ↔
      ∃ state, s.watchers other = some state ∧
        state' = if other = watcher then f state else state := by
  simp only [modifyWatcher, update_apply]
  split
  case isTrue h =>
    subst h
    simp only [map_eq_some_iff, @eq_comm _ _ state']
  case isFalse => simp

theorem openFor_modifyWatcher (hproject : ∀ state, (f state).projectId = state.projectId)
    (hclosed : ∀ state, (f state).closed = state.closed) :
    (s.modifyWatcher watcher f).OpenFor pid other ↔ s.OpenFor pid other := by
  unfold OpenFor
  simp only [modifyWatcher_eq_some]
  constructor
  · rintro ⟨-, ⟨state, hstate, rfl⟩, h⟩
    refine ⟨state, hstate, ?_⟩
    split at h
    · rwa [hproject, hclosed] at h
    · exact h
  · rintro ⟨state, hstate, h⟩
    refine ⟨_, ⟨state, hstate, rfl⟩, ?_⟩
    split
    · rwa [hproject, hclosed]
    · exact h

theorem Shape.statesRef_of_open (h : s.Shape) (hstate : s.watchers watcher = some state)
    (hopen : state.closed = false) : s.statesRef state.projectId = some watcher :=
  (h.opened _ _).mpr ⟨state, hstate, rfl, hopen⟩

theorem Shape.openFor (h : s.Shape) (href : s.statesRef pid = some watcher) :
    ∃ state, s.watchers watcher = some state ∧ state.projectId = pid ∧ state.closed = false :=
  (h.opened _ _).mp href

/-! ## What keeps the shape -/

theorem Shape.withLog (h : s.Shape) (log : List WatchNote) : Shape { s with log := log } :=
  { h with }

theorem Shape.modifyWatcher (h : s.Shape)
    (hproject : ∀ state, (f state).projectId = state.projectId)
    (hclosed : ∀ state, (f state).closed = state.closed)
    (hempty : ∀ state, s.watchers watcher = some state → state.closed = true →
      (f state).subscriptionIds = [])
    (hswitch : ∀ fiber state, s.fibers fiber = some (.switchingToWorktrees watcher) →
      s.watchers watcher = some state → (f state).worktreesSubscriptionId = none) :
    (s.modifyWatcher watcher f).Shape := by
  have hbusy : ∀ fiber pid, (s.modifyWatcher watcher f).Busy fiber pid ↔
      s.Busy fiber pid := fun fiber pid =>
    busy_of_watchers rfl (modifyWatcher_projectIds f hproject)
  constructor
  case maps => exact h.maps
  case watcherBound =>
    intro other state' hstate'
    obtain ⟨state, hstate, -⟩ := modifyWatcher_eq_some.mp hstate'
    exact h.watcherBound other state hstate
  case fiberBound => exact h.fiberBound
  case opened =>
    intro pid other
    rw [openFor_modifyWatcher hproject hclosed]
    exact h.opened pid other
  case closedEmpty =>
    intro other state' hstate' hclosed'
    obtain ⟨state, hstate, rfl⟩ := modifyWatcher_eq_some.mp hstate'
    split at hclosed'
    case isTrue hother =>
      subst hother
      rw [if_pos rfl]
      rw [hclosed] at hclosed'
      exact hempty state hstate hclosed'
    case isFalse hother =>
      rw [if_neg hother]
      exact h.closedEmpty other state hstate hclosed'
  case vacant => exact h.vacant
  case once =>
    intro fiber fiber' pid hfiber hfiber'
    exact h.once fiber fiber' pid ((hbusy _ _).mp hfiber) ((hbusy _ _).mp hfiber')
  case targetsNodup => exact h.targetsNodup
  case switching =>
    intro fiber other hfiber
    obtain ⟨state, hstate, hopen, hnone⟩ := h.switching fiber other hfiber
    refine ⟨_, modifyWatcher_eq_some.mpr ⟨state, hstate, rfl⟩, ?_⟩
    split
    case isTrue hother =>
      subst hother
      exact ⟨(hclosed state).trans hopen, hswitch fiber state hfiber hstate⟩
    case isFalse => exact ⟨hopen, hnone⟩

/-- A change of the timers of a watcher. -/
structure OnlyTimers (f : ProjectWatcherState → ProjectWatcherState) : Prop where
  projectId : ∀ state, (f state).projectId = state.projectId
  closed : ∀ state, (f state).closed = state.closed
  subscriptionIds : ∀ state, (f state).subscriptionIds = state.subscriptionIds
  worktrees : ∀ state, (f state).worktreesSubscriptionId = state.worktreesSubscriptionId

theorem Shape.timers (h : s.Shape)
    (hf : OnlyTimers f) (watcher : ℕ) : (s.modifyWatcher watcher f).Shape := by
  apply h.modifyWatcher hf.projectId hf.closed
  · intro state hstate hclosed
    rw [hf.subscriptionIds]
    exact h.closedEmpty watcher state hstate hclosed
  · intro fiber state hfiber hstate
    obtain ⟨state', hstate', -, hnone⟩ := h.switching fiber watcher hfiber
    rw [hstate] at hstate'
    cases hstate'
    rw [hf.worktrees]
    exact hnone

theorem Shape.unwatch (h : s.Shape) (hfree : ∀ fiber, ¬ s.Busy fiber pid) :
    (s.unwatch pid).Shape := by
  unfold WatchCoordinator.unwatch
  cases href : s.statesRef pid with
  | none => exact h
  | some watcher =>
    obtain ⟨state, hstate, hproject, hopen⟩ := h.openFor href
    have hclose : s.closeState watcher = { s.modifyWatcher watcher .close with
        unsubscribing := fun subscription =>
          decide (subscription ∈ state.subscriptionIds) || s.unsubscribing subscription } := by
      unfold closeState
      rw [hstate]
    simp only [hclose]
    have hbusy : ∀ fiber other, (s.modifyWatcher watcher .close).Busy fiber other ↔
        s.Busy fiber other := fun fiber other =>
      busy_of_watchers rfl (modifyWatcher_projectIds _ fun _ => rfl)
    constructor
    case maps => exact congrArg (Function.update · pid none) h.maps
    case watcherBound =>
      intro other state' hstate'
      obtain ⟨state₀, hstate₀, -⟩ := modifyWatcher_eq_some.mp hstate'
      exact h.watcherBound other state₀ hstate₀
    case fiberBound => exact h.fiberBound
    case opened =>
      intro other watcher'
      have hiff := h.opened other watcher'
      simp only [update_apply]
      constructor
      · intro hother
        split at hother
        · cases hother
        · rename_i hne
          obtain ⟨state', hstate', hproject', hopen'⟩ := hiff.mp hother
          refine ⟨_, modifyWatcher_eq_some.mpr ⟨state', hstate', rfl⟩, ?_⟩
          rw [if_neg]
          · exact ⟨hproject', hopen'⟩
          · rintro rfl
            rw [hstate] at hstate'
            cases hstate'
            exact hne (hproject'.symm.trans hproject)
      · rintro ⟨_, hafter, hproject', hopen'⟩
        obtain ⟨state', hstate', rfl⟩ := modifyWatcher_eq_some.mp hafter
        split at hopen'
        case isTrue => cases hopen'
        case isFalse hne =>
          rw [if_neg hne] at hproject'
          have hsome := hiff.mpr ⟨state', hstate', hproject', hopen'⟩
          rw [if_neg]
          · exact hsome
          · rintro rfl
            rw [href] at hsome
            cases hsome
            exact hne rfl
    case closedEmpty =>
      intro other state' hstate' hclosed'
      obtain ⟨state₀, hstate₀, rfl⟩ := modifyWatcher_eq_some.mp hstate'
      split at hclosed'
      case isTrue hother =>
        rw [if_pos hother]
        rfl
      case isFalse hother =>
        rw [if_neg hother]
        exact h.closedEmpty other state₀ hstate₀ hclosed'
    case vacant =>
      intro fiber other hstarts
      simp only [update_apply]
      split
      · rfl
      · exact h.vacant fiber other hstarts
    case once =>
      intro fiber fiber' other hfiber hfiber'
      exact h.once fiber fiber' other ((hbusy _ _).mp hfiber) ((hbusy _ _).mp hfiber')
    case targetsNodup => exact h.targetsNodup
    case switching =>
      intro fiber other hfiber
      obtain ⟨state', hstate', hopen', hnone⟩ := h.switching fiber other hfiber
      refine ⟨_, modifyWatcher_eq_some.mpr ⟨state', hstate', rfl⟩, ?_⟩
      rw [if_neg]
      · exact ⟨hopen', hnone⟩
      · rintro rfl
        rw [hstate] at hstate'
        cases hstate'
        exact hfree fiber (busy_iff.mpr (.inr ⟨other, state, hfiber, hstate, hproject⟩))

theorem fibers_setFiber :
    (s.setFiber fiber new).fibers other = if other = fiber then new else s.fibers other :=
  update_apply s.fibers fiber new other

theorem busy_setFiber : (s.setFiber fiber new).Busy other pid ↔ (other ≠ fiber ∧ s.Busy other pid) ∨
        (other = fiber ∧ ∃ program ∈ new, pid ∈ s.concerned program) := by
  have hconcerned : ∀ program, (s.setFiber fiber new).concerned program = s.concerned program :=
    fun program => by cases program <;> rfl
  unfold Busy
  rw [fibers_setFiber]
  simp only [hconcerned]
  by_cases hother : other = fiber
  · simp [hother]
  · simp [hother]

theorem starts_setFiber : (s.setFiber fiber new).Starts other pid ↔
      (other ≠ fiber ∧ s.Starts other pid) ∨ (other = fiber ∧ pid ∈ targetsOf new) := by
  rw [starts_iff, starts_iff, fibers_setFiber]
  by_cases hother : other = fiber
  · simp [hother]
  · simp [hother]

theorem Shape.setFiber (h : s.Shape) (new : Option WatchFiber) (hbound : fiber < s.nextFiber)
    (hvacant : ∀ pid ∈ targetsOf new, s.statesRef pid = none)
    (hfree : ∀ program ∈ new, ∀ pid ∈ s.concerned program, ∀ other ≠ fiber, ¬ s.Busy other pid)
    (hnodup : (targetsOf new).Nodup)
    (hswitch : ∀ watcher, new = some (.switchingToWorktrees watcher) →
      ∃ state, s.watchers watcher = some state ∧ state.closed = false ∧
        state.worktreesSubscriptionId = none) : (s.setFiber fiber new).Shape := by
  constructor
  case maps => exact h.maps
  case watcherBound => exact h.watcherBound
  case fiberBound =>
    intro other program hprogram
    rw [fibers_setFiber] at hprogram
    split at hprogram
    case isTrue hother => exact hother ▸ hbound
    case isFalse => exact h.fiberBound other program hprogram
  case opened => exact h.opened
  case closedEmpty => exact h.closedEmpty
  case vacant =>
    intro other pid hstarts
    rcases starts_setFiber.mp hstarts with ⟨-, hstarts⟩ | ⟨-, hmem⟩
    · exact h.vacant other pid hstarts
    · exact hvacant pid hmem
  case once =>
    intro one two pid hone htwo
    rcases busy_setFiber.mp hone with ⟨hne, hbefore⟩ | ⟨rfl, program, hprogram, hmem⟩
    · rcases busy_setFiber.mp htwo with ⟨-, hbefore'⟩ | ⟨rfl, program, hprogram, hmem⟩
      · exact h.once one two pid hbefore hbefore'
      · exact absurd hbefore (hfree program hprogram pid hmem one hne)
    · rcases busy_setFiber.mp htwo with ⟨hne, hbefore⟩ | ⟨rfl, -⟩
      · exact absurd hbefore (hfree program hprogram pid hmem two hne)
      · rfl
  case targetsNodup =>
    intro other program hprogram
    rw [fibers_setFiber] at hprogram
    split at hprogram
    case isTrue =>
      rw [hprogram] at hnodup
      exact hnodup
    case isFalse => exact h.targetsNodup other program hprogram
  case switching =>
    intro other watcher hprogram
    rw [fibers_setFiber] at hprogram
    split at hprogram
    case isTrue => exact hswitch watcher hprogram
    case isFalse => exact h.switching other watcher hprogram

theorem Shape.next (h : s.Shape) (hfiber : s.fibers fiber = some program)
    (hsublist : (targetsOf new).Sublist program.targets)
    (hswitches : ∀ program ∈ new, program.switches = none) : (s.setFiber fiber new).Shape := by
  have hstarts : ∀ pid ∈ targetsOf new, s.Starts fiber pid := fun pid hmem =>
    ⟨program, hfiber, hsublist.subset hmem⟩
  apply h.setFiber new (h.fiberBound fiber program hfiber)
  · intro pid hmem
    exact h.vacant fiber pid (hstarts pid hmem)
  · intro program' hprogram' pid hmem other hne hbusy
    rw [concerned_of_switches (hswitches program' hprogram')] at hmem
    apply hne
    apply h.once other fiber pid hbusy
    apply Busy.of_starts
    apply hstarts
    rw [hprogram']
    exact hmem
  · exact hsublist.nodup (h.targetsNodup fiber program hfiber)
  · intro watcher hwatcher
    cases hswitches _ hwatcher

theorem Shape.not_busy_nextFiber (h : s.Shape) : ¬ s.Busy s.nextFiber pid := by
  rintro ⟨program, hprogram, -⟩
  exact absurd (h.fiberBound _ program hprogram) (Nat.lt_irrefl _)

theorem Shape.spawn (h : s.Shape) (hvacant : ∀ pid ∈ program.targets, s.statesRef pid = none)
    (hfree : ∀ pid ∈ s.concerned program, ∀ other, ¬ s.Busy other pid)
    (hnodup : program.targets.Nodup) (hswitch : ∀ watcher, program = .switchingToWorktrees watcher →
      ∃ state, s.watchers watcher = some state ∧ state.closed = false ∧
        state.worktreesSubscriptionId = none) : (s.spawn program).Shape := by
  have hnext : Shape { s with nextFiber := s.nextFiber + 1 } :=
    { h with fiberBound := fun fiber program hprogram =>
        Nat.lt_succ_of_lt (h.fiberBound fiber program hprogram) }
  apply hnext.setFiber (some program) (Nat.lt_succ_self _) hvacant
  · intro program' hprogram' pid hmem other _
    cases hprogram'
    exact hfree pid (by cases program <;> exact hmem) other
  · exact hnodup
  · intro watcher hwatcher
    exact hswitch watcher (some.inj hwatcher)

theorem publish_fibers : (s.publish state).fibers = s.fibers := rfl

theorem Shape.publish (h : s.Shape) (hvacant : s.statesRef state.projectId = none)
    (hstarts : ∀ fiber, ¬ s.Starts fiber state.projectId) (hopen : state.closed = false) :
    (s.publish state).Shape := by
  have hold : ∀ watcher state', s.watchers watcher = some state' → watcher ≠ s.nextWatcher :=
    fun watcher state' hstate' => Nat.ne_of_lt (h.watcherBound watcher state' hstate')
  have hbusy : ∀ fiber pid, (s.publish state).Busy fiber pid → s.Busy fiber pid := by
    intro fiber pid hbusy
    rw [busy_iff] at hbusy ⊢
    rcases hbusy with hstarts | ⟨watcher, state', hfiber, hstate', hproject⟩
    · exact .inl hstarts
    · obtain ⟨state₀, hstate₀, -⟩ := h.switching fiber watcher hfiber
      have hne := hold watcher state₀ hstate₀
      simp only [WatchCoordinator.publish, update_apply, if_neg hne] at hstate'
      exact .inr ⟨watcher, state', hfiber, hstate', hproject⟩
  constructor
  case maps => exact congrArg (Function.update · state.projectId (some s.nextWatcher)) h.maps
  case watcherBound =>
    intro watcher state' hstate'
    simp only [WatchCoordinator.publish, update_apply] at hstate' ⊢
    split at hstate'
    case isTrue hnew => exact hnew ▸ Nat.lt_succ_self _
    case isFalse => exact Nat.lt_succ_of_lt (h.watcherBound watcher state' hstate')
  case fiberBound => exact h.fiberBound
  case opened =>
    intro pid watcher
    have hiff := h.opened pid watcher
    unfold OpenFor at hiff ⊢
    simp only [WatchCoordinator.publish, update_apply]
    by_cases hnew : watcher = s.nextWatcher
    · -- The new watcher is of its own project only.
      subst hnew
      have hnone : s.statesRef pid ≠ some s.nextWatcher := by
        intro hsome
        obtain ⟨state', hstate', -⟩ := hiff.mp hsome
        exact hold _ state' hstate' rfl
      by_cases hproject : pid = state.projectId
      · simp [hproject, hopen]
      · simp [hproject, hnone, Ne.symm hproject]
    · by_cases hproject : pid = state.projectId
      · subst hproject
        rw [hvacant] at hiff
        simp only [if_true, if_neg hnew, Option.some.injEq, Ne.symm hnew, false_iff]
        intro hopenFor
        cases hiff.mpr hopenFor
      · simpa [hproject, hnew] using hiff
  case closedEmpty =>
    intro watcher state' hstate' hclosed
    simp only [WatchCoordinator.publish, update_apply] at hstate'
    split at hstate'
    case isTrue =>
      cases hstate'
      rw [hopen] at hclosed
      cases hclosed
    case isFalse => exact h.closedEmpty watcher state' hstate' hclosed
  case vacant =>
    intro fiber pid hstarts'
    simp only [WatchCoordinator.publish, update_apply]
    rw [if_neg]
    · exact h.vacant fiber pid hstarts'
    · rintro rfl
      exact hstarts fiber hstarts'
  case once =>
    intro fiber fiber' pid hfiber hfiber'
    exact h.once fiber fiber' pid (hbusy _ _ hfiber) (hbusy _ _ hfiber')
  case targetsNodup => exact h.targetsNodup
  case switching =>
    intro fiber watcher hfiber
    obtain ⟨state', hstate', hrest⟩ := h.switching fiber watcher hfiber
    refine ⟨state', ?_, hrest⟩
    simp only [WatchCoordinator.publish, update_apply, if_neg (hold watcher state' hstate')]
    exact hstate'

theorem Shape.answerSubscription (h : s.Shape) (pid : String)
    (purpose : SubscriptionPurpose) (succeeded : Bool) :
    (s.answerSubscription pid purpose succeeded).2.Shape := by
  unfold WatchCoordinator.answerSubscription
  split
  · exact { h with }
  · exact h

/-! ## Who holds what -/

theorem owns_setFiber : (s.setFiber fiber new).Owns owner subscription ↔
      (owner ≠ .fiber fiber ∧ s.Owns owner subscription) ∨
        (owner = .fiber fiber ∧ subscription ∈ carriedBy new) := by
  cases owner with
  | watcher => simp [Owns, WatchCoordinator.setFiber]
  | ending => simp [Owns, WatchCoordinator.setFiber]
  | fiber other =>
    simp only [Owns, fibers_setFiber]
    by_cases hother : other = fiber
    · cases new <;> simp [hother, carriedBy]
    · simp [hother]

theorem owns_modifyWatcher : (s.modifyWatcher watcher f).Owns owner subscription ↔
      (owner ≠ .watcher watcher ∧ s.Owns owner subscription) ∨ (owner = .watcher watcher ∧
          ∃ state, s.watchers watcher = some state ∧ subscription ∈ (f state).subscriptionIds) := by
  cases owner with
  | fiber => simp [Owns, WatchCoordinator.modifyWatcher]
  | ending => simp [Owns, WatchCoordinator.modifyWatcher]
  | watcher other =>
    simp only [Owns, mem_def, modifyWatcher_eq_some]
    by_cases hother : other = watcher
    · simp [hother]
    · simp [hother]

theorem owns_publish : (s.publish state).Owns owner subscription ↔
      (owner ≠ .watcher s.nextWatcher ∧ s.Owns owner subscription) ∨
        (owner = .watcher s.nextWatcher ∧ subscription ∈ state.subscriptionIds) := by
  cases owner with
  | fiber => simp [Owns, WatchCoordinator.publish]
  | ending => simp [Owns, WatchCoordinator.publish]
  | watcher other =>
    simp only [Owns, WatchCoordinator.publish, update_apply]
    by_cases hother : other = s.nextWatcher
    · simp [hother]
    · simp [hother]

theorem Held.congr (h : s.Held) (hlive : s'.live = s.live)
    (hnext : s'.nextSubscription = s.nextSubscription)
    (howns : ∀ owner subscription, s'.Owns owner subscription ↔ s.Owns owner subscription) :
    s'.Held := by
  have hsame : s'.Owns = s.Owns := funext fun owner => funext fun r => propext (howns owner r)
  constructor
  · rw [hlive, hsame]
    exact h.owned
  · rw [hlive, hnext]
    exact h.fresh

theorem Held.withLog (h : s.Held) (log : List WatchNote) : Held { s with log := log } := by
  refine h.congr rfl rfl ?_
  intro owner subscription
  cases owner <;> rfl

theorem Held.timers (h : s.Held)
    (hf : OnlyTimers f) (watcher : ℕ) : (s.modifyWatcher watcher f).Held := by
  refine h.congr rfl rfl ?_
  intro owner subscription
  rw [owns_modifyWatcher]
  simp only [hf.subscriptionIds]
  by_cases howner : owner = .watcher watcher
  · subst howner
    simp [Owns]
  · simp [howner]

theorem Held.setFiber (h : s.Held)
    (hcarried : carriedBy new = carriedBy (s.fibers fiber)) : (s.setFiber fiber new).Held := by
  refine h.congr rfl rfl ?_
  intro owner subscription
  rw [owns_setFiber]
  by_cases howner : owner = .fiber fiber
  · subst howner
    rw [hcarried]
    cases hfiber : s.fibers fiber with
    | none => simp [Owns, hfiber, carriedBy]
    | some program => simp [Owns, hfiber, carriedBy]
  · simp [howner]

theorem Shape.fibers_nextFiber (h : s.Shape) : s.fibers s.nextFiber = none := by
  cases hfiber : s.fibers s.nextFiber with
  | none => rfl
  | some program => exact absurd (h.fiberBound _ program hfiber) (Nat.lt_irrefl _)

theorem Held.spawn (h : s.Held) (hshape : s.Shape) (hcarried : program.carried = []) :
    (s.spawn program).Held := by
  have hset : (s.setFiber s.nextFiber (some program)).Held := by
    apply h.setFiber
    rw [hshape.fibers_nextFiber]
    exact hcarried
  refine hset.congr rfl rfl ?_
  intro owner subscription
  cases owner <;> rfl

theorem Held.unwatch (h : s.Held) : (s.unwatch pid).Held := by
  unfold WatchCoordinator.unwatch
  cases s.statesRef pid with
  | none => exact h
  | some watcher =>
    dsimp only
    unfold closeState
    cases hstate : s.watchers watcher with
    | none =>
      refine h.congr rfl rfl ?_
      intro owner subscription
      cases owner <;> rfl
    | some state =>
      constructor
      case fresh => exact h.fresh
      case owned =>
        apply h.owned.pass (.watcher watcher) .ending none
        · simp
        · simp [WatchCoordinator.modifyWatcher]
        · intro owner subscription
          cases owner with
          | fiber => simp [Owns, WatchCoordinator.modifyWatcher]
          | ending => simp [Owns, hstate, or_comm]
          | watcher other =>
            have howns : (s.modifyWatcher watcher .close).Owns (.watcher other) subscription ↔
                SubscriptionOwner.watcher other ≠ .watcher watcher ∧
                  s.Owns (.watcher other) subscription := by
              rw [owns_modifyWatcher]
              simp [ProjectWatcherState.close, ProjectWatcherState.subscriptionIds]
            simpa [Owns] using howns

/-! ## Answers -/

theorem answerSubscription_fibers :
    (s.answerSubscription pid purpose succeeded).2.fibers = s.fibers := by
  cases succeeded <;> rfl

theorem answerSubscription_watchers :
    (s.answerSubscription pid purpose succeeded).2.watchers = s.watchers := by
  cases succeeded <;> rfl

theorem answerSubscription_nextWatcher :
    (s.answerSubscription pid purpose succeeded).2.nextWatcher = s.nextWatcher := by
  cases succeeded <;> rfl

theorem answerSubscription_statesRef :
    (s.answerSubscription pid purpose succeeded).2.statesRef = s.statesRef := by
  cases succeeded <;> rfl

theorem answerSubscription_log : (s.answerSubscription pid purpose succeeded).2.log = s.log := by
  cases succeeded <;> rfl

theorem owns_answerSubscription :
    (s.answerSubscription pid purpose succeeded).2.Owns owner subscription ↔
      s.Owns owner subscription := by
  cases succeeded <;> cases owner <;> rfl

theorem answerSubscription_live :
    (s.answerSubscription pid purpose succeeded).2.live subscription = true ↔
      s.live subscription = true ∨
        subscription ∈ (s.answerSubscription pid purpose succeeded).1 := by
  unfold answerSubscription
  cases succeeded with
  | false => simp
  | true =>
    simp only [if_true, update_apply, mem_def, Option.some.injEq]
    by_cases hnew : subscription = s.nextSubscription
    · simp [hnew]
    · simp [hnew, Ne.symm hnew]

theorem Held.answer (h : s.Held) (pid : String)
    (purpose : SubscriptionPurpose) (succeeded : Bool) (giver taker : SubscriptionOwner)
    (hlive : s'.live = (s.answerSubscription pid purpose succeeded).2.live)
    (hnext : s'.nextSubscription = (s.answerSubscription pid purpose succeeded).2.nextSubscription)
    (howns : ∀ owner subscription, s'.Owns owner subscription ↔
      (owner ≠ giver ∧ s.Owns owner subscription) ∨ (owner = taker ∧ (s.Owns giver subscription ∨
          subscription ∈ (s.answerSubscription pid purpose succeeded).1))) : s'.Held := by
  have hnew : ∀ subscription ∈ (s.answerSubscription pid purpose succeeded).1,
      subscription = s.nextSubscription ∧ succeeded = true := by
    intro subscription hmem
    cases succeeded with
    | false => cases hmem
    | true => exact ⟨(some.inj hmem).symm, rfl⟩
  constructor
  case owned =>
    apply h.owned.pass giver taker (s.answerSubscription pid purpose succeeded).1
    · intro subscription hmem hlive
      have hlt := h.fresh subscription hlive
      rw [(hnew subscription hmem).1] at hlt
      exact Nat.lt_irrefl _ hlt
    · intro subscription
      rw [hlive]
      exact answerSubscription_live
    · exact howns
  case fresh =>
    intro subscription hsub
    rw [hlive, answerSubscription_live] at hsub
    rw [hnext]
    have hle : s.nextSubscription ≤
        (s.answerSubscription pid purpose succeeded).2.nextSubscription := by
      unfold answerSubscription
      cases succeeded with
      | false => exact Nat.le_refl _
      | true => exact Nat.le_succ _
    rcases hsub with hold | hmem
    · exact Nat.lt_of_lt_of_le (h.fresh subscription hold) hle
    · obtain ⟨rfl, rfl⟩ := hnew subscription hmem
      exact Nat.lt_succ_self _

theorem Held.unsubscribed (h : s.Held) (hending : s.unsubscribing subscription = true) :
    Held { s with
      unsubscribing := Function.update s.unsubscribing subscription false
      live := Function.update s.live subscription false } := by
  constructor
  case owned =>
    apply h.owned.release subscription
    · intro other
      simp only [update_apply]
      split
      case isTrue hother => simp [hother]
      case isFalse hother => simp [hother]
    · intro owner other
      by_cases hother : other = subscription
      · subst hother
        simp only [ne_eq, not_true_eq_false, and_false, iff_false]
        intro howns
        cases owner with
        | ending => simp [Owns] at howns
        | watcher watcher => cases h.owned.unique (.watcher watcher) .ending other howns hending
        | fiber fiber => cases h.owned.unique (.fiber fiber) .ending other howns hending
      · cases owner with
        | ending => simp [Owns, hother]
        | watcher => simp [Owns, hother]
        | fiber => simp [Owns, hother]
  case fresh =>
    intro other hlive
    apply h.fresh other
    simp only [update_apply] at hlive
    split at hlive
    · cases hlive
    · exact hlive

end WatchCoordinator

end Laborer.Worktrees
