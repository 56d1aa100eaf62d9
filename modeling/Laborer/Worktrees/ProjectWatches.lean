import Laborer.Worktrees.WatcherSteps
import Mathlib.Data.List.Nodup

/-!
# One watcher for each watched project

While no call, timer or switch of a project falls into a start or a switch of the same
project, a project that was last watched has its one open watcher, the live subscriptions
are those that open watchers hold, and a worktree event is followed by a reconciliation.
-/

namespace Laborer.Worktrees

open Library List

namespace WatchCoordinator

variable {s : WatchCoordinator} {fiber watcher : ℕ} {pid : String} {program : WatchFiber}
  {state : ProjectWatcherState} {new : Option WatchFiber} {succeeded : Bool}

/-! ## The condition -/

def InFlight (s : WatchCoordinator) (projectId : String) : Prop :=
  ∃ fiber < s.nextFiber, ∃ program ∈ s.fibers fiber, projectId ∈ s.concerned program

def Starting (s : WatchCoordinator) (projectId : String) : Prop :=
  ∃ fiber < s.nextFiber, ∃ program ∈ s.fibers fiber, projectId ∈ program.targets

/-- A step that does not fall into a start or a switch of its project, does not lose an
event that waits, and gets what it asks git and the file watcher for. -/
def Calm : WatchEvent → WatchCoordinator → Prop
  | .watchProject projectId _ _ _, s => ¬ s.InFlight projectId ∧ owed projectId s.log = false
  | .unwatchProject projectId, s => ¬ s.InFlight projectId
  | .watchAll projects, s => (projects.map (·.projectId)).Nodup ∧
      ∀ project ∈ projects, ¬ s.InFlight project.projectId ∧ s.statesRef project.projectId = none
  | .identityResolved _ identity, _ => identity ≠ none
  | .unsubscribed _ succeeded, _ => succeeded = true
  | .recoveryTimer watcher, s => ∀ state ∈ s.watchers watcher, state.recoveryTimer = true →
      ¬ s.InFlight state.projectId ∧ owed state.projectId s.log = false
  | .fileEvent subscription fileName worktreesDirExists, s =>
    ∀ entry ∈ s.subscriptions subscription,
      (isWorktreeEvent entry.2 fileName = true → ¬ s.Starting entry.1) ∧
      (entry.2 = .gitDir → fileName = some "worktrees" → worktreesDirExists = true →
        ¬ s.InFlight entry.1)
  | .configResolved _ _, _ => True
  | .subscribed _ _, _ => True
  | .advanced _, _ => True
  | .worktreeTimer _, _ => True
  | .branchTimer _, _ => True

instance decidableInFlight (s : WatchCoordinator) (projectId : String) :
    Decidable (s.InFlight projectId) :=
  inferInstanceAs (Decidable (∃ fiber < s.nextFiber, ∃ program ∈ s.fibers fiber,
    projectId ∈ s.concerned program))

instance decidableStarting (s : WatchCoordinator) (projectId : String) :
    Decidable (s.Starting projectId) :=
  inferInstanceAs (Decidable (∃ fiber < s.nextFiber, ∃ program ∈ s.fibers fiber,
    projectId ∈ program.targets))

instance decidableCalm : (event : WatchEvent) → (s : WatchCoordinator) → Decidable (Calm event s)
  | .watchProject projectId _ _ _, s =>
    inferInstanceAs (Decidable (¬ s.InFlight projectId ∧ owed projectId s.log = false))
  | .unwatchProject projectId, s => inferInstanceAs (Decidable (¬ s.InFlight projectId))
  | .watchAll projects, s => inferInstanceAs (Decidable ((projects.map (·.projectId)).Nodup ∧
      ∀ project ∈ projects, ¬ s.InFlight project.projectId ∧ s.statesRef project.projectId = none))
  | .identityResolved _ identity, _ => inferInstanceAs (Decidable (identity ≠ none))
  | .unsubscribed _ succeeded, _ => inferInstanceAs (Decidable (succeeded = true))
  | .recoveryTimer watcher, s =>
    inferInstanceAs (Decidable (∀ state ∈ s.watchers watcher, state.recoveryTimer = true →
      ¬ s.InFlight state.projectId ∧ owed state.projectId s.log = false))
  | .fileEvent subscription fileName worktreesDirExists, s =>
    inferInstanceAs (Decidable (∀ entry ∈ s.subscriptions subscription,
      (isWorktreeEvent entry.2 fileName = true → ¬ s.Starting entry.1) ∧
      (entry.2 = .gitDir → fileName = some "worktrees" → worktreesDirExists = true →
        ¬ s.InFlight entry.1)))
  | .configResolved _ _, _ => isTrue trivial
  | .subscribed _ _, _ => isTrue trivial
  | .advanced _, _ => isTrue trivial
  | .worktreeTimer _, _ => isTrue trivial
  | .branchTimer _, _ => isTrue trivial

theorem Shape.not_busy (h : s.Shape) (hfree : ¬ s.InFlight pid) (fiber : ℕ) :
    ¬ s.Busy fiber pid := by
  rintro ⟨program, hprogram, hmem⟩
  exact hfree ⟨fiber, h.fiberBound fiber program hprogram, program, hprogram, hmem⟩

theorem Shape.not_starts (h : s.Shape) (hfree : ¬ s.Starting pid) (fiber : ℕ) :
    ¬ s.Starts fiber pid := by
  rintro ⟨program, hprogram, hmem⟩
  exact hfree ⟨fiber, h.fiberBound fiber program hprogram, program, hprogram, hmem⟩

theorem inFlight_modifyWatcher {f : ProjectWatcherState → ProjectWatcherState}
    (hf : ∀ state, (f state).projectId = state.projectId) :
    (s.modifyWatcher watcher f).InFlight pid ↔ s.InFlight pid := by
  have hbusy : ∀ fiber, (s.modifyWatcher watcher f).Busy fiber pid ↔
      s.Busy fiber pid := fun fiber =>
    busy_of_watchers rfl (modifyWatcher_projectIds f hf)
  exact exists_congr fun fiber => and_congr Iff.rfl (hbusy fiber)

/-! ## Who is attended -/

theorem unwatch_statesRef (s : WatchCoordinator) (pid other : String) :
    (s.unwatch pid).statesRef other = if other = pid then none else s.statesRef other := by
  unfold unwatch
  cases href : s.statesRef pid with
  | none =>
    by_cases hother : other = pid
    · rw [if_pos hother, hother, href]
    · rw [if_neg hother]
  | some watcher => exact Function.update_apply _ _ _ _

theorem closeState_fibers : (s.closeState watcher).fibers = s.fibers := by
  unfold closeState
  cases s.watchers watcher <;> rfl

theorem closeState_log : (s.closeState watcher).log = s.log := by
  unfold closeState
  cases s.watchers watcher <;> rfl

theorem unwatch_fibers : (s.unwatch pid).fibers = s.fibers := by
  unfold unwatch
  cases s.statesRef pid with
  | none => rfl
  | some watcher => exact closeState_fibers

theorem unwatch_log : (s.unwatch pid).log = s.log := by
  unfold unwatch
  cases s.statesRef pid with
  | none => rfl
  | some watcher => exact closeState_log

theorem busy_unwatch (s : WatchCoordinator) (pid other : String) (fiber : ℕ) :
    (s.unwatch pid).Busy fiber other ↔ s.Busy fiber other := by
  apply busy_of_watchers unwatch_fibers
  intro watcher
  unfold unwatch
  cases s.statesRef pid with
  | none => rfl
  | some closing =>
    dsimp only
    unfold closeState
    cases s.watchers closing with
    | none => rfl
    | some state => exact modifyWatcher_projectIds .close (fun _ => rfl) watcher

theorem Shape.unwatch_watchers (h : s.Shape) {other : String} (hother : other ≠ pid)
    (href : s.statesRef other = some watcher) :
    (s.unwatch pid).watchers watcher = s.watchers watcher := by
  unfold WatchCoordinator.unwatch
  cases hprojectRef : s.statesRef pid with
  | none => rfl
  | some closing =>
    have hne : watcher ≠ closing := by
      rintro rfl
      obtain ⟨state, hstate, rfl, -⟩ := h.openFor href
      obtain ⟨state', hstate', rfl, -⟩ := h.openFor hprojectRef
      rw [hstate] at hstate'
      cases hstate'
      exact hother rfl
    dsimp only
    unfold closeState
    cases s.watchers closing with
    | none => rfl
    | some state => simp [WatchCoordinator.modifyWatcher, hne]

theorem attended_unwatch (hfree : ∀ fiber, ¬ s.Starts fiber pid) (other : String) :
    (s.unwatch pid).Attended other ↔ other ≠ pid ∧ s.Attended other := by
  unfold Attended
  rw [unwatch_statesRef]
  simp only [starts_iff, unwatch_fibers]
  by_cases hother : other = pid
  · subst hother
    simp only [← starts_iff, if_true, ne_eq, not_true_eq_false, false_or, false_and, iff_false]
    rintro ⟨fiber, hstarts⟩
    exact hfree fiber hstarts
  · simp [hother]

theorem attended_spawn (h : s.Shape) (other : String) :
    (s.spawn program).Attended other ↔ s.Attended other ∨ other ∈ program.targets := by
  have hstarts : ∀ fiber, (s.spawn program).Starts fiber other ↔
      (fiber ≠ s.nextFiber ∧ s.Starts fiber other) ∨
        (fiber = s.nextFiber ∧ other ∈ program.targets) := fun fiber => starts_setFiber
  have hnext : ¬ s.Starts s.nextFiber other := fun hstarts =>
    h.not_busy_nextFiber (Busy.of_starts hstarts)
  unfold Attended
  simp only [hstarts]
  constructor
  · rintro (href | ⟨fiber, ⟨-, hold⟩ | ⟨-, hmem⟩⟩)
    · exact .inl (.inl href)
    · exact .inl (.inr ⟨fiber, hold⟩)
    · exact .inr hmem
  · rintro ((href | ⟨fiber, hold⟩) | hmem)
    · exact .inl href
    · refine .inr ⟨fiber, .inl ⟨?_, hold⟩⟩
      rintro rfl
      exact hnext hold
    · exact .inr ⟨s.nextFiber, .inr ⟨rfl, hmem⟩⟩

theorem attended_setFiber (htargets : targetsOf new = targetsOf (s.fibers fiber)) (other : String) :
    (s.setFiber fiber new).Attended other ↔ s.Attended other := by
  have hstarts : ∀ fiber', (s.setFiber fiber new).Starts fiber' other ↔ s.Starts fiber' other := by
    intro fiber'
    rw [starts_setFiber, htargets, ← starts_iff]
    by_cases hfiber : fiber' = fiber
    · simp [hfiber]
    · simp [hfiber]
  unfold Attended
  simp only [hstarts]
  exact Iff.rfl

/-! ## One step -/

structure Orderly (s : WatchCoordinator) : Prop where
  shape : s.Shape
  held : s.Held
  told : s.Told

/-- What a step leaves of the calls and of the timers that it has nothing to do with. -/
theorem Told.keep {s' : WatchCoordinator} (h : s.Told)
    (hlast : ∀ other, lastCall other s'.log = lastCall other s.log)
    (howed : ∀ other, owed other s'.log = true → owed other s.log = true)
    (hattended : ∀ other, s'.Attended other ↔ s.Attended other)
    (htimers : ∀ other watcher state, owed other s'.log = true →
      s.statesRef other = some watcher → s.watchers watcher = some state →
      state.worktreeTimer = true → ∃ state', s'.statesRef other = some watcher ∧
        s'.watchers watcher = some state' ∧ state'.worktreeTimer = true) : s'.Told := by
  constructor
  case watched =>
    intro other
    rw [hlast, hattended]
    exact h.watched other
  case owes =>
    intro other hother
    obtain ⟨watcher, state, href, hstate, htimer⟩ := h.owes other (howed other hother)
    obtain ⟨state', href', hstate', htimer'⟩ :=
      htimers other watcher state hother href hstate htimer
    exact ⟨watcher, state', href', hstate', htimer'⟩

theorem Orderly.next (h : s.Orderly)
    (hfiber : s.fibers fiber = some program) (htargets : targetsOf new = program.targets)
    (hcarried : carriedBy new = program.carried)
    (hswitches : ∀ program ∈ new, program.switches = none) : (s.setFiber fiber new).Orderly := by
  have hold : targetsOf (s.fibers fiber) = program.targets := by rw [hfiber]; rfl
  constructor
  case shape => exact h.shape.next hfiber (htargets ▸ List.Sublist.refl _) hswitches
  case held =>
    apply h.held.setFiber
    rw [hcarried, hfiber]
    rfl
  case told =>
    refine h.told.keep (fun _ => rfl) (fun _ => id)
      (attended_setFiber (htargets.trans hold.symm)) ?_
    intro other watcher state _ href hstate htimer
    exact ⟨state, href, hstate, htimer⟩

theorem Orderly.reconciling (h : s.Orderly) (pid : String) :
    (s.note (.reconciling pid)).Orderly := by
  have howed : ∀ other, owed other (s.note (.reconciling pid)).log = true →
      owed other s.log = true := by
    intro other hother
    exact (Bool.and_eq_true_iff.mp hother).2
  refine ⟨h.shape.withLog _, h.held.withLog _, ?_⟩
  refine h.told.keep (fun _ => rfl) howed (fun _ => Iff.rfl) ?_
  intro other watcher state _ href hstate htimer
  exact ⟨state, href, hstate, htimer⟩

theorem Orderly.refreshing (h : s.Orderly) (pid : String) : (s.note (.refreshing pid)).Orderly := by
  refine ⟨h.shape.withLog _, h.held.withLog _, ?_⟩
  refine h.told.keep (fun _ => rfl) (fun _ => id) (fun _ => Iff.rfl) ?_
  intro other watcher state _ href hstate htimer
  exact ⟨state, href, hstate, htimer⟩

theorem Orderly.timers (h : s.Orderly) {f : ProjectWatcherState → ProjectWatcherState}
    (hf : OnlyTimers f)
    (hkeeps : ∀ state, state.worktreeTimer = true → (f state).worktreeTimer = true)
    (watcher : ℕ) : (s.modifyWatcher watcher f).Orderly := by
  refine ⟨h.shape.timers hf watcher, h.held.timers hf watcher, ?_⟩
  refine h.told.keep (fun _ => rfl) (fun _ => id) (fun _ => Iff.rfl) ?_
  intro other watcher' state _ href hstate htimer
  refine ⟨_, href, modifyWatcher_eq_some.mpr ⟨state, hstate, rfl⟩, ?_⟩
  split
  · exact hkeeps state htimer
  · exact htimer

/-! ## Calls -/

theorem lastCall_called (pid other : String) (call : WatchCall) (log : List WatchNote) :
    lastCall other (.called pid call :: log) =
      if other = pid then some call else lastCall other log := by
  by_cases hother : other = pid
  · rw [if_pos hother]
    exact if_pos hother.symm
  · rw [if_neg hother]
    exact if_neg (Ne.symm hother)

theorem Orderly.unwatchProject (h : s.Orderly) (hfree : ¬ s.InFlight pid) :
    (step (.unwatchProject pid) s).Orderly := by
  have hshape : (s.note (.called pid .unwatch)).Shape := h.shape.withLog _
  have hheld : (s.note (.called pid .unwatch)).Held := h.held.withLog _
  have hbusy : ∀ fiber, ¬ (s.note (.called pid .unwatch)).Busy fiber pid := by
    intro fiber hfiber
    exact h.shape.not_busy hfree fiber ((busy_of_watchers rfl fun _ => rfl).mp hfiber)
  constructor
  case shape => exact hshape.unwatch hbusy
  case held => exact hheld.unwatch
  case told =>
    constructor
    case watched =>
      intro other
      unfold step
      rw [attended_unwatch fun fiber hstarts => hbusy fiber (.of_starts hstarts), unwatch_log]
      rw [note, lastCall_called]
      by_cases hother : other = pid
      · simp [hother]
      · simp only [ne_eq, hother, not_false_eq_true, true_and]
        exact h.told.watched other
    case owes =>
      intro other howed
      unfold step at howed ⊢
      rw [unwatch_log] at howed
      simp only [note, owed, Bool.and_eq_true, decide_eq_true_eq] at howed
      obtain ⟨watcher, state, href, hstate, htimer⟩ := h.told.owes other howed.2
      have hother : other ≠ pid := Ne.symm howed.1
      refine ⟨watcher, state, ?_, ?_, htimer⟩
      · rw [unwatch_statesRef, if_neg hother]
        exact href
      · rw [hshape.unwatch_watchers hother href]
        exact hstate

theorem watch_eq (s : WatchCoordinator) (pid repoPath : String)
    (projectName preResolvedGitCommonDir : Option String) :
    ∃ program : WatchFiber, program.targets = [pid] ∧ program.carried = [] ∧
      program.switches = none ∧ s.watch pid repoPath projectName preResolvedGitCommonDir =
        (s.unwatch pid).spawn program := by
  cases preResolvedGitCommonDir with
  | none => exact ⟨_, rfl, rfl, rfl, rfl⟩
  | some canonicalGitCommonDir => exact ⟨_, rfl, rfl, rfl, rfl⟩

/-- The same for a recovery and for a call, whose project is watched last in the log. -/
theorem Shape.watch (hshape : s.Shape) (hheld : s.Held) (hfree : ¬ s.InFlight pid)
    (hlast : ∀ other, lastCall other s.log = some .watch ↔ s.Attended other ∨ other = pid)
    (howes : ∀ other, owed other s.log = true → other ≠ pid ∧
      ∃ watcher state, s.statesRef other = some watcher ∧ s.watchers watcher = some state ∧
        state.worktreeTimer = true)
    (repoPath : String) (projectName preResolvedGitCommonDir : Option String) :
    (s.watch pid repoPath projectName preResolvedGitCommonDir).Orderly := by
  have hbusy := hshape.not_busy hfree
  have hstarts : ∀ fiber, ¬ s.Starts fiber pid := fun fiber hstarts =>
    hbusy fiber (.of_starts hstarts)
  have hshape' : (s.unwatch pid).Shape := hshape.unwatch hbusy
  obtain ⟨program, htargets, hcarried, hswitches, heq⟩ :=
    watch_eq s pid repoPath projectName preResolvedGitCommonDir
  rw [heq]
  constructor
  case shape =>
    apply hshape'.spawn
    · intro other hother
      rw [htargets, mem_singleton] at hother
      rw [unwatch_statesRef, if_pos hother]
    · intro other hother fiber hfiber
      rw [concerned_of_switches hswitches, htargets, mem_singleton] at hother
      subst hother
      exact hbusy fiber ((busy_unwatch s other other fiber).mp hfiber)
    · rw [htargets]
      exact nodup_singleton pid
    · rintro watcher rfl
      cases hswitches
  case held => exact hheld.unwatch.spawn hshape' hcarried
  case told =>
    constructor
    case watched =>
      intro other
      rw [attended_spawn hshape', attended_unwatch hstarts, htargets, mem_singleton]
      have hlog : ((s.unwatch pid).spawn program).log = s.log := unwatch_log
      rw [hlog, hlast]
      by_cases hother : other = pid
      · simp [hother]
      · simp [hother]
    case owes =>
      intro other howed
      have hlog : ((s.unwatch pid).spawn program).log = s.log := unwatch_log
      rw [hlog] at howed
      obtain ⟨hother, watcher, state, href, hstate, htimer⟩ := howes other howed
      refine ⟨watcher, state, ?_, ?_, htimer⟩
      · refine (unwatch_statesRef s pid other).trans ?_
        rw [if_neg hother]
        exact href
      · exact (hshape.unwatch_watchers hother href).trans hstate

theorem Orderly.watchProject (h : s.Orderly) (hfree : ¬ s.InFlight pid)
    (howed : owed pid s.log = false) (repoPath : String)
    (projectName preResolvedGitCommonDir : Option String) :
    (step (.watchProject pid repoPath projectName preResolvedGitCommonDir) s).Orderly := by
  have hfree' : ¬ (s.note (.called pid .watch)).InFlight pid := by
    rintro ⟨fiber, hfiber, hbusy⟩
    exact hfree ⟨fiber, hfiber, (busy_of_watchers rfl fun _ => rfl).mp hbusy⟩
  have hshape : (s.note (.called pid .watch)).Shape := h.shape.withLog _
  apply hshape.watch (h.held.withLog _) hfree'
  · intro other
    rw [note, lastCall_called]
    by_cases hother : other = pid
    · simp [hother]
    · simp only [hother, if_false, or_false]
      exact h.told.watched other
  · intro other hother
    refine ⟨?_, h.told.owes other hother⟩
    rintro rfl
    have hnot : owed other (s.note (.called other .watch)).log = false := howed
    exact absurd hother (Bool.eq_false_iff.mp hnot)

theorem lastCall_called_all (projects : List WatchTarget) (other : String) (log : List WatchNote) :
    lastCall other ((projects.map fun project : WatchTarget =>
      WatchNote.called project.projectId .watch) ++ log) =
      if other ∈ projects.map (·.projectId) then some .watch else lastCall other log := by
  induction projects with
  | nil => rfl
  | cons project projects ih =>
    rw [map_cons, cons_append, lastCall_called, ih, map_cons]
    simp only [mem_cons]
    by_cases hother : other = project.projectId
    · simp [hother]
    · simp [hother]

theorem owed_called_all (projects : List WatchTarget) (other : String) (log : List WatchNote) :
    owed other ((projects.map fun project : WatchTarget =>
      WatchNote.called project.projectId .watch) ++ log) = owed other log := by
  induction projects with
  | nil => rfl
  | cons project projects ih => exact ih

section

variable (h : s.Orderly)
include h

theorem Orderly.watchAll {projects : List WatchTarget} (hnodup : (projects.map (·.projectId)).Nodup)
    (hfree : ∀ project ∈ projects,
      ¬ s.InFlight project.projectId ∧ s.statesRef project.projectId = none) :
    (step (.watchAll projects) s).Orderly := by
  have hshape := h.shape.withLog ((projects.map fun project : WatchTarget =>
    WatchNote.called project.projectId .watch) ++ s.log)
  constructor
  case shape =>
    apply hshape.spawn
    · intro other hother
      obtain ⟨project, hproject, rfl⟩ := mem_map.mp hother
      exact (hfree project hproject).2
    · intro other hother fiber hfiber
      obtain ⟨project, hproject, rfl⟩ := mem_map.mp hother
      exact h.shape.not_busy (hfree project hproject).1 fiber
        ((busy_of_watchers rfl fun _ => rfl).mp hfiber)
    · exact hnodup
    · rintro watcher hwatcher
      cases hwatcher
  case held => exact (h.held.withLog _).spawn hshape rfl
  case told =>
    constructor
    case watched =>
      intro other
      unfold step
      rw [attended_spawn hshape]
      refine Iff.trans (iff_of_eq (congrArg (· = _) (lastCall_called_all projects other s.log))) ?_
      by_cases hother : other ∈ projects.map (·.projectId)
      · rw [if_pos hother]
        exact ⟨fun _ => .inr hother, fun _ => rfl⟩
      · rw [if_neg hother, h.told.watched other]
        exact ⟨.inl, fun hor => hor.resolve_right hother⟩
    case owes =>
      intro other howed
      exact h.told.owes other ((owed_called_all projects other s.log).symm.trans howed)

/-! ## Answers -/

theorem Orderly.answerNext {purpose : SubscriptionPurpose} (hfiber : s.fibers fiber = some program)
    (htargets : targetsOf new = program.targets)
    (hcarried : ∀ subscription, subscription ∈ carriedBy new ↔ subscription ∈ program.carried ∨
      subscription ∈ (s.answerSubscription pid purpose succeeded).1)
    (hswitches : ∀ program ∈ new, program.switches = none) :
    ((s.answerSubscription pid purpose succeeded).2.setFiber fiber new).Orderly := by
  have hfiber' : (s.answerSubscription pid purpose succeeded).2.fibers fiber = some program := by
    rw [answerSubscription_fibers]
    exact hfiber
  constructor
  case shape =>
    exact (h.shape.answerSubscription pid purpose succeeded).next hfiber'
      (htargets ▸ List.Sublist.refl _) hswitches
  case held =>
    refine h.held.answer pid purpose succeeded (.fiber fiber) (.fiber fiber) rfl rfl ?_
    intro owner subscription
    rw [owns_setFiber, owns_answerSubscription, hcarried]
    simp [Owns, hfiber]
  case told =>
    have hattended : ∀ other, ((s.answerSubscription pid purpose succeeded).2.setFiber fiber
        new).Attended other ↔ s.Attended other := by
      intro other
      rw [attended_setFiber (by rw [htargets, hfiber']; rfl)]
      unfold Attended Starts
      rw [answerSubscription_statesRef, answerSubscription_fibers]
    have hlog : ((s.answerSubscription pid purpose succeeded).2.setFiber fiber new).log =
        s.log := answerSubscription_log
    refine h.told.keep (fun other => by rw [hlog]) (fun other => by rw [hlog]; exact id)
      hattended ?_
    intro other watcher state _ href hstate htimer
    refine ⟨state, ?_, ?_, htimer⟩
    · exact (congrFun answerSubscription_statesRef other).trans href
    · exact (congrFun answerSubscription_watchers watcher).trans hstate

theorem Orderly.answerPublish
    {purpose : SubscriptionPurpose} (hfiber : s.fibers fiber = some program)
    (htargets : program.targets = state.projectId :: targetsOf new) (hcarried : carriedBy new = [])
    (hsubscriptions : ∀ subscription, subscription ∈ state.subscriptionIds ↔
      subscription ∈ program.carried ∨
        subscription ∈ (s.answerSubscription pid purpose succeeded).1)
    (hswitches : ∀ program ∈ new, program.switches = none) (hopen : state.closed = false) :
    (((s.answerSubscription pid purpose succeeded).2.publish state).setFiber fiber
      new).Orderly := by
  have hfiber' : (s.answerSubscription pid purpose succeeded).2.fibers fiber = some program := by
    rw [answerSubscription_fibers]
    exact hfiber
  have hstarts : s.Starts fiber state.projectId := by
    refine ⟨program, hfiber, ?_⟩
    rw [htargets]
    exact mem_cons_self
  -- The start of the project is over before its watcher is there.
  have hnext : ((s.answerSubscription pid purpose succeeded).2.setFiber fiber new).Shape := by
    apply (h.shape.answerSubscription pid purpose succeeded).next hfiber' _ hswitches
    rw [htargets]
    exact sublist_cons_self _ _
  have hvacant : s.statesRef state.projectId = none := h.shape.vacant fiber _ hstarts
  have hlast : ∀ other, ¬ ((s.answerSubscription pid purpose succeeded).2.setFiber fiber
      new).Starts other state.projectId := by
    intro other hother
    rcases starts_setFiber.mp hother with ⟨hne, program', hprogram', hmem⟩ | ⟨-, hmem⟩
    · rw [answerSubscription_fibers] at hprogram'
      exact hne (h.shape.once other fiber state.projectId (.of_starts ⟨program', hprogram', hmem⟩)
        (.of_starts hstarts))
    · have hnodup := h.shape.targetsNodup fiber program hfiber
      rw [htargets] at hnodup
      exact (nodup_cons.mp hnodup).1 hmem
  constructor
  case shape =>
    apply hnext.publish _ hlast hopen
    exact (congrFun answerSubscription_statesRef _).trans hvacant
  case held =>
    refine h.held.answer pid purpose succeeded (.fiber fiber) (.watcher s.nextWatcher) rfl rfl ?_
    intro owner subscription
    have hfresh : ∀ state', s.watchers s.nextWatcher ≠ some state' := fun state' hstate' =>
      Nat.lt_irrefl _ (h.shape.watcherBound _ state' hstate')
    rw [owns_setFiber, owns_publish, owns_answerSubscription, answerSubscription_nextWatcher,
      hcarried, hsubscriptions]
    cases owner with
    | fiber => simp
    | ending => simp
    | watcher watcher =>
      by_cases hwatcher : watcher = s.nextWatcher
      · subst hwatcher
        simp [Owns, hfiber, hfresh]
      · simp [hwatcher]
  case told =>
    have hstartsIff : ∀ other, s.Starts fiber other ↔
        other = state.projectId ∨ other ∈ targetsOf new := by
      intro other
      rw [starts_iff, hfiber]
      exact (iff_of_eq (congrArg (other ∈ ·) htargets)).trans mem_cons
    have hrest : ∀ other, other ≠ state.projectId →
        (((s.answerSubscription pid purpose succeeded).2.publish state).setFiber fiber
          new).statesRef other = s.statesRef other := by
      intro other hother
      refine (Function.update_of_ne hother _ _).trans ?_
      exact congrFun answerSubscription_statesRef other
    have hattended : ∀ other, (((s.answerSubscription pid purpose succeeded).2.publish
        state).setFiber fiber new).Attended other ↔ s.Attended other := by
      intro other
      by_cases hother : other = state.projectId
      · subst hother
        refine iff_of_true (.inl ?_) (.inr ⟨fiber, hstarts⟩)
        have hself : (((s.answerSubscription pid purpose succeeded).2.publish
            state).setFiber fiber new).statesRef state.projectId =
              some (s.answerSubscription pid purpose succeeded).2.nextWatcher :=
          Function.update_self _ _ _
        rw [hself]
        exact Option.some_ne_none _
      · unfold Attended
        rw [hrest other hother]
        apply or_congr Iff.rfl
        apply exists_congr
        intro fiber'
        rw [starts_setFiber]
        by_cases hfiber' : fiber' = fiber
        · subst hfiber'
          simp [hstartsIff, hother]
        · simp only [ne_eq, hfiber', not_false_eq_true, true_and, false_and, or_false]
          unfold Starts
          rw [publish_fibers, answerSubscription_fibers]
    have hlog : (((s.answerSubscription pid purpose succeeded).2.publish state).setFiber
        fiber new).log = s.log := answerSubscription_log
    refine h.told.keep (fun other => by rw [hlog]) (fun other => by rw [hlog]; exact id)
      hattended ?_
    intro other watcher state' _ href hstate' htimer
    refine ⟨state', ?_, ?_, htimer⟩
    · rw [hrest other]
      · exact href
      · rintro rfl
        rw [hvacant] at href
        cases href
    · have hne : watcher ≠ (s.answerSubscription pid purpose succeeded).2.nextWatcher := by
        rw [answerSubscription_nextWatcher]
        exact Nat.ne_of_lt (h.shape.watcherBound watcher state' hstate')
      refine (Function.update_of_ne hne _ _).trans ?_
      exact (congrFun answerSubscription_watchers watcher).trans hstate'

theorem Orderly.answerSwitch (hfiber : s.fibers fiber = some (.switchingToWorktrees watcher)) :
    (s.subscribed fiber succeeded).Orderly := by
  obtain ⟨state, hstate, hopen, hnone⟩ := h.shape.switching fiber watcher hfiber
  have href := h.shape.statesRef_of_open hstate hopen
  have heq : s.subscribed fiber succeeded =
      (((s.answerSubscription state.projectId .worktrees succeeded).2.setFiber fiber
        none).modifyWatcher watcher fun state' => { state' with worktreesSubscriptionId :=
          (s.answerSubscription state.projectId .worktrees succeeded).1 }).note
            (.reconciling state.projectId) := by
    unfold subscribed
    rw [hfiber]
    dsimp only
    rw [hstate]
    cases succeeded <;>
      simp [answerSubscription, modifyWatcher, WatchCoordinator.setFiber, note, href, hstate]
  rw [heq]
  apply Orderly.reconciling
  have hfiber' : (s.answerSubscription state.projectId .worktrees succeeded).2.fibers fiber =
      some (.switchingToWorktrees watcher) := by
    rw [answerSubscription_fibers]
    exact hfiber
  have hbusy : s.Busy fiber state.projectId :=
    busy_iff.mpr (.inr ⟨watcher, state, hfiber, hstate, rfl⟩)
  constructor
  case shape =>
    have hnext : ((s.answerSubscription state.projectId .worktrees succeeded).2.setFiber fiber
        none).Shape := by
      apply (h.shape.answerSubscription state.projectId .worktrees succeeded).next hfiber'
      · exact nil_sublist _
      · intro program hprogram
        cases hprogram
    have hwatchers : ∀ state', ((s.answerSubscription state.projectId .worktrees
        succeeded).2.setFiber fiber none).watchers watcher = some state' → state' = state := by
      intro state' hstate'
      have hbefore := (congrFun answerSubscription_watchers watcher).symm.trans hstate'
      rw [hstate] at hbefore
      exact (Option.some.inj hbefore).symm
    refine hnext.modifyWatcher (fun _ => rfl) (fun _ => rfl) ?_ ?_
    · intro state' hstate' hclosed
      rw [hwatchers state' hstate', hopen] at hclosed
      cases hclosed
    · -- No other program subscribes for this watcher.
      intro other state' hother _
      rw [fibers_setFiber] at hother
      split at hother
      case isTrue => cases hother
      case isFalse hne =>
        rw [answerSubscription_fibers] at hother
        exact absurd (h.shape.once other fiber state.projectId
          (busy_iff.mpr (.inr ⟨watcher, state, hother, hstate, rfl⟩)) hbusy) hne
  case held =>
    refine h.held.answer state.projectId .worktrees succeeded (.watcher watcher)
      (.watcher watcher) rfl rfl ?_
    intro owner subscription
    rw [owns_modifyWatcher, owns_setFiber, owns_answerSubscription]
    cases owner with
    | ending => simp
    | fiber other =>
      by_cases hother : other = fiber
      · subst hother
        simp [Owns, hfiber, carriedBy, WatchFiber.carried]
      · simp [hother]
    | watcher other =>
      by_cases hother : other = watcher
      · subst hother
        have hafter : ((s.answerSubscription state.projectId .worktrees succeeded).2.setFiber fiber
            none).watchers other = some state :=
          (congrFun answerSubscription_watchers other).trans hstate
        simp [Owns, hstate, hafter, ProjectWatcherState.subscriptionIds, hnone]
        grind
      · simp [hother]
  case told =>
    have hlog : (((s.answerSubscription state.projectId .worktrees succeeded).2.setFiber fiber
        none).modifyWatcher watcher fun state' => { state' with worktreesSubscriptionId :=
          (s.answerSubscription state.projectId .worktrees succeeded).1 }).log = s.log :=
      answerSubscription_log
    refine h.told.keep (fun other => by rw [hlog]) (fun other => by rw [hlog]; exact id) ?_ ?_
    · intro other
      have hset : ((s.answerSubscription state.projectId .worktrees succeeded).2.setFiber fiber
          none).Attended other ↔ s.Attended other := by
        rw [attended_setFiber (by rw [hfiber']; rfl)]
        unfold Attended Starts
        rw [answerSubscription_statesRef, answerSubscription_fibers]
      exact hset
    · intro other watcher' state' _ href' hstate' htimer
      refine ⟨_, (congrFun answerSubscription_statesRef other).trans href',
        modifyWatcher_eq_some.mpr ⟨state', ?_, rfl⟩, ?_⟩
      · exact (congrFun answerSubscription_watchers watcher').trans hstate'
      · split
        · exact htimer
        · exact htimer

theorem Orderly.subscribed (fiber : ℕ) (succeeded : Bool) :
    (s.subscribed fiber succeeded).Orderly := by
  cases hfiber : s.fibers fiber with
  | none =>
    unfold WatchCoordinator.subscribed
    rw [hfiber]
    exact h
  | some program =>
    cases program with (try unfold WatchCoordinator.subscribed)
    | switchingToWorktrees watcher => exact h.answerSwitch hfiber
    | subscribingGitDir target hasWorktreesDir rest =>
      rw [hfiber]
      show ((s.answerSubscription target.projectId .gitDir succeeded).2.setFiber fiber
        (some (if hasWorktreesDir then
            .subscribingWorktrees target (s.answerSubscription target.projectId .gitDir succeeded).1
              rest
          else .subscribingRepoRoot target false
              (s.answerSubscription target.projectId .gitDir succeeded).1 none rest))).Orderly
      apply h.answerNext hfiber
      · cases hasWorktreesDir <;> rfl
      · intro subscription
        cases hasWorktreesDir <;> simp [carriedBy, WatchFiber.carried]
      · intro program hprogram
        cases hprogram
        cases hasWorktreesDir <;> rfl
    | subscribingWorktrees target gitDir rest =>
      rw [hfiber]
      show ((s.answerSubscription target.projectId .worktrees succeeded).2.setFiber fiber
        (some (.subscribingRepoRoot target true gitDir
          (s.answerSubscription target.projectId .worktrees succeeded).1 rest))).Orderly
      apply h.answerNext hfiber
      · rfl
      · intro subscription
        simp [carriedBy, WatchFiber.carried]
      · intro program hprogram
        cases hprogram
        rfl
    | subscribingRepoRoot target hasWorktreesDir gitDir worktrees rest =>
      rw [hfiber]
      show (((s.answerSubscription target.projectId .repoRoot succeeded).2.publish
        (startedState target hasWorktreesDir gitDir worktrees
          (s.answerSubscription target.projectId .repoRoot succeeded).1)).setFiber fiber
        (nextStart rest)).Orderly
      apply h.answerPublish hfiber
      · rw [targetsOf_nextStart]
        rfl
      · exact carriedBy_nextStart rest
      · intro subscription
        simp [startedState, ProjectWatcherState.subscriptionIds, WatchFiber.carried, or_assoc]
      · intro program hprogram
        cases rest with
        | nil => cases hprogram
        | cons =>
          cases hprogram
          rfl
      · rfl
    | _ =>
      rw [hfiber]
      exact h

theorem Orderly.identityResolved (fiber : ℕ) (identity : String × String) :
    (step (.identityResolved fiber (some identity)) s).Orderly := by
  unfold step
  dsimp only
  cases hfiber : s.fibers fiber with
  | none => exact h
  | some program =>
    cases program with
    | resolvingIdentity =>
      apply h.next hfiber rfl rfl
      intro program hprogram
      cases hprogram
      rfl
    | _ => exact h

theorem Orderly.configResolved (fiber : ℕ) (hasWorktreesDir : Bool) :
    (step (.configResolved fiber hasWorktreesDir) s).Orderly := by
  unfold step
  dsimp only
  cases hfiber : s.fibers fiber with
  | none => exact h
  | some program =>
    cases program with
    | resolvingConfig =>
      apply h.next hfiber rfl rfl
      intro program hprogram
      cases hprogram
      rfl
    | _ => exact h

theorem Orderly.advanced (fiber : ℕ) : (step (.advanced fiber) s).Orderly := by
  unfold step
  dsimp only
  cases hfiber : s.fibers fiber with
  | none => exact h
  | some program =>
    cases program with
    | reconcilingAll rest projects =>
      cases rest with
      | nil =>
        apply h.next hfiber rfl rfl
        intro program hprogram
        cases hprogram
        rfl
      | cons target rest =>
        apply (h.reconciling target.projectId).next hfiber rfl rfl
        intro program hprogram
        cases hprogram
        rfl
    | refreshingAll rest projects =>
      cases rest with
      | nil =>
        apply h.next hfiber (targetsOf_nextStart projects) (carriedBy_nextStart projects)
        intro program hprogram
        cases projects with
        | nil => cases hprogram
        | cons =>
          cases hprogram
          rfl
      | cons target rest =>
        apply (h.refreshing target.projectId).next hfiber rfl rfl
        intro program hprogram
        cases hprogram
        rfl
    | _ => exact h

theorem Orderly.unsubscribed (subscription : ℕ) :
    (step (.unsubscribed subscription true) s).Orderly := by
  unfold step
  dsimp only
  split
  case isFalse => exact h
  case isTrue hending =>
    constructor
    · exact { h.shape with }
    · exact h.held.unsubscribed hending
    · exact { h.told with }

/-! ## Timers and file events -/

theorem Orderly.worktreeTimer (watcher : ℕ) : (step (.worktreeTimer watcher) s).Orderly := by
  have hclear : OnlyTimers fun state => { state with worktreeTimer := false } :=
    ⟨fun _ => rfl, fun _ => rfl, fun _ => rfl, fun _ => rfl⟩
  unfold step fire
  dsimp only
  cases hstate : s.watchers watcher with
  | none => exact h
  | some state =>
    dsimp only
    split
    case isFalse => exact h
    case isTrue =>
      have hshape := h.shape.timers hclear watcher
      have hheld := h.held.timers hclear watcher
      -- The timers of the other projects are those of other watchers.
      have hkeeps : ∀ other watcher' state', other ≠ state.projectId ∨ state.closed = true →
          s.statesRef other = some watcher' → s.watchers watcher' = some state' →
          state'.worktreeTimer = true → ∃ after, s.statesRef other = some watcher' ∧
            (s.modifyWatcher watcher fun state => { state with worktreeTimer := false }).watchers
              watcher' = some after ∧ after.worktreeTimer = true := by
        intro other watcher' state' hother href' hstate' htimer
        refine ⟨_, href', modifyWatcher_eq_some.mpr ⟨state', hstate', rfl⟩, ?_⟩
        rw [if_neg]
        · exact htimer
        · rintro rfl
          obtain ⟨state₀, hstate₀, rfl, hopen⟩ := h.shape.openFor href'
          rw [hstate] at hstate₀
          cases hstate₀
          rcases hother with hother | hclosed
          · exact hother rfl
          · rw [hopen] at hclosed
            cases hclosed
      cases hclosed : state.closed with
      | true =>
        refine ⟨hshape, hheld, ?_⟩
        refine h.told.keep (fun _ => rfl) (fun _ => id) (fun _ => Iff.rfl) ?_
        intro other watcher' state' _ href' hstate' htimer
        exact hkeeps other watcher' state' (.inr hclosed) href' hstate' htimer
      | false =>
        refine ⟨hshape.withLog _, hheld.withLog _, ?_⟩
        have howed : ∀ other, owed other (.reconciling state.projectId :: s.log) = true →
            state.projectId ≠ other ∧ owed other s.log = true := by
          intro other hother
          rw [owed, Bool.and_eq_true] at hother
          exact ⟨of_decide_eq_true hother.1, hother.2⟩
        refine h.told.keep (fun _ => rfl) (fun other hother => (howed other hother).2)
          (fun _ => Iff.rfl) ?_
        intro other watcher' state' hother href' hstate' htimer
        exact hkeeps other watcher' state' (.inl (howed other hother).1.symm) href' hstate' htimer

theorem Orderly.branchTimer (watcher : ℕ) : (step (.branchTimer watcher) s).Orderly := by
  unfold step fire
  dsimp only
  cases s.watchers watcher with
  | none => exact h
  | some state =>
    dsimp only
    split
    case isFalse => exact h
    case isTrue =>
      have hclear := h.timers (f := fun state => { state with branchTimer := false })
        ⟨fun _ => rfl, fun _ => rfl, fun _ => rfl, fun _ => rfl⟩ (fun _ => id) watcher
      split
      · exact hclear
      · exact hclear.refreshing state.projectId

theorem Orderly.recoveryTimer (watcher : ℕ)
    (hcalm : ∀ state ∈ s.watchers watcher, state.recoveryTimer = true →
      ¬ s.InFlight state.projectId ∧ owed state.projectId s.log = false) :
    (step (.recoveryTimer watcher) s).Orderly := by
  unfold step fire
  dsimp only
  cases hstate : s.watchers watcher with
  | none => exact h
  | some state =>
    dsimp only
    split
    case isFalse => exact h
    case isTrue hpending =>
      have htimers : OnlyTimers fun state => { state with recoveryTimer := false } :=
        ⟨fun _ => rfl, fun _ => rfl, fun _ => rfl, fun _ => rfl⟩
      have hclear := h.timers htimers (fun _ => id) watcher
      cases hclosed : state.closed with
      | true => exact hclear
      | false =>
        have href : s.statesRef state.projectId = some watcher :=
          h.shape.statesRef_of_open hstate hclosed
        have hlatest : (s.modifyWatcher watcher fun state => { state with recoveryTimer := false
            }).watchers watcher = some { state with recoveryTimer := false } :=
          modifyWatcher_eq_some.mpr ⟨state, hstate, (if_pos rfl).symm⟩
        obtain ⟨hfree, howed⟩ := hcalm state hstate hpending
        have hrecover : recover state
            (s.modifyWatcher watcher fun state => { state with recoveryTimer := false }) =
              (s.modifyWatcher watcher fun state => { state with recoveryTimer := false }).watch
                state.projectId state.repoPath none none := by
          unfold recover
          rw [show (s.modifyWatcher watcher _).statesRef state.projectId = some watcher from href]
          rw [Option.bind_some, hlatest]
        rw [if_neg Bool.false_ne_true, hrecover]
        apply hclear.shape.watch hclear.held
        · rw [inFlight_modifyWatcher htimers.projectId]
          exact hfree
        · intro other
          refine (h.told.watched other).trans ⟨.inl, ?_⟩
          rintro (hattended | rfl)
          · exact hattended
          · exact .inl (by rw [href]; exact Option.some_ne_none _)
        · intro other hother
          refine ⟨?_, hclear.told.owes other hother⟩
          rintro rfl
          exact absurd hother (Bool.eq_false_iff.mp howed)

theorem Orderly.delivered (hdue : lastCall pid s.log = some .watch →
      ∃ watcher state, s.statesRef pid = some watcher ∧ s.watchers watcher = some state ∧
        state.worktreeTimer = true) : (s.note (.delivered pid)).Orderly := by
  refine ⟨h.shape.withLog _, h.held.withLog _, ?_⟩
  constructor
  case watched => exact h.told.watched
  case owes =>
    intro other howed
    simp only [note, owed, Bool.or_eq_true, Bool.and_eq_true, decide_eq_true_eq] at howed
    rcases howed with ⟨rfl, hwatched⟩ | howed
    · exact hdue hwatched
    · exact h.told.owes other howed

end

theorem onlyTimers_scheduleReconcile : OnlyTimers .scheduleReconcile := by
  constructor <;>
    · intro state
      unfold ProjectWatcherState.scheduleReconcile
      split <;> rfl

theorem onlyTimers_scheduleBranchRefresh : OnlyTimers .scheduleBranchRefresh := by
  constructor <;>
    · intro state
      unfold ProjectWatcherState.scheduleBranchRefresh
      split <;> rfl

theorem Orderly.scheduleReconcile (h : s.Orderly) (watcher : ℕ) :
    (s.modifyWatcher watcher .scheduleReconcile).Orderly := by
  apply h.timers onlyTimers_scheduleReconcile
  intro state htimer
  unfold ProjectWatcherState.scheduleReconcile
  split
  · exact htimer
  · rfl

theorem Orderly.scheduleBranchRefresh (h : s.Orderly) (watcher : ℕ) :
    (s.modifyWatcher watcher .scheduleBranchRefresh).Orderly := by
  apply h.timers onlyTimers_scheduleBranchRefresh
  intro state htimer
  unfold ProjectWatcherState.scheduleBranchRefresh
  split
  · exact htimer
  · exact htimer

theorem OpenFor.scheduled (h : s.OpenFor pid watcher) :
    ∃ state, (s.modifyWatcher watcher .scheduleReconcile).watchers watcher = some state ∧
      state.worktreeTimer = true := by
  obtain ⟨state, hstate, -, hopen⟩ := h
  refine ⟨_, modifyWatcher_eq_some.mpr ⟨state, hstate, rfl⟩, ?_⟩
  rw [if_pos rfl]
  unfold ProjectWatcherState.scheduleReconcile
  rw [hopen]
  rfl

theorem Orderly.spawnSwitch (h : s.Orderly) (hstate : s.watchers watcher = some state)
    (hopen : state.closed = false) (hnone : state.worktreesSubscriptionId = none)
    (hfree : ¬ s.InFlight state.projectId) : (s.spawn (.switchingToWorktrees watcher)).Orderly := by
  constructor
  case shape =>
    apply h.shape.spawn
    · intro other hother
      cases hother
    · intro other hother
      simp only [concerned, hstate, Option.toList_some, map_cons, map_nil, mem_singleton] at hother
      subst hother
      exact h.shape.not_busy hfree
    · exact nodup_nil
    · intro watcher' hwatcher'
      cases hwatcher'
      exact ⟨state, hstate, hopen, hnone⟩
  case held => exact h.held.spawn h.shape rfl
  case told =>
    refine h.told.keep (fun _ => rfl) (fun _ => id) ?_ ?_
    · intro other
      rw [attended_spawn h.shape]
      exact or_iff_left not_mem_nil
    · intro other watcher' state' _ href' hstate' htimer
      exact ⟨state', href', hstate', htimer⟩

/-- What the handlers leave of a watcher that is open. -/
structure Handled (s s' : WatchCoordinator) (projectId : String) (watcher : ℕ) : Prop where
  orderly : s'.Orderly
  log : s'.log = s.log
  openFor : s'.OpenFor projectId watcher

theorem Handled.timer {s' : WatchCoordinator} (h : Handled s s' pid watcher)
    (htimer : ∃ state, s'.watchers watcher = some state ∧ state.worktreeTimer = true) :
    (s'.note (.delivered pid)).Orderly := by
  apply h.orderly.delivered
  obtain ⟨state, hstate, htimer⟩ := htimer
  exact fun _ => ⟨watcher, state, (h.orderly.shape.opened _ _).mpr h.openFor, hstate, htimer⟩

section Handlers

variable {s' : WatchCoordinator} {fileName : Option String} {worktreesDirExists : Bool}

theorem Handled.branchRefresh (h : Handled s s' pid watcher) (related : Bool) :
    Handled s (if related then s'.modifyWatcher watcher .scheduleBranchRefresh else s') pid
      watcher := by
  cases related with
  | false => exact h
  | true =>
    exact ⟨h.orderly.scheduleBranchRefresh watcher, h.log,
      (openFor_modifyWatcher onlyTimers_scheduleBranchRefresh.projectId
        onlyTimers_scheduleBranchRefresh.closed).mpr h.openFor⟩

theorem Handled.reconcile (h : Handled s s' pid watcher) (related : Bool) :
    Handled s (if related then s'.modifyWatcher watcher .scheduleReconcile else s') pid
      watcher := by
  cases related with
  | false => exact h
  | true =>
    exact ⟨h.orderly.scheduleReconcile watcher, h.log,
      (openFor_modifyWatcher onlyTimers_scheduleReconcile.projectId
        onlyTimers_scheduleReconcile.closed).mpr h.openFor⟩

theorem Orderly.switch (h : s.Orderly) (hstate : s.watchers watcher = some state)
    (hopen : state.closed = false)
    (hfree : worktreesDirExists = true → ¬ s.InFlight state.projectId) :
    Handled s (s.switchToWorktreesWatcher watcher state worktreesDirExists).2 state.projectId
      watcher := by
  have hself : Handled s s state.projectId watcher := ⟨h, rfl, state, hstate, rfl, hopen⟩
  unfold switchToWorktreesWatcher
  split
  case isTrue => exact hself
  case isFalse hswitch =>
    rw [not_or, not_not, not_not] at hswitch
    exact ⟨h.spawnSwitch hstate hopen hswitch.1 (hfree hswitch.2), rfl, hself.openFor⟩

theorem Orderly.gitDirEvent (h : s.Orderly) (hstate : s.watchers watcher = some state)
    (hopen : state.closed = false)
    (hfree : fileName = some "worktrees" → worktreesDirExists = true →
      ¬ s.InFlight state.projectId) :
    Handled s (s.handleGitDirEvent watcher state fileName worktreesDirExists) state.projectId
        watcher ∧ (isWorktreeRelatedEvent fileName = true →
        ∃ state', (s.handleGitDirEvent watcher state fileName worktreesDirExists).watchers watcher =
          some state' ∧ state'.worktreeTimer = true) := by
  have hself : Handled s s state.projectId watcher := ⟨h, rfl, state, hstate, rfl, hopen⟩
  have hfirst : Handled s (if fileName = some "worktrees" then
      if (s.switchToWorktreesWatcher watcher state worktreesDirExists).1 then
        (s.switchToWorktreesWatcher watcher state worktreesDirExists).2
      else (s.switchToWorktreesWatcher watcher state worktreesDirExists).2.modifyWatcher watcher
        .scheduleReconcile
      else s) state.projectId watcher := by
    split
    case isFalse => exact hself
    case isTrue hname =>
      have hswitch := h.switch hstate hopen (hfree hname)
      split
      · exact hswitch
      · exact hswitch.reconcile true
  have hsecond := hfirst.branchRefresh (isBranchRelatedEvent fileName)
  refine ⟨hsecond.reconcile (isWorktreeRelatedEvent fileName), ?_⟩
  intro hrelated
  unfold handleGitDirEvent
  rw [if_pos hrelated]
  exact hsecond.openFor.scheduled

theorem Orderly.worktreesEvent (h : s.Orderly) (fileName : Option String)
    (hstate : s.watchers watcher = some state) (hopen : state.closed = false) :
    Handled s (s.handleWorktreesEvent watcher fileName) state.projectId watcher ∧
      (isWorktreesDirMetadataEvent fileName = true →
        ∃ state', (s.handleWorktreesEvent watcher fileName).watchers watcher =
          some state' ∧ state'.worktreeTimer = true) := by
  have hself : Handled s s state.projectId watcher := ⟨h, rfl, state, hstate, rfl, hopen⟩
  unfold handleWorktreesEvent
  split
  case isFalse hrelated => exact ⟨hself, fun hmetadata => absurd hmetadata hrelated⟩
  case isTrue =>
    have hscheduled := hself.reconcile true
    refine ⟨hscheduled.branchRefresh true, fun _ => ?_⟩
    obtain ⟨state', hstate', htimer⟩ := hself.openFor.scheduled
    refine ⟨_, modifyWatcher_eq_some.mpr ⟨state', hstate', rfl⟩, ?_⟩
    rw [if_pos rfl]
    unfold ProjectWatcherState.scheduleBranchRefresh
    split
    · exact htimer
    · exact htimer

theorem handleGitDirEvent_note (entry : WatchNote) :
    (s.note entry).handleGitDirEvent watcher state fileName worktreesDirExists =
      (s.handleGitDirEvent watcher state fileName worktreesDirExists).note entry := by
  unfold handleGitDirEvent switchToWorktreesWatcher
  split_ifs <;> rfl

theorem handleWorktreesEvent_note (entry : WatchNote) :
    (s.note entry).handleWorktreesEvent watcher fileName =
      (s.handleWorktreesEvent watcher fileName).note entry := by
  unfold handleWorktreesEvent
  split_ifs <;> rfl

end Handlers

theorem Orderly.unhandled (h : s.Orderly) (href : s.statesRef pid = none)
    (hstarting : ¬ s.Starting pid) : (s.note (.delivered pid)).Orderly := by
  apply h.delivered
  intro hwatched
  rcases (h.told.watched pid).mp hwatched with hsome | ⟨fiber, hstarts⟩
  · exact absurd href hsome
  · exact absurd hstarts (h.shape.not_starts hstarting fiber)

theorem Orderly.fileEvent (h : s.Orderly) (subscription : ℕ) (fileName : Option String)
    (worktreesDirExists : Bool) (hcalm : ∀ entry ∈ s.subscriptions subscription,
      (isWorktreeEvent entry.2 fileName = true → ¬ s.Starting entry.1) ∧
      (entry.2 = .gitDir → fileName = some "worktrees" → worktreesDirExists = true →
        ¬ s.InFlight entry.1)) :
    (s.handleFileEvent subscription fileName worktreesDirExists).Orderly := by
  unfold handleFileEvent
  cases hentry : s.subscriptions subscription with
  | none => exact h
  | some entry =>
    obtain ⟨pid, purpose⟩ := entry
    obtain ⟨hstarting, hswitch⟩ := hcalm _ hentry
    cases href : s.statesRef pid with
    | none =>
      -- The event goes to no watcher.
      have hmap : s.projectWatcherStatesMap pid = none := by rw [h.shape.maps, href]
      cases hrelated : isWorktreeEvent purpose fileName with
      | false => simpa [hrelated, hmap] using h
      | true => simpa [hrelated, note, hmap] using h.unhandled href (hstarting hrelated)
    | some watcher =>
      obtain ⟨state, hstate, rfl, hopen⟩ := h.shape.openFor href
      have hmap : s.projectWatcherStatesMap state.projectId = some watcher := by
        rw [h.shape.maps, href]
      cases purpose with
      | repoRoot => simpa [isWorktreeEvent, hmap, hstate, hopen] using h
      | gitDir =>
        have hhandled := h.gitDirEvent hstate hopen (hswitch rfl)
        cases hrelated : isWorktreeRelatedEvent fileName with
        | false => simpa [isWorktreeEvent, hrelated, hmap, hstate, hopen] using hhandled.1.orderly
        | true =>
          have hnote := hhandled.1.timer (hhandled.2 hrelated)
          rw [← handleGitDirEvent_note] at hnote
          simpa [isWorktreeEvent, hrelated, note, hmap, hstate, hopen] using hnote
      | worktrees =>
        have hhandled := h.worktreesEvent fileName hstate hopen
        cases hrelated : isWorktreesDirMetadataEvent fileName with
        | false => simpa [isWorktreeEvent, hrelated, hmap, hstate, hopen] using hhandled.1.orderly
        | true =>
          have hnote := hhandled.1.timer (hhandled.2 hrelated)
          rw [← handleWorktreesEvent_note] at hnote
          simpa [isWorktreeEvent, hrelated, note, hmap, hstate, hopen] using hnote

/-- **One step** that meets the condition keeps the invariant. -/
theorem Orderly.step (event : WatchEvent) (s : WatchCoordinator) (h : s.Orderly)
    (hcalm : Calm event s) : (step event s).Orderly := by
  cases event with
  | watchProject pid repoPath projectName canonicalGitCommonDir =>
    exact h.watchProject hcalm.1 hcalm.2 repoPath projectName canonicalGitCommonDir
  | unwatchProject pid => exact h.unwatchProject hcalm
  | watchAll projects => exact h.watchAll hcalm.1 hcalm.2
  | identityResolved fiber identity =>
    cases identity with
    | none => exact absurd rfl hcalm
    | some identity => exact h.identityResolved fiber identity
  | configResolved fiber hasWorktreesDir => exact h.configResolved fiber hasWorktreesDir
  | subscribed fiber succeeded => exact h.subscribed fiber succeeded
  | unsubscribed subscription succeeded =>
    cases succeeded with
    | false => cases hcalm
    | true => exact h.unsubscribed subscription
  | advanced fiber => exact h.advanced fiber
  | worktreeTimer watcher => exact h.worktreeTimer watcher
  | branchTimer watcher => exact h.branchTimer watcher
  | recoveryTimer watcher => exact h.recoveryTimer watcher hcalm
  | fileEvent subscription fileName worktreesDirExists =>
    exact h.fileEvent subscription fileName worktreesDirExists hcalm

theorem orderly_init : init.Orderly := by
  have hbusy : ∀ fiber pid, ¬ init.Busy fiber pid := by
    rintro fiber pid ⟨program, hprogram, -⟩
    cases hprogram
  have howns : ∀ owner subscription, ¬ init.Owns owner subscription := by
    intro owner subscription hown
    cases owner with
    | watcher =>
      obtain ⟨state, hstate, -⟩ := hown
      cases hstate
    | fiber =>
      obtain ⟨program, hprogram, -⟩ := hown
      cases hprogram
    | ending => cases hown
  refine ⟨⟨rfl, ?_, ?_, ?_, ?_, ?_, ?_, ?_, ?_⟩, ⟨⟨?_, ?_⟩, ?_⟩, ⟨?_, ?_⟩⟩
  · intro watcher state hstate
    cases hstate
  · intro fiber program hprogram
    cases hprogram
  · intro pid watcher
    refine ⟨fun href => (by cases href), ?_⟩
    rintro ⟨state, hstate, -⟩
    cases hstate
  · intro watcher state hstate
    cases hstate
  · intro fiber pid hstarts
    rfl
  · intro fiber fiber' pid hfiber
    exact absurd hfiber (hbusy fiber pid)
  · intro fiber program hprogram
    cases hprogram
  · intro fiber watcher hfiber
    cases hfiber
  · intro subscription
    refine ⟨fun hlive => (by cases hlive), ?_⟩
    rintro ⟨owner, hown⟩
    exact absurd hown (howns owner subscription)
  · intro owner owner' subscription hown
    exact absurd hown (howns owner subscription)
  · intro subscription hlive
    cases hlive
  · intro pid
    refine ⟨fun hlast => (by cases hlast), ?_⟩
    rintro (href | ⟨fiber, hstarts⟩)
    · exact absurd rfl href
    · exact absurd (Busy.of_starts hstarts) (hbusy fiber pid)
  · intro pid howed
    cases howed

/-! ## Every run -/

structure Settled (s : WatchCoordinator) : Prop where
  fibers : ∀ fiber, s.fibers fiber = none
  unsubscribing : ∀ subscription, s.unsubscribing subscription = false
  timers : ∀ watcher state, s.watchers watcher = some state → state.worktreeTimer = false

/-- What the calls and the events so far ask for. -/
structure Followed (s : WatchCoordinator) : Prop where
  watched : ∀ projectId, lastCall projectId s.log = some .watch →
    ∃! watcher, s.OpenFor projectId watcher
  unwatched : ∀ projectId, lastCall projectId s.log ≠ some .watch →
    ∀ watcher, ¬ s.OpenFor projectId watcher
  live : ∀ subscription, s.live subscription = true ↔
    ∃ watcher state, s.watchers watcher = some state ∧ state.closed = false ∧
      subscription ∈ state.subscriptionIds
  reconciled : ∀ projectId newer older, s.log = newer ++ .delivered projectId :: older →
    lastCall projectId older = some .watch → .called projectId .unwatch ∉ newer →
    .reconciling projectId ∈ newer

theorem Orderly.followed (h : s.Orderly) (hsettled : s.Settled) : s.Followed := by
  have hattended : ∀ pid, s.Attended pid ↔ s.statesRef pid ≠ none := by
    intro pid
    refine or_iff_left ?_
    rintro ⟨fiber, program, hprogram, -⟩
    rw [hsettled.fibers] at hprogram
    cases hprogram
  constructor
  case watched =>
    intro pid hlast
    obtain ⟨watcher, href⟩ := Option.ne_none_iff_exists'.mp
      ((hattended pid).mp ((h.told.watched pid).mp hlast))
    refine ⟨watcher, (h.shape.opened _ _).mp href, ?_⟩
    intro other hother
    have hotherRef := (h.shape.opened _ _).mpr hother
    rw [href] at hotherRef
    exact (Option.some.inj hotherRef).symm
  case unwatched =>
    intro pid hlast watcher hopenFor
    apply hlast
    rw [h.told.watched, hattended, (h.shape.opened _ _).mpr hopenFor]
    exact Option.some_ne_none watcher
  case live =>
    intro subscription
    rw [h.held.owned.live_iff]
    constructor
    · rintro ⟨owner, hown⟩
      cases owner with
      | watcher watcher =>
        obtain ⟨state, hstate, hmem⟩ := hown
        refine ⟨watcher, state, hstate, ?_, hmem⟩
        rw [← Bool.not_eq_true]
        intro hclosed
        rw [h.shape.closedEmpty watcher state hstate hclosed] at hmem
        cases hmem
      | fiber fiber =>
        obtain ⟨program, hprogram, -⟩ := hown
        rw [hsettled.fibers] at hprogram
        cases hprogram
      | ending =>
        rw [Owns, hsettled.unsubscribing] at hown
        cases hown
    · rintro ⟨watcher, state, hstate, -, hmem⟩
      exact ⟨.watcher watcher, state, hstate, hmem⟩
  case reconciled =>
    intro pid newer older hlog hlast hstays
    apply reconciling_of_not_owed hlog _ hlast hstays
    rw [← Bool.not_eq_true]
    intro howed
    obtain ⟨watcher, state, -, hstate, htimer⟩ := h.told.owes pid howed
    rw [hsettled.timers watcher state hstate] at htimer
    cases htimer

/-- A worktree of the project changes, and is reconciled. -/
def reconciledOnce : List WatchEvent :=
  [.watchProject "project" "/repo" none (some "/repo/.git"), .configResolved 0 true,
    .subscribed 0 true, .subscribed 0 true, .subscribed 0 true,
    .fileEvent 1 (some "feature/HEAD") true, .worktreeTimer 0]

def unwatchedWhileStarting : List WatchEvent :=
  [.watchProject "project" "/repo" none (some "/repo/.git"), .configResolved 0 false,
    .unwatchProject "project", .subscribed 0 true, .subscribed 0 true]

end WatchCoordinator

end Laborer.Worktrees
