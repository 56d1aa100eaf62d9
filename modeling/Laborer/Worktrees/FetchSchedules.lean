import Laborer.Library.TrackedFibers
import Laborer.Worktrees.BackgroundFetch

/-!
# Schedules and their loops

When a repository has the loop that its workspaces need, the condition of a calm run, and
the invariant: the running loops are those of the schedules, and the schedules hold the
workspaces that were started and not stopped since.
-/

namespace Laborer.Worktrees

open Library List Function OrderedMap Option

/-! ## Calls -/

def FetchCall.stopsAll : FetchCall → Bool
  | .interruptingAll _ => true
  | .resolvingRepoRoot _ _ => false
  | .resolvingFetchHead _ _ _ => false
  | .interrupting _ => false

/-- The call waits for the end of the loop. -/
def FetchCall.Ends (fiber : ℕ) : FetchCall → Prop
  | .interruptingAll fibers => fiber ∈ fibers
  | .resolvingRepoRoot _ _ => False
  | .resolvingFetchHead _ _ _ => False
  | .interrupting ending => fiber = ending

def FetchCall.Starts (workspaceId : String) : FetchCall → Prop
  | .interruptingAll _ => False
  | .resolvingRepoRoot starting _ => workspaceId = starting
  | .resolvingFetchHead starting _ _ => workspaceId = starting
  | .interrupting _ => False

/-- A start waits with the one worktree and the one repository of its workspace. -/
def FetchCall.Placed (worktree : String → Option String) (commonDir : String → String) :
    FetchCall → Prop
  | .interruptingAll _ => True
  | .resolvingRepoRoot workspaceId worktreePath => worktree workspaceId = some worktreePath
  | .resolvingFetchHead workspaceId worktreePath repoRoot =>
    worktree workspaceId = some worktreePath ∧ commonDir worktreePath = repoRoot
  | .interrupting _ => True

namespace BackgroundFetch

/-! ## The property -/

section

variable (worktree : String → Option String) (commonDir : String → String)

/-- A workspace of the repository that was started and not stopped since. -/
def Wanted (s : BackgroundFetch) (repoRoot workspaceId : String) : Prop :=
  s.started workspaceId = true ∧ (worktree workspaceId).map commonDir = some repoRoot

/-- The loop is the only one of its repository, every workspace is in its schedule, and it
fetches in the worktree of one that is. -/
structure Serves (s : BackgroundFetch) (repoRoot : String) (fiber : ℕ) : Prop where
  only : ∀ other, (∃ loop ∈ s.loops other, loop.repoRoot = repoRoot) ↔ other = fiber
  scheduled : ∃ schedule, s.schedules.get? repoRoot = some schedule ∧ schedule.fiber = fiber ∧
    (∀ workspaceId, s.Wanted worktree commonDir repoRoot workspaceId →
      workspaceId ∈ schedule.workspaceIds) ∧
    ∀ loop ∈ s.loops fiber, ∃ workspaceId ∈ schedule.workspaceIds,
      worktree workspaceId = some loop.worktreePath

/-- A repository has one loop if a workspace of it is to be fetched for, and none
otherwise. -/
structure Settled (s : BackgroundFetch) (repoRoot : String) : Prop where
  running : (∃ workspaceId, s.Wanted worktree commonDir repoRoot workspaceId) →
    ∃ fiber, s.Serves worktree commonDir repoRoot fiber
  idle : (¬ ∃ workspaceId, s.Wanted worktree commonDir repoRoot workspaceId) →
    ∀ fiber, ∀ loop ∈ s.loops fiber, loop.repoRoot ≠ repoRoot

/-! ## The condition -/

def StoppingAll (s : BackgroundFetch) : Prop :=
  ∃ call ∈ s.calls, call.stopsAll = true

def MayRecord (s : BackgroundFetch) (workspaceId : String) : Prop :=
  s.started workspaceId = true ∧ ¬ s.StoppingAll

/-- A workspace that leaves a schedule leaves one in whose worktree the loop fetches, or
nobody. -/
def MayLeave (s : BackgroundFetch) (workspaceId : String) : Prop :=
  ∀ repoRoot ∈ s.workspaceToRepo.get? workspaceId, ∀ schedule ∈ s.schedules.get? repoRoot,
    schedule.remaining workspaceId = [] ∨
      ∀ loop ∈ s.loops schedule.fiber, ∃ other ∈ schedule.remaining workspaceId,
        worktree other = some loop.worktreePath

/-- The answers name the one worktree and the one repository of a workspace, a start does
not record what was stopped or scheduled while it waited, and no worktree is taken from
under a loop that others share. -/
def Calm : FetchEvent → BackgroundFetch → Prop
  | .startFetching workspaceId worktreePath, _ => worktreePath = worktree workspaceId
  | .repoRootResolved workspaceId worktreePath answer, s =>
    resolveRepoRoot worktreePath answer = commonDir worktreePath ∧
      (s.schedules.get? (commonDir worktreePath) ≠ none → s.MayRecord workspaceId)
  | .fetchHeadResolved workspaceId _ repoRoot, s =>
    s.schedules.get? repoRoot = none ∧ s.MayRecord workspaceId
  | .stopFetching workspaceId, s => s.MayLeave worktree workspaceId
  | .stopAllFetching, _ => True
  | .interrupted _, _ => True
  | .interruptedNext _, _ => True

instance decidableMayRecord (s : BackgroundFetch) (workspaceId : String) :
    Decidable (s.MayRecord workspaceId) :=
  inferInstanceAs (Decidable (_ ∧ ¬ ∃ call ∈ s.calls, call.stopsAll = true))

instance decidableMayLeave (s : BackgroundFetch) (workspaceId : String) :
    Decidable (s.MayLeave worktree workspaceId) :=
  inferInstanceAs (Decidable (∀ repoRoot ∈ s.workspaceToRepo.get? workspaceId,
    ∀ schedule ∈ s.schedules.get? repoRoot, schedule.remaining workspaceId = [] ∨
      ∀ loop ∈ s.loops schedule.fiber, ∃ other ∈ schedule.remaining workspaceId,
        worktree other = some loop.worktreePath))

instance decidableCalm : (event : FetchEvent) → (s : BackgroundFetch) →
    Decidable (Calm worktree commonDir event s)
  | .startFetching workspaceId worktreePath, _ =>
    inferInstanceAs (Decidable (worktreePath = worktree workspaceId))
  | .repoRootResolved workspaceId worktreePath answer, s =>
    inferInstanceAs (Decidable (resolveRepoRoot worktreePath answer = commonDir worktreePath ∧
      (s.schedules.get? (commonDir worktreePath) ≠ none → s.MayRecord workspaceId)))
  | .fetchHeadResolved workspaceId _ repoRoot, s =>
    inferInstanceAs (Decidable (s.schedules.get? repoRoot = none ∧ s.MayRecord workspaceId))
  | .stopFetching workspaceId, s => inferInstanceAs (Decidable (s.MayLeave worktree workspaceId))
  | .stopAllFetching, _ => isTrue trivial
  | .interrupted _, _ => isTrue trivial
  | .interruptedNext _, _ => isTrue trivial

/-! ## The invariant -/

def Ending (s : BackgroundFetch) (fiber : ℕ) : Prop :=
  ∃ call ∈ s.calls, call.Ends fiber

def Starting (s : BackgroundFetch) (workspaceId : String) : Prop :=
  ∃ call ∈ s.calls, call.Starts workspaceId

/-- The running loops are those of the schedules and those that are about to end, and the loop
of a schedule fetches in the worktree of one of its workspaces. -/
structure Scheduled (s : BackgroundFetch) : Prop where
  tracked : Tracked (fun repoRoot => (s.schedules.get? repoRoot).map (·.fiber))
    (fun fiber => (s.loops fiber).map (·.repoRoot)) (fun _ _ => False) s.Ending s.nextFiber
  fetches : ∀ repoRoot schedule, s.schedules.get? repoRoot = some schedule →
    ∀ loop ∈ s.loops schedule.fiber, ∃ workspaceId ∈ schedule.workspaceIds,
      worktree workspaceId = some loop.worktreePath
  nodup : (s.schedules.map Prod.fst).Nodup

/-- The schedules hold the workspaces that are fetched for, up to the starts that wait. -/
structure Recorded (s : BackgroundFetch) : Prop where
  repo : ∀ repoRoot schedule, s.schedules.get? repoRoot = some schedule →
    ∀ workspaceId ∈ schedule.workspaceIds,
      s.workspaceToRepo.get? workspaceId = some repoRoot ∧
        s.Wanted worktree commonDir repoRoot workspaceId
  wanted : ∀ repoRoot workspaceId, s.Wanted worktree commonDir repoRoot workspaceId →
    (∃ schedule, s.schedules.get? repoRoot = some schedule ∧
      workspaceId ∈ schedule.workspaceIds) ∨ s.Starting workspaceId
  placed : ∀ call ∈ s.calls, call.Placed worktree commonDir
  stopping : s.StoppingAll → s.schedules = []

end

variable {worktree : String → Option String} {commonDir : String → String} {s : BackgroundFetch}
  {call : FetchCall} {calls : List FetchCall} {p : FetchCall → Prop}

/-! ## Calls that begin and end -/

theorem exists_mem_erase
    (h : ¬ p call) : (∃ other ∈ calls.erase call, p other) ↔ ∃ other ∈ calls, p other := by
  constructor
  · rintro ⟨other, hmem, hp⟩
    exact ⟨other, mem_of_mem_erase hmem, hp⟩
  · rintro ⟨other, hmem, hp⟩
    refine ⟨other, (mem_erase_of_ne ?_).mpr hmem, hp⟩
    rintro rfl
    exact h hp

theorem exists_mem_cons_of_not
    (h : ¬ p call) : (∃ other ∈ call :: calls, p other) ↔ ∃ other ∈ calls, p other := by
  simp only [exists_mem_cons_iff, h, false_or]

theorem exists_of_mem_erase : (∃ other ∈ calls.erase call, p other) → ∃ other ∈ calls, p other := by
  rintro ⟨other, hmem, hp⟩
  exact ⟨other, mem_of_mem_erase hmem, hp⟩

/-! ## Schedules and loops -/

namespace Scheduled

variable {s' : BackgroundFetch} {repoRoot : String} {schedule : FetchScheduleState}

section

variable (h : s.Scheduled worktree)
include h

theorem loop (hget : s.schedules.get? repoRoot = some schedule) :
    ∃ loop ∈ s.loops schedule.fiber, loop.repoRoot = repoRoot ∧
      ∃ wid ∈ schedule.workspaceIds, worktree wid = some loop.worktreePath := by
  obtain ⟨loop, hloop, hrepo⟩ := map_eq_some_iff.mp
    (h.tracked.recorded_runs repoRoot schedule.fiber (map_eq_some_iff.mpr ⟨_, hget, rfl⟩))
  exact ⟨loop, hloop, hrepo, h.fetches repoRoot schedule hget loop hloop⟩

theorem live {fiber : ℕ} {loop : FetchLoop} (hloop : loop ∈ s.loops fiber) :
    (∃ schedule, s.schedules.get? loop.repoRoot = some schedule ∧ schedule.fiber = fiber) ∨
      s.Ending fiber := by
  have hruns : (s.loops fiber).map (·.repoRoot) = some loop.repoRoot :=
    map_eq_some_iff.mpr ⟨loop, hloop, rfl⟩
  rcases h.tracked.running fiber loop.repoRoot hruns with hrecorded | hforked | hends
  · exact .inl (map_eq_some_iff.mp hrecorded)
  · exact hforked.elim
  · exact .inr hends

theorem of_calls (hschedules : s'.schedules = s.schedules) (hloops : s'.loops = s.loops)
    (hnext : s'.nextFiber = s.nextFiber) (hending : ∀ fiber, s'.Ending fiber ↔ s.Ending fiber) :
    s'.Scheduled worktree := by
  constructor
  · rw [hschedules, hloops, hnext]
    exact h.tracked.congr (fun _ _ => Iff.rfl) hending
  · rw [hschedules, hloops]
    exact h.fetches
  · rw [hschedules]
    exact h.nodup

theorem set {workspaceIds : List String} (hget : s.schedules.get? repoRoot = some schedule)
    (hworktree : ∀ loop ∈ s.loops schedule.fiber, ∃ wid ∈ workspaceIds,
      worktree wid = some loop.worktreePath)
    (hschedules : s'.schedules = s.schedules.set repoRoot { schedule with workspaceIds })
    (hloops : s'.loops = s.loops) (hnext : s'.nextFiber = s.nextFiber)
    (hending : ∀ fiber, s'.Ending fiber ↔ s.Ending fiber) : s'.Scheduled worktree := by
  constructor
  · have hrecorded : (fun other => (s'.schedules.get? other).map (·.fiber)) =
        fun other => (s.schedules.get? other).map (·.fiber) := by
      funext other
      rw [hschedules, get?_set]
      split
      · next heq =>
        rw [← heq, hget]
        rfl
      · rfl
    rw [hrecorded, hloops, hnext]
    exact h.tracked.congr (fun _ _ => Iff.rfl) hending
  · intro other found hfound
    rw [hloops]
    rw [hschedules, get?_set] at hfound
    split at hfound
    · cases hfound
      exact hworktree
    · exact h.fetches other found hfound
  · rw [hschedules]
    exact nodup_keys_set _ _ h.nodup

theorem ended {fiber : ℕ} (hends : s.Ending fiber) (hschedules : s'.schedules = s.schedules)
    (hloops : s'.loops = Function.update s.loops fiber none) (hnext : s'.nextFiber = s.nextFiber)
    (hending : ∀ other, s'.Ending other → s.Ending other)
    (hrest : ∀ other, s.Ending other → other = fiber ∨ s'.Ending other) :
    s'.Scheduled worktree := by
  constructor
  · rw [hschedules, hnext]
    refine h.tracked.finish hends ?_ (fun _ _ => Iff.rfl) hending fun other hne hother =>
      (hrest other hother).resolve_left hne
    intro other
    rw [hloops, update_apply]
    split <;> rfl
  · intro repoRoot schedule hget loop hloop
    rw [hschedules] at hget
    rw [hloops, update_apply] at hloop
    split at hloop
    · cases hloop
    · exact h.fetches repoRoot schedule hget loop hloop
  · rw [hschedules]
    exact h.nodup

theorem take (taken : String → Prop) (htaken : ∀ repoRoot, taken repoRoot →
      s'.schedules.get? repoRoot = none)
    (hother : ∀ repoRoot, ¬ taken repoRoot →
      s'.schedules.get? repoRoot = s.schedules.get? repoRoot)
    (hnodup : (s'.schedules.map Prod.fst).Nodup) (hloops : s'.loops = s.loops)
    (hnext : s'.nextFiber = s.nextFiber) (hending : ∀ fiber, s'.Ending fiber ↔
      (∃ repoRoot, taken repoRoot ∧ (s.schedules.get? repoRoot).map (·.fiber) = some fiber) ∨
        s.Ending fiber) : s'.Scheduled worktree := by
  constructor
  · rw [hloops, hnext]
    refine h.tracked.take (fun repoRoot hmem => ?_) (fun repoRoot hmem => ?_)
      (fun _ _ => Iff.rfl) hending
    · rw [htaken repoRoot hmem]
      rfl
    · rw [hother repoRoot hmem]
  · intro repoRoot schedule hget
    rw [hloops]
    by_cases hmem : taken repoRoot
    · rw [htaken repoRoot hmem] at hget
      cases hget
    · exact h.fetches repoRoot schedule (hother repoRoot hmem ▸ hget)
  · exact hnodup

theorem delete (hget : s.schedules.get? repoRoot = some schedule)
    (hschedules : s'.schedules = s.schedules.delete repoRoot) (hloops : s'.loops = s.loops)
    (hnext : s'.nextFiber = s.nextFiber)
    (hending : ∀ fiber, s'.Ending fiber ↔ fiber = schedule.fiber ∨ s.Ending fiber) :
    s'.Scheduled worktree := by
  refine h.take (repoRoot = ·) (fun other heq => ?_) (fun other hne => ?_) ?_ hloops hnext
    fun fiber => ?_
  · rw [hschedules, get?_delete, if_pos heq]
  · rw [hschedules, get?_delete, if_neg hne]
  · rw [hschedules]
    exact nodup_keys_delete repoRoot h.nodup
  · simp only [hending, exists_eq_left', hget, map_some, some_inj, eq_comm]

theorem deleteAll (hschedules : s'.schedules = [])
    (hloops : s'.loops = s.loops) (hnext : s'.nextFiber = s.nextFiber)
    (hending : ∀ fiber, s'.Ending fiber ↔
      fiber ∈ s.schedules.values.map (·.fiber) ∨ s.Ending fiber) : s'.Scheduled worktree := by
  refine h.take (fun _ => True) (fun other _ => ?_) (fun other hmem => absurd trivial hmem)
    ?_ hloops hnext fun fiber => ?_
  · rw [hschedules]
    rfl
  · rw [hschedules]
    exact nodup_nil
  · rw [hending, List.mem_map]
    simp only [mem_values_iff h.nodup, map_eq_some_iff, true_and]
    rw [exists_comm]
    simp only [exists_and_right]

theorem start {wid worktreePath : String} (hget : s.schedules.get? repoRoot = none)
    (hworktree : worktree wid = some worktreePath) (hschedules : s'.schedules =
      s.schedules.set repoRoot { fiber := s.nextFiber, workspaceIds := [wid] })
    (hloops : s'.loops = Function.update s.loops s.nextFiber (some { worktreePath, repoRoot }))
    (hnext : s'.nextFiber = s.nextFiber + 1) (hending : ∀ fiber, s'.Ending fiber ↔ s.Ending fiber) :
    s'.Scheduled worktree := by
  constructor
  · rw [hschedules, hloops, hnext]
    refine Tracked.record (h.tracked.fork (by rw [hget]; rfl) (fun _ => id) ?_ (fun _ _ => Iff.rfl)
      hending) (.inl ⟨rfl, rfl⟩) ?_ ?_ ?_ fun _ => Iff.rfl
    · intro fiber
      rw [update_apply]
      split <;> rfl
    · rw [get?_set, if_pos rfl]
      rfl
    · intro other hne
      rw [get?_set, if_neg hne.symm]
    · simp
  · intro other found hfound loop hloop
    rw [hschedules, get?_set] at hfound
    rw [hloops, update_apply] at hloop
    split at hfound
    · cases hfound
      rw [if_pos rfl] at hloop
      cases hloop
      exact ⟨wid, mem_singleton_self _, hworktree⟩
    · have hlt := h.tracked.runs_lt _ _ (h.tracked.recorded_runs other found.fiber
        (map_eq_some_iff.mpr ⟨_, hfound, rfl⟩))
      rw [if_neg (Nat.ne_of_lt hlt)] at hloop
      exact h.fetches other found hfound loop hloop
  · rw [hschedules]
    exact nodup_keys_set _ _ h.nodup

end

end Scheduled

/-! ## Schedules and workspaces -/

theorem Wanted.repository {repoRoot wid : String}
    (h : s.Wanted worktree commonDir repoRoot wid) {other : String}
    (hother : (worktree wid).map commonDir = some other) : repoRoot = other :=
  some.inj (h.2.symm.trans hother)

namespace Recorded

variable {s' : BackgroundFetch}

/-- Calls that start no workspace and stop not all do not matter. -/
theorem of_calls (h : s.Recorded worktree commonDir)
    (hschedules : s'.schedules = s.schedules) (hrepos : s'.workspaceToRepo = s.workspaceToRepo)
    (hstarted : s'.started = s.started) (hstarting : ∀ wid, s.Starting wid → s'.Starting wid)
    (hplaced : ∀ call ∈ s'.calls, call.Placed worktree commonDir)
    (hstopping : s'.StoppingAll → s.StoppingAll) : s'.Recorded worktree commonDir := by
  have hwanted : ∀ repoRoot wid, s'.Wanted worktree commonDir repoRoot wid ↔
      s.Wanted worktree commonDir repoRoot wid := by
    intro repoRoot wid
    unfold Wanted
    rw [hstarted]
  constructor
  · simp only [hschedules, hrepos, hwanted]
    exact h.repo
  · intro repoRoot wid hw
    rw [hschedules]
    exact (h.wanted repoRoot wid ((hwanted _ _).mp hw)).imp_right (hstarting wid)
  · exact hplaced
  · rw [hschedules]
    exact fun hall => h.stopping (hstopping hall)

theorem record {wid repoRoot : String} {call : FetchCall}
    {schedule : FetchScheduleState} (h : s.Recorded worktree commonDir)
    (hrepository : (worktree wid).map commonDir = some repoRoot)
    (hmay : s.MayRecord wid) (hmem : wid ∈ schedule.workspaceIds)
    (hnew : ∀ other ∈ schedule.workspaceIds, other = wid ∨
      ∃ old, s.schedules.get? repoRoot = some old ∧ other ∈ old.workspaceIds)
    (hold : ∀ old, s.schedules.get? repoRoot = some old →
      ∀ other ∈ old.workspaceIds, other ∈ schedule.workspaceIds)
    (hstarts : ∀ other, call.Starts other → other = wid)
    (hschedules : s'.schedules = s.schedules.set repoRoot schedule)
    (hrepos : s'.workspaceToRepo = s.workspaceToRepo.set wid repoRoot)
    (hstarted : s'.started = s.started) (hcalls : s'.calls = s.calls.erase call) :
    s'.Recorded worktree commonDir := by
  have hwanted : ∀ repoRoot wid, s'.Wanted worktree commonDir repoRoot wid ↔
      s.Wanted worktree commonDir repoRoot wid := by
    intro repoRoot wid
    unfold Wanted
    rw [hstarted]
  have hself : s.Wanted worktree commonDir repoRoot wid := ⟨hmay.1, hrepository⟩
  constructor
  · intro root found hfound other hother
    rw [hwanted, hrepos, get?_set]
    rw [hschedules, get?_set] at hfound
    by_cases heq : wid = other
    · subst heq
      rw [if_pos rfl]
      split at hfound
      · next hroot => exact hroot ▸ ⟨rfl, hself⟩
      · -- A schedule of another repository does not hold the workspace.
        next hroot =>
        exact absurd ((h.repo root found hfound wid hother).2.repository hrepository).symm hroot
    · rw [if_neg heq]
      split at hfound
      · next hroot =>
        cases hfound
        obtain ⟨old, hget, hmember⟩ := (hnew other hother).resolve_left (Ne.symm heq)
        exact hroot ▸ h.repo repoRoot old hget other hmember
      · exact h.repo root found hfound other hother
  · intro root other hother
    rw [hwanted] at hother
    rw [hschedules, get?_set]
    rcases h.wanted root other hother with ⟨found, hfound, hmember⟩ | hstart
    · refine .inl ?_
      split
      · next hroot => exact ⟨schedule, rfl, hold found (hroot ▸ hfound) other hmember⟩
      · exact ⟨found, hfound, hmember⟩
    · by_cases heq : other = wid
      · subst heq
        rw [if_pos (hother.repository hrepository).symm]
        exact .inl ⟨schedule, rfl, hmem⟩
      · refine .inr ?_
        unfold Starting
        rw [hcalls]
        exact (exists_mem_erase fun hcall => heq (hstarts other hcall)).mpr hstart
  · rw [hcalls]
    exact fun other hcall => h.placed other (mem_of_mem_erase hcall)
  · unfold StoppingAll
    rw [hcalls]
    exact fun hall => absurd (exists_of_mem_erase hall) hmay.2

theorem leave {wid : String} (h : s.Recorded worktree commonDir)
    (hread : ∀ repoRoot found', s'.schedules.get? repoRoot = some found' →
      ∃ found, s.schedules.get? repoRoot = some found ∧
        ∀ other ∈ found'.workspaceIds, other ∈ found.workspaceIds ∧ other ≠ wid)
    (hkeep : ∀ repoRoot found, s.schedules.get? repoRoot = some found →
      ∀ other ∈ found.workspaceIds, other ≠ wid →
        ∃ found', s'.schedules.get? repoRoot = some found' ∧ other ∈ found'.workspaceIds)
    (hempty : s.schedules = [] → s'.schedules = []) (hrepos : ∀ other, other ≠ wid →
      s'.workspaceToRepo.get? other = s.workspaceToRepo.get? other)
    (hstarted : s'.started = Function.update s.started wid false)
    (hcalls : s'.calls = s.calls ∨ ∃ fiber, s'.calls = .interrupting fiber :: s.calls) :
    s'.Recorded worktree commonDir := by
  have hothers : ∀ p : FetchCall → Prop, (∀ fiber, ¬ p (.interrupting fiber)) →
      ((∃ call ∈ s'.calls, p call) ↔ ∃ call ∈ s.calls, p call) := by
    intro p hp
    rcases hcalls with hcalls | ⟨fiber, hcalls⟩
    · rw [hcalls]
    · rw [hcalls]
      exact exists_mem_cons_of_not (hp fiber)
  have hwanted : ∀ repoRoot other, s'.Wanted worktree commonDir repoRoot other ↔
      other ≠ wid ∧ s.Wanted worktree commonDir repoRoot other := by
    intro repoRoot other
    unfold Wanted
    rw [hstarted]
    by_cases heq : other = wid
    · simp [heq]
    · simp [heq]
  constructor
  · intro repoRoot found' hfound' other hother
    obtain ⟨found, hfound, hids⟩ := hread repoRoot found' hfound'
    obtain ⟨hmem, hne⟩ := hids other hother
    rw [hwanted, hrepos other hne]
    have hrecord := h.repo repoRoot found hfound other hmem
    exact ⟨hrecord.1, hne, hrecord.2⟩
  · intro repoRoot other hother
    obtain ⟨hne, hother⟩ := (hwanted repoRoot other).mp hother
    rcases h.wanted repoRoot other hother with ⟨found, hfound, hmem⟩ | hstart
    · exact .inl (hkeep repoRoot found hfound other hmem hne)
    · exact .inr ((hothers (·.Starts other) fun _ => id).mpr hstart)
  · rcases hcalls with hcalls | ⟨fiber, hcalls⟩
    · rw [hcalls]
      exact h.placed
    · rw [hcalls]
      exact forall_mem_cons.mpr ⟨trivial, h.placed⟩
  · intro hall
    exact hempty (h.stopping ((hothers (·.stopsAll = true) fun _ => Bool.noConfusion).mp hall))

end Recorded

end BackgroundFetch

end Laborer.Worktrees
