import Laborer.Worktrees.FetchSchedules

/-!
# One fetch loop for each repository

While starts of one repository do not overlap, a start is not overtaken by a stop, and no
stop takes the worktree that a loop fetches in from under the others, a repository has one
loop where a workspace of it was started and not stopped since, and none otherwise.
-/

namespace Laborer.Worktrees

open Library List Option Function OrderedMap

namespace BackgroundFetch

variable {worktree : String → Option String} {commonDir : String → String} {s : BackgroundFetch}

/-! ## The operations -/

structure Kept (worktree : String → Option String) (commonDir : String → String)
    (s : BackgroundFetch) : Prop where
  scheduled : s.Scheduled worktree
  recorded : s.Recorded worktree commonDir

theorem kept_initial : initial.Kept worktree commonDir := by
  have hcalls : ∀ p : FetchCall → Prop, ¬ ∃ call ∈ initial.calls, p call := by
    rintro p ⟨call, hmem, -⟩
    cases hmem
  constructor
  · constructor
    · exact Tracked.initial (fun _ => rfl) (fun _ => rfl) (fun _ _ => id) fun _ => hcalls _
    · intro repoRoot schedule hget
      cases hget
    · exact nodup_nil
  · constructor
    · intro repoRoot schedule hget
      cases hget
    · intro repoRoot wid hwanted
      cases hwanted.1
    · intro call hmem
      cases hmem
    · exact fun _ => rfl

namespace Kept

theorem startFetching (h : s.Kept worktree commonDir) (wid : String) :
    (s.startFetching wid (worktree wid)).Kept worktree commonDir := by
  have hstarted : ∀ other, other ≠ wid →
      Function.update s.started wid true other = s.started other :=
    fun other hne => update_of_ne hne _ _
  cases hworktree : worktree wid with
  | none =>
    -- A workspace without a worktree belongs to no repository.
    refine ⟨h.scheduled.of_calls rfl rfl rfl fun _ => Iff.rfl, ?_⟩
    have hne : ∀ repoRoot other, (worktree other).map commonDir = some repoRoot → other ≠ wid := by
      rintro repoRoot other hmap rfl
      rw [hworktree] at hmap
      cases hmap
    constructor
    · intro repoRoot schedule hget other hmem
      obtain ⟨hrepo, hwanted⟩ := h.recorded.repo repoRoot schedule hget other hmem
      exact ⟨hrepo, (hstarted other (hne repoRoot other hwanted.2)).trans hwanted.1, hwanted.2⟩
    · intro repoRoot other hwanted
      refine h.recorded.wanted repoRoot other ⟨?_, hwanted.2⟩
      exact (hstarted other (hne repoRoot other hwanted.2)).symm.trans hwanted.1
    · exact h.recorded.placed
    · exact h.recorded.stopping
  | some worktreePath =>
    refine ⟨h.scheduled.of_calls rfl rfl rfl fun fiber => exists_mem_cons_of_not id, ?_⟩
    constructor
    · intro repoRoot schedule hget other hmem
      obtain ⟨hrepo, hwanted⟩ := h.recorded.repo repoRoot schedule hget other hmem
      refine ⟨hrepo, ?_, hwanted.2⟩
      by_cases heq : other = wid
      · rw [heq]
        exact update_self wid true s.started
      · exact (hstarted other heq).trans hwanted.1
    · intro repoRoot other hwanted
      by_cases heq : other = wid
      · exact .inr ⟨_, mem_cons_self, heq⟩
      · refine (h.recorded.wanted repoRoot other
          ⟨(hstarted other heq).symm.trans hwanted.1, hwanted.2⟩).imp_right ?_
        exact fun ⟨call, hcall, hstarts⟩ => ⟨call, mem_cons_of_mem _ hcall, hstarts⟩
    · exact forall_mem_cons.mpr ⟨hworktree, h.recorded.placed⟩
    · exact fun hall =>
        h.recorded.stopping ((exists_mem_cons_of_not Bool.noConfusion).mp hall)

theorem repoRootResolved {wid worktreePath : String} {answer : Option String}
    (h : s.Kept worktree commonDir)
    (hanswer : resolveRepoRoot worktreePath answer = commonDir worktreePath)
    (hmay : s.schedules.get? (commonDir worktreePath) ≠ none → s.MayRecord wid) :
    (s.repoRootResolved wid worktreePath answer).Kept worktree commonDir := by
  unfold BackgroundFetch.repoRootResolved
  dsimp only
  split
  · next hcall =>
    have hworktree : worktree wid = some worktreePath := h.recorded.placed _ hcall
    have hrepository : (worktree wid).map commonDir = some (commonDir worktreePath) := by
      rw [hworktree]
      rfl
    rw [hanswer]
    cases hget : s.schedules.get? (commonDir worktreePath) with
    | none =>
      constructor
      · refine h.scheduled.of_calls rfl rfl rfl fun fiber => ?_
        exact (exists_mem_cons_of_not id).trans (exists_mem_erase id)
      · refine h.recorded.of_calls rfl rfl rfl ?_ ?_ ?_
        · rintro other ⟨call, hmem, hstarts⟩
          by_cases heq : call = .resolvingRepoRoot wid worktreePath
          · subst heq
            exact ⟨_, mem_cons_self, hstarts⟩
          · exact ⟨call, mem_cons_of_mem _ ((mem_erase_of_ne heq).mpr hmem), hstarts⟩
        · exact forall_mem_cons.mpr ⟨⟨hworktree, rfl⟩,
            fun other hmem => h.recorded.placed other (mem_of_mem_erase hmem)⟩
        · exact fun hall =>
            exists_of_mem_erase ((exists_mem_cons_of_not Bool.noConfusion).mp hall)
    | some schedule =>
      have hadded : ∀ other, other ∈ (schedule.add wid).workspaceIds ↔
          other = wid ∨ other ∈ schedule.workspaceIds := by
        intro other
        unfold FetchScheduleState.add
        split
        · next hmem => exact ⟨.inr, fun ho => ho.elim (fun heq => heq ▸ hmem) id⟩
        · simp [or_comm]
      constructor
      · refine h.scheduled.set hget ?_ rfl rfl rfl fun fiber => exists_mem_erase id
        intro loop hloop
        obtain ⟨other, hother, hpath⟩ := h.scheduled.fetches _ schedule hget loop hloop
        exact ⟨other, (hadded other).mpr (.inr hother), hpath⟩
      · refine h.recorded.record hrepository (hmay (hget ▸ some_ne_none schedule))
          ((hadded wid).mpr (.inl rfl)) ?_ ?_ (fun _ => id) rfl rfl rfl rfl
        · intro other hother
          exact ((hadded other).mp hother).imp_right fun hmem => ⟨schedule, hget, hmem⟩
        · intro old hold other hother
          rw [hget] at hold
          cases hold
          exact (hadded other).mpr (.inr hother)
  · exact h

theorem fetchHeadResolved {wid worktreePath repoRoot : String}
    (h : s.Kept worktree commonDir) (hget : s.schedules.get? repoRoot = none)
    (hmay : s.MayRecord wid) :
    (s.fetchHeadResolved wid worktreePath repoRoot).Kept worktree commonDir := by
  unfold BackgroundFetch.fetchHeadResolved
  dsimp only
  split
  · next hcall =>
    obtain ⟨hworktree, hroot⟩ := h.recorded.placed _ hcall
    have hrepository : (worktree wid).map commonDir = some repoRoot := by
      rw [hworktree, ← hroot]
      rfl
    have hnone : ∀ old, s.schedules.get? repoRoot ≠ some old := by
      rw [hget]
      exact fun old => (some_ne_none old).symm
    constructor
    · exact h.scheduled.start hget hworktree rfl rfl rfl fun fiber => exists_mem_erase id
    · refine h.recorded.record hrepository hmay (mem_singleton_self _) ?_ ?_ (fun _ => id)
        rfl rfl rfl rfl
      · exact fun other hother => .inl (mem_singleton.mp hother)
      · exact fun old hold => absurd hold (hnone old)
  · exact h

theorem interrupted (h : s.Kept worktree commonDir) (fiber : ℕ) :
    (s.interrupted fiber).Kept worktree commonDir := by
  unfold BackgroundFetch.interrupted
  split
  · next hcall =>
    constructor
    · refine h.scheduled.ended ⟨_, hcall, rfl⟩ rfl rfl rfl (fun other => exists_of_mem_erase) ?_
      rintro other ⟨call, hmem, hends⟩
      by_cases heq : call = .interrupting fiber
      · subst heq
        exact .inl hends
      · exact .inr ⟨call, (mem_erase_of_ne heq).mpr hmem, hends⟩
    · refine h.recorded.of_calls rfl rfl rfl ?_ ?_ exists_of_mem_erase
      · exact fun other hstart => (exists_mem_erase id).mpr hstart
      · exact fun other hmem => h.recorded.placed other (mem_of_mem_erase hmem)
  · exact h

theorem stopFetching {wid : String} (h : s.Kept worktree commonDir)
    (hleave : s.MayLeave worktree wid) : (s.stopFetching wid).Kept worktree commonDir := by
  -- A workspace is in the schedule of its entry and in no other.
  have hout : ∀ repoRoot found, s.schedules.get? repoRoot = some found →
      s.workspaceToRepo.get? wid ≠ some repoRoot → ∀ other ∈ found.workspaceIds, other ≠ wid := by
    rintro repoRoot found hfound hne other hother rfl
    exact hne (h.recorded.repo repoRoot found hfound other hother).1
  unfold BackgroundFetch.stopFetching
  dsimp only
  cases hrepo : s.workspaceToRepo.get? wid with
  | none =>
    have hothers : ∀ repoRoot found, s.schedules.get? repoRoot = some found →
        ∀ other ∈ found.workspaceIds, other ≠ wid := fun repoRoot found hfound =>
      hout repoRoot found hfound (hrepo ▸ (some_ne_none repoRoot).symm)
    constructor
    · exact h.scheduled.of_calls rfl rfl rfl fun fiber => Iff.rfl
    · refine h.recorded.leave ?_ ?_ id (fun other _ => rfl) rfl (.inl rfl)
      · exact fun repoRoot found hfound => ⟨found, hfound, fun other hother =>
          ⟨hother, hothers repoRoot found hfound other hother⟩⟩
      · exact fun repoRoot found hfound other hother _ => ⟨found, hfound, hother⟩
  | some root =>
    have hrepos : ∀ other, other ≠ wid →
        (s.workspaceToRepo.delete wid).get? other = s.workspaceToRepo.get? other := by
      intro other hne
      rw [get?_delete, if_neg hne.symm]
    have hothers : ∀ repoRoot found, root ≠ repoRoot → s.schedules.get? repoRoot = some found →
        ∀ other ∈ found.workspaceIds, other ≠ wid := by
      intro repoRoot found hne hfound
      apply hout repoRoot found hfound
      rw [hrepo]
      exact fun heq => hne (some.inj heq)
    dsimp only
    cases hget : s.schedules.get? root with
    | none =>
      have hne : ∀ repoRoot found, s.schedules.get? repoRoot = some found → root ≠ repoRoot := by
        rintro repoRoot found hfound rfl
        rw [hget] at hfound
        cases hfound
      constructor
      · exact h.scheduled.of_calls rfl rfl rfl fun fiber => Iff.rfl
      · refine h.recorded.leave ?_ ?_ id hrepos rfl (.inl rfl)
        · exact fun repoRoot found hfound => ⟨found, hfound, fun other hother =>
            ⟨hother, hothers repoRoot found (hne repoRoot found hfound) hfound other hother⟩⟩
        · exact fun repoRoot found hfound other hother _ => ⟨found, hfound, hother⟩
    | some schedule =>
      have hremaining : ∀ other, other ∈ schedule.remaining wid ↔
          other ∈ schedule.workspaceIds ∧ other ≠ wid := by
        intro other
        simp [FetchScheduleState.remaining]
      dsimp only
      split
      · next hlast =>
        have hread : ∀ repoRoot found, (s.schedules.delete root).get? repoRoot = some found ↔
              root ≠ repoRoot ∧ s.schedules.get? repoRoot = some found := by
          intro repoRoot found
          rw [get?_delete]
          by_cases heq : root = repoRoot
          · simp [heq]
          · simp [heq]
        constructor
        · exact h.scheduled.delete hget rfl rfl rfl fun fiber => exists_mem_cons_iff ..
        · refine h.recorded.leave ?_ ?_ ?_ hrepos rfl (.inr ⟨schedule.fiber, rfl⟩)
          · intro repoRoot found hfound
            obtain ⟨hne, hfound⟩ := (hread repoRoot found).mp hfound
            exact ⟨found, hfound, fun other hother =>
              ⟨hother, hothers repoRoot found hne hfound other hother⟩⟩
          · intro repoRoot found hfound other hother hne
            refine ⟨found, (hread repoRoot found).mpr ⟨?_, hfound⟩, hother⟩
            rintro rfl
            rw [hget] at hfound
            cases hfound
            have hmem := (hremaining other).mpr ⟨hother, hne⟩
            rw [hlast] at hmem
            cases hmem
          · intro hempty
            rw [hempty] at hget
            cases hget
      · next hstay =>
        constructor
        · exact h.scheduled.set hget
            ((hleave root hrepo schedule hget).resolve_left hstay) rfl rfl rfl fun fiber => Iff.rfl
        · refine h.recorded.leave ?_ ?_ ?_ hrepos rfl (.inl rfl)
          · intro repoRoot found hfound
            rw [get?_set] at hfound
            split at hfound
            · next heq =>
              cases hfound
              exact ⟨schedule, heq ▸ hget, fun other hother => (hremaining other).mp hother⟩
            · next hne =>
              exact ⟨found, hfound, fun other hother =>
                ⟨hother, hothers repoRoot found hne hfound other hother⟩⟩
          · intro repoRoot found hfound other hother hne
            rw [get?_set]
            split
            · next heq =>
              subst heq
              rw [hget] at hfound
              cases hfound
              exact ⟨_, rfl, (hremaining other).mpr ⟨hother, hne⟩⟩
            · exact ⟨found, hfound, hother⟩
          · intro hempty
            rw [hempty] at hget
            cases hget

theorem stopAllFetching (h : s.Kept worktree commonDir) :
    s.stopAllFetching.Kept worktree commonDir := by
  unfold BackgroundFetch.stopAllFetching interruptRest
  cases hfibers : s.schedules.values.map (·.fiber) with
  | nil =>
    constructor
    · refine h.scheduled.deleteAll rfl rfl rfl fun fiber => ?_
      rw [hfibers]
      exact ⟨.inr, fun hends => hends.resolve_left not_mem_nil⟩
    · constructor
      · intro repoRoot schedule hget
        cases hget
      · intro repoRoot wid hwanted
        cases hwanted.1
      · exact h.recorded.placed
      · exact fun _ => rfl
  | cons fiber fibers =>
    constructor
    · refine h.scheduled.deleteAll rfl rfl rfl fun other => ?_
      rw [hfibers]
      exact exists_mem_cons_iff ..
    · constructor
      · intro repoRoot schedule hget
        cases hget
      · intro repoRoot wid hwanted
        cases hwanted.1
      · exact forall_mem_cons.mpr ⟨trivial, h.recorded.placed⟩
      · exact fun _ => rfl

theorem interruptedNext (h : s.Kept worktree commonDir) (fibers : List ℕ) :
    (s.interruptedNext fibers).Kept worktree commonDir := by
  unfold BackgroundFetch.interruptedNext
  cases fibers with
  | nil => exact h
  | cons fiber rest =>
    dsimp only
    split
    · next hcall =>
      have hempty : s.schedules = [] := h.recorded.stopping ⟨_, hcall, rfl⟩
      have hends : s.Ending fiber := ⟨_, hcall, mem_cons_self⟩
      have hothers : ∀ call ∈ s.calls, call ≠ .interruptingAll (fiber :: rest) →
          call ∈ s.calls.erase (.interruptingAll (fiber :: rest)) :=
        fun call hmem hne => (mem_erase_of_ne hne).mpr hmem
      have hstarting : ∀ wid, s.Starting wid →
          ∃ call ∈ s.calls.erase (.interruptingAll (fiber :: rest)), call.Starts wid :=
        fun wid => (exists_mem_erase id).mpr
      have hplaced : ∀ call ∈ s.calls.erase (.interruptingAll (fiber :: rest)),
          call.Placed worktree commonDir :=
        fun call hmem => h.recorded.placed call (mem_of_mem_erase hmem)
      cases rest with
      | nil =>
        constructor
        · refine h.scheduled.ended hends rfl rfl rfl (fun other => exists_of_mem_erase) ?_
          rintro other ⟨call, hmem, hother⟩
          by_cases heq : call = .interruptingAll [fiber]
          · subst heq
            exact .inl (mem_singleton.mp hother)
          · exact .inr ⟨call, hothers call hmem heq, hother⟩
        · constructor
          · intro repoRoot schedule hget
            rw [hempty] at hget
            cases hget
          · exact fun repoRoot wid hwanted =>
              (h.recorded.wanted repoRoot wid hwanted).imp_right (hstarting wid)
          · exact hplaced
          · exact fun _ => hempty
      | cons next rest =>
        constructor
        · refine h.scheduled.ended hends rfl rfl rfl ?_ ?_
          · rintro other ⟨call, hmem, hother⟩
            rcases mem_cons.mp hmem with rfl | hmem
            · exact ⟨_, hcall, mem_cons_of_mem _ hother⟩
            · exact ⟨call, mem_of_mem_erase hmem, hother⟩
          · rintro other ⟨call, hmem, hother⟩
            by_cases heq : call = .interruptingAll (fiber :: next :: rest)
            · subst heq
              exact (mem_cons.mp hother).imp_right fun hlater =>
                ⟨_, mem_cons_self, hlater⟩
            · exact .inr ⟨call, mem_cons_of_mem _ (hothers call hmem heq), hother⟩
        · refine h.recorded.of_calls rfl rfl rfl ?_ ?_ ?_
          · exact fun wid hstart =>
              (exists_mem_cons_of_not id).mpr (hstarting wid hstart)
          · exact forall_mem_cons.mpr ⟨trivial, hplaced⟩
          · exact fun _ => ⟨_, hcall, rfl⟩
    · exact h

theorem step {event : FetchEvent} (h : s.Kept worktree commonDir)
    (hcalm : Calm worktree commonDir event s) :
    (BackgroundFetch.step event s).Kept worktree commonDir := by
  cases event with
  | startFetching wid worktreePath =>
    cases hcalm
    exact h.startFetching wid
  | repoRootResolved wid worktreePath answer => exact h.repoRootResolved hcalm.1 hcalm.2
  | fetchHeadResolved wid worktreePath repoRoot => exact h.fetchHeadResolved hcalm.1 hcalm.2
  | stopFetching wid => exact h.stopFetching hcalm
  | stopAllFetching => exact h.stopAllFetching
  | interrupted fiber => exact h.interrupted fiber
  | interruptedNext fibers => exact h.interruptedNext fibers

end Kept

theorem Kept.settled (h : s.Kept worktree commonDir) (hcalls : s.calls = []) (repoRoot : String) :
    s.Settled worktree commonDir repoRoot := by
  have hnone : ∀ p : FetchCall → Prop, ¬ ∃ call ∈ s.calls, p call := by
    rintro p ⟨call, hmem, -⟩
    rw [hcalls] at hmem
    cases hmem
  have hlive : ∀ fiber, ∀ loop ∈ s.loops fiber, ∃ schedule,
      s.schedules.get? loop.repoRoot = some schedule ∧ schedule.fiber = fiber :=
    fun fiber loop hloop => (h.scheduled.live hloop).resolve_right (hnone _)
  constructor
  · rintro ⟨wid, hwanted⟩
    obtain ⟨schedule, hget, -⟩ := (h.recorded.wanted repoRoot wid hwanted).resolve_right (hnone _)
    obtain ⟨loop, hloop, hrepo, -⟩ := h.scheduled.loop hget
    refine ⟨schedule.fiber, ?_, schedule, hget, rfl, ?_, ?_⟩
    · intro other
      constructor
      · rintro ⟨loop', hloop', rfl⟩
        obtain ⟨found, hfound, hfiber⟩ := hlive other loop' hloop'
        rw [hget] at hfound
        cases hfound
        exact hfiber.symm
      · rintro rfl
        exact ⟨loop, hloop, hrepo⟩
    · intro other hother
      obtain ⟨found, hfound, hmem⟩ :=
        (h.recorded.wanted repoRoot other hother).resolve_right (hnone _)
      rw [hget] at hfound
      cases hfound
      exact hmem
    · exact h.scheduled.fetches repoRoot schedule hget
  · intro hidle fiber loop hloop heq
    -- The loop has a schedule, and the schedule a workspace that is wanted.
    obtain ⟨schedule, hget, -⟩ := hlive fiber loop hloop
    obtain ⟨_, -, -, wid, hmem, -⟩ := h.scheduled.loop hget
    exact hidle ⟨wid, heq ▸ (h.recorded.repo _ schedule hget wid hmem).2⟩

/-- **One loop for each repository.** In a calm run, once no call waits, every repository
has the loop that its workspaces need. -/
theorem settled_of_calm (worktree : String → Option String) (commonDir : String → String)
    (events : List FetchEvent) (hcalm : RunMeets step (Calm worktree commonDir) initial events) :
    ∀ s ∈ visited step initial events, s.calls = [] →
      ∀ repoRoot, s.Settled worktree commonDir repoRoot := by
  intro s hs
  have hkept := invariant_visited (fun event s h hok => Kept.step h hok) kept_initial hcalm s hs
  exact hkept.settled

def worktreeOf : String → Option String
  | "first" => some "/first"
  | "second" => some "/second"
  | _ => none

def joined : List FetchEvent :=
  [.startFetching "first" (some "/first"),
    .repoRootResolved "first" "/first" (some "/repo/.git"),
    .fetchHeadResolved "first" "/first" "/repo/.git",
    .startFetching "second" (some "/second"),
    .repoRootResolved "second" "/second" (some "/repo/.git"),
    .stopFetching "second"]

theorem settled_joined :
    (finalState step initial joined).Settled worktreeOf (fun _ => "/repo/.git") "/repo/.git" :=
  settled_of_calm worktreeOf (fun _ => "/repo/.git") joined (by decide) _
    (finalState_mem_visited _ _) (by decide) "/repo/.git"

def overlapping : List FetchEvent :=
  [.startFetching "first" (some "/first"),
    .startFetching "second" (some "/second"),
    .repoRootResolved "first" "/first" (some "/repo/.git"),
    .repoRootResolved "second" "/second" (some "/repo/.git"),
    .fetchHeadResolved "first" "/first" "/repo/.git",
    .fetchHeadResolved "second" "/second" "/repo/.git"]

theorem not_settled_overlapping : (finalState step initial overlapping).calls = [] ∧
    ¬ (finalState step initial overlapping).Settled worktreeOf (fun _ => "/repo/.git")
      "/repo/.git" := by
  refine ⟨by decide, fun h => ?_⟩
  obtain ⟨fiber, hserves⟩ := h.running ⟨"first", rfl, rfl⟩
  have hfirst : 0 = fiber :=
    (hserves.only 0).mp ⟨{ worktreePath := "/first", repoRoot := "/repo/.git" }, by decide, rfl⟩
  have hsecond : 1 = fiber :=
    (hserves.only 1).mp ⟨{ worktreePath := "/second", repoRoot := "/repo/.git" }, by decide, rfl⟩
  exact absurd (hfirst.trans hsecond.symm) (by decide)

end BackgroundFetch

end Laborer.Worktrees
