import Laborer.Worktrees.BranchStateTracker
import Laborer.Library.Runs

/-!
# Refreshes of branches

A worktree is settled where its stored branch is the one that git reports, or a refresh
has it ahead. While no refresh is done with a worktree that is not settled without it, the
stored branches are the reported ones once no refresh is under way.
-/

namespace Laborer.Worktrees

open List Function

/-! ## Targets and answers -/

/-- The main checkout, or the worktree of a workspace. -/
def RefreshTarget.workspaceId : RefreshTarget → Option String
  | .root _ => none
  | .workspace listed => some listed.id

/-- The branch that the refresh gets with this answer, if it does not ask once more. -/
def BranchRead.result : BranchRead → Option (Option String)
  | .asking => none
  | .answered abbrevRef => if abbrevRef = some "HEAD" then none else some abbrevRef
  | .askingSha => none
  | .answeredSha sha => some (detachedBranch sha)

namespace BranchStateTracker

/-! ## Worktrees ahead of a refresh -/

/-- What a refresh knows of HEAD is what HEAD is. -/
def RightRead (head : WorktreeHead) : BranchRead → Prop
  | .asking => True
  | .answered abbrevRef => abbrevRef = head.abbrevRef
  | .askingSha => head.abbrevRef = some "HEAD"
  | .answeredSha sha => head.abbrevRef = some "HEAD" ∧ sha = head.sha

instance decidableRightRead (head : WorktreeHead) : (read : BranchRead) →
    Decidable (RightRead head read)
  | .asking => isTrue trivial
  | .answered abbrevRef => inferInstanceAs (Decidable (abbrevRef = head.abbrevRef))
  | .askingSha => inferInstanceAs (Decidable (head.abbrevRef = some "HEAD"))
  | .answeredSha sha =>
    inferInstanceAs (Decidable (head.abbrevRef = some "HEAD" ∧ sha = head.sha))

/-- The refresh has the worktree ahead: it is yet to come, or git has not looked at its
HEAD before it moved. -/
def Ahead (head : WorktreeHead) (path : String) (id : Option String)
    (refresh : BranchRefresh) : Prop :=
  (∃ listed ∈ refresh.rest, some listed.id = id ∧ listed.worktreePath = path) ∨
    (refresh.target.workspaceId = id ∧ refresh.target.path = path ∧
      RightRead head refresh.read)

instance decidableAhead (head : WorktreeHead) (path : String) (id : Option String)
    (refresh : BranchRefresh) : Decidable (Ahead head path id refresh) :=
  inferInstanceAs (Decidable (_ ∨ _))

/-- Another refresh has the worktree ahead, or one is owed. -/
def ElseAhead (s : BranchStateTracker) (n : ℕ) (path : String) (id : Option String) : Prop :=
  s.owed = true ∨ ∃ m < s.nextRefresh, m ≠ n ∧
    ∃ refresh ∈ s.refreshes m, Ahead (s.heads path) path id refresh

instance decidableElseAhead (s : BranchStateTracker) (n : ℕ) (path : String)
    (id : Option String) : Decidable (s.ElseAhead n path id) :=
  inferInstanceAs (Decidable (_ ∨ _))

/-- The stored branch is the one that git reports, if it reports one. -/
def UpToDate (head : WorktreeHead) (stored : Option String) : Prop :=
  ∀ branch ∈ reportedBranch head, stored = some branch

instance decidableUpToDate (head : WorktreeHead) (stored : Option String) :
    Decidable (UpToDate head stored) :=
  inferInstanceAs (Decidable (∀ branch ∈ reportedBranch head, stored = some branch))

/-! ## The property -/

/-- Every stored branch is the one that git reports. -/
structure BranchesReported (s : BranchStateTracker) : Prop where
  root : UpToDate (s.heads s.project.rootPath) s.project.branchName
  workspaces : ∀ row ∈ s.workspaces,
    UpToDate (s.heads row.worktreePath) (some row.recordBranch)

/-! ## The condition -/

/-- The worktree is up to date, or a refresh other than this one has it ahead. -/
def SettledWithout (s : BranchStateTracker) (n : ℕ) (path : String)
    (id stored : Option String) : Prop :=
  UpToDate (s.heads path) stored ∨ s.ElseAhead n path id

instance decidableSettledWithout (s : BranchStateTracker) (n : ℕ) (path : String)
    (id stored : Option String) : Decidable (s.SettledWithout n path id stored) :=
  inferInstanceAs (Decidable (_ ∨ _))

/-- The refresh may be done with a worktree as it is stored. -/
def MaySkip (s : BranchStateTracker) (n : ℕ) : RefreshTarget → Prop
  | .root project => project.rootPath = s.project.rootPath →
      s.SettledWithout n s.project.rootPath none s.project.branchName
  | .workspace listed => ∀ row ∈ s.workspaces, row.id = listed.id →
      row.worktreePath = listed.worktreePath →
      s.SettledWithout n row.worktreePath (some row.id) (some row.recordBranch)

def MayWrite (s : BranchStateTracker) (n : ℕ) (branch : String) : RefreshTarget → Prop
  | .root _ => s.SettledWithout n s.project.rootPath none (some branch)
  | .workspace listed => ∀ row ∈ s.workspaces, row.id = listed.id →
      s.SettledWithout n row.worktreePath (some row.id) (some branch)

def MayFail (s : BranchStateTracker) (n : ℕ) (target : RefreshTarget)
    (rest : List ListedWorkspace) : Prop :=
  s.MaySkip n target ∧ ∀ listed ∈ rest, s.MaySkip n (.workspace listed)

def MayTake (s : BranchStateTracker) (n : ℕ) (refresh : BranchRefresh) (writeFails : Bool) :
    Option String → Prop
  | none => s.MaySkip n refresh.target
  | some branch =>
    match refresh.target with
    | .root project =>
      if some branch = project.branchName then s.MaySkip n (.root project)
      else if writeFails = false ∧ s.project.revision = project.revision then
        s.MayWrite n branch (.root project)
      else s.MayFail n (.root project) refresh.rest
    | .workspace listed =>
      if branch = listed.branchName then s.MaySkip n (.workspace listed)
      else if writeFails then s.MayFail n (.workspace listed) refresh.rest
      else s.MayWrite n branch (.workspace listed)

/-- No step leaves a worktree with a branch that is not the reported one, unless a refresh
that goes on has it ahead. -/
def Calm : BranchEvent → BranchStateTracker → Prop
  | .gitLooks n failed, s => failed = true → ∀ refresh ∈ s.refreshes n,
      refresh.read = .asking ∨ refresh.read = .askingSha → s.MaySkip n refresh.target
  | .gitAnswers n writeFails, s => ∀ refresh ∈ s.refreshes n, ∀ result ∈ refresh.read.result,
      s.MayTake n refresh writeFails result
  | .tasksWritten workspaces, s => ∀ row ∈ workspaces,
      (∃ old ∈ s.workspaces, old.listed = row.listed) ∨
        s.SettledWithout s.nextRefresh row.worktreePath (some row.id) (some row.recordBranch)
  | .projectWritten rootPath branchName, s =>
      (rootPath = s.project.rootPath ∧ branchName = s.project.branchName) ∨
        s.SettledWithout s.nextRefresh rootPath none branchName
  | .headMoved _ _, _ => True
  | .refreshBranches, _ => True

instance decidableMaySkip (s : BranchStateTracker) (n : ℕ) : (target : RefreshTarget) →
    Decidable (s.MaySkip n target)
  | .root project => inferInstanceAs (Decidable (project.rootPath = s.project.rootPath →
      s.SettledWithout n s.project.rootPath none s.project.branchName))
  | .workspace listed => inferInstanceAs (Decidable (∀ row ∈ s.workspaces,
      row.id = listed.id → row.worktreePath = listed.worktreePath →
      s.SettledWithout n row.worktreePath (some row.id) (some row.recordBranch)))

instance decidableMayWrite (s : BranchStateTracker) (n : ℕ) (branch : String) :
    (target : RefreshTarget) → Decidable (s.MayWrite n branch target)
  | .root _ => inferInstanceAs
      (Decidable (s.SettledWithout n s.project.rootPath none (some branch)))
  | .workspace listed => inferInstanceAs (Decidable (∀ row ∈ s.workspaces, row.id = listed.id →
      s.SettledWithout n row.worktreePath (some row.id) (some branch)))

instance decidableMayFail (s : BranchStateTracker) (n : ℕ) (target : RefreshTarget)
    (rest : List ListedWorkspace) : Decidable (s.MayFail n target rest) :=
  inferInstanceAs (Decidable (_ ∧ _))

def decidableMayTakeSome (s : BranchStateTracker) (n : ℕ) (writeFails : Bool)
    (branch : String) (rest : List ListedWorkspace) (read : BranchRead) :
    (target : RefreshTarget) →
    Decidable (s.MayTake n { target, read, rest } writeFails (some branch))
  | .root project =>
    inferInstanceAs (Decidable (if some branch = project.branchName then
        s.MaySkip n (.root project)
      else if writeFails = false ∧ s.project.revision = project.revision then
        s.MayWrite n branch (.root project)
      else s.MayFail n (.root project) rest))
  | .workspace listed =>
    inferInstanceAs (Decidable (if branch = listed.branchName then
        s.MaySkip n (.workspace listed)
      else if writeFails = true then s.MayFail n (.workspace listed) rest
      else s.MayWrite n branch (.workspace listed)))

instance decidableMayTake (s : BranchStateTracker) (n : ℕ) (refresh : BranchRefresh)
    (writeFails : Bool) : (branch : Option String) →
    Decidable (s.MayTake n refresh writeFails branch)
  | none => inferInstanceAs (Decidable (s.MaySkip n refresh.target))
  | some branch =>
    decidableMayTakeSome s n writeFails branch refresh.rest refresh.read refresh.target

instance decidableCalm : (event : BranchEvent) → (s : BranchStateTracker) →
    Decidable (Calm event s)
  | .gitLooks n failed, s => inferInstanceAs (Decidable (failed = true →
      ∀ refresh ∈ s.refreshes n, refresh.read = .asking ∨ refresh.read = .askingSha →
        s.MaySkip n refresh.target))
  | .gitAnswers n writeFails, s => inferInstanceAs (Decidable (∀ refresh ∈ s.refreshes n,
      ∀ result ∈ refresh.read.result, s.MayTake n refresh writeFails result))
  | .tasksWritten workspaces, s => inferInstanceAs (Decidable (∀ row ∈ workspaces,
      (∃ old ∈ s.workspaces, old.listed = row.listed) ∨
        s.SettledWithout s.nextRefresh row.worktreePath (some row.id) (some row.recordBranch)))
  | .projectWritten _ _, _ => inferInstanceAs (Decidable (_ ∨ _))
  | .headMoved _ _, _ => isTrue trivial
  | .refreshBranches, _ => isTrue trivial

/-! ## The invariant -/

def Settled (s : BranchStateTracker) (path : String) (id stored : Option String) : Prop :=
  s.SettledWithout s.nextRefresh path id stored

structure Kept (s : BranchStateTracker) : Prop where
  root : s.Settled s.project.rootPath none s.project.branchName
  workspaces : ∀ row ∈ s.workspaces,
    s.Settled row.worktreePath (some row.id) (some row.recordBranch)

variable {s s' : BranchStateTracker} {n : ℕ} {path : String} {id stored stored' : Option String}
  {refresh : BranchRefresh}

/-! ## One refresh goes on -/

structure Advances (s : BranchStateTracker) (n : ℕ) (s' : BranchStateTracker) : Prop where
  heads : s'.heads = s.heads
  owed : s'.owed = s.owed
  nextRefresh : s'.nextRefresh = s.nextRefresh
  others : ∀ m, m ≠ n → s'.refreshes m = s.refreshes m

theorem Advances.settled (h : Advances s n s') (helse : s.ElseAhead n path id) :
    s'.Settled path id stored := by
  right
  unfold ElseAhead at helse ⊢
  rw [h.heads, h.owed, h.nextRefresh]
  refine helse.imp_right ?_
  rintro ⟨m, hlt, hne, refresh, hrefresh, hahead⟩
  rw [← h.others m hne] at hrefresh
  exact ⟨m, hlt, Nat.ne_of_lt hlt, refresh, hrefresh, hahead⟩

theorem Advances.settled_or (h : Advances s n s')
    (hor : s.SettledWithout n path id stored) : s'.Settled path id stored := by
  rcases hor with hup | helse
  · left
    rw [h.heads]
    exact hup
  · exact h.settled helse

/-- A worktree whose branch is stored as before stays settled, if the refresh still has it
ahead or may be done with it. -/
theorem Advances.keep (h : Advances s n s') (hrefresh : s.refreshes n = some refresh)
    (hsettled : s.Settled path id stored)
    (hahead : Ahead (s.heads path) path id refresh →
      (∃ later ∈ s'.refreshes n, Ahead (s.heads path) path id later) ∨
        s.SettledWithout n path id stored) : s'.Settled path id stored := by
  rcases hsettled with hup | howed | ⟨m, hlt, -, other, hother, hm⟩
  · exact h.settled_or (.inl hup)
  · exact h.settled (.inl howed)
  · by_cases hne : m = n
    · subst hne
      rw [hrefresh] at hother
      cases hother
      rcases hahead hm with ⟨later, hlater, hnext⟩ | hor
      · right
        unfold ElseAhead
        rw [h.heads, h.nextRefresh]
        exact .inr ⟨m, hlt, Nat.ne_of_lt hlt, later, hlater, hnext⟩
      · exact h.settled_or hor
    · exact h.settled (.inr ⟨m, hlt, hne, other, hother, hm⟩)

theorem rightRead_startRead (head : WorktreeHead) : RightRead head (startRead head) := by
  unfold startRead
  split
  · next hmissing =>
    rw [hmissing]
    rfl
  · trivial

/-- The same refreshes of the same worktrees, with other rows. -/
structure SameRefreshes (s t : BranchStateTracker) : Prop where
  heads : t.heads = s.heads
  owed : t.owed = s.owed
  nextRefresh : t.nextRefresh = s.nextRefresh
  refreshes : t.refreshes = s.refreshes

theorem advances_next {t : BranchStateTracker} (h : SameRefreshes s t)
    (rest : List ListedWorkspace) : Advances s n (next n rest t) := by
  refine ⟨h.heads, h.owed, h.nextRefresh, fun m hne => ?_⟩
  unfold next
  dsimp only
  rw [update_of_ne hne, h.refreshes]

theorem advances_setRead (refresh : BranchRefresh) (read : BranchRead) :
    Advances s n (setRead n refresh read s) := by
  refine ⟨rfl, rfl, rfl, fun m hne => ?_⟩
  unfold setRead
  dsimp only
  rw [update_of_ne hne]

theorem advances_branchRefreshFailed : Advances s n (s.branchRefreshFailed n) := by
  refine ⟨rfl, rfl, rfl, fun m hne => ?_⟩
  unfold branchRefreshFailed
  dsimp only
  rw [update_of_ne hne]

theorem ahead_next {t : BranchStateTracker} (h : SameRefreshes s t) {rest : List ListedWorkspace}
    (hmem : ∃ listed ∈ rest, some listed.id = id ∧ listed.worktreePath = path) :
    ∃ later ∈ (next n rest t).refreshes n, Ahead (s.heads path) path id later := by
  obtain ⟨listed, hlisted, hid, hpath⟩ := hmem
  cases rest with
  | nil => cases hlisted
  | cons workspace rest =>
    refine ⟨_, update_self _ _ _, ?_⟩
    rcases mem_cons.mp hlisted with rfl | hlisted
    · refine .inr ⟨hid, hpath, ?_⟩
      rw [h.heads, hpath]
      exact rightRead_startRead _
    · exact .inl ⟨listed, hlisted, hid, hpath⟩

theorem settled_next {t : BranchStateTracker} (h : SameRefreshes s t)
    (hrefresh : s.refreshes n = some refresh) (hsettled : s.Settled path id stored)
    (hdone : refresh.target.workspaceId = id → refresh.target.path = path →
      s.SettledWithout n path id stored) :
    (next n refresh.rest t).Settled path id stored := by
  apply (advances_next h refresh.rest).keep hrefresh hsettled
  rintro (hrest | ⟨hid, hpath, -⟩)
  · exact .inl (ahead_next h hrest)
  · exact .inr (hdone hid hpath)

namespace MaySkip

variable {target : RefreshTarget} (h : s.MaySkip n target)
include h

theorem root (hid : target.workspaceId = none) (hpath : target.path = s.project.rootPath) :
    s.SettledWithout n s.project.rootPath none s.project.branchName := by
  cases target with
  | root project => exact h hpath
  | workspace listed => cases hid

theorem row {row : WorkspaceRow} (hrow : row ∈ s.workspaces)
    (hid : target.workspaceId = some row.id) (hpath : target.path = row.worktreePath) :
    s.SettledWithout n row.worktreePath (some row.id) (some row.recordBranch) := by
  cases target with
  | root project => cases hid
  | workspace listed => exact h row hrow (Option.some.inj hid).symm hpath.symm

end MaySkip

namespace Kept

section

variable (h : s.Kept)
include h

section

variable (hrefresh : s.refreshes n = some refresh)
include hrefresh

theorem skip (hskip : s.MaySkip n refresh.target) :
    (BranchStateTracker.next n refresh.rest s).Kept where
  root := settled_next ⟨rfl, rfl, rfl, rfl⟩ hrefresh h.root hskip.root
  workspaces := fun row hrow =>
    settled_next ⟨rfl, rfl, rfl, rfl⟩ hrefresh (h.workspaces row hrow) (hskip.row hrow)

theorem writeRoot {project : ProjectRow} {branch : String}
    (htarget : refresh.target = .root project)
    (hwrite : s.MayWrite n branch (.root project)) :
    (BranchStateTracker.next n refresh.rest
      { s with
        project :=
          { s.project with
            branchName := some branch, revision := s.project.revision + 1 } }).Kept := by
  refine ⟨(advances_next ⟨rfl, rfl, rfl, rfl⟩ refresh.rest).settled_or hwrite, fun row hrow => ?_⟩
  refine settled_next ⟨rfl, rfl, rfl, rfl⟩ hrefresh (h.workspaces row hrow) fun hid _ => ?_
  rw [htarget] at hid
  cases hid

theorem writeWorkspace {listed : ListedWorkspace} {branch : String}
    (htarget : refresh.target = .workspace listed)
    (hwrite : s.MayWrite n branch (.workspace listed)) :
    (BranchStateTracker.next n refresh.rest (writeBranch listed.id branch s)).Kept := by
  have hsame : SameRefreshes s (writeBranch listed.id branch s) := ⟨rfl, rfl, rfl, rfl⟩
  refine ⟨settled_next hsame hrefresh h.root fun hid _ => ?_, fun row' hrow' => ?_⟩
  · rw [htarget] at hid
    cases hid
  · obtain ⟨row, hrow, rfl⟩ := mem_map.mp hrow'
    by_cases hid : row.id = listed.id
    · rw [if_pos hid]
      exact (advances_next hsame refresh.rest).settled_or (hwrite row hrow hid)
    · rw [if_neg hid]
      refine settled_next hsame hrefresh (h.workspaces row hrow) fun hother _ => ?_
      rw [htarget] at hother
      exact absurd (Option.some.inj hother).symm hid

theorem fail (hfail : s.MayFail n refresh.target refresh.rest) :
    (s.branchRefreshFailed n).Kept := by
  obtain ⟨hskip, hrest⟩ := hfail
  refine ⟨advances_branchRefreshFailed.keep hrefresh h.root ?_, fun row hrow =>
    advances_branchRefreshFailed.keep hrefresh (h.workspaces row hrow) ?_⟩
  · rintro (⟨listed, -, hid, -⟩ | ⟨hid, hpath, -⟩)
    · cases hid
    · exact .inr (hskip.root hid hpath)
  · rintro (⟨listed, hlisted, hid, hpath⟩ | ⟨hid, hpath, -⟩)
    · exact .inr ((hrest listed hlisted).row hrow hid hpath)
    · exact .inr (hskip.row hrow hid hpath)

theorem currentBranch {writeFails : Bool} {branch : Option String}
    (htake : s.MayTake n refresh writeFails branch) :
    (s.currentBranch n refresh writeFails branch).Kept := by
  unfold BranchStateTracker.currentBranch
  cases branch with
  | none => exact h.skip hrefresh htake
  | some branch =>
    unfold MayTake at htake
    cases htarget : refresh.target with
    | root project =>
      rw [htarget] at htake
      dsimp only at htake ⊢
      split at htake
      · next heq =>
        rw [if_pos heq]
        exact h.skip hrefresh (htarget ▸ htake)
      · next hne =>
        rw [if_neg hne]
        split at htake
        · next hwrites =>
          rw [if_pos hwrites]
          exact h.writeRoot hrefresh htarget htake
        · next hfails =>
          rw [if_neg hfails]
          exact h.fail hrefresh (htarget ▸ htake)
    | workspace listed =>
      rw [htarget] at htake
      dsimp only at htake ⊢
      split at htake
      · next heq =>
        rw [if_pos heq]
        exact h.skip hrefresh (htarget ▸ htake)
      · next hne =>
        rw [if_neg hne]
        split at htake
        · next hfails =>
          rw [if_pos hfails]
          exact h.fail hrefresh (htarget ▸ htake)
        · next hwrites =>
          rw [if_neg hwrites]
          exact h.writeWorkspace hrefresh htarget htake

theorem setRead {read : BranchRead}
    (hright : (RightRead (s.heads refresh.target.path) refresh.read →
        RightRead (s.heads refresh.target.path) read) ∨ s.MaySkip n refresh.target) :
    (BranchStateTracker.setRead n refresh read s).Kept := by
  have hadvances : Advances s n (BranchStateTracker.setRead n refresh read s) :=
    advances_setRead refresh read
  have hself : { refresh with read } ∈ (BranchStateTracker.setRead n refresh read s).refreshes n :=
    update_self _ _ _
  refine ⟨hadvances.keep hrefresh h.root ?_, fun row hrow =>
    hadvances.keep hrefresh (h.workspaces row hrow) ?_⟩
  · rintro (hrest | ⟨hid, hpath, hread⟩)
    · exact .inl ⟨_, hself, .inl hrest⟩
    · rw [← hpath] at hread ⊢
      rcases hright with hright | hskip
      · exact .inl ⟨_, hself, .inr ⟨hid, rfl, hright hread⟩⟩
      · rw [hpath]
        exact .inr (hskip.root hid hpath)
  · rintro (hrest | ⟨hid, hpath, hread⟩)
    · exact .inl ⟨_, hself, .inl hrest⟩
    · rw [← hpath] at hread ⊢
      rcases hright with hright | hskip
      · exact .inl ⟨_, hself, .inr ⟨hid, rfl, hright hread⟩⟩
      · rw [hpath]
        exact .inr (hskip.row hrow hid hpath)

end

theorem gitLooks {failed : Bool} (hcalm : failed = true → ∀ refresh ∈ s.refreshes n,
    refresh.read = .asking ∨ refresh.read = .askingSha → s.MaySkip n refresh.target) :
    (s.gitLooks n failed).Kept := by
  unfold BranchStateTracker.gitLooks
  cases hrefresh : s.refreshes n with
  | none => exact h
  | some refresh =>
    dsimp only
    cases hread : refresh.read with
    | asking =>
      refine h.setRead hrefresh ?_
      cases failed with
      | true => exact .inr (hcalm rfl refresh hrefresh (.inl hread))
      | false => exact .inl fun _ => rfl
    | askingSha =>
      refine h.setRead hrefresh ?_
      cases failed with
      | true => exact .inr (hcalm rfl refresh hrefresh (.inr hread))
      | false =>
        left
        rw [hread]
        exact fun hhead => ⟨hhead, rfl⟩
    | answered abbrevRef => exact h
    | answeredSha sha => exact h

theorem gitAnswers {writeFails : Bool} (hcalm : ∀ refresh ∈ s.refreshes n,
    ∀ result ∈ refresh.read.result, s.MayTake n refresh writeFails result) :
    (s.gitAnswers n writeFails).Kept := by
  unfold BranchStateTracker.gitAnswers
  cases hrefresh : s.refreshes n with
  | none => exact h
  | some refresh =>
    have htake := hcalm refresh hrefresh
    dsimp only
    cases hread : refresh.read with
    | asking => exact h
    | askingSha => exact h
    | answered abbrevRef =>
      rw [hread] at htake
      dsimp only
      split
      · next hhead =>
        refine h.setRead hrefresh (.inl ?_)
        rw [hread, hhead]
        exact fun hright => hright.symm
      · next hhead =>
        apply h.currentBranch hrefresh
        apply htake
        exact if_neg hhead
    | answeredSha sha =>
      rw [hread] at htake
      exact h.currentBranch hrefresh (htake _ rfl)

theorem tasksWritten {workspaces : List WorkspaceRow} (hcalm : ∀ row ∈ workspaces,
    (∃ old ∈ s.workspaces, old.listed = row.listed) ∨
      s.SettledWithout s.nextRefresh row.worktreePath (some row.id) (some row.recordBranch)) :
    (s.tasksWritten workspaces).Kept := by
  refine ⟨h.root, fun row hrow => ?_⟩
  rcases hcalm row hrow with ⟨old, hold, heq⟩ | hsettled
  · have hsettled := h.workspaces old hold
    have hid : old.id = row.id := congrArg ListedWorkspace.id heq
    have hpath : old.worktreePath = row.worktreePath := congrArg ListedWorkspace.worktreePath heq
    have hbranch : old.recordBranch = row.recordBranch := congrArg ListedWorkspace.branchName heq
    rw [hid, hpath, hbranch] at hsettled
    exact hsettled
  · exact hsettled

theorem projectWritten {rootPath : String} {branchName : Option String}
    (hcalm : (rootPath = s.project.rootPath ∧ branchName = s.project.branchName) ∨
      s.SettledWithout s.nextRefresh rootPath none branchName) :
    (s.projectWritten rootPath branchName).Kept := by
  refine ⟨?_, h.workspaces⟩
  rcases hcalm with ⟨rfl, rfl⟩ | hsettled
  · exact h.root
  · exact hsettled

end

/-! ## Refreshes that begin -/

/-- The new refresh has every worktree ahead. -/
theorem refreshBranches (s : BranchStateTracker) : s.refreshBranches.Kept := by
  have hahead : ∀ {path : String} {id stored : Option String}, Ahead (s.heads path) path id
        { target := .root s.project
          read := startRead (s.heads s.project.rootPath)
          rest := s.workspaces.map WorkspaceRow.listed } →
      s.refreshBranches.Settled path id stored := by
    intro path id stored h
    exact .inr (.inr ⟨s.nextRefresh, Nat.lt_succ_self _, Nat.ne_of_lt (Nat.lt_succ_self _), _,
      update_self _ _ _, h⟩)
  refine ⟨hahead (.inr ⟨rfl, rfl, rightRead_startRead _⟩), fun row hrow => ?_⟩
  exact hahead (.inl ⟨row.listed, mem_map_of_mem hrow, rfl, rfl⟩)

theorem step {event : BranchEvent} (h : s.Kept) (hcalm : Calm event s) :
    (BranchStateTracker.step event s).Kept := by
  cases event with
  | headMoved path head => exact ⟨.inr (.inl rfl), fun _ _ => .inr (.inl rfl)⟩
  | refreshBranches => exact refreshBranches s
  | gitLooks n failed => exact h.gitLooks hcalm
  | gitAnswers n writeFails => exact h.gitAnswers hcalm
  | tasksWritten workspaces => exact h.tasksWritten hcalm
  | projectWritten rootPath branchName => exact h.projectWritten hcalm

end Kept

/-! ## Runs -/

/-- A project before anything was refreshed: its branches are the reported ones, or a
refresh is owed. -/
structure Initial (s : BranchStateTracker) : Prop where
  refreshes : ∀ n, s.refreshes n = none
  reported : s.owed = true ∨ s.BranchesReported

theorem Initial.kept (h : s.Initial) : s.Kept := by
  rcases h.reported with howed | hreported
  · exact ⟨.inr (.inl howed), fun _ _ => .inr (.inl howed)⟩
  · exact ⟨.inl hreported.root, fun row hrow => .inl (hreported.workspaces row hrow)⟩

theorem Kept.reported (h : s.Kept) (howed : s.owed = false) (hdone : ∀ n, s.refreshes n = none) :
    s.BranchesReported := by
  have hnobody : ∀ path id, ¬ s.ElseAhead s.nextRefresh path id := by
    rintro path id (hyes | ⟨m, -, -, refresh, hrefresh, -⟩)
    · rw [howed] at hyes
      cases hyes
    · rw [hdone m] at hrefresh
      cases hrefresh
  exact ⟨h.root.resolve_right (hnobody _ _),
    fun row hrow => (h.workspaces row hrow).resolve_right (hnobody _ _)⟩

/-- **The stored branches are the reported ones.** In a calm run, in every state in which
no refresh is owed or under way. -/
theorem branchesReported_of_calm (s : BranchStateTracker) (hinit : s.Initial)
    (events : List BranchEvent) (hcalm : Library.RunMeets step Calm s events) :
    ∀ t ∈ Library.visited step s events, t.owed = false → (∀ n, t.refreshes n = none) →
      t.BranchesReported := by
  intro t ht
  have hstep : ∀ (event : BranchEvent) (s : BranchStateTracker), s.Kept → Calm event s →
      (step event s).Kept := fun event s h hok => h.step hok
  exact (Library.invariant_visited hstep hinit.kept hcalm t ht).reported

def oneWorkspace : BranchStateTracker where
  project := { rootPath := "/project", branchName := some "main", revision := 1 }
  workspaces :=
    [{ id := "task", worktreePath := "/worktree", branchName := some "main", title := "Task"
       revision := 1 }]
  heads := fun _ => .checkedOut "main" "0123456789"
  refreshes := fun _ => none
  nextRefresh := 0
  owed := false

theorem oneWorkspace_initial : oneWorkspace.Initial :=
  ⟨fun _ => rfl, .inr ⟨by decide, by decide⟩⟩

/-- While a refresh reads that HEAD has moved, a workspace is bound on the branch that its
worktree has, and the tasks and the project are written. -/
def writtenMeanwhile : List BranchEvent :=
  [.headMoved "/worktree" (.checkedOut "feature" "0123456789"), .refreshBranches,
    .tasksWritten
      [{ id := "task", worktreePath := "/worktree", branchName := some "main", title := "Other"
         revision := 2 },
        { id := "bound", worktreePath := "/bound", branchName := some "main", title := "Bound"
          revision := 1 }],
    .projectWritten "/project" (some "main"), .gitLooks 0 false, .gitAnswers 0 false,
    .gitLooks 0 false, .gitAnswers 0 false]

theorem refreshes_writtenMeanwhile (n : ℕ) :
    (Library.finalState step oneWorkspace writtenMeanwhile).refreshes n = none := by
  cases n with
  | zero => rfl
  | succ n => rfl

theorem branchesReported_writtenMeanwhile :
    (Library.finalState step oneWorkspace writtenMeanwhile).BranchesReported :=
  branchesReported_of_calm oneWorkspace oneWorkspace_initial writtenMeanwhile (by decide) _
    (Library.finalState_mem_visited _ _) (by decide) refreshes_writtenMeanwhile

/-- HEAD moves while a refresh waits for the answer of git, and the next refresh is faster. -/
def overtaken : List BranchEvent :=
  [.headMoved "/worktree" (.checkedOut "first" "0123456789"), .refreshBranches,
    .gitLooks 0 false, .gitAnswers 0 false, .gitLooks 0 false,
    .headMoved "/worktree" (.checkedOut "second" "0123456789"), .refreshBranches,
    .gitLooks 1 false, .gitAnswers 1 false, .gitLooks 1 false, .gitAnswers 1 false,
    .gitAnswers 0 false]

theorem not_branchesReported_overtaken :
    let s := Library.finalState step oneWorkspace overtaken
    s.owed = false ∧ s.nextRefresh = 2 ∧ s.refreshes 0 = none ∧ s.refreshes 1 = none ∧
      ¬ s.BranchesReported := by
  intro s
  refine ⟨by decide, by decide, by decide, by decide, fun h => ?_⟩
  have hrow := h.workspaces
    { id := "task", worktreePath := "/worktree", branchName := some "first", title := "Task"
      revision := 3 } (by decide)
  have hbranch : some "first" = some "second" := hrow "second" (by decide)
  revert hbranch
  decide

end BranchStateTracker

end Laborer.Worktrees
