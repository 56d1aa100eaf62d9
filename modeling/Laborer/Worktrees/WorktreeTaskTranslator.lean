import Laborer.Files.FileService

/-!
# Adopting worktrees as tasks

The worktrees of a repository that have no task yet are offered to the database one after the
other, each when its base branch has a task or nobody who waits has checked it out. When all wait
for each other the first of them goes.
-/

namespace Laborer.Worktrees

open Library List Relation

structure TranslatableWorktree where
  baseBranch : Option String
  baseSha : Option String
  branch : Option String
  canonicalPath : String
  path : String
deriving DecidableEq

/-- A worktree with the id made for it and the task that the database answers with, which is none
where it refuses the worktree. -/
structure Candidate where
  worktree : TranslatableWorktree
  ulid : String
  task : Option String
deriving DecidableEq

/-- What `adoptWorktreeTask` is given. -/
structure WorktreeAdoption where
  baseBranch : Option String
  baseSha : Option String
  branchName : Option String
  id : String
  parentTaskId : Option String
  rootPath : String
  title : String
  worktreePath : String
  worktreePathAliases : List String
deriving DecidableEq

structure Adoptions where
  adopted : ℕ
  taskIdsByBranch : OrderedMap String String
  offers : List (Candidate × WorktreeAdoption)

def isReady (pending : List Candidate) (taskIdsByBranch : OrderedMap String String)
    (candidate : Candidate) : Bool :=
  candidate.worktree.baseBranch.all fun base =>
    (taskIdsByBranch.get? base).isSome || !pending.any (·.worktree.branch = some base)

def readyWorktreeIndex (pending : List Candidate) (taskIdsByBranch : OrderedMap String String) :
    ℕ :=
  (pending.findIdx? (isReady pending taskIdsByBranch)).getD 0

/-- The input of the adoption, whose parent is the task of the base branch. -/
def adoptionInput (rootPath : String) (taskIdsByBranch : OrderedMap String String)
    (candidate : Candidate) : WorktreeAdoption :=
  let worktree := candidate.worktree
  let parentTaskId := worktree.baseBranch.bind taskIdsByBranch.get?
  { baseBranch := if parentTaskId = none then none else worktree.baseBranch
    baseSha := worktree.baseSha
    branchName := worktree.branch
    id := candidate.ulid
    parentTaskId := parentTaskId
    rootPath := rootPath
    title := worktree.branch.getD (String.ofList (Files.basename worktree.canonicalPath.toList))
    worktreePath := worktree.canonicalPath
    worktreePathAliases := [worktree.path] }

/-- What the loop does with the worktree that it has taken. -/
def adoptWorktree (rootPath : String) (candidate : Candidate) (pass : Adoptions) : Adoptions where
  adopted := if candidate.task.isSome then pass.adopted + 1 else pass.adopted
  taskIdsByBranch :=
    match candidate.task, candidate.worktree.branch with
    | some id, some branch => pass.taskIdsByBranch.set branch id
    | _, _ => pass.taskIdsByBranch
  offers := pass.offers ++ [(candidate, adoptionInput rootPath pass.taskIdsByBranch candidate)]

def adoptPending (rootPath : String) : ℕ → List Candidate → Adoptions → Adoptions
  | 0, _, pass => pass
  | rounds + 1, pending, pass =>
    let index := readyWorktreeIndex pending pass.taskIdsByBranch
    match pending[index]? with
    | none => pass
    | some candidate =>
      adoptPending rootPath rounds (pending.eraseIdx index) (adoptWorktree rootPath candidate pass)

def adoptWorktrees (rootPath : String) (parentTaskIdsByBranch : OrderedMap String String)
    (worktrees : List Candidate) : Adoptions :=
  adoptPending rootPath worktrees.length worktrees
    { adopted := 0, taskIdsByBranch := parentTaskIdsByBranch, offers := [] }

/-! ## The pick -/

variable {rootPath : String} {live taskIdsByBranch : OrderedMap String String}
  {worktrees pending before after : List Candidate} {candidate : Candidate} {pass : Adoptions}

/-- The worktree behind `before` is taken: it is ready, or none is and it is the first. -/
def Takes (before after : List Candidate) (taskIdsByBranch : OrderedMap String String)
    (candidate : Candidate) : Prop :=
  isReady (before ++ candidate :: after) taskIdsByBranch candidate = true ∨
    before = [] ∧ ∀ other ∈ candidate :: after,
      isReady (candidate :: after) taskIdsByBranch other = false

theorem readyWorktreeIndex_takes (taskIdsByBranch : OrderedMap String String) (h : pending ≠ []) :
    ∃ before candidate after, pending = before ++ candidate :: after ∧
      readyWorktreeIndex pending taskIdsByBranch = before.length ∧
        Takes before after taskIdsByBranch candidate := by
  unfold readyWorktreeIndex
  cases hfind : pending.findIdx? (isReady pending taskIdsByBranch) with
  | none =>
    obtain ⟨first, rest, rfl⟩ := exists_cons_of_ne_nil h
    exact ⟨[], first, rest, rfl, rfl, .inr ⟨rfl, findIdx?_eq_none_iff.mp hfind⟩⟩
  | some index =>
    obtain ⟨hlt, hready, -⟩ := findIdx?_eq_some_iff_getElem.mp hfind
    have hsplit : pending = pending.take index ++ pending[index] :: pending.drop (index + 1) := by
      rw [getElem_cons_drop, take_append_drop]
    refine ⟨_, _, _, hsplit, ?_, .inl ?_⟩
    · simp [hlt.le]
    · rwa [← hsplit]

theorem adoptPending_keeps {Inv : List Candidate → Adoptions → Prop}
    (hstep : ∀ before candidate after pass, Inv (before ++ candidate :: after) pass →
      Takes before after pass.taskIdsByBranch candidate →
        Inv (before ++ after) (adoptWorktree rootPath candidate pass))
    (h : Inv pending pass) : Inv [] (adoptPending rootPath pending.length pending pass) := by
  induction hrounds : pending.length generalizing pending pass with
  | zero =>
    rw [length_eq_zero_iff] at hrounds
    rwa [hrounds] at h
  | succ rounds ih =>
    obtain ⟨before, candidate, after, rfl, hindex, htakes⟩ :=
      readyWorktreeIndex_takes pass.taskIdsByBranch (ne_nil_of_length_eq_add_one hrounds)
    simp only [adoptPending, hindex, getElem?_append_right, le_refl, Nat.sub_self,
      getElem?_cons_zero]
    have herase : (before ++ candidate :: after).eraseIdx before.length = before ++ after := by
      simp [eraseIdx_append_of_length_le]
    rw [herase]
    exact ih (hstep before candidate after pass h htakes) (by simp at hrounds ⊢; omega)

/-! ## What is recorded -/

/-- The branch has the task, as that of a live workspace or as that of one of the worktrees. -/
def HasTask (live : OrderedMap String String) (worktrees : List Candidate) (branch id : String) :
    Prop :=
  live.get? branch = some id ∨
    ∃ candidate ∈ worktrees, candidate.worktree.branch = some branch ∧ candidate.task = some id

/-- Each parent has a task from before the pass or from an earlier offer. -/
def ParentsExist (live : OrderedMap String String) (offers : List (Candidate × WorktreeAdoption)) :
    Prop :=
  ∀ earlier offer, earlier ++ [offer] <+: offers → ∀ id ∈ offer.2.parentTaskId,
    ∃ branch, HasTask live (earlier.map Prod.fst) branch id

theorem get?_adoptWorktree (branch : String) :
    (adoptWorktree rootPath candidate pass).taskIdsByBranch.get? branch =
      if candidate.worktree.branch = some branch then
        candidate.task.or (pass.taskIdsByBranch.get? branch)
      else pass.taskIdsByBranch.get? branch := by
  obtain ⟨⟨_, _, other, _, _⟩, _, task⟩ := candidate
  cases task <;> cases other <;> simp [adoptWorktree, OrderedMap.get?_set]

structure Recorded (live : OrderedMap String String) (worktrees pending : List Candidate)
    (pass : Adoptions) : Prop where
  perm : (pass.offers.map Prod.fst ++ pending).Perm worktrees
  sublist : pending <+ worktrees
  counted : pass.adopted = (pass.offers.map Prod.fst).countP (·.task.isSome)
  found : ∀ branch id, pass.taskIdsByBranch.get? branch = some id →
    HasTask live (pass.offers.map Prod.fst) branch id
  missing : ∀ branch, pass.taskIdsByBranch.get? branch = none →
    ∀ id, ¬HasTask live (pass.offers.map Prod.fst) branch id
  existing : ParentsExist live pass.offers

theorem recorded_initial (live : OrderedMap String String) (worktrees : List Candidate) :
    Recorded live worktrees worktrees { adopted := 0, taskIdsByBranch := live, offers := [] } where
  perm := .refl _
  sublist := .refl _
  counted := rfl
  found := fun _ _ h => .inl h
  missing := fun _ h => by simp [HasTask, h]
  existing := fun earlier offer h => absurd (prefix_nil.mp h) (by simp)

theorem Recorded.adopt (h : Recorded live worktrees (before ++ candidate :: after) pass) :
    Recorded live worktrees (before ++ after) (adoptWorktree rootPath candidate pass) where
  perm := by
    refine Perm.trans ?_ h.perm
    simp only [adoptWorktree, map_append, map_cons, map_nil, append_assoc, singleton_append]
    exact (perm_middle (a := candidate)).symm.append_left _
  sublist := ((sublist_cons_self candidate after).append_left before).trans h.sublist
  counted := by
    cases htask : candidate.task <;> simp [adoptWorktree, h.counted, htask]
  found := by
    intro branch id hget
    have hold := h.found branch id
    rw [get?_adoptWorktree] at hget
    simp only [HasTask, adoptWorktree, map_append, mem_append] at hold ⊢
    split at hget
    · next hbranch =>
      cases htask : candidate.task with
      | none => grind
      | some task => exact .inr ⟨candidate, .inr (by simp), hbranch, by simpa [htask] using hget⟩
    · grind
  missing := by
    intro branch hget id hhas
    have hold := h.missing branch
    rw [get?_adoptWorktree] at hget
    simp only [HasTask, adoptWorktree, map_append, mem_append, map_cons, map_nil, mem_singleton]
      at hold hhas
    grind
  existing := by
    intro earlier offer hprefix id hid
    rcases prefix_concat_iff.mp hprefix with heq | hold
    · obtain ⟨rfl, hlast⟩ := append_inj' heq rfl
      rw [singleton_inj.mp hlast] at hid
      obtain ⟨base, -, hget⟩ := Option.bind_eq_some_iff.mp hid
      exact ⟨base, h.found base id hget⟩
    · exact h.existing earlier offer hold id hid

/-! ## Worktrees that wait for each other -/

/-- The second has the base branch of the first. -/
def LinksTo (worktrees : List Candidate) (candidate other : Candidate) : Prop :=
  candidate ∈ worktrees ∧ other ∈ worktrees ∧
    ∃ base ∈ candidate.worktree.baseBranch, other.worktree.branch = some base

def OnCycle (worktrees : List Candidate) (candidate : Candidate) : Prop :=
  TransGen (LinksTo worktrees) candidate candidate

/-- Each has a base branch that one of them has and for which there is no task: not of a live
workspace, and not of another worktree. -/
def WaitForEachOther (live : OrderedMap String String) (worktrees waiting : List Candidate) :
    Prop :=
  ∀ candidate ∈ waiting, ∃ base ∈ candidate.worktree.baseBranch,
    (∃ other ∈ waiting, other.worktree.branch = some base) ∧
      ∀ rest, worktrees.Perm (waiting ++ rest) → ∀ id, ¬HasTask live rest base id

/-- A worktree with a task whose base branch has a task is stored below that, where its links
form no cycle. -/
def Nested (live : OrderedMap String String) (worktrees : List Candidate)
    (offer : Candidate × WorktreeAdoption) : Prop :=
  offer.1.task ≠ none → ¬OnCycle worktrees offer.1 → ∀ base ∈ offer.1.worktree.baseBranch,
    (∃ id, HasTask live worktrees base id) → offer.2.baseBranch = some base ∧
      ∃ id, offer.2.parentTaskId = some id ∧ HasTask live worktrees base id

/-- The worktrees are all offered once, a parent is a task that there is, and each worktree is
stored below its base. -/
structure Adopts (live : OrderedMap String String) (worktrees : List Candidate) (pass : Adoptions) :
    Prop where
  once : (pass.offers.map Prod.fst).Perm worktrees
  counted : pass.adopted = worktrees.countP (·.task.isSome)
  existing : ParentsExist live pass.offers
  nested : ∀ offer ∈ pass.offers, Nested live worktrees offer

/-- No worktree that is to be stored comes before all that it waits with for each other, its
base branch being stored after it. -/
def NoneWaitsFirst (live : OrderedMap String String) (worktrees : List Candidate) : Prop :=
  ∀ first others, first :: others <+ worktrees →
    WaitForEachOther live worktrees (first :: others) → first.task ≠ none →
      ¬OnCycle worktrees first → ∀ other ∈ others, LinksTo worktrees first other → other.task = none

theorem HasTask.mono {others : List Candidate} {branch id : String}
    (h : HasTask live pending branch id) (hsub : pending ⊆ others) :
    HasTask live others branch id :=
  h.imp_right fun ⟨candidate, hmem, hhas⟩ => ⟨candidate, hsub hmem, hhas⟩

theorem isReady_eq_false_iff : isReady pending taskIdsByBranch candidate = false ↔
      ∃ base ∈ candidate.worktree.baseBranch, taskIdsByBranch.get? base = none ∧
        ∃ other ∈ pending, other.worktree.branch = some base := by
  unfold isReady
  cases candidate.worktree.baseBranch <;> simp

/-- When none is ready, all that are pending wait for each other. -/
theorem Recorded.wait (h : Recorded live worktrees pending pass)
    (hnone : ∀ other ∈ pending, isReady pending pass.taskIdsByBranch other = false) :
    WaitForEachOther live worktrees pending := by
  intro candidate hmem
  obtain ⟨base, hbase, hget, hother⟩ := isReady_eq_false_iff.mp (hnone candidate hmem)
  refine ⟨base, hbase, hother, fun rest hperm id hhas => ?_⟩
  have hrest : rest.Perm (pass.offers.map Prod.fst) :=
    (perm_append_left_iff pending).mp (hperm.symm.trans (h.perm.symm.trans perm_append_comm))
  exact h.missing base hget id (hhas.mono hrest.subset)

theorem Recorded.nested (h : Recorded live worktrees (before ++ candidate :: after) pass)
    (htakes : Takes before after pass.taskIdsByBranch candidate)
    (hfirst : NoneWaitsFirst live worktrees) :
    Nested live worktrees (candidate, adoptionInput rootPath pass.taskIdsByBranch candidate) := by
  intro htask hcycle base hbase ⟨id, hhas⟩
  have hbase' : candidate.worktree.baseBranch = some base := hbase
  have hget : pass.taskIdsByBranch.get? base ≠ none := by
    intro hget
    -- the worktree with the task has not been offered
    obtain ⟨other, hother, hbranch, htask'⟩ : ∃ other ∈ before ++ candidate :: after,
        other.worktree.branch = some base ∧ other.task = some id := by
      rcases hhas with hlive | ⟨other, hother, hboth⟩
      · exact absurd (.inl hlive) (h.missing base hget id)
      · refine ⟨other, ?_, hboth⟩
        exact (mem_append.mp (h.perm.mem_iff.mpr hother)).resolve_left fun hoffered =>
          h.missing base hget id (.inr ⟨other, hoffered, hboth⟩)
    have hlinks : LinksTo worktrees candidate other :=
      ⟨h.sublist.subset (by simp), h.sublist.subset hother, base, hbase, hbranch⟩
    rcases htakes with hready | ⟨rfl, hnone⟩
    · have hwaits := isReady_eq_false_iff.mpr ⟨base, hbase, hget, other, hother, hbranch⟩
      exact Bool.false_ne_true (hwaits.symm.trans hready)
    · rcases mem_cons.mp hother with rfl | hother
      · exact hcycle (.single hlinks)
      · have hnone' := hfirst candidate after h.sublist
          (h.wait hnone) htask hcycle other hother hlinks
        exact Option.some_ne_none id (htask'.symm.trans hnone')
  obtain ⟨found, hfound⟩ := Option.ne_none_iff_exists'.mp hget
  have hparent : candidate.worktree.baseBranch.bind pass.taskIdsByBranch.get? = some found := by
    simpa [hbase'] using hfound
  refine ⟨?_, found, hparent, (h.found base found hfound).mono fun other hother => ?_⟩
  · simp [adoptionInput, hbase', hget]
  · exact h.perm.mem_iff.mp (mem_append_left _ hother)

/-! ## Worktrees that go on waiting -/

variable {waiting others : List Candidate} {first : Candidate}

theorem WaitForEachOther.isReady_eq_false (h : WaitForEachOther taskIdsByBranch pending waiting)
    (hsub : waiting <+ pending) (hmem : candidate ∈ waiting) :
    isReady pending taskIdsByBranch candidate = false := by
  obtain ⟨base, hbase, ⟨other, hother, hbranch⟩, hrest⟩ := h candidate hmem
  obtain ⟨rest, hperm⟩ := hsub.exists_perm_append
  refine isReady_eq_false_iff.mpr ⟨base, hbase, ?_, other, hsub.subset hother, hbranch⟩
  refine Option.eq_none_iff_forall_ne_some.mpr fun id hget => hrest rest hperm id (.inl hget)

theorem HasTask.of_adoptWorktree {branch id : String}
    (h : HasTask (adoptWorktree rootPath candidate pass).taskIdsByBranch pending branch id) :
    HasTask pass.taskIdsByBranch (candidate :: pending) branch id := by
  rcases h with hget | ⟨other, hmem, hhas⟩
  · rw [get?_adoptWorktree] at hget
    split at hget
    · next hbranch =>
      rcases Option.or_eq_some_iff.mp hget with htask | ⟨-, hget⟩
      · exact .inr ⟨candidate, mem_cons_self, hbranch, htask⟩
      · exact .inl hget
    · exact .inl hget
  · exact .inr ⟨other, mem_cons_of_mem _ hmem, hhas⟩

theorem WaitForEachOther.adopt
    (h : WaitForEachOther pass.taskIdsByBranch (before ++ candidate :: after) waiting) :
    WaitForEachOther (adoptWorktree rootPath candidate pass).taskIdsByBranch (before ++ after)
      waiting := by
  intro member hmem
  obtain ⟨base, hbase, hother, hrest⟩ := h member hmem
  refine ⟨base, hbase, hother, fun rest hperm id hhas => ?_⟩
  have hnot := hrest (candidate :: rest)
    (perm_middle.trans ((hperm.cons candidate).trans perm_middle.symm))
  exact hnot id hhas.of_adoptWorktree

theorem sublist_append_of_not_mem (h : waiting <+ before ++ candidate :: after)
    (hmem : candidate ∉ waiting) : waiting <+ before ++ after := by
  obtain ⟨front, back, rfl, hfront, hback⟩ := sublist_append_iff.mp h
  rcases sublist_cons_iff.mp hback with hback | ⟨rest, rfl, -⟩
  · exact hfront.append hback
  · exact absurd (by simp) hmem

/-- The first of those that wait for each other is taken before the others and gets no parent. -/
theorem first_without_parent (rootPath : String) (hsub : first :: others <+ worktrees)
    (hwait : WaitForEachOther live worktrees (first :: others)) :
    ∃ offer ∈ (adoptWorktrees rootPath live worktrees).offers,
      offer.1 = first ∧ offer.2.parentTaskId = none := by
  let Inv : List Candidate → Adoptions → Prop := fun pending pass =>
    (∃ offer ∈ pass.offers, offer.1 = first ∧ offer.2.parentTaskId = none) ∨
      (first :: others <+ pending ∧ WaitForEachOther pass.taskIdsByBranch pending (first :: others))
  have hend : Inv [] (adoptWorktrees rootPath live worktrees) :=
    adoptPending_keeps ?_ (.inr ⟨hsub, hwait⟩)
  · exact hend.resolve_right fun h => absurd (sublist_nil.mp h.1) (by simp)
  intro before candidate after pass h htakes
  rcases h with ⟨offer, hmem, hoffer⟩ | ⟨hsub, hwait⟩
  · exact .inl ⟨offer, mem_append_left _ hmem, hoffer⟩
  rcases htakes with hready | ⟨rfl, -⟩
  · refine .inr ⟨sublist_append_of_not_mem hsub fun hmem => ?_, hwait.adopt⟩
    exact Bool.false_ne_true ((hwait.isReady_eq_false hsub hmem).symm.trans hready)
  · rcases sublist_cons_iff.mp hsub with hsub | ⟨rest, heq, -⟩
    · exact .inr ⟨hsub, WaitForEachOther.adopt hwait⟩
    · cases heq
      obtain ⟨base, hbase, -, hrest⟩ := hwait first mem_cons_self
      obtain ⟨rest, hperm⟩ := hsub.exists_perm_append
      refine .inl ⟨_, mem_append_right _ (mem_singleton_self _), rfl, ?_⟩
      have hbase' : first.worktree.baseBranch = some base := hbase
      simp only [adoptionInput, hbase', Option.bind_some]
      exact Option.eq_none_iff_forall_ne_some.mpr fun id hget => hrest rest hperm id (.inl hget)

/-! ## Exactly when each is stored below its base -/

/-- **Adoption.** The worktrees are offered once each with parents that exist, and stored below
their bases just when none comes first of those that wait for each other. -/
theorem adoptWorktrees_adopts_iff : Adopts live worktrees (adoptWorktrees rootPath live worktrees) ↔
      NoneWaitsFirst live worktrees := by
  constructor
  · intro h first others hsub hwait htask hcycle other hother hlinks
    obtain ⟨offer, hmem, rfl, hparent⟩ := first_without_parent rootPath hsub hwait
    refine Option.eq_none_iff_forall_ne_some.mpr fun id hid => ?_
    obtain ⟨-, -, base, hbase, hbranch⟩ := hlinks
    obtain ⟨-, id', hid', -⟩ := h.nested offer hmem htask hcycle base hbase
      ⟨id, .inr ⟨other, hsub.subset (mem_cons_of_mem _ hother), hbranch, hid⟩⟩
    exact Option.some_ne_none id' (hid'.symm.trans hparent)
  · intro hfirst
    let Inv : List Candidate → Adoptions → Prop := fun pending pass =>
      Recorded live worktrees pending pass ∧ ∀ offer ∈ pass.offers, Nested live worktrees offer
    have hend : Inv [] (adoptWorktrees rootPath live worktrees) := by
      refine adoptPending_keeps (fun before candidate after pass h htakes => ⟨h.1.adopt, ?_⟩)
        ⟨recorded_initial live worktrees, fun offer hmem => absurd hmem not_mem_nil⟩
      intro offer hmem
      rcases mem_append.mp hmem with hold | hnew
      · exact h.2 offer hold
      · rw [mem_singleton.mp hnew]
        exact h.1.nested htakes hfirst
    have hperm := hend.1.perm
    rw [append_nil] at hperm
    exact ⟨hperm, hend.1.counted.trans (hperm.countP_eq _), hend.1.existing, hend.2⟩

/-! ## A worktree before the cycle that it leads to -/

def based (branch base : String) : Candidate where
  worktree :=
    { baseBranch := some base
      baseSha := none
      branch := some branch
      canonicalPath := "/w/" ++ branch
      path := "/w/" ++ branch }
  ulid := branch
  task := some branch

/-- The base of the first is adopted in the same pass, and is on the cycle that the first is
not on. -/
theorem beforeCycle_not_adopts : ¬Adopts [] [based "c" "a", based "a" "b", based "b" "a"]
      (adoptWorktrees "/r" [] [based "c" "a", based "a" "b", based "b" "a"]) := by
  intro h
  have hnot : ∀ candidate ∈ [based "c" "a", based "a" "b", based "b" "a"],
      candidate.worktree.baseBranch ≠ some "c" := by decide
  have hcycle : ¬OnCycle [based "c" "a", based "a" "b", based "b" "a"] (based "c" "a") := by
    intro hcycle
    obtain ⟨last, -, hmem, -, base, hbase, hbranch⟩ := TransGen.tail'_iff.mp hcycle
    cases hbranch
    exact hnot last hmem hbase
  obtain ⟨-, id, hid, -⟩ := h.nested
    (based "c" "a", adoptionInput "/r" [] (based "c" "a")) (by decide) (by decide) hcycle
    "a" rfl ⟨"a", .inr ⟨based "a" "b", by decide⟩⟩
  cases hid

end Laborer.Worktrees
