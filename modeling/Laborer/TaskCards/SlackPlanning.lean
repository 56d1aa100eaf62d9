import Laborer.Library.Runs
import Laborer.TaskCards.SlackCards

/-!
# Two planners for one card

The analysis in the background stores its plan whatever the card holds by then, and marks
the card failed in the same way. As long as no such write meets a card that is planned or
provisioned otherwise, the card shows one plan, and the branch of its worktree.
-/

namespace Laborer.TaskCards

open Laborer.Library Option List

namespace State

variable {s : State}

/-! ## What the card shows -/

/-- The title and the prompt, as far as they were not edited since, and the branch come from one
stored plan. -/
def OnePlan (s : State) : Prop :=
  s.stored ≠ [] → ∃ plan ∈ s.stored,
    (s.card.title = plan.title ∨ s.titleEdited) ∧
      (s.card.description = some plan.initialPrompt ∨ s.descriptionEdited) ∧
      s.card.branchName = some plan.branchName

/-- The branch of a provisioned card is the one its worktree was created on. -/
def OnWorktreeBranch (s : State) : Prop :=
  s.card.worktreePath ≠ none → s.card.branchName ≠ none ∧ s.card.branchName = s.worktreeBranch

/-- A card marked failed was never planned. -/
def FailedUnplanned (s : State) : Prop :=
  s.card.executionStatus = some .failed → s.stored = []

structure Consistent (s : State) : Prop where
  plan : s.OnePlan
  branch : s.OnWorktreeBranch
  failure : s.FailedUnplanned

/-! ## The condition -/

def MovePhase.IsProvisioning : MovePhase → Prop
  | .planning _ => False
  | .committing _ => False
  | .provisioning _ => True
  | .binding _ => True

instance : (phase : MovePhase) → Decidable (MovePhase.IsProvisioning phase)
  | .planning _ | .committing _ => inferInstanceAs (Decidable False)
  | .provisioning _ | .binding _ => inferInstanceAs (Decidable True)

def BeingProvisioned (s : State) : Prop :=
  s.card.worktreePath ≠ none ∨ ∃ move ∈ s.move, MovePhase.IsProvisioning move.phase

instance (s : State) : Decidable s.BeingProvisioned :=
  inferInstanceAs (Decidable (_ ∨ _))

/-- A plan from the background that meets a card provisioned by then names the branch the card
has, and a failure is marked only while no plan was stored. -/
def Calm : CardEvent → State → Prop
  | .backgroundPlanned plan, s =>
    s.planning → s.BeingProvisioned → s.card.branchName = some plan.branchName
  | .backgroundFailed, s => s.planning → s.stored = []
  | .failureMarked, s => s.marking = .marking → s.stored = []
  | _, _ => True

/-! ## The invariant -/

/-- What the phase of a move knows of the branches. -/
def MovePhase.Agrees (branchName worktreeBranch : Option String) : MovePhase → Prop
  | .planning _ => True
  | .committing _ => True
  | .provisioning task => task.branchName = branchName
  | .binding workspace =>
    branchName = some workspace.branchName ∧ worktreeBranch = some workspace.branchName

structure Inv (s : State) : Prop extends Consistent s where
  phase : ∀ move, s.move = some move →
    MovePhase.Agrees s.card.branchName s.worktreeBranch move.phase

/-- A change that leaves the plan and the branches, and takes a worktree away at most. -/
structure Leaves (s t : State) : Prop where
  title : t.card.title = s.card.title ∨ t.titleEdited
  titleEdited : s.titleEdited → t.titleEdited
  description : t.card.description = s.card.description ∨ t.descriptionEdited
  descriptionEdited : s.descriptionEdited → t.descriptionEdited
  branchName : t.card.branchName = s.card.branchName
  worktreeBranch : t.worktreeBranch = s.worktreeBranch
  worktreePath : t.card.worktreePath = none ∨ t.card.worktreePath = s.card.worktreePath
  executionStatus : t.card.executionStatus = s.card.executionStatus
  stored : t.stored = s.stored

theorem Consistent.of_leaves {t : State} (h : s.Consistent) (hleaves : Leaves s t) :
    t.Consistent where
  plan := by
    intro hstored
    rw [hleaves.stored] at hstored
    obtain ⟨plan, hplan, htitle, hdescription, hbranch⟩ := h.plan hstored
    refine ⟨plan, hleaves.stored ▸ hplan, ?_, ?_, hleaves.branchName.trans hbranch⟩
    · rcases hleaves.title with heq | hedited
      · rw [heq]
        exact htitle.imp_right hleaves.titleEdited
      · exact .inr hedited
    · rcases hleaves.description with heq | hedited
      · rw [heq]
        exact hdescription.imp_right hleaves.descriptionEdited
      · exact .inr hedited
  branch := by
    intro hpath
    rcases hleaves.worktreePath with hnone | hsame
    · exact absurd hnone hpath
    · rw [hsame] at hpath
      rw [hleaves.branchName, hleaves.worktreeBranch]
      exact h.branch hpath
  failure := by
    intro hfailed
    rw [hleaves.executionStatus] at hfailed
    rw [hleaves.stored]
    exact h.failure hfailed

theorem Inv.of_leaves {t : State} (h : s.Inv) (hleaves : Leaves s t) (hmove : t.move = s.move) :
    t.Inv where
  toConsistent := h.toConsistent.of_leaves hleaves
  phase := by
    intro move ht
    rw [hleaves.branchName, hleaves.worktreeBranch]
    exact h.phase move (hmove ▸ ht)

theorem Inv.of_leaves_of_agrees {t : State} (h : s.Inv) (hleaves : Leaves s t)
    (hmove : ∀ move, t.move = some move →
      MovePhase.Agrees t.card.branchName t.worktreeBranch move.phase) : t.Inv where
  toConsistent := h.toConsistent.of_leaves hleaves
  phase := hmove

theorem Leaves.refl (s : State) : Leaves s s where
  title := .inl rfl
  titleEdited := id
  description := .inl rfl
  descriptionEdited := id
  branchName := rfl
  worktreeBranch := rfl
  worktreePath := .inr rfl
  executionStatus := rfl
  stored := rfl

theorem Leaves.of_card {t : State} {card : SlackCard} (ht : t.card = card)
    (htitle : card.title = s.card.title) (hdescription : card.description = s.card.description)
    (hbranch : card.branchName = s.card.branchName)
    (hexecution : card.executionStatus = s.card.executionStatus)
    (hpath : card.worktreePath = none ∨ card.worktreePath = s.card.worktreePath)
    (hstored : t.stored = s.stored) (htitleEdited : t.titleEdited = s.titleEdited)
    (hdescriptionEdited : t.descriptionEdited = s.descriptionEdited)
    (hworktree : t.worktreeBranch = s.worktreeBranch) : Leaves s t where
  title := .inl (ht ▸ htitle)
  titleEdited h := htitleEdited ▸ h
  description := .inl (ht ▸ hdescription)
  descriptionEdited h := hdescriptionEdited ▸ h
  branchName := ht ▸ hbranch
  worktreeBranch := hworktree
  worktreePath := ht ▸ hpath
  executionStatus := ht ▸ hexecution
  stored := hstored

/-! ## Plans and failures stored -/

theorem Consistent.storePlan (h : s.Consistent) (plan : SlackWorkspacePlan)
    (hbranch : s.card.worktreePath ≠ none → s.card.branchName = some plan.branchName) :
    (s.storePlan plan).Consistent where
  plan := by
    intro _
    exact ⟨plan, mem_append_right _ (mem_singleton_self _), .inl rfl, .inl rfl, rfl⟩
  branch := by
    intro hpath
    refine ⟨some_ne_none _, ?_⟩
    -- the worktree is on the branch that the plan names
    have hworktree := (h.branch hpath).2
    rw [hbranch hpath] at hworktree
    exact hworktree
  failure := by
    intro hfailed
    cases hfailed

theorem Inv.backgroundPlanned (h : s.Inv) {plan : SlackWorkspacePlan}
    (hcalm : s.planning → s.BeingProvisioned → s.card.branchName = some plan.branchName) :
    (s.backgroundPlanned plan).Inv := by
  rw [State.backgroundPlanned]
  split
  · next hplanning =>
    have hbranch := hcalm hplanning
    refine ⟨?_, ?_⟩
    · have hstored := h.toConsistent.storePlan plan fun hpath => hbranch (.inl hpath)
      exact ⟨hstored.plan, hstored.branch, hstored.failure⟩
    · intro move hmove
      have hagrees := h.phase move hmove
      cases hphase : move.phase with
      | planning => trivial
      | committing => trivial
      | provisioning task =>
        rw [hphase] at hagrees
        exact hagrees.trans (hbranch (.inr ⟨move, hmove, by rw [hphase]; trivial⟩))
      | binding workspace =>
        rw [hphase] at hagrees
        have hplan := hbranch (.inr ⟨move, hmove, by rw [hphase]; trivial⟩)
        exact ⟨hplan.symm.trans hagrees.1, hagrees.2⟩
  · exact h

theorem Consistent.markFailed {t : State} (h : s.Consistent) (hstored : s.stored = [])
    (hcard : t.card = s.card.markFailed) (hkept : t.stored = s.stored)
    (hworktree : t.worktreeBranch = s.worktreeBranch) : t.Consistent where
  plan := by
    intro hne
    rw [hkept] at hne
    exact absurd hstored hne
  branch := by
    intro hpath
    rw [hcard] at hpath ⊢
    rw [hworktree]
    exact h.branch hpath
  failure := by
    intro _
    rw [hkept]
    exact hstored

theorem Inv.backgroundFailed (h : s.Inv) (hcalm : s.planning → s.stored = []) :
    s.backgroundFailed.Inv := by
  rw [State.backgroundFailed]
  split
  · next hplanning =>
    exact ⟨h.toConsistent.markFailed (hcalm hplanning) rfl rfl rfl, h.phase⟩
  · exact h

theorem Inv.failureMarked (h : s.Inv) (hcalm : s.marking = .marking → s.stored = []) :
    s.failureMarked.Inv := by
  rw [State.failureMarked]
  split
  · next hmarking =>
    exact ⟨h.toConsistent.markFailed (hcalm hmarking) rfl rfl rfl, h.phase⟩
  · exact h

theorem Inv.failureChecked (h : s.Inv) : s.failureChecked.Inv := by
  rw [State.failureChecked]
  split
  · exact h.of_leaves { Leaves.refl s with } rfl
  · exact h

/-! ## Moves -/

theorem Inv.moveFailed (h : s.Inv) (fromCreation : Bool) : (s.moveFailed fromCreation).Inv := by
  refine h.of_leaves_of_agrees { Leaves.refl s with } ?_
  intro move hmove
  cases hmove

theorem Inv.beginMove (h : s.Inv) (request : MoveRequest) (fromCreation : Bool) :
    (s.beginMove request fromCreation).Inv := by
  rw [State.beginMove]
  split
  · exact h.moveFailed fromCreation
  · refine h.of_leaves_of_agrees { Leaves.refl s with } ?_
    intro move hmove
    cases hmove
    split
    · trivial
    · trivial

theorem Inv.moveStarted (h : s.Inv) (request : MoveRequest) : (s.moveStarted request).Inv := by
  rw [State.moveStarted]
  split
  · exact h.beginMove request false
  · exact h

theorem Inv.creationMoveStarted (h : s.Inv) : s.creationMoveStarted.Inv := by
  rw [State.creationMoveStarted]
  split
  · apply Inv.beginMove
    exact h.of_leaves { Leaves.refl s with } rfl
  · exact h

theorem Inv.movePlanned (h : s.Inv) (plan : SlackWorkspacePlan) (move : Move) (task : SlackCard) :
    (s.movePlanned plan move task).Inv := by
  rw [State.movePlanned]
  split
  · exact h.moveFailed _
  split
  · refine h.of_leaves_of_agrees { Leaves.refl s with } ?_
    intro other hother
    cases hother
    trivial
  · next hunplanned =>
    -- the plan is stored on a card without a worktree
    rw [not_or, not_not] at hunplanned
    have hstored := h.toConsistent.storePlan plan fun hpath =>
      absurd hunplanned.1 hpath
    refine ⟨⟨hstored.plan, hstored.branch, hstored.failure⟩, ?_⟩
    intro other hother
    cases hother
    trivial

theorem Inv.moveOn (h : s.Inv) (move : Move) : (s.moveOn move).Inv := by
  rw [State.moveOn]
  split
  · refine h.of_leaves_of_agrees { Leaves.refl s with } ?_
    intro other hother
    cases hother
    exact rfl
  · refine h.of_leaves_of_agrees { Leaves.refl s with } ?_
    intro other hother
    cases hother

theorem leaves_commit (s : State) (status : Database.TaskStatus) (sortOrder : Option (Option ℚ)) :
    Leaves s { s with card := s.card.commit status sortOrder } :=
  .of_card rfl rfl rfl rfl rfl (.inr rfl) rfl rfl rfl rfl

theorem Inv.moveCommitted (h : s.Inv) (move : Move) (task : SlackCard) :
    (s.moveCommitted move task).Inv := by
  rw [State.moveCommitted]
  split
  · exact h.moveOn move
  split
  · exact h.moveFailed _
  · apply Inv.moveOn
    exact h.of_leaves (leaves_commit s _ _) rfl

theorem Inv.projectMissing (h : s.Inv) (move : Move) (task : SlackCard) :
    (s.projectMissing move task).Inv := by
  rw [State.projectMissing]
  split
  · exact h.moveFailed _
  · apply Inv.moveFailed
    exact h.of_leaves (leaves_commit s _ _) rfl

theorem leaves_bounceToTodo (s : State) : Leaves s { s with card := s.card.bounceToTodo } := by
  rw [SlackCard.bounceToTodo]
  split
  · exact Leaves.refl s
  · exact .of_card rfl rfl rfl rfl rfl (.inl rfl) rfl rfl rfl rfl

theorem Inv.provisioningFailed (h : s.Inv) (move : Move) : (s.provisioningFailed move).Inv := by
  apply Inv.moveFailed
  exact h.of_leaves (leaves_bounceToTodo s) rfl

/-- The worktree is claimed on the branch that the card has, if it has one. -/
theorem Inv.workspaceClaimed (h : s.Inv) (generatedBranch worktreePath : String) {move : Move}
    {task : SlackCard} (htask : task.branchName = s.card.branchName) :
    (s.workspaceClaimed generatedBranch worktreePath move task).Inv := by
  rw [State.workspaceClaimed]
  cases hpath : s.card.worktreePath with
  | some path =>
    refine h.of_leaves_of_agrees { Leaves.refl s with } ?_
    intro other hother
    cases hother
    obtain ⟨hsome, hworktree⟩ := h.branch (hpath ▸ some_ne_none path)
    obtain ⟨branch, hbranch⟩ := ne_none_iff_exists'.mp hsome
    change s.card.branchName = some (s.card.branchName.getD s.card.title) ∧
      s.worktreeBranch = some (s.card.branchName.getD s.card.title)
    rw [← hworktree, hbranch]
    exact ⟨rfl, rfl⟩
  | none =>
    refine ⟨⟨?_, ?_, h.failure⟩, ?_⟩
    · intro hstored
      obtain ⟨plan, hplan, htitle, hdescription, hbranch⟩ := h.plan hstored
      refine ⟨plan, hplan, htitle, hdescription, ?_⟩
      rw [htask, hbranch]
      rfl
    · intro _
      exact ⟨some_ne_none _, rfl⟩
    · intro other hother
      cases hother
      exact ⟨rfl, rfl⟩

theorem Inv.moveBound (h : s.Inv) {workspace : Workspace}
    (hagrees : s.card.branchName = some workspace.branchName ∧
      s.worktreeBranch = some workspace.branchName) : (s.moveBound workspace).Inv := by
  rw [State.moveBound, SlackCard.bindTaskWorkspace]
  split
  · refine h.of_leaves_of_agrees { Leaves.refl s with } ?_
    intro other hother
    cases hother
  · refine ⟨⟨?_, ?_, h.failure⟩, ?_⟩
    · intro hstored
      obtain ⟨plan, hplan, htitle, hdescription, hbranch⟩ := h.plan hstored
      exact ⟨plan, hplan, htitle, hdescription, hagrees.1.symm.trans hbranch⟩
    · intro _
      exact ⟨some_ne_none _, hagrees.2.symm⟩
    · intro other hother
      cases hother

theorem Inv.moveStep (h : s.Inv) (event : CardEvent) {move : Move} (hmove : s.move = some move) :
    (s.moveStep event move).Inv := by
  have hagrees := h.phase move hmove
  unfold State.moveStep
  split
  · exact h.movePlanned _ move _
  · exact h.moveFailed _
  · exact h.moveCommitted move _
  · exact h.projectMissing move _
  · next hphase =>
    rw [hphase] at hagrees
    exact h.workspaceClaimed _ _ hagrees
  · exact h.provisioningFailed move
  · next hphase =>
    rw [hphase] at hagrees
    exact h.moveBound hagrees
  · exact h

theorem Inv.withMove (h : s.Inv) (event : CardEvent) : (s.withMove event).Inv := by
  rw [State.withMove]
  cases hmove : s.move with
  | none => exact h
  | some move => exact h.moveStep event hmove

/-! ## Edits and setups -/

theorem Inv.edited (h : s.Inv) (revision : ℤ) (title : String)
    (description : Option String) : (s.edited revision title description).Inv := by
  rw [State.edited]
  split
  · exact h
  · refine h.of_leaves ?_ rfl
    refine { Leaves.refl s with
      title := ?_
      titleEdited := ?_
      description := ?_
      descriptionEdited := ?_ }
    · by_cases heq : jsTrim title = s.card.title
      · exact .inl heq
      · exact .inr (by simp [heq])
    · intro hedited
      simp [hedited]
    · by_cases heq : description = s.card.description
      · exact .inl heq
      · exact .inr (by simp [heq])
    · intro hedited
      simp [hedited]

theorem Inv.released (h : s.Inv) : (step .released s).Inv := by
  rw [step]
  split
  · exact h
  · exact h.of_leaves (.of_card rfl rfl rfl rfl rfl (.inl rfl) rfl rfl rfl rfl) rfl

theorem Inv.setupEnded (h : s.Inv) (failed : Bool) : (s.setupEnded failed).Inv := by
  rw [State.setupEnded]
  split
  · exact h
  · cases failed with
    | false => exact h.of_leaves { Leaves.refl s with } rfl
    | true => exact h.of_leaves { leaves_bounceToTodo s with } rfl

/-! ## Runs -/

theorem inv_create (slackUrl : String) (status : Database.TaskStatus) :
    (create slackUrl status).Inv where
  plan h := absurd rfl h
  branch h := absurd rfl h
  failure _ := rfl
  phase _ hmove := by cases hmove

theorem Inv.step (h : s.Inv) {event : CardEvent} (hcalm : Calm event s) : (step event s).Inv := by
  cases event with
  | backgroundPlanned plan => exact h.backgroundPlanned hcalm
  | backgroundFailed => exact h.backgroundFailed hcalm
  | failureChecked => exact h.failureChecked
  | failureMarked => exact h.failureMarked hcalm
  | moveStarted request => exact h.moveStarted request
  | creationMoveStarted => exact h.creationMoveStarted
  | edited revision title description => exact h.edited revision title description
  | touched => exact h.of_leaves (.of_card rfl rfl rfl rfl rfl (.inr rfl) rfl rfl rfl rfl) rfl
  | restated status =>
    exact h.of_leaves (.of_card rfl rfl rfl rfl rfl (.inr rfl) rfl rfl rfl rfl) rfl
  | released => exact h.released
  | setupEnded failed => exact h.setupEnded failed
  | movePlanned plan => exact h.withMove (.movePlanned plan)
  | movePlanningFailed => exact h.withMove .movePlanningFailed
  | moveCommitted => exact h.withMove .moveCommitted
  | projectMissing => exact h.withMove .projectMissing
  | workspaceClaimed generatedBranch worktreePath =>
    exact h.withMove (.workspaceClaimed generatedBranch worktreePath)
  | provisioningFailed => exact h.withMove .provisioningFailed
  | moveBound => exact h.withMove .moveBound

/-- **A Slack card shows one plan, the branch of its worktree, and no failure beside a plan**, as
long as nothing that the background analysis writes meets a card planned or provisioned
otherwise. -/
theorem consistent_of_calm (slackUrl : String) (status : Database.TaskStatus)
    (events : List CardEvent) (hcalm : RunMeets State.step Calm (create slackUrl status) events) :
    ∀ t ∈ visited State.step (create slackUrl status) events, t.Quiet → t.Consistent := by
  intro t ht _
  have hstep : ∀ event (s : State), s.Inv → Calm event s → (State.step event s).Inv :=
    fun _ _ h hevent => h.step hevent
  exact (invariant_visited hstep (inv_create slackUrl status) hcalm t ht).toConsistent

/-- The plan of the background, and the one that a move makes for itself. -/
def planA : SlackWorkspacePlan := ⟨"slack/auth-flow", "Fix the auth flow", "Fix auth flow"⟩

def planB : SlackWorkspacePlan := ⟨"slack/login", "Repair the login", "Repair login"⟩

/-- What a move to In Progress does with a card that has its plan. -/
def provisioned : List CardEvent :=
  [.moveCommitted, .workspaceClaimed "laborer/0" "/worktrees/0", .moveBound, .setupEnded false]

def plannedFirst : List CardEvent :=
  .backgroundPlanned planA :: .moveStarted ⟨2, .inProgress, none, none⟩ :: provisioned

theorem consistent_plannedFirst :
    (finalState State.step (create "https://slack" .todo) plannedFirst).Quiet ∧
      (finalState State.step (create "https://slack" .todo) plannedFirst).Consistent := by
  have hcalm : RunMeets State.step Calm (create "https://slack" .todo) plannedFirst := by
    refine ⟨fun _ hprovisioned => ?_, trivial, trivial, trivial, trivial, trivial, trivial⟩
    exact absurd hprovisioned (by decide)
  have hquiet : (finalState State.step (create "https://slack" .todo) plannedFirst).Quiet := by
    decide
  exact ⟨hquiet, consistent_of_calm "https://slack" .todo plannedFirst hcalm _
    (finalState_mem_visited _ _) hquiet⟩

/-- A move plans and provisions the card while the background still analyses the thread. -/
def overtaken (late : CardEvent) : List CardEvent :=
  .moveStarted ⟨1, .inProgress, none, none⟩ :: .movePlanned planB :: provisioned ++ [late]

/-- The late plan leaves the worktree on another branch; the late failure marks a planned card. -/
theorem overtaken_not_consistent : ((finalState State.step (create "https://slack" .todo)
        (overtaken (.backgroundPlanned planA))).Quiet ∧
      ¬ (finalState State.step (create "https://slack" .todo)
        (overtaken (.backgroundPlanned planA))).Consistent) ∧
    (finalState State.step (create "https://slack" .todo) (overtaken .backgroundFailed)).Quiet ∧
      ¬ (finalState State.step (create "https://slack" .todo)
        (overtaken .backgroundFailed)).Consistent := by
  refine ⟨⟨by decide, fun h => ?_⟩, by decide, fun h => ?_⟩
  · exact absurd (h.branch (by decide)).2 (by decide)
  · exact absurd (h.failure (by decide)) (by decide)

end State

end Laborer.TaskCards
