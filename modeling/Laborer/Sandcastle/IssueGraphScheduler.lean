import Laborer.Library.CachedReads
import Mathlib.Algebra.Order.Ring.Int

/-!
# The issue graph scheduler

`scheduleIssueGraph` turns the ready issues into decisions about their topmost
roots: which issue to run, which roots wait, and which shared pull requests to
finalize. The walks up to a root and over its descendants take any way of loading
an issue: the cache of the source, or reading the source directly.

The recursion over issues takes fuel, which more fuel than issues never uses up.
-/

namespace Laborer.Sandcastle

open Laborer.Library

/-! ## Issues and pull requests -/

inductive IssueState where
  | closed
  | opened
deriving DecidableEq

structure IssueIdentity where
  number : ℕ
  title : String
deriving DecidableEq

structure GitHubIssue where
  number : ℕ
  title : String
  childNumbers : List ℕ
  openBlockers : List IssueIdentity
  parentNumber : Option ℕ
  state : IssueState

inductive PullRequestState where
  | closed
  | merged
  | opened
deriving DecidableEq

structure ExistingPullRequest where
  baseRefName : String
  body : String
  headRefName : String
  isCrossRepository : Bool
  isDraft : Bool
  state : PullRequestState
  url : String

inductive ScheduleError (ε : Type) where
  /-- An `IssueGraphRelationshipError`. -/
  | relationship (message : String)
  /-- A plain `Error`. -/
  | plain (message : String)
  /-- What the source threw. -/
  | source (error : ε)
  /-- Of the model only. -/
  | outOfFuel

structure IssueGraphSource (ε : Type) where
  baseBranch : String
  issue : ℕ → Except ε GitHubIssue
  pullRequest : String → Except ε (Option ExistingPullRequest)

/-! ## Decisions -/

inductive RunnableKind where
  | specLeaf
  | standalone

structure RunnableIssue where
  ancestorPath : List IssueIdentity
  branch : String
  descendantLeafNumbers : List ℕ
  issue : IssueIdentity
  kind : RunnableKind
  latestImplementedHead : Option String
  parent : Option IssueIdentity
  pullRequest : Option ExistingPullRequest
  root : IssueIdentity

structure WaitingLeaf where
  ancestorPath : List IssueIdentity
  leaf : IssueIdentity
  openBlockers : List IssueIdentity

structure WaitingIssueRoot where
  blockedLeaves : List WaitingLeaf
  branch : String
  descendantLeafNumbers : List ℕ
  pullRequest : Option ExistingPullRequest
  root : IssueIdentity

structure FinalizeIssueSpec where
  branch : String
  descendantIssueNumbers : List ℕ
  descendantLeafNumbers : List ℕ
  expectedHeadSha : String
  pullRequest : ExistingPullRequest
  root : IssueIdentity

structure IssueGraphSchedule where
  finalize : List FinalizeIssueSpec
  runnable : List RunnableIssue
  waiting : List WaitingIssueRoot

inductive Decision where
  | nothing
  | runnable (issue : RunnableIssue)
  | waiting (root : WaitingIssueRoot)
  | finalize (spec : FinalizeIssueSpec)

def IssueGraphSchedule.push (schedule : IssueGraphSchedule) : Decision → IssueGraphSchedule
  | .nothing => schedule
  | .runnable issue => { schedule with runnable := schedule.runnable ++ [issue] }
  | .waiting root => { schedule with waiting := schedule.waiting ++ [root] }
  | .finalize spec => { schedule with finalize := schedule.finalize ++ [spec] }

def identity (issue : GitHubIssue) : IssueIdentity :=
  { number := issue.number, title := issue.title }

/-! ## Markers in a pull request body -/

/-- What follows a literal text at the start. -/
def afterLiteral (literal : String) (text : List Char) : Option (List Char) :=
  if literal.toList.isPrefixOf text then some (text.drop literal.length) else none

/-- `[0-9a-f]`. -/
def isLowerHex (c : Char) : Bool :=
  c.isDigit || ('a' ≤ c && c ≤ 'f')

/-- `[0-9a-f]{40,64}`, followed by something else. -/
def commitSha (text : List Char) : Option (String × List Char) :=
  let sha := text.takeWhile isLowerHex
  if 40 ≤ sha.length ∧ sha.length ≤ 64 then some (String.ofList sha, text.drop sha.length)
  else none

/-- `[1-9]\d*`, followed by something else. -/
def positiveNumber (text : List Char) : Option (ℕ × List Char) :=
  let digits := text.takeWhile Char.isDigit
  if digits.head?.any (· ≠ '0') then
    some (digits.foldl (fun n c => 10 * n + (c.toNat - '0'.toNat)) 0, text.drop digits.length)
  else none

/-- The matches of a pattern in a text, in order. The patterns below start with
the only `<` in them, so that no two matches overlap. -/
def matchAll {α : Type} (pattern : List Char → Option α) (text : String) : List α :=
  text.toList.tails.filterMap pattern

structure ImplementedMarker where
  issueNumber : ℕ
  headSha : String

/-- `<!-- sandcastle-implemented:#([1-9]\d*)@([0-9a-f]{40,64}) -->`. -/
def implementedMarkerAt (text : List Char) : Option ImplementedMarker := do
  let text ← afterLiteral "<!-- sandcastle-implemented:#" text
  let (issueNumber, text) ← positiveNumber text
  let text ← afterLiteral "@" text
  let (headSha, text) ← commitSha text
  let _ ← afterLiteral " -->" text
  pure { issueNumber, headSha }

/-- `Number.MAX_SAFE_INTEGER`. -/
def maxSafeInteger : ℕ := 2 ^ 53 - 1

def implementedMarkers : Option ExistingPullRequest → List ImplementedMarker
  | none => []
  | some pullRequest =>
    if pullRequest.state = .closed then []
    else
      (matchAll implementedMarkerAt pullRequest.body).filter (·.issueNumber ≤ maxSafeInteger)

/-- `<!-- sandcastle-reviewed-head:@([0-9a-f]{40,64}) -->`. -/
def reviewedHeadAt (text : List Char) : Option String := do
  let text ← afterLiteral "<!-- sandcastle-reviewed-head:@" text
  let (headSha, text) ← commitSha text
  let _ ← afterLiteral " -->" text
  pure headSha

/-- `reviewedHeadFromBody`. -/
def reviewedHeadFromBody {ε : Type} (body : String) :
    Except (ScheduleError ε) (Option String) :=
  let found := matchAll reviewedHeadAt body
  if 1 < found.length then
    throw (.plain "pull request body contains ambiguous reviewed-head markers")
  else pure found.head?

def reviewedHead {ε : Type} : Option ExistingPullRequest → Except (ScheduleError ε) (Option String)
  | none => pure none
  | some pullRequest => reviewedHeadFromBody pullRequest.body

/-! ## Assertions -/

section Assertions

variable {ε : Type}

def assertPullRequestIsRecoverable (branch : String) (pullRequest : Option ExistingPullRequest)
    (baseBranch : String) : Except (ScheduleError ε) Unit :=
  match pullRequest with
  | none => pure ()
  | some pullRequest =>
    if pullRequest.state = .closed then
      throw (.relationship s!"pull request for {branch} was closed without merge")
    else if pullRequest.baseRefName ≠ baseBranch ∨ pullRequest.headRefName ≠ branch ∨
        pullRequest.isCrossRepository then
      throw (.relationship s!"pull request for {branch} has ambiguous head ownership")
    else pure ()

def assertPullRequestCanScheduleRemaining (branch : String)
    (pullRequest : Option ExistingPullRequest) (remainingCount : ℕ) :
    Except (ScheduleError ε) Unit :=
  if remainingCount = 0 then pure ()
  else
    match pullRequest with
    | none => pure ()
    | some pullRequest =>
      if pullRequest.state = .merged then
        throw (.relationship
          s!"merged pull request for {branch} omitted open descendant work")
      else if pullRequest.state = .opened ∧ pullRequest.isDraft = false then
        throw (.relationship
          s!"pull request for {branch} became ready before all descendants were implemented")
      else pure ()

structure DescendantLeaf where
  ancestorPath : List IssueIdentity
  issue : GitHubIssue
  parent : GitHubIssue

def assertDescendantStateIsConsistent (root : GitHubIssue) (containers : List GitHubIssue)
    (leaves : List DescendantLeaf) (pullRequest : Option ExistingPullRequest)
    (implemented : List ℕ) : Except (ScheduleError ε) Unit :=
  let closedContainers := (containers.filter (·.state = .closed)).map (·.number)
  if leaves.any fun leaf => leaf.issue.state = .opened ∧
      leaf.ancestorPath.dropLast.any (·.number ∈ closedContainers) then
    throw (.relationship
      s!"closed container under root #{root.number} still has open descendant work")
  else if pullRequest.isSome ∧
      leaves.any fun leaf => leaf.issue.state = .closed ∧ leaf.issue.number ∉ implemented then
    throw (.relationship
      s!"descendant under root #{root.number} closed before its shared pull request merged")
  else pure ()

end Assertions

/-! ## Loading issues -/

section Loading

variable {ε : Type}

def fromSource {α : Type} : Except ε α → Except (ScheduleError ε) α
  | .ok a => .ok a
  | .error e => .error (.source e)

/-- `source.issue`, checked as in `loadIssue`. -/
def fetchIssue (source : IssueGraphSource ε) (number : ℕ) :
    Except (ScheduleError ε) GitHubIssue := do
  let loaded ← fromSource (source.issue number)
  if loaded.number ≠ number then
    throw (.relationship
      s!"source returned issue #{loaded.number} for requested issue #{number}")
  else pure loaded

/-- `loadIssue`, with its cache. -/
def loadIssue (source : IssueGraphSource ε) :
    ℕ → Reading ℕ GitHubIssue (ScheduleError ε) GitHubIssue :=
  cachedLoad (fetchIssue source)

end Loading

/-! ## The walks -/

section Walks

variable {ε : Type} {m : Type → Type} [Monad m] [MonadExcept (ScheduleError ε) m]
  (loadIssue : ℕ → m GitHubIssue)

/-- A result that reads no issue. -/
def lift {α : Type} : Except (ScheduleError ε) α → m α
  | .ok a => pure a
  | .error e => throw e

def climb : ℕ → GitHubIssue → List ℕ → m GitHubIssue
  | fuel, current, path =>
    match current.parentNumber with
    | none => pure current
    | some parentNumber =>
      if current.number ∈ path then
        throw (.relationship s!"parent cycle includes issue #{current.number}")
      else
        match fuel with
        | 0 => throw .outOfFuel
        | fuel + 1 => do
          let parent ← loadIssue parentNumber
          if (parent.childNumbers.filter (· = current.number)).length ≠ 1 then
            throw (.relationship
              s!"issue #{current.number} is not one direct child of parent #{parent.number}")
          else climb fuel parent (path ++ [current.number])

def findRoot (fuel readyNumber : ℕ) : m GitHubIssue := do
  let current ← loadIssue readyNumber
  climb loadIssue fuel current []

def findRoots (fuel : ℕ) : List ℕ → List GitHubIssue → List ℕ → m (List GitHubIssue)
  | [], roots, _ => pure roots
  | readyNumber :: rest, roots, seenRoots => do
    let root ← findRoot loadIssue fuel readyNumber
    if root.number ∈ seenRoots then findRoots fuel rest roots seenRoots
    else findRoots fuel rest (roots ++ [root]) (seenRoots ++ [root.number])

structure Descendants where
  leaves : List DescendantLeaf
  containers : List GitHubIssue
  descendantIssueNumbers : List ℕ
  visited : List ℕ

def takeChild (visitChildren : GitHubIssue → List IssueIdentity → Descendants → m Descendants)
    (parent child : GitHubIssue) (childPath : List IssueIdentity) (found : Descendants) :
    m Descendants :=
  if child.childNumbers.length = 0 then
    pure { found with
      leaves := found.leaves ++ [{ ancestorPath := childPath, issue := child, parent }] }
  else visitChildren child childPath { found with containers := found.containers ++ [child] }

/-- The loop over the children of an issue, with the walk below a child given. -/
def visitEach (rootNumber : ℕ)
    (visitChildren : GitHubIssue → List IssueIdentity → Descendants → m Descendants)
    (parent : GitHubIssue) (parentPath : List IssueIdentity) :
    List ℕ → List ℕ → Descendants → m Descendants
  | [], _, found => pure found
  | childNumber :: rest, directChildren, found =>
    if childNumber ∈ directChildren ∨ childNumber ∈ found.visited then
      throw (.relationship
        s!"issue #{childNumber} appears more than once under root #{rootNumber}")
    else do
      let child ← loadIssue childNumber
      if child.parentNumber ≠ some parent.number then
        throw (.relationship
          s!"issue #{child.number} does not name #{parent.number} as its parent")
      else do
        let found ← takeChild visitChildren parent child (parentPath ++ [identity child])
          { found with
            visited := found.visited ++ [childNumber]
            descendantIssueNumbers := found.descendantIssueNumbers ++ [childNumber] }
        visitEach rootNumber visitChildren parent parentPath rest
          (directChildren ++ [childNumber]) found

def visitChildren (rootNumber : ℕ) :
    ℕ → GitHubIssue → List IssueIdentity → Descendants → m Descendants
  | 0, _, _, _ => throw .outOfFuel
  | fuel + 1, parent, parentPath, found =>
    visitEach loadIssue rootNumber (visitChildren rootNumber fuel) parent parentPath
      parent.childNumbers [] found

end Walks

/-! ## Deciding -/

section Deciding

variable {ε : Type} (source : IssueGraphSource ε)

def scheduleStandalone (root : GitHubIssue) : Except (ScheduleError ε) Decision :=
  if root.state ≠ .opened then pure .nothing
  else do
    let branch := s!"sandcastle/issue-{root.number}"
    let pullRequest ← fromSource (source.pullRequest branch)
    assertPullRequestIsRecoverable branch pullRequest source.baseBranch
    if root.openBlockers.length = 0 then
      pure (.runnable
        { ancestorPath := [identity root], branch, descendantLeafNumbers := []
          issue := identity root, kind := .standalone, latestImplementedHead := none
          parent := none, pullRequest, root := identity root })
    else
      pure (.waiting
        { blockedLeaves := [{ ancestorPath := [identity root], leaf := identity root,
                              openBlockers := root.openBlockers }]
          branch, descendantLeafNumbers := [], pullRequest, root := identity root })

def validMarkers (pullRequest : Option ExistingPullRequest) (leaves : List DescendantLeaf) :
    List ImplementedMarker :=
  (implementedMarkers pullRequest).filter (·.issueNumber ∈ leaves.map (·.issue.number))

def implementedNumbers (pullRequest : Option ExistingPullRequest) (leaves : List DescendantLeaf) :
    List ℕ :=
  (validMarkers pullRequest leaves).map (·.issueNumber)

def unresolvedBlockers (implemented : List ℕ) (leaf : DescendantLeaf) : List IssueIdentity :=
  leaf.issue.openBlockers.filter (·.number ∉ implemented)

def remainingLeaves (implemented : List ℕ) (leaves : List DescendantLeaf) : List DescendantLeaf :=
  leaves.filter fun leaf => leaf.issue.state = .opened ∧ leaf.issue.number ∉ implemented

/-- The decision about a root with children, after the walk over them. -/
def scheduleSpec (root : GitHubIssue) (branch : String)
    (pullRequest : Option ExistingPullRequest) (found : Descendants) :
    Except (ScheduleError ε) Decision := do
  let leaves := found.leaves
  let descendantLeafNumbers := leaves.map (·.issue.number)
  let implemented := implementedNumbers pullRequest leaves
  let latestImplementedHead := (validMarkers pullRequest leaves).getLast?.map (·.headSha)
  let latestReviewedHead ← reviewedHead pullRequest
  assertDescendantStateIsConsistent root found.containers leaves pullRequest implemented
  let remaining := remainingLeaves implemented leaves
  assertPullRequestCanScheduleRemaining branch pullRequest remaining.length
  match remaining.find? fun leaf => (unresolvedBlockers implemented leaf).length = 0 with
  | some selected =>
    pure (.runnable
      { ancestorPath := selected.ancestorPath, branch, descendantLeafNumbers
        issue := identity selected.issue, kind := .specLeaf, latestImplementedHead
        parent := some (identity selected.parent), pullRequest, root := identity root })
  | none =>
    if 0 < remaining.length then
      pure (.waiting
        { blockedLeaves := remaining.map fun leaf =>
            { ancestorPath := leaf.ancestorPath, leaf := identity leaf.issue
              openBlockers := unresolvedBlockers implemented leaf }
          branch, descendantLeafNumbers, pullRequest, root := identity root })
    else
      match pullRequest with
      | none => pure .nothing
      | some pullRequest =>
        if pullRequest.state = .opened ∨ pullRequest.state = .merged then
          match latestImplementedHead with
          | none =>
            throw (.relationship
              s!"shared pull request for {branch} has no accepted implementation head")
          | some latestImplementedHead =>
            pure (.finalize
              { branch, descendantIssueNumbers := found.descendantIssueNumbers
                descendantLeafNumbers
                expectedHeadSha := latestReviewedHead.getD latestImplementedHead
                pullRequest, root := identity root })
        else pure .nothing

end Deciding

/-! ## The schedule -/

section Schedule

variable {ε : Type} {m : Type → Type} [Monad m] [MonadExcept (ScheduleError ε) m]
  (source : IssueGraphSource ε) (loadIssue : ℕ → m GitHubIssue)

def scheduleRoot (fuel : ℕ) (root : GitHubIssue) : m Decision :=
  if root.childNumbers.length = 0 then lift (scheduleStandalone source root)
  else do
    let branch := s!"sandcastle/spec-{root.number}"
    let pullRequest ← lift (fromSource (source.pullRequest branch))
    lift (assertPullRequestIsRecoverable branch pullRequest source.baseBranch)
    let found ← visitChildren loadIssue root.number fuel root [identity root]
      { leaves := [], containers := [root], descendantIssueNumbers := []
        visited := [root.number] }
    lift (scheduleSpec root branch pullRequest found)

def scheduleRoots (fuel : ℕ) :
    List GitHubIssue → IssueGraphSchedule → m IssueGraphSchedule
  | [], schedule => pure schedule
  | root :: rest, schedule => do
    let decision ← scheduleRoot source loadIssue fuel root
    scheduleRoots fuel rest (schedule.push decision)

/-- `scheduleIssueGraph`, over a way of loading an issue. -/
def scheduleWith (fuel : ℕ) (readyIssueNumbers : List ℕ) : m IssueGraphSchedule := do
  let roots ← findRoots loadIssue fuel readyIssueNumbers [] []
  scheduleRoots source loadIssue fuel roots { finalize := [], runnable := [], waiting := [] }

end Schedule

/-- **The scheduler**: its result, and the issues it read. -/
def scheduleIssueGraph {ε : Type} (source : IssueGraphSource ε) (fuel : ℕ)
    (readyIssueNumbers : List ℕ) :
    Except (ScheduleError ε) IssueGraphSchedule × List ℕ :=
  let run := runReading (scheduleWith source (loadIssue source) fuel readyIssueNumbers)
    CachedReads.empty
  (run.1, run.2.reads)

end Laborer.Sandcastle
