import Laborer.Library.Runs
import Laborer.Panels.DecodeSound
import Laborer.Panels.UsePanelLayout

/-!
# Asynchronous layout actions

`handleAssignTerminalToPane` and `handleAddWorkspaceToCurrentTab` capture the
layout of the last render, await an answer from the other windows, and write a
whole layout computed from it, while other handlers commit layouts of their own.

The serial session reads the layout at the time of the write instead; no update
is lost when the two do the same.
-/

namespace Laborer.Panels

open Laborer.Library

/-! ## The session -/

inductive AsyncAction where
  | assignTerminalToPane (terminalId workspaceId : String) (paneId : Option String)
  | addWorkspaceToCurrentTab (workspaceId : String)

/-- An action at its await, with the layout it captured. -/
structure PendingAction where
  action : AsyncAction
  captured : Option WindowLayout

/-- The stored layout, the layout of the last render, the actions at their
await, and the id generator. -/
structure LayoutSession where
  stored : Option WindowLayout
  rendered : Option WindowLayout
  pending : List PendingAction
  gen : IdGen

inductive LayoutEvent where
  /-- React renders; handlers created from now on see the stored layout. -/
  | render
  /-- Any other handler commits a layout. -/
  | commit (layout : WindowLayout)
  /-- `handleAssignTerminalToPane` is called and runs to its await. -/
  | startAssign (terminalId workspaceId : String) (paneId : Option String)
  /-- `handleAddWorkspaceToCurrentTab` is called and runs to its await. -/
  | startAdd (workspaceId randomTabName : String)
  /-- The await of a pending action ends: the workspace was found in another
  window or not. `sameObject` is the outcome of the reference test that skips a
  write; it can only succeed on an equal layout. -/
  | resume (index : ℕ) (focusedElsewhere sameObject : Bool)

def readLayout (stored : Option WindowLayout) : Option WindowLayout :=
  stored.bind fun layout => (decodeWindowLayout (encodeWindowLayout layout)).windowLayout

def LayoutSession.latest (s : LayoutSession) : Option WindowLayout :=
  readLayout s.stored

/-! ## The handlers -/

/-- What an action commits after its await, from the given layout. -/
def commitAfterAwait (action : AsyncAction) (base : Option WindowLayout) (g : IdGen) :
    Option WindowLayout × IdGen :=
  match base, action with
  | none, _ => (none, g)
  | some base, .assignTerminalToPane terminalId workspaceId paneId =>
    match if truthy paneId = none then navigateToTerminal base terminalId else none with
    | some navLayout => (some navLayout, g)
    | none =>
      let baseLayout := ensureWorkspaceInActiveTab base workspaceId g
      let result :=
        assignTerminalInWorkspace baseLayout.1 workspaceId terminalId paneId none baseLayout.2
      (some result.1, result.2)
  | some base, .addWorkspaceToCurrentTab workspaceId =>
    match getActiveWindowTab base with
    | none => (none, g)
    | some activeTab =>
      if (findWorkspaceLocation base workspaceId).map (·.tabId) = some activeTab.id then (none, g)
      else
        let newLayout := addWorkspaceToTabUnique base workspaceId activeTab.id
          removeWorkspaceFromTab (fun tab id g => addWorkspaceToTab tab id none g) g
        (some newLayout.1, newLayout.2)

/-- `handleAddWorkspaceToCurrentTab` up to its await: without window tabs it
creates one and commits that first. -/
def startAdd (s : LayoutSession) (workspaceId randomTabName : String) : LayoutSession :=
  let base := s.rendered.getD { tabs := [], activeTabId := none }
  let opened : LayoutSession × WindowLayout :=
    if base.tabs.length = 0 then
      let created := addWindowTab base none randomTabName s.gen
      ({ s with stored := some created.1, gen := created.2 }, created.1)
    else (s, base)
  match getActiveWindowTab opened.2 with
  | none => opened.1
  | some _ =>
    { opened.1 with
      pending := opened.1.pending ++
        [{ action := .addWorkspaceToCurrentTab workspaceId, captured := some opened.2 }] }

/-- The layout a resumed action writes when it computes it from `base`. -/
def writes (s : LayoutSession) (p : PendingAction) (base : Option WindowLayout)
    (focusedElsewhere sameObject : Bool) : Option WindowLayout :=
  if focusedElsewhere then none
  else
    (commitAfterAwait p.action base s.gen).1.filter fun layout =>
      !(sameObject && decide (some layout = base))

/-- One event, with the layout that a resumed action works on given by `base`. -/
def stepWith (base : LayoutSession → PendingAction → Option WindowLayout) (event : LayoutEvent)
    (s : LayoutSession) : LayoutSession :=
  match event with
  | .render => { s with rendered := s.latest }
  | .commit layout => { s with stored := some layout }
  | .startAssign terminalId workspaceId paneId =>
    { s with
      pending := s.pending ++
        [{ action := .assignTerminalToPane terminalId workspaceId paneId,
           captured := s.rendered }] }
  | .startAdd workspaceId randomTabName => startAdd s workspaceId randomTabName
  | .resume index focusedElsewhere sameObject =>
    match s.pending[index]? with
    | none => s
    | some p =>
      { s with
        stored := (writes s p (base s p) focusedElsewhere sameObject).or s.stored
        pending := s.pending.eraseIdx index
        gen := if focusedElsewhere then s.gen else (commitAfterAwait p.action (base s p) s.gen).2 }

/-- **The session as it is**: a resumed action works on what it captured. -/
def step : LayoutEvent → LayoutSession → LayoutSession :=
  stepWith fun _ p => p.captured

/-- **The serial session**: a resumed action works on the latest committed layout. -/
def serialStep : LayoutEvent → LayoutSession → LayoutSession :=
  stepWith fun s _ => s.latest

/-! ## When no update is lost -/

/-- The action that goes on captured what is still the latest committed layout. -/
def CapturedLatest (event : LayoutEvent) (s : LayoutSession) : Prop :=
  match event with
  | .resume index false _ => ∀ p, s.pending[index]? = some p → p.captured = s.latest
  | _ => True

/-- The layout after an action's commit is its edit of the latest committed one. -/
def EditsLatest (s : LayoutSession) (event : LayoutEvent) (s' : LayoutSession) : Prop :=
  ∀ index focusedElsewhere sameObject p, event = .resume index focusedElsewhere sameObject →
    s.pending[index]? = some p → ∀ layout,
      writes s p p.captured focusedElsewhere sameObject = some layout →
        s'.stored = some layout ∧ (commitAfterAwait p.action s.latest s.gen).1 = some layout

theorem step_eq_serialStep (event : LayoutEvent) (s : LayoutSession)
    (h : CapturedLatest event s) : step event s = serialStep event s := by
  cases event with
  | resume index focusedElsewhere sameObject =>
    simp only [step, serialStep, stepWith]
    cases hp : s.pending[index]? with
    | none => rfl
    | some p =>
      cases focusedElsewhere with
      | true => simp [writes]
      | false => simp only [h p hp]
  | _ => rfl

theorem step_editsLatest (event : LayoutEvent) (s : LayoutSession)
    (h : CapturedLatest event s) : EditsLatest s event (step event s) := by
  rintro index focusedElsewhere sameObject p rfl hp layout hwrites
  have hstored : (step (.resume index focusedElsewhere sameObject) s).stored = some layout := by
    simp [step, stepWith, hp, hwrites]
  refine ⟨hstored, ?_⟩
  cases focusedElsewhere with
  | true => simp [writes] at hwrites
  | false =>
    rw [← h p hp]
    exact (Option.filter_eq_some_iff.mp hwrites).1

/-- **No update is lost** in a run whose resumed actions captured the latest
committed layout: the session goes through the states of the serial one, and
every commit after an await edits the latest committed layout. -/
theorem run_losesNoUpdate (s : LayoutSession) (events : List LayoutEvent)
    (hok : RunMeets step CapturedLatest s events) :
    visited step s events = visited serialStep s events ∧
      ∀ t ∈ transitions step s events, EditsLatest t.1 t.2.1 t.2.2 := by
  constructor
  · exact visited_congr step_eq_serialStep hok
  · exact invariant_transitions (P := fun _ => True) (fun _ _ _ _ => trivial)
      (fun event s _ h => step_editsLatest event s h) trivial hok

/-! ## A commit during the await -/

def emptyPaneLayout : WindowLayout :=
  { activeTabId := some "tab"
    tabs := [{ focusedWorkspaceTileId := none, id := "tab", label := none,
               workspaceLayout := some (.leaf
                { activePanelTabId := some "panel", id := "tile", workspaceId := "ws",
                  panelTabs :=
                    [{ focusedPaneId := some "pane", id := "panel", label := none,
                       panelLayout := .leaf
                        { command := none, id := "pane", paneType := .terminal, terminalId := none,
                          workspaceId := some "ws" } }] }) }] }

def twoTabLayout : WindowLayout :=
  { emptyPaneLayout with
    tabs := emptyPaneLayout.tabs ++
      [{ focusedWorkspaceTileId := none, id := "tab-2", label := none, workspaceLayout := none }] }

def freshSession (layout : WindowLayout) : LayoutSession :=
  { stored := some layout, rendered := some layout, pending := [], gen := .sessionStart }

/-- A terminal assigned while nothing else is committed. -/
theorem run_losesNoUpdate_assign : visited step (freshSession emptyPaneLayout)
        [.startAssign "term" "ws" (some "pane"), .resume 0 false false] =
      visited serialStep (freshSession emptyPaneLayout)
        [.startAssign "term" "ws" (some "pane"), .resume 0 false false] ∧
    ∀ t ∈ transitions step (freshSession emptyPaneLayout)
        [.startAssign "term" "ws" (some "pane"), .resume 0 false false],
      EditsLatest t.1 t.2.1 t.2.2 := by
  apply run_losesNoUpdate
  refine ⟨trivial, fun p hp => ?_, trivial⟩
  cases hp
  decide

/-- The window tab committed during the await is gone after the assignment; the
serial session keeps it. -/
theorem startAssign_losesCommit : ¬ EditsLatest (finalState step (freshSession emptyPaneLayout)
          [.startAssign "term" "ws" (some "pane"), .commit twoTabLayout]) (.resume 0 false false)
        (finalState step (freshSession emptyPaneLayout)
          [.startAssign "term" "ws" (some "pane"), .commit twoTabLayout, .resume 0 false false]) ∧
      ((finalState step (freshSession emptyPaneLayout)
        [.startAssign "term" "ws" (some "pane"), .commit twoTabLayout,
          .resume 0 false false]).stored.map (·.tabs.length) = some 1) ∧
      ((finalState serialStep (freshSession emptyPaneLayout)
        [.startAssign "term" "ws" (some "pane"), .commit twoTabLayout,
          .resume 0 false false]).stored.map (·.tabs.length) = some 2) := by
  refine ⟨fun h => ?_, by decide, by decide⟩
  obtain ⟨hstored, hedit⟩ := h 0 false false _ rfl rfl _ rfl
  revert hedit
  decide

end Laborer.Panels
