import Laborer.Panels.AsyncLayoutActions
import Laborer.Panels.ReconcileCorrect

/-!
# The start-up reconcile among other events

The start-up effect lists the live terminals, awaits one spawn after the other,
and then rewrites the layout that is current at that time. Meanwhile terminals
start and exit and other handlers commit layouts. The set of live ids is the one
of the listing throughout.
-/

namespace Laborer.Panels

open List Option

namespace ReconcileRace

open Laborer.Library

/-! ## The session -/

/-- What the effect captures when it starts to respawn. -/
structure Captured where
  liveIds : List String
  persisted : WindowLayout
deriving DecidableEq

/-- How far the reconcile has come (`hasReconciled`, and the loop of
`respawnStaleTerminals`). -/
inductive Phase where
  | waiting
  | respawning (captured : Captured) (remaining : List StaleTerminalLeaf) (attempt : ℕ)
      (respawns : Respawns)
  | reconciled
deriving DecidableEq

/-- The stored layout, the one of the last render, the terminals of the service,
and what the renderer knows of them. -/
structure Session where
  stored : Option WindowLayout
  persistedWindowLayout : Option WindowLayout
  liveNow : List String
  liveTerminals : List String
  terminalsLoading : Bool
  serviceAvailable : Bool
  phase : Phase

def Session.current (s : Session) : Option WindowLayout :=
  readLayout s.stored

inductive Event where
  /-- React renders; the effect sees the stored layout from now on. -/
  | render
  /-- Another handler commits a layout, such as one with a new terminal. -/
  | commit (layout : WindowLayout)
  /-- A terminal comes up at the service, or one is restored. -/
  | terminalStarted (id : String)
  | terminalExited (id : String)
  /-- The renderer's terminal list and service status change. -/
  | listed (liveTerminals : List String) (serviceAvailable : Bool)
  /-- The effect runs. -/
  | runEffect
  /-- The attempt to spawn for the next stale pane ends. -/
  | answer (outcome : AttemptOutcome)
  /-- The loop is done and `commitReconciledLayouts` is called. -/
  | commitReconciled

def maxRetries : ℕ := 5

def runEffect (s : Session) : Session :=
  match s.phase with
  | .waiting =>
    if s.terminalsLoading then s
    else
      match s.persistedWindowLayout with
      | none => { s with phase := .reconciled }
      | some persisted =>
        if ¬ s.serviceAvailable then s
        else
          let staleLeaves := getStaleTerminalLeavesHierarchical persisted s.liveTerminals
          if staleLeaves.length = 0 then { s with phase := .reconciled }
          else
            { s with
              phase := .respawning { liveIds := s.liveTerminals, persisted }
                (staleLeaves.filter attempted) 0 { respawnedIds := [], failedStaleIds := [] } }
  | _ => s

/-- The end of one attempt. A terminal that was spawned in time is up. -/
def answer (outcome : AttemptOutcome) (s : Session) : Session :=
  match s.phase with
  | .respawning captured (leaf :: remaining) attempt respawns =>
    match outcome with
    | .spawned id =>
      { s with
        liveNow := s.liveNow ++ [id]
        phase := .respawning captured remaining 0 (recordRespawn leaf (some id) respawns) }
    | .initializing =>
      if attempt < maxRetries then
        { s with phase := .respawning captured (leaf :: remaining) (attempt + 1) respawns }
      else
        { s with phase := .respawning captured remaining 0 (recordRespawn leaf none respawns) }
    | _ =>
      { s with phase := .respawning captured remaining 0 (recordRespawn leaf none respawns) }
  | _ => s

/-- The layout that `commitReconciledLayouts` works on. -/
def effectiveWindowLayout (s : Session) (captured : Captured) : WindowLayout :=
  s.current.getD captured.persisted

/-- `commitReconciledLayouts`. The result is the object that was read, and is
not written, when there was nothing to reconcile in it. -/
def commitReconciled (s : Session) : Session :=
  match s.phase with
  | .respawning captured [] _ respawns =>
    let base := effectiveWindowLayout s captured
    let liveIds := effectiveLiveIds captured.liveIds respawns
    if getStaleTerminalLeavesHierarchical base liveIds = [] ∧ s.current.isSome then
      { s with phase := .reconciled }
    else
      { s with
        stored := some (reconcileWindowLayout base liveIds respawns.respawnedIds)
        phase := .reconciled }
  | _ => s

def step (event : Event) (s : Session) : Session :=
  match event with
  | .render => { s with persistedWindowLayout := s.current }
  | .commit layout => { s with stored := some layout }
  | .terminalStarted id => { s with liveNow := s.liveNow ++ [id] }
  | .terminalExited id => { s with liveNow := s.liveNow.filter (· ≠ id) }
  | .listed liveTerminals serviceAvailable =>
    { s with liveTerminals, serviceAvailable, terminalsLoading := false }
  | .runEffect => runEffect s
  | .answer outcome => answer outcome s
  | .commitReconciled => commitReconciled s

/-! ## What is expected -/

/-- A pane is changed only when its terminal is gone, and then gets the terminal
that was respawned for it, if that is up. -/
structure PaneKept (liveNow : List String) (respawns : Respawns) (pane after : LeafNode) :
    Prop where
  kept : after ≠ pane → ∃ id, pane.terminalId = some id ∧ id ∉ liveNow
  respawned : ∀ id new, pane.terminalId = some id → id ∉ liveNow →
    respawns.respawnedIds.get? id = some new → new ∈ liveNow → after.terminalId = some new

/-- **The reconcile only touches what is gone**: it leaves the layout it read
with each pane kept. -/
def KeepsLive (s : Session) (event : Event) (s' : Session) : Prop :=
  ∀ captured attempt respawns, event = .commitReconciled →
    s.phase = .respawning captured [] attempt respawns →
      ∃ f, (s'.stored = some (mapPanes f (effectiveWindowLayout s captured)) ∨
          s'.current = some (mapPanes f (effectiveWindowLayout s captured))) ∧
        ∀ pane ∈ layoutPanes (effectiveWindowLayout s captured),
          PaneKept s.liveNow respawns pane (f pane)

/-- **The condition**: when the reconcile commits, each live terminal that the layout references
was listed at the start, or a spawn to replace it failed or was answered with it; and where a spawn
for an id that is gone brought up a terminal, no other spawn for that id failed. -/
def CommitSafe (event : Event) (s : Session) : Prop :=
  match event, s.phase with
  | .commitReconciled, .respawning captured [] _ respawns =>
    ∀ pane ∈ layoutPanes (effectiveWindowLayout s captured), ∀ id, pane.terminalId = some id →
      (id ∈ s.liveNow → id ∈ captured.liveIds ∨ id ∈ respawns.failedStaleIds ∨
        respawns.respawnedIds.get? id = some id) ∧
      (id ∉ s.liveNow → ∀ new ∈ s.liveNow, respawns.respawnedIds.get? id = some new →
        id ∉ respawns.failedStaleIds)
  | _, _ => True

/-! ## What is respawned was not listed -/

/-- The stale panes and the ids respawned for them were not in the listing. -/
def RespawnsStale (s : Session) : Prop :=
  match s.phase with
  | .respawning captured remaining _ respawns =>
    (∀ leaf ∈ remaining, leaf.terminalId ∉ captured.liveIds) ∧
      ∀ id new, respawns.respawnedIds.get? id = some new → id ∉ captured.liveIds
  | _ => True

theorem runEffect_respawnsStale (s : Session) (h : RespawnsStale s) :
    RespawnsStale (runEffect s) := by
  unfold runEffect
  cases hphase : s.phase with
  | waiting =>
    dsimp only
    split
    · exact h
    · split
      · trivial
      · next persisted _ =>
        split
        · exact h
        · split
          · trivial
          · refine ⟨fun leaf hleaf => ?_, fun id new hget => by cases hget⟩
            obtain ⟨pane, -, hstale⟩ := mem_filterMap.mp (mem_of_mem_filter hleaf)
            exact (staleLeaf?_eq_some _ hstale).2
  | respawning captured remaining attempt respawns => exact h
  | reconciled => exact h

theorem recordRespawn_stale {liveIds : List String} {leaf : StaleTerminalLeaf}
    {respawns : Respawns} (hleaf : leaf.terminalId ∉ liveIds)
    (h : ∀ id new, respawns.respawnedIds.get? id = some new → id ∉ liveIds)
    (result : Option String) : ∀ id new,
      (recordRespawn leaf result respawns).respawnedIds.get? id = some new → id ∉ liveIds := by
  intro id new hget
  cases result with
  | none => exact h id new hget
  | some spawned =>
    rw [recordRespawn, OrderedMap.get?_set] at hget
    split at hget
    · next hid => exact hid ▸ hleaf
    · exact h id new hget

theorem answer_respawnsStale (outcome : AttemptOutcome) (s : Session)
    (h : RespawnsStale s) : RespawnsStale (answer outcome s) := by
  unfold answer
  cases hphase : s.phase with
  | waiting => exact h
  | reconciled => exact h
  | respawning captured remaining attempt respawns =>
    cases remaining with
    | nil => exact h
    | cons leaf remaining =>
      unfold RespawnsStale at h
      rw [hphase] at h
      obtain ⟨hremaining, hrespawned⟩ := h
      have hrest : ∀ leaf ∈ remaining, leaf.terminalId ∉ captured.liveIds :=
        fun l hl => hremaining l (mem_cons_of_mem _ hl)
      have hrecord := recordRespawn_stale (hremaining leaf (mem_cons_self ..)) hrespawned
      cases outcome with
      | initializing =>
        dsimp only
        split
        · exact ⟨hremaining, hrespawned⟩
        · exact ⟨hrest, hrecord _⟩
      | _ => exact ⟨hrest, hrecord _⟩

theorem step_respawnsStale (event : Event) (s : Session) (h : RespawnsStale s) :
    RespawnsStale (step event s) := by
  cases event with
  | runEffect => exact runEffect_respawnsStale s h
  | answer outcome => exact answer_respawnsStale outcome s h
  | commitReconciled =>
    show RespawnsStale (commitReconciled s)
    unfold commitReconciled
    split
    · dsimp only
      split <;> trivial
    · exact h
  | _ => exact h

/-! ## The commit -/

theorem commitReconciled_layout {s : Session} {captured : Captured} {attempt : ℕ}
    {respawns : Respawns} (hphase : s.phase = .respawning captured [] attempt respawns) :
    let result := mapPanes (reconcileLeaf (effectiveLiveIds captured.liveIds respawns)
      respawns.respawnedIds) (effectiveWindowLayout s captured)
    (commitReconciled s).stored = some result ∨ (commitReconciled s).current = some result := by
  intro result
  unfold commitReconciled
  rw [hphase]
  dsimp only
  split
  · next hsame =>
    -- nothing is stale, so the reconciled layout is the one that was read
    right
    obtain ⟨hnone, hsome⟩ := hsame
    obtain ⟨layout, hlayout⟩ := isSome_iff_exists.mp hsome
    have hid : ∀ pane ∈ layoutPanes (effectiveWindowLayout s captured),
        reconcileLeaf (effectiveLiveIds captured.liveIds respawns) respawns.respawnedIds pane =
          id pane := by
      intro pane hpane
      have hstale := filterMap_eq_nil_iff.mp hnone pane hpane
      unfold staleLeaf? at hstale
      unfold reconcileLeaf
      cases hid : pane.terminalId with
      | none => rfl
      | some t =>
        simp only [hid] at hstale
        split at hstale
        · next hlive => exact if_pos hlive
        · cases hstale
    show s.current = some result
    rw [show result = _ from mapPanes_congr hid, mapPanes_id, effectiveWindowLayout, hlayout,
      getD_some]
  · exact .inl rfl

theorem paneKept_iff {captured : Captured} {respawns : Respawns} {liveNow : List String}
    (hstale : ∀ id new, respawns.respawnedIds.get? id = some new → id ∉ captured.liveIds)
    (pane : LeafNode) :
    PaneKept liveNow respawns pane (reconcileLeaf (effectiveLiveIds captured.liveIds respawns)
        respawns.respawnedIds pane) ↔ ∀ id, pane.terminalId = some id →
        (id ∈ liveNow → id ∈ captured.liveIds ∨ id ∈ respawns.failedStaleIds ∨
          respawns.respawnedIds.get? id = some id) ∧
        (id ∉ liveNow → ∀ new ∈ liveNow, respawns.respawnedIds.get? id = some new →
          id ∉ respawns.failedStaleIds) := by
  unfold reconcileLeaf
  cases hid : pane.terminalId with
  | none =>
    refine iff_of_true ⟨fun h => absurd rfl h, fun id new h => ?_⟩ (fun id h => nomatch h)
    rw [hid] at h
    cases h
  | some t =>
    by_cases hlive : t ∈ effectiveLiveIds captured.liveIds respawns
    · -- the pane is left alone, which is wrong when its id is gone but was respawned
      simp only [hlive, if_true]
      rw [effectiveLiveIds, mem_append] at hlive
      constructor
      · rintro ⟨-, hrespawned⟩ id hsome
        cases hsome
        refine ⟨fun _ => hlive.imp_right .inl, fun hgone new hnew hget => ?_⟩
        have hsame := hrespawned t new hid hgone hget hnew
        rw [hid] at hsame
        cases hsame
        exact absurd hnew hgone
      · intro hsafe
        refine ⟨fun h => absurd rfl h, fun id new hsome hgone hget hnew => ?_⟩
        rw [hid] at hsome
        cases hsome
        rcases hlive with hlive | hfailed
        · exact absurd hlive (hstale t new hget)
        · exact absurd hfailed ((hsafe t rfl).2 hgone new hnew hget)
    · -- the pane gets the respawned id, or none
      simp only [hlive, if_false]
      rw [effectiveLiveIds, mem_append, not_or] at hlive
      constructor
      · rintro ⟨hkept, -⟩ id hsome
        cases hsome
        refine ⟨fun hnow => .inr (.inr ?_), fun _ _ _ _ => hlive.2⟩
        by_contra hne
        obtain ⟨t', ht', hgone⟩ := hkept fun heq => hne (by
          have hterm := congrArg LeafNode.terminalId heq
          rw [hid] at hterm
          exact hterm)
        rw [hid] at ht'
        cases ht'
        exact hgone hnow
      · intro hsafe
        refine ⟨fun hne => ⟨t, hid, fun hnow => hne ?_⟩, fun id new hsome hgone hget hnew => ?_⟩
        · rcases (hsafe t rfl).1 hnow with hlisted | hfailed | hget
          · exact absurd hlisted hlive.1
          · exact absurd hfailed hlive.2
          · rw [hget, ← hid]
        · rw [hid] at hsome
          cases hsome
          exact hget

/-- **One commit** that meets the condition keeps what is live. -/
theorem step_keepsLive (event : Event) (s : Session) (hstale : RespawnsStale s)
    (hsafe : CommitSafe event s) : KeepsLive s event (step event s) := by
  rintro captured attempt respawns rfl hphase
  unfold CommitSafe at hsafe
  unfold RespawnsStale at hstale
  simp only [hphase] at hsafe hstale
  exact ⟨_, commitReconciled_layout hphase, fun pane hpane =>
    (paneKept_iff hstale.2 pane).mpr (hsafe pane hpane)⟩

/-- **No live terminal is lost to the reconcile** in a run whose commit meets
the condition: whatever starts, exits or is committed in between, the commit
changes only panes whose terminal is gone. -/
theorem run_keepsLive (s : Session) (hwaiting : s.phase = .waiting) (events : List Event)
    (hok : RunMeets step CommitSafe s events) :
    ∀ t ∈ transitions step s events, KeepsLive t.1 t.2.1 t.2.2 := by
  have hinit : RespawnsStale s := by
    unfold RespawnsStale
    rw [hwaiting]
    trivial
  exact invariant_transitions (P := RespawnsStale)
    (fun event s h _ => step_respawnsStale event s h) step_keepsLive hinit hok

/-! ## A terminal that comes up during the reconcile -/

def twoPanes (right : Option String) : WindowLayout :=
  { activeTabId := some "tab"
    tabs := [{ focusedWorkspaceTileId := none, id := "tab", label := none,
               workspaceLayout := some (.leaf
                { activePanelTabId := some "panel", id := "tile", workspaceId := "ws",
                  panelTabs := [{ focusedPaneId := none, id := "panel", label := none,
                                  panelLayout := .split ⟨"split", .horizontal, [50, 50]⟩
                                    [.leaf { command := none, id := "left",
                                             paneType := .terminal, terminalId := some "old",
                                             workspaceId := some "ws" },
                                     .leaf { command := none, id := "right",
                                             paneType := .terminal, terminalId := right,
                                             workspaceId := some "ws" }] }] }) }] }

def freshSession : Session :=
  { stored := some (twoPanes none), persistedWindowLayout := none, liveNow := []
    liveTerminals := [], terminalsLoading := true, serviceAvailable := false
    phase := .waiting }

/-- The session of a restart in which nothing else happens, before the commit. -/
def aloneSession : Session :=
  finalState step freshSession
    [.render, .listed [] true, .runEffect, .answer (.spawned "new")]

theorem run_keepsLive_alone :
    KeepsLive aloneSession .commitReconciled (step .commitReconciled aloneSession) := by
  refine run_keepsLive freshSession rfl
    [.render, .listed [] true, .runEffect, .answer (.spawned "new"), .commitReconciled] ?_
      (aloneSession, .commitReconciled, step .commitReconciled aloneSession) ?_
  rotate_left
  · exact mem_of_getElem? (i := 4) rfl
  refine ⟨trivial, trivial, trivial, trivial, ?_, trivial⟩
  unfold CommitSafe
  have hphase : (step (.answer (.spawned "new")) (step .runEffect (step (.listed [] true)
      (step .render freshSession)))).phase =
        .respawning { liveIds := [], persisted := twoPanes none } [] 0
          { respawnedIds := [("old", "new")], failedStaleIds := [] } := by decide
  simp only [hphase]
  intro pane hpane id hid
  have hold : ∀ pane ∈ layoutPanes (twoPanes none), pane.terminalId ≠ some "new" := by decide
  have hbase : effectiveWindowLayout (step (.answer (.spawned "new")) (step .runEffect
      (step (.listed [] true) (step .render freshSession))))
        { liveIds := [], persisted := twoPanes none } = twoPanes none := by decide
  have hlive : (step (.answer (.spawned "new")) (step .runEffect
      (step (.listed [] true) (step .render freshSession)))).liveNow = ["new"] := by decide
  rw [hbase] at hpane
  rw [hlive]
  refine ⟨fun hnew => ?_, fun _ _ _ _ => not_mem_nil⟩
  rw [mem_singleton.mp hnew] at hid
  exact absurd hid (hold pane hpane)

/-- A terminal that was spawned into the right pane while the reconcile awaited
the respawn for the left one is up, and its pane has lost it. -/
theorem commitReconciled_stripsTerminal :
    let s := finalState step freshSession
      [.render, .listed [] true, .runEffect, .terminalStarted "fresh",
        .commit (twoPanes (some "fresh")), .answer (.spawned "new")]
    "fresh" ∈ s.liveNow ∧ ¬ KeepsLive s .commitReconciled (step .commitReconciled s) := by
  intro s
  refine ⟨by decide, fun h => ?_⟩
  have hphase : s.phase = .respawning { liveIds := [], persisted := twoPanes none } [] 0
      { respawnedIds := [("old", "new")], failedStaleIds := [] } := by decide
  obtain ⟨f, hf, hkept⟩ := h _ _ _ rfl hphase
  have hbase : effectiveWindowLayout s { liveIds := [], persisted := twoPanes none } =
      twoPanes (some "fresh") := by decide
  rw [hbase] at hf hkept
  -- every pane with the live terminal is left alone by `f`, but none has it afterwards
  have hpane : ∃ pane ∈ layoutPanes (twoPanes (some "fresh")), pane.terminalId = some "fresh" := by
    decide
  obtain ⟨pane, hmem, hid⟩ := hpane
  have hsame : f pane = pane := by
    by_contra hne
    obtain ⟨id, hsome, hgone⟩ := (hkept pane hmem).kept hne
    rw [hid] at hsome
    cases hsome
    exact hgone (by decide)
  have hafter : some "fresh" ∈ (layoutPanes (mapPanes f (twoPanes (some "fresh")))).map
      (·.terminalId) := by
    rw [layoutPanes_mapPanes]
    exact mem_map.mpr ⟨f pane, mem_map_of_mem hmem, by rw [hsame, hid]⟩
  have hlost : ∀ layout, ((step .commitReconciled s).stored = some layout ∨
      (step .commitReconciled s).current = some layout) →
        some "fresh" ∉ (layoutPanes layout).map (·.terminalId) := by
    have hstored : ∀ result ∈ (step .commitReconciled s).stored,
        some "fresh" ∉ (layoutPanes result).map (·.terminalId) := by decide
    have hcurrent : ∀ result ∈ (step .commitReconciled s).current,
        some "fresh" ∉ (layoutPanes result).map (·.terminalId) := by decide
    rintro layout (h | h)
    · exact hstored layout h
    · exact hcurrent layout h
  exact hlost _ hf hafter

end ReconcileRace

end Laborer.Panels
