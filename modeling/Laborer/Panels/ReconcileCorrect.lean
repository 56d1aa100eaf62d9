import Laborer.Panels.Reconcile

/-!
# When respawning is correct

The respawn keys its results by the old terminal id, and forgets a terminal that
comes up after its attempt timed out. `RespawnSafe` is exactly what makes this
harmless: stale panes that share an id are due the same terminal.
-/

namespace Laborer.Panels

open Laborer.Library List Function

abbrev RespawnEntry := StaleTerminalLeaf × (ℕ → AttemptOutcome)

/-- The stale panes of a layout, the `k`-th with the `k`-th outcomes. -/
def respawnPlan (layout : WindowLayout) (liveIds : List String)
    (attempts : ℕ → ℕ → AttemptOutcome) : List RespawnEntry :=
  (getStaleTerminalLeavesHierarchical layout liveIds).zipIdx.map fun (leaf, k) =>
    (leaf, attempts k)

def respawnAndReconcile (layout : WindowLayout) (liveIds : List String) (maxRetries : ℕ)
    (attempts : ℕ → ℕ → AttemptOutcome) : WindowLayout :=
  let respawns := respawnStaleTerminals maxRetries (respawnPlan layout liveIds attempts)
  reconcileWindowLayout layout (effectiveLiveIds liveIds respawns) respawns.respawnedIds

/-! ## The attempt that decides -/

/-- The terminal that an attempt returned in time. -/
def AttemptOutcome.returned? : AttemptOutcome → Option String
  | .spawned id => some id
  | _ => none

/-- The terminal that an attempt brought up, in time or not. -/
def AttemptOutcome.terminal? : AttemptOutcome → Option String
  | .spawned id => some id
  | .timedOut late => late
  | _ => none

/-- The first attempt within the retries that the server did not refuse because
it was initializing. -/
def decisive (maxRetries : ℕ) (attempts : ℕ → AttemptOutcome) : Option AttemptOutcome :=
  ((List.range (maxRetries + 1)).map attempts).find? (· ≠ .initializing)

def returnedTerminal (maxRetries : ℕ) (attempts : ℕ → AttemptOutcome) : Option String :=
  (decisive maxRetries attempts).bind (·.returned?)

theorem find?_range'_succ (attempts : ℕ → AttemptOutcome) (start n : ℕ) :
    ((List.range' start (n + 1)).map attempts).find? (· ≠ .initializing) =
      if attempts start = .initializing then
        ((List.range' (start + 1) n).map attempts).find? (· ≠ .initializing)
      else some (attempts start) := by
  rw [range'_succ, map_cons, find?_cons]
  by_cases h : attempts start = .initializing <;> simp [h]

theorem retryFrom_eq (attempts : ℕ → AttemptOutcome) (retriesLeft attempt : ℕ) :
    retryFrom attempts retriesLeft attempt =
      (((List.range' attempt (retriesLeft + 1)).map attempts).find? (· ≠ .initializing)).bind
        (·.returned?) := by
  induction retriesLeft generalizing attempt with
  | zero =>
    cases hout : attempts attempt <;> simp [retryFrom, hout, AttemptOutcome.returned?]
  | succ n ih =>
    rw [find?_range'_succ]
    cases hout : attempts attempt <;> simp [retryFrom, hout, ih, AttemptOutcome.returned?]

theorem terminalsStarted_eq_find (attempts : ℕ → AttemptOutcome)
    (retriesLeft attempt : ℕ) : terminalsStarted attempts retriesLeft attempt =
      ((((List.range' attempt (retriesLeft + 1)).map attempts).find? (· ≠ .initializing)).bind
        (·.terminal?)).toList := by
  induction retriesLeft generalizing attempt with
  | zero =>
    cases hout : attempts attempt <;> simp [terminalsStarted, hout, AttemptOutcome.terminal?]
  | succ n ih =>
    rw [find?_range'_succ]
    cases hout : attempts attempt <;> simp [terminalsStarted, hout, ih, AttemptOutcome.terminal?]

/-- **The retry loop** returns what the deciding attempt returned. -/
theorem retryOnInitializing_eq (maxRetries : ℕ) (attempts : ℕ → AttemptOutcome) :
    retryOnInitializing maxRetries attempts = returnedTerminal maxRetries attempts := by
  rw [retryOnInitializing, retryFrom_eq, returnedTerminal, decisive, range_eq_range']

theorem terminalsStarted_eq (maxRetries : ℕ) (attempts : ℕ → AttemptOutcome) :
    terminalsStarted attempts maxRetries 0 =
      ((decisive maxRetries attempts).bind (·.terminal?)).toList := by
  rw [terminalsStarted_eq_find, decisive, range_eq_range']

/-! ## What is expected -/

section Expected

variable (maxRetries : ℕ)

/-- A stale pane references the terminal spawned for it, or keeps its old id
when its spawn failed, or has no terminal when it has no workspace. -/
def Settled (e : RespawnEntry) (after : Option String) : Prop :=
  (attempted e.1 ∧ ∃ id, returnedTerminal maxRetries e.2 = some id ∧ after = some id) ∨
    (attempted e.1 ∧ returnedTerminal maxRetries e.2 = none ∧ after = some e.1.terminalId) ∨
      (truthy e.1.workspaceId = none ∧ after = none)

def startedFor (e : RespawnEntry) : List String :=
  if attempted e.1 then terminalsStarted e.2 maxRetries 0 else []

/-- The terminal that was spawned in time for a stale pane. -/
def spawnedFor (e : RespawnEntry) : Option String :=
  if attempted e.1 then returnedTerminal maxRetries e.2 else none

def resultingLiveIds (liveIds : List String) (plan : List RespawnEntry) : List String :=
  effectiveLiveIds liveIds (respawnStaleTerminals maxRetries plan) ++
    plan.filterMap (spawnedFor maxRetries)

/-- The panes that were stale, as they are in the result. -/
def stalePanesAfter (layout : WindowLayout) (liveIds : List String) (result : WindowLayout) :
    List LeafNode :=
  ((layoutPanes layout).zip (layoutPanes result)).filterMap fun (pane, after) =>
    (staleLeaf? liveIds pane).map fun _ => after

def eraseTerminals (layout : WindowLayout) : WindowLayout :=
  mapPanes (fun pane => { pane with terminalId := none }) layout

/-- **Correctness of a respawn.** -/
structure RespawnCorrect (layout : WindowLayout) (liveIds : List String)
    (attempts : ℕ → ℕ → AttemptOutcome) (result : WindowLayout) : Prop where
  settled : ∀ x ∈ (respawnPlan layout liveIds attempts).zip (stalePanesAfter layout liveIds result),
    Settled maxRetries x.1 x.2.terminalId
  started : ∀ e ∈ respawnPlan layout liveIds attempts, ∀ id ∈ startedFor maxRetries e,
    some id ∈ (layoutPanes result).map (·.terminalId)
  live : ∀ x ∈ (layoutPanes layout).zip (layoutPanes result),
    staleLeaf? liveIds x.1 = none → x.2 = x.1
  unchanged : eraseTerminals result = eraseTerminals layout
  stable : ∀ respawnedIds, reconcileWindowLayout result
    (resultingLiveIds maxRetries liveIds (respawnPlan layout liveIds attempts)) respawnedIds =
      result

/-- The terminal a stale pane should end up with. -/
def dueTerminal (e : RespawnEntry) : Option String :=
  match truthy e.1.workspaceId with
  | none => none
  | some _ => (returnedTerminal maxRetries e.2).or (some e.1.terminalId)

/-- **The condition**: stale panes with a workspace have an id to be recorded
under, those that share an id are due the same terminal, and a terminal that
comes up after its attempt timed out is one that some pane has anyway. -/
structure RespawnSafe (layout : WindowLayout) (liveIds : List String)
    (attempts : ℕ → ℕ → AttemptOutcome) : Prop where
  named : ∀ e ∈ respawnPlan layout liveIds attempts,
    truthy e.1.workspaceId ≠ none → e.1.terminalId ≠ ""
  shared : ∀ e ∈ respawnPlan layout liveIds attempts, ∀ e' ∈ respawnPlan layout liveIds attempts,
    e.1.terminalId = e'.1.terminalId → dueTerminal maxRetries e = dueTerminal maxRetries e'
  late : ∀ e ∈ respawnPlan layout liveIds attempts, attempted e.1 →
    ∀ id, decisive maxRetries e.2 = some (.timedOut (some id)) →
      (∃ pane ∈ layoutPanes layout, staleLeaf? liveIds pane = none ∧ pane.terminalId = some id) ∨
        ∃ e' ∈ respawnPlan layout liveIds attempts, dueTerminal maxRetries e' = some id

end Expected

/-! ## The loop over the stale panes -/

section Loop

variable {maxRetries : ℕ}

theorem mem_failed_foldl (plan : List RespawnEntry) (respawns : Respawns) (t : String) :
    t ∈ (plan.foldl (respawnOne maxRetries) respawns).failedStaleIds ↔
      t ∈ respawns.failedStaleIds ∨ ∃ e ∈ plan, attempted e.1 ∧ e.1.terminalId = t ∧
        returnedTerminal maxRetries e.2 = none := by
  induction plan generalizing respawns with
  | nil => simp
  | cons e plan ih =>
    rw [foldl_cons, ih]
    simp only [mem_cons, exists_eq_or_imp]
    have hone : t ∈ (respawnOne maxRetries respawns e).failedStaleIds ↔
        t ∈ respawns.failedStaleIds ∨ (attempted e.1 ∧ e.1.terminalId = t ∧
          returnedTerminal maxRetries e.2 = none) := by
      unfold respawnOne
      rw [retryOnInitializing_eq]
      cases hattempted : attempted e.1 with
      | false => simp
      | true =>
        cases hretry : returnedTerminal maxRetries e.2 with
        | none => simp [recordRespawn, eq_comm]
        | some id => simp [recordRespawn]
    rw [hone, or_assoc]

theorem get?_foldl_eq_some (plan : List RespawnEntry) (respawns : Respawns) {t id : String}
    (h : (plan.foldl (respawnOne maxRetries) respawns).respawnedIds.get? t = some id) :
    respawns.respawnedIds.get? t = some id ∨ ∃ e ∈ plan, attempted e.1 ∧ e.1.terminalId = t ∧
      returnedTerminal maxRetries e.2 = some id := by
  induction plan generalizing respawns with
  | nil => exact .inl h
  | cons e plan ih =>
    simp only [mem_cons, exists_eq_or_imp]
    rcases ih _ h with h | h
    · unfold respawnOne at h
      rw [retryOnInitializing_eq] at h
      cases hattempted : attempted e.1 with
      | false => simp only [hattempted, Bool.false_eq_true, if_false] at h; exact .inl h
      | true =>
        cases hretry : returnedTerminal maxRetries e.2 with
        | none =>
          simp only [hattempted, if_true, hretry, recordRespawn] at h
          exact .inl h
        | some new =>
          simp only [hattempted, if_true, hretry, recordRespawn, OrderedMap.get?_set] at h
          split at h
          · next ht => exact .inr (.inl ⟨rfl, ht, h⟩)
          · exact .inl h
    · exact .inr (.inr h)

theorem get?_foldl_eq_none (plan : List RespawnEntry) (respawns : Respawns) {t : String}
    (h : (plan.foldl (respawnOne maxRetries) respawns).respawnedIds.get? t = none) :
    respawns.respawnedIds.get? t = none ∧ ∀ e ∈ plan, attempted e.1 → e.1.terminalId = t →
      returnedTerminal maxRetries e.2 = none := by
  induction plan generalizing respawns with
  | nil => exact ⟨h, fun _ he => absurd he not_mem_nil⟩
  | cons e plan ih =>
    obtain ⟨hone, hrest⟩ := ih _ h
    rw [forall_mem_cons]
    unfold respawnOne at hone
    rw [retryOnInitializing_eq] at hone
    cases hattempted : attempted e.1 with
    | false =>
      simp only [hattempted, Bool.false_eq_true, if_false] at hone
      exact ⟨hone, fun h => absurd h (by simp), hrest⟩
    | true =>
      cases hretry : returnedTerminal maxRetries e.2 with
      | none =>
        simp only [hattempted, if_true, hretry, recordRespawn] at hone
        exact ⟨hone, fun _ _ => rfl, hrest⟩
      | some new =>
        simp only [hattempted, if_true, hretry, recordRespawn, OrderedMap.get?_set] at hone
        split at hone
        · cases hone
        · next ht => exact ⟨hone, fun _ h => absurd h ht, hrest⟩

theorem mem_failedStaleIds (plan : List RespawnEntry) (t : String) :
    t ∈ (respawnStaleTerminals maxRetries plan).failedStaleIds ↔
      ∃ e ∈ plan, attempted e.1 ∧ e.1.terminalId = t ∧ returnedTerminal maxRetries e.2 = none := by
  simp [respawnStaleTerminals, mem_failed_foldl]

theorem get?_respawnedIds {plan : List RespawnEntry} {t id : String}
    (h : (respawnStaleTerminals maxRetries plan).respawnedIds.get? t = some id) :
    ∃ e ∈ plan, attempted e.1 ∧ e.1.terminalId = t ∧ returnedTerminal maxRetries e.2 = some id := by
  rcases get?_foldl_eq_some plan _ h with h | h
  · cases h
  · exact h

variable (maxRetries)

/-- The terminal that a stale pane with the given old id ends up with. -/
def settledTerminal (plan : List RespawnEntry) (t : String) : Option String :=
  let respawns := respawnStaleTerminals maxRetries plan
  if t ∈ respawns.failedStaleIds then some t else respawns.respawnedIds.get? t

variable {maxRetries}

theorem settled_iff (e : RespawnEntry) (after : Option String) : Settled maxRetries e after ↔
      (truthy e.1.workspaceId ≠ none → e.1.terminalId ≠ "") ∧ after = dueTerminal maxRetries e := by
  unfold Settled dueTerminal attempted
  cases truthy e.1.workspaceId with
  | none => simp
  | some w =>
    by_cases hid : e.1.terminalId = ""
    · simp [hid]
    · cases returnedTerminal maxRetries e.2 <;> simp [hid]

/-- **Panes that share an id**: all are settled exactly when all are due the
same terminal, and those with a workspace have an id. -/
theorem settled_all_iff (plan : List RespawnEntry) :
    (∀ e ∈ plan, Settled maxRetries e (settledTerminal maxRetries plan e.1.terminalId)) ↔
      (∀ e ∈ plan, truthy e.1.workspaceId ≠ none → e.1.terminalId ≠ "") ∧
        ∀ e ∈ plan, ∀ e' ∈ plan, e.1.terminalId = e'.1.terminalId →
          dueTerminal maxRetries e = dueTerminal maxRetries e' := by
  simp only [settled_iff]
  constructor
  · intro h
    refine ⟨fun e he => (h e he).1, fun e he e' he' hid => ?_⟩
    rw [← (h e he).2, ← (h e' he').2, hid]
  · rintro ⟨hnamed, hshared⟩ e he
    refine ⟨hnamed e he, ?_⟩
    -- a pane whose spawn was attempted is due the spawned terminal, or the old one
    have hdue : ∀ e' : RespawnEntry, attempted e'.1 → dueTerminal maxRetries e' =
        (returnedTerminal maxRetries e'.2).or (some e'.1.terminalId) := by
      intro e' hattempted
      unfold dueTerminal
      cases hw : truthy e'.1.workspaceId with
      | none => simp [attempted, hw] at hattempted
      | some w => rfl
    unfold settledTerminal
    by_cases hmem : e.1.terminalId ∈ (respawnStaleTerminals maxRetries plan).failedStaleIds
    · -- some spawn for this id failed, and its pane is due the old id
      rw [if_pos hmem]
      obtain ⟨e', he', hattempted, hid, hretry⟩ := (mem_failedStaleIds plan _).mp hmem
      rw [hshared e he e' he' hid.symm, hdue e' hattempted, hretry, hid]
      rfl
    · rw [if_neg hmem]
      cases hget : (respawnStaleTerminals maxRetries plan).respawnedIds.get? e.1.terminalId with
      | some id =>
        obtain ⟨e', he', hattempted, hid, hretry⟩ := get?_respawnedIds hget
        rw [hshared e he e' he' hid.symm, hdue e' hattempted, hretry]
        rfl
      | none =>
        -- no spawn for this id was attempted, so the pane has no workspace
        have hnone := (get?_foldl_eq_none plan _ hget).2 e he
        unfold dueTerminal
        cases hw : truthy e.1.workspaceId with
        | none => rfl
        | some w =>
          have hattempted : attempted e.1 = true := by
            simp [attempted, hw, hnamed e he (by simp [hw])]
          exact absurd ((mem_failedStaleIds plan _).mpr
            ⟨e, he, hattempted, rfl, hnone hattempted rfl⟩) hmem

theorem settledTerminal_cases (maxRetries : ℕ) (plan : List RespawnEntry) (t : String) :
    settledTerminal maxRetries plan t = none ∨ (settledTerminal maxRetries plan t = some t ∧
        t ∈ (respawnStaleTerminals maxRetries plan).failedStaleIds) ∨
      ∃ id, settledTerminal maxRetries plan t = some id ∧
        id ∈ plan.filterMap (spawnedFor maxRetries) := by
  unfold settledTerminal
  by_cases hmem : t ∈ (respawnStaleTerminals maxRetries plan).failedStaleIds
  · exact .inr (.inl ⟨if_pos hmem, hmem⟩)
  · rw [if_neg hmem]
    cases hget : (respawnStaleTerminals maxRetries plan).respawnedIds.get? t with
    | none => exact .inl rfl
    | some id =>
      obtain ⟨e, he, hattempted, _, hretry⟩ := get?_respawnedIds hget
      refine .inr (.inr ⟨id, rfl, mem_filterMap.mpr ⟨e, he, ?_⟩⟩)
      simp [spawnedFor, hattempted, hretry]

end Loop

/-! ## The panes of the result -/

section Result

variable (layout : WindowLayout) (liveIds : List String) (maxRetries : ℕ)
  (attempts : ℕ → ℕ → AttemptOutcome)

/-- What the respawn and the reconciliation do to one pane. -/
def settlePane (plan : List RespawnEntry) (pane : LeafNode) : LeafNode :=
  match staleLeaf? liveIds pane with
  | none => pane
  | some leaf => { pane with terminalId := settledTerminal maxRetries plan leaf.terminalId }

theorem staleLeaf?_eq_some {pane : LeafNode} {leaf : StaleTerminalLeaf}
    (h : staleLeaf? liveIds pane = some leaf) :
    pane.terminalId = some leaf.terminalId ∧ leaf.terminalId ∉ liveIds := by
  unfold staleLeaf? at h
  cases hid : pane.terminalId with
  | none => simp [hid] at h
  | some t =>
    simp only [hid] at h
    split at h
    · cases h
    · next hlive => cases h; exact ⟨rfl, hlive⟩

theorem reconcileLeaf_eq_settlePane (plan : List RespawnEntry) (pane : LeafNode) :
    reconcileLeaf (effectiveLiveIds liveIds (respawnStaleTerminals maxRetries plan))
      (respawnStaleTerminals maxRetries plan).respawnedIds pane =
        settlePane liveIds maxRetries plan pane := by
  unfold reconcileLeaf settlePane staleLeaf? settledTerminal
  cases hid : pane.terminalId with
  | none => rfl
  | some t =>
    by_cases hlive : t ∈ liveIds
    · simp [effectiveLiveIds, hlive]
    · by_cases hfailed : t ∈ (respawnStaleTerminals maxRetries plan).failedStaleIds
      · simp [effectiveLiveIds, hlive, hfailed, ← hid]
      · simp [effectiveLiveIds, hlive, hfailed]

/-- **The two passes are one rewriting of the panes.** -/
theorem respawnAndReconcile_eq : respawnAndReconcile layout liveIds maxRetries attempts =
    mapPanes (settlePane liveIds maxRetries (respawnPlan layout liveIds attempts)) layout := by
  exact mapPanes_congr fun pane _ => reconcileLeaf_eq_settlePane liveIds maxRetries _ pane

variable {layout liveIds}

@[simp] theorem respawnPlan_map_fst : (respawnPlan layout liveIds attempts).map Prod.fst =
    getStaleTerminalLeavesHierarchical layout liveIds := by
  simp [respawnPlan, map_map, comp_def]

variable (layout liveIds)

theorem stalePanesAfter_terminals (plan : List RespawnEntry)
    (hplan : plan.map Prod.fst = getStaleTerminalLeavesHierarchical layout liveIds) :
    (stalePanesAfter layout liveIds (mapPanes (settlePane liveIds maxRetries plan) layout)).map
        (·.terminalId) = plan.map fun e => settledTerminal maxRetries plan e.1.terminalId := by
  have hfst : (plan.map fun e => settledTerminal maxRetries plan e.1.terminalId) =
      (plan.map Prod.fst).map fun leaf => settledTerminal maxRetries plan leaf.terminalId := by
    rw [map_map]
    rfl
  rw [hfst, hplan, stalePanesAfter, layoutPanes_mapPanes, getStaleTerminalLeavesHierarchical]
  generalize layoutPanes layout = panes
  induction panes with
  | nil => rfl
  | cons pane panes ih =>
    cases hstale : staleLeaf? liveIds pane with
    | none => simpa [hstale] using ih
    | some leaf => simpa [hstale, settlePane] using ih

theorem forall_zip_iff {α β γ : Type} {as : List α} {bs : List β} {g : β → γ} {k : α → γ}
    (h : bs.map g = as.map k) (P : α → γ → Prop) :
    (∀ x ∈ as.zip bs, P x.1 (g x.2)) ↔ ∀ a ∈ as, P a (k a) := by
  induction as generalizing bs with
  | nil => simp
  | cons a as ih =>
    cases bs with
    | nil => simp at h
    | cons b bs =>
      rw [map_cons, map_cons, List.cons.injEq] at h
      simp only [zip_cons_cons, forall_mem_cons, ih h.2, h.1]

theorem settled_iff_shared :
    (∀ x ∈ (respawnPlan layout liveIds attempts).zip (stalePanesAfter layout liveIds
        (respawnAndReconcile layout liveIds maxRetries attempts)),
      Settled maxRetries x.1 x.2.terminalId) ↔ (∀ e ∈ respawnPlan layout liveIds attempts,
      truthy e.1.workspaceId ≠ none → e.1.terminalId ≠ "") ∧
    ∀ e ∈ respawnPlan layout liveIds attempts, ∀ e' ∈ respawnPlan layout liveIds attempts,
      e.1.terminalId = e'.1.terminalId → dueTerminal maxRetries e = dueTerminal maxRetries e' := by
  rw [respawnAndReconcile_eq, forall_zip_iff (stalePanesAfter_terminals layout liveIds maxRetries
    (respawnPlan layout liveIds attempts) (respawnPlan_map_fst attempts)) (Settled maxRetries)]
  exact settled_all_iff _

theorem live_unchanged (plan : List RespawnEntry) :
    ∀ x ∈ (layoutPanes layout).zip (layoutPanes (mapPanes (settlePane liveIds maxRetries plan)
      layout)), staleLeaf? liveIds x.1 = none → x.2 = x.1 := by
  rw [layoutPanes_mapPanes]
  generalize layoutPanes layout = panes
  induction panes with
  | nil => simp
  | cons pane panes ih =>
    rw [map_cons, zip_cons_cons, forall_mem_cons]
    refine ⟨fun hstale => ?_, ih⟩
    simp [settlePane, hstale]

theorem eraseTerminals_settlePane (plan : List RespawnEntry) :
    eraseTerminals (mapPanes (settlePane liveIds maxRetries plan) layout) =
      eraseTerminals layout := by
  unfold eraseTerminals
  rw [mapPanes_mapPanes]
  refine mapPanes_congr fun pane _ => ?_
  rw [comp_apply, settlePane]
  cases staleLeaf? liveIds pane <;> rfl

/-- **Reconciling again changes nothing**: a pane has no terminal, or one that is live. -/
theorem reconcile_settled (plan : List RespawnEntry) (respawnedIds : OrderedMap String String) :
    reconcileWindowLayout (mapPanes (settlePane liveIds maxRetries plan) layout)
        (resultingLiveIds maxRetries liveIds plan) respawnedIds =
      mapPanes (settlePane liveIds maxRetries plan) layout := by
  unfold reconcileWindowLayout
  rw [mapPanes_mapPanes]
  refine mapPanes_congr fun pane _ => ?_
  -- a pane whose terminal is live is not rewritten
  have hkeep : ∀ pane' : LeafNode,
      (∀ t, pane'.terminalId = some t → t ∈ resultingLiveIds maxRetries liveIds plan) →
        reconcileLeaf (resultingLiveIds maxRetries liveIds plan) respawnedIds pane' = pane' := by
    intro pane' hlive
    unfold reconcileLeaf
    cases hid : pane'.terminalId with
    | none => rfl
    | some t => exact if_pos (hlive t hid)
  rw [comp_apply]
  apply hkeep
  intro t ht
  unfold settlePane at ht
  cases hstale : staleLeaf? liveIds pane with
  | none =>
    simp only [hstale] at ht
    have hmem : t ∈ liveIds := by
      by_contra hnot
      simp [staleLeaf?, ht, hnot] at hstale
    simp [resultingLiveIds, effectiveLiveIds, hmem]
  | some leaf =>
    simp only [hstale] at ht
    rcases settledTerminal_cases maxRetries plan leaf.terminalId with
      hnone | ⟨hsome, hfailed⟩ | ⟨id, hsome, hspawned⟩
    · rw [hnone] at ht
      cases ht
    · rw [hsome] at ht
      cases ht
      simp [resultingLiveIds, effectiveLiveIds, hfailed]
    · rw [hsome] at ht
      cases ht
      simp only [resultingLiveIds, mem_append]
      exact .inr hspawned

theorem some_mem_terminals (plan : List RespawnEntry)
    (hplan : plan.map Prod.fst = getStaleTerminalLeavesHierarchical layout liveIds) (id : String) :
    some id ∈ (layoutPanes (mapPanes (settlePane liveIds maxRetries plan) layout)).map
        (·.terminalId) ↔
      (∃ pane ∈ layoutPanes layout, staleLeaf? liveIds pane = none ∧ pane.terminalId = some id) ∨
        ∃ e ∈ plan, settledTerminal maxRetries plan e.1.terminalId = some id := by
  have hentry : (∃ e ∈ plan, settledTerminal maxRetries plan e.1.terminalId = some id) ↔
      ∃ leaf ∈ plan.map Prod.fst, settledTerminal maxRetries plan leaf.terminalId = some id := by
    simp
  rw [hentry, hplan, layoutPanes_mapPanes, map_map, mem_map, getStaleTerminalLeavesHierarchical]
  simp only [mem_filterMap, comp_apply]
  constructor
  · rintro ⟨pane, hpane, hid⟩
    unfold settlePane at hid
    cases hstale : staleLeaf? liveIds pane with
    | none => exact .inl ⟨pane, hpane, hstale, by simpa [hstale] using hid⟩
    | some leaf => exact .inr ⟨leaf, ⟨pane, hpane, hstale⟩, by simpa [hstale] using hid⟩
  · rintro (⟨pane, hpane, hstale, hid⟩ | ⟨leaf, ⟨pane, hpane, hstale⟩, hid⟩)
    · exact ⟨pane, hpane, by simpa [settlePane, hstale] using hid⟩
    · exact ⟨pane, hpane, by simpa [settlePane, hstale] using hid⟩

theorem started_iff_late (plan : List RespawnEntry)
    (hplan : plan.map Prod.fst = getStaleTerminalLeavesHierarchical layout liveIds)
    (hsettled : ∀ e ∈ plan, settledTerminal maxRetries plan e.1.terminalId =
      dueTerminal maxRetries e) :
    (∀ e ∈ plan, ∀ id ∈ startedFor maxRetries e, some id ∈ (layoutPanes
        (mapPanes (settlePane liveIds maxRetries plan) layout)).map (·.terminalId)) ↔
      ∀ e ∈ plan, attempted e.1 → ∀ id, decisive maxRetries e.2 = some (.timedOut (some id)) →
          (∃ pane ∈ layoutPanes layout,
              staleLeaf? liveIds pane = none ∧ pane.terminalId = some id) ∨
            ∃ e' ∈ plan, dueTerminal maxRetries e' = some id := by
  have hdue : ∀ id, (∃ e ∈ plan, settledTerminal maxRetries plan e.1.terminalId = some id) ↔
      ∃ e ∈ plan, dueTerminal maxRetries e = some id := fun id =>
    exists_congr fun e => and_congr_right fun he => by rw [hsettled e he]
  simp only [some_mem_terminals layout liveIds maxRetries plan hplan, hdue]
  refine forall₂_congr fun e he => ?_
  unfold startedFor
  cases hattempted : attempted e.1 with
  | false => simp
  | true =>
    simp only [if_true, terminalsStarted_eq, Option.mem_toList, forall_const]
    cases hdecisive : decisive maxRetries e.2 with
    | none => simp
    | some outcome =>
      cases outcome with
      | spawned new =>
        -- the one terminal that was started is the one that the pane is due
        have hdueNew : dueTerminal maxRetries e = some new := by
          unfold dueTerminal
          cases hw : truthy e.1.workspaceId with
          | none => simp [attempted, hw] at hattempted
          | some w => simp [returnedTerminal, hdecisive, AttemptOutcome.returned?]
        simpa [AttemptOutcome.terminal?] using .inr ⟨_, _, he, hdueNew⟩
      | _ => simp [AttemptOutcome.terminal?]

/-- **A respawn is correct exactly when it is safe**: the result settles every
stale pane and references every terminal that was started, iff panes that share
an id are due the same terminal and no terminal is forgotten after a timeout. -/
theorem respawnAndReconcile_correct_iff : RespawnCorrect maxRetries layout liveIds attempts
        (respawnAndReconcile layout liveIds maxRetries attempts) ↔
      RespawnSafe maxRetries layout liveIds attempts := by
  have hplan : (respawnPlan layout liveIds attempts).map Prod.fst =
      getStaleTerminalLeavesHierarchical layout liveIds := respawnPlan_map_fst attempts
  have hsettledDue : (∀ e ∈ respawnPlan layout liveIds attempts,
      Settled maxRetries e (settledTerminal maxRetries (respawnPlan layout liveIds attempts)
        e.1.terminalId)) → ∀ e ∈ respawnPlan layout liveIds attempts,
      settledTerminal maxRetries (respawnPlan layout liveIds attempts) e.1.terminalId =
        dueTerminal maxRetries e :=
    fun h e he => ((settled_iff e _).mp (h e he)).2
  constructor
  · intro h
    have hshared := (settled_iff_shared layout liveIds maxRetries attempts).mp h.settled
    have hstarted := h.started
    rw [respawnAndReconcile_eq] at hstarted
    exact ⟨hshared.1, hshared.2, (started_iff_late layout liveIds maxRetries _ hplan
      (hsettledDue ((settled_all_iff _).mpr hshared))).mp hstarted⟩
  · intro h
    have hshared : _ ∧ _ := ⟨h.named, h.shared⟩
    refine ⟨(settled_iff_shared layout liveIds maxRetries attempts).mpr hshared, ?_, ?_, ?_, ?_⟩
    all_goals rw [respawnAndReconcile_eq]
    · exact (started_iff_late layout liveIds maxRetries _ hplan
        (hsettledDue ((settled_all_iff _).mpr hshared))).mpr h.late
    · exact live_unchanged layout liveIds maxRetries _
    · exact eraseTerminals_settlePane layout liveIds maxRetries _
    · exact reconcile_settled layout liveIds maxRetries _

end Result

def barePane (id : String) : PanelNode :=
  .leaf { command := none, id, paneType := .terminal, terminalId := some "old",
          workspaceId := some "ws" }

def sharedTerminal : WindowLayout :=
  { activeTabId := some "tab"
    tabs := [{ focusedWorkspaceTileId := none, id := "tab", label := none,
               workspaceLayout := some (.leaf
                { activePanelTabId := some "panel", id := "tile", workspaceId := "ws",
                  panelTabs := [{ focusedPaneId := none, id := "panel", label := none,
                                  panelLayout := .split ⟨"split", .horizontal, [50, 50]⟩
                                    [barePane "left", barePane "right"] }] }) }] }

def bothSpawned (k _ : ℕ) : AttemptOutcome :=
  .spawned (if k = 0 then "first" else "second")

def bothLate (_ _ : ℕ) : AttemptOutcome := .timedOut (some "late")

/-- Of two terminals spawned for panes with a shared id, the first is referenced
by no pane; so is one that comes up after its attempt timed out. -/
theorem respawnAndReconcile_forgetsTerminal : ¬ RespawnCorrect 3 sharedTerminal [] bothSpawned
        (respawnAndReconcile sharedTerminal [] 3 bothSpawned) ∧
      ¬ RespawnCorrect 3 sharedTerminal [] bothLate
        (respawnAndReconcile sharedTerminal [] 3 bothLate) := by
  constructor
  · intro h
    have hfirst := h.started _ (mem_cons_self ..) "first" (mem_singleton_self _)
    revert hfirst
    decide
  · intro h
    have hlate := h.started _ (mem_cons_self ..) "late" (mem_singleton_self _)
    revert hlate
    decide

end Laborer.Panels
