import Laborer.Library.BreadthFirst
import Laborer.Terminal.StatusEngine

/-!
# The walk over a process tree

The processes below a shell are visited breadth first, with a bound on their depth and on their
number.
-/

namespace Laborer.Terminal

open Library List BreadthFirst

inductive ProcessCategory where
  | agent
  | devServer
  | editor
  | shell
  | unknown
deriving DecidableEq

structure ForegroundProcess where
  category : ProcessCategory
  label : String
  rawName : String

def MAX_DEPTH : ℕ := 10
def MAX_PROCESSES : ℕ := 256

/-- What the walk fills; the visited processes in the order in which they were added. -/
structure ProcessWalk where
  visitedPids : List ℕ := []
  chain : List ForegroundProcess := []
  agentProcesses : List AgentProcess := []

/-- What `ps` tells of the processes, with any classification of their names. -/
structure ProcessTable where
  childrenByPid : ℕ → List ℕ
  commByPid : ℕ → Option String
  classifyProcess : String → Option ForegroundProcess

namespace ProcessTable

variable (table : ProcessTable)

def classified (pid : ℕ) : Option ForegroundProcess :=
  table.classifyProcess ((table.commByPid pid).getD "")

def collected (pid : ℕ) : Option ForegroundProcess :=
  (table.classified pid).filter (·.category ≠ .shell)

def agentProcess (pid : ℕ) : Option AgentProcess :=
  ((table.classified pid).filter (·.category = .agent)).map fun found =>
    { pid := pid, rawName := found.rawName }

def visit (pid : ℕ) (walk : ProcessWalk) : ProcessWalk where
  visitedPids := walk.visitedPids ++ [pid]
  chain := walk.chain ++ (table.collected pid).toList
  agentProcesses := walk.agentProcesses ++ (table.agentProcess pid).toList

/-- The children that are pushed, while the queue and the visited processes together are below
the bound. -/
def pushed (queue : List (ℕ × ℕ)) (visited pid depth : ℕ) : List (ℕ × ℕ) :=
  if MAX_DEPTH ≤ depth then []
  else
    ((table.childrenByPid pid).take (MAX_PROCESSES - (queue.length + visited))).map (·, depth + 1)

/-- The loop of `walkProcessTree`, over a queue of processes with their depth. -/
def walkQueue (queue : List (ℕ × ℕ)) (walk : ProcessWalk) : ProcessWalk :=
  match queue with
  | [] => walk
  | (pid, depth) :: queue =>
    if MAX_PROCESSES ≤ walk.visitedPids.length then walk
    else if pid ∈ walk.visitedPids then walkQueue queue walk
    else
      walkQueue (queue ++ table.pushed queue (walk.visitedPids.length + 1) pid depth)
        (table.visit pid walk)
termination_by (MAX_PROCESSES - walk.visitedPids.length, queue.length)
decreasing_by
  · exact .right _ (by simp)
  · exact .left _ _ (by simp [visit]; omega)

def walkProcessTree (startPids : List ℕ) : ProcessWalk :=
  table.walkQueue ((startPids.take MAX_PROCESSES).map (·, 0)) {}

/-! ## What is visited -/

variable {table} {startPids here below visited : List ℕ} {walk : ProcessWalk} {pid depth k : ℕ}
  {queue : List (ℕ × ℕ)}

/-- No process is visited twice, at most the bound are, and the chain and the agents are those of
the visited processes. -/
structure Collects (table : ProcessTable) (walk : ProcessWalk) : Prop where
  nodup : walk.visitedPids.Nodup
  bounded : walk.visitedPids.length ≤ MAX_PROCESSES
  chain : walk.chain = walk.visitedPids.filterMap table.collected
  agents : walk.agentProcesses = walk.visitedPids.filterMap table.agentProcess

theorem Collects.visit (h : table.Collects walk) (hroom : walk.visitedPids.length < MAX_PROCESSES)
    (hnew : pid ∉ walk.visitedPids) : table.Collects (table.visit pid walk) := by
  have hone : ∀ {β : Type} (f : ℕ → Option β), [pid].filterMap f = (f pid).toList := by
    intro β f
    cases hf : f pid <;> simp [hf]
  constructor
  · exact h.nodup.append (nodup_singleton pid) (by simpa using hnew)
  · simp [ProcessTable.visit]
    omega
  · rw [ProcessTable.visit, filterMap_append, h.chain, hone]
  · rw [ProcessTable.visit, filterMap_append, h.agents, hone]

theorem Collects.walkQueue (h : table.Collects walk) :
    table.Collects (table.walkQueue queue walk) := by
  fun_induction ProcessTable.walkQueue table queue walk with
  | case1 | case2 => exact h
  | case3 walk pid depth queue hroom hseen ih => exact ih h
  | case4 walk pid depth queue hroom hnew ih => exact ih (h.visit (by omega) hnew)

/-! ## The order in a forest -/

theorem walkQueue_cons (hroom : walk.visitedPids.length < MAX_PROCESSES)
    (hnew : pid ∉ walk.visitedPids) :
    table.walkQueue (((pid, depth) :: queue).take (MAX_PROCESSES - walk.visitedPids.length)) walk =
      table.walkQueue
        ((queue ++ if MAX_DEPTH ≤ depth then []
          else (table.childrenByPid pid).map (·, depth + 1)).take
          (MAX_PROCESSES - (walk.visitedPids ++ [pid]).length)) (table.visit pid walk) := by
  obtain ⟨room, hcount⟩ := Nat.exists_eq_add_of_lt hroom
  have hfirst : MAX_PROCESSES - walk.visitedPids.length = room + 1 := by omega
  have hrest : MAX_PROCESSES - (walk.visitedPids ++ [pid]).length = room := by simp; omega
  rw [hfirst, hrest, take_succ_cons, walkQueue, if_neg (by omega), if_neg hnew, take_append]
  congr 2
  unfold pushed
  split
  · rw [take_nil]
  · rw [map_take, length_take]
    congr 1
    omega

/-- The visited processes in the end, when `here` are left of a level and `below` have been
pushed of the next. -/
def visits (table : ProcessTable) (k : ℕ) (here below visited : List ℕ) : List ℕ :=
  visited ++ here ++ levels table.childrenByPid (below ++ here.flatMap table.childrenByPid) k

def Follows (table : ProcessTable) (k : ℕ) (here : List ℕ) : Prop :=
  ∀ depth below walk, depth + k = MAX_DEPTH → (k = 0 → below = []) →
    walk.visitedPids.length ≤ MAX_PROCESSES →
    (table.visits k here below walk.visitedPids).Nodup →
    (table.walkQueue ((here.map (·, depth) ++ below.map (·, depth + 1)).take
      (MAX_PROCESSES - walk.visitedPids.length)) walk).visitedPids =
        (table.visits k here below walk.visitedPids).take MAX_PROCESSES

theorem Follows.cons (h : table.Follows k here) : table.Follows k (pid :: here) := by
  intro depth below walk hdepth hbelow hbound hnodup
  rcases Nat.lt_or_eq_of_le hbound with hroom | hfull
  · have hnew : pid ∉ walk.visitedPids := by
      intro hmem
      rw [visits, append_assoc] at hnodup
      exact disjoint_of_nodup_append hnodup hmem (by simp)
    -- its children are pushed behind those of the processes before it
    set below' := below ++ if MAX_DEPTH ≤ depth then [] else table.childrenByPid pid
    have hvisits : table.visits k (pid :: here) below walk.visitedPids =
        table.visits k here below' (walk.visitedPids ++ [pid]) := by
      unfold visits
      rw [append_cons _ pid here]
      cases k with
      | zero => rfl
      | succ k => simp [below', show ¬MAX_DEPTH ≤ depth by omega]
    rw [hvisits] at hnodup ⊢
    rw [map_cons, cons_append, walkQueue_cons hroom hnew]
    refine Eq.trans ?_ (h depth below' (table.visit pid walk) hdepth ?_ ?_ hnodup)
    · congr 3
      simp only [below', map_append, append_assoc]
      split <;> rfl
    · intro hk
      simp [below', hbelow hk, show MAX_DEPTH ≤ depth by omega]
    · simp [visit]
      omega
  · rw [hfull, Nat.sub_self, take_zero, walkQueue, visits, append_assoc, ← hfull, take_left]

theorem follows (table : ProcessTable) (k : ℕ) (here : List ℕ) : table.Follows k here := by
  induction k generalizing here with
  | zero =>
    induction here with
    | nil =>
      intro depth below walk hdepth hbelow hbound hnodup
      rw [hbelow rfl, map_nil, map_nil, nil_append, take_nil, walkQueue, visits, levels,
        append_nil, append_nil, take_of_length_le hbound]
    | cons pid here ih => exact ih.cons
  | succ k ihk =>
    induction here with
    | nil =>
      -- the level is done, and the next one has been pushed
      intro depth below walk hdepth hbelow hbound hnodup
      have hvisits : table.visits (k + 1) [] below walk.visitedPids =
          table.visits k below [] walk.visitedPids := by simp [visits, levels]
      rw [hvisits] at hnodup ⊢
      rw [← ihk below (depth + 1) [] walk (by omega) (fun _ => rfl) hbound hnodup]
      simp
    | cons pid here ih => exact ih.cons

/-- No process is visited twice and at most the bound are, whatever the links between them. In a
forest these are the first of the breadth-first order, and an agent is found unless as many
processes as the bound come before it. -/
theorem walkProcessTree_collects (table : ProcessTable) (startPids : List ℕ) :
    let walk := table.walkProcessTree startPids
    let order := levels table.childrenByPid startPids (MAX_DEPTH + 1)
    table.Collects walk ∧
      (IsForest table.childrenByPid startPids → walk.visitedPids = order.take MAX_PROCESSES ∧
        ∀ before pid after agent, order = before ++ pid :: after →
          table.agentProcess pid = some agent →
            agent ∈ walk.agentProcesses ∨ MAX_PROCESSES ≤ before.length) := by
  intro walk order
  have hcollects : table.Collects walk :=
    Collects.walkQueue ⟨nodup_nil, Nat.zero_le _, rfl, rfl⟩
  refine ⟨hcollects, fun hforest => ?_⟩
  have hfollows := table.follows MAX_DEPTH startPids 0 [] {} (Nat.zero_add _) (fun _ => rfl)
    (Nat.zero_le _) (hforest.nodup_levels (MAX_DEPTH + 1))
  have hvisits : walk.visitedPids = order.take MAX_PROCESSES := by
    rw [map_nil, append_nil, ← map_take] at hfollows
    exact hfollows
  refine ⟨hvisits, fun before pid after agent horder hagent => ?_⟩
  rcases Nat.lt_or_ge before.length MAX_PROCESSES with hlt | hge
  · refine .inl ?_
    rw [hcollects.agents, hvisits, horder, mem_filterMap]
    exact ⟨pid, mem_take_iff_getElem.mpr ⟨before.length, by simpa using hlt, by simp⟩, hagent⟩
  · exact .inr hge

/-- A shell with two children, the first of which runs an agent. -/
def shellTable : ProcessTable where
  childrenByPid pid := if pid = 1 then [2, 3] else if pid = 2 then [4] else []
  commByPid pid := if pid = 4 then some "agent" else none
  classifyProcess comm :=
    if comm = "agent" then some { category := .agent, label := "Agent", rawName := comm } else none

theorem shellTable_isForest : IsForest shellTable.childrenByPid [1] := by
  have hchild : ∀ a c, c ∈ shellTable.childrenByPid a →
      (a = 1 ∧ (c = 2 ∨ c = 3)) ∨ (a = 2 ∧ c = 4) := by
    intro a c hc
    unfold shellTable at hc
    dsimp only at hc
    split_ifs at hc <;> simp_all
  refine ⟨by decide, fun a => ?_, fun a b c ha hb => ?_, fun a ha n hbelow => ?_⟩
  · unfold shellTable
    dsimp only
    split_ifs <;> decide
  · have := hchild a c ha
    have := hchild b c hb
    omega
  · obtain ⟨parent, -, hparent⟩ := mem_flatMap.mp hbelow
    have := hchild parent a hparent
    have := mem_singleton.mp ha
    omega

theorem walkProcessTree_collects_shellTable :
    (shellTable.walkProcessTree [1]).visitedPids = [1, 2, 3, 4] ∧
      { pid := 4, rawName := "agent" } ∈ (shellTable.walkProcessTree [1]).agentProcesses := by
  obtain ⟨hvisits, hagents⟩ := (walkProcessTree_collects shellTable [1]).2 shellTable_isForest
  exact ⟨hvisits, (hagents [1, 2, 3] 4 [] _ rfl rfl).resolve_right (by decide)⟩

end ProcessTable

end Laborer.Terminal
