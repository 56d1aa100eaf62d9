import Mathlib.Data.List.Range

/-!
# Change feeds

A keyed store whose writers append an entry for every key they change to a
numbered ledger, of which old entries are pruned, and a follower that keeps a copy
of the store by reading pages of the ledger. The rows of a page are read when the
page is, so a copy may be ahead of its cursor but is never behind it.
-/

namespace Laborer.Library

open List

universe u v w

/-! ## Ledgers -/

/-- A ledger numbered from one: how many entries were pruned, and the others in
order. A pruned number is never given again. -/
structure Ledger (ε : Type u) where
  pruned : ℕ
  retained : List ε

namespace Ledger

variable {ε : Type u} {κ : Type v}

def empty : Ledger ε where
  pruned := 0
  retained := []

def last (l : Ledger ε) : ℕ :=
  l.pruned + l.retained.length

def append (l : Ledger ε) (e : ε) : Ledger ε :=
  { l with retained := l.retained ++ [e] }

def appendAll (l : Ledger ε) (es : List ε) : Ledger ε :=
  { l with retained := l.retained ++ es }

def prune (l : Ledger ε) (n : ℕ) : Ledger ε where
  pruned := l.pruned + min n l.retained.length
  retained := l.retained.drop n

def rows (l : Ledger ε) : List (ℕ × ε) :=
  l.retained.mapIdx fun i e => (l.pruned + i + 1, e)

def minimum (l : Ledger ε) : Option ℕ :=
  (l.rows.map Prod.fst).min?

def maximum (l : Ledger ε) : Option ℕ :=
  (l.rows.map Prod.fst).max?

/-- At most `limit` entries after a number, in order. -/
def after (l : Ledger ε) (sequence limit : ℕ) : List (ℕ × ε) :=
  (l.rows.filter fun row => sequence < row.1).take limit

@[simp] theorem appendAll_nil (l : Ledger ε) : l.appendAll [] = l := by
  simp [appendAll]

theorem append_eq_appendAll (l : Ledger ε) (e : ε) : l.append e = l.appendAll [e] := rfl

theorem appendAll_append (l : Ledger ε) (es es' : List ε) :
    (l.appendAll es).appendAll es' = l.appendAll (es ++ es') := by
  simp [appendAll]

@[simp] theorem last_appendAll (l : Ledger ε) (es : List ε) :
    (l.appendAll es).last = l.last + es.length := by
  simp [appendAll, last, Nat.add_assoc]

@[simp] theorem last_prune (l : Ledger ε) (n : ℕ) : (l.prune n).last = l.last := by
  simp only [prune, last, length_drop]
  omega

theorem numbers_eq (l : Ledger ε) :
    l.rows.map Prod.fst = List.range' (l.pruned + 1) l.retained.length := by
  apply ext_getElem
  · simp [rows]
  · intro i _ _
    simp [rows]
    omega

theorem rows_map_snd (l : Ledger ε) : l.rows.map Prod.snd = l.retained := by
  apply ext_getElem
  · simp [rows]
  · intro i _ _
    simp [rows]

theorem minimum_eq (l : Ledger ε) :
    l.minimum = if l.retained = [] then none else some (l.pruned + 1) := by
  unfold minimum
  rw [numbers_eq]
  cases hretained : l.retained with
  | nil => rfl
  | cons e es =>
    rw [if_neg (cons_ne_nil _ _), min?_eq_some_iff]
    constructor
    · simp
    · intro n hn
      simp only [mem_range'_1] at hn
      exact hn.1

theorem maximum_eq (l : Ledger ε) : l.maximum = if l.retained = [] then none else some l.last := by
  unfold maximum last
  rw [numbers_eq]
  cases hretained : l.retained with
  | nil => rfl
  | cons e es =>
    rw [if_neg (cons_ne_nil _ _), max?_eq_some_iff]
    constructor
    · simp only [mem_range'_1, length_cons]
      omega
    · intro n hn
      simp only [mem_range'_1, length_cons] at hn ⊢
      omega

/-! ## Pages -/

theorem rows_cons (p : ℕ) (e : ε) (es : List ε) :
    (Ledger.mk p (e :: es)).rows = (p + 1, e) :: (Ledger.mk (p + 1) es).rows := by
  unfold rows
  rw [mapIdx_cons]
  simp [Nat.add_assoc, Nat.add_comm 1]

theorem filter_rows (p : ℕ) (es : List ε) (c : ℕ) :
    (Ledger.mk p es).rows.filter (fun row => c < row.1) =
      (Ledger.mk (max p c) (es.drop (c - p))).rows := by
  induction es generalizing p with
  | nil => simp [rows]
  | cons e es ih =>
    rw [rows_cons, filter_cons]
    by_cases hc : c < p + 1
    · have hall : (Ledger.mk (p + 1) es).rows.filter (fun row => c < row.1) =
          (Ledger.mk (p + 1) es).rows := by
        rw [ih, Nat.max_eq_left (by omega), Nat.sub_eq_zero_of_le (by omega), drop_zero]
      rw [if_pos (decide_eq_true hc), hall, Nat.max_eq_left (by omega),
        Nat.sub_eq_zero_of_le (by omega), drop_zero, rows_cons]
    · have hdrop : c - p = c - (p + 1) + 1 := by omega
      rw [if_neg (by simpa using hc), ih, Nat.max_eq_right (by omega),
        Nat.max_eq_right (by omega), hdrop, drop_succ_cons]

theorem take_rows (l : Ledger ε) (n : ℕ) :
    l.rows.take n = (Ledger.mk l.pruned (l.retained.take n)).rows := by
  apply ext_getElem
  · simp [rows]
  · intro i _ _
    simp [rows]

theorem after_eq (l : Ledger ε) (c limit : ℕ) : l.after c limit =
      (Ledger.mk (max l.pruned c) ((l.retained.drop (c - l.pruned)).take limit)).rows := by
  unfold after
  rw [filter_rows, take_rows]

theorem after_map_snd (l : Ledger ε) (c limit : ℕ) :
    (l.after c limit).map Prod.snd = (l.retained.drop (c - l.pruned)).take limit := by
  rw [after_eq, rows_map_snd]

theorem after_map_fst (l : Ledger ε) (c limit : ℕ) : (l.after c limit).map Prod.fst =
      List.range' (max l.pruned c + 1) (l.after c limit).length := by
  conv_lhs => rw [after_eq]
  rw [numbers_eq, ← after_map_snd, length_map]

theorem getLast?_after (l : Ledger ε) (c limit : ℕ) (hc : l.pruned ≤ c) :
    (((l.after c limit).map Prod.fst).getLast?).getD c = c + (l.after c limit).length := by
  rw [after_map_fst, Nat.max_eq_right hc, getLast?_range']
  split
  · next h => simp [h]
  · simp

/-! ## Cursors -/

/-- A cursor from which the ledger cannot be read on. A cursor of zero on a ledger
of which nothing is left does not count, pruned or not. -/
def MustRestart (l : Ledger ε) (c : ℕ) : Prop :=
  (l.retained = [] ∧ 0 < c) ∨ (l.retained ≠ [] ∧ (l.last < c ∨ c < l.pruned))

/-- A cursor of zero on a ledger of which nothing is left, though changes were
written since a number. The one cursor that is read on from in vain. -/
def Overlooks (l : Ledger ε) (c answered : ℕ) : Prop :=
  c = 0 ∧ l.retained = [] ∧ answered ≠ l.last

theorem readable_of_not_mustRestart {l : Ledger ε} {c : ℕ} (h : ¬ l.MustRestart c) :
    (l.retained = [] ∧ c = 0) ∨ (l.pruned ≤ c ∧ c ≤ l.last) := by
  unfold MustRestart at h
  by_cases hretained : l.retained = []
  · left
    simp only [hretained, true_and, ne_eq, not_true_eq_false, false_and, or_false] at h
    exact ⟨hretained, by omega⟩
  · right
    simp only [hretained, false_and, ne_eq, not_false_eq_true, true_and, false_or] at h
    omega

/-- The keys of the entries after a cursor. -/
def pending (key : ε → κ) (l : Ledger ε) (c : ℕ) : List κ :=
  (l.retained.drop (c - l.pruned)).map key

theorem after_nil_of_retained {l : Ledger ε} (h : l.retained = []) (c limit : ℕ) :
    l.after c limit = [] := by
  rw [← map_eq_nil_iff (f := Prod.snd), after_map_snd, h]
  simp

theorem length_after (l : Ledger ε) (c limit : ℕ) :
    (l.after c limit).length = min limit (l.retained.length - (c - l.pruned)) := by
  rw [← length_map Prod.snd, after_map_snd, length_take, length_drop]

/-- **A page skips nothing**: it has every entry up to the number it leads to. -/
theorem mem_after_of_le {l : Ledger ε} {c limit n : ℕ} (hpruned : l.pruned ≤ c) (hn : c < n)
    (hle : n ≤ c + (l.after c limit).length) : ∃ e, (n, e) ∈ l.after c limit := by
  have hmem : n ∈ (l.after c limit).map Prod.fst := by
    rw [after_map_fst, Nat.max_eq_right hpruned, mem_range'_1]
    omega
  obtain ⟨⟨_, e⟩, hrow, rfl⟩ := mem_map.mp hmem
  exact ⟨e, hrow⟩

end Ledger

/-! ## Followers -/

section Follow

variable {ε : Type u} {κ : Type v} {ν : Type w} (key : ε → κ)

/-- A write appends an entry for every key that it changes. -/
def Accounts (table table' : κ → ν) (l l' : Ledger ε) : Prop :=
  ∃ es, l' = l.appendAll es ∧ ∀ k ∉ es.map key, table' k = table k

/-- **The invariant of a follower** with a cursor, the number of changes that had
been written when it was last answered, and its copy. Unless the ledger was pruned
past the cursor, the copy differs from the store in keys that the ledger has yet to
name; and at cursor zero, when nothing was written since, it is the store. -/
structure Follows (table : κ → ν) (l : Ledger ε) (c answered : ℕ) (copy : κ → ν) : Prop where
  cursor_le : c ≤ l.last
  answered_le : answered ≤ l.last
  current : l.pruned ≤ c → ∀ k ∉ l.pending key c, copy k = table k
  settled : c = 0 → answered = l.last → l.retained = [] ∧ copy = table

variable {key} {table table' : κ → ν} {l l' : Ledger ε} {c answered : ℕ} {copy : κ → ν}

theorem Accounts.refl (table : κ → ν) (l : Ledger ε) : Accounts key table table l l :=
  ⟨[], by simp, fun _ _ => rfl⟩

/-! ### Starting -/

theorem Follows.snapshot (table : κ → ν) (l : Ledger ε) :
    Follows key table l (l.maximum.getD 0) l.last table := by
  rw [Ledger.maximum_eq]
  constructor
  · split
    · exact Nat.zero_le _
    · exact Nat.le_refl _
  · exact Nat.le_refl _
  · exact fun _ _ _ => rfl
  · intro hzero _
    refine ⟨?_, rfl⟩
    by_contra hretained
    have hpos := length_pos_of_ne_nil hretained
    rw [if_neg hretained, Option.getD_some] at hzero
    unfold Ledger.last at hzero
    omega

theorem Follows.start (hcopy : l.pruned ≤ c → c ≤ l.last → ∀ k ∉ l.pending key c, copy k = table k)
    (hok : ¬ l.MustRestart c) (hseen : ¬ l.Overlooks c c) : Follows key table l c c copy := by
  have hreadable : l.pruned ≤ c ∧ c ≤ l.last := by
    rcases Ledger.readable_of_not_mustRestart hok with ⟨hnil, rfl⟩ | hreadable
    · have hlast : 0 = l.last := by
        by_contra hne
        exact hseen ⟨rfl, hnil, hne⟩
      refine ⟨?_, hlast.le⟩
      rw [hlast]
      exact Nat.le_add_right _ _
    · exact hreadable
  constructor
  · exact hreadable.2
  · exact hreadable.2
  · exact fun hpruned => hcopy hpruned hreadable.2
  · intro hzero hlast
    have hretained : l.retained = [] := by
      apply eq_nil_of_length_eq_zero
      unfold Ledger.last at hlast
      omega
    refine ⟨hretained, funext fun k => ?_⟩
    apply hcopy hreadable.1 hreadable.2
    simp [Ledger.pending, hretained]

/-! ### Steps -/

theorem Follows.write (h : Follows key table l c answered copy)
    (hwrite : Accounts key table table' l l') : Follows key table' l' c answered copy := by
  obtain ⟨es, rfl, hsame⟩ := hwrite
  have hcursor := h.cursor_le
  have hanswered := h.answered_le
  constructor
  · rw [Ledger.last_appendAll]
    omega
  · rw [Ledger.last_appendAll]
    omega
  · intro hpruned k hk
    have hdrop : (l.retained ++ es).drop (c - l.pruned) = l.retained.drop (c - l.pruned) ++ es := by
      apply drop_append_of_le_length
      unfold Ledger.last at hcursor
      omega
    unfold Ledger.pending Ledger.appendAll at hk
    rw [hdrop, map_append, mem_append, not_or] at hk
    exact (h.current hpruned k hk.1).trans (hsame k hk.2).symm
  · intro hzero hlast
    rw [Ledger.last_appendAll] at hlast
    -- nothing was written
    have hes : es = [] := eq_nil_of_length_eq_zero (by omega)
    subst hes
    obtain ⟨hretained, rfl⟩ := h.settled hzero (by simpa using hlast)
    refine ⟨by simpa using hretained, funext fun k => ?_⟩
    exact (hsame k not_mem_nil).symm

theorem Follows.prune (h : Follows key table l c answered copy) (n : ℕ) :
    Follows key table (l.prune n) c answered copy := by
  have hcursor := h.cursor_le
  constructor
  · rw [Ledger.last_prune]
    exact hcursor
  · rw [Ledger.last_prune]
    exact h.answered_le
  · intro hpruned k hk
    unfold Ledger.prune at hpruned
    dsimp only at hpruned
    apply h.current (by omega)
    unfold Ledger.pending Ledger.prune at hk
    unfold Ledger.pending
    unfold Ledger.last at hcursor
    rw [drop_drop] at hk
    by_cases hn : n ≤ l.retained.length
    · rwa [Nat.min_eq_left hn, show n + (c - (l.pruned + n)) = c - l.pruned by omega] at hk
    · have hnil : l.retained.drop (c - l.pruned) = [] := drop_eq_nil_of_le (by omega)
      simp [hnil]
  · intro hzero hlast
    rw [Ledger.last_prune] at hlast
    obtain ⟨hretained, hcopy⟩ := h.settled hzero hlast
    refine ⟨?_, hcopy⟩
    unfold Ledger.prune
    simp [hretained]

/-- What a page does to a copy. -/
def applyPage [DecidableEq κ] (key : ε → κ) (table : κ → ν) (page : List (ℕ × ε))
    (copy : κ → ν) : κ → ν :=
  fun k => if k ∈ page.map fun row => key row.2 then table k else copy k

theorem Follows.readable (h : Follows key table l c answered copy) (hok : ¬ l.MustRestart c)
    (hseen : ¬ l.Overlooks c answered) :
    (l.retained = [] ∧ c = 0 ∧ copy = table) ∨ l.pruned ≤ c := by
  rcases Ledger.readable_of_not_mustRestart hok with ⟨hnil, hzero⟩ | ⟨hpruned, -⟩
  · left
    have hanswered : answered = l.last := by
      by_contra hne
      exact hseen ⟨hzero, hnil, hne⟩
    exact ⟨hnil, hzero, (h.settled hzero hanswered).2⟩
  · exact .inr hpruned

theorem Follows.page [DecidableEq κ] (h : Follows key table l c answered copy)
    (hok : ¬ l.MustRestart c) (hseen : ¬ l.Overlooks c answered) {limit : ℕ} (hlimit : 0 < limit) :
    Follows key table l (c + (l.after c limit).length) l.last
      (applyPage key table (l.after c limit) copy) := by
  have hcursor := h.cursor_le
  rcases h.readable hok hseen with ⟨hnil, rfl, rfl⟩ | hpruned
  · -- nothing is left to read, and the copy is the store
    have hcopy : applyPage key copy (l.after 0 limit) copy = copy := by
      funext k
      simp [applyPage]
    rw [hcopy, Ledger.after_nil_of_retained hnil]
    exact ⟨hcursor, Nat.le_refl _, fun _ _ _ => rfl, fun _ _ => ⟨hnil, rfl⟩⟩
  · have hkeys : ((l.after c limit).map fun row => key row.2) =
        ((l.retained.drop (c - l.pruned)).take limit).map key := by
      rw [← Ledger.after_map_snd, map_map]
      rfl
    have hcurrent : ∀ k ∉ l.pending key (c + (l.after c limit).length),
        applyPage key table (l.after c limit) copy k = table k := by
      intro k hk
      unfold applyPage
      split
      · rfl
      · next hread =>
        -- neither in the page nor after it
        apply h.current hpruned
        intro hpending
        unfold Ledger.pending at hk hpending
        rw [hkeys] at hread
        rw [← take_append_drop limit (l.retained.drop (c - l.pruned)), map_append,
          mem_append] at hpending
        rcases hpending with hpending | hpending
        · exact hread hpending
        · apply hk
          rw [drop_drop] at hpending
          rw [Ledger.length_after]
          by_cases hlimit : limit ≤ l.retained.length - (c - l.pruned)
          · rwa [Nat.min_eq_left hlimit, show c + limit - l.pruned = c - l.pruned + limit by omega]
          · rw [drop_eq_nil_of_le (by omega)] at hpending
            exact absurd hpending not_mem_nil
    constructor
    · rw [Ledger.length_after]
      unfold Ledger.last at hcursor ⊢
      omega
    · exact Nat.le_refl _
    · exact fun _ => hcurrent
    · intro hzero _
      have hlength : (l.after c limit).length = 0 := by omega
      have hretained : l.retained = [] := by
        apply eq_nil_of_length_eq_zero
        rw [Ledger.length_after] at hlength
        omega
      refine ⟨hretained, funext fun k => hcurrent k ?_⟩
      simp [Ledger.pending, hretained]

/-! ### Catching up -/

theorem Follows.caughtUp (h : Follows key table l c answered copy) (hok : ¬ l.MustRestart c)
    (hseen : ¬ l.Overlooks c answered) {limit : ℕ} (hlimit : 0 < limit)
    (hempty : l.after c limit = []) : copy = table := by
  rcases h.readable hok hseen with ⟨-, -, hcopy⟩ | hpruned
  · exact hcopy
  · have hrest := Ledger.after_map_snd l c limit
    rw [hempty, map_nil, eq_comm, take_eq_nil_iff] at hrest
    funext k
    apply h.current hpruned
    rcases hrest with hrest | hrest
    · omega
    · simp [Ledger.pending, hrest]

end Follow

end Laborer.Library
