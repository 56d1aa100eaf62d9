import Mathlib.Data.List.Nodup
import Mathlib.Data.List.Perm.Basic

/-!
# Insertion-ordered maps

Association lists with the reading and update order of a JavaScript `Map`:
setting a present key keeps its place, setting a new key appends it, and the
values are read back in that order.
-/

namespace Laborer.Library

universe u v w

abbrev OrderedMap (κ : Type u) (ν : Type v) := List (κ × ν)

namespace OrderedMap

variable {κ : Type u} {ν : Type v} [DecidableEq κ] {k : κ} {m : OrderedMap κ ν} {v : ν}

def get? (m : OrderedMap κ ν) (k : κ) : Option ν :=
  (m.find? fun e => e.1 = k).map Prod.snd

/-- Store `v` under `k`, in place when `k` is already present. -/
def set (m : OrderedMap κ ν) (k : κ) (v : ν) : OrderedMap κ ν :=
  if k ∈ m.map Prod.fst then m.map fun e => if e.1 = k then (k, v) else e
  else m ++ [(k, v)]

def delete (m : OrderedMap κ ν) (k : κ) : OrderedMap κ ν :=
  m.filter fun e => e.1 ≠ k

def ofEntries (es : List (κ × ν)) : OrderedMap κ ν :=
  es.foldl (fun m e => set m e.1 e.2) []

abbrev values (m : OrderedMap κ ν) : List ν := m.map Prod.snd

/-! ## Reading -/

theorem mem_of_get? (h : get? m k = some v) : (k, v) ∈ m := by
  obtain ⟨e, hfind, rfl⟩ := Option.map_eq_some_iff.mp h
  have hk : e.1 = k := by simpa using List.find?_some hfind
  rw [← hk]
  exact List.mem_of_find?_eq_some hfind

theorem get?_cons (e : κ × ν) (m : OrderedMap κ ν) (k : κ) :
    get? (e :: m) k = if e.1 = k then some e.2 else get? m k := by
  by_cases h : e.1 = k <;> simp [get?, h]

theorem get?_eq_none (h : k ∉ m.map Prod.fst) : get? m k = none := by
  induction m with
  | nil => rfl
  | cons e m ih =>
    rw [List.map_cons, List.mem_cons, not_or] at h
    rw [get?_cons, if_neg (Ne.symm h.1), ih h.2]

theorem get?_replace (m : OrderedMap κ ν) (k : κ) (v : ν) (k' : κ) :
    get? (m.map fun e => if e.1 = k then (k, v) else e) k' =
      if k = k' ∧ k ∈ m.map Prod.fst then some v else get? m k' := by
  induction m with
  | nil => simp [get?]
  | cons e m ih =>
    simp only [List.map_cons, get?_cons, ih, List.mem_cons]
    by_cases he : e.1 = k
    · by_cases hk : k = k'
      · simp [he, hk]
      · simp [he, hk]
    · have hke : ¬ k = e.1 := Ne.symm he
      by_cases hk : k = k'
      · have hne : e.1 ≠ k' := hk ▸ he
        simp only [he, if_false, hne, hke, false_or]
      · simp [he, hk]

theorem get?_set (m : OrderedMap κ ν) (k : κ) (v : ν) (k' : κ) :
    get? (set m k v) k' = if k = k' then some v else get? m k' := by
  unfold set
  split
  · next hmem =>
    rw [get?_replace]
    simp [hmem]
  · next hmem =>
    by_cases hk : k = k'
    · subst hk
      have hnone : m.find? (fun e => e.1 = k) = none := by
        rw [List.find?_eq_none]
        intro e he heq
        exact hmem (List.mem_map.mpr ⟨e, he, of_decide_eq_true heq⟩)
      simp [get?, List.find?_append, hnone]
    · simp [get?, List.find?_append, hk]

theorem mem_set {e : κ × ν} (h : e ∈ set m k v) : e = (k, v) ∨ e ∈ m := by
  unfold set at h
  split at h
  · obtain ⟨e', he', heq⟩ := List.mem_map.mp h
    split at heq
    · exact .inl heq.symm
    · exact .inr (heq ▸ he')
  · rcases List.mem_append.mp h with h | h
    · exact .inr h
    · exact .inl (List.mem_singleton.mp h)

theorem mem_foldl_set (es : List (κ × ν)) (m : OrderedMap κ ν) (e : κ × ν)
    (h : e ∈ es.foldl (fun m e => set m e.1 e.2) m) : e ∈ m ∨ e ∈ es := by
  induction es generalizing m with
  | nil => exact .inl h
  | cons d ds ih =>
    rcases ih _ h with h | h
    · rcases mem_set h with rfl | h
      · exact .inr (List.mem_cons_self ..)
      · exact .inl h
    · exact .inr (List.mem_cons_of_mem _ h)

theorem mem_of_get?_ofEntries {es : List (κ × ν)}
    (h : get? (ofEntries es) k = some v) : (k, v) ∈ es := by
  rcases mem_foldl_set es [] (k, v) (mem_of_get? h) with h | h
  · exact absurd h List.not_mem_nil
  · exact h

/-! ## Keys -/

theorem get?_eq_none_iff : get? m k = none ↔ k ∉ m.map Prod.fst := by
  constructor
  · intro hnone hmem
    obtain ⟨e, he, rfl⟩ := List.mem_map.mp hmem
    unfold get? at hnone
    rw [Option.map_eq_none_iff, List.find?_eq_none] at hnone
    exact hnone e he (by simp)
  · exact get?_eq_none

theorem exists_get? (h : k ∈ m.map Prod.fst) : ∃ v, get? m k = some v := by
  cases hget : get? m k with
  | none => exact absurd h (get?_eq_none_iff.mp hget)
  | some v => exact ⟨v, rfl⟩

theorem mem_keys_of_get? (h : get? m k = some v) : k ∈ m.map Prod.fst :=
  List.mem_map.mpr ⟨(k, v), mem_of_get? h, rfl⟩

theorem keys_set_of_mem (v : ν) (h : k ∈ m.map Prod.fst) :
    (set m k v).map Prod.fst = m.map Prod.fst := by
  unfold set
  rw [if_pos h, List.map_map]
  apply List.map_congr_left
  intro e _
  show (if e.1 = k then (k, v) else e).1 = e.1
  split
  · next heq => exact heq.symm
  · rfl

theorem keys_set_of_not_mem (v : ν) (h : k ∉ m.map Prod.fst) :
    (set m k v).map Prod.fst = m.map Prod.fst ++ [k] := by
  unfold set
  rw [if_neg h, List.map_append]
  rfl

theorem keys_delete (m : OrderedMap κ ν) (k : κ) :
    (delete m k).map Prod.fst = (m.map Prod.fst).filter (· ≠ k) := by
  rw [List.filter_map]
  rfl

theorem get?_delete (m : OrderedMap κ ν) (k k' : κ) :
    get? (delete m k) k' = if k = k' then none else get? m k' := by
  induction m with
  | nil => simp [delete, get?]
  | cons e m ih =>
    by_cases he : e.1 = k
    · have hdrop : delete (e :: m) k = delete m k := by simp [delete, he]
      rw [hdrop, ih, get?_cons]
      by_cases hk : k = k'
      · rw [if_pos hk, if_pos hk]
      · rw [if_neg hk, if_neg hk, if_neg (fun h => hk (he.symm.trans h))]
    · have hkeep : delete (e :: m) k = e :: delete m k := by simp [delete, he]
      rw [hkeep, get?_cons, ih, get?_cons]
      by_cases hk : k = k'
      · rw [if_pos hk, if_pos hk, if_neg (fun h => he (h.trans hk.symm))]
      · rw [if_neg hk, if_neg hk]

/-! ## Maps with distinct keys -/

theorem foldl_set_eq_append (es : List (κ × ν)) (m : OrderedMap κ ν)
    (h : ((m ++ es).map Prod.fst).Nodup) : es.foldl (fun m e => set m e.1 e.2) m = m ++ es := by
  induction es generalizing m with
  | nil => simp
  | cons e es ih =>
    have hnew : e.1 ∉ m.map Prod.fst := by
      rw [List.map_append, List.map_cons] at h
      exact fun hmem => (List.nodup_append.mp h).2.2 _ hmem _ (List.mem_cons_self ..) rfl
    have hset : set m e.1 e.2 = m ++ [e] := by rw [set, if_neg hnew]
    rw [List.foldl_cons, hset, ih _ (by simpa using h)]
    simp

theorem ofEntries_eq_self {es : List (κ × ν)} (h : (es.map Prod.fst).Nodup) :
    ofEntries es = es := by
  simpa [ofEntries] using foldl_set_eq_append es [] (by simpa using h)

theorem perm_cons_delete (hnodup : (m.map Prod.fst).Nodup) (h : get? m k = some v) :
    m.Perm ((k, v) :: delete m k) := by
  have hmem := mem_of_get? h
  clear h
  induction m with
  | nil => exact absurd hmem List.not_mem_nil
  | cons e m ih =>
    rw [List.map_cons, List.nodup_cons] at hnodup
    rcases List.mem_cons.mp hmem with rfl | hmem
    · -- the head is the entry, and no later one has its key
      have hdel : delete ((k, v) :: m) k = m := by
        simp only [delete, ne_eq, not_true_eq_false, decide_false, Bool.false_eq_true,
          not_false_eq_true, List.filter_cons_of_neg]
        refine List.filter_eq_self.mpr fun e he => decide_eq_true fun heq => ?_
        exact hnodup.1 (List.mem_map.mpr ⟨e, he, heq⟩)
      rw [hdel]
    · have hne : e.1 ≠ k := fun heq =>
        hnodup.1 (List.mem_map.mpr ⟨(k, v), hmem, heq.symm⟩)
      have hdel : delete (e :: m) k = e :: delete m k := by simp [delete, hne]
      rw [hdel]
      exact ((ih hnodup.2 hmem).cons e).trans (List.Perm.swap ..)

theorem nodup_keys_delete (k : κ) (h : (m.map Prod.fst).Nodup) :
    ((delete m k).map Prod.fst).Nodup :=
  h.sublist (List.filter_sublist.map _)

theorem nodup_keys_set (k : κ) (v : ν) (h : (m.map Prod.fst).Nodup) :
    ((set m k v).map Prod.fst).Nodup := by
  by_cases hmem : k ∈ m.map Prod.fst
  · rw [keys_set_of_mem v hmem]
    exact h
  · rw [keys_set_of_not_mem v hmem]
    exact List.nodup_append.mpr ⟨h, List.nodup_singleton k, fun _ ha _ hb => by
        rw [List.mem_singleton.mp hb]
        exact fun heq => hmem (heq ▸ ha)⟩

theorem get?_of_mem (hnodup : (m.map Prod.fst).Nodup) (h : (k, v) ∈ m) : get? m k = some v := by
  induction m with
  | nil => exact absurd h List.not_mem_nil
  | cons e m ih =>
    rw [List.map_cons, List.nodup_cons] at hnodup
    rw [get?_cons]
    rcases List.mem_cons.mp h with rfl | h
    · exact if_pos rfl
    · have hne : e.1 ≠ k := fun heq => hnodup.1 (List.mem_map.mpr ⟨(k, v), h, heq.symm⟩)
      rw [if_neg hne]
      exact ih hnodup.2 h

theorem mem_values_iff (hnodup : (m.map Prod.fst).Nodup) :
    v ∈ m.values ↔ ∃ k, get? m k = some v := by
  constructor
  · intro h
    obtain ⟨⟨k, found⟩, hentry, rfl⟩ := List.mem_map.mp h
    exact ⟨k, get?_of_mem hnodup hentry⟩
  · rintro ⟨k, h⟩
    exact List.mem_map.mpr ⟨_, mem_of_get? h, rfl⟩

/-! ## Updates one after the other -/

section Updates

variable {α : Type w} {update : OrderedMap κ ν → α → OrderedMap κ ν} {items : List α} {k : κ}

theorem get?_foldl_of_keeps
    (h : ∀ item ∈ items, ∀ m, get? (update m item) k = get? m k) (m : OrderedMap κ ν) :
    get? (items.foldl update m) k = get? m k := by
  induction items generalizing m with
  | nil => rfl
  | cons item items ih =>
    rw [List.foldl_cons, ih fun other hother => h other (List.mem_cons_of_mem item hother)]
    exact h item (List.mem_cons_self ..) m

/-- One update writes the value, and no other one writes the key otherwise. -/
theorem get?_foldl_of_writes {v : ν} {item : α} (hitem : item ∈ items)
    (hwrites : ∀ m, get? (update m item) k = some v) (h : ∀ other ∈ items, ∀ m,
      get? (update m other) k = some v ∨ get? (update m other) k = get? m k)
    (m : OrderedMap κ ν) : get? (items.foldl update m) k = some v := by
  have hkept : ∀ rest : List α, (∀ other ∈ rest, other ∈ items) → ∀ m, get? m k = some v →
      get? (rest.foldl update m) k = some v := by
    intro rest
    induction rest with
    | nil => exact fun _ m hm => hm
    | cons other rest ih =>
      intro hrest m hm
      have hother := h other (hrest other (List.mem_cons_self ..)) m
      rw [hm, or_self] at hother
      exact ih (fun o ho => hrest o (List.mem_cons_of_mem other ho)) _ hother
  obtain ⟨before, after, rfl⟩ := List.append_of_mem hitem
  rw [List.foldl_append, List.foldl_cons]
  apply hkept after
  · intro other hother
    exact List.mem_append_right _ (List.mem_cons_of_mem item hother)
  · exact hwrites _

end Updates

end OrderedMap

/-! ## Sets -/

section Distinct

variable {α : Type u} [DecidableEq α]

/-- `[...new Set(xs)]`: each value at its first place. -/
def distinct (xs : List α) : List α :=
  xs.eraseDups

theorem distinct_cons (x : α) (xs : List α) :
    distinct (x :: xs) = x :: distinct (xs.filter (· ≠ x)) := by
  unfold distinct
  rw [List.eraseDups_cons]
  congr 2
  apply List.filter_congr
  intro y _
  simp [beq_eq_decide]

@[simp] theorem mem_distinct {x : α} {xs : List α} : x ∈ distinct xs ↔ x ∈ xs :=
  List.mem_eraseDups

theorem distinct_nodup (xs : List α) : (distinct xs).Nodup := by
  induction hlength : xs.length using Nat.strongRecOn generalizing xs with
  | ind n ih =>
    cases xs with
    | nil => exact List.nodup_nil
    | cons x xs =>
      rw [distinct_cons, List.nodup_cons]
      constructor
      · simp
      · apply ih (xs.filter (· ≠ x)).length _ _ rfl
        rw [← hlength]
        exact Nat.lt_succ_of_le (List.length_filter_le _ _)

theorem distinct_of_nodup {xs : List α} (h : xs.Nodup) : distinct xs = xs := by
  induction xs with
  | nil => rfl
  | cons x xs ih =>
    rw [List.nodup_cons] at h
    have hfilter : xs.filter (· ≠ x) = xs := by
      rw [List.filter_eq_self]
      intro y hy
      exact decide_eq_true fun heq => h.1 (heq ▸ hy)
    rw [distinct_cons, hfilter, ih h.2]

end Distinct

end Laborer.Library
