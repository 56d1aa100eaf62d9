import Laborer.Library.OrderedMap
import Laborer.Library.PollingFibers

/-!
# Keys that are polled

A map of the fibers that calls start and stop, and what is remembered of the keys until a call
clears it. Of a key that is not wanted nothing is remembered but what some call is going to
clear.
-/

namespace Laborer.Library

open List OrderedMap

variable {κ γ ι : Type}

/-- What a call holds, what it is going to clear of a key, and what it relies on of the map and
of the running fibers. -/
structure PollRoles (κ γ ι : Type) extends FiberRoles κ γ where
  clears : ι → κ → γ → Bool
  relies : (κ → Option ℕ) → (ℕ → Option κ) → γ → Prop
  relies_mono : ∀ {recorded recorded' : κ → Option ℕ} {runs runs' : ℕ → Option κ} {call : γ},
    relies recorded runs call → (∀ key, starts key call = true → recorded' key = recorded key) →
      (∀ fiber key, ends fiber call = true → runs' fiber = some key → runs fiber = some key) →
        relies recorded' runs' call

/-- A call that holds nothing and relies on nothing. -/
structure PollRoles.Free (roles : PollRoles κ γ ι) (call : γ) : Prop where
  idle : roles.Idle call
  relies : ∀ recorded runs, roles.relies recorded runs call

/-- The map, the key of each running fiber, the calls, the number of the next fiber, the keys
whose last call was a start, and what is remembered of each key. -/
structure PolledKeys (κ γ ι : Type) where
  fibers : OrderedMap κ ℕ
  runs : ℕ → Option κ
  calls : List γ
  number : ℕ
  wanted : κ → Bool
  remembered : ι → κ → Bool

theorem map_update {π : Type} (polls : ℕ → Option π) (key : π → κ) (fiber : ℕ) (poll : Option π)
    (other : ℕ) : (Function.update polls fiber poll other).map key =
      if other = fiber then poll.map key else (polls other).map key := by
  rw [Function.update_apply]
  split <;> rfl

variable {roles : PollRoles κ γ ι} {itself itself' : ℕ → Prop}
  {s : PolledKeys κ γ ι} {call call' : γ} {next : List γ} {key : κ} {fiber : ℕ} {i : ι}
  {fibers : OrderedMap κ ℕ} {runs : ℕ → Option κ} {wanted : κ → Bool} {remembered : ι → κ → Bool}
  [DecidableEq κ]

/-- The last call for the key was a start, or some call is going to clear what is remembered. -/
def PolledKeys.Covered (roles : PollRoles κ γ ι) (s : PolledKeys κ γ ι) (i : ι) (key : κ) : Prop :=
  s.wanted key = true ∨ Pending s.calls (roles.clears i key)

structure Kept (roles : PollRoles κ γ ι) (itself : ℕ → Prop) (s : PolledKeys κ γ ι) : Prop where
  nodup : (s.fibers.map Prod.fst).Nodup
  polling : Polling roles.toFiberRoles s.fibers.get? s.runs s.calls itself s.number s.wanted
  relied : ∀ call ∈ s.calls, roles.relies s.fibers.get? s.runs call
  covered : ∀ i key, s.remembered i key = true → s.Covered roles i key

namespace Kept

theorem empty (number : ℕ) : Kept roles (fun _ => False)
      ⟨[], fun _ => none, [], number, fun _ => false, fun _ _ => false⟩ where
  nodup := nodup_nil
  polling := Polling.empty fun _ => rfl
  relied := fun _ h => absurd h not_mem_nil
  covered := nofun

section

variable (h : Kept roles itself s)
include h

theorem of_polling {calls : List γ} {number : ℕ}
    (hpolling : Polling roles.toFiberRoles s.fibers.get? s.runs calls itself number wanted)
    (hrelied : ∀ call ∈ calls, call ∈ s.calls ∨ roles.relies s.fibers.get? s.runs call)
    (hcovered : ∀ i key, remembered i key = true →
      wanted key = true ∨ Pending calls (roles.clears i key)) :
    Kept roles itself ⟨s.fibers, s.runs, calls, number, wanted, remembered⟩ :=
  ⟨h.nodup, hpolling, fun call hmem => (hrelied call hmem).elim (h.relied call) id, hcovered⟩

theorem begins (hfree : ∀ call ∈ next, roles.Free call) :
    Kept roles itself { s with calls := next ++ s.calls } := by
  refine h.of_polling (h.polling.append_idle fun call hmem => (hfree call hmem).idle)
    (fun call hmem => ?_) fun i key hkey => (h.covered i key hkey).imp_right fun hpending =>
      Pending.append_iff.mpr (.inr hpending)
  rcases mem_append.mp hmem with hnew | hold
  · exact .inr ((hfree call hnew).relies _ _)
  · exact .inl hold

theorem remember (hremembered : ∀ i key, remembered i key = true →
      s.remembered i key = true ∨ s.Covered roles i key) :
    Kept roles itself { s with remembered := remembered } :=
  h.of_polling h.polling (fun _ => .inl) fun i key hkey =>
    (hremembered i key hkey).elim (h.covered i key) id

/-! ## Starts -/

theorem covered_update (hkey : s.remembered i key = true) (other : κ) :
    Function.update s.wanted other true key = true ∨ Pending s.calls (roles.clears i key) := by
  refine (h.covered i key hkey).imp_left fun hwanted => ?_
  rw [Function.update_apply]
  split
  · rfl
  · exact hwanted

theorem want (hkey : (s.fibers.get? key).isSome = true ∨ Pending s.calls (roles.starts key)) :
    Kept roles itself { s with wanted := Function.update s.wanted key true } :=
  h.of_polling (h.polling.want hkey) (fun _ => .inl) fun _ _ hother => h.covered_update hother key

theorem start (hcall : roles.Starts key call) (hfirst : ¬Pending s.calls (roles.starts key))
    (hrelies : roles.relies s.fibers.get? s.runs call) :
    Kept roles itself { s with
      calls := call :: s.calls, wanted := Function.update s.wanted key true } := by
  refine h.of_polling (h.polling.start hcall hfirst) (fun other hmem => ?_) fun _ _ hother =>
    (h.covered_update hother key).imp_right fun hpending => Pending.cons_iff.mpr (.inr hpending)
  rcases mem_cons.mp hmem with rfl | hold
  · exact .inr hrelies
  · exact .inl hold

/-! ## Stops -/

/-- Fibers of keys that are not being started are taken out of the map; the calls that are
added, or the fibers themselves, interrupt them and clear what is remembered of their keys. -/
theorem take (taken : κ → Prop) (next : List γ) (hnodup : (fibers.map Prod.fst).Nodup)
    (hgone : ∀ key, taken key → fibers.get? key = none)
    (hother : ∀ key, ¬taken key → fibers.get? key = s.fibers.get? key)
    (hwanted : ∀ key, taken key → wanted key = false)
    (hrest : ∀ key, ¬taken key → wanted key = s.wanted key)
    (hfirst : ∀ key, taken key → ¬Pending s.calls (roles.starts key))
    (hstops : ∀ call ∈ next, roles.Stops call)
    (hends : ∀ fiber, Pending next (roles.ends fiber) ∨ itself' fiber ↔
      (∃ key, taken key ∧ s.fibers.get? key = some fiber) ∨ itself fiber)
    (hrelies : ∀ call ∈ next, roles.relies fibers.get? s.runs call)
    (hclears : ∀ i key, taken key → s.wanted key = true → s.remembered i key = true →
      Pending next (roles.clears i key)) :
    Kept roles itself' { s with fibers := fibers, calls := next ++ s.calls, wanted := wanted } := by
  refine ⟨hnodup, h.polling.take hgone hother hwanted hrest hfirst hstops hends,
    fun call hmem => ?_, fun i key hkey => ?_⟩
  · rcases mem_append.mp hmem with hnew | hold
    · exact hrelies call hnew
    · refine roles.relies_mono (h.relied call hold) (fun key hkey => hother key fun htaken => ?_)
        fun _ _ _ hruns => hruns
      exact hfirst key htaken ⟨call, hold, hkey⟩
  · rcases h.covered i key hkey with hwas | hpending
    · by_cases htaken : taken key
      · exact .inr (Pending.append_iff.mpr (.inl (hclears i key htaken hwas hkey)))
      · exact .inl ((hrest key htaken).trans hwas)
    · exact .inr (Pending.append_iff.mpr (.inr hpending))

theorem takeKey (hfirst : ¬Pending s.calls (roles.starts key))
    (hstops : ∀ call ∈ next, roles.Stops call)
    (hends : ∀ fiber, Pending next (roles.ends fiber) ∨ itself' fiber ↔
      s.fibers.get? key = some fiber ∨ itself fiber)
    (hrelies : ∀ call ∈ next, roles.relies (s.fibers.delete key).get? s.runs call)
    (hclears : ∀ i, s.wanted key = true → s.remembered i key = true →
      Pending next (roles.clears i key)) :
    Kept roles itself' { s with
      fibers := s.fibers.delete key
      calls := next ++ s.calls
      wanted := Function.update s.wanted key false } := by
  have hget : ∀ other, (s.fibers.delete key).get? other =
      if key = other then none else s.fibers.get? other := get?_delete s.fibers key
  refine h.take (key = ·) next (nodup_keys_delete _ h.nodup) (fun other heq => ?_)
    (fun other hne => ?_)
    (fun other heq => ?_) (fun other hne => ?_) (fun other heq => ?_) hstops (fun fiber => ?_)
    hrelies fun i other heq => ?_
  · rw [hget, if_pos heq]
  · rw [hget, if_neg hne]
  · rw [← heq, Function.update_self]
  · rw [Function.update_of_ne (Ne.symm hne)]
  · rw [← heq]
    exact hfirst
  · rw [exists_eq_left']
    exact hends fiber
  · rw [← heq]
    exact hclears i

theorem takeAll (hfirst : ∀ key, ¬Pending s.calls (roles.starts key)) (hstops : roles.Stops call)
    (hends : ∀ fiber, roles.ends fiber call = true ↔ fiber ∈ s.fibers.values)
    (hrelies : ∀ recorded runs, roles.relies recorded runs call)
    (hclears : ∀ i key, roles.clears i key call = true) :
    Kept roles itself { s with
      fibers := [], calls := call :: s.calls, wanted := fun _ => false } := by
  have hsingle : ∀ other ∈ [call], other = call := fun other hmem => mem_singleton.mp hmem
  refine h.take (fun _ => True) [call] nodup_nil (fun _ _ => rfl)
    (fun _ hfalse => absurd trivial hfalse) (fun _ _ => rfl)
    (fun _ hfalse => absurd trivial hfalse) (fun key _ => hfirst key) (fun other hmem => ?_)
    (fun fiber => or_congr ?_ Iff.rfl) (fun other hmem => ?_) fun i key _ _ _ =>
      Pending.singleton_iff.mpr (hclears i key)
  · rw [hsingle other hmem]
    exact hstops
  · refine Pending.singleton_iff.trans ((hends fiber).trans ((mem_values_iff h.nodup).trans ?_))
    exact exists_congr fun key => (iff_of_eq (true_and _)).symm
  · rw [hsingle other hmem]
    exact hrelies _ _

theorem finish (hitself : itself fiber)
    (hruns : ∀ found, runs found = if found = fiber then none else s.runs found)
    (hless : ∀ found, itself' found → itself found)
    (hmore : ∀ found, found ≠ fiber → itself found → itself' found) :
    Kept roles itself' { s with runs := runs } := by
  refine ⟨h.nodup, ⟨?_, h.polling.wanted_iff, h.polling.once⟩, fun call hmem => ?_, h.covered⟩
  · exact h.polling.tracked.finish (.inr hitself) hruns (fun _ _ => Iff.rfl)
      (fun found => Or.imp_right (hless found)) fun found hne => Or.imp_right (hmore found hne)
  · refine roles.relies_mono (h.relied call hmem) (fun _ _ => rfl) fun found other _ hfound => ?_
    have hold := (hruns found).symm.trans hfound
    split at hold
    · cases hold
    · exact hold

/-! ## Fibers that run -/

theorem covered_of_runs (hruns : s.runs fiber = some key) (hitself : ¬itself fiber)
    (hclears : ∀ call, roles.relies s.fibers.get? s.runs call → roles.ends fiber call = true →
      roles.clears i key call = true) : s.Covered roles i key := by
  rcases h.polling.tracked.running fiber key hruns with hrecorded | hforked | hends
  · refine .inl ((h.polling.wanted_iff key).mpr (.inl ?_))
    rw [hrecorded]
    rfl
  · obtain ⟨call, hmem, hforks⟩ := hforked
    exact .inl ((h.polling.wanted_iff key).mpr
      (.inr ⟨call, hmem, roles.starts_of_forks fiber key call hforks⟩))
  · obtain ⟨call, hmem, hcall⟩ := hends.resolve_right hitself
    exact .inr ⟨call, hmem, hclears call (h.relied call hmem) hcall⟩

theorem isSome_of_remembered (hcalls : s.calls = []) (hkey : s.remembered i key = true) :
    (s.fibers.get? key).isSome = true := by
  have hnone : ∀ p, ¬Pending s.calls p := fun p => by
    rw [hcalls]
    exact Pending.not_nil
  have hwanted := (h.covered i key hkey).resolve_right (hnone _)
  exact ((h.polling.wanted_iff key).mp hwanted).resolve_right (hnone _)

/-! ## Calls that go on -/

variable [DecidableEq γ] (hcall : call ∈ s.calls)
include hcall

theorem goes (hfree : roles.Free call) (hnext : ∀ call ∈ next, roles.Free call)
    (hremembered : ∀ i key, remembered i key = true → s.remembered i key = true ∧
      (roles.clears i key call = true → Pending next (roles.clears i key))) :
    Kept roles itself { s with
      calls := next ++ s.calls.erase call, remembered := remembered } := by
  have hadvanced : Advanced s.calls call next (next ++ s.calls.erase call) := ⟨hcall, rfl⟩
  refine h.of_polling (h.polling.advance_idle hadvanced hfree.idle fun call hmem =>
    (hnext call hmem).idle) (fun other hmem => ?_) (fun i key hkey => ?_)
  · rcases mem_append.mp hmem with hnew | hold
    · exact .inr ((hnext other hnew).relies _ _)
    · exact .inl (mem_of_mem_erase hold)
  · obtain ⟨hold, hclears⟩ := hremembered i key hkey
    exact (h.covered i key hold).imp_right (hadvanced.pending_of hclears)

theorem goesTo (hfree : roles.Free call) (hfree' : roles.Free call')
    (hremembered : ∀ i key, remembered i key = true → s.remembered i key = true ∧
      (roles.clears i key call = true → roles.clears i key call' = true)) :
    Kept roles itself { s with
      calls := call' :: s.calls.erase call, remembered := remembered } := by
  refine h.goes hcall hfree (fun other hmem => ?_) fun i key hkey =>
    (hremembered i key hkey).imp_right fun hclears hcall =>
      Pending.singleton_iff.mpr (hclears hcall)
  rw [mem_singleton.mp hmem]
  exact hfree'

theorem without (hfree : roles.Free call) (hclears : ∀ i key, roles.clears i key call = false) :
    Kept roles itself { s with calls := s.calls.erase call } := by
  refine h.goes hcall hfree (fun _ hmem => absurd hmem not_mem_nil)
    fun i key hkey => ⟨hkey, fun hcall => ?_⟩
  rw [hclears] at hcall
  cases hcall

theorem advance (hstarts : roles.Starts key call) (hstarts' : roles.Starts key call')
    (hclears : ∀ i key, roles.clears i key call = false)
    (hrelies : roles.relies s.fibers.get? s.runs call') :
    Kept roles itself { s with calls := call' :: s.calls.erase call } := by
  have hadvanced : Advanced s.calls call [call'] (call' :: s.calls.erase call) := ⟨hcall, rfl⟩
  refine h.of_polling (h.polling.advance_starts hadvanced hstarts hstarts') (fun other hmem => ?_)
    fun i other hother => (h.covered i other hother).imp_right
      (hadvanced.pending_of fun hcall => ?_)
  · rcases mem_cons.mp hmem with rfl | hold
    · exact .inr hrelies
    · exact .inl (mem_of_mem_erase hold)
  · rw [hclears] at hcall
    cases hcall

theorem fork (hstarts : roles.Starts key call) (hnone : s.fibers.get? key = none)
    (hclears : ∀ i key, roles.clears i key call = false) (hforks : roles.Forks s.number key call')
    (hrelies : ∀ recorded runs, roles.relies recorded runs call')
    (hruns : ∀ fiber, runs fiber = if fiber = s.number then some key else s.runs fiber)
    (hitself : ∀ fiber, itself' fiber ↔ itself fiber) :
    Kept roles itself' { s with
      runs := runs, calls := call' :: s.calls.erase call, number := s.number + 1 } := by
  have hadvanced : Advanced s.calls call [call'] (call' :: s.calls.erase call) := ⟨hcall, rfl⟩
  refine ⟨h.nodup, h.polling.fork hadvanced hstarts hnone hforks hruns hitself,
    fun other hmem => ?_, fun i other hother =>
      (h.covered i other hother).imp_right (hadvanced.pending_of fun hcall => ?_)⟩
  · rcases mem_cons.mp hmem with rfl | hold
    · exact hrelies _ _
    · have hold := mem_of_mem_erase hold
      refine roles.relies_mono (h.relied other hold) (fun _ _ => rfl)
        fun found name hends hname => ?_
      have hlt := h.polling.tracked.ending_lt found (.inl ⟨other, hold, hends⟩)
      exact ((hruns found).trans (if_neg (Nat.ne_of_lt hlt))).symm.trans hname
  · rw [hclears] at hcall
    cases hcall

theorem record (hforks : roles.Forks fiber key call)
    (hclears : ∀ i key, roles.clears i key call = false)
    (hnext : ∀ call ∈ next, roles.Starts key call ∨ roles.Idle call)
    (honce : next.countP (roles.starts key) ≤ 1)
    (hrelies : ∀ call ∈ next, roles.relies (s.fibers.set key fiber).get? s.runs call) :
    Kept roles itself { s with
      fibers := s.fibers.set key fiber, calls := next ++ s.calls.erase call } := by
  have hadvanced : Advanced s.calls call next (next ++ s.calls.erase call) := ⟨hcall, rfl⟩
  have hget : ∀ other, (s.fibers.set key fiber).get? other =
      if other = key then some fiber else s.fibers.get? other := by
    intro other
    refine (get?_set _ _ _ _).trans ?_
    simp only [eq_comm]
  refine ⟨nodup_keys_set _ _ h.nodup, h.polling.record hadvanced hforks hnext honce hget,
    fun other hmem => ?_, fun i other hother =>
      (h.covered i other hother).imp_right (hadvanced.pending_of fun hcall => ?_)⟩
  · rcases mem_append.mp hmem with hnew | hold
    · exact hrelies other hnew
    · refine roles.relies_mono (h.relied other (mem_of_mem_erase hold)) (fun name hname => ?_)
        fun _ _ _ hruns => hruns
      rw [hget, if_neg]
      rintro rfl
      have hnot := h.polling.not_starts_of_mem_erase hcall ((hforks.starts name).mpr rfl) hold
      exact absurd (hnot.symm.trans hname) Bool.false_ne_true
  · rw [hclears] at hcall
    cases hcall

theorem interrupt (hfiber : roles.ends fiber call = true) (hstops : roles.Stops call)
    (hstops' : roles.Stops call')
    (hsub : ∀ found, roles.ends found call' = true → roles.ends found call = true)
    (hrest : ∀ found, found ≠ fiber → roles.ends found call = true → roles.ends found call' = true)
    (hclears : ∀ i key, roles.clears i key call = true → roles.clears i key call' = true)
    (hrelies : ∀ recorded runs, roles.relies recorded runs call')
    (hruns : ∀ found, runs found = if found = fiber then none else s.runs found)
    (hless : ∀ found, itself' found → itself found)
    (hmore : ∀ found, found ≠ fiber → itself found → itself' found) :
    Kept roles itself' { s with runs := runs, calls := call' :: s.calls.erase call } := by
  have hadvanced : Advanced s.calls call [call'] (call' :: s.calls.erase call) := ⟨hcall, rfl⟩
  refine ⟨h.nodup, h.polling.interrupt hadvanced hfiber hstops hstops' hsub hrest hruns hless hmore,
    fun other hmem => ?_, fun i key hkey => (h.covered i key hkey).imp_right
      (hadvanced.pending_of fun hcall => Pending.singleton_iff.mpr (hclears i key hcall))⟩
  rcases mem_cons.mp hmem with rfl | hold
  · exact hrelies _ _
  · refine roles.relies_mono (h.relied other (mem_of_mem_erase hold)) (fun _ _ => rfl)
      fun found name _ hfound => ?_
    have hold := (hruns found).symm.trans hfound
    split at hold
    · cases hold
    · exact hold

end

end Kept

end Laborer.Library
