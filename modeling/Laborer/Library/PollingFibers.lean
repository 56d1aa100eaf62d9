import Laborer.Library.PendingCalls
import Laborer.Library.TrackedFibers

/-!
# Fibers that calls start and stop

A start forks a fiber for its key and records it; a stop takes the fiber out of the map and
interrupts it. As long as a key has one start at a time, which nothing stops before it has
recorded its fiber, a key has a fiber, or is about to, exactly when its last call was a start.
-/

namespace Laborer.Library

open List

variable {κ γ : Type}

/-- What a call holds: the key that it starts, the fiber that it has forked for it and not
recorded yet, and the fibers that it has taken and not interrupted yet. -/
structure FiberRoles (κ γ : Type) where
  starts : κ → γ → Bool
  forks : ℕ → κ → γ → Bool
  ends : ℕ → γ → Bool
  starts_of_forks : ∀ fiber key call, forks fiber key call = true → starts key call = true

namespace FiberRoles

variable (roles : FiberRoles κ γ)

structure Idle (call : γ) : Prop where
  starts : ∀ key, roles.starts key call = false
  forks : ∀ fiber key, roles.forks fiber key call = false
  ends : ∀ fiber, roles.ends fiber call = false

structure Starts (key : κ) (call : γ) : Prop where
  starts : ∀ other, roles.starts other call = true ↔ other = key
  forks : ∀ fiber other, roles.forks fiber other call = false
  ends : ∀ fiber, roles.ends fiber call = false

structure Stops (call : γ) : Prop where
  starts : ∀ key, roles.starts key call = false
  forks : ∀ fiber key, roles.forks fiber key call = false

structure Forks (fiber : ℕ) (key : κ) (call : γ) : Prop where
  starts : ∀ other, roles.starts other call = true ↔ other = key
  forks : ∀ found other, roles.forks found other call = true ↔ found = fiber ∧ other = key
  ends : ∀ found, roles.ends found call = false

end FiberRoles

/-- The map, the fibers that run, the calls, the fibers that end themselves, the number of the
next fiber, and the keys whose last call was a start. -/
structure Polling (roles : FiberRoles κ γ) (recorded : κ → Option ℕ) (runs : ℕ → Option κ)
    (calls : List γ) (itself : ℕ → Prop) (next : ℕ) (wanted : κ → Bool) : Prop where
  tracked : Tracked recorded runs (fun fiber key => Pending calls (roles.forks fiber key))
    (fun fiber => Pending calls (roles.ends fiber) ∨ itself fiber) next
  wanted_iff : ∀ key, wanted key = true ↔
    (recorded key).isSome = true ∨ Pending calls (roles.starts key)
  once : ∀ key, calls.countP (roles.starts key) ≤ 1

namespace Polling

variable {roles : FiberRoles κ γ} {recorded recorded' : κ → Option ℕ} {runs runs' : ℕ → Option κ}
  {calls calls' next : List γ} {itself : ℕ → Prop} {number : ℕ} {wanted wanted' : κ → Bool}
  {call : γ} {key : κ} {fiber : ℕ} {itself' : ℕ → Prop}

/-! ## Calls that begin -/

theorem empty (hwanted : ∀ key, wanted key = false) :
    Polling roles (fun _ => none) (fun _ => none) [] (fun _ => False) number wanted where
  tracked := by
    have hends : ∀ fiber, ¬(Pending [] (roles.ends fiber) ∨ False) := fun fiber h =>
      h.elim Pending.not_nil id
    exact ⟨nofun, fun _ fiber _ => hends fiber, nofun,
      fun _ _ h => absurd h Pending.not_nil, fun _ _ h => absurd h Pending.not_nil,
      fun _ _ h => absurd h Pending.not_nil, fun _ _ _ h => absurd h Pending.not_nil,
      nofun, fun fiber h => absurd h (hends fiber)⟩
  wanted_iff key := by simp [hwanted]
  once key := Nat.zero_le _

section

variable (h : Polling roles recorded runs calls itself number wanted)
include h

theorem append_idle (hnext : ∀ call ∈ next, roles.Idle call) :
    Polling roles recorded runs (next ++ calls) itself number wanted := by
  have hpending : ∀ {p : γ → Bool}, (∀ call ∈ next, p call = false) →
      (Pending (next ++ calls) p ↔ Pending calls p) := by
    intro p hp
    rw [Pending.append_iff]
    exact or_iff_right (Pending.of_forall hp)
  constructor
  · exact h.tracked.congr
      (fun fiber key => hpending fun call hmem => (hnext call hmem).forks fiber key)
      fun fiber => or_congr (hpending fun call hmem => (hnext call hmem).ends fiber) Iff.rfl
  · intro key
    rw [hpending fun call hmem => (hnext call hmem).starts key]
    exact h.wanted_iff key
  · intro key
    rw [countP_append, Pending.countP_eq_zero fun call hmem => (hnext call hmem).starts key,
      Nat.zero_add]
    exact h.once key

theorem wanted_update [DecidableEq κ] (other : κ) : Function.update wanted key true other = true ↔
      other = key ∨ (recorded other).isSome = true ∨ Pending calls (roles.starts other) := by
  rw [Function.update_apply]
  split
  · next heq => simp [heq]
  · next hne =>
    rw [h.wanted_iff]
    exact (or_iff_right hne).symm

theorem want [DecidableEq κ]
    (hkey : (recorded key).isSome = true ∨ Pending calls (roles.starts key)) :
    Polling roles recorded runs calls itself number (Function.update wanted key true) where
  tracked := h.tracked
  wanted_iff other := by
    rw [h.wanted_update]
    refine or_iff_right_of_imp ?_
    rintro rfl
    exact hkey
  once := h.once

theorem start [DecidableEq κ]
    (hcall : roles.Starts key call) (hfirst : ¬Pending calls (roles.starts key)) :
    Polling roles recorded runs (call :: calls) itself number
      (Function.update wanted key true) where
  tracked := h.tracked.congr (fun fiber key => Pending.cons_iff_of_not (hcall.forks fiber key))
    fun fiber => or_congr (Pending.cons_iff_of_not (hcall.ends fiber)) Iff.rfl
  wanted_iff other := by
    rw [h.wanted_update, Pending.cons_iff, hcall.starts]
    exact or_left_comm
  once other := by
    rw [countP_cons]
    have hold := h.once other
    split
    · next hstarts =>
      rw [(hcall.starts other).mp hstarts]
      rw [Pending.iff_countP_pos] at hfirst
      omega
    · exact hold

/-! ## Fibers that are taken -/

/-- The fibers of some keys, none of which is being started, are taken out of the map. -/
theorem take {taken : κ → Prop} (hgone : ∀ key, taken key → recorded' key = none)
    (hother : ∀ key, ¬taken key → recorded' key = recorded key)
    (hwanted : ∀ key, taken key → wanted' key = false)
    (hrest : ∀ key, ¬taken key → wanted' key = wanted key)
    (hfirst : ∀ key, taken key → ¬Pending calls (roles.starts key))
    (hstops : ∀ call ∈ next, roles.Stops call)
    (hends : ∀ fiber, Pending next (roles.ends fiber) ∨ itself' fiber ↔
      (∃ key, taken key ∧ recorded key = some fiber) ∨ itself fiber) :
    Polling roles recorded' runs (next ++ calls) itself' number wanted' := by
  have hpending : ∀ key, Pending (next ++ calls) (roles.starts key) ↔
      Pending calls (roles.starts key) := by
    intro key
    rw [Pending.append_iff]
    exact or_iff_right (Pending.of_forall fun call hmem => (hstops call hmem).starts key)
  constructor
  · refine h.tracked.take hgone hother (fun fiber key => ?_) fun fiber => ?_
    · rw [Pending.append_iff]
      exact or_iff_right (Pending.of_forall fun call hmem => (hstops call hmem).forks fiber key)
    · rw [Pending.append_iff]
      rw [or_right_comm, hends, or_right_comm, or_assoc]
  · intro key
    rw [hpending]
    by_cases hkey : taken key
    · rw [hwanted key hkey, hgone key hkey]
      refine iff_of_false Bool.false_ne_true fun hboth => ?_
      rcases hboth with hsome | hstart
      · cases hsome
      · exact hfirst key hkey hstart
    · rw [hrest key hkey, hother key hkey]
      exact h.wanted_iff key
  · intro key
    rw [countP_append, Pending.countP_eq_zero fun call hmem => (hstops call hmem).starts key,
      Nat.zero_add]
    exact h.once key

end

/-! ## When nothing is pending -/

/-- **No call is pending.** A key whose last call was a start has exactly one fiber, no other key
has one, and each fiber is the one recorded. -/
theorem settled (h : Polling roles recorded runs [] itself number wanted)
    (hitself : ∀ fiber, ¬itself fiber) :
    (∀ key, wanted key = true → ∃ fiber, ∀ other, runs other = some key ↔ other = fiber) ∧
      (∀ key, wanted key = false → ∀ fiber, runs fiber ≠ some key) ∧
        (∀ fiber key, runs fiber = some key → recorded key = some fiber) ∧
          ∀ key, wanted key = true ↔ (recorded key).isSome = true := by
  have hends : ∀ fiber, ¬(Pending [] (roles.ends fiber) ∨ itself fiber) := fun fiber hends =>
    hends.elim Pending.not_nil (hitself fiber)
  have hruns := h.tracked.runs_iff (fun _ _ => Pending.not_nil) hends
  have hwanted : ∀ key, wanted key = true ↔ (recorded key).isSome = true := by
    intro key
    rw [h.wanted_iff]
    exact or_iff_left Pending.not_nil
  refine ⟨fun key hwas => ?_, fun key hnot fiber hfiber => ?_, fun fiber key =>
    (hruns fiber key).mp, hwanted⟩
  · obtain ⟨fiber, hfiber⟩ := Option.isSome_iff_exists.mp ((hwanted key).mp hwas)
    refine ⟨fiber, fun other => ?_⟩
    rw [hruns, hfiber, Option.some_inj]
    exact eq_comm
  · have hsome : (recorded key).isSome = true := by
      rw [(hruns fiber key).mp hfiber]
      rfl
    rw [(hwanted key).mpr hsome] at hnot
    cases hnot

variable [DecidableEq γ]

/-! ## Calls that go on -/

section

variable (h : Polling roles recorded runs calls itself number wanted)
include h

theorem advance (hadvanced : Advanced calls call next calls')
    (hstarts : ∀ key,
      next.countP (roles.starts key) = if roles.starts key call = true then 1 else 0)
    (hforks : ∀ fiber key, Pending next (roles.forks fiber key) ↔ roles.forks fiber key call = true)
    (hends : ∀ fiber, Pending next (roles.ends fiber) ↔ roles.ends fiber call = true) :
    Polling roles recorded runs calls' itself number wanted where
  tracked := h.tracked.congr (fun fiber key => hadvanced.pending_iff (hforks fiber key))
    fun fiber => or_congr (hadvanced.pending_iff (hends fiber)) Iff.rfl
  wanted_iff key := by
    rw [Pending.iff_countP_pos, hadvanced.countP_eq (hstarts key), ← Pending.iff_countP_pos]
    exact h.wanted_iff key
  once key := by
    rw [hadvanced.countP_eq (hstarts key)]
    exact h.once key

theorem advance_idle (hadvanced : Advanced calls call next calls') (hcall : roles.Idle call)
    (hnext : ∀ call ∈ next, roles.Idle call) :
    Polling roles recorded runs calls' itself number wanted := by
  refine h.advance hadvanced (fun key => ?_) (fun fiber key => ?_) (fun fiber => ?_)
  · rw [Pending.countP_eq_zero fun call hmem => (hnext call hmem).starts key, hcall.starts]
    rfl
  · rw [hcall.forks]
    exact iff_of_false (Pending.of_forall fun call hmem => (hnext call hmem).forks fiber key)
      Bool.false_ne_true
  · rw [hcall.ends]
    exact iff_of_false (Pending.of_forall fun call hmem => (hnext call hmem).ends fiber)
      Bool.false_ne_true

theorem advance_starts {call' : γ}
    (hadvanced : Advanced calls call [call'] calls') (hcall : roles.Starts key call)
    (hcall' : roles.Starts key call') :
    Polling roles recorded runs calls' itself number wanted := by
  refine h.advance hadvanced (fun other => ?_) (fun fiber other => ?_) (fun fiber => ?_)
  · rw [countP_singleton,
      Bool.eq_iff_iff.mpr ((hcall'.starts other).trans (hcall.starts other).symm)]
  · rw [Pending.singleton_iff, hcall.forks, hcall'.forks]
  · rw [Pending.singleton_iff, hcall.ends, hcall'.ends]

/-! ## Starts -/

theorem not_starts_of_mem_erase
    (hcall : call ∈ calls) (hstarts : roles.starts key call = true) {other : γ}
    (hmem : other ∈ calls.erase call) : roles.starts key other = false :=
  Pending.not_of_mem_erase hcall hstarts (h.once key) hmem

theorem fork {call' : γ}
    (hadvanced : Advanced calls call [call'] calls') (hcall : roles.Starts key call)
    (hnone : recorded key = none) (hforks : roles.Forks number key call')
    (hruns : ∀ fiber, runs' fiber = if fiber = number then some key else runs fiber)
    (hitself : ∀ fiber, itself' fiber ↔ itself fiber) :
    Polling roles recorded runs' calls' itself' (number + 1) wanted := by
  have hcount : ∀ other, [call'].countP (roles.starts other) =
      if roles.starts other call = true then 1 else 0 := by
    intro other
    rw [countP_singleton, Bool.eq_iff_iff.mpr
      ((hforks.starts other).trans (hcall.starts other).symm)]
  have hfirst : ∀ fiber, ¬Pending calls (roles.forks fiber key) := by
    rintro fiber ⟨other, hmem, hother⟩
    have herase : other ∈ calls.erase call := by
      refine (mem_erase_of_ne ?_).mpr hmem
      rintro rfl
      rw [hcall.forks] at hother
      cases hother
    have hnot := h.not_starts_of_mem_erase hadvanced.mem ((hcall.starts key).mpr rfl) herase
    rw [roles.starts_of_forks fiber key other hother] at hnot
    cases hnot
  constructor
  · refine h.tracked.fork hnone hfirst hruns (fun fiber other => ?_) fun fiber =>
      or_congr (hadvanced.pending_iff_of_not (hcall.ends fiber) fun other hmem => ?_)
        (hitself fiber)
    · rw [hadvanced.eq, singleton_append, Pending.cons_iff, hforks.forks,
        Pending.erase_iff (hcall.forks fiber other)]
    · rw [mem_singleton.mp hmem]
      exact hforks.ends fiber
  · intro other
    rw [Pending.iff_countP_pos, hadvanced.countP_eq (hcount other), ← Pending.iff_countP_pos]
    exact h.wanted_iff other
  · intro other
    rw [hadvanced.countP_eq (hcount other)]
    exact h.once other

theorem record [DecidableEq κ] (hadvanced : Advanced calls call next calls')
    (hforks : roles.Forks fiber key call)
    (hnext : ∀ call ∈ next, roles.Starts key call ∨ roles.Idle call)
    (honce : next.countP (roles.starts key) ≤ 1)
    (hrecorded : ∀ other, recorded' other = if other = key then some fiber else recorded other) :
    Polling roles recorded' runs calls' itself number wanted := by
  have hstarts := hforks.starts
  have hthis := (hstarts key).mpr rfl
  have hstarts' : ∀ other, other ≠ key →
      (Pending calls' (roles.starts other) ↔ Pending calls (roles.starts other)) := by
    intro other hne
    refine hadvanced.pending_iff_of_not ?_ fun call' hmem => ?_
    · exact Bool.eq_false_iff.mpr fun hother => hne ((hstarts other).mp hother)
    · rcases hnext call' hmem with hstart | hidle
      · exact Bool.eq_false_iff.mpr fun hother => hne ((hstart.starts other).mp hother)
      · exact hidle.starts other
  constructor
  · refine h.tracked.record ⟨call, hadvanced.mem, (hforks.forks fiber key).mpr ⟨rfl, rfl⟩⟩
      (by rw [hrecorded, if_pos rfl])
      (fun other hne => by rw [hrecorded, if_neg hne]) (fun fiber' other => ?_) fun fiber' =>
      or_congr (hadvanced.pending_iff_of_not (hforks.ends fiber') fun call' hmem => ?_) Iff.rfl
    · constructor
      · rintro ⟨call', hmem, hcall'⟩
        rcases hadvanced.mem_cases hmem with hnew | hold
        · rcases hnext call' hnew with hstart | hidle
          · rw [hstart.forks] at hcall'
            cases hcall'
          · rw [hidle.forks] at hcall'
            cases hcall'
        · refine ⟨⟨call', mem_of_mem_erase hold, hcall'⟩, ?_⟩
          -- it would be a second start of the key
          rintro rfl
          have hnot := h.not_starts_of_mem_erase hadvanced.mem hthis hold
          rw [roles.starts_of_forks fiber' other call' hcall'] at hnot
          cases hnot
      · rintro ⟨hpending, hne⟩
        refine hadvanced.pending_of (fun hcall => ?_) hpending
        exact absurd ((hstarts other).mp (roles.starts_of_forks fiber' other call hcall)) hne
    · rcases hnext call' hmem with hstart | hidle
      · exact hstart.ends fiber'
      · exact hidle.ends fiber'
  · intro other
    by_cases heq : other = key
    · rw [heq, hrecorded, if_pos rfl]
      refine iff_of_true ((h.wanted_iff key).mpr (.inr ⟨call, hadvanced.mem, hthis⟩)) (.inl rfl)
    · rw [hrecorded, if_neg heq, hstarts' other heq]
      exact h.wanted_iff other
  · intro other
    by_cases heq : other = key
    · rw [heq, hadvanced.eq, countP_append, countP_erase, if_pos ⟨hadvanced.mem, hthis⟩]
      have hold := h.once key
      omega
    · rw [hadvanced.countP_eq_of_not]
      · exact h.once other
      · exact Bool.eq_false_iff.mpr fun hother => heq ((hstarts other).mp hother)
      · intro call' hmem
        rcases hnext call' hmem with hstart | hidle
        · exact Bool.eq_false_iff.mpr fun hother => heq ((hstart.starts other).mp hother)
        · exact hidle.starts other

theorem release (hadvanced : Advanced calls call [] calls') (hcall : roles.Starts key call)
    (hsome : (recorded key).isSome = true) :
    Polling roles recorded runs calls' itself number wanted := by
  have heq := hadvanced.eq
  rw [nil_append] at heq
  constructor
  · rw [heq]
    exact h.tracked.congr (fun fiber other => Pending.erase_iff (hcall.forks fiber other))
      fun fiber => or_congr (Pending.erase_iff (hcall.ends fiber)) Iff.rfl
  · intro other
    by_cases hother : other = key
    · rw [hother]
      exact iff_of_true ((h.wanted_iff key).mpr (.inl hsome)) (.inl hsome)
    · have hnot : roles.starts other call = false :=
        Bool.eq_false_iff.mpr fun hstarts => hother ((hcall.starts other).mp hstarts)
      rw [heq, Pending.erase_iff hnot]
      exact h.wanted_iff other
  · intro other
    rw [heq]
    exact Nat.le_trans erase_sublist.countP_le (h.once other)

/-! ## Interruptions -/

theorem interrupt {call' : γ}
    (hadvanced : Advanced calls call [call'] calls') (hfiber : roles.ends fiber call = true)
    (hstops : roles.Stops call) (hstops' : roles.Stops call')
    (hsub : ∀ found, roles.ends found call' = true → roles.ends found call = true)
    (hrest : ∀ found, found ≠ fiber → roles.ends found call = true → roles.ends found call' = true)
    (hruns : ∀ found, runs' found = if found = fiber then none else runs found)
    (hless : ∀ found, itself' found → itself found)
    (hmore : ∀ found, found ≠ fiber → itself found → itself' found) :
    Polling roles recorded runs' calls' itself' number wanted := by
  have hsingle : ∀ other ∈ [call'], other = call' := fun other hmem => mem_singleton.mp hmem
  have hstarts : ∀ key, ∀ other ∈ [call'], roles.starts key other = false := by
    intro key other hmem
    rw [hsingle other hmem]
    exact hstops'.starts key
  constructor
  · refine h.tracked.finish (.inl ⟨call, hadvanced.mem, hfiber⟩) hruns (fun found key => ?_) ?_ ?_
    · refine hadvanced.pending_iff_of_not (hstops.forks found key) fun other hmem => ?_
      rw [hsingle other hmem]
      exact hstops'.forks found key
    · rintro found (⟨other, hmem, hother⟩ | hfound)
      · rcases hadvanced.mem_cases hmem with hnew | hold
        · rw [hsingle other hnew] at hother
          exact .inl ⟨call, hadvanced.mem, hsub found hother⟩
        · exact .inl ⟨other, mem_of_mem_erase hold, hother⟩
      · exact .inr (hless found hfound)
    · rintro found hne (hpending | hfound)
      · exact .inl (hadvanced.pending_of (fun hends =>
          Pending.singleton_iff.mpr (hrest found hne hends)) hpending)
      · exact .inr (hmore found hne hfound)
  · intro key
    rw [hadvanced.pending_iff_of_not (hstops.starts key) (hstarts key)]
    exact h.wanted_iff key
  · intro key
    rw [hadvanced.countP_eq_of_not (hstops.starts key) (hstarts key)]
    exact h.once key

end

end Polling

end Laborer.Library
