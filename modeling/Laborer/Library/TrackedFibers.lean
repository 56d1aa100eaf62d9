import Mathlib.Data.Nat.Notation
import Mathlib.Logic.Basic

/-!
# Tracked fibers

A map records for each key the fiber that runs for it. A fiber is forked before it is
recorded, and taken out of the map before it is interrupted: in between a call holds it. Every
running fiber is recorded or held, and while a call holds a fiber that it has forked for a key
no other is recorded there.
-/

namespace Laborer.Library

variable {κ : Type} {recorded recorded' : κ → Option ℕ} {runs runs' : ℕ → Option κ}
  {forked forked' : ℕ → κ → Prop} {ending ending' : ℕ → Prop} {next : ℕ}

/-- The map, the fibers that run, those that were forked and not recorded yet, those that were
taken and not interrupted yet, and the number of the next fiber. -/
structure Tracked (recorded : κ → Option ℕ) (runs : ℕ → Option κ) (forked : ℕ → κ → Prop)
    (ending : ℕ → Prop) (next : ℕ) : Prop where
  recorded_runs : ∀ key fiber, recorded key = some fiber → runs fiber = some key
  recorded_stays : ∀ key fiber, recorded key = some fiber → ¬ending fiber
  running : ∀ fiber key, runs fiber = some key →
    recorded key = some fiber ∨ forked fiber key ∨ ending fiber
  forked_runs : ∀ fiber key, forked fiber key → runs fiber = some key
  forked_stays : ∀ fiber key, forked fiber key → ¬ending fiber
  forked_first : ∀ fiber key, forked fiber key → recorded key = none
  forked_once : ∀ fiber other key, forked fiber key → forked other key → fiber = other
  runs_lt : ∀ fiber key, runs fiber = some key → fiber < next
  ending_lt : ∀ fiber, ending fiber → fiber < next

namespace Tracked

theorem initial (hrecorded : ∀ key, recorded key = none) (hruns : ∀ fiber, runs fiber = none)
    (hforked : ∀ fiber key, ¬forked fiber key) (hending : ∀ fiber, ¬ending fiber) :
    Tracked recorded runs forked ending next := by
  constructor <;> simp_all

section

variable (h : Tracked recorded runs forked ending next)
include h

theorem congr (hforked : ∀ fiber key, forked' fiber key ↔ forked fiber key)
    (hending : ∀ fiber, ending' fiber ↔ ending fiber) :
    Tracked recorded runs forked' ending' next where
  recorded_runs := h.recorded_runs
  recorded_stays key fiber hkey :=
    fun hends => h.recorded_stays key fiber hkey ((hending _).mp hends)
  running := by
    intro fiber key hruns
    rw [hforked, hending]
    exact h.running fiber key hruns
  forked_runs fiber key hmem := h.forked_runs fiber key ((hforked _ _).mp hmem)
  forked_stays fiber key hmem hends :=
    h.forked_stays fiber key ((hforked _ _).mp hmem) ((hending _).mp hends)
  forked_first fiber key hmem := h.forked_first fiber key ((hforked _ _).mp hmem)
  forked_once fiber other key hmem hother :=
    h.forked_once fiber other key ((hforked _ _).mp hmem) ((hforked _ _).mp hother)
  runs_lt := h.runs_lt
  ending_lt fiber hends := h.ending_lt fiber ((hending _).mp hends)

theorem fork {key : κ} (hnone : recorded key = none) (hfirst : ∀ fiber, ¬forked fiber key)
    (hruns : ∀ fiber, runs' fiber = if fiber = next then some key else runs fiber)
    (hforked : ∀ fiber other, forked' fiber other ↔
      (fiber = next ∧ other = key) ∨ forked fiber other)
    (hending : ∀ fiber, ending' fiber ↔ ending fiber) :
    Tracked recorded runs' forked' ending' (next + 1) := by
  have hold : ∀ fiber other, runs fiber = some other → runs' fiber = some other := by
    intro fiber other hfiber
    rw [hruns, if_neg (Nat.ne_of_lt (h.runs_lt fiber other hfiber))]
    exact hfiber
  have hnew : ¬ending next := fun hends => Nat.lt_irrefl _ (h.ending_lt next hends)
  constructor
  · exact fun other fiber hother => hold fiber other (h.recorded_runs other fiber hother)
  · exact fun other fiber hother hends => h.recorded_stays other fiber hother ((hending _).mp hends)
  · intro fiber other hfiber
    rw [hruns] at hfiber
    rw [hforked, hending]
    split at hfiber
    · next heq =>
      cases hfiber
      exact .inr (.inl (.inl ⟨heq, rfl⟩))
    · rcases h.running fiber other hfiber with hrecorded | hheld | hends
      · exact .inl hrecorded
      · exact .inr (.inl (.inr hheld))
      · exact .inr (.inr hends)
  · intro fiber other hheld
    rcases (hforked _ _).mp hheld with ⟨rfl, rfl⟩ | hheld
    · rw [hruns, if_pos rfl]
    · exact hold fiber other (h.forked_runs fiber other hheld)
  · intro fiber other hheld hends
    rcases (hforked _ _).mp hheld with ⟨rfl, rfl⟩ | hheld
    · exact hnew ((hending _).mp hends)
    · exact h.forked_stays fiber other hheld ((hending _).mp hends)
  · intro fiber other hheld
    rcases (hforked _ _).mp hheld with ⟨rfl, rfl⟩ | hheld
    · exact hnone
    · exact h.forked_first fiber other hheld
  · intro fiber fiber' other hheld hheld'
    rcases (hforked _ _).mp hheld with ⟨rfl, rfl⟩ | hheld
    · rcases (hforked _ _).mp hheld' with ⟨rfl, -⟩ | hheld'
      · rfl
      · exact absurd hheld' (hfirst fiber')
    · rcases (hforked _ _).mp hheld' with ⟨rfl, rfl⟩ | hheld'
      · exact absurd hheld (hfirst fiber)
      · exact h.forked_once fiber fiber' other hheld hheld'
  · intro fiber other hfiber
    rw [hruns] at hfiber
    split at hfiber
    · next heq =>
      rw [heq]
      exact Nat.lt_succ_self _
    · exact Nat.lt_succ_of_lt (h.runs_lt fiber other hfiber)
  · exact fun fiber hends => Nat.lt_succ_of_lt (h.ending_lt fiber ((hending _).mp hends))

theorem record {key : κ} {fiber : ℕ} (hheld : forked fiber key) (hkey : recorded' key = some fiber)
    (hother : ∀ other, other ≠ key → recorded' other = recorded other)
    (hforked : ∀ fiber other, forked' fiber other ↔ forked fiber other ∧ other ≠ key)
    (hending : ∀ fiber, ending' fiber ↔ ending fiber) :
    Tracked recorded' runs forked' ending' next := by
  have hcases : ∀ other fiber', recorded' other = some fiber' →
      (other = key ∧ fiber' = fiber) ∨ recorded other = some fiber' := by
    intro other fiber' hother'
    by_cases heq : other = key
    · subst heq
      rw [hkey] at hother'
      exact .inl ⟨rfl, (Option.some.inj hother').symm⟩
    · rw [hother other heq] at hother'
      exact .inr hother'
  constructor
  · intro other fiber' hother'
    rcases hcases other fiber' hother' with ⟨rfl, rfl⟩ | hold
    · exact h.forked_runs fiber' other hheld
    · exact h.recorded_runs other fiber' hold
  · intro other fiber' hother' hends
    rcases hcases other fiber' hother' with ⟨rfl, rfl⟩ | hold
    · exact h.forked_stays fiber' other hheld ((hending _).mp hends)
    · exact h.recorded_stays other fiber' hold ((hending _).mp hends)
  · intro fiber' other hruns
    rw [hforked, hending]
    rcases h.running fiber' other hruns with hrecorded | hheld' | hends
    · by_cases heq : other = key
      · rw [heq, h.forked_first fiber key hheld] at hrecorded
        cases hrecorded
      · rw [hother other heq]
        exact .inl hrecorded
    · by_cases heq : other = key
      · subst heq
        rw [h.forked_once fiber' fiber other hheld' hheld]
        exact .inl hkey
      · exact .inr (.inl ⟨hheld', heq⟩)
    · exact .inr (.inr hends)
  · exact fun fiber' other hmem => h.forked_runs fiber' other ((hforked _ _).mp hmem).1
  · exact fun fiber' other hmem hends =>
      h.forked_stays fiber' other ((hforked _ _).mp hmem).1 ((hending _).mp hends)
  · intro fiber' other hmem
    obtain ⟨hmem, hne⟩ := (hforked _ _).mp hmem
    rw [hother other hne]
    exact h.forked_first fiber' other hmem
  · exact fun fiber' fiber'' other hmem hmem' => h.forked_once fiber' fiber'' other
      ((hforked _ _).mp hmem).1 ((hforked _ _).mp hmem').1
  · exact h.runs_lt
  · exact fun fiber' hends => h.ending_lt fiber' ((hending _).mp hends)

/-- Fibers are taken out of the map, to be interrupted. -/
theorem take {taken : κ → Prop} (htaken : ∀ key, taken key → recorded' key = none)
    (hother : ∀ key, ¬taken key → recorded' key = recorded key)
    (hforked : ∀ fiber key, forked' fiber key ↔ forked fiber key)
    (hending : ∀ fiber, ending' fiber ↔
      (∃ key, taken key ∧ recorded key = some fiber) ∨ ending fiber) :
    Tracked recorded' runs forked' ending' next := by
  have hold : ∀ key fiber, recorded' key = some fiber → ¬taken key ∧ recorded key = some fiber := by
    intro key fiber hkey
    by_cases hmem : taken key
    · rw [htaken key hmem] at hkey
      cases hkey
    · rw [hother key hmem] at hkey
      exact ⟨hmem, hkey⟩
  have hheld : ∀ fiber key, forked fiber key → ¬ending' fiber := by
    intro fiber key hmem hends
    rcases (hending _).mp hends with ⟨other, -, hrecorded⟩ | hends
    · have hsame := h.recorded_runs other fiber hrecorded
      rw [h.forked_runs fiber key hmem] at hsame
      rw [← Option.some.inj hsame, h.forked_first fiber key hmem] at hrecorded
      cases hrecorded
    · exact h.forked_stays fiber key hmem hends
  constructor
  · exact fun key fiber hkey => h.recorded_runs key fiber (hold key fiber hkey).2
  · intro key fiber hkey hends
    obtain ⟨hmem, hkey⟩ := hold key fiber hkey
    rcases (hending _).mp hends with ⟨other, hother', hrecorded⟩ | hends
    · have hsame := h.recorded_runs other fiber hrecorded
      rw [h.recorded_runs key fiber hkey] at hsame
      exact hmem (Option.some.inj hsame ▸ hother')
    · exact h.recorded_stays key fiber hkey hends
  · intro fiber key hruns
    rw [hforked, hending]
    rcases h.running fiber key hruns with hrecorded | hmem | hends
    · by_cases hmem : taken key
      · exact .inr (.inr (.inl ⟨key, hmem, hrecorded⟩))
      · rw [hother key hmem]
        exact .inl hrecorded
    · exact .inr (.inl hmem)
    · exact .inr (.inr (.inr hends))
  · exact fun fiber key hmem => h.forked_runs fiber key ((hforked _ _).mp hmem)
  · exact fun fiber key hmem => hheld fiber key ((hforked _ _).mp hmem)
  · intro fiber key hmem
    have hnone := h.forked_first fiber key ((hforked _ _).mp hmem)
    by_cases hkey : taken key
    · exact htaken key hkey
    · rw [hother key hkey]
      exact hnone
  · exact fun fiber other key hmem hmem' =>
      h.forked_once fiber other key ((hforked _ _).mp hmem) ((hforked _ _).mp hmem')
  · exact h.runs_lt
  · intro fiber hends
    rcases (hending _).mp hends with ⟨key, -, hrecorded⟩ | hends
    · exact h.runs_lt fiber key (h.recorded_runs key fiber hrecorded)
    · exact h.ending_lt fiber hends

theorem finish {fiber : ℕ} (hends : ending fiber)
    (hruns : ∀ other, runs' other = if other = fiber then none else runs other)
    (hforked : ∀ other key, forked' other key ↔ forked other key)
    (hsub : ∀ other, ending' other → ending other)
    (hrest : ∀ other, other ≠ fiber → ending other → ending' other) :
    Tracked recorded runs' forked' ending' next := by
  have hold : ∀ other key, runs' other = some key → other ≠ fiber ∧ runs other = some key := by
    intro other key hother
    rw [hruns] at hother
    split at hother
    · cases hother
    · next hne => exact ⟨hne, hother⟩
  have hkept : ∀ other key, other ≠ fiber → runs other = some key → runs' other = some key := by
    intro other key hne hother
    rw [hruns, if_neg hne]
    exact hother
  constructor
  · intro key other hkey
    have hne : other ≠ fiber := by
      rintro rfl
      exact h.recorded_stays key other hkey hends
    exact hkept other key hne (h.recorded_runs key other hkey)
  · exact fun key other hkey hends' => h.recorded_stays key other hkey (hsub other hends')
  · intro other key hother
    obtain ⟨hne, hother⟩ := hold other key hother
    rw [hforked]
    rcases h.running other key hother with hrecorded | hmem | hends'
    · exact .inl hrecorded
    · exact .inr (.inl hmem)
    · exact .inr (.inr (hrest other hne hends'))
  · intro other key hmem
    have hheld := (hforked _ _).mp hmem
    have hne : other ≠ fiber := by
      rintro rfl
      exact h.forked_stays other key hheld hends
    exact hkept other key hne (h.forked_runs other key hheld)
  · exact fun other key hmem hends' =>
      h.forked_stays other key ((hforked _ _).mp hmem) (hsub other hends')
  · exact fun other key hmem => h.forked_first other key ((hforked _ _).mp hmem)
  · exact fun other other' key hmem hmem' =>
      h.forked_once other other' key ((hforked _ _).mp hmem) ((hforked _ _).mp hmem')
  · exact fun other key hother => h.runs_lt other key (hold other key hother).2
  · exact fun other hends' => h.ending_lt other (hsub other hends')

/-- **No call holds a fiber.** Then the fibers that run are those that are recorded. -/
theorem runs_iff
    (hforked : ∀ fiber key, ¬forked fiber key) (hending : ∀ fiber, ¬ending fiber) (fiber : ℕ)
    (key : κ) : runs fiber = some key ↔ recorded key = some fiber := by
  constructor
  · intro hruns
    rcases h.running fiber key hruns with hrecorded | hmem | hends
    · exact hrecorded
    · exact absurd hmem (hforked fiber key)
    · exact absurd hends (hending fiber)
  · exact h.recorded_runs key fiber

end

end Tracked

end Laborer.Library
