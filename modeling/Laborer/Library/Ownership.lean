import Mathlib.Data.Option.Basic

/-!
# Owned resources

Resources that are live or not, and owners that hold some of them. Nothing leaks and
nothing is released twice where the live resources are those that an owner holds, each
held by one owner only.
-/

namespace Laborer.Library

universe u v

variable {ρ : Type u} {ω : Type v}

/-- Every live resource has its one owner, and an owner holds live resources only. -/
structure Owned (live : ρ → Prop) (owns : ω → ρ → Prop) : Prop where
  live_iff : ∀ r, live r ↔ ∃ o, owns o r
  unique : ∀ o o' r, owns o r → owns o' r → o = o'

namespace Owned

variable {live live' : ρ → Prop} {owns owns' : ω → ρ → Prop}

theorem live_of_owns (h : Owned live owns) {o : ω} {r : ρ} (howns : owns o r) : live r :=
  (h.live_iff r).mpr ⟨o, howns⟩

/-- An owner passes all that it holds to another, or to itself, who may take a resource
that was not live. -/
theorem pass (h : Owned live owns) (giver taker : ω) (new : Option ρ)
    (hnew : ∀ r ∈ new, ¬ live r) (hlive : ∀ r, live' r ↔ live r ∨ r ∈ new)
    (howns : ∀ o r, owns' o r ↔ (o ≠ giver ∧ owns o r) ∨ (o = taker ∧ (owns giver r ∨ r ∈ new))) :
    Owned live' owns' := by
  constructor
  · intro r
    rw [hlive, h.live_iff]
    constructor
    · rintro (⟨o, ho⟩ | hr)
      · by_cases hgiver : o = giver
        · subst hgiver
          exact ⟨taker, (howns taker r).mpr (.inr ⟨rfl, .inl ho⟩)⟩
        · exact ⟨o, (howns o r).mpr (.inl ⟨hgiver, ho⟩)⟩
      · exact ⟨taker, (howns taker r).mpr (.inr ⟨rfl, .inr hr⟩)⟩
    · rintro ⟨o, ho⟩
      rcases (howns o r).mp ho with ⟨-, ho⟩ | ⟨-, ho | hr⟩
      · exact .inl ⟨o, ho⟩
      · exact .inl ⟨giver, ho⟩
      · exact .inr hr
  · intro o₁ o₂ r h₁ h₂
    rcases (howns o₁ r).mp h₁ with ⟨hne₁, h₁⟩ | ⟨rfl, h₁⟩
    · rcases (howns o₂ r).mp h₂ with ⟨-, h₂⟩ | ⟨-, h₂ | hr⟩
      · exact h.unique o₁ o₂ r h₁ h₂
      · exact absurd (h.unique o₁ giver r h₁ h₂) hne₁
      · exact absurd (h.live_of_owns h₁) (hnew r hr)
    · rcases (howns o₂ r).mp h₂ with ⟨hne₂, h₂⟩ | ⟨rfl, -⟩
      · rcases h₁ with h₁ | hr
        · exact absurd (h.unique o₂ giver r h₂ h₁) hne₂
        · exact absurd (h.live_of_owns h₂) (hnew r hr)
      · rfl

theorem release (h : Owned live owns) (gone : ρ) (hlive : ∀ r, live' r ↔ live r ∧ r ≠ gone)
    (howns : ∀ o r, owns' o r ↔ owns o r ∧ r ≠ gone) : Owned live' owns' := by
  constructor
  · intro r
    rw [hlive, h.live_iff]
    simp only [howns]
    exact ⟨fun ⟨⟨o, ho⟩, hr⟩ => ⟨o, ho, hr⟩, fun ⟨o, ho, hr⟩ => ⟨⟨o, ho⟩, hr⟩⟩
  · intro o₁ o₂ r h₁ h₂
    exact h.unique o₁ o₂ r ((howns o₁ r).mp h₁).1 ((howns o₂ r).mp h₂).1

end Owned

end Laborer.Library
