/-!
# Transactions

Programs that can fail, and an operation on a state that can fail, run so that a
failure leaves the state as it was.
-/

namespace Laborer.Library

open List

variable {σ ε : Type}

/-! ## Fallible programs -/

section Fallible

variable {α β : Type} {f : α → Except ε β} {x : Except ε α}

theorem bind_eq_ok {b : β} : (x >>= f) = .ok b ↔ ∃ a, x = .ok a ∧ f a = .ok b := by
  cases x with
  | error e => exact ⟨fun h => (nomatch h), fun ⟨_, h, _⟩ => (nomatch h)⟩
  | ok a => exact ⟨fun h => ⟨a, rfl, h⟩, fun ⟨_, h, hf⟩ => by cases h; exact hf⟩

theorem except_bind_of_ok {a : α} (h : x = .ok a) : (x >>= f) = f a := by
  rw [h]
  rfl

theorem except_bind_ne_error {e : ε}
    (hx : x ≠ .error e) (hf : ∀ a, x = .ok a → f a ≠ .error e) : (x >>= f) ≠ .error e := by
  cases x with
  | error e' =>
    intro h
    cases h
    exact hx rfl
  | ok a => exact hf a rfl

end Fallible

/-! ## Transactions -/

section Transaction

variable {α : Type} {operation : σ → Except ε (α × σ)} {s : σ}

/-- Run an operation between `BEGIN` and `COMMIT`. A failure is followed by a
`ROLLBACK`, which restores the state the transaction began with. -/
def transaction (operation : σ → Except ε (α × σ)) (s : σ) : Except ε α × σ :=
  match operation s with
  | .ok (a, s') => (.ok a, s')
  | .error e => (.error e, s)

theorem transaction_eq_ok {s' : σ} {a : α} :
    transaction operation s = (.ok a, s') ↔ operation s = .ok (a, s') := by
  unfold transaction
  split
  · next a' s'' h => rw [h, Prod.mk.injEq, Except.ok.injEq, Except.ok.injEq, Prod.mk.injEq]
  · next e h => simp [h]

/-- **A failed transaction changes nothing.** -/
theorem transaction_error {e : ε}
    (h : (transaction operation s).1 = .error e) : (transaction operation s).2 = s := by
  unfold transaction at h ⊢
  split at h
  · cases h
  · rfl

theorem transaction_throws {e : ε}
    (h : operation s = .error e) : (transaction operation s).1 = .error e := by
  unfold transaction
  rw [h]

theorem transaction_cases (operation : σ → Except ε (α × σ)) (s : σ) :
    (∃ a s', transaction operation s = (.ok a, s') ∧ operation s = .ok (a, s')) ∨
      ∃ e, transaction operation s = (.error e, s) ∧ operation s = .error e := by
  unfold transaction
  cases h : operation s with
  | ok result => exact .inl ⟨result.1, result.2, rfl, rfl⟩
  | error e => exact .inr ⟨e, rfl, rfl⟩

theorem transaction_congr {operation' : σ → Except ε (α × σ)}
    (h : ∀ a s', transaction operation s = (.ok a, s') ↔ transaction operation' s = (.ok a, s')) :
    (transaction operation s).1.toOption = (transaction operation' s).1.toOption ∧
      (transaction operation s).2 = (transaction operation' s).2 := by
  rcases transaction_cases operation s with ⟨a, s', hfirst, -⟩ | ⟨e, hfirst, -⟩
  · rw [hfirst, (h a s').mp hfirst]
    exact ⟨rfl, rfl⟩
  · rcases transaction_cases operation' s with ⟨a, s', hsecond, -⟩ | ⟨e', hsecond, -⟩
    · rw [(h a s').mpr hsecond] at hfirst
      cases hfirst
    · rw [hfirst, hsecond]
      exact ⟨rfl, rfl⟩

end Transaction

end Laborer.Library
