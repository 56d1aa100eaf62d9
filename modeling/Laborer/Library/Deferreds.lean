import Mathlib.Data.List.Basic

/-!
# Write-once cells

Cells that fibers wait on: a cell is made empty, the first completion decides its
outcome and every later one changes nothing.
-/

namespace Laborer.Library

open List

universe u

/-- The cells by the order they were made in, each with its outcome once it has one. -/
abbrev Deferreds (α : Type u) := List (Option α)

namespace Deferreds

variable {α : Type u}

def make (cells : Deferreds α) : Deferreds α := cells ++ [none]

def outcome? (cells : Deferreds α) (cell : Nat) : Option α := cells[cell]?.join

/-- The first outcome stands. -/
def complete (cell : Nat) (outcome : α) (cells : Deferreds α) : Deferreds α :=
  cells.modify cell fun held => held.or (some outcome)

def Pending (cells : Deferreds α) (cell : Nat) : Prop := cells.outcome? cell = none

instance (cells : Deferreds α) (cell : Nat) : Decidable (cells.Pending cell) :=
  decidable_of_iff ((cells.outcome? cell).isNone = true) Option.isNone_iff_eq_none

@[simp] theorem length_make (cells : Deferreds α) : cells.make.length = cells.length + 1 := by
  simp [make]

@[simp] theorem length_complete (cells : Deferreds α) (cell : Nat) (outcome : α) :
    (cells.complete cell outcome).length = cells.length := by
  simp [complete]

@[simp] theorem outcome?_make (cells : Deferreds α) (cell : Nat) :
    cells.make.outcome? cell = cells.outcome? cell := by
  unfold outcome? make
  rcases Nat.lt_trichotomy cell cells.length with hlt | rfl | hgt
  · rw [getElem?_append_left hlt]
  · simp
  · rw [getElem?_eq_none (by simp; omega), getElem?_eq_none (by omega)]

@[simp] theorem pending_make (cells : Deferreds α) (cell : Nat) :
    cells.make.Pending cell ↔ cells.Pending cell := by
  simp [Pending]

theorem not_pending_complete {cells : Deferreds α} {cell : Nat} (h : cell < cells.length)
    (outcome : α) : ¬ (cells.complete cell outcome).Pending cell := by
  unfold Pending outcome? complete
  rw [getElem?_modify_eq, getElem?_eq_getElem h]
  cases hheld : cells[cell] <;> simp

theorem outcome?_complete_of_ne {cells : Deferreds α} {cell other : Nat} (h : other ≠ cell)
    (outcome : α) : (cells.complete other outcome).outcome? cell = cells.outcome? cell := by
  unfold outcome? complete
  simp [h]

theorem pending_of_pending_complete {cells : Deferreds α} {cell other : Nat} {outcome : α}
    (h : (cells.complete other outcome).Pending cell) : cells.Pending cell := by
  by_cases hne : other = cell
  · subst hne
    by_cases hlt : other < cells.length
    · exact absurd h (not_pending_complete hlt outcome)
    · unfold Pending outcome?
      rw [getElem?_eq_none (by omega)]
      rfl
  · unfold Pending at h ⊢
    rwa [outcome?_complete_of_ne hne] at h

end Deferreds

end Laborer.Library
