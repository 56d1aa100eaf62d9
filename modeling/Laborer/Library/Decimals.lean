import Mathlib.Data.List.Induction

/-!
# Decimal texts of numbers

The decimals of a positive number start with another digit than zero, and such a text is
the one of the number that it spells.
-/

namespace Laborer.Library

open List Bool

/-- `[1-9][0-9]*` -/
def isDecimal : List Char → Bool
  | [] => false
  | first :: rest => first.isDigit && first ≠ '0' && rest.all Char.isDigit

def decimalValue (digits : List Char) : ℕ :=
  Nat.ofDigitChars 10 digits 0

theorem isDigit_of_isDecimal {digits : List Char} (h : isDecimal digits = true) :
    ∀ c ∈ digits, c.isDigit = true := by
  cases digits with
  | nil => cases h
  | cons first rest =>
    unfold isDecimal at h
    simp only [and_eq_true, all_eq_true] at h
    intro c hc
    rcases mem_cons.mp hc with rfl | hc
    · exact h.1.1
    · exact h.2 c hc

theorem decimalValue_toDigits (n : ℕ) : decimalValue (Nat.toDigits 10 n) = n :=
  Nat.ofDigitChars_ten_toDigits

theorem decimalValue_append (digits : List Char) (c : Char) :
    decimalValue (digits ++ [c]) = 10 * decimalValue digits + (c.toNat - '0'.toNat) := by
  unfold decimalValue
  rw [Nat.ofDigitChars_append, Nat.ofDigitChars_cons, Nat.ofDigitChars_nil]

theorem digitChar_of_isDigit {c : Char} (h : c.isDigit = true) :
    c.toNat - '0'.toNat < 10 ∧ Nat.digitChar (c.toNat - '0'.toNat) = c := by
  have hrange : 48 ≤ c.toNat ∧ c.toNat ≤ 57 := by
    simp only [Char.isDigit, and_eq_true, decide_eq_true_eq] at h
    exact h
  have hzero : '0'.toNat = 48 := rfl
  refine ⟨by omega, ?_⟩
  apply Char.toNat_inj.mp
  rw [Nat.toNat_digitChar_of_lt_ten (by omega)]
  omega

theorem toDigits_of_digit {c : Char} (h : c.isDigit = true) :
    Nat.toDigits 10 (c.toNat - '0'.toNat) = [c] := by
  rw [Nat.toDigits_of_lt_base (digitChar_of_isDigit h).1, (digitChar_of_isDigit h).2]

theorem toDigits_decimalValue {digits : List Char} (h : isDecimal digits = true) :
    0 < decimalValue digits ∧ Nat.toDigits 10 (decimalValue digits) = digits := by
  induction digits using reverseRecOn with
  | nil => cases h
  | append_singleton digits c ih =>
    have hc : c.isDigit = true := isDigit_of_isDecimal h c (by simp)
    rw [decimalValue_append]
    cases digits with
    | nil =>
      -- A single digit, which is not zero.
      have hne : c ≠ '0' := by
        simp only [nil_append, isDecimal, and_eq_true, decide_eq_true_eq] at h
        exact h.1.2
      have hvalue : 10 * decimalValue [] + (c.toNat - '0'.toNat) = c.toNat - '0'.toNat :=
        Nat.zero_add _
      rw [hvalue]
      refine ⟨?_, toDigits_of_digit hc⟩
      by_contra hzero
      have hdigit := (digitChar_of_isDigit hc).2
      rw [Nat.eq_zero_of_not_pos hzero] at hdigit
      exact hne hdigit.symm
    | cons first rest =>
      have hprefix : isDecimal (first :: rest) = true := by
        simp only [cons_append, isDecimal, all_append, and_eq_true] at h ⊢
        exact ⟨h.1, h.2.1⟩
      obtain ⟨hpos, hdigits⟩ := ih hprefix
      refine ⟨by omega, ?_⟩
      rw [← Nat.toDigits_append_toDigits (by decide) hpos (digitChar_of_isDigit hc).1, hdigits,
        toDigits_of_digit hc]

theorem isDecimal_toDigits {n : ℕ} (hpos : 0 < n) : isDecimal (Nat.toDigits 10 n) = true := by
  have hdigits : ∀ c ∈ Nat.toDigits 10 n, c.isDigit = true :=
    fun c hc => Nat.isDigit_of_mem_toDigits (by decide) (by decide) hc
  induction n using Nat.strongRecOn with
  | ind n ih =>
    by_cases hlt : n < 10
    · rw [Nat.toDigits_of_lt_base hlt] at hdigits ⊢
      have hne : n.digitChar ≠ '0' := by
        intro hzero
        have hnat := congrArg Char.toNat hzero
        rw [Nat.toNat_digitChar_of_lt_ten hlt] at hnat
        have hchar : '0'.toNat = 48 := rfl
        omega
      simp [isDecimal, hdigits, hne]
    · have hdiv : 0 < n / 10 := Nat.div_pos (Nat.le_of_not_lt hlt) (by decide)
      have hrest := ih (n / 10) (Nat.div_lt_self hpos (by decide)) hdiv
        fun c hc => Nat.isDigit_of_mem_toDigits (by decide) (by decide) hc
      rw [Nat.toDigits_of_base_le (by decide) (Nat.le_of_not_lt hlt)] at hdigits ⊢
      cases htext : Nat.toDigits 10 (n / 10) with
      | nil => exact absurd htext Nat.toDigits_ne_nil
      | cons first rest =>
        rw [htext] at hrest hdigits
        simp only [cons_append, isDecimal, all_append, and_eq_true] at hrest ⊢
        refine ⟨hrest.1, hrest.2, ?_⟩
        rw [all_eq_true]
        exact fun c hc => hdigits c (mem_append_right _ hc)

end Laborer.Library
