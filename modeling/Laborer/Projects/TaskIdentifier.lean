import Laborer.Library.Decimals
import Laborer.Library.Text
import Mathlib.Data.String.Basic

/-!
# Task identifiers

The readable identifiers of tasks, a project key and a number, and their parser. What is
parsed is trimmed and in upper case, and then it is the identifier of its parts.
-/

namespace Laborer.Projects

open Library List

/-! ## Upper case -/

/-- `value.toUpperCase()`, over the upper cases of the characters outside ASCII. -/
def toUpperCase (special : Char → List Char) (value : String) : String :=
  String.ofList (value.toList.flatMap fun c => if c.toNat < 128 then [c.toUpper] else special c)

/-- `[A-Z0-9]` -/
def isKeyCharacter (c : Char) : Bool :=
  c.isUpper || c.isDigit

/-! ## Identifiers -/

def maxSafeNumber : ℕ := 2 ^ 53 - 1

/-- `/^[A-Z][A-Z0-9]{0,9}$/` -/
def isProjectShortName (value : String) : Bool :=
  match value.toList with
  | [] => false
  | first :: rest => first.isUpper && rest.length ≤ 9 && rest.all isKeyCharacter

def formatTaskIdentifier (projectShortName : String) (taskNumber : ℕ) : String :=
  projectShortName ++ "-" ++ toString taskNumber

structure ParsedTaskIdentifier where
  projectShortName : String
  taskNumber : ℕ

def matchTaskIdentifier (text : List Char) : Option (String × List Char) :=
  match text.dropWhile (· ≠ '-') with
  | [] => none
  | _ :: digits =>
    let key := String.ofList (text.takeWhile (· ≠ '-'))
    if isProjectShortName key && isDecimal digits then some (key, digits) else none

variable (special : Char → List Char) {key : String} {c : Char}

def parseTaskIdentifier (value : String) : Option ParsedTaskIdentifier :=
  match matchTaskIdentifier (toUpperCase special (jsTrim value)).toList with
  | none => none
  | some (projectShortName, digits) =>
    let taskNumber := decimalValue digits
    if taskNumber ≤ maxSafeNumber then some { projectShortName, taskNumber } else none

variable {special}

/-! ## Keys -/

theorem isKeyCharacter_of_isProjectShortName (h : isProjectShortName key = true) :
    ∀ c ∈ key.toList, isKeyCharacter c = true := by
  unfold isProjectShortName at h
  cases htext : key.toList with
  | nil => exact fun c hc => absurd hc not_mem_nil
  | cons first rest =>
    rw [htext] at h
    simp only [Bool.and_eq_true, all_eq_true] at h
    intro c hc
    rcases mem_cons.mp hc with rfl | hc
    · simp [isKeyCharacter, h.1.1]
    · exact h.2 c hc

def isIdentifierCharacter (c : Char) : Bool :=
  isKeyCharacter c || c = '-'

theorem isKeyCharacter_range (h : isKeyCharacter c = true) :
    (65 ≤ c.toNat ∧ c.toNat ≤ 90) ∨ (48 ≤ c.toNat ∧ c.toNat ≤ 57) := by
  unfold isKeyCharacter Char.isUpper Char.isDigit at h
  simp only [Bool.or_eq_true, Bool.and_eq_true, decide_eq_true_eq] at h
  exact h

theorem ne_hyphen_of_isKeyCharacter (h : isKeyCharacter c = true) : c ≠ '-' := by
  rintro rfl
  revert h
  decide

theorem isIdentifierCharacter_range (h : isIdentifierCharacter c = true) :
    45 ≤ c.toNat ∧ c.toNat ≤ 90 := by
  unfold isIdentifierCharacter at h
  rcases Bool.or_eq_true_iff.mp h with h | h
  · have hrange := isKeyCharacter_range h
    omega
  · rw [of_decide_eq_true h]
    decide

theorem not_isJsWhitespace (h : isIdentifierCharacter c = true) : isJsWhitespace c = false := by
  have hrange := isIdentifierCharacter_range h
  unfold isJsWhitespace
  simp only [Bool.or_eq_false_iff, decide_eq_false_iff_not, Bool.and_eq_false_iff, mem_cons,
    not_mem_nil, or_false, not_or]
  have hne : ∀ d : Char, (d.toNat < 45 ∨ 90 < d.toNat) → c ≠ d := by
    rintro d hd rfl
    omega
  refine ⟨⟨?_, by omega⟩, by omega⟩
  refine ⟨hne _ ?_, hne _ ?_, hne _ ?_, hne _ ?_, hne _ ?_, hne _ ?_⟩ <;> decide

theorem toUpper_of_isIdentifierCharacter (h : isIdentifierCharacter c = true) : c.toUpper = c := by
  have hrange := isIdentifierCharacter_range h
  unfold Char.toUpper
  rw [dif_neg]
  rintro ⟨hlow, -⟩
  have hlow : 97 ≤ c.toNat := hlow
  omega

/-- Text of identifier characters is trimmed and in upper case. -/
theorem toUpperCase_jsTrim {value : String}
    (h : ∀ c ∈ value.toList, isIdentifierCharacter c = true) :
    toUpperCase special (jsTrim value) = value := by
  have hkeep : ∀ text : List Char, (∀ c ∈ text, isIdentifierCharacter c = true) →
      text.dropWhile isJsWhitespace = text := by
    intro text htext
    cases text with
    | nil => rfl
    | cons c text =>
      rw [dropWhile_cons_of_neg]
      rw [not_isJsWhitespace (htext c mem_cons_self)]
      exact Bool.false_ne_true
  have htrim : jsTrim value = value := by
    unfold jsTrim
    rw [hkeep _ h, hkeep _ fun c hc => h c (mem_reverse.mp hc), reverse_reverse,
      String.ofList_toList]
  rw [htrim]
  unfold toUpperCase
  have hupper : (value.toList.flatMap fun c => if c.toNat < 128 then [c.toUpper] else special c) =
      value.toList.flatMap fun c => [c] := by
    apply flatMap_congr
    intro c hc
    have hrange := isIdentifierCharacter_range (h c hc)
    rw [if_pos (by omega), toUpper_of_isIdentifierCharacter (h c hc)]
  rw [hupper, flatMap_singleton', String.ofList_toList]

/-! ## The round trip -/

theorem toList_formatTaskIdentifier (key : String) (n : ℕ) :
    (formatTaskIdentifier key n).toList = key.toList ++ '-' :: Nat.toDigits 10 n := by
  unfold formatTaskIdentifier
  rw [String.toList_append, String.toList_append, append_assoc]
  congr 1
  exact congrArg _ Nat.toList_repr

theorem parseTaskIdentifier_formatTaskIdentifier {n : ℕ}
    (hkey : isProjectShortName key = true) (hpos : 0 < n) (hsafe : n ≤ maxSafeNumber) :
    parseTaskIdentifier special (formatTaskIdentifier key n) =
      some { projectShortName := key, taskNumber := n } := by
  have hkeyCharacters := isKeyCharacter_of_isProjectShortName hkey
  have hcharacters : ∀ c ∈ (formatTaskIdentifier key n).toList, isIdentifierCharacter c = true := by
    intro c hc
    rw [toList_formatTaskIdentifier] at hc
    unfold isIdentifierCharacter
    rcases mem_append.mp hc with hc | hc
    · simp [hkeyCharacters c hc]
    · rcases mem_cons.mp hc with rfl | hc
      · rfl
      · have hdigit := Nat.isDigit_of_mem_toDigits (b := 10) (by decide) (by decide) hc
        simp [isKeyCharacter, hdigit]
  have hmatch : matchTaskIdentifier (formatTaskIdentifier key n).toList =
      some (key, Nat.toDigits 10 n) := by
    have hne : ∀ c ∈ key.toList, decide (c ≠ '-') = true :=
      fun c hc => decide_eq_true (ne_hyphen_of_isKeyCharacter (hkeyCharacters c hc))
    rw [toList_formatTaskIdentifier]
    unfold matchTaskIdentifier
    rw [dropWhile_append_of_pos hne, takeWhile_append_of_pos hne]
    simp [hkey, isDecimal_toDigits hpos]
  unfold parseTaskIdentifier
  rw [toUpperCase_jsTrim hcharacters, hmatch]
  dsimp only
  rw [decimalValue_toDigits, if_pos hsafe]

theorem of_matchTaskIdentifier {text digits : List Char}
    (h : matchTaskIdentifier text = some (key, digits)) :
    isProjectShortName key = true ∧ isDecimal digits = true ∧
      text = key.toList ++ '-' :: digits := by
  unfold matchTaskIdentifier at h
  cases hdrop : text.dropWhile (· ≠ '-') with
  | nil =>
    rw [hdrop] at h
    cases h
  | cons hyphen rest =>
    rw [hdrop] at h
    dsimp only at h
    split at h
    · next hvalid =>
      cases h
      obtain ⟨hkey, hdecimal⟩ := (Bool.and_eq_true _ _).mp hvalid
      refine ⟨hkey, hdecimal, ?_⟩
      have hhyphen : hyphen = '-' := by
        have hhead := head?_dropWhile_not (· ≠ '-') text
        rw [hdrop] at hhead
        simpa using hhead
      subst hhyphen
      rw [String.toList_ofList, ← hdrop]
      exact takeWhile_append_dropWhile.symm
    · cases h

/-- What is parsed is the identifier of its parts, up to blanks around it and its case. -/
theorem format_of_parseTaskIdentifier {value : String} {parsed : ParsedTaskIdentifier}
    (h : parseTaskIdentifier special value = some parsed) :
    isProjectShortName parsed.projectShortName = true ∧ 0 < parsed.taskNumber ∧
      toUpperCase special (jsTrim value) =
        formatTaskIdentifier parsed.projectShortName parsed.taskNumber := by
  unfold parseTaskIdentifier at h
  cases hmatch : matchTaskIdentifier (toUpperCase special (jsTrim value)).toList with
  | none =>
    rw [hmatch] at h
    cases h
  | some found =>
    obtain ⟨key, digits⟩ := found
    obtain ⟨hkey, hdecimal, htext⟩ := of_matchTaskIdentifier hmatch
    obtain ⟨hpos, hdigits⟩ := toDigits_decimalValue hdecimal
    rw [hmatch] at h
    dsimp only at h
    by_cases hsafe : decimalValue digits ≤ maxSafeNumber
    · rw [if_pos hsafe] at h
      rw [← Option.some.inj h]
      refine ⟨hkey, hpos, ?_⟩
      apply String.toList_injective
      rw [toList_formatTaskIdentifier, hdigits]
      exact htext
    · rw [if_neg hsafe] at h
      cases h

end Laborer.Projects
