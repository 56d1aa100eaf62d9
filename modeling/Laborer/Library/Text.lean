import Mathlib.Data.List.Infix
import Mathlib.Algebra.Order.Ring.Int

/-!
# Text

The string functions of JavaScript and SQLite that programs over them rest on:
`trim`, `length`, `JSON.stringify` of strings, `lower` and `LIKE`.
-/

namespace Laborer.Library

open List

/-! ## JavaScript -/

def isJsWhitespace (c : Char) : Bool :=
  c ∈ ['\t', '\n', '\x0b', '\x0c', '\r', ' '] ||
    c.toNat ∈ [0xa0, 0x1680, 0x2028, 0x2029, 0x202f, 0x205f, 0x3000, 0xfeff] ||
    (0x2000 ≤ c.toNat && c.toNat ≤ 0x200a)

/-- `s.trim()`. -/
def jsTrim (s : String) : String :=
  String.ofList (((s.toList.dropWhile isJsWhitespace).reverse.dropWhile isJsWhitespace).reverse)

/-- `s.length`, in UTF-16 code units. -/
def jsLength (s : String) : ℕ :=
  (s.toList.map fun c => if 0x10000 ≤ c.toNat then 2 else 1).sum

def hexDigit (n : ℕ) : Char :=
  (['0', '1', '2', '3', '4', '5', '6', '7', '8', '9',
    'a', 'b', 'c', 'd', 'e', 'f'][n % 16]?).getD '0'

def quotationMark : Char := Char.ofNat 0x22

def backslash : Char := Char.ofNat 0x5c

def jsonChar (c : Char) : List Char :=
  match c.toNat with
  | 0x08 => [backslash, 'b']
  | 0x09 => [backslash, 't']
  | 0x0a => [backslash, 'n']
  | 0x0c => [backslash, 'f']
  | 0x0d => [backslash, 'r']
  | 0x22 => [backslash, quotationMark]
  | 0x5c => [backslash, backslash]
  | n =>
    if n < 0x20 then [backslash, 'u', '0', '0', hexDigit (n / 16), hexDigit n]
    else [c]

/-- A character that JSON text does not show as it is. -/
def jsonEscaped (c : Char) : Bool :=
  c.toNat < 0x20 || c.toNat = 0x22 || c.toNat = 0x5c

def utf16Units (c : Char) : List UInt16 :=
  if c.toNat < 0x10000 then [c.toNat.toUInt16]
  else [(0xd800 + (c.toNat - 0x10000) / 0x400).toUInt16,
    (0xdc00 + (c.toNat - 0x10000) % 0x400).toUInt16]

/-- A string literal as JavaScript has it, in UTF-16 code units. -/
def codeUnits (s : String) : List UInt16 := s.toList.flatMap utf16Units

/-- `JSON.stringify` of a string. -/
def jsonString (s : String) : List Char :=
  quotationMark :: s.toList.flatMap jsonChar ++ [quotationMark]

/-- The items of an array of strings. -/
def jsonItems : List String → List Char
  | [] => []
  | [s] => jsonString s
  | s :: t :: rest => jsonString s ++ ',' :: jsonItems (t :: rest)

def jsonStrings (ss : List String) : List Char :=
  '[' :: jsonItems ss ++ [']']

theorem jsonString_infix_jsonItems {s : String} {ss : List String} (h : s ∈ ss) :
    jsonString s <:+: jsonItems ss := by
  induction ss with
  | nil => exact absurd h not_mem_nil
  | cons t ss ih =>
    cases ss with
    | nil =>
      rw [mem_singleton.mp h]
      exact infix_rfl
    | cons u rest =>
      rcases mem_cons.mp h with rfl | h
      · exact (prefix_append _ _).isInfix
      · exact ((ih h).trans (suffix_cons ',' _).isInfix).trans (suffix_append _ _).isInfix

theorem jsonString_infix_jsonStrings {s : String} {ss : List String} (h : s ∈ ss) :
    jsonString s <:+: jsonStrings ss :=
  ((jsonString_infix_jsonItems h).trans (prefix_append _ _).isInfix).trans
    (suffix_cons '[' _).isInfix

theorem toNat_lt_of_isAlphanum {c : Char} (h : c.isAlphanum = true) : c.toNat < 0x80 := by
  unfold Char.isAlphanum Char.isAlpha Char.isUpper Char.isLower Char.isDigit at h
  simp only [Bool.or_eq_true, Bool.and_eq_true, decide_eq_true_eq, ge_iff_le,
    UInt32.le_iff_toNat_le] at h
  have hval : c.val.toNat = c.toNat := rfl
  rcases h with (⟨-, h⟩ | ⟨-, h⟩) | ⟨-, h⟩ <;> exact Nat.lt_of_le_of_lt h (by decide)

/-! ## SQLite -/

def asciiLowerChar (c : Char) : Char :=
  if 'A' ≤ c ∧ c ≤ 'Z' then Char.ofNat (c.toNat + 32) else c

/-- `lower(s)`. -/
def asciiLower (s : String) : String :=
  s.map asciiLowerChar

/-- `text LIKE pattern`. -/
def like : List Char → List Char → Bool
  | [], text => text.isEmpty
  | c :: pattern, text =>
    if c = '%' then text.tails.any (like pattern)
    else
      (text.head?.any fun d => c = '_' || asciiLowerChar c = asciiLowerChar d) &&
        like pattern text.tail

theorem like_percent (text : List Char) : like ['%'] text = true := by
  rw [like, if_pos rfl, any_eq_true]
  exact ⟨[], (mem_tails _ _).mpr nil_suffix, rfl⟩

/-- What starts with a text matches the text as a pattern and a per cent sign,
with wild cards in the text or without. -/
theorem like_append_percent (literal rest : List Char) :
    like (literal ++ ['%']) (literal ++ rest) = true := by
  induction literal with
  | nil => exact like_percent rest
  | cons c literal ih =>
    rw [cons_append, cons_append, like]
    split
    · rw [any_eq_true]
      exact ⟨_, (mem_tails _ _).mpr (suffix_cons c _), ih⟩
    · simp [ih]

theorem like_of_infix {literal text : List Char} (h : literal <:+: text) :
    like ('%' :: literal ++ ['%']) text = true := by
  obtain ⟨before, rest, rfl⟩ := h
  rw [cons_append, like, if_pos rfl, any_eq_true]
  refine ⟨literal ++ rest, (mem_tails _ _).mpr ⟨before, ?_⟩, like_append_percent literal rest⟩
  rw [append_assoc]

end Laborer.Library
