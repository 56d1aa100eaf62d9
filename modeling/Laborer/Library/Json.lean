import Mathlib.Data.List.Basic
import Mathlib.Data.Rat.Defs

/-!
# JSON values

Values as `JSON.parse` returns them, with the type tests a decoder makes. An
absent key and `undefined` are the same thing here; numbers are exact.

A decoder of a tree reads fields of an object and descends into the items of an
array field. `recurse` is that recursion: the step gets the value and, for each
key, the results for the items of the array under it.
-/

namespace Laborer.Library

open List

inductive Json where
  | null
  | bool (b : Bool)
  | num (n : ℚ)
  | str (s : String)
  | arr (items : List Json)
  | obj (fields : List (String × Json))

namespace Json

def get? : Json → String → Option Json
  | .obj fields, key => (fields.find? fun field => field.1 = key).map Prod.snd
  | _, _ => none

def str? : Json → Option String
  | .str s => some s
  | _ => none

def num? : Json → Option ℚ
  | .num n => some n
  | _ => none

def arr? : Json → Option (List Json)
  | .arr items => some items
  | _ => none

def getStr? (j : Json) (key : String) : Option String :=
  (j.get? key).bind str?

def getArr? (j : Json) (key : String) : Option (List Json) :=
  (j.get? key).bind arr?

/-! ## Reading the fields of an object -/

@[simp] theorem get?_nil (key : String) : (obj []).get? key = none := rfl

@[simp] theorem get?_cons (k : String) (v : Json) (fs : List (String × Json)) (key : String) :
    (obj ((k, v) :: fs)).get? key = if k = key then some v else (obj fs).get? key := by
  by_cases hk : k = key <;> simp [get?, hk]

theorem mapM_eq_some_iff {α β : Type} {f : α → Option β} {xs : List α} {ys : List β} :
    xs.mapM f = some ys ↔ xs.map f = ys.map some := by
  induction xs generalizing ys with
  | nil => cases ys <;> simp
  | cons x xs ih =>
    rw [mapM_cons, map_cons]
    cases ys with
    | nil => cases f x <;> cases xs.mapM f <;> simp
    | cons y ys =>
      rw [map_cons, List.cons.injEq, ← ih]
      cases f x <;> cases xs.mapM f <;> simp

theorem mapM_map_eq_some {α β : Type} {f : α → Option β} {g : β → α} {ys : List β}
    (h : ∀ y ∈ ys, f (g y) = some y) : (ys.map g).mapM f = some ys := by
  rw [mapM_eq_some_iff, map_map]
  exact map_congr_left h

/-! ## Recursion through arrays -/

section Recurse

variable {α : Type} (step : Json → (String → Option (List α)) → α)

mutual
/-- Apply the step to a value, with the results for the items of each array
field at hand. -/
def recurse : Json → α
  | .obj fields => step (.obj fields) fun key => fieldResults key fields
  | .null => step .null fun _ => none
  | .bool b => step (.bool b) fun _ => none
  | .num n => step (.num n) fun _ => none
  | .str s => step (.str s) fun _ => none
  | .arr items => step (.arr items) fun _ => none
def fieldResults (key : String) : List (String × Json) → Option (List α)
  | [] => none
  | (k, v) :: rest => if k = key then arrayResults v else fieldResults key rest
/-- The results for the items of a value that is an array. -/
def arrayResults : Json → Option (List α)
  | .arr items => some (itemResults items)
  | _ => none
def itemResults : List Json → List α
  | [] => []
  | item :: rest => recurse item :: itemResults rest
end

theorem itemResults_eq (items : List Json) : itemResults step items = items.map (recurse step) := by
  induction items with
  | nil => rfl
  | cons item rest ih => rw [itemResults, ih, map_cons]

theorem arrayResults_eq (j : Json) : arrayResults step j = j.arr?.map (·.map (recurse step)) := by
  cases j with
  | arr items => rw [arrayResults, itemResults_eq]; rfl
  | _ => rfl

theorem fieldResults_eq (key : String) (fields : List (String × Json)) :
    fieldResults step key fields = ((Json.obj fields).getArr? key).map (·.map (recurse step)) := by
  induction fields with
  | nil => rfl
  | cons field rest ih =>
    obtain ⟨k, v⟩ := field
    rw [fieldResults]
    by_cases hk : k = key
    · simp [hk, getArr?, get?, arrayResults_eq]
    · simpa [hk, getArr?, get?] using ih

/-- **The recursion equation.** -/
theorem recurse_eq (j : Json) :
    recurse step j = step j fun key => (j.getArr? key).map (·.map (recurse step)) := by
  cases j with
  | obj fields => rw [recurse]; congr 1; funext key; exact fieldResults_eq step key fields
  | _ => rfl

end Recurse

/-! ## Induction through arrays -/

theorem sizeOf_getArr? {j item : Json} {key : String} {items : List Json}
    (h : j.getArr? key = some items) (hitem : item ∈ items) : sizeOf item < sizeOf j := by
  obtain ⟨v, hv, hitems⟩ := Option.bind_eq_some_iff.mp h
  cases j with
  | obj fields =>
    obtain ⟨field, hfind, rfl⟩ := Option.map_eq_some_iff.mp hv
    obtain ⟨k, v⟩ := field
    have hmem := sizeOf_lt_of_mem (mem_of_find?_eq_some hfind)
    cases v with
    | arr vs =>
      cases hitems
      have hsub := sizeOf_lt_of_mem hitem
      simp only [Prod.mk.sizeOf_spec, arr.sizeOf_spec, obj.sizeOf_spec] at hmem ⊢
      omega
    | _ => cases hitems
  | _ => cases hv

@[elab_as_elim]
theorem arrayInduction {motive : Json → Prop}
    (step : ∀ j, (∀ key items, j.getArr? key = some items → ∀ item ∈ items, motive item) →
      motive j) (j : Json) : motive j :=
  step j fun _ _ h item hitem =>
    have := sizeOf_getArr? h hitem
    arrayInduction step item
termination_by sizeOf j

end Json

end Laborer.Library
