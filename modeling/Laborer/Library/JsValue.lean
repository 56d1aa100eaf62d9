import Laborer.Library.Text
import Mathlib.Data.List.Sort
import Mathlib.Data.Rat.Defs

/-!
# JavaScript values

Values as a program passes them around before it knows that they are JSON, their
JSON text, and the order in which an object lists its properties.
-/

namespace Laborer.Library

open List Bool

universe u v

/-- A value. The entries of an object are in the order of `Object.entries`; `other`
stands for what is neither data nor an object (`undefined`, a function, a symbol, a
big integer). -/
inductive JsValue where
  | null
  | bool (b : Bool)
  | num (n : ℚ)
  | nonFinite
  | str (s : String)
  | arr (items : List JsValue)
  | obj (entries : List (String × JsValue))
  | other

namespace JsValue

/-! ## Folds -/

section Fold

variable {α : Type u} (scalar : JsValue → α) (array : List α → α)
  (object : List (String × α) → α)

mutual
/-- Give each scalar a result, and each container one from those of its parts. -/
def fold : JsValue → α
  | .arr items => array (foldItems items)
  | .obj entries => object (foldEntries entries)
  | .null => scalar .null
  | .bool b => scalar (.bool b)
  | .num n => scalar (.num n)
  | .nonFinite => scalar .nonFinite
  | .str s => scalar (.str s)
  | .other => scalar .other
def foldItems : List JsValue → List α
  | [] => []
  | item :: rest => fold item :: foldItems rest
def foldEntries : List (String × JsValue) → List (String × α)
  | [] => []
  | (key, value) :: rest => (key, fold value) :: foldEntries rest
end

theorem fold_arr (items : List JsValue) :
    fold scalar array object (.arr items) = array (items.map (fold scalar array object)) := by
  rw [fold]
  congr 1
  induction items with
  | nil => rfl
  | cons item rest ih => rw [foldItems, ih, map_cons]

theorem fold_obj (entries : List (String × JsValue)) : fold scalar array object (.obj entries) =
      object (entries.map fun entry => (entry.1, fold scalar array object entry.2)) := by
  rw [fold]
  congr 1
  induction entries with
  | nil => rfl
  | cons entry rest ih =>
    rw [foldEntries, ih, map_cons]

end Fold

def IsScalar : JsValue → Prop
  | .arr _ | .obj _ => False
  | _ => True

theorem fold_scalar {α : Type u} {scalar : JsValue → α} {array : List α → α}
    {object : List (String × α) → α} {v : JsValue} (h : v.IsScalar) :
    fold scalar array object v = scalar v := by
  cases v with
  | arr items => exact h.elim
  | obj entries => exact h.elim
  | _ => rfl

/-- Induction over the parts of a value. -/
@[elab_as_elim]
theorem partsInduction {motive : JsValue → Prop} (scalar : ∀ v, v.IsScalar → motive v)
    (array : ∀ items, (∀ item ∈ items, motive item) → motive (.arr items))
    (object : ∀ entries : List (String × JsValue), (∀ entry ∈ entries, motive entry.2) →
      motive (.obj entries)) : ∀ v, motive v
  | .arr items => array items fun item hitem =>
    have := List.sizeOf_lt_of_mem hitem
    partsInduction scalar array object item
  | .obj entries => object entries fun entry hentry =>
    have hentry := List.sizeOf_lt_of_mem hentry
    have : sizeOf entry.2 < sizeOf entry := by
      obtain ⟨key, value⟩ := entry
      simp only [Prod.mk.sizeOf_spec]
      omega
    partsInduction scalar array object entry.2
  | .null => scalar _ trivial
  | .bool _ => scalar _ trivial
  | .num _ => scalar _ trivial
  | .nonFinite => scalar _ trivial
  | .str _ => scalar _ trivial
  | .other => scalar _ trivial

/-! ## Equality -/

mutual
def same : JsValue → JsValue → Bool
  | .null, .null => true
  | .bool b, .bool b' => b = b'
  | .num n, .num n' => n = n'
  | .nonFinite, .nonFinite => true
  | .str s, .str s' => s = s'
  | .arr items, .arr items' => sameItems items items'
  | .obj entries, .obj entries' => sameEntries entries entries'
  | .other, .other => true
  | _, _ => false
def sameItems : List JsValue → List JsValue → Bool
  | [], [] => true
  | v :: vs, w :: ws => same v w && sameItems vs ws
  | _, _ => false
def sameEntries : List (String × JsValue) → List (String × JsValue) → Bool
  | [], [] => true
  | (key, v) :: vs, (key', w) :: ws => key = key' && same v w && sameEntries vs ws
  | _, _ => false
end

theorem sameItems_iff {items : List JsValue}
    (h : ∀ v ∈ items, ∀ w, same v w = true ↔ v = w) (items' : List JsValue) :
    sameItems items items' = true ↔ items = items' := by
  induction items generalizing items' with
  | nil => cases items' <;> simp [sameItems]
  | cons v vs ih =>
    cases items' with
    | nil => simp [sameItems]
    | cons w ws =>
      rw [sameItems, and_eq_true, h v mem_cons_self,
        ih fun v hv => h v (mem_cons_of_mem _ hv), List.cons.injEq]

theorem sameEntries_iff {entries : List (String × JsValue)}
    (h : ∀ entry ∈ entries, ∀ w, same entry.2 w = true ↔ entry.2 = w)
    (entries' : List (String × JsValue)) :
    sameEntries entries entries' = true ↔ entries = entries' := by
  induction entries generalizing entries' with
  | nil => cases entries' <;> simp [sameEntries]
  | cons entry entries ih =>
    obtain ⟨key, v⟩ := entry
    cases entries' with
    | nil => simp [sameEntries]
    | cons entry' entries' =>
      rw [sameEntries, and_eq_true, and_eq_true, decide_eq_true_eq,
        h (key, v) mem_cons_self, ih fun entry hentry => h entry (mem_cons_of_mem _ hentry),
        List.cons.injEq, Prod.mk.injEq]

theorem same_iff (v w : JsValue) : same v w = true ↔ v = w := by
  induction v using partsInduction generalizing w with
  | scalar v hscalar => cases v <;> cases w <;> simp_all [same, IsScalar]
  | array items ih =>
    cases w with
    | arr items' => rw [same, sameItems_iff ih, arr.injEq]
    | _ => simp [same]
  | object entries ih =>
    cases w with
    | obj entries' => rw [same, sameEntries_iff ih, obj.injEq]
    | _ => simp [same]

instance : DecidableEq JsValue := fun v w => decidable_of_iff _ (same_iff v w)

/-! ## The size of a value -/

def height : JsValue → ℕ :=
  fold (fun _ => 0) (fun items => 1 + items.foldr max 0)
    fun entries => 1 + (entries.map Prod.snd).foldr max 0

/-- How many items and entries the arrays and objects of a value have together. -/
def size : JsValue → ℕ :=
  fold (fun _ => 0) (fun items => items.length + items.sum)
    fun entries => entries.length + (entries.map Prod.snd).sum

theorem height_scalar {v : JsValue} (h : v.IsScalar) : v.height = 0 := fold_scalar h

theorem size_scalar {v : JsValue} (h : v.IsScalar) : v.size = 0 := fold_scalar h

theorem height_arr (items : List JsValue) :
    (arr items).height = 1 + (items.map height).foldr max 0 := by
  unfold height
  rw [fold_arr]

theorem height_obj (entries : List (String × JsValue)) :
    (obj entries).height = 1 + (entries.map fun entry => entry.2.height).foldr max 0 := by
  unfold height
  rw [fold_obj, map_map]
  rfl

theorem size_arr (items : List JsValue) :
    (arr items).size = items.length + (items.map size).sum := by
  unfold size
  rw [fold_arr, length_map]

theorem size_obj (entries : List (String × JsValue)) :
    (obj entries).size = entries.length + (entries.map fun entry => entry.2.size).sum := by
  unfold size
  rw [fold_obj, length_map, map_map]
  rfl

/-! ## JSON text -/

def stringify (numberText : ℚ → List Char) : JsValue → List Char :=
  fold
    (fun
      | .bool true => "true".toList
      | .bool false => "false".toList
      | .num n => numberText n
      | .str s => jsonString s
      | _ => "null".toList)
    (fun items => '[' :: [','].intercalate items ++ [']'])
    fun entries =>
      '\x7b' :: [','].intercalate (entries.map fun entry => jsonString entry.1 ++ ':' :: entry.2) ++
        ['\x7d']

def byteLength (text : List Char) : ℕ :=
  (text.map Char.utf8Size).sum

@[simp] theorem byteLength_append (text text' : List Char) :
    byteLength (text ++ text') = byteLength text + byteLength text' := by
  simp [byteLength]

theorem byteLength_cons (c : Char) (text : List Char) :
    byteLength (c :: text) = c.utf8Size + byteLength text := by
  simp [byteLength]

theorem byteLength_intercalate (texts : List (List Char)) :
    byteLength ([','].intercalate texts) = (texts.map byteLength).sum + (texts.length - 1) := by
  induction texts with
  | nil => rfl
  | cons text texts ih =>
    cases texts with
    | nil => simp [intercalate]
    | cons text' rest =>
      have hstep : [','].intercalate (text :: text' :: rest) =
          text ++ ',' :: [','].intercalate (text' :: rest) := by
        simp [intercalate, intersperse]
      have hcomma : ','.utf8Size = 1 := rfl
      rw [hstep, byteLength_append, byteLength_cons, ih, hcomma]
      simp only [map_cons, sum_cons, length_cons]
      omega

theorem stringify_arr (numberText : ℚ → List Char) (items : List JsValue) :
    (arr items).stringify numberText =
      '[' :: [','].intercalate (items.map (stringify numberText)) ++ [']'] := by
  unfold stringify
  rw [fold_arr]

theorem stringify_obj (numberText : ℚ → List Char) (entries : List (String × JsValue)) :
    (obj entries).stringify numberText = '\x7b' :: [','].intercalate (entries.map fun entry =>
        jsonString entry.1 ++ ':' :: entry.2.stringify numberText) ++ ['\x7d'] := by
  unfold stringify
  rw [fold_obj, map_map]
  rfl

theorem byteLength_arr (numberText : ℚ → List Char) (items : List JsValue) :
    byteLength ((arr items).stringify numberText) =
      2 + (items.map fun item => byteLength (item.stringify numberText)).sum +
        (items.length - 1) := by
  have hopen : '['.utf8Size = 1 := rfl
  have hclose : byteLength [']'] = 1 := rfl
  rw [stringify_arr, byteLength_append, byteLength_cons, byteLength_intercalate, hopen, hclose,
    map_map, length_map]
  unfold Function.comp
  omega

theorem byteLength_obj (numberText : ℚ → List Char) (entries : List (String × JsValue)) :
    byteLength ((obj entries).stringify numberText) = 2 + (entries.map fun entry =>
        byteLength (jsonString entry.1) + 1 + byteLength (entry.2.stringify numberText)).sum +
          (entries.length - 1) := by
  have hopen : '\x7b'.utf8Size = 1 := rfl
  have hclose : byteLength ['\x7d'] = 1 := rfl
  have hcolon : ':'.utf8Size = 1 := rfl
  have hentry : ∀ entry : String × JsValue,
      byteLength (jsonString entry.1 ++ ':' :: entry.2.stringify numberText) =
        byteLength (jsonString entry.1) + 1 + byteLength (entry.2.stringify numberText) := by
    intro entry
    rw [byteLength_append, byteLength_cons, hcolon]
    omega
  rw [stringify_obj, byteLength_append, byteLength_cons, byteLength_intercalate, hopen, hclose,
    map_map, length_map]
  unfold Function.comp
  simp only [hentry]
  omega

/-! ## The length of a string's text -/

theorem hexDigit_utf8Size (n : ℕ) : (hexDigit n).utf8Size = 1 := by
  have hdigits : ['0', '1', '2', '3', '4', '5', '6', '7', '8', '9', 'a', 'b', 'c', 'd', 'e',
      'f'].all (fun c => c.utf8Size = 1) = true := by
    decide
  unfold hexDigit
  cases hfound : ['0', '1', '2', '3', '4', '5', '6', '7', '8', '9', 'a', 'b', 'c', 'd', 'e',
      'f'][n % 16]? with
  | none => rfl
  | some c =>
    exact of_decide_eq_true (all_eq_true.mp hdigits c (mem_of_getElem? hfound))

theorem byteLength_jsonChar (c : Char) :
    byteLength (jsonChar c) ≤ c.utf8Size + if jsonEscaped c then 5 else 0 := by
  have hpos := c.utf8Size_pos
  unfold jsonChar
  split
  case h_8 =>
    split
    · next hcontrol =>
      have hescaped : jsonEscaped c = true := by
        unfold jsonEscaped
        simp [hcontrol]
      simp only [byteLength_cons, hescaped, if_true, hexDigit_utf8Size]
      have hnil : byteLength [] = 0 := rfl
      have hmark : backslash.utf8Size + ('u'.utf8Size + ('0'.utf8Size + '0'.utf8Size)) = 4 := rfl
      omega
    · rw [byteLength_cons]
      have hnil : byteLength [] = 0 := rfl
      omega
  all_goals
    next hcode =>
      have hescaped : jsonEscaped c = true := by
        unfold jsonEscaped
        rw [hcode]
        rfl
      rw [hescaped, if_pos rfl]
      exact Nat.le_trans (by decide) (Nat.add_le_add_right hpos 5)

/-- A character takes three bytes for each of its code units at most, and one if it is
escaped. -/
theorem utf8Size_le_units (c : Char) : (c.utf8Size + if jsonEscaped c then 2 else 0) ≤
    3 * if 0x10000 ≤ c.toNat then 2 else 1 := by
  have hfour := c.utf8Size_le_four
  cases hescaped : jsonEscaped c with
  | true =>
    have hone : c.utf8Size = 1 := by
      rw [Char.utf8Size_eq_one_iff, UInt32.le_iff_toNat_le]
      unfold jsonEscaped at hescaped
      simp only [or_eq_true, decide_eq_true_eq] at hescaped
      have : c.val.toNat = c.toNat := rfl
      have : (127 : UInt32).toNat = 127 := rfl
      omega
    rw [if_pos rfl]
    split <;> omega
  | false =>
    by_cases hunits : 0x10000 ≤ c.toNat
    · rw [if_pos hunits]
      simp only [false_eq_true, if_false]
      omega
    · have hnot : c.utf8Size ≠ 4 := by
        rw [Ne, Char.utf8Size_eq_four_iff, UInt32.lt_iff_toNat_lt]
        have : c.val.toNat = c.toNat := rfl
        have : (0xffff : UInt32).toNat = 0xffff := rfl
        omega
      rw [if_neg hunits]
      simp only [false_eq_true, if_false]
      omega

def escapedCount (text : List Char) : ℕ :=
  (text.filter jsonEscaped).length

theorem byteLength_jsonString (s : String) :
    byteLength (jsonString s) ≤ 2 + byteLength s.toList + 5 * escapedCount s.toList := by
  have hchars : ∀ text : List Char, byteLength (text.flatMap jsonChar) ≤
      byteLength text + 5 * escapedCount text := by
    intro text
    induction text with
    | nil => exact Nat.le_refl 0
    | cons c text ih =>
      have hc := byteLength_jsonChar c
      rw [flatMap_cons, byteLength_append, byteLength_cons]
      unfold escapedCount at ih ⊢
      cases hescaped : jsonEscaped c <;> simp only [filter_cons, hescaped] at hc ⊢ <;>
        simp at hc ⊢ <;> omega
  have hmark : quotationMark.utf8Size = 1 := rfl
  have hend : byteLength [quotationMark] = 1 := rfl
  have h := hchars s.toList
  unfold jsonString
  rw [byteLength_append, byteLength_cons]
  omega

theorem byteLength_le_units (s : String) :
    byteLength s.toList + 2 * escapedCount s.toList ≤ 3 * jsLength s := by
  unfold jsLength
  generalize s.toList = text
  induction text with
  | nil => exact Nat.le_refl 0
  | cons c text ih =>
    have hc := utf8Size_le_units c
    rw [byteLength_cons, map_cons, sum_cons]
    generalize (if 0x10000 ≤ c.toNat then 2 else 1) = units at hc ⊢
    unfold escapedCount at ih ⊢
    cases hescaped : jsonEscaped c <;> simp only [filter_cons, hescaped] at hc ⊢ <;>
      simp at hc ⊢ <;> omega

end JsValue

/-! ## The order of properties -/

section Order

variable {α : Type u}

/-- The number that a key spells if its characters are decimal digits. -/
def arrayIndex (key : String) : ℕ :=
  key.toList.foldl (fun n c => 10 * n + (c.toNat - '0'.toNat)) 0

/-- A key that is an array index: the decimal digits of a number below `2 ^ 32 - 1`. -/
def isArrayIndex (key : String) : Bool :=
  key.toList = Nat.toDigits 10 (arrayIndex key) && arrayIndex key < 2 ^ 32 - 1

theorem eq_of_arrayIndex {key key' : String} (h : isArrayIndex key = true)
    (h' : isArrayIndex key' = true) (heq : arrayIndex key = arrayIndex key') : key = key' := by
  unfold isArrayIndex at h h'
  simp only [and_eq_true, decide_eq_true_eq] at h h'
  apply String.toList_injective
  rw [h.1, h'.1, heq]

/-- The order in which an object lists properties that were added in an order: array
indices come first and ascend. -/
def ownOrder (entries : List (String × α)) : List (String × α) :=
  (entries.filter fun entry => isArrayIndex entry.1).insertionSort
      (fun entry entry' => arrayIndex entry.1 ≤ arrayIndex entry'.1) ++
    entries.filter fun entry => !isArrayIndex entry.1

/-- `entries.sort(([left], [right]) => …)`, which is stable. -/
def sortByKey (le : String → String → Bool) (entries : List (String × α)) :
    List (String × α) :=
  entries.insertionSort fun entry entry' => le entry.1 entry'.1 = true

theorem ownOrder_perm (entries : List (String × α)) : (ownOrder entries).Perm entries := by
  have hsplit := filter_append_perm (fun entry => isArrayIndex entry.1) entries
  exact List.Perm.trans ((perm_insertionSort _ _).append_right _) hsplit

theorem sortByKey_perm (le : String → String → Bool) (entries : List (String × α)) :
    (sortByKey le entries).Perm entries :=
  perm_insertionSort _ _

theorem sortByKey_map {β : Type v} (le : String → String → Bool) (f : α → β)
    (entries : List (String × α)) : sortByKey le (entries.map fun entry => (entry.1, f entry.2)) =
      (sortByKey le entries).map fun entry => (entry.1, f entry.2) := by
  symm
  apply map_insertionSort
  intros
  rfl

theorem ownOrder_map {β : Type v} (f : α → β) (entries : List (String × α)) :
    ownOrder (entries.map fun entry => (entry.1, f entry.2)) =
      (ownOrder entries).map fun entry => (entry.1, f entry.2) := by
  unfold ownOrder
  rw [map_append, filter_map, filter_map]
  congr 1
  symm
  apply map_insertionSort
  intros
  rfl

section Reorder

variable {le : String → String → Bool}

theorem sortByKey_sortByKey (htotal : ∀ s t, le s t = true ∨ le t s = true)
    (htrans : ∀ s t u, le s t = true → le t u = true → le s u = true)
    (entries : List (String × α)) : sortByKey le (sortByKey le entries) = sortByKey le entries := by
  have : Std.Total fun entry entry' : String × α => le entry.1 entry'.1 = true :=
    ⟨fun entry entry' => htotal entry.1 entry'.1⟩
  have : IsTrans (String × α) fun entry entry' => le entry.1 entry'.1 = true :=
    ⟨fun _ _ _ => htrans _ _ _⟩
  exact List.Pairwise.insertionSort_eq (pairwise_insertionSort _ _)

theorem filter_orderedInsert {p : String × α → Bool} {entry : String × α} (h : p entry = false)
    (entries : List (String × α)) :
    (entries.orderedInsert (fun entry entry' => le entry.1 entry'.1 = true) entry).filter p =
      entries.filter p := by
  induction entries with
  | nil => simp [h]
  | cons entry' entries ih =>
    rw [orderedInsert_cons]
    split
    · rw [filter_cons, if_neg (by simp [h])]
    · rw [filter_cons, filter_cons, ih]

theorem filter_sortByKey_append {p : String × α → Bool} {entries rest : List (String × α)}
    (hentries : ∀ entry ∈ entries, p entry = false) (hrest : ∀ entry ∈ rest, p entry = true) :
    (sortByKey le (entries ++ rest)).filter p = sortByKey le rest := by
  induction entries with
  | nil =>
    rw [nil_append, filter_eq_self]
    intro entry hentry
    exact hrest entry ((sortByKey_perm le rest).mem_iff.mp hentry)
  | cons entry entries ih =>
    have hstep : sortByKey le (entry :: entries ++ rest) =
        (sortByKey le (entries ++ rest)).orderedInsert _ entry := rfl
    rw [hstep, filter_orderedInsert (hentries entry mem_cons_self)]
    exact ih fun entry' hentry' => hentries entry' (mem_cons_of_mem _ hentry')

theorem indices_of_perm {entries entries' : List (String × α)} (h : entries.Perm entries')
    (hnodup : (entries.map Prod.fst).Nodup)
    (hindex : ∀ entry ∈ entries, isArrayIndex entry.1 = true) :
    entries.insertionSort (fun entry entry' => arrayIndex entry.1 ≤ arrayIndex entry'.1) =
      entries'.insertionSort fun entry entry' => arrayIndex entry.1 ≤ arrayIndex entry'.1 := by
  have hsorted : ∀ es : List (String × α), (es.insertionSort fun entry entry' =>
      arrayIndex entry.1 ≤ arrayIndex entry'.1).Pairwise fun entry entry' =>
        arrayIndex entry.1 ≤ arrayIndex entry'.1 :=
    fun es => pairwise_insertionSort _ es
  refine List.Perm.eq_of_pairwise ?_ (hsorted entries) (hsorted entries') ?_
  · intro entry entry' hentry hentry' hle hle'
    rw [mem_insertionSort] at hentry hentry'
    have hkey := eq_of_arrayIndex (hindex entry hentry) (hindex entry' (h.mem_iff.mpr hentry'))
      (Nat.le_antisymm hle hle')
    exact inj_on_of_nodup_map hnodup hentry (h.mem_iff.mpr hentry') hkey
  · exact ((perm_insertionSort _ _).trans h).trans (perm_insertionSort _ _).symm

/-- **Sorted once and read back, an object keeps its order when it is sorted again.** -/
theorem sortByKey_ownOrder (htotal : ∀ s t, le s t = true ∨ le t s = true)
    (htrans : ∀ s t u, le s t = true → le t u = true → le s u = true)
    {entries : List (String × α)} (hnodup : (entries.map Prod.fst).Nodup) :
    sortByKey le (ownOrder (sortByKey le (ownOrder entries))) =
      sortByKey le (ownOrder entries) := by
  -- `indices` is the part of the array indices, `others` the rest
  let indices := (entries.filter fun entry => isArrayIndex entry.1).insertionSort
    fun entry entry' => arrayIndex entry.1 ≤ arrayIndex entry'.1
  let others := entries.filter fun entry => !isArrayIndex entry.1
  have hindices : ∀ entry ∈ indices, isArrayIndex entry.1 = true := by
    intro entry hentry
    exact (mem_filter.mp ((mem_insertionSort _).mp hentry)).2
  have hothers : ∀ entry ∈ others, (!isArrayIndex entry.1) = true :=
    fun entry hentry => (mem_filter.mp hentry).2
  have hown : ownOrder entries = indices ++ others := rfl
  -- read back, the array indices are the same and the others are sorted
  have hback : ownOrder (sortByKey le (indices ++ others)) = indices ++ sortByKey le others := by
    unfold ownOrder
    congr 1
    · have hperm : ((sortByKey le (indices ++ others)).filter fun entry =>
        isArrayIndex entry.1).Perm
          (entries.filter fun entry => isArrayIndex entry.1) := by
        apply List.Perm.filter
        exact (sortByKey_perm le _).trans (ownOrder_perm entries)
      symm
      apply indices_of_perm hperm.symm
      · exact hnodup.sublist (filter_sublist.map Prod.fst)
      · exact fun entry hentry => (mem_filter.mp hentry).2
    · apply filter_sortByKey_append _ hothers
      intro entry hentry
      rw [hindices entry hentry]
      rfl
  rw [hown, hback]
  have happend : ∀ rest, sortByKey le (indices ++ rest) =
      indices.foldr (orderedInsert _) (sortByKey le rest) :=
    fun rest => foldr_append
  rw [happend, happend, sortByKey_sortByKey htotal htrans]

end Reorder

end Order

end Laborer.Library
