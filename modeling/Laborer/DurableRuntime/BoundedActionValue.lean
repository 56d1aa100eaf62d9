import Laborer.Library.JsValue
import Mathlib.Data.List.Perm.Basic

/-!
# Canonical Action values

What an Action returns or reports is bounded and given one JSON text before it is
stored: strings in NFC, the members of an object sorted by their names, at most
`ACTION_CANONICAL_MAX_DEPTH` containers in each other, `ACTION_CANONICAL_MAX_ITEMS`
items in all of them together and `ACTION_CANONICAL_MAX_BYTES` bytes of text.
-/

namespace Laborer.DurableRuntime

open Library List

def actionCanonicalMaxDepth : ℕ := 8

def actionCanonicalMaxItems : ℕ := 256

def actionCanonicalMaxBytes : ℕ := 64 * 1024

/-! ## The platform -/

/-- What the program takes from its platform: `normalize('NFC')`, `localeCompare`, the text of
a number, `createHash('sha256')` with its `base64url` digest, and the identity that the workflow
engine gives to an execution with an idempotency key. -/
structure Platform where
  normalize : String → String
  localeCompare : String → String → Ordering
  numberText : ℚ → List Char
  sha256 : List Char → String
  workflowExecutionId : String → String → String

/-- `left` does not sort after `right`. -/
def Platform.le (platform : Platform) (left right : String) : Bool :=
  (platform.localeCompare left right).isLE

/-! ## JSON text -/

/-- A JSON text, as the value that it spells. The members of an object stand in the
order of the text, so that two texts are the same when they spell the same. -/
structure JsonText where
  value : JsValue
  deriving DecidableEq

def JsonText.chars (platform : Platform) (text : JsonText) : List Char :=
  text.value.stringify platform.numberText

def JsonText.parse (text : JsonText) : JsValue :=
  text.value.fold id .arr fun entries => .obj (ownOrder entries)

/-- The text of a value, with the members of its objects sorted by their names. -/
def canonicalCatalogJson (platform : Platform) (value : JsValue) : JsonText where
  value := value.fold id .arr fun entries => .obj (sortByKey platform.le entries)

/-! ## Canonical values -/

section Normalize

variable (platform : Platform)

def normalizeItems (normalizeItem : JsValue → ℕ → Option (JsValue × ℕ)) :
    List JsValue → ℕ → Option (List JsValue × ℕ)
  | [], remainingItems => some ([], remainingItems)
  | item :: items, remainingItems => do
    let (candidate, remainingItems) ← normalizeItem item remainingItems
    let (normalized, remainingItems) ← normalizeItems normalizeItem items remainingItems
    return (candidate :: normalized, remainingItems)

/-- Normalize the members of an object, whose names stay distinct. -/
def normalizeEntries (normalizeItem : JsValue → ℕ → Option (JsValue × ℕ)) :
    List String → List (String × JsValue) → ℕ → Option (List (String × JsValue) × ℕ)
  | _, [], remainingItems => some ([], remainingItems)
  | normalizedKeys, (key, item) :: entries, remainingItems =>
    if platform.normalize key ∈ normalizedKeys then none
    else do
      let (candidate, remainingItems) ← normalizeItem item remainingItems
      let (normalized, remainingItems) ← normalizeEntries normalizeItem
        (platform.normalize key :: normalizedKeys) entries remainingItems
      return ((platform.normalize key, candidate) :: normalized, remainingItems)

/-- `none` is an invalid value. The first number is how many more containers may be
entered, `ACTION_CANONICAL_MAX_DEPTH - depth`; the second is the budget. -/
def normalizeCanonicalValue : ℕ → JsValue → ℕ → Option (JsValue × ℕ)
  | _, .null, remainingItems => some (.null, remainingItems)
  | _, .bool b, remainingItems => some (.bool b, remainingItems)
  | _, .str s, remainingItems => some (.str (platform.normalize s), remainingItems)
  | _, .num n, remainingItems => some (.num n, remainingItems)
  | _, .nonFinite, _ => none
  | 0, _, _ => none
  | levels + 1, .arr items, remainingItems =>
    if actionCanonicalMaxItems < items.length ∨ remainingItems < items.length then none
    else do
      let (normalized, remainingItems) ← normalizeItems (normalizeCanonicalValue levels) items
        (remainingItems - items.length)
      return (.arr normalized, remainingItems)
  | _ + 1, .other, _ => none
  | levels + 1, .obj entries, remainingItems =>
    if actionCanonicalMaxItems < entries.length ∨ remainingItems < entries.length then none
    else do
      let (normalized, remainingItems) ← normalizeEntries platform (normalizeCanonicalValue levels)
        [] (sortByKey platform.le entries) (remainingItems - entries.length)
      return (.obj (ownOrder normalized), remainingItems)

/-- The canonical text of a value, or none if the value is invalid or too large. -/
def canonicalBoundedActionValue (value : JsValue) : Option JsonText :=
  match normalizeCanonicalValue platform actionCanonicalMaxDepth value actionCanonicalMaxItems with
  | none => none
  | some (normalized, _) =>
    let json := canonicalCatalogJson platform normalized
    if actionCanonicalMaxBytes < JsValue.byteLength (json.chars platform) then none else some json

end Normalize

/-! ## Which values are valid -/

/-- A value made of data that has a canonical text, were there no bounds. -/
inductive IsCanonicalizable (platform : Platform) : JsValue → Prop
  | null : IsCanonicalizable platform .null
  | bool (b : Bool) : IsCanonicalizable platform (.bool b)
  | num (n : ℚ) : IsCanonicalizable platform (.num n)
  | str (s : String) : IsCanonicalizable platform (.str s)
  | arr {items : List JsValue} (hitems : ∀ item ∈ items, IsCanonicalizable platform item) :
      IsCanonicalizable platform (.arr items)
  | obj {entries : List (String × JsValue)}
      (hkeys : (entries.map fun entry => platform.normalize entry.1).Nodup)
      (hentries : ∀ entry ∈ entries, IsCanonicalizable platform entry.2) :
      IsCanonicalizable platform (.obj entries)

theorem IsCanonicalizable.items {platform : Platform} {items : List JsValue}
    (h : IsCanonicalizable platform (.arr items)) :
    ∀ item ∈ items, IsCanonicalizable platform item := by
  cases h
  assumption

theorem IsCanonicalizable.members {platform : Platform} {entries : List (String × JsValue)}
    (h : IsCanonicalizable platform (.obj entries)) :
    (entries.map fun entry => platform.normalize entry.1).Nodup ∧
      ∀ entry ∈ entries, IsCanonicalizable platform entry.2 := by
  cases h
  exact ⟨by assumption, by assumption⟩

/-- A value with its strings and names in NFC, its members in the order of a new object. -/
def normalized (platform : Platform) : JsValue → JsValue :=
  JsValue.fold
    (fun
      | .str s => .str (platform.normalize s)
      | v => v)
    .arr
    fun entries => .obj (ownOrder ((sortByKey platform.le entries).map fun entry =>
      (platform.normalize entry.1, entry.2)))

section Spec

variable {platform : Platform}

theorem foldr_max_le {ns : List ℕ} {n : ℕ} : ns.foldr max 0 ≤ n ↔ ∀ m ∈ ns, m ≤ n := by
  induction ns with
  | nil => simp
  | cons m ns ih => simp [ih]

theorem normalizeItems_eq_some {normalizeItem : JsValue → ℕ → Option (JsValue × ℕ)}
    (ok : JsValue → Prop) {items normalizedItems : List JsValue} {remaining remaining' : ℕ}
    (hbound : remaining ≤ actionCanonicalMaxItems)
    (hitem : ∀ item ∈ items, ∀ budget ≤ actionCanonicalMaxItems, ∀ v budget',
      normalizeItem item budget = some (v, budget') ↔
        ok item ∧ item.size ≤ budget ∧ v = normalized platform item ∧
          budget' = budget - item.size) :
    normalizeItems normalizeItem items remaining = some (normalizedItems, remaining') ↔
      (∀ item ∈ items, ok item) ∧ (items.map JsValue.size).sum ≤ remaining ∧
        normalizedItems = items.map (normalized platform) ∧
          remaining' = remaining - (items.map JsValue.size).sum := by
  induction items generalizing remaining normalizedItems with
  | nil =>
    simp only [normalizeItems, Option.some.injEq, Prod.mk.injEq]
    simp
    tauto
  | cons item items ih =>
    have hhead := hitem item mem_cons_self remaining hbound
    have htail : ∀ budget ≤ actionCanonicalMaxItems, ∀ vs,
        normalizeItems normalizeItem items budget = some (vs, remaining') ↔ _ :=
      fun budget h vs => ih h fun item hmem => hitem item (mem_cons_of_mem _ hmem)
    simp only [normalizeItems, Option.bind_eq_bind, Option.bind_eq_some_iff, Option.pure_def,
      Option.some.injEq, Prod.exists, Prod.mk.injEq, List.map_cons, List.sum_cons,
      List.forall_mem_cons]
    constructor
    · rintro ⟨v, budget, hv, vs, budget', hvs, rfl, rfl⟩
      obtain ⟨hok, hsize, rfl, rfl⟩ := (hhead _ _).mp hv
      obtain ⟨hoks, hsizes, rfl, rfl⟩ := (htail _ (by omega) _).mp hvs
      exact ⟨⟨hok, hoks⟩, by omega, rfl, by omega⟩
    · rintro ⟨⟨hok, hoks⟩, hsize, rfl, rfl⟩
      exact ⟨_, _, (hhead _ _).mpr ⟨hok, by omega, rfl, rfl⟩, _, _,
        (htail _ (by omega) _).mpr ⟨hoks, by omega, rfl, by omega⟩, rfl, rfl⟩

theorem normalizeEntries_eq_some {normalizeItem : JsValue → ℕ → Option (JsValue × ℕ)}
    (ok : JsValue → Prop) {normalizedKeys : List String}
    {entries normalizedEntries : List (String × JsValue)} {remaining remaining' : ℕ}
    (hbound : remaining ≤ actionCanonicalMaxItems)
    (hitem : ∀ entry ∈ entries, ∀ budget ≤ actionCanonicalMaxItems, ∀ v budget',
      normalizeItem entry.2 budget = some (v, budget') ↔
        ok entry.2 ∧ entry.2.size ≤ budget ∧ v = normalized platform entry.2 ∧
          budget' = budget - entry.2.size) :
    normalizeEntries platform normalizeItem normalizedKeys entries remaining =
        some (normalizedEntries, remaining') ↔ ((∀ entry ∈ entries, ok entry.2) ∧
          (entries.map fun entry => platform.normalize entry.1).Nodup ∧
            ∀ entry ∈ entries, platform.normalize entry.1 ∉ normalizedKeys) ∧
        (entries.map fun entry => entry.2.size).sum ≤ remaining ∧
          normalizedEntries = entries.map (fun entry =>
              (platform.normalize entry.1, normalized platform entry.2)) ∧
            remaining' = remaining - (entries.map fun entry => entry.2.size).sum := by
  induction entries generalizing remaining normalizedEntries normalizedKeys with
  | nil =>
    simp only [normalizeEntries, Option.some.injEq, Prod.mk.injEq]
    simp
    tauto
  | cons entry entries ih =>
    obtain ⟨key, item⟩ := entry
    have hhead := hitem (key, item) mem_cons_self remaining hbound
    dsimp only at hhead
    have htail : ∀ budget ≤ actionCanonicalMaxItems, ∀ vs,
        normalizeEntries platform normalizeItem (platform.normalize key :: normalizedKeys) entries
          budget = some (vs, remaining') ↔ _ :=
      fun budget h vs => ih h fun entry hmem => hitem entry (mem_cons_of_mem _ hmem)
    rw [normalizeEntries]
    split
    · next hseen =>
      constructor
      · intro h
        cases h
      · rintro ⟨⟨-, -, hnew⟩, -⟩
        exact absurd hseen (hnew _ mem_cons_self)
    · next hnew =>
      simp only [Option.bind_eq_bind, Option.bind_eq_some_iff, Option.pure_def,
        Option.some.injEq, Prod.exists, Prod.mk.injEq, List.map_cons, List.sum_cons,
        List.forall_mem_cons, List.nodup_cons]
      constructor
      · rintro ⟨v, budget, hv, vs, budget', hvs, rfl, rfl⟩
        obtain ⟨hok, hsize, rfl, rfl⟩ := (hhead _ _).mp hv
        obtain ⟨⟨hoks, hnodup, hdisjoint⟩, hsizes, rfl, rfl⟩ := (htail _ (by omega) _).mp hvs
        refine ⟨⟨⟨hok, hoks⟩, ⟨?_, hnodup⟩, hnew, ?_⟩, by omega, rfl, by omega⟩
        · rw [List.mem_map]
          rintro ⟨entry, hentry, heq⟩
          exact hdisjoint entry hentry (heq ▸ mem_cons_self)
        · exact fun entry hentry hmem => hdisjoint entry hentry (List.mem_cons_of_mem _ hmem)
      · rintro ⟨⟨⟨hok, hoks⟩, ⟨hfresh, hnodup⟩, -, hdisjoint⟩, hsize, rfl, rfl⟩
        refine ⟨_, _, (hhead _ _).mpr ⟨hok, by omega, rfl, rfl⟩, _, _,
          (htail _ (by omega) _).mpr ⟨⟨hoks, hnodup, ?_⟩, by omega, rfl, by omega⟩, rfl, rfl⟩
        intro entry hentry hmem
        rcases mem_cons.mp hmem with heq | hmem
        · exact hfresh (mem_map.mpr ⟨entry, hentry, heq⟩)
        · exact hdisjoint entry hentry hmem

theorem normalized_obj (entries : List (String × JsValue)) : normalized platform (.obj entries) =
      .obj (ownOrder ((sortByKey platform.le entries).map fun entry =>
        (platform.normalize entry.1, normalized platform entry.2))) := by
  unfold normalized
  rw [JsValue.fold_obj, sortByKey_map, List.map_map]
  rfl

theorem normalized_arr (items : List JsValue) :
    normalized platform (.arr items) = .arr (items.map (normalized platform)) := by
  unfold normalized
  rw [JsValue.fold_arr]

/-- **A value is accepted when it is data, is not nested too deep and fits the budget.** -/
theorem normalizeCanonicalValue_eq_some (value : JsValue) {levels remaining remaining' : ℕ}
    {v : JsValue} (hbound : remaining ≤ actionCanonicalMaxItems) :
    normalizeCanonicalValue platform levels value remaining = some (v, remaining') ↔
      (IsCanonicalizable platform value ∧ value.height ≤ levels) ∧ value.size ≤ remaining ∧
        v = normalized platform value ∧ remaining' = remaining - value.size := by
  induction value using JsValue.partsInduction generalizing levels remaining remaining' v with
  | scalar value hscalar =>
    rw [JsValue.height_scalar hscalar, JsValue.size_scalar hscalar]
    cases value with
    | arr => exact hscalar.elim
    | obj => exact hscalar.elim
    | nonFinite =>
      have hnone : normalizeCanonicalValue platform levels .nonFinite remaining = none := by
        cases levels <;> rfl
      rw [hnone]
      constructor
      · intro h
        cases h
      · rintro ⟨⟨h, -⟩, -⟩
        cases h
    | other =>
      have hnone : normalizeCanonicalValue platform levels .other remaining = none := by
        cases levels <;> rfl
      rw [hnone]
      constructor
      · intro h
        cases h
      · rintro ⟨⟨h, -⟩, -⟩
        cases h
    | null =>
      have hsome : normalizeCanonicalValue platform levels .null remaining =
          some (.null, remaining) := by
        cases levels <;> rfl
      rw [hsome, Option.some.injEq, Prod.mk.injEq]
      simp [IsCanonicalizable.null, normalized, JsValue.fold, eq_comm]
    | bool b =>
      have hsome : normalizeCanonicalValue platform levels (.bool b) remaining =
          some (.bool b, remaining) := by
        cases levels <;> rfl
      rw [hsome, Option.some.injEq, Prod.mk.injEq]
      simp [IsCanonicalizable.bool, normalized, JsValue.fold, eq_comm]
    | num n =>
      have hsome : normalizeCanonicalValue platform levels (.num n) remaining =
          some (.num n, remaining) := by
        cases levels <;> rfl
      rw [hsome, Option.some.injEq, Prod.mk.injEq]
      simp [IsCanonicalizable.num, normalized, JsValue.fold, eq_comm]
    | str s =>
      have hsome : normalizeCanonicalValue platform levels (.str s) remaining =
          some (.str (platform.normalize s), remaining) := by
        cases levels <;> rfl
      rw [hsome, Option.some.injEq, Prod.mk.injEq]
      simp [IsCanonicalizable.str, normalized, JsValue.fold, eq_comm]
  | array items ih =>
    rw [JsValue.height_arr, JsValue.size_arr, normalized_arr]
    cases levels with
    | zero =>
      constructor
      · intro h
        cases h
      · omega
    | succ levels =>
      have hcanonical : IsCanonicalizable platform (.arr items) ↔
          ∀ item ∈ items, IsCanonicalizable platform item := ⟨.items, .arr⟩
      have hheight : 1 + (items.map JsValue.height).foldr max 0 ≤ levels + 1 ↔
          ∀ item ∈ items, item.height ≤ levels := by
        rw [Nat.add_comm, Nat.add_le_add_iff_right, foldr_max_le, List.forall_mem_map]
      have hitems : ∀ vs budget', normalizeItems (normalizeCanonicalValue platform levels) items
          (remaining - items.length) = some (vs, budget') ↔ _ := fun vs budget' =>
        normalizeItems_eq_some (fun v => IsCanonicalizable platform v ∧ v.height ≤ levels)
          (Nat.le_trans (Nat.sub_le remaining items.length) hbound)
          fun item hitem budget hbudget v budget' => ih item hitem hbudget
      rw [hcanonical, hheight, normalizeCanonicalValue]
      split
      · next hlength =>
        constructor
        · intro h
          cases h
        · omega
      · next hlength =>
        simp only [Option.bind_eq_bind, Option.bind_eq_some_iff, Option.pure_def,
          Option.some.injEq, Prod.exists, Prod.mk.injEq]
        constructor
        · rintro ⟨vs, budget', hvs, rfl, rfl⟩
          obtain ⟨hok, hsize, rfl, rfl⟩ := (hitems _ _).mp hvs
          exact ⟨forall₂_and.mp hok, by omega, rfl, by omega⟩
        · rintro ⟨hok, hsize, rfl, rfl⟩
          exact ⟨_, _, (hitems _ _).mpr ⟨forall₂_and.mpr hok, by omega, rfl, by omega⟩, rfl, rfl⟩
  | object entries ih =>
    rw [JsValue.height_obj, JsValue.size_obj, normalized_obj]
    cases levels with
    | zero =>
      constructor
      · intro h
        cases h
      · omega
    | succ levels =>
      have hperm := sortByKey_perm platform.le entries
      have hcanonical : IsCanonicalizable platform (.obj entries) ↔
          (entries.map fun entry => platform.normalize entry.1).Nodup ∧
            ∀ entry ∈ entries, IsCanonicalizable platform entry.2 :=
        ⟨IsCanonicalizable.members, fun h => .obj h.1 h.2⟩
      have hheight : 1 + (entries.map fun entry => entry.2.height).foldr max 0 ≤ levels + 1 ↔
          ∀ entry ∈ entries, entry.2.height ≤ levels := by
        rw [Nat.add_comm, Nat.add_le_add_iff_right, foldr_max_le, List.forall_mem_map]
      -- the members are taken in the order of their names, which changes no sum
      have hsum : ((sortByKey platform.le entries).map fun entry => entry.2.size).sum =
          (entries.map fun entry => entry.2.size).sum := (hperm.map _).sum_nat
      have hkeys : ((sortByKey platform.le entries).map fun entry =>
          platform.normalize entry.1).Nodup ↔
            (entries.map fun entry => platform.normalize entry.1).Nodup := (hperm.map _).nodup_iff
      have hentries : ∀ vs budget', normalizeEntries platform
          (normalizeCanonicalValue platform levels) [] (sortByKey platform.le entries)
          (remaining - entries.length) = some (vs, budget') ↔ _ := fun vs budget' =>
        normalizeEntries_eq_some (fun v => IsCanonicalizable platform v ∧ v.height ≤ levels)
          (Nat.le_trans (Nat.sub_le remaining entries.length) hbound)
          fun entry hentry budget hbudget v budget' =>
            ih entry (hperm.mem_iff.mp hentry) hbudget
      simp only [hsum, hkeys, hperm.mem_iff, not_mem_nil, not_false_eq_true, implies_true,
        and_true] at hentries
      rw [hcanonical, hheight, normalizeCanonicalValue]
      split
      · next hlength =>
        constructor
        · intro h
          cases h
        · omega
      · next hlength =>
        simp only [Option.bind_eq_bind, Option.bind_eq_some_iff, Option.pure_def,
          Option.some.injEq, Prod.exists, Prod.mk.injEq]
        constructor
        · rintro ⟨vs, budget', hvs, rfl, rfl⟩
          obtain ⟨⟨hok, hnodup⟩, hsize, rfl, rfl⟩ := (hentries _ _).mp hvs
          obtain ⟨hok, hheights⟩ := forall₂_and.mp hok
          exact ⟨⟨⟨hnodup, hok⟩, hheights⟩, by omega, rfl, by omega⟩
        · rintro ⟨⟨⟨hnodup, hok⟩, hheights⟩, hsize, rfl, rfl⟩
          exact ⟨_, _, (hentries _ _).mpr ⟨⟨forall₂_and.mpr ⟨hok, hheights⟩, hnodup⟩, by omega,
            rfl, by omega⟩, rfl, rfl⟩

end Spec

end Laborer.DurableRuntime
