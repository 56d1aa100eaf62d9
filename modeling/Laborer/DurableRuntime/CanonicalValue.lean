import Laborer.DurableRuntime.BoundedActionValue
import Mathlib.Algebra.Order.BigOperators.Group.List

/-!
# Canonical text

The canonical text of a value: which values have one within the bounds, how long it is,
and that a value read back from it has the same text.
-/

namespace Laborer.DurableRuntime

open Library JsValue List

/-- The documented behaviour of the platform: NFC is idempotent, leaves ASCII text alone,
neither makes nor removes a character that JSON escapes or a text that is not blank, and at
most triples the length in UTF-8; names are compared by a total preorder; a natural number of
at most 21 digits is written in decimals; a digest has 43 characters of `base64url`, and the
identity of an execution at most 64 letters and digits. -/
structure Platform.Lawful (platform : Platform) : Prop where
  normalize_normalize : ∀ s, platform.normalize (platform.normalize s) = platform.normalize s
  normalize_ascii : ∀ s, (∀ c ∈ s.toList, c.toNat < 0x80) → platform.normalize s = s
  normalize_escaped : ∀ s,
    (platform.normalize s).toList.filter jsonEscaped = s.toList.filter jsonEscaped
  normalize_blank : ∀ s, (platform.normalize s).toList.all isJsWhitespace =
    s.toList.all isJsWhitespace
  normalize_length : ∀ s, byteLength (platform.normalize s).toList ≤ 3 * byteLength s.toList
  le_total : ∀ s t, platform.le s t = true ∨ platform.le t s = true
  le_trans : ∀ s t u, platform.le s t = true → platform.le t u = true → platform.le s u = true
  numberText_nat : ∀ n : ℕ, n < 10 ^ 21 → platform.numberText n = Nat.toDigits 10 n
  sha256_length : ∀ text, (platform.sha256 text).toList.length = 43
  sha256_alphabet : ∀ text, ∀ c ∈ (platform.sha256 text).toList,
    c.isAlphanum || c = '-' || c = '_'
  workflowExecutionId_length : ∀ name key,
    0 < (platform.workflowExecutionId name key).toList.length ∧
      (platform.workflowExecutionId name key).toList.length ≤ 64
  workflowExecutionId_alphabet : ∀ name key, ∀ c ∈ (platform.workflowExecutionId name key).toList,
    c.isAlphanum = true

/-! ## A platform -/

theorem getD_lookup {α β : Type} [BEq α] [LawfulBEq α] {p : β → Prop} {entries : List (α × β)}
    {default : β} (hdefault : p default) (h : ∀ entry ∈ entries, p entry.2) (key : α) :
    p ((entries.lookup key).getD default) := by
  cases hlookup : entries.lookup key with
  | none => exact hdefault
  | some value =>
    obtain ⟨before, after, rfl, -⟩ := lookup_eq_some_iff.mp hlookup
    exact h (key, value) (by simp)

/-- A platform for text in ASCII, which knows the digests of some texts and the identities
of some executions. -/
def Platform.ofDigests (digests : List (List Char × String))
    (executionIds : List ((String × String) × String)) : Platform where
  normalize := id
  localeCompare := compare
  numberText n := if n.den = 1 ∧ 0 ≤ n.num then Nat.toDigits 10 n.num.natAbs else []
  sha256 text := (digests.lookup text).getD "AAAAAAAAAAAAAAAAAAAAAAAAAAAAAAAAAAAAAAAAAAA"
  workflowExecutionId name key := (executionIds.lookup (name, key)).getD "0"

def isDigest (s : String) : Bool :=
  s.toList.length = 43 && s.toList.all fun c => c.isAlphanum || c = '-' || c = '_'

def isExecutionId (s : String) : Bool :=
  0 < s.toList.length && s.toList.length ≤ 64 && s.toList.all Char.isAlphanum

theorem Platform.ofDigests_lawful {digests : List (List Char × String)}
    {executionIds : List ((String × String) × String)}
    (hdigests : digests.all (fun entry => isDigest entry.2) = true)
    (hexecutionIds : executionIds.all (fun entry => isExecutionId entry.2) = true) :
    (Platform.ofDigests digests executionIds).Lawful := by
  have hdigest : ∀ text, isDigest ((Platform.ofDigests digests executionIds).sha256 text) = true :=
    fun text => getD_lookup (p := fun s => isDigest s = true) (by decide)
      (all_eq_true.mp hdigests) text
  have hexecutionId : ∀ name key,
      isExecutionId ((Platform.ofDigests digests executionIds).workflowExecutionId name key) =
        true :=
    fun name key => getD_lookup (p := fun s => isExecutionId s = true) (by decide)
      (all_eq_true.mp hexecutionIds) (name, key)
  simp only [isDigest, isExecutionId, Bool.and_eq_true, decide_eq_true_eq, all_eq_true]
    at hdigest hexecutionId
  constructor
  · exact fun s => rfl
  · exact fun s _ => rfl
  · exact fun s => rfl
  · exact fun s => rfl
  · exact fun s => by unfold Platform.ofDigests; dsimp only [id]; omega
  · intro s t
    have hswap : compare s t = (compare t s).swap := Std.OrientedCmp.eq_swap
    unfold Platform.le Platform.ofDigests
    dsimp only
    rw [hswap]
    cases compare t s <;> simp
  · intro s t u hst htu
    have htrans : (compare s t).isLE = true → (compare t u).isLE = true →
        (compare s u).isLE = true := Std.TransCmp.isLE_trans
    exact htrans hst htu
  · intro n _
    unfold Platform.ofDigests
    simp
  · exact fun text => (hdigest text).1
  · exact fun text => (hdigest text).2
  · exact fun name key => (hexecutionId name key).1
  · exact fun name key => (hexecutionId name key).2

variable {platform : Platform} {value v : JsValue}

/-! ## The canonical text -/

def canonicalText (platform : Platform) (value : JsValue) : JsonText :=
  canonicalCatalogJson platform (normalized platform value)

/-- **A value has a canonical text within the bounds when it is data, and neither too deep,
too large nor too long.** -/
theorem canonicalBoundedActionValue_eq_some {text : JsonText} :
    canonicalBoundedActionValue platform value = some text ↔
      (IsCanonicalizable platform value ∧ value.height ≤ actionCanonicalMaxDepth ∧
          value.size ≤ actionCanonicalMaxItems ∧
            byteLength ((canonicalText platform value).chars platform) ≤ actionCanonicalMaxBytes) ∧
        text = canonicalText platform value := by
  have hspec : ∀ v remaining, normalizeCanonicalValue platform actionCanonicalMaxDepth value
      actionCanonicalMaxItems = some (v, remaining) ↔ _ :=
    fun _ _ => normalizeCanonicalValue_eq_some value (Nat.le_refl actionCanonicalMaxItems)
  unfold canonicalBoundedActionValue
  split
  · next hnone =>
    constructor
    · intro h
      cases h
    · rintro ⟨⟨hok, hheight, hsize, -⟩, -⟩
      rw [(hspec _ _).mpr ⟨⟨hok, hheight⟩, hsize, rfl, rfl⟩] at hnone
      cases hnone
  · next v remaining hsome =>
    obtain ⟨⟨hok, hheight⟩, hsize, rfl, -⟩ := (hspec _ _).mp hsome
    rw [← canonicalText]
    dsimp only
    split
    · next hlong =>
      constructor
      · intro h
        cases h
      · rintro ⟨⟨-, -, -, hbytes⟩, -⟩
        omega
    · next hshort =>
      rw [Option.some.injEq]
      constructor
      · rintro rfl
        exact ⟨⟨hok, hheight, hsize, by omega⟩, rfl⟩
      · rintro ⟨-, rfl⟩
        rfl

/-! ## The members of an object -/

section Arrange

universe u v

variable {α : Type u} {β : Type v}

/-- The members of an object in its canonical text. -/
def arrange (platform : Platform) (entries : List (String × α)) : List (String × α) :=
  sortByKey platform.le (ownOrder ((sortByKey platform.le entries).map fun entry =>
    (platform.normalize entry.1, entry.2)))

theorem arrange_map (f : α → β) (entries : List (String × α)) :
    arrange platform (entries.map fun entry => (entry.1, f entry.2)) =
      (arrange platform entries).map fun entry => (entry.1, f entry.2) := by
  unfold arrange
  rw [sortByKey_map, map_map, ← sortByKey_map, ← ownOrder_map, map_map]
  rfl

theorem arrange_perm (entries : List (String × α)) : (arrange platform entries).Perm
      (entries.map fun entry => (platform.normalize entry.1, entry.2)) := by
  unfold arrange
  exact ((sortByKey_perm _ _).trans (ownOrder_perm _)).trans ((sortByKey_perm _ _).map _)

/-- **What was arranged once is arranged the same way when it is read back.** -/
theorem arrange_ownOrder (hlawful : platform.Lawful) {entries : List (String × α)}
    (hkeys : (entries.map fun entry => platform.normalize entry.1).Nodup) :
    arrange platform (ownOrder (arrange platform entries)) = arrange platform entries := by
  let renamed := (sortByKey platform.le entries).map fun entry =>
    (platform.normalize entry.1, entry.2)
  have hrenamed : renamed.Perm (entries.map fun entry => (platform.normalize entry.1, entry.2)) :=
    (sortByKey_perm _ _).map _
  have hnodup : (renamed.map Prod.fst).Nodup := by
    rw [(hrenamed.map _).nodup_iff, map_map]
    exact hkeys
  have harrange : arrange platform entries = sortByKey platform.le (ownOrder renamed) := rfl
  -- the names are in NFC already, so that taking them to NFC again does nothing
  have hsame : (sortByKey platform.le (ownOrder (arrange platform entries))).map
      (fun entry => (platform.normalize entry.1, entry.2)) =
        sortByKey platform.le (ownOrder (arrange platform entries)) := by
    conv_rhs => rw [← map_id (sortByKey _ _)]
    apply map_congr_left
    intro entry hentry
    have hmem := ((arrange_perm entries).mem_iff.mp ((ownOrder_perm _).mem_iff.mp
      ((sortByKey_perm _ _).mem_iff.mp hentry)))
    obtain ⟨entry', -, rfl⟩ := mem_map.mp hmem
    dsimp only [id]
    rw [hlawful.normalize_normalize]
  have hnodup' : ((arrange platform entries).map Prod.fst).Nodup := by
    rw [((arrange_perm entries).map Prod.fst).nodup_iff, map_map]
    exact hkeys
  calc arrange platform (ownOrder (arrange platform entries))
      = sortByKey platform.le (ownOrder
          (sortByKey platform.le (ownOrder (arrange platform entries)))) := by
        rw [arrange, hsame]
    _ = sortByKey platform.le (ownOrder (arrange platform entries)) :=
        sortByKey_ownOrder hlawful.le_total hlawful.le_trans hnodup'
    _ = arrange platform entries := by
        rw [harrange]
        exact sortByKey_ownOrder hlawful.le_total hlawful.le_trans hnodup

end Arrange

/-! ## Its shape -/

/-- The value that the canonical text of a scalar spells. -/
def canonicalScalar (platform : Platform) : JsValue → JsValue
  | .str s => .str (platform.normalize s)
  | v => v

theorem canonicalScalar_isScalar (h : v.IsScalar) : (canonicalScalar platform v).IsScalar := by
  cases v with
  | arr => exact h.elim
  | obj => exact h.elim
  | _ => trivial

theorem normalized_scalar (h : v.IsScalar) :
    normalized platform v = canonicalScalar platform v := by
  rw [normalized, fold_scalar h]
  rfl

theorem canonicalText_scalar (h : v.IsScalar) :
    (canonicalText platform v).value = canonicalScalar platform v := by
  rw [canonicalText, canonicalCatalogJson, normalized_scalar h]
  exact fold_scalar (canonicalScalar_isScalar h)

theorem canonicalText_arr (items : List JsValue) : (canonicalText platform (.arr items)).value =
      .arr (items.map fun item => (canonicalText platform item).value) := by
  rw [canonicalText, canonicalCatalogJson, normalized_arr]
  dsimp only
  rw [fold_arr, map_map]
  rfl

theorem canonicalText_obj (entries : List (String × JsValue)) :
    (canonicalText platform (.obj entries)).value = .obj (arrange platform (entries.map fun entry =>
        (entry.1, (canonicalText platform entry.2).value))) := by
  rw [canonicalText, canonicalCatalogJson, normalized_obj]
  dsimp only
  have hrenamed : (sortByKey platform.le entries).map (fun entry =>
      (platform.normalize entry.1, normalized platform entry.2)) =
        ((sortByKey platform.le entries).map fun entry =>
          (platform.normalize entry.1, entry.2)).map fun entry =>
            (entry.1, normalized platform entry.2) := by
    rw [map_map]
    rfl
  rw [fold_obj, arrange_map fun value => (canonicalText platform value).value, arrange, hrenamed,
    ownOrder_map, map_map,
    ← sortByKey_map _ fun value => (canonicalText platform value).value]
  rfl

/-! ## Reading it back -/

/-- What `JSON.parse` makes of the canonical text of a value. -/
def reread (platform : Platform) (value : JsValue) : JsValue :=
  (canonicalText platform value).parse

theorem reread_scalar (h : v.IsScalar) : reread platform v = canonicalScalar platform v := by
  unfold reread JsonText.parse
  rw [canonicalText_scalar h]
  exact fold_scalar (canonicalScalar_isScalar h)

theorem reread_arr (items : List JsValue) :
    reread platform (.arr items) = .arr (items.map (reread platform)) := by
  unfold reread JsonText.parse
  rw [canonicalText_arr, fold_arr, map_map]
  rfl

theorem reread_obj (entries : List (String × JsValue)) : reread platform (.obj entries) =
      .obj (ownOrder (arrange platform (entries.map fun entry =>
        (entry.1, reread platform entry.2)))) := by
  unfold reread JsonText.parse
  rw [canonicalText_obj, fold_obj, ← arrange_map, map_map]
  rfl

theorem reread_members (entries : List (String × JsValue)) :
    (ownOrder (arrange platform (entries.map fun entry => (entry.1, reread platform entry.2)))).Perm
      (entries.map fun entry => (platform.normalize entry.1, reread platform entry.2)) := by
  refine ((ownOrder_perm _).trans (arrange_perm _)).trans ?_
  rw [map_map]
  rfl

/-- **A value read back from its canonical text has the same canonical text.** -/
theorem canonicalText_reread (hlawful : platform.Lawful) (h : IsCanonicalizable platform value) :
    canonicalText platform (reread platform value) = canonicalText platform value := by
  have hvalue : (canonicalText platform (reread platform value)).value =
      (canonicalText platform value).value := by
    induction value using partsInduction with
    | scalar v hscalar =>
      rw [reread_scalar hscalar, canonicalText_scalar (canonicalScalar_isScalar hscalar),
        canonicalText_scalar hscalar]
      cases v with
      | str s => exact congrArg JsValue.str (hlawful.normalize_normalize s)
      | _ => rfl
    | array items ih =>
      have hitems := h.items
      rw [reread_arr, canonicalText_arr, canonicalText_arr, map_map]
      congr 1
      exact map_congr_left fun item hitem => ih item hitem (hitems item hitem)
    | object entries ih =>
      obtain ⟨hkeys, hentries⟩ := h.members
      have hsame : (entries.map fun entry =>
          (entry.1, (canonicalText platform (reread platform entry.2)).value)) =
            entries.map fun entry => (entry.1, (canonicalText platform entry.2).value) := by
        apply map_congr_left
        intro entry hentry
        rw [ih entry hentry (hentries entry hentry)]
      rw [reread_obj, canonicalText_obj, canonicalText_obj, ← ownOrder_map
        fun value => (canonicalText platform value).value, ← arrange_map
        fun value => (canonicalText platform value).value, map_map]
      congr 1
      refine (congrArg (fun entries => arrange platform (ownOrder (arrange platform entries)))
        hsame).trans ?_
      apply arrange_ownOrder hlawful
      rw [map_map]
      exact hkeys
  unfold canonicalText canonicalCatalogJson at hvalue ⊢
  dsimp only at hvalue
  rw [hvalue]

theorem height_le_arr {items : List JsValue} {n : ℕ} :
    (arr items).height ≤ n + 1 ↔ ∀ item ∈ items, item.height ≤ n := by
  rw [height_arr, Nat.add_comm, Nat.add_le_add_iff_right, foldr_max_le, forall_mem_map]

theorem height_le_obj {entries : List (String × JsValue)} {n : ℕ} :
    (obj entries).height ≤ n + 1 ↔ ∀ entry ∈ entries, entry.2.height ≤ n := by
  rw [height_obj, Nat.add_comm, Nat.add_le_add_iff_right, foldr_max_le, forall_mem_map]

theorem isCanonicalizable_reread (hlawful : platform.Lawful)
    (h : IsCanonicalizable platform value) :
    IsCanonicalizable platform (reread platform value) := by
  induction value using partsInduction with
  | scalar v hscalar =>
    rw [reread_scalar hscalar]
    cases v with
    | str s => exact .str _
    | _ => exact h
  | array items ih =>
    rw [reread_arr]
    apply IsCanonicalizable.arr
    rw [forall_mem_map]
    exact fun item hitem => ih item hitem (h.items item hitem)
  | object entries ih =>
    rw [reread_obj]
    obtain ⟨hkeys, hentries⟩ := h.members
    apply IsCanonicalizable.obj
    · rw [((reread_members entries).map fun entry => platform.normalize entry.1).nodup_iff, map_map]
      simpa only [Function.comp_def, hlawful.normalize_normalize] using hkeys
    · simp only [(reread_members entries).mem_iff, forall_mem_map]
      exact fun entry hentry => ih entry hentry (hentries entry hentry)

theorem bounds_reread (value : JsValue) : (reread platform value).height = value.height ∧
    (reread platform value).size = value.size := by
  induction value using partsInduction with
  | scalar v hscalar =>
    have hcanonical := @canonicalScalar_isScalar platform _ hscalar
    rw [reread_scalar hscalar, height_scalar hcanonical, height_scalar hscalar,
      size_scalar hcanonical, size_scalar hscalar]
    exact ⟨rfl, rfl⟩
  | array items ih =>
    have hheights := map_congr_left fun item hitem => (ih item hitem).1
    have hsizes := map_congr_left fun item hitem => (ih item hitem).2
    rw [reread_arr, height_arr, height_arr, size_arr, size_arr, length_map, map_map, map_map]
    exact ⟨by rw [← hheights]; rfl, by rw [← hsizes]; rfl⟩
  | object entries ih =>
    have hheights := map_congr_left fun entry hentry => (ih entry hentry).1
    have hsizes := map_congr_left fun entry hentry => (ih entry hentry).2
    have hperm := @reread_members platform entries
    rw [reread_obj, height_obj, height_obj, size_obj, size_obj, (hperm.map _).foldr_eq,
      (hperm.map _).sum_eq, hperm.length_eq, length_map, map_map, map_map, ← hheights, ← hsizes]
    exact ⟨rfl, rfl⟩

/-- **A canonical text is its own canonical form.** What it is read back as is accepted too,
with the same text. -/
theorem canonicalBoundedActionValue_reread (hlawful : platform.Lawful) {text : JsonText}
    (h : canonicalBoundedActionValue platform value = some text) :
    canonicalBoundedActionValue platform text.parse = some text := by
  obtain ⟨⟨hok, hheight, hsize, hbytes⟩, rfl⟩ := canonicalBoundedActionValue_eq_some.mp h
  have hsame := canonicalText_reread hlawful hok
  obtain ⟨hheight', hsize'⟩ := @bounds_reread platform value
  refine canonicalBoundedActionValue_eq_some.mpr
    ⟨⟨isCanonicalizable_reread hlawful hok, hheight'.trans_le hheight, hsize'.trans_le hsize, ?_⟩,
      hsame.symm⟩
  rwa [← reread, hsame]

/-- An object whose members come in another order than in its text. -/
theorem canonicalBoundedActionValue_reread_object : ∃ text,
    canonicalBoundedActionValue (Platform.ofDigests [] [])
      (.obj [("b", .bool true), ("a", .arr [.str "x"])]) = some text ∧
    canonicalBoundedActionValue (Platform.ofDigests [] []) text.parse = some text := by
  obtain ⟨text, htext⟩ := Option.isSome_iff_exists.mp (show (canonicalBoundedActionValue
    (Platform.ofDigests [] []) (.obj [("b", .bool true), ("a", .arr [.str "x"])])).isSome = true
      by decide)
  exact ⟨text, htext, canonicalBoundedActionValue_reread
    (Platform.ofDigests_lawful (by decide) (by decide)) htext⟩

/-! ## Its length -/

def canonicalLength (platform : Platform) : JsValue → ℕ :=
  JsValue.fold
    (fun v => byteLength ((canonicalScalar platform v).stringify platform.numberText))
    (fun lengths => 2 + lengths.sum + (lengths.length - 1))
    fun entries => 2 + (entries.map fun entry =>
      byteLength (jsonString (platform.normalize entry.1)) + 1 + entry.2).sum + (entries.length - 1)

theorem canonicalLength_scalar (h : v.IsScalar) : canonicalLength platform v =
    byteLength ((canonicalScalar platform v).stringify platform.numberText) :=
  fold_scalar h

theorem canonicalLength_arr (items : List JsValue) : canonicalLength platform (.arr items) =
    2 + (items.map (canonicalLength platform)).sum + (items.length - 1) := by
  unfold canonicalLength
  rw [fold_arr, length_map]

theorem canonicalLength_obj (entries : List (String × JsValue)) :
    canonicalLength platform (.obj entries) =
      2 + (entries.map fun entry => byteLength (jsonString (platform.normalize entry.1)) + 1 +
        canonicalLength platform entry.2).sum + (entries.length - 1) := by
  unfold canonicalLength
  rw [fold_obj, length_map, map_map]
  rfl

theorem byteLength_canonicalText (value : JsValue) :
    byteLength ((canonicalText platform value).chars platform) =
      canonicalLength platform value := by
  unfold JsonText.chars
  induction value using partsInduction with
  | scalar v hscalar => rw [canonicalText_scalar hscalar, canonicalLength_scalar hscalar]
  | array items ih =>
    rw [canonicalText_arr, byteLength_arr, canonicalLength_arr, length_map, map_map]
    congr 3
    exact map_congr_left ih
  | object entries ih =>
    rw [canonicalText_obj, byteLength_obj, canonicalLength_obj, (arrange_perm _).length_eq,
      ((arrange_perm _).map _).sum_nat, map_map, map_map, length_map, length_map]
    congr 3
    apply map_congr_left
    intro entry hentry
    exact congrArg (_ + 1 + ·) (ih entry hentry)

end Laborer.DurableRuntime
