import Laborer.DurableRuntime.Steps
import Laborer.Library.Codecs

/-!
# An Execution event in its conversation

An event that is delivered is bounded again, with two envelopes around its payload. The
bound on the length leaves room for them; those on the nesting and on the number of items
do not.
-/

namespace Laborer.DurableRuntime

open Library JsValue List

variable {platform : Platform} {s : String} {event : ExecutionEvent}

def IsAscii (s : String) : Prop :=
  ∀ c ∈ s.toList, c.toNat < 0x80

def FitsEnvelope (payload : JsValue) : Prop :=
  payload.height ≤ 6 ∧ payload.size ≤ 244

/-! ## Lengths -/

theorem length_normalize (hlawful : platform.Lawful) (s : String) :
    byteLength (jsonString (platform.normalize s)) ≤ 9 * jsLength s + 2 := by
  have hjson := byteLength_jsonString (platform.normalize s)
  have hescaped : escapedCount (platform.normalize s).toList = escapedCount s.toList :=
    congrArg List.length (hlawful.normalize_escaped s)
  have hlength := hlawful.normalize_length s
  have hunits := byteLength_le_units s
  omega

theorem length_ascii (hlawful : platform.Lawful) (h : IsAscii s) :
    byteLength (jsonString (platform.normalize s)) ≤ 6 * jsLength s + 2 := by
  have hjson := byteLength_jsonString s
  have hunits : byteLength s.toList + 5 * escapedCount s.toList ≤ 6 * jsLength s := by
    unfold jsLength
    unfold IsAscii at h
    generalize s.toList = text at h
    induction text with
    | nil => exact Nat.zero_le _
    | cons c text ih =>
      have hc := h c mem_cons_self
      have hone : c.utf8Size = 1 := by
        rw [Char.utf8Size_eq_one_iff, UInt32.le_iff_toNat_le]
        have : c.val.toNat = c.toNat := rfl
        have : (127 : UInt32).toNat = 127 := rfl
        omega
      have hih := ih fun c hc => h c (mem_cons_of_mem _ hc)
      have hunit : (if 0x10000 ≤ c.toNat then 2 else 1) = 1 := if_neg (by omega)
      rw [byteLength_cons, map_cons, sum_cons, hone, hunit]
      unfold escapedCount at hih ⊢
      cases hescaped : jsonEscaped c <;> simp only [filter_cons, hescaped] <;> simp <;> omega
  rw [hlawful.normalize_ascii s h]
  omega

theorem length_numberText (hlawful : platform.Lawful) {n : ℕ} (h : n < 2 ^ 53) :
    byteLength (platform.numberText n) ≤ 16 := by
  rw [hlawful.numberText_nat n (Nat.lt_trans h (by decide))]
  exact byteLength_toDigits h

/-! ## The envelope -/

theorem normalize_literal (hlawful : platform.Lawful)
    (h : s.toList.all (fun c => c.toNat < 0x80) = true) : platform.normalize s = s := by
  apply hlawful.normalize_ascii
  simpa using h

theorem canonicalLength_str (s : String) : canonicalLength platform (.str s) =
    byteLength (jsonString (platform.normalize s)) :=
  canonicalLength_scalar trivial

theorem height_applicationEventOf :
    (applicationEventOf event).height ≤ actionCanonicalMaxDepth ↔ event.payload.height ≤ 6 := by
  have hscalar : ∀ s, (JsValue.str s).height = 0 := fun s => height_scalar trivial
  have hnumber : ∀ n, (JsValue.num n).height = 0 := fun n => height_scalar trivial
  unfold applicationEventOf ExecutionEvent.toValue actionCanonicalMaxDepth
  simp [height_le_obj, hscalar, hnumber]

theorem size_applicationEventOf (event : ExecutionEvent) :
    (applicationEventOf event).size = event.payload.size + 12 := by
  have hscalar : ∀ s, (JsValue.str s).size = 0 := fun s => size_scalar trivial
  have hnumber : ∀ n, (JsValue.num n).size = 0 := fun n => size_scalar trivial
  unfold applicationEventOf ExecutionEvent.toValue
  simp only [size_obj, map_cons, map_nil, sum_cons, sum_nil, length_cons,
    length_nil, hscalar, hnumber]
  omega

theorem isCanonicalizable_applicationEventOf (hlawful : platform.Lawful)
    (h : IsCanonicalizable platform event.payload) :
    IsCanonicalizable platform (applicationEventOf event) := by
  have hnames : ∀ names : List String, names.Nodup →
      (∀ name ∈ names, name.toList.all (fun c => c.toNat < 0x80) = true) →
        (names.map platform.normalize).Nodup := by
    intro names hnodup hascii
    rw [map_congr_left fun name hname => normalize_literal hlawful (hascii name hname), map_id']
    exact hnodup
  apply IsCanonicalizable.obj
  · exact hnames ["_tag", "conversationId", "eventId", "payload", "source"] (by decide) (by decide)
  · simp only [forall_mem_cons, not_mem_nil, false_implies, implies_true, and_true]
    refine ⟨.str _, .str _, .str _, ?_, .str _⟩
    apply IsCanonicalizable.obj
    · exact hnames ["conversationId", "eventId", "executionId", "kind", "payload", "sequence",
        "workspaceId"] (by decide) (by decide)
    · simp only [forall_mem_cons, not_mem_nil, false_implies, implies_true, and_true]
      exact ⟨.str _, .str _, .str _, .str _, h, .num _, .str _⟩

theorem length_literal (hlawful : platform.Lawful) {n : ℕ}
    (h : (s.toList.all fun c => c.toNat < 0x80) && byteLength (jsonString s) = n) :
    byteLength (jsonString (platform.normalize s)) = n := by
  rw [Bool.and_eq_true, decide_eq_true_eq] at h
  rw [normalize_literal hlawful h.1, h.2]

/-- **The envelopes take less than the room that is left for them.** -/
theorem length_applicationEventOf (hlawful : platform.Lawful)
    (hvalid : event.isValid = true) (hexecution : IsAscii event.executionId)
    (hevent : IsAscii event.eventId) : canonicalLength platform (applicationEventOf event) ≤
      canonicalLength platform event.payload + 16 * 1024 := by
  obtain ⟨hconversationId, heventId, hexecutionId, ⟨hsequence, -⟩, hworkspaceId⟩ :=
    event.isValid_iff.mp hvalid
  have hbound : ∀ {n : ℕ} {s : String}, boundedNonBlankString n s = true → jsLength s ≤ n := by
    intro n s h
    unfold boundedNonBlankString at h
    rw [Bool.and_eq_true, decide_eq_true_eq] at h
    exact h.2
  have hconversation := length_normalize hlawful event.conversationId
  have hworkspace := length_normalize hlawful event.workspaceId
  have hevent' := length_ascii hlawful hevent
  have hexecution' := length_ascii hlawful hexecution
  have hnumber : canonicalLength platform (.num event.sequence) ≤ 16 := by
    rw [canonicalLength_scalar (v := .num event.sequence) trivial]
    exact length_numberText hlawful hsequence
  have hkind : canonicalLength platform (.str event.kind.text) ≤ 11 := by
    rw [canonicalLength_str]
    cases event.kind with
    | progress =>
      exact (length_literal hlawful (s := "progress") (n := 10) (by decide)).trans_le (by decide)
    | completed => exact (length_literal hlawful (s := "completed") (n := 11) (by decide)).le
    | failed =>
      exact (length_literal hlawful (s := "failed") (n := 8) (by decide)).trans_le (by decide)
    | cancelled => exact (length_literal hlawful (s := "cancelled") (n := 11) (by decide)).le
  have h₁ := hbound hconversationId
  have h₂ := hbound heventId
  have h₃ := hbound hexecutionId
  have h₄ := hbound hworkspaceId
  unfold applicationEventOf ExecutionEvent.toValue
  simp only [canonicalLength_obj, canonicalLength_str, map_cons, map_nil, sum_cons,
    sum_nil, length_cons, length_nil,
    length_literal hlawful (s := "_tag") (n := 6) (by decide),
    length_literal hlawful (s := "conversationId") (n := 16) (by decide),
    length_literal hlawful (s := "eventId") (n := 9) (by decide),
    length_literal hlawful (s := "payload") (n := 9) (by decide),
    length_literal hlawful (s := "source") (n := 8) (by decide),
    length_literal hlawful (s := "executionId") (n := 13) (by decide),
    length_literal hlawful (s := "kind") (n := 6) (by decide),
    length_literal hlawful (s := "sequence") (n := 10) (by decide),
    length_literal hlawful (s := "workspaceId") (n := 13) (by decide),
    length_literal hlawful (s := "ExternalInput") (n := 15) (by decide),
    length_literal hlawful (s := "registered-action") (n := 19) (by decide)] at hkind ⊢
  omega

end Laborer.DurableRuntime
