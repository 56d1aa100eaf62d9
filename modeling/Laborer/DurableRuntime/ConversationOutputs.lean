import Laborer.DurableRuntime.Changes
import Laborer.DurableRuntime.DecodedValue

/-!
# The outputs of a turn

A turn publishes its outputs one by one, each checked by itself and against the bytes of
those before it. When it ends, all of them are bounded once more as one list.
-/

namespace Laborer.DurableRuntime

open Library JsValue List Option

/-! ## Publishing -/

/-- What a turn has published: the outputs, and how long their list is. -/
structure PublishedOutputs where
  encodedOutputsBytes : ℕ
  outputs : List JsValue
  deriving DecidableEq

/-- The surrounding array of the list is accounted for. -/
def PublishedOutputs.initial : PublishedOutputs where
  encodedOutputsBytes := 2
  outputs := []

section Publish

variable (platform : Platform)

def publishOutput (published : PublishedOutputs) (output : JsValue) : Option PublishedOutputs :=
  match conversationOutput output with
  | none => none
  | some validatedOutput =>
    match canonicalBoundedActionValue platform validatedOutput with
    | none => none
    | some encodedOutput =>
      let nextEncodedOutputsBytes := published.encodedOutputsBytes +
        (if published.outputs.length = 0 then 0 else 1) + byteLength (encodedOutput.chars platform)
      if runtimePayloadMaxBytes < nextEncodedOutputsBytes then none
      else some
        { encodedOutputsBytes := nextEncodedOutputsBytes
          outputs := published.outputs ++ [validatedOutput] }

def publishOutputs : PublishedOutputs → List JsValue → Option PublishedOutputs
  | published, [] => some published
  | published, output :: outputs =>
    match publishOutput platform published output with
    | none => none
    | some published => publishOutputs published outputs

end Publish

variable {platform : Platform} {v w : JsValue} {published : PublishedOutputs}

/-! ## What an output looks like -/

theorem isSettled_conversationOutput : Decoder.IsSettled conversationOutput := by
  have hfield : ∀ name : String, ∀ check, (required name (Decoder.string check)).IsSettled :=
    fun name check => ⟨Decoder.isSettled_string check, fun value h => nomatch h⟩
  apply Decoder.isSettled_orElse
  · apply Decoder.isSettled_struct (by decide)
    simp only [forall_mem_cons, not_mem_nil, false_implies, implies_true, and_true]
    exact ⟨hfield _ _, hfield _ _, ⟨Decoder.isSettled_number, fun value h => nomatch h⟩, hfield _ _⟩
  · apply Decoder.isSettled_struct (by decide)
    simp only [forall_mem_cons, not_mem_nil, false_implies, implies_true, and_true]
    exact ⟨hfield _ _, hfield _ _, hfield _ _⟩
  · intro v w h
    -- the two have different tags
    have htag := member_tag (by decide) h
    cases hchunk : applicationConversationMessageChunk w with
    | none => rfl
    | some u =>
      have htag' := member_tag_of_struct hchunk
      rw [htag] at htag'
      simp at htag'

theorem part_required {name : String} {decode : Decoder} {entries part : List (String × JsValue)}
    (h : (required name decode).part entries = some part) :
    ∃ raw value, decode raw = some value ∧ part = [(name, value)] := by
  rcases Decoder.Field.part_cases h with ⟨-, hoptional⟩ | ⟨raw, value, hraw, rfl⟩ |
    ⟨value, hdefault, -⟩
  · cases hoptional
  · exact ⟨raw, value, hraw, rfl⟩
  · cases hdefault

theorem isScalar_string {check : String → Bool}
    (h : Decoder.string check v = some w) : w.IsScalar := by
  cases v with
  | str s =>
    rw [Decoder.string] at h
    split at h
    · cases h
      trivial
    · cases h
  | _ => cases h

theorem isScalar_number (h : Decoder.number v = some w) : w.IsScalar := by
  cases v with
  | num n =>
    cases h
    trivial
  | nonFinite =>
    cases h
    trivial
  | _ => cases h

def outputProperties (output : JsValue) : ℕ :=
  match member "sequence" output with
  | none => 3
  | some _ => 4

theorem conversationOutput_shape (h : conversationOutput v = some w) :
    ∃ entries, w = .obj entries ∧ entries.length = outputProperties v ∧
      ∀ entry ∈ entries, entry.2.IsScalar := by
  rcases or_eq_some_iff.mp h with h | ⟨-, h⟩
  · obtain ⟨entries, parts, rfl, -, hparts, rfl⟩ := Decoder.struct_eq_some.mp h
    obtain ⟨part₁, rest₁, h₁, hrest₁, rfl⟩ := Decoder.mapM_cons_eq_some.mp hparts
    obtain ⟨part₂, rest₂, h₂, hrest₂, rfl⟩ := Decoder.mapM_cons_eq_some.mp hrest₁
    obtain ⟨part₃, rest₃, h₃, hrest₃, rfl⟩ := Decoder.mapM_cons_eq_some.mp hrest₂
    obtain ⟨part₄, rest₄, h₄, hrest₄, rfl⟩ := Decoder.mapM_cons_eq_some.mp hrest₃
    cases hrest₄
    obtain ⟨_, _, hs₁, rfl⟩ := part_required h₁
    obtain ⟨_, _, hs₂, rfl⟩ := part_required h₂
    obtain ⟨_, _, hs₄, rfl⟩ := part_required h₄
    refine ⟨_, rfl, ?_⟩
    unfold Decoder.Field.part at h₃
    unfold outputProperties member
    dsimp only at h₃ ⊢
    cases hsequence : entries.lookup "sequence" with
    | none =>
      rw [hsequence] at h₃
      cases h₃
      refine ⟨rfl, ?_⟩
      simp [isScalar_string hs₁, isScalar_string hs₂, isScalar_string hs₄]
    | some value =>
      rw [hsequence] at h₃
      obtain ⟨decoded, hdecoded, rfl⟩ := map_eq_some_iff.mp h₃
      refine ⟨rfl, ?_⟩
      simp [isScalar_string hs₁, isScalar_string hs₂, isScalar_number hdecoded, isScalar_string hs₄]
  · obtain ⟨entries, parts, rfl, hnames, hparts, rfl⟩ := Decoder.struct_eq_some.mp h
    obtain ⟨part₁, rest₁, h₁, hrest₁, rfl⟩ := Decoder.mapM_cons_eq_some.mp hparts
    obtain ⟨part₂, rest₂, h₂, hrest₂, rfl⟩ := Decoder.mapM_cons_eq_some.mp hrest₁
    obtain ⟨part₃, rest₃, h₃, hrest₃, rfl⟩ := Decoder.mapM_cons_eq_some.mp hrest₂
    cases hrest₃
    obtain ⟨_, _, hs₁, rfl⟩ := part_required h₁
    obtain ⟨_, _, hs₂, rfl⟩ := part_required h₂
    obtain ⟨_, _, hs₃, rfl⟩ := part_required h₃
    -- a reply has no other property, so none that is called `sequence`
    have hsequence : entries.lookup "sequence" = none := by
      rw [lookup_eq_none_iff]
      intro entry hentry
      have hname := all_eq_true.mp hnames entry hentry
      simp only [tag, required, any_cons, any_nil, Bool.or_false, Bool.or_eq_true,
        decide_eq_true_eq] at hname
      rcases hname with h | h | h <;> simp [← h]
    refine ⟨_, rfl, ?_, ?_⟩
    · unfold outputProperties member
      dsimp only
      rw [hsequence]
      rfl
    · simp [isScalar_string hs₁, isScalar_string hs₂, isScalar_string hs₃]

theorem size_conversationOutput (h : conversationOutput v = some w) :
    w.size = outputProperties v := by
  obtain ⟨entries, rfl, hlength, hscalars⟩ := conversationOutput_shape h
  have hzero : ∀ entry ∈ entries, entry.2.size = 0 :=
    fun entry hentry => size_scalar (hscalars entry hentry)
  rw [size_obj, map_congr_left hzero, hlength]
  simp

theorem height_conversationOutput (h : conversationOutput v = some w) : w.height ≤ 1 := by
  obtain ⟨entries, rfl, -, hscalars⟩ := conversationOutput_shape h
  rw [height_le_obj]
  exact fun entry hentry => Nat.le_of_eq (height_scalar (hscalars entry hentry))

/-! ## The list of the outputs -/

structure PublishedOutputs.Ok (platform : Platform) (published : PublishedOutputs) : Prop where
  settled : ∀ output ∈ published.outputs, conversationOutput output = some output
  canonicalizable : ∀ output ∈ published.outputs, IsCanonicalizable platform output
  bytes : published.encodedOutputsBytes = canonicalLength platform (.arr published.outputs)
  bounded : published.encodedOutputsBytes ≤ runtimePayloadMaxBytes

theorem PublishedOutputs.initial_ok : PublishedOutputs.initial.Ok platform where
  settled := fun _ h => absurd h List.not_mem_nil
  canonicalizable := fun _ h => absurd h List.not_mem_nil
  bytes := by
    rw [canonicalLength_arr]
    rfl
  bounded := by decide

theorem publishOutput_ok {published' : PublishedOutputs} {output : JsValue}
    (hok : published.Ok platform) (h : publishOutput platform published output = some published') :
    published'.Ok platform ∧ ∃ validated, conversationOutput output = some validated ∧
      published'.outputs = published.outputs ++ [validated] := by
  unfold publishOutput at h
  split at h
  · cases h
  · next validated hvalidated =>
    split at h
    · cases h
    · next encoded hencoded =>
      dsimp only at h
      obtain ⟨⟨hcanonicalizable, -⟩, rfl⟩ := canonicalBoundedActionValue_eq_some.mp hencoded
      rw [byteLength_canonicalText] at h
      generalize hcomma : (if published.outputs.length = 0 then 0 else 1) = comma at h
      split at h
      · cases h
      · next hbounded =>
        cases h
        refine ⟨⟨?_, ?_, ?_, Nat.le_of_not_lt hbounded⟩, validated, hvalidated, rfl⟩
        · rw [forall_mem_append, forall_mem_singleton]
          exact ⟨hok.settled, isSettled_conversationOutput _ _ hvalidated⟩
        · rw [forall_mem_append, forall_mem_singleton]
          exact ⟨hok.canonicalizable, hcanonicalizable⟩
        · have hbytes := hok.bytes
          rw [canonicalLength_arr] at hbytes ⊢
          dsimp only
          rw [hbytes, map_append, sum_append, map_singleton, sum_singleton,
            length_append, length_singleton, ← hcomma]
          split <;> omega

theorem publishOutputs_ok {published' : PublishedOutputs} {outputs : List JsValue}
    (hok : published.Ok platform)
    (h : publishOutputs platform published outputs = some published') :
    published'.Ok platform ∧
      (published'.outputs.map JsValue.size).sum = (published.outputs.map JsValue.size).sum +
        (outputs.map outputProperties).sum ∧
      published'.outputs.length = published.outputs.length + outputs.length := by
  induction outputs generalizing published with
  | nil =>
    cases h
    exact ⟨hok, rfl, rfl⟩
  | cons output outputs ih =>
    rw [publishOutputs] at h
    split at h
    · cases h
    · next next hnext =>
      obtain ⟨hok', validated, hvalidated, heq⟩ := publishOutput_ok hok hnext
      obtain ⟨hok'', hsize, hlength⟩ := ih hok' h
      rw [heq, map_append, sum_append, map_singleton, sum_singleton,
        size_conversationOutput hvalidated] at hsize
      rw [heq, length_append, length_singleton] at hlength
      rw [map_cons, sum_cons, length_cons]
      exact ⟨hok'', by omega, by omega⟩

theorem encodeOutputs_isSome_iff (hok : published.Ok platform) :
    (encodeOutputs platform (.arr published.outputs)).isSome = true ↔
      published.outputs.length + (published.outputs.map JsValue.size).sum ≤
        actionCanonicalMaxItems := by
  have hdecoded : Decoder.array conversationOutput (.arr published.outputs) =
      some (.arr published.outputs) := by
    have hmap : published.outputs.mapM conversationOutput = some published.outputs := by
      have hsettled := hok.settled
      generalize published.outputs = outputs at hsettled
      induction outputs with
      | nil => rfl
      | cons output outputs ih =>
        rw [forall_mem_cons] at hsettled
        exact Decoder.mapM_cons_eq_some.mpr ⟨_, _, hsettled.1, ih hsettled.2, rfl⟩
    rw [Decoder.array, hmap]
    rfl
  have hheight : (JsValue.arr published.outputs).height ≤ actionCanonicalMaxDepth := by
    refine Nat.le_trans (height_le_arr.mpr fun output houtput => ?_) (by decide : 1 + 1 ≤ _)
    exact height_conversationOutput (hok.settled output houtput)
  have hbytes := hok.bounded
  rw [hok.bytes] at hbytes
  have hbounded : ∀ text, boundedPayloadJson platform (.arr published.outputs) = .ok text ↔ _ :=
    fun text => boundedJson_eq_ok (Nat.le_refl _)
  have hsome : (encodeOutputs platform (.arr published.outputs)).isSome = true ↔
      ∃ text, boundedPayloadJson platform (.arr published.outputs) = .ok text := by
    unfold encodeOutputs
    rw [hdecoded, bind_some]
    cases boundedPayloadJson platform (.arr published.outputs) with
    | ok text => simp [Except.toOption]
    | error failure => simp [Except.toOption]
  rw [hsome]
  simp only [hbounded, exists_eq_right, size_arr]
  constructor
  · rintro ⟨-, -, hsize, -⟩
    exact hsize
  · exact fun hsize => ⟨.arr hok.canonicalizable, hheight, hsize, hbytes⟩

/-! ## The turn -/

/-- **A turn whose outputs were all published is completed when there are not too many of
them, and is recorded as failed otherwise.** -/
theorem publishedTurn_completed_iff (outputs : List JsValue) (published : PublishedOutputs)
    (hpublished : publishOutputs platform .initial outputs = some published)
    (row : ConversationEventRow) (hstatus : row.status = .accepted ∨ row.status = .running) :
    (row.finish ((some (.arr published.outputs)).bind (encodeOutputs platform))).status =
        .completed ↔
      outputs.length + (outputs.map outputProperties).sum ≤ actionCanonicalMaxItems := by
  obtain ⟨hok, hsize, hlength⟩ := publishOutputs_ok PublishedOutputs.initial_ok hpublished
  have hiff := encodeOutputs_isSome_iff hok
  have hzero : (PublishedOutputs.initial.outputs.map JsValue.size).sum = 0 := rfl
  have hnil : PublishedOutputs.initial.outputs.length = 0 := rfl
  rw [hsize, hlength, hzero, hnil, Nat.zero_add, Nat.zero_add] at hiff
  rw [← hiff, bind_some]
  unfold ConversationEventRow.finish
  rw [if_pos hstatus]
  cases encodeOutputs platform (.arr published.outputs) with
  | none => simp
  | some text => simp

def runningTurn : ConversationEventRow where
  eventId := "T"
  conversationId := "C"
  workspaceId := "W"
  sequence := 1
  requestHash := "wOJ1VBabKnt-_sUm8DvRsCKJ0FFzibGnk-KFbTqK2cA"
  eventJson := canonicalText (Platform.ofDigests [] []) (.obj [("_tag", .str "ParticipantInput"),
    ("attemptNumber", .num 1), ("channelId", .str "D"), ("context", .arr []),
    ("conversationId", .str "C"), ("initializationStatus", .str "not_applicable"),
    ("messages", .arr []), ("rootTs", .str "1.0"), ("source", .str "slack"), ("turnId", .str "T"),
    ("workingDirectory", .null)])
  status := .running

def messageChunk : JsValue :=
  .obj [("_tag", .str "ConversationMessageChunk"), ("messageId", .str "m"), ("text", .str "a")]

def publishedChunks (count : ℕ) : PublishedOutputs where
  encodedOutputsBytes := 63 * count + 1
  outputs := List.replicate count messageChunk

theorem shortTurn_completes :
    publishOutputs (Platform.ofDigests [] []) .initial (List.replicate 64 messageChunk) =
        some (publishedChunks 64) ∧
      (runningTurn.finish ((some (.arr (publishedChunks 64).outputs)).bind
        (encodeOutputs (Platform.ofDigests [] [])))).status = .completed := by
  have hpublished : publishOutputs (Platform.ofDigests [] []) .initial
      (List.replicate 64 messageChunk) = some (publishedChunks 64) := by
    decide +kernel
  exact ⟨hpublished, (publishedTurn_completed_iff _ _ hpublished runningTurn (.inr rfl)).mpr
    (by decide +kernel)⟩

/-- One piece more than the items of the list allow. -/
theorem longTurn_fails :
    publishOutputs (Platform.ofDigests [] []) .initial (List.replicate 65 messageChunk) =
        some (publishedChunks 65) ∧
      (runningTurn.finish ((some (.arr (publishedChunks 65).outputs)).bind
        (encodeOutputs (Platform.ofDigests [] [])))).status = .failed := by
  decide +kernel

end Laborer.DurableRuntime
