import Laborer.Config.ConfigService

/-!
# What an update of the config keeps

An update that is written keeps the other fields of the file exactly where the file could
be read as an object, or had no fields, and no number in them is too large.
-/

namespace Laborer.Config

open Library List

/-! ## The property -/

/-- The fields of an update, in the order in which they are assigned. -/
def ProjectConfigUpdates.fields (updates : ProjectConfigUpdates) :
    OrderedMap String (Option JsValue) :=
  [("agent", updates.agent.map fun agent => .str agent.text),
    ("conflictPrompt", updates.conflictPrompt.map .str),
    ("shortName", updates.shortName.map .str),
    ("shortNameAliases", updates.shortNameAliases.map stringArray),
    ("worktreeDir", updates.worktreeDir.map .str),
    ("setupScripts", updates.setupScripts.map stringArray),
    ("previewUrls", updates.previewUrls.map stringArray),
    ("watchIgnore", updates.watchIgnore.map stringArray)]

def ProjectConfigUpdates.get? (updates : ProjectConfigUpdates) (key : String) : Option JsValue :=
  (updates.fields.get? key).join

def itemFields (items : List JsValue) : OrderedMap String JsValue :=
  items.mapIdx fun index item => (toString index, item)

def ConfigFile.field : ConfigFile → String → Option JsValue
  | .document (.obj entries), key => OrderedMap.get? entries key
  | .document (.arr items), key => (itemFields items).get? key
  | _, _ => none

/-- What is there is nothing, or could be parsed. -/
def ConfigFile.Parsed : ConfigFile → Prop
  | .unreadable => False
  | .malformed _ => False
  | .absent => True
  | .empty => True
  | .document _ => True

def migrated (key : String) (value : JsValue) : JsValue :=
  if key = "agent" ∧ value = .str "opencode" then .str "opencode2" else value

/-- The new file has the fields of the update, and the others of the old file. -/
structure Updated (updates : ProjectConfigUpdates) (old new : ConfigFile) : Prop where
  parsed : old.Parsed
  isObject : ∃ entries, new = .document (.obj entries)
  updated : ∀ key value, updates.get? key = some value → new.field key = some value
  kept : ∀ key value, old.field key = some value → updates.get? key = none →
    new.field key = some (migrated key value)

/-- A write fails and leaves the file, or it succeeds and loses nothing. -/
def Preserves (updates : ProjectConfigUpdates) (old : ConfigFile)
    (result : Except ConfigIOError Unit × ConfigFile) : Prop :=
  (∃ e, result = (.error e, old)) ∨ (result.1 = .ok () ∧ Updated updates old result.2)

/-- The file has no fields, or it is an object whose other fields come back from JSON as
they are. -/
def Mergeable (updates : ProjectConfigUpdates) : ConfigFile → Prop
  | .unreadable => False
  | .malformed _ => False
  | .document (.arr items) => items = []
  | .document (.obj entries) => ∀ key value, OrderedMap.get? entries key = some value →
      updates.get? key = none → value.isPlain = true
  | _ => True

/-! ## Entries -/

variable {entries : OrderedMap String JsValue} {key : String} {value : JsValue}

theorem get?_rereadEntries (h : entries.get? key = some value) (hplain : value.isPlain = true) :
    OrderedMap.get? (JsValue.rereadEntries entries) key = some value := by
  induction entries with
  | nil => cases h
  | cons entry entries ih =>
    rw [OrderedMap.get?_cons] at h
    rw [JsValue.rereadEntries_cons]
    by_cases hkey : entry.1 = key
    · rw [if_pos hkey] at h
      cases h
      rw [JsValue.reread_of_isPlain hplain]
      exact (OrderedMap.get?_cons _ _ _).trans (if_pos hkey)
    · rw [if_neg hkey] at h
      cases entry.2.reread with
      | none => exact ih h
      | some written => exact (OrderedMap.get?_cons _ _ _).trans ((if_neg hkey).trans (ih h))

theorem get?_rereadEntries_none
    (h : entries.get? key = none) : OrderedMap.get? (JsValue.rereadEntries entries) key = none := by
  rw [OrderedMap.get?_eq_none_iff] at h ⊢
  intro hmem
  obtain ⟨entry', hentry', hkey⟩ := mem_map.mp hmem
  obtain ⟨entry, hentry, hmap⟩ := mem_filterMap.mp hentry'
  obtain ⟨written, -, rfl⟩ := Option.map_eq_some_iff.mp hmap
  exact h (mem_map.mpr ⟨entry, hentry, hkey⟩)

/-! ## Updates -/

theorem get?_assign (key other : String) (value : Option JsValue)
    (next : OrderedMap String JsValue) :
    (assign key value next).get? other = if key = other then value.or (next.get? other)
      else next.get? other := by
  unfold assign
  cases value with
  | none => simp
  | some value => exact OrderedMap.get?_set next key value other

theorem get?_assignAll {fields : OrderedMap String (Option JsValue)}
    (hkeys : (fields.map Prod.fst).Nodup) (next : OrderedMap String JsValue) (key : String) :
    (fields.foldl (fun next field => assign field.1 field.2 next) next).get? key =
      (fields.get? key).join.or (next.get? key) := by
  induction fields generalizing next with
  | nil => rfl
  | cons field fields ih =>
    rw [map_cons, nodup_cons] at hkeys
    rw [foldl_cons, ih hkeys.2, OrderedMap.get?_cons, get?_assign]
    by_cases hkey : field.1 = key
    · have hnone : OrderedMap.get? fields key = none := OrderedMap.get?_eq_none (hkey ▸ hkeys.1)
      rw [if_pos hkey, if_pos hkey, hnone]
      rfl
    · rw [if_neg hkey, if_neg hkey]

theorem fields_nodup (updates : ProjectConfigUpdates) : (updates.fields.map Prod.fst).Nodup := by
  show (["agent", "conflictPrompt", "shortName", "shortNameAliases", "worktreeDir",
    "setupScripts", "previewUrls", "watchIgnore"] : List String).Nodup
  decide

theorem get?_applyConfigUpdates (existing : OrderedMap String JsValue)
    (updates : ProjectConfigUpdates) (key : String) :
    (applyConfigUpdates existing updates).get? key =
      (updates.get? key).or ((migrateAgent existing).get? key) :=
  get?_assignAll (fields_nodup updates) (migrateAgent existing) key

theorem get?_migrateAgent (existing : OrderedMap String JsValue) (key : String) :
    (migrateAgent existing).get? key = (existing.get? key).map (migrated key) := by
  unfold migrateAgent migrated
  split
  · next hlegacy =>
    rw [OrderedMap.get?_set]
    by_cases hkey : "agent" = key
    · subst hkey
      rw [if_pos rfl, hlegacy]
      rfl
    · rw [if_neg hkey]
      cases existing.get? key with
      | none => rfl
      | some value => simp [Ne.symm hkey]
  · next hlegacy =>
    cases hget : existing.get? key with
    | none => rfl
    | some value =>
      have hother : ¬ (key = "agent" ∧ value = .str "opencode") := by
        rintro ⟨rfl, rfl⟩
        exact hlegacy hget
      rw [Option.map_some, if_neg hother]

theorem isPlain_stringArray (items : List String) : (stringArray items).isPlain = true := by
  unfold stringArray
  rw [JsValue.isPlain_arr, all_map, all_eq_true]
  exact fun _ _ => rfl

variable {updates : ProjectConfigUpdates}

theorem isPlain_of_mem_fields {field : String × Option JsValue}
    (hfield : field ∈ updates.fields) : ∀ value ∈ field.2, value.isPlain = true := by
  have hmap : ∀ {α : Type} (f : α → JsValue) (o : Option α), (∀ a, (f a).isPlain = true) →
      ∀ value ∈ o.map f, value.isPlain = true := by
    intro α f o hf value hvalue
    obtain ⟨a, -, rfl⟩ := Option.map_eq_some_iff.mp hvalue
    exact hf a
  unfold ProjectConfigUpdates.fields at hfield
  simp only [mem_cons, not_mem_nil, or_false] at hfield
  rcases hfield with rfl | rfl | rfl | rfl | rfl | rfl | rfl | rfl
  · exact hmap _ _ fun _ => rfl
  · exact hmap _ _ fun _ => rfl
  · exact hmap _ _ fun _ => rfl
  · exact hmap _ _ isPlain_stringArray
  · exact hmap _ _ fun _ => rfl
  · exact hmap _ _ isPlain_stringArray
  · exact hmap _ _ isPlain_stringArray
  · exact hmap _ _ isPlain_stringArray

theorem isPlain_of_update (h : updates.get? key = some value) : value.isPlain = true :=
  isPlain_of_mem_fields (OrderedMap.mem_of_get? (Option.join_eq_some_iff.mp h)) value rfl

theorem isPlain_migrated (key : String) (value : JsValue) :
    (migrated key value).isPlain = value.isPlain := by
  unfold migrated
  split
  · next hlegacy =>
    rw [hlegacy.2]
    rfl
  · rfl

/-! ## The written file -/

def updatedFile (existing : OrderedMap String JsValue) (updates : ProjectConfigUpdates) :
    ConfigFile :=
  .document (.obj (JsValue.rereadEntries (applyConfigUpdates existing updates)))

theorem field_updatedFile {existing : OrderedMap String JsValue}
    (h : (updates.get? key).or ((existing.get? key).map (migrated key)) = some value)
    (hplain : value.isPlain = true) : (updatedFile existing updates).field key = some value := by
  apply get?_rereadEntries _ hplain
  rw [get?_applyConfigUpdates, get?_migrateAgent]
  exact h

theorem isPlain_of_field_updatedFile {existing : OrderedMap String JsValue}
    (h : (updatedFile existing updates).field key = some value) : value.isPlain = true :=
  JsValue.isPlain_of_mem_rereadEntries (OrderedMap.mem_of_get? h)

theorem field_updatedFile_none
    (h : updates.get? key = none) : (updatedFile [] updates).field key = none := by
  apply get?_rereadEntries_none
  rw [get?_applyConfigUpdates, h]
  rfl

theorem updated_of_noFields {old : ConfigFile}
    (hparsed : old.Parsed) (hfields : ∀ key, old.field key = none) :
    Updated updates old (updatedFile [] updates) := by
  refine ⟨hparsed, ⟨_, rfl⟩, ?_, ?_⟩
  · intro key value hvalue
    apply field_updatedFile _ (isPlain_of_update hvalue)
    rw [hvalue]
    rfl
  · intro key value hvalue
    rw [hfields key] at hvalue
    cases hvalue

theorem updated_object_iff :
    Updated updates (.document (.obj entries)) (updatedFile entries updates) ↔
      Mergeable updates (.document (.obj entries)) := by
  constructor
  · intro h key value hget hnew
    rw [← isPlain_migrated key value]
    exact isPlain_of_field_updatedFile (h.kept key value hget hnew)
  · intro h
    refine ⟨trivial, ⟨_, rfl⟩, ?_, ?_⟩
    · intro key value hvalue
      apply field_updatedFile _ (isPlain_of_update hvalue)
      rw [hvalue]
      rfl
    · intro key value hget hnew
      apply field_updatedFile
      · rw [hnew]
        exact congrArg (Option.map (migrated key)) hget
      · rw [isPlain_migrated]
        exact h key value hget hnew

theorem get?_index (updates : ProjectConfigUpdates) : updates.get? "0" = none := by
  rfl

theorem updated_array_iff {items : List JsValue} :
    Updated updates (.document (.arr items)) (updatedFile [] updates) ↔ items = [] := by
  constructor
  · intro h
    cases items with
    | nil => rfl
    | cons item items =>
      have hfirst : ConfigFile.field (.document (.arr (item :: items))) "0" = some item := by
        show (itemFields (item :: items)).get? "0" = some item
        unfold itemFields
        rw [mapIdx_cons]
        exact (OrderedMap.get?_cons _ _ _).trans (if_pos rfl)
      have hkept := h.kept "0" item hfirst (get?_index updates)
      rw [field_updatedFile_none (get?_index updates)] at hkept
      cases hkept
  · rintro rfl
    exact updated_of_noFields trivial fun _ => rfl

theorem updated_iff_mergeable (updates : ProjectConfigUpdates) (old : ConfigFile) :
    Updated updates old (updatedFile ((readRawConfigObject old).getD []) updates) ↔
      Mergeable updates old := by
  have hnone : old.Parsed → (∀ key, old.field key = none) →
      (Updated updates old (updatedFile [] updates) ↔ True) := fun hparsed hfields =>
    iff_true_intro (updated_of_noFields hparsed hfields)
  cases old with
  | absent => exact hnone trivial fun _ => rfl
  | unreadable => exact ⟨fun h => h.parsed, False.elim⟩
  | empty => exact hnone trivial fun _ => rfl
  | malformed content => exact ⟨fun h => h.parsed, False.elim⟩
  | document value =>
    cases value with
    | obj entries => exact updated_object_iff
    | arr items => exact updated_array_iff
    | _ => exact hnone trivial fun _ => rfl

/-- **What an update keeps.** A write of the config preserves the file exactly if it fails,
or the file could be merged into. -/
theorem preserves_iff (projectConfigPath tempPath : String) (updates : ProjectConfigUpdates)
    (written moved : Bool) (old : ConfigFile) :
    Preserves updates old
        (writeProjectConfig projectConfigPath tempPath updates written moved old) ↔
      written = false ∨ moved = false ∨ Mergeable updates old := by
  unfold writeProjectConfig writeJsonAtomicStrict
  dsimp only
  cases written with
  | false =>
    rw [if_pos rfl]
    exact iff_of_true (.inl ⟨_, rfl⟩) (.inl rfl)
  | true =>
    rw [if_neg Bool.noConfusion]
    cases moved with
    | false =>
      rw [if_pos rfl]
      exact iff_of_true (.inl ⟨_, rfl⟩) (.inr (.inl rfl))
    | true =>
      rw [if_neg Bool.noConfusion, ← updated_iff_mergeable]
      constructor
      · rintro (⟨e, he⟩ | ⟨-, hupdated⟩)
        · cases he
        · exact .inr (.inr hupdated)
      · rintro (h | h | hupdated)
        · cases h
        · cases h
        · exact .inr ⟨rfl, hupdated⟩

def strayComma : ConfigFile :=
  .malformed "\x7b\"setupScripts\": [\"bun install\"],\x7d"

theorem not_preserves_strayComma : ¬ Preserves { shortName := some "LAB" } strayComma
        (writeProjectConfig "/project/laborer.json" "/project/laborer.json.tmp"
          { shortName := some "LAB" } true true strayComma) := by
  rintro (⟨e, he⟩ | ⟨-, hupdated⟩)
  · cases he
  · exact hupdated.parsed

end Laborer.Config
