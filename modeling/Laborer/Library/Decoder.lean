import Laborer.Library.JsValue

/-!
# Decoders

Checks of a value whose shape is not known, which give back the value as its type
describes it: the fields of a structure in the order of their declaration, with their
defaults, and no others.
-/

namespace Laborer.Library

open List Option

abbrev Decoder := JsValue → Option JsValue

namespace Decoder

def unknown : Decoder := some

def number : Decoder
  | .num n => some (.num n)
  | .nonFinite => some .nonFinite
  | _ => none

/-- `Number.isSafeInteger`. -/
def isSafeInteger (n : ℚ) : Bool :=
  n.den = 1 && n.num.natAbs < 2 ^ 53

theorem isSafeInteger_nat (n : ℕ) : isSafeInteger n = decide (n < 2 ^ 53) := by
  rfl

def int (check : ℚ → Bool) : Decoder
  | .num n => if isSafeInteger n && check n then some (.num n) else none
  | _ => none

def boolean : Decoder
  | .bool b => some (.bool b)
  | _ => none

def string (check : String → Bool) : Decoder
  | .str s => if check s then some (.str s) else none
  | _ => none

def literals (options : List String) : Decoder :=
  string (options.contains ·)

def nullOr (decode : Decoder) : Decoder
  | .null => some .null
  | v => decode v

def array (decode : Decoder) : Decoder
  | .arr items => (items.mapM decode).map .arr
  | _ => none

inductive Presence where
  | required
  | optional
  | byDefault (value : JsValue)

structure Field where
  name : String
  presence : Presence
  decode : Decoder

/-- What a structure has of a field: the field or nothing. -/
def Field.part (field : Field) (entries : List (String × JsValue)) :
    Option (List (String × JsValue)) :=
  match entries.lookup field.name with
  | some value => (field.decode value).map fun decoded => [(field.name, decoded)]
  | none =>
    match field.presence with
    | .required => none
    | .optional => some []
    | .byDefault value => some [(field.name, value)]

/-- A structure, which has its fields and no other property. -/
def struct (fields : List Field) : Decoder
  | .obj entries =>
    if entries.all fun entry => fields.any fun field => field.name = entry.1 then
      (fields.mapM fun field : Field => field.part entries).map fun parts => .obj parts.flatten
    else none
  | _ => none

def orElse (first second : Decoder) : Decoder := fun v =>
  (first v).or (second v)

theorem isSome_mapM {α β : Type} (f : α → Option β) (xs : List α) :
    (xs.mapM f).isSome = xs.all fun x => (f x).isSome := by
  induction xs with
  | nil => rfl
  | cons x xs ih =>
    rw [mapM_cons, all_cons, ← ih]
    cases f x <;> cases xs.mapM f <;> rfl

theorem mapM_cons_eq_some {α β : Type} {f : α → Option β} {x : α} {xs : List α} {ys : List β} :
    (x :: xs).mapM f = some ys ↔ ∃ y ys', f x = some y ∧ xs.mapM f = some ys' ∧ ys = y :: ys' := by
  rw [mapM_cons]
  cases f x <;> cases xs.mapM f <;> simp [eq_comm]

theorem isSome_struct (fields : List Field) (entries : List (String × JsValue)) :
    (struct fields (.obj entries)).isSome =
      ((entries.all fun entry => fields.any fun field => field.name = entry.1) &&
        fields.all fun field => (field.part entries).isSome) := by
  rw [← isSome_mapM, struct]
  split
  · next h => rw [h, isSome_map, Bool.true_and]
  · next h => simp [h]

variable {entries : List (String × JsValue)} {field : Field}

theorem Field.part_cases {part : List (String × JsValue)} (h : field.part entries = some part) :
    (part = [] ∧ field.presence = .optional) ∨
      (∃ raw decoded, field.decode raw = some decoded ∧ part = [(field.name, decoded)]) ∨
        ∃ value, field.presence = .byDefault value ∧ part = [(field.name, value)] := by
  unfold Field.part at h
  split at h
  · next raw _ =>
    obtain ⟨decoded, hdecoded, rfl⟩ := map_eq_some_iff.mp h
    exact .inr (.inl ⟨raw, decoded, hdecoded, rfl⟩)
  · split at h
    · cases h
    · next hpresence =>
      cases h
      exact .inl ⟨rfl, hpresence⟩
    · next value hpresence =>
      cases h
      exact .inr (.inr ⟨value, hpresence, rfl⟩)

theorem Field.part_names {part : List (String × JsValue)}
    (h : field.part entries = some part) : (part.map Prod.fst).Sublist [field.name] := by
  rcases Field.part_cases h with ⟨rfl, -⟩ | ⟨raw, decoded, -, rfl⟩ | ⟨value, -, rfl⟩
  · exact nil_sublist _
  · exact List.Sublist.refl _
  · exact List.Sublist.refl _

variable {fields : List Field}

theorem names_parts {parts : List (List (String × JsValue))}
    (h : (fields.mapM fun field : Field => field.part entries) = some parts) :
    (parts.flatten.map Prod.fst).Sublist (fields.map (·.name)) := by
  induction fields generalizing parts with
  | nil =>
    cases h
    exact List.Sublist.refl _
  | cons field fields ih =>
    obtain ⟨part, parts', hpart, hparts, rfl⟩ := mapM_cons_eq_some.mp h
    rw [flatten_cons, map_append, map_cons]
    exact (Field.part_names hpart).append (ih hparts)

theorem lookup_parts {parts : List (List (String × JsValue))} (hnodup : (fields.map (·.name)).Nodup)
    (h : (fields.mapM fun field : Field => field.part entries) = some parts)
    (hfield : field ∈ fields) : ∃ part, field.part entries = some part ∧
      parts.flatten.lookup field.name = part.lookup field.name := by
  induction fields generalizing parts with
  | nil => cases hfield
  | cons first fields ih =>
    obtain ⟨part, parts', hpart, hparts, rfl⟩ := mapM_cons_eq_some.mp h
    rw [map_cons, nodup_cons] at hnodup
    rw [flatten_cons, lookup_append]
    rcases mem_cons.mp hfield with rfl | hfield
    · refine ⟨part, hpart, ?_⟩
      have hlater : parts'.flatten.lookup field.name = none := by
        rw [lookup_eq_none_iff]
        intro entry hentry
        have hname := (names_parts hparts).subset (mem_map_of_mem hentry)
        simp only [ne_eq, bne_iff_ne]
        exact fun heq => hnodup.1 (heq ▸ hname)
      rw [hlater, or_none]
    · obtain ⟨part', hpart', hlookup⟩ := ih hnodup.2 hparts hfield
      refine ⟨part', hpart', ?_⟩
      have hfirst : part.lookup field.name = none := by
        rw [lookup_eq_none_iff]
        intro entry hentry
        have hname := (Field.part_names hpart).subset (mem_map_of_mem hentry)
        simp only [ne_eq, bne_iff_ne]
        intro heq
        rw [mem_singleton] at hname
        exact hnodup.1 (mem_map.mpr ⟨field, hfield, heq.trans hname⟩)
      rw [hfirst, none_or, hlookup]

theorem struct_eq_some {v w : JsValue} :
    struct fields v = some w ↔ ∃ entries parts, v = .obj entries ∧
      (entries.all fun entry => fields.any fun field => field.name = entry.1) = true ∧
        (fields.mapM fun field : Field => field.part entries) = some parts ∧
          w = .obj parts.flatten := by
  constructor
  · intro h
    cases v with
    | obj entries =>
      rw [struct] at h
      split at h
      · next hnames =>
        obtain ⟨parts, hparts, rfl⟩ := map_eq_some_iff.mp h
        exact ⟨entries, parts, rfl, hnames, hparts, rfl⟩
      · cases h
    | _ => cases h
  · rintro ⟨entries, parts, rfl, hnames, hparts, rfl⟩
    rw [struct, if_pos hnames, hparts]
    rfl

/-! ## Decoding twice -/

/-- What the decoder gave, it gives once more. -/
def IsSettled (decode : Decoder) : Prop :=
  ∀ v w, decode v = some w → decode w = some w

theorem isSettled_number : IsSettled number := by
  intro v w h
  cases v with
  | num n =>
    cases h
    rfl
  | nonFinite =>
    cases h
    rfl
  | _ => cases h

theorem isSettled_string (check : String → Bool) : IsSettled (string check) := by
  intro v w h
  cases v with
  | str s =>
    rw [string] at h
    split at h
    · next hs =>
      cases h
      exact if_pos hs
    · cases h
  | _ => cases h

/-- A field whose values, its default among them, are decoded to themselves. -/
structure Field.IsSettled (field : Field) : Prop where
  decode : Decoder.IsSettled field.decode
  default : ∀ value, field.presence = .byDefault value → field.decode value = some value

theorem Field.IsSettled.part (hfield : field.IsSettled)
    {entries' part : List (String × JsValue)} (h : field.part entries = some part)
    (hlookup : entries'.lookup field.name = part.lookup field.name) :
    field.part entries' = some part := by
  have hvalue : ∀ value, field.decode value = some value → part = [(field.name, value)] →
      field.part entries' = some part := by
    rintro value hdecode rfl
    unfold Field.part
    rw [hlookup, lookup_cons_self]
    show (field.decode value).map _ = _
    rw [hdecode]
    rfl
  rcases Field.part_cases h with ⟨rfl, hoptional⟩ | ⟨raw, value, hraw, heq⟩ | ⟨value, hdefault, heq⟩
  · unfold Field.part
    rw [hlookup, hoptional]
    rfl
  · exact hvalue value (hfield.decode raw value hraw) heq
  · exact hvalue value (hfield.default value hdefault) heq

theorem isSettled_struct (hnodup : (fields.map (·.name)).Nodup)
    (hfields : ∀ field ∈ fields, field.IsSettled) : IsSettled (struct fields) := by
  intro v w h
  obtain ⟨entries, parts, rfl, -, hparts, rfl⟩ := struct_eq_some.mp h
  have hlookup : ∀ field ∈ fields, ∃ part, field.part entries = some part ∧
      parts.flatten.lookup field.name = part.lookup field.name :=
    fun field hfield => lookup_parts hnodup hparts hfield
  refine struct_eq_some.mpr ⟨parts.flatten, parts, rfl, ?_, ?_, rfl⟩
  · rw [List.all_eq_true]
    intro entry hentry
    have hname := (names_parts hparts).subset (mem_map_of_mem hentry)
    obtain ⟨field, hfield, heq⟩ := mem_map.mp hname
    exact any_eq_true.mpr ⟨field, hfield, decide_eq_true heq⟩
  · -- the object stays the same, the fields are gone through
    clear h
    generalize parts.flatten = object at hlookup
    induction fields generalizing parts with
    | nil => exact hparts
    | cons field fields ih =>
      obtain ⟨part, rest, hpart, hrest, rfl⟩ := mapM_cons_eq_some.mp hparts
      rw [forall_mem_cons] at hfields hlookup
      rw [map_cons, nodup_cons] at hnodup
      obtain ⟨part', hpart', heq⟩ := hlookup.1
      rw [hpart] at hpart'
      cases hpart'
      exact mapM_cons_eq_some.mpr ⟨part, rest, hfields.1.part hpart heq,
        ih hnodup.2 hfields.2 rest hrest hlookup.2, rfl⟩

theorem isSettled_orElse {first second : Decoder} (hfirst : IsSettled first)
    (hsecond : IsSettled second) (hdisjoint : ∀ v w, second v = some w → first w = none) :
    IsSettled (orElse first second) := by
  intro v w h
  rcases or_eq_some_iff.mp h with h | ⟨-, h⟩
  · rw [orElse, hfirst v w h, some_or]
  · rw [orElse, hdisjoint v w h, none_or, hsecond v w h]

end Decoder

/-! ## The fields of an object -/

variable {α : Type*}

theorem lookup_eq_some_iff {entries : List (String × α)}
    (hnodup : (entries.map Prod.fst).Nodup) {key : String} {value : α} :
    entries.lookup key = some value ↔ (key, value) ∈ entries := by
  induction entries with
  | nil => simp
  | cons entry entries ih =>
    obtain ⟨key', value'⟩ := entry
    rw [map_cons, nodup_cons] at hnodup
    rw [lookup_cons, mem_cons, ← ih hnodup.2]
    by_cases hkey : key = key'
    · subst hkey
      have hnone : entries.lookup key ≠ some value := by
        intro h
        exact hnodup.1 (mem_map.mpr ⟨_, (ih hnodup.2).mp h, rfl⟩)
      simp [hnone, eq_comm]
    · have hfalse : (key == key') = false := by simpa using hkey
      simp [hfalse, hkey]

theorem lookup_perm {entries entries' : List (String × α)} (h : entries.Perm entries')
    (hnodup : (entries.map Prod.fst).Nodup) (key : String) :
    entries.lookup key = entries'.lookup key := by
  apply Option.ext
  intro value
  rw [lookup_eq_some_iff hnodup, lookup_eq_some_iff ((h.map Prod.fst).nodup_iff.mp hnodup),
    h.mem_iff]

theorem lookup_map {β : Type*} (f : α → β) (entries : List (String × α)) (key : String) :
    (entries.map fun entry => (entry.1, f entry.2)).lookup key = (entries.lookup key).map f := by
  induction entries with
  | nil => rfl
  | cons entry entries ih =>
    rw [map_cons, lookup_cons, lookup_cons, ih]
    split <;> rfl

end Laborer.Library
