import Laborer.DurableRuntime.CanonicalValue
import Laborer.DurableRuntime.Schemas

/-!
# Decoded values

The members and the tags of the structures that the decoders accept, before and after they
are stored as canonical text.
-/

namespace Laborer.DurableRuntime

open Library JsValue List

variable {platform : Platform} {name : String} {v w : JsValue} {fields : List Decoder.Field}

/-! ## The properties of a stored object -/

/-- A name that NFC leaves alone. -/
def IsNormal (platform : Platform) (s : String) : Prop :=
  platform.normalize s = s

theorem isNormal_literal (hlawful : platform.Lawful) {s : String}
    (h : s.toList.all (fun c => c.toNat < 0x80) = true) : IsNormal platform s := by
  apply hlawful.normalize_ascii
  simpa using h

theorem member_canonicalText {entries : List (String × JsValue)}
    (hnormal : ∀ entry ∈ entries, IsNormal platform entry.1)
    (hnodup : (entries.map Prod.fst).Nodup) (name : String) :
    member name (canonicalText platform (.obj entries)).value =
      (entries.lookup name).map fun value => (canonicalText platform value).value := by
  rw [canonicalText_obj, member, arrange_map fun value => (canonicalText platform value).value,
    lookup_map fun value => (canonicalText platform value).value]
  congr 1
  have hperm : (arrange platform entries).Perm entries := by
    refine (arrange_perm entries).trans ?_
    rw [map_congr_left (g := id), map_id]
    intro entry hentry
    exact Prod.ext (hnormal entry hentry) rfl
  exact lookup_perm hperm ((hperm.map _).nodup_iff.mpr hnodup) name

/-! ## The schemas -/

theorem literals_singleton
    (h : Decoder.literals [name] v = some w) : v = .str name ∧ w = .str name := by
  cases v with
  | str s =>
    rw [Decoder.literals, Decoder.string] at h
    split at h
    · next hs =>
      cases h
      rw [contains_iff_mem, mem_singleton] at hs
      rw [hs]
      exact ⟨rfl, rfl⟩
    · cases h
  | _ => cases h

theorem member_tag_of_struct
    (h : Decoder.struct (tag name :: fields) v = some w) : member "_tag" v = some (.str name) := by
  obtain ⟨entries, parts, rfl, -, hparts, rfl⟩ := Decoder.struct_eq_some.mp h
  obtain ⟨part, rest, hpart, -, rfl⟩ := Decoder.mapM_cons_eq_some.mp hparts
  unfold Decoder.Field.part at hpart
  show entries.lookup "_tag" = _
  cases hlookup : entries.lookup "_tag" with
  | none =>
    have hnone : entries.lookup (tag name).name = none := hlookup
    rw [hnone] at hpart
    cases hpart
  | some raw =>
    have hsome : entries.lookup (tag name).name = some raw := hlookup
    rw [hsome] at hpart
    obtain ⟨decoded, hdecoded, -⟩ := Option.map_eq_some_iff.mp hpart
    rw [(literals_singleton hdecoded).1]

theorem member_tag (hnodup : ((tag name :: fields).map (·.name)).Nodup)
    (h : Decoder.struct (tag name :: fields) v = some w) : member "_tag" w = some (.str name) := by
  obtain ⟨entries, parts, -, -, hparts, rfl⟩ := Decoder.struct_eq_some.mp h
  obtain ⟨part, hpart, hlookup⟩ := Decoder.lookup_parts hnodup hparts mem_cons_self
  refine hlookup.trans ?_
  rcases Decoder.Field.part_cases hpart with ⟨-, hoptional⟩ | ⟨raw, value, hraw, rfl⟩ |
    ⟨value, hdefault, -⟩
  · cases hoptional
  · rw [(literals_singleton hraw).2]
    rfl
  · cases hdefault

theorem names_struct (h : Decoder.struct fields v = some w) : ∃ entries, w = .obj entries ∧
      (entries.map Prod.fst).Sublist (fields.map (·.name)) := by
  obtain ⟨entries, parts, -, -, hparts, rfl⟩ := Decoder.struct_eq_some.mp h
  exact ⟨_, rfl, Decoder.names_parts hparts⟩

end Laborer.DurableRuntime
