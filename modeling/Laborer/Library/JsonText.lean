import Laborer.Library.JsValue

/-!
# Values written and read again

What `JSON.parse` makes of the text of `JSON.stringify`. Only a value that is data, with
finite numbers, comes back as it was.
-/

namespace Laborer.Library

open List

namespace JsValue

/-- A value that is written and read again. What is no data has no text: it is left out of
an object and becomes `null` in an array. -/
def reread : JsValue → Option JsValue :=
  fold
    (fun
      | .nonFinite => some .null
      | .other => none
      | v => some v)
    (fun items => some (.arr (items.map fun item => item.getD .null)))
    fun entries => some (.obj (entries.filterMap fun entry => entry.2.map (entry.1, ·)))

def rereadEntries (entries : List (String × JsValue)) : List (String × JsValue) :=
  entries.filterMap fun entry => entry.2.reread.map (entry.1, ·)

/-- Data, and no number that is not finite. -/
def isPlain : JsValue → Bool :=
  fold
    (fun
      | .nonFinite => false
      | .other => false
      | _ => true)
    (fun items => items.all id)
    fun entries => entries.all Prod.snd

theorem reread_arr (items : List JsValue) :
    (arr items).reread = some (.arr (items.map fun item => item.reread.getD .null)) := by
  unfold reread
  rw [fold_arr, map_map]
  rfl

theorem reread_obj (entries : List (String × JsValue)) :
    (obj entries).reread = some (.obj (rereadEntries entries)) := by
  unfold reread rereadEntries
  rw [fold_obj, filterMap_map]
  rfl

theorem isPlain_arr (items : List JsValue) : (arr items).isPlain = items.all isPlain := by
  unfold isPlain
  rw [fold_arr, all_map]
  rfl

theorem isPlain_obj (entries : List (String × JsValue)) :
    (obj entries).isPlain = entries.all fun entry => entry.2.isPlain := by
  unfold isPlain
  rw [fold_obj, all_map]
  rfl

theorem reread_of_isPlain {v : JsValue} : v.isPlain = true → v.reread = some v := by
  induction v using partsInduction with intro h
  | scalar v hscalar =>
    cases v with
    | nonFinite => cases h
    | other => cases h
    | arr items => exact hscalar.elim
    | obj entries => exact hscalar.elim
    | _ => rfl
  | array items ih =>
    rw [isPlain_arr, all_eq_true] at h
    rw [reread_arr]
    have hitems : items.map (fun item => item.reread.getD .null) = items.map id := by
      apply map_congr_left
      intro item hitem
      rw [ih item hitem (h item hitem)]
      rfl
    rw [hitems, map_id]
  | object entries ih =>
    rw [isPlain_obj, all_eq_true] at h
    rw [reread_obj]
    have hentries : rereadEntries entries = entries.filterMap some := by
      apply filterMap_congr
      intro entry hentry
      rw [ih entry hentry (h entry hentry)]
      rfl
    rw [hentries, filterMap_some]

theorem isPlain_of_reread {v w : JsValue} : v.reread = some w → w.isPlain = true := by
  induction v using partsInduction generalizing w with intro h
  | scalar v hscalar =>
    cases v with
    | other => cases h
    | arr items => exact hscalar.elim
    | obj entries => exact hscalar.elim
    | _ =>
      cases h
      rfl
  | array items ih =>
    rw [reread_arr] at h
    cases h
    rw [isPlain_arr, all_eq_true]
    intro w hw
    obtain ⟨item, hitem, rfl⟩ := mem_map.mp hw
    cases hread : item.reread with
    | none => rfl
    | some w => exact ih item hitem hread
  | object entries ih =>
    rw [reread_obj] at h
    cases h
    rw [isPlain_obj, all_eq_true]
    intro entry' hmem
    obtain ⟨entry, hentry, hmap⟩ := mem_filterMap.mp hmem
    obtain ⟨w, hread, rfl⟩ := Option.map_eq_some_iff.mp hmap
    exact ih entry hentry hread

theorem rereadEntries_cons (entry : String × JsValue) (entries : List (String × JsValue)) :
    rereadEntries (entry :: entries) =
      (entry.2.reread.map (entry.1, ·)).toList ++ rereadEntries entries := by
  unfold rereadEntries
  rw [filterMap_cons]
  cases entry.2.reread <;> rfl

theorem isPlain_of_mem_rereadEntries {entries : List (String × JsValue)} {entry : String × JsValue}
    (h : entry ∈ rereadEntries entries) : entry.2.isPlain = true := by
  obtain ⟨_, -, hmap⟩ := mem_filterMap.mp h
  obtain ⟨w, hread, rfl⟩ := Option.map_eq_some_iff.mp hmap
  exact isPlain_of_reread hread

end JsValue

end Laborer.Library
