import Laborer.Library.LineTexts
import Laborer.Library.OrderedMap

/-!
# The status of the files of a working tree

`git status -z --porcelain=v2` lists entries that end in a NUL, those of a renamed or copied
file in two parts. The parser goes through the parts, takes the status characters and the
path of each entry by position, and keeps the most severe status of each path.
-/

namespace Laborer.Files

open Library List OrderedMap

abbrev Units := List UInt16

def NUL : UInt16 := 0

def SPACE : UInt16 := 0x20

inductive GitStatus where
  | added
  | modified
  | deleted
deriving DecidableEq

structure GitStatusEntry where
  path : Units
  status : GitStatus

def SEVERITY : GitStatus → ℕ
  | .added => 1
  | .modified => 2
  | .deleted => 3

def mapStatusChar (char : UInt16) : Option GitStatus :=
  if [char] = codeUnits "M" ∨ [char] = codeUnits "T" then some .modified
  else if [char] = codeUnits "A" then some .added
  else if [char] = codeUnits "D" then some .deleted
  else if [char] = codeUnits "R" ∨ [char] = codeUnits "C" then some .modified
  else none

/-! ## The accumulator -/

/-- What every object inherits from `Object.prototype`. -/
def OBJECT_PROTOTYPE : List Units :=
  ["constructor", "__defineGetter__", "__defineSetter__", "hasOwnProperty", "__lookupGetter__",
    "__lookupSetter__", "isPrototypeOf", "propertyIsEnumerable", "toString", "valueOf",
    "__proto__", "toLocaleString"].map codeUnits

def PROTO : Units := codeUnits "__proto__"

/-- What a read of `acc.map[path]` finds. -/
inductive PropertyValue where
  | status (status : GitStatus)
  | inherited

structure StatusAccumulator where
  map : OrderedMap Units GitStatus

namespace StatusAccumulator

def read (path : Units) (acc : StatusAccumulator) : Option PropertyValue :=
  match acc.map.get? path with
  | some status => some (.status status)
  | none => if path ∈ OBJECT_PROTOTYPE then some .inherited else none

/-- `acc.map[path] = status`; the setter of `__proto__` ignores what is no object. -/
def assign (path : Units) (status : GitStatus) (acc : StatusAccumulator) : StatusAccumulator :=
  if path = PROTO then acc else ⟨acc.map.set path status⟩

end StatusAccumulator

def mergeStatuses (a : PropertyValue) (b : GitStatus) : GitStatus :=
  match a with
  | .status a => if SEVERITY b ≤ SEVERITY a then a else b
  -- `SEVERITY[a] ?? 0`: what is no status has severity 0
  | .inherited => b

def addEntry (path : Units) (status : GitStatus) (acc : StatusAccumulator) : StatusAccumulator :=
  match acc.read path with
  | some existing => acc.assign path (mergeStatuses existing status)
  | none => acc.assign path status

def applyXYStatus (path : Units) (x y : UInt16) (acc : StatusAccumulator) : StatusAccumulator :=
  let indexed := (mapStatusChar x).elim acc fun indexStatus => addEntry path indexStatus acc
  (mapStatusChar y).elim indexed fun wtStatus => addEntry path wtStatus indexed

/-! ## The entries -/

def DOT : UInt16 := 0x2e

def extractXY (line : Units) : UInt16 × UInt16 := (line.getD 2 DOT, line.getD 3 DOT)

def extractPathFrom (n : ℕ) : ℕ → Units → Units
  | _, [] => []
  | spaceCount, c :: line =>
    if c = SPACE then
      if spaceCount + 1 = n then line else extractPathFrom n (spaceCount + 1) line
    else extractPathFrom n spaceCount line

def extractPathAfterNSpaces (line : Units) (n : ℕ) : Units := extractPathFrom n 0 line

def extractPathFromOrdinary (line : Units) : Units := extractPathAfterNSpaces line 8

def extractPathFromRename (line : Units) : Units := extractPathAfterNSpaces line 9

def extractPathFromUnmerged (line : Units) : Units := extractPathAfterNSpaces line 10

def processOrdinaryEntry (part : Units) (acc : StatusAccumulator) : StatusAccumulator × ℕ :=
  let (x, y) := extractXY part
  (applyXYStatus (extractPathFromOrdinary part) x y acc, 1)

def processRenameEntry (part : Units) (nextPart : Option Units) (acc : StatusAccumulator) :
    StatusAccumulator × ℕ :=
  let (x, y) := extractXY part
  let origPath := nextPart.getD []
  let applied := applyXYStatus (extractPathFromRename part) x y acc
  (if 0 < origPath.length then addEntry origPath .deleted applied else applied, 2)

def processUnmergedEntry (part : Units) (acc : StatusAccumulator) : StatusAccumulator × ℕ :=
  (addEntry (extractPathFromUnmerged part) .modified acc, 1)

def processUntrackedEntry (part : Units) (acc : StatusAccumulator) : StatusAccumulator × ℕ :=
  (addEntry (part.drop 2) .added acc, 1)

/-- The accumulator after the entry, and how many parts it took. -/
def dispatchEntry (part : Units) (nextPart : Option Units) (acc : StatusAccumulator) :
    StatusAccumulator × ℕ :=
  let type := part.take 1
  if type = codeUnits "1" then processOrdinaryEntry part acc
  else if type = codeUnits "2" then processRenameEntry part nextPart acc
  else if type = codeUnits "u" then processUnmergedEntry part acc
  else if type = codeUnits "?" then processUntrackedEntry part acc
  else (acc, 1)

def processParts : List Units → StatusAccumulator → StatusAccumulator
  | [], acc => acc
  | part :: rest, acc =>
    if part = [] then processParts rest acc
    else
      let dispatched := dispatchEntry part rest.head? acc
      -- an entry takes one part or two
      match rest with
      | [] => dispatched.1
      | next :: later =>
        if dispatched.2 = 2 then processParts later dispatched.1
        else processParts (next :: later) dispatched.1

def gitStatusEntryOrder (a b : GitStatusEntry) : Bool := a.path ≤ b.path

def parseGitStatusV2 (output : Units) : List GitStatusEntry :=
  if output.length = 0 then []
  else
    let acc := processParts (output.splitOn NUL) ⟨[]⟩
    (acc.map.map fun (path, status) => ⟨path, status⟩).mergeSort gitStatusEntryOrder

/-! ## What an accumulator knows -/

/-- The most severe of the statuses given to the path. -/
def IsWorst (gives : List (Units × GitStatus)) (path : Units) (status : GitStatus) : Prop :=
  (path, status) ∈ gives ∧ ∀ other, (path, other) ∈ gives → SEVERITY other ≤ SEVERITY status

theorem severity_injective {a b : GitStatus} (h : SEVERITY a = SEVERITY b) : a = b := by
  cases a <;> cases b <;> first | rfl | cases h

theorem IsWorst.unique {gives : List (Units × GitStatus)} {path : Units} {a b : GitStatus}
    (ha : IsWorst gives path a) (hb : IsWorst gives path b) : a = b :=
  severity_injective (Nat.le_antisymm (hb.2 a ha.1) (ha.2 b hb.1))

/-- The accumulator has the most severe status of every path but the one whose setter takes
none. -/
structure Accumulates (gives : List (Units × GitStatus)) (acc : StatusAccumulator) : Prop where
  nodup : (acc.map.map Prod.fst).Nodup
  worst : ∀ path status,
    acc.map.get? path = some status ↔ path ≠ PROTO ∧ IsWorst gives path status

theorem addEntry_eq (path : Units) (status : GitStatus) (acc : StatusAccumulator) :
    addEntry path status acc = acc.assign path ((acc.map.get? path).elim status fun old =>
      if SEVERITY status ≤ SEVERITY old then old else status) := by
  unfold addEntry StatusAccumulator.read
  cases acc.map.get? path with
  | some old => rfl
  | none =>
    dsimp only
    split
    · next hread =>
      split at hread
      · cases hread
        rfl
      · cases hread
    · rfl

section Accumulator

variable {gives : List (Units × GitStatus)} {acc : StatusAccumulator} {status : GitStatus}

theorem IsWorst.of_concat {path : Units} {given : Units × GitStatus}
    (hpath : given.1 ≠ path) :
    IsWorst (gives ++ [given]) path status ↔ IsWorst gives path status := by
  have hmem : ∀ other, (path, other) ∈ gives ++ [given] ↔ (path, other) ∈ gives := by
    intro other
    rw [mem_append, mem_singleton, or_iff_left]
    rintro rfl
    exact hpath rfl
  unfold IsWorst
  simp only [hmem]

theorem severity_le_deleted (status : GitStatus) : SEVERITY status ≤ SEVERITY .deleted := by
  cases status <;> decide

/-- A path that was given a status has a most severe one. -/
theorem exists_isWorst {path : Units} (h : (path, status) ∈ gives) :
    ∃ worst, IsWorst gives path worst := by
  by_cases hdeleted : (path, .deleted) ∈ gives
  · exact ⟨.deleted, hdeleted, fun other _ => severity_le_deleted other⟩
  by_cases hmodified : (path, .modified) ∈ gives
  · refine ⟨.modified, hmodified, fun other hother => ?_⟩
    cases other with
    | deleted => exact absurd hother hdeleted
    | _ => decide
  · -- only additions are left
    refine ⟨status, h, fun other hother => ?_⟩
    cases status with
    | deleted => exact absurd h hdeleted
    | modified => exact absurd h hmodified
    | added =>
      cases other with
      | deleted => exact absurd hother hdeleted
      | modified => exact absurd hother hmodified
      | added => exact Nat.le_refl _

theorem isWorst_first {path : Units}
    (h : ∀ other, (path, other) ∉ gives) : IsWorst (gives ++ [(path, status)]) path status := by
  refine ⟨mem_append_right _ (mem_singleton_self _), fun other hother => ?_⟩
  rcases mem_append.mp hother with hother | hother
  · exact absurd hother (h other)
  · cases mem_singleton.mp hother
    exact Nat.le_refl _

theorem isWorst_merged {path : Units} {old : GitStatus} (h : IsWorst gives path old) :
    IsWorst (gives ++ [(path, status)]) path
      (if SEVERITY status ≤ SEVERITY old then old else status) := by
  split
  · next hle =>
    refine ⟨mem_append_left _ h.1, fun other hother => ?_⟩
    rcases mem_append.mp hother with hother | hother
    · exact h.2 other hother
    · cases mem_singleton.mp hother
      exact hle
  · next hlt =>
    refine ⟨mem_append_right _ (mem_singleton_self _), fun other hother => ?_⟩
    rcases mem_append.mp hother with hother | hother
    · exact (h.2 other hother).trans (Nat.le_of_not_le hlt)
    · cases mem_singleton.mp hother
      exact Nat.le_refl _

theorem addEntry_accumulates (path : Units) (status : GitStatus) (h : Accumulates gives acc) :
    Accumulates (gives ++ [(path, status)]) (addEntry path status acc) := by
  rw [addEntry_eq]
  unfold StatusAccumulator.assign
  by_cases hproto : path = PROTO
  · rw [if_pos hproto]
    refine ⟨h.nodup, fun other old => ?_⟩
    rw [h.worst]
    refine and_congr_right fun hother => (IsWorst.of_concat ?_).symm
    exact fun hsame => hother (hsame.symm.trans hproto)
  · rw [if_neg hproto]
    refine ⟨nodup_keys_set _ _ h.nodup, fun other old => ?_⟩
    rw [get?_set]
    by_cases hother : path = other
    · subst hother
      rw [if_pos rfl, Option.some.injEq, and_iff_right hproto]
      -- what is stored is the most severe status, and there is one only
      suffices hworst : IsWorst (gives ++ [(path, status)]) path
          ((acc.map.get? path).elim status fun old =>
            if SEVERITY status ≤ SEVERITY old then old else status) from
        ⟨fun heq => heq ▸ hworst, fun hold => hworst.unique hold⟩
      cases hget : acc.map.get? path with
      | some prior => exact isWorst_merged ((h.worst path prior).mp hget).2
      | none =>
        refine isWorst_first fun prior hprior => ?_
        obtain ⟨worst, hworst⟩ := exists_isWorst hprior
        rw [(h.worst path worst).mpr ⟨hproto, hworst⟩] at hget
        cases hget
    · rw [if_neg hother, h.worst]
      exact and_congr_right fun _ => (IsWorst.of_concat hother).symm

def addAll (gives : List (Units × GitStatus)) (acc : StatusAccumulator) : StatusAccumulator :=
  gives.foldl (fun acc given => addEntry given.1 given.2 acc) acc

theorem addAll_append (later : List (Units × GitStatus)) :
    addAll (gives ++ later) acc = addAll later (addAll gives acc) := List.foldl_append

theorem addAll_accumulates {earlier : List (Units × GitStatus)} (h : Accumulates earlier acc) :
    Accumulates (earlier ++ gives) (addAll gives acc) := by
  induction gives generalizing earlier acc with
  | nil =>
    rw [append_nil]
    exact h
  | cons given gives ih =>
    have hnext := ih (addEntry_accumulates given.1 given.2 h)
    rw [append_assoc] at hnext
    exact hnext

end Accumulator

/-! ## What git reports -/

abbrev Field := { field : Units // SPACE ∉ field ∧ NUL ∉ field }

/-- A path that git can report: any but the empty one, without NUL. -/
abbrev GitPath := { path : Units // path ≠ [] ∧ NUL ∉ path }

structure XY where
  x : UInt16
  y : UInt16
  hx : x ≠ SPACE ∧ x ≠ NUL
  hy : y ≠ SPACE ∧ y ≠ NUL

inductive StatusEntry where
  | ordinary (xy : XY) (sub mH mI mW hH hI : Field) (path : GitPath)
  | renamed (xy : XY) (sub mH mI mW hH hI score : Field) (path origPath : GitPath)
  | copied (xy : XY) (sub mH mI mW hH hI score : Field) (path origPath : GitPath)
  | unmerged (xy : XY) (sub m1 m2 m3 mW h1 h2 h3 : Field) (path : GitPath)
  | untracked (path : GitPath)
  | ignored (path : GitPath)

/-- Columns with a space after each, and the path. -/
def line (fields : List Units) (path : Units) : Units :=
  fields.flatMap (fun field => field ++ [SPACE]) ++ path

namespace StatusEntry

def parts : StatusEntry → List Units
  | ordinary xy sub mH mI mW hH hI path =>
    [line [codeUnits "1", [xy.x, xy.y], sub, mH, mI, mW, hH, hI] path]
  | renamed xy sub mH mI mW hH hI score path origPath =>
    [line [codeUnits "2", [xy.x, xy.y], sub, mH, mI, mW, hH, hI, codeUnits "R" ++ score] path,
      origPath]
  | copied xy sub mH mI mW hH hI score path origPath =>
    [line [codeUnits "2", [xy.x, xy.y], sub, mH, mI, mW, hH, hI, codeUnits "C" ++ score] path,
      origPath]
  | unmerged xy sub m1 m2 m3 mW h1 h2 h3 path =>
    [line [codeUnits "u", [xy.x, xy.y], sub, m1, m2, m3, mW, h1, h2, h3] path]
  | untracked path => [line [codeUnits "?"] path]
  | ignored path => [line [codeUnits "!"] path]

def encode (entries : List StatusEntry) : Units :=
  (entries.flatMap parts).flatMap fun part => part ++ [NUL]

def ofXY (xy : XY) (path : Units) : List (Units × GitStatus) :=
  [xy.x, xy.y].filterMap fun char => (mapStatusChar char).map (path, ·)

/-- The statuses that an entry gives, with those that a copy gives to its original. -/
def gives (ofOriginal : Units → List (Units × GitStatus)) : StatusEntry → List (Units × GitStatus)
  | ordinary xy _ _ _ _ _ _ path => ofXY xy path
  | renamed xy _ _ _ _ _ _ _ path origPath => ofXY xy path ++ [(origPath.val, .deleted)]
  | copied xy _ _ _ _ _ _ _ path origPath => ofXY xy path ++ ofOriginal origPath.val
  | unmerged _ _ _ _ _ _ _ _ _ path => [(path, .modified)]
  | untracked path => [(path, .added)]
  | ignored _ => []

end StatusEntry

/-! ## Reading an entry back -/

theorem line_cons (field : Units) (fields : List Units) (path : Units) :
    line (field :: fields) path = field ++ SPACE :: line fields path := by
  simp [line]

theorem extractPathFrom_field {n spaceCount : ℕ} {field rest : Units} (h : SPACE ∉ field) :
    extractPathFrom n spaceCount (field ++ SPACE :: rest) =
      if spaceCount + 1 = n then rest else extractPathFrom n (spaceCount + 1) rest := by
  induction field with
  | nil => rw [nil_append, extractPathFrom, if_pos rfl]
  | cons c field ih =>
    rw [mem_cons, not_or] at h
    rw [cons_append, extractPathFrom, if_neg (Ne.symm h.1), ih h.2]

theorem extractPathFrom_line {spaceCount : ℕ} {fields : List Units} {path : Units}
    (hne : fields ≠ []) (hfields : ∀ field ∈ fields, SPACE ∉ field) :
    extractPathFrom (spaceCount + fields.length) spaceCount (line fields path) = path := by
  induction fields generalizing spaceCount with
  | nil => exact absurd rfl hne
  | cons field fields ih =>
    obtain ⟨hfield, hrest⟩ := forall_mem_cons.mp hfields
    rw [line_cons, extractPathFrom_field hfield, length_cons]
    cases fields with
    | nil => exact if_pos rfl
    | cons next fields =>
      have hshift : spaceCount + ((next :: fields).length + 1) =
          spaceCount + 1 + (next :: fields).length := by omega
      rw [if_neg (by rw [length_cons]; omega), hshift]
      exact ih (cons_ne_nil _ _) hrest

theorem extractPathAfterNSpaces_line {fields : List Units} {path : Units} (hne : fields ≠ [])
    (hfields : ∀ field ∈ fields, SPACE ∉ field) :
    extractPathAfterNSpaces (line fields path) fields.length = path := by
  have h := @extractPathFrom_line 0 fields path hne hfields
  rwa [Nat.zero_add] at h

theorem applyXYStatus_eq (path : Units) (xy : XY) (acc : StatusAccumulator) :
    applyXYStatus path xy.x xy.y acc = addAll (StatusEntry.ofXY xy path) acc := by
  unfold applyXYStatus StatusEntry.ofXY
  cases hx : mapStatusChar xy.x <;> cases hy : mapStatusChar xy.y <;> simp [addAll, hx, hy]

theorem processParts_one {part : Units} {rest : List Units} {acc acc' : StatusAccumulator}
    (hpart : part ≠ []) (h : ∀ next, dispatchEntry part next acc = (acc', 1)) :
    processParts (part :: rest) acc = processParts rest acc' := by
  rw [processParts, if_neg hpart, h]
  cases rest <;> rfl

theorem processParts_two {part next : Units} {rest : List Units} {acc acc' : StatusAccumulator}
    (hpart : part ≠ []) (h : dispatchEntry part (some next) acc = (acc', 2)) :
    processParts (part :: next :: rest) acc = processParts rest acc' := by
  rw [processParts, if_neg hpart, head?_cons, h]
  rfl

def columns (type : Units) (xy : XY) (fields : List Field) : List Units :=
  type :: [xy.x, xy.y] :: fields.map Subtype.val

theorem columns_clean {separator : UInt16} {type : Units} {xy : XY} {fields : List Field}
    (htype : separator ∉ type) (hxy : separator ∉ [xy.x, xy.y])
    (hfields : ∀ field ∈ fields, separator ∉ field.val) :
    ∀ column ∈ columns type xy fields, separator ∉ column := by
  refine forall_mem_cons.mpr ⟨htype, forall_mem_cons.mpr ⟨hxy, fun column hcolumn => ?_⟩⟩
  obtain ⟨field, hfield, rfl⟩ := mem_map.mp hcolumn
  exact hfields field hfield

theorem columns_noSpace (type : Units) (xy : XY) (fields : List Field) (htype : SPACE ∉ type) :
    ∀ column ∈ columns type xy fields, SPACE ∉ column :=
  columns_clean htype (by simp [xy.hx.1.symm, xy.hy.1.symm]) fun field _ => field.2.1

theorem columns_noNul (type : Units) (xy : XY) (fields : List Field) (htype : NUL ∉ type) :
    ∀ column ∈ columns type xy fields, NUL ∉ column :=
  columns_clean htype (by simp [xy.hx.2.symm, xy.hy.2.symm]) fun field _ => field.2.2

theorem path_of_columns (type : Units) (xy : XY) (fields : List Field) (path : Units)
    (htype : SPACE ∉ type) :
    extractPathAfterNSpaces (line (columns type xy fields) path) (fields.length + 2) = path := by
  have hlength : (columns type xy fields).length = fields.length + 2 := by simp [columns]
  rw [← hlength]
  exact extractPathAfterNSpaces_line (cons_ne_nil _ _) (columns_noSpace type xy fields htype)

/-- The column of a similarity score, after the letter of a rename or a copy. -/
def scored (letter : Units) (hletter : SPACE ∉ letter ∧ NUL ∉ letter) (score : Field) : Field :=
  ⟨letter ++ score.val, by simp [hletter.1, score.2.1], by simp [hletter.2, score.2.2]⟩

theorem dispatch_ordinary (xy : XY) (fields : List Field) (path : Units) (next : Option Units)
    (acc : StatusAccumulator) (hlength : fields.length = 6) :
    dispatchEntry (line (columns (codeUnits "1") xy fields) path) next acc =
      (addAll (StatusEntry.ofXY xy path) acc, 1) := by
  have hpath := path_of_columns (codeUnits "1") xy fields path (by decide)
  rw [hlength] at hpath
  show processOrdinaryEntry _ acc = _
  rw [processOrdinaryEntry, extractPathFromOrdinary, hpath, ← applyXYStatus_eq]
  rfl

theorem dispatch_rename (xy : XY) (fields : List Field) (path : Units) (origPath : GitPath)
    (acc : StatusAccumulator) (hlength : fields.length = 7) :
    dispatchEntry (line (columns (codeUnits "2") xy fields) path) (some origPath) acc =
      (addAll (StatusEntry.ofXY xy path ++ [(origPath.val, .deleted)]) acc, 2) := by
  have hpath := path_of_columns (codeUnits "2") xy fields path (by decide)
  rw [hlength] at hpath
  show processRenameEntry _ (some origPath) acc = _
  rw [processRenameEntry, extractPathFromRename, hpath, addAll_append, ← applyXYStatus_eq]
  have horig : 0 < origPath.val.length := length_pos_of_ne_nil origPath.2.1
  dsimp only [Option.getD_some]
  rw [if_pos horig]
  rfl

theorem dispatch_unmerged (xy : XY) (fields : List Field) (path : Units) (next : Option Units)
    (acc : StatusAccumulator) (hlength : fields.length = 8) :
    dispatchEntry (line (columns (codeUnits "u") xy fields) path) next acc =
      (addEntry path .modified acc, 1) := by
  have hpath := path_of_columns (codeUnits "u") xy fields path (by decide)
  rw [hlength] at hpath
  show processUnmergedEntry _ acc = _
  rw [processUnmergedEntry, extractPathFromUnmerged, hpath]

/-- **One entry.** The loop takes all of its parts and notes what it gives; the original of a
copy is taken for that of a rename. -/
theorem processParts_entry (entry : StatusEntry) (rest : List Units) (acc : StatusAccumulator) :
    processParts (entry.parts ++ rest) acc =
      processParts rest (addAll (entry.gives fun origPath => [(origPath, .deleted)]) acc) := by
  cases entry with
  | ordinary xy sub mH mI mW hH hI path =>
    exact processParts_one (cons_ne_nil _ _) fun next =>
      dispatch_ordinary xy [sub, mH, mI, mW, hH, hI] path next acc rfl
  | renamed xy sub mH mI mW hH hI score path origPath =>
    exact processParts_two (cons_ne_nil _ _)
      (dispatch_rename xy [sub, mH, mI, mW, hH, hI, scored (codeUnits "R") (by decide) score]
        path origPath acc rfl)
  | copied xy sub mH mI mW hH hI score path origPath =>
    exact processParts_two (cons_ne_nil _ _)
      (dispatch_rename xy [sub, mH, mI, mW, hH, hI, scored (codeUnits "C") (by decide) score]
        path origPath acc rfl)
  | unmerged xy sub m1 m2 m3 mW h1 h2 h3 path =>
    exact processParts_one (cons_ne_nil _ _) fun next =>
      dispatch_unmerged xy [sub, m1, m2, m3, mW, h1, h2, h3] path next acc rfl
  | untracked path => exact processParts_one (cons_ne_nil _ _) fun next => rfl
  | ignored path => exact processParts_one (cons_ne_nil _ _) fun next => rfl

/-! ## Reading a listing back -/

theorem line_noNul {fields : List Units} {path : Units} (hfields : ∀ field ∈ fields, NUL ∉ field)
    (hpath : NUL ∉ path) : NUL ∉ line fields path := by
  induction fields with
  | nil => exact hpath
  | cons field fields ih =>
    obtain ⟨hfield, hrest⟩ := forall_mem_cons.mp hfields
    rw [line_cons, mem_append, mem_cons]
    exact not_or_intro hfield (not_or_intro (by decide) (ih hrest))

theorem parts_noNul (entry : StatusEntry) : ∀ part ∈ entry.parts, NUL ∉ part := by
  have hcolumns : ∀ (type : Units) (xy : XY) (fields : List Field) (path : GitPath),
      NUL ∉ type → NUL ∉ line (columns type xy fields) path := fun type xy fields path htype =>
    line_noNul (columns_noNul type xy fields htype) path.2.2
  cases entry with
  | ordinary xy sub mH mI mW hH hI path =>
    refine forall_mem_singleton.mpr ?_
    exact hcolumns _ xy [sub, mH, mI, mW, hH, hI] path (by decide)
  | renamed xy sub mH mI mW hH hI score path origPath =>
    refine forall_mem_cons.mpr ⟨?_, forall_mem_singleton.mpr origPath.2.2⟩
    exact hcolumns _ xy [sub, mH, mI, mW, hH, hI, scored (codeUnits "R") (by decide) score] path
      (by decide)
  | copied xy sub mH mI mW hH hI score path origPath =>
    refine forall_mem_cons.mpr ⟨?_, forall_mem_singleton.mpr origPath.2.2⟩
    exact hcolumns _ xy [sub, mH, mI, mW, hH, hI, scored (codeUnits "C") (by decide) score] path
      (by decide)
  | unmerged xy sub m1 m2 m3 mW h1 h2 h3 path =>
    refine forall_mem_singleton.mpr ?_
    exact hcolumns _ xy [sub, m1, m2, m3, mW, h1, h2, h3] path (by decide)
  | untracked path | ignored path =>
    exact forall_mem_singleton.mpr (line_noNul (forall_mem_singleton.mpr (by decide)) path.2.2)

theorem splitOn_encoded {parts : List Units} (h : ∀ part ∈ parts, NUL ∉ part) :
    (parts.flatMap fun part => part ++ [NUL]).splitOn NUL = parts ++ [[]] := by
  induction parts with
  | nil => rfl
  | cons part parts ih =>
    obtain ⟨hpart, hrest⟩ := forall_mem_cons.mp h
    rw [flatMap_cons, append_assoc, singleton_append, splitOn_append_cons,
      splitOn_of_not_mem hpart, ih hrest]
    rfl

theorem processParts_entries (entries : List StatusEntry) (rest : List Units)
    (acc : StatusAccumulator) : processParts (entries.flatMap StatusEntry.parts ++ rest) acc =
      processParts rest
        (addAll (entries.flatMap (StatusEntry.gives fun path => [(path, .deleted)])) acc) := by
  induction entries generalizing acc with
  | nil => rfl
  | cons entry entries ih =>
    rw [flatMap_cons, append_assoc, processParts_entry, ih, flatMap_cons, addAll_append]

/-- What is listed of the statuses given: the most severe one of each path, in the order of
the paths. -/
structure IsStatusMap (gives : List (Units × GitStatus)) (result : List GitStatusEntry) :
    Prop where
  sorted : result.Pairwise fun a b => a.path < b.path
  worst : ∀ path status, ⟨path, status⟩ ∈ result ↔ IsWorst gives path status

theorem parseGitStatusV2_eq (output : Units) : parseGitStatusV2 output =
    ((processParts (output.splitOn NUL) ⟨[]⟩).map.map fun (path, status) =>
      (⟨path, status⟩ : GitStatusEntry)).mergeSort gitStatusEntryOrder := by
  unfold parseGitStatusV2
  split
  · next hempty =>
    rw [eq_nil_of_length_eq_zero hempty]
    simp [processParts]
  · rfl

theorem empty_accumulates : Accumulates [] ⟨[]⟩ :=
  ⟨nodup_nil, fun _ _ => iff_of_false nofun fun h => nomatch h.2.1⟩

theorem sorted_of_nodup {entries : List GitStatusEntry}
    (h : (entries.map GitStatusEntry.path).Nodup) :
    (entries.mergeSort gitStatusEntryOrder).Pairwise fun a b => a.path < b.path := by
  have hsorted : (entries.mergeSort gitStatusEntryOrder).Pairwise
      fun a b => gitStatusEntryOrder a b = true := by
    refine pairwise_mergeSort (fun a b c hab hbc => ?_) (fun a b => ?_) entries
    · exact decide_eq_true (List.le_trans (of_decide_eq_true hab) (of_decide_eq_true hbc))
    · simpa [gitStatusEntryOrder] using List.le_total a.path b.path
  have hperm := (mergeSort_perm entries gitStatusEntryOrder).map GitStatusEntry.path
  have hne := pairwise_map.mp (hperm.nodup_iff.mpr h)
  refine (hsorted.and hne).imp fun {a b} hab => ?_
  rw [Std.lt_iff_le_and_not_ge]
  have hle : a.path ≤ b.path := of_decide_eq_true hab.1
  exact ⟨hle, fun hge => hab.2 (List.le_antisymm hle hge)⟩

/-- The statuses that the parser notes: the original of a copy is deleted as that of a
rename is. -/
def noted (entries : List StatusEntry) : List (Units × GitStatus) :=
  entries.flatMap (StatusEntry.gives fun origPath => [(origPath, .deleted)])

theorem parse_eq (entries : List StatusEntry) : parseGitStatusV2 (StatusEntry.encode entries) =
    ((addAll (noted entries) ⟨[]⟩).map.map fun (path, status) =>
      (⟨path, status⟩ : GitStatusEntry)).mergeSort gitStatusEntryOrder := by
  have hparts : ∀ part ∈ entries.flatMap StatusEntry.parts, NUL ∉ part := by
    intro part hpart
    obtain ⟨entry, -, hentry⟩ := mem_flatMap.mp hpart
    exact parts_noNul entry part hentry
  rw [parseGitStatusV2_eq, StatusEntry.encode, splitOn_encoded hparts, processParts_entries]
  rfl

theorem noted_accumulates (entries : List StatusEntry) :
    Accumulates (noted entries) (addAll (noted entries) ⟨[]⟩) :=
  addAll_accumulates empty_accumulates

theorem mem_parse (entries : List StatusEntry) (path : Units) (status : GitStatus) :
    ⟨path, status⟩ ∈ parseGitStatusV2 (StatusEntry.encode entries) ↔
      path ≠ PROTO ∧ IsWorst (noted entries) path status := by
  have h := noted_accumulates entries
  have hmem : (path, status) ∈ (addAll (noted entries) ⟨[]⟩).map ↔
      (addAll (noted entries) ⟨[]⟩).map.get? path = some status :=
    ⟨get?_of_mem h.nodup, mem_of_get?⟩
  rw [parse_eq, (mergeSort_perm _ _).mem_iff, ← h.worst, ← hmem]
  simp

theorem parse_sorted (entries : List StatusEntry) :
    (parseGitStatusV2 (StatusEntry.encode entries)).Pairwise fun a b => a.path < b.path := by
  rw [parse_eq]
  exact sorted_of_nodup (by simpa [Function.comp_def] using (noted_accumulates entries).nodup)

/-- **Git statuses are read back**: each path with the most severe status that its entries
give it, an original of a rename or a copy being deleted. -/
theorem parse_encode (entries : List StatusEntry)
    (hproto : ∀ given ∈ noted entries, given.1 ≠ PROTO) :
    IsStatusMap (noted entries) (parseGitStatusV2 (StatusEntry.encode entries)) := by
  refine ⟨parse_sorted entries, fun path status => ?_⟩
  rw [mem_parse]
  exact and_iff_right_of_imp fun hworst => hproto (path, status) hworst.1

/-! ## One listing -/

/-- A column without content that the parser looks at. -/
def placeholder : Field := ⟨codeUnits "N...", by decide⟩

def stagedAs (char : UInt16) (h : char ≠ SPACE ∧ char ≠ NUL) : XY := ⟨char, DOT, h, by decide⟩

def stagedCopy : StatusEntry :=
  .copied (stagedAs 0x43 (by decide)) placeholder placeholder placeholder placeholder placeholder
    placeholder placeholder ⟨codeUnits "copy", by decide⟩ ⟨codeUnits "original", by decide⟩

/-- **The original of a copy is listed as deleted**, as that of a rename. -/
theorem copy_deletes_original : ¬ IsStatusMap ([stagedCopy].flatMap (StatusEntry.gives fun _ => []))
      (parseGitStatusV2 (StatusEntry.encode [stagedCopy])) := by
  intro h
  have hlisted := (mem_parse [stagedCopy] (codeUnits "original") .deleted).mpr
    ⟨by decide, by decide, fun other _ => severity_le_deleted other⟩
  have hgiven := ((h.worst _ _).mp hlisted).1
  exact absurd hgiven (by decide)

/-- The original of the copy has an entry of its own, and a file is new. -/
def threeEntries : List StatusEntry :=
  [stagedCopy, .ordinary (stagedAs 0x4D (by decide)) placeholder placeholder placeholder placeholder
    placeholder placeholder ⟨codeUnits "original", by decide⟩,
    .untracked ⟨codeUnits "notes", by decide⟩]

/-- The original is given two statuses, of which it has the more severe one. -/
theorem parse_encode_threeEntries :
    IsStatusMap [(codeUnits "copy", .modified), (codeUnits "original", .deleted),
        (codeUnits "original", .modified), (codeUnits "notes", .added)]
      (parseGitStatusV2 (StatusEntry.encode threeEntries)) :=
  parse_encode threeEntries (by decide)

end Laborer.Files
