import Laborer.Library.CursorLog

/-!
# The transport of terminal output

How output is cut into chunks and kept in a journal of bounded size that readers address
by byte cursors.
-/

namespace Laborer.Terminal

open Library List

/-! ## Output -/

/-- What a PTY writes, decoded from UTF-8: code points, no lone surrogates. -/
abbrev Output := List Char

def utf8Bytes (data : Output) : ℕ := CursorLog.total Char.utf8Size data

/-- `data.length`, in UTF-16 code units. -/
def utf16Length (data : Output) : ℕ :=
  CursorLog.total (fun c => if 0x10000 ≤ c.toNat then 2 else 1) data

@[simp] theorem utf8Bytes_nil : utf8Bytes [] = 0 := rfl

@[simp] theorem utf8Bytes_append (data data' : Output) :
    utf8Bytes (data ++ data') = utf8Bytes data + utf8Bytes data' :=
  CursorLog.total_append ..

@[simp] theorem utf16Length_append (data data' : Output) :
    utf16Length (data ++ data') = utf16Length data + utf16Length data' :=
  CursorLog.total_append ..

variable {data : Output}

theorem utf8Bytes_pos (h : data ≠ []) : 0 < utf8Bytes data := by
  cases data with
  | nil => exact absurd rfl h
  | cons c data =>
    show 0 < CursorLog.total Char.utf8Size (c :: data)
    rw [CursorLog.total_cons]
    have hc := c.utf8Size_pos
    omega

theorem total_utf16Length (chunks : List Output) :
    CursorLog.total utf16Length chunks = utf16Length chunks.flatten := by
  induction chunks with
  | nil => rfl
  | cons chunk chunks ih => rw [CursorLog.total_cons, ih, flatten_cons, utf16Length_append]

/-! ## Chunks -/

/-- The loop of `splitByUtf8Bytes`, on what is left of the data and the chunk that is being
filled. A code point over the cap throws. -/
def splitRest (maximumBytes : ℕ) : Output → Output → Option (List Output)
  | [], chunk => some (if chunk = [] then [] else [chunk])
  | codePoint :: rest, chunk =>
    if maximumBytes < codePoint.utf8Size then none
    else if maximumBytes < utf8Bytes chunk + codePoint.utf8Size ∧ chunk ≠ [] then
      (splitRest maximumBytes rest [codePoint]).map (chunk :: ·)
    else splitRest maximumBytes rest (chunk ++ [codePoint])

/-- The data cut at code points into chunks of at most so many bytes. -/
def splitByUtf8Bytes (data : Output) (maximumBytes : ℕ) : Option (List Output) :=
  splitRest maximumBytes data []

theorem splitRest_spec {maximumBytes : ℕ} {chunk : Output} {chunks : List Output}
    (h : splitRest maximumBytes data chunk = some chunks)
    (hchunk : utf8Bytes chunk ≤ maximumBytes) : chunks.flatten = chunk ++ data ∧
      ∀ piece ∈ chunks, piece ≠ [] ∧ utf8Bytes piece ≤ maximumBytes := by
  induction data generalizing chunk chunks with
  | nil =>
    have heq : (if chunk = [] then [] else [chunk]) = chunks := Option.some.inj h
    subst heq
    split
    · next hnil => simp [hnil]
    · next hne => simpa using ⟨hne, hchunk⟩
  | cons codePoint rest ih =>
    unfold splitRest at h
    split at h
    · cases h
    · next hcap =>
      have hone : utf8Bytes [codePoint] = codePoint.utf8Size := by
        simp [utf8Bytes, CursorLog.total]
      split at h
      · next hfull =>
        obtain ⟨later, hlater, rfl⟩ := Option.map_eq_some_iff.mp h
        obtain ⟨hflat, hpieces⟩ := ih hlater (by omega)
        constructor
        · rw [flatten_cons, hflat]
          rfl
        · intro piece hpiece
          rcases mem_cons.mp hpiece with rfl | hpiece
          · exact ⟨hfull.2, hchunk⟩
          · exact hpieces piece hpiece
      · next hroom =>
        have hfits : utf8Bytes (chunk ++ [codePoint]) ≤ maximumBytes := by
          rw [utf8Bytes_append, hone]
          by_cases hnil : chunk = []
          · rw [hnil, utf8Bytes_nil]
            omega
          · by_contra hover
            exact hroom ⟨by omega, hnil⟩
        obtain ⟨hflat, hpieces⟩ := ih h hfits
        refine ⟨?_, hpieces⟩
        rw [hflat, append_assoc]
        rfl

theorem splitByUtf8Bytes_spec {maximumBytes : ℕ} {chunks : List Output}
    (h : splitByUtf8Bytes data maximumBytes = some chunks) :
    chunks.flatten = data ∧ ∀ piece ∈ chunks, piece ≠ [] ∧ utf8Bytes piece ≤ maximumBytes := by
  obtain ⟨hflat, hpieces⟩ := splitRest_spec h (Nat.zero_le _)
  exact ⟨hflat, hpieces⟩

/-! ## The journal -/

/-- The entries that are kept, from the byte cursor where the first one starts. An entry's
`end`, `bytes` and `chars` follow from its place and its data. -/
structure TerminalCursorJournal where
  maximumBytes : ℕ
  minimumCursor : ℕ
  entries : List Output

namespace TerminalCursorJournal

def empty (maximumBytes : ℕ) : TerminalCursorJournal where
  maximumBytes := maximumBytes
  minimumCursor := 0
  entries := []

def bytes (journal : TerminalCursorJournal) : ℕ := CursorLog.total utf8Bytes journal.entries

def cursor (journal : TerminalCursorJournal) : ℕ := journal.minimumCursor + journal.bytes

def ends (journal : TerminalCursorJournal) : List (ℕ × Output) :=
  CursorLog.ends utf8Bytes journal.minimumCursor journal.entries

/-- The oldest entries are dropped until the rest fits. -/
def shift (maximumBytes : ℕ) : ℕ → List Output → TerminalCursorJournal
  | minimumCursor, [] =>
    { maximumBytes := maximumBytes, minimumCursor := minimumCursor, entries := [] }
  | minimumCursor, entry :: entries =>
    if maximumBytes < CursorLog.total utf8Bytes (entry :: entries) then
      shift maximumBytes (minimumCursor + utf8Bytes entry) entries
    else
      { maximumBytes := maximumBytes
        minimumCursor := minimumCursor
        entries := entry :: entries }

/-- An entry over the bound of the journal throws. -/
def append (data : Output) (journal : TerminalCursorJournal) : Option TerminalCursorJournal :=
  if journal.maximumBytes < utf8Bytes data then none
  else some (shift journal.maximumBytes journal.minimumCursor (journal.entries ++ [data]))

def retains (journal : TerminalCursorJournal) (cursor : ℕ) : Prop :=
  (journal.minimumCursor ≤ cursor ∧ cursor ≤ journal.cursor) ∧
    (cursor = journal.minimumCursor ∨ cursor = journal.cursor ∨
      ∃ entry ∈ journal.ends, entry.1 = cursor)

instance (journal : TerminalCursorJournal) (cursor : ℕ) : Decidable (journal.retains cursor) :=
  inferInstanceAs (Decidable (_ ∧ _))

def deltasAfter (journal : TerminalCursorJournal) (cursor : ℕ) : List (ℕ × Output) :=
  if journal.retains cursor then journal.ends.filter fun entry => cursor < entry.1 else []

def charactersBetween (journal : TerminalCursorJournal) (start finish : ℕ) : ℕ :=
  if journal.retains start ∧ journal.retains finish ∧ start ≤ finish then
    ((journal.ends.filter fun entry => start < entry.1 && entry.1 ≤ finish).map
      (utf16Length ·.2)).sum
  else 0

variable {journal journal' : TerminalCursorJournal} {data : Output} {cursor cursor' : ℕ}
  {output : List Output}

theorem retains_iff : journal.retains cursor ↔
    CursorLog.IsMark utf8Bytes journal.minimumCursor journal.entries cursor := by
  rw [CursorLog.isMark_iff]
  constructor
  · rintro ⟨-, h | h | h⟩
    · exact .inl h
    · rw [← CursorLog.isMark_iff, h]
      exact CursorLog.isMark_finish
    · exact .inr h
  · intro h
    have hbounds := (CursorLog.isMark_iff.mpr h).bounds
    refine ⟨hbounds, ?_⟩
    rcases h with h | h
    · exact .inl h
    · exact .inr (.inr h)

/-- The journal keeps the end of an output: what it dropped precedes its first entry. -/
structure Keeps (journal : TerminalCursorJournal) (output : List Output) : Prop where
  kept : ∃ dropped, output = dropped ++ journal.entries ∧
    journal.minimumCursor = CursorLog.total utf8Bytes dropped
  positive : CursorLog.Positive utf8Bytes output

theorem keeps_empty (maximumBytes : ℕ) : (empty maximumBytes).Keeps [] where
  kept := ⟨[], rfl, rfl⟩
  positive _ h := absurd h List.not_mem_nil

theorem Keeps.cursor_eq (h : journal.Keeps output) :
    journal.cursor = CursorLog.total utf8Bytes output := by
  obtain ⟨dropped, rfl, hstart⟩ := h.kept
  rw [CursorLog.total_append]
  show journal.minimumCursor + CursorLog.total utf8Bytes journal.entries = _
  rw [hstart]

theorem shift_spec (maximumBytes minimumCursor : ℕ) (entries : List Output) :
    ∃ dropped, entries = dropped ++ (shift maximumBytes minimumCursor entries).entries ∧
      (shift maximumBytes minimumCursor entries).minimumCursor =
        minimumCursor + CursorLog.total utf8Bytes dropped := by
  induction entries generalizing minimumCursor with
  | nil => exact ⟨[], rfl, rfl⟩
  | cons entry entries ih =>
    unfold shift
    split
    · obtain ⟨dropped, hentries, hstart⟩ := ih (minimumCursor + utf8Bytes entry)
      refine ⟨entry :: dropped, ?_, ?_⟩
      · rw [cons_append, ← hentries]
      · rw [hstart, CursorLog.total_cons, Nat.add_assoc]
    · exact ⟨[], rfl, rfl⟩

theorem Keeps.append (h : journal.Keeps output) (hdata : data ≠ [])
    (happend : journal.append data = some journal') : journal'.Keeps (output ++ [data]) := by
  unfold TerminalCursorJournal.append at happend
  split at happend
  · cases happend
  · cases happend
    obtain ⟨dropped, rfl, hstart⟩ := h.kept
    obtain ⟨shifted, hentries, hshift⟩ :=
      shift_spec journal.maximumBytes journal.minimumCursor (journal.entries ++ [data])
    constructor
    · refine ⟨dropped ++ shifted, ?_, ?_⟩
      · have hassoc : dropped ++ journal.entries ++ [data] =
          dropped ++ (journal.entries ++ [data]) :=
          append_assoc ..
        rw [hassoc, append_assoc]
        exact congrArg (dropped ++ ·) hentries
      · rw [hshift, hstart, CursorLog.total_append]
    · apply h.positive.append
      intro a ha
      rw [mem_singleton.mp ha]
      exact utf8Bytes_pos hdata

theorem minimumCursor_le_cursor (journal : TerminalCursorJournal) :
    journal.minimumCursor ≤ journal.cursor :=
  Nat.le_add_right _ _

theorem Keeps.retains (h : journal.Keeps output)
    (hmark : CursorLog.IsMark utf8Bytes 0 output cursor) (hle : journal.minimumCursor ≤ cursor) :
    journal.retains cursor := by
  obtain ⟨dropped, rfl, hstart⟩ := h.kept
  rw [retains_iff, hstart, ← Nat.zero_add (CursorLog.total utf8Bytes dropped)]
  apply hmark.kept _ h.positive
  omega

theorem Keeps.isMark (h : journal.Keeps output)
    (hretains : journal.retains cursor) : CursorLog.IsMark utf8Bytes 0 output cursor := by
  obtain ⟨dropped, rfl, hstart⟩ := h.kept
  apply CursorLog.IsMark.of_kept
  rw [Nat.zero_add, ← hstart]
  exact retains_iff.mp hretains

theorem Keeps.deltasAfter {before after : List Output} (h : journal.Keeps (before ++ after))
    (hle : journal.minimumCursor ≤ CursorLog.total utf8Bytes before) :
    journal.deltasAfter (CursorLog.total utf8Bytes before) =
      CursorLog.ends utf8Bytes (CursorLog.total utf8Bytes before) after := by
  have hmark : CursorLog.IsMark utf8Bytes 0 (before ++ after) (CursorLog.total utf8Bytes before) :=
    ⟨before, after, rfl, (Nat.zero_add _).symm⟩
  unfold TerminalCursorJournal.deltasAfter
  rw [if_pos (h.retains hmark hle)]
  obtain ⟨dropped, heq, hstart⟩ := h.kept
  have hpositive := h.positive
  rw [heq] at hpositive
  unfold ends
  rw [hstart] at hle ⊢
  have hfilter := CursorLog.filter_lt_kept hpositive heq.symm (Nat.add_le_add_left hle 0)
  rwa [Nat.zero_add, Nat.zero_add] at hfilter

def charsTo (output : List Output) (cursor : ℕ) : ℕ :=
  CursorLog.weightTo utf8Bytes utf16Length 0 output cursor

theorem Keeps.charactersBetween_add (h : journal.Keeps output)
    (hcursor : journal.retains cursor) (hcursor' : journal.retains cursor')
    (hle : cursor ≤ cursor') :
    journal.charactersBetween cursor cursor' + charsTo output cursor = charsTo output cursor' := by
  unfold charactersBetween
  rw [if_pos ⟨hcursor, hcursor', hle⟩]
  obtain ⟨dropped, rfl, hstart⟩ := h.kept
  rw [retains_iff, hstart, ← Nat.zero_add (CursorLog.total utf8Bytes dropped)] at hcursor hcursor'
  unfold ends charsTo
  rw [hstart, ← Nat.zero_add (CursorLog.total utf8Bytes dropped)]
  exact CursorLog.weight_between h.positive hcursor hcursor' hle

theorem isMark_total (output : List Output) :
    CursorLog.IsMark utf8Bytes 0 output (CursorLog.total utf8Bytes output) :=
  ⟨output, [], (append_nil _).symm, (Nat.zero_add _).symm⟩

theorem Keeps.charsTo_total (h : journal.Keeps output) :
    charsTo output (CursorLog.total utf8Bytes output) = CursorLog.total utf16Length output := by
  unfold charsTo
  rw [← Nat.zero_add (CursorLog.total utf8Bytes output)]
  exact CursorLog.weightTo_finish h.positive

theorem charsTo_le (hpositive : CursorLog.Positive utf8Bytes output)
    (hmark : CursorLog.IsMark utf8Bytes 0 output cursor) :
    charsTo output cursor ≤ CursorLog.total utf16Length output :=
  CursorLog.weightTo_le hpositive hmark

end TerminalCursorJournal

end Laborer.Terminal
