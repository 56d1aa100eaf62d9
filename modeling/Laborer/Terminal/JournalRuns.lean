import Laborer.Terminal.Transport

/-!
# What a journal keeps of a run of outputs

Every output is split and its chunks are appended, as `processOutput` does with it.
-/

namespace Laborer.Terminal.TerminalCursorJournal

open Library List

variable {chunkBytes maximumBytes : ℕ} {journal journal' : TerminalCursorJournal}
  {data : Output} {chunks outputs : List Output}

def appendAll (chunks : List Output) (journal : TerminalCursorJournal) :
    Option TerminalCursorJournal :=
  chunks.foldlM (fun journal chunk => journal.append chunk) journal

/-- The journal after outputs; `none` where a split or an append throws. -/
def recordAll (chunkBytes : ℕ) (outputs : List Output) (journal : TerminalCursorJournal) :
    Option TerminalCursorJournal :=
  outputs.foldlM (fun journal data =>
    (splitByUtf8Bytes data chunkBytes).bind fun chunks => journal.appendAll chunks) journal

/-- The chunks of the outputs, in the order in which they are appended. -/
def chunksOf (chunkBytes : ℕ) (outputs : List Output) : List Output :=
  outputs.flatMap fun data => (splitByUtf8Bytes data chunkBytes).getD []

/-- A cursor into an output: the part before it. -/
def IsAt (output : Output) (cursor : ℕ) (before : Output) : Prop :=
  before <+: output ∧ utf8Bytes before = cursor

structure Journalled (maximumBytes chunkBytes : ℕ) (output : Output)
    (journal : TerminalCursorJournal) : Prop where
  /-- The output in chunks, whose last ones are kept, the newest always. -/
  kept : ∃ chunks, chunks.flatten = output ∧ journal.entries <:+ chunks ∧
    (∀ chunk ∈ chunks, utf8Bytes chunk ≤ chunkBytes) ∧ (output ≠ [] → journal.entries ≠ [])
  bounded : journal.bytes ≤ maximumBytes
  cursor : journal.cursor = utf8Bytes output
  /-- A reader that resumes reads on exactly where it was. -/
  deltas : ∀ cursor, journal.retains cursor → ∃ before, IsAt output cursor before ∧
    output = before ++ ((journal.deltasAfter cursor).map Prod.snd).flatten
  characters : ∀ start finish, journal.retains start → journal.retains finish → start ≤ finish →
    ∃ before upTo, IsAt output start before ∧ IsAt output finish upTo ∧
      utf16Length before + journal.charactersBetween start finish = utf16Length upTo

/-- The journal of outputs over their chunks: what the splices of an attach and the credit of
the flow control rest on. -/
structure Spliced (maximumBytes chunkBytes : ℕ) (outputs : List Output)
    (journal : TerminalCursorJournal) : Prop
    extends Journalled maximumBytes chunkBytes outputs.flatten journal where
  split : ∀ data ∈ outputs, ∃ pieces, splitByUtf8Bytes data chunkBytes = some pieces ∧
    pieces.flatten = data ∧ ∀ piece ∈ pieces, utf8Bytes piece ≤ chunkBytes
  retained : journal.entries <:+ chunksOf chunkBytes outputs
  newest : chunksOf chunkBytes outputs ≠ [] → journal.entries ≠ []
  last : ∀ cursor, journal.retains cursor → cursor < journal.cursor →
    (journal.deltasAfter cursor).getLast?.map Prod.fst = some journal.cursor
  additive : ∀ a b c, journal.retains a → journal.retains b → journal.retains c → a ≤ b → b ≤ c →
    journal.charactersBetween a c = journal.charactersBetween a b + journal.charactersBetween b c

/-! ## One output -/

theorem splitRest_isSome_iff {chunk : Output} :
    (splitRest chunkBytes data chunk).isSome ↔ ∀ c ∈ data, c.utf8Size ≤ chunkBytes := by
  induction data generalizing chunk with
  | nil => simp [splitRest]
  | cons codePoint rest ih =>
    rw [splitRest, forall_mem_cons]
    split
    · next hover => simp [hover]
    · next hfits =>
      rw [and_iff_right (Nat.le_of_not_lt hfits)]
      split
      · rw [Option.isSome_map, ih]
      · exact ih

theorem shift_bounded (hdata : utf8Bytes data ≤ maximumBytes) (entries : List Output)
    (minimumCursor : ℕ) :
    (shift maximumBytes minimumCursor (entries ++ [data])).maximumBytes = maximumBytes ∧
      (shift maximumBytes minimumCursor (entries ++ [data])).bytes ≤ maximumBytes ∧
      (shift maximumBytes minimumCursor (entries ++ [data])).entries ≠ [] := by
  induction entries generalizing minimumCursor with
  | nil =>
    have hfits : ¬ maximumBytes < CursorLog.total utf8Bytes [data] := by
      simpa [CursorLog.total] using hdata
    rw [nil_append, shift, if_neg hfits]
    exact ⟨rfl, Nat.le_of_not_lt hfits, cons_ne_nil _ _⟩
  | cons entry entries ih =>
    rw [cons_append, shift]
    split
    · exact ih _
    · next hfits => exact ⟨rfl, Nat.le_of_not_lt hfits, cons_ne_nil _ _⟩

structure Recorded (maximumBytes chunkBytes : ℕ) (chunks : List Output)
    (journal : TerminalCursorJournal) : Prop where
  keeps : journal.Keeps chunks
  capped : ∀ chunk ∈ chunks, utf8Bytes chunk ≤ chunkBytes
  bound : journal.maximumBytes = maximumBytes
  bounded : journal.bytes ≤ maximumBytes
  newest : chunks ≠ [] → journal.entries ≠ []

/-- Chunks within the cap are appended without a throw. -/
theorem Recorded.appendAll (hcap : chunkBytes ≤ maximumBytes) {pieces : List Output}
    (hpieces : ∀ piece ∈ pieces, piece ≠ [] ∧ utf8Bytes piece ≤ chunkBytes)
    (h : journal.Recorded maximumBytes chunkBytes chunks) :
    ∃ journal', journal.appendAll pieces = some journal' ∧
      journal'.Recorded maximumBytes chunkBytes (chunks ++ pieces) := by
  induction pieces generalizing journal chunks with
  | nil => exact ⟨journal, rfl, by rwa [append_nil]⟩
  | cons piece pieces ih =>
    obtain ⟨⟨hne, hpiece⟩, hpieces⟩ := forall_mem_cons.mp hpieces
    have hfits := h.bound ▸ hpiece.trans hcap
    obtain ⟨hbound, hbounded, hnewest⟩ :=
      shift_bounded hfits journal.entries journal.minimumCursor
    have happend : journal.append piece = some _ := if_neg (Nat.not_lt_of_le hfits)
    have hone : Recorded maximumBytes chunkBytes (chunks ++ [piece]) _ :=
      { keeps := h.keeps.append hne happend
        capped := forall_mem_append.mpr ⟨h.capped, forall_mem_singleton.mpr hpiece⟩
        bound := hbound.trans h.bound
        bounded := h.bound ▸ hbounded
        newest := fun _ => hnewest }
    obtain ⟨journal', hjournal, hrecorded⟩ := ih hpieces hone
    refine ⟨journal', ?_, by rwa [append_assoc] at hrecorded⟩
    rw [TerminalCursorJournal.appendAll, foldlM_cons, happend]
    exact hjournal

theorem total_utf8Bytes (chunks : List Output) :
    CursorLog.total utf8Bytes chunks = utf8Bytes chunks.flatten := by
  induction chunks with
  | nil => rfl
  | cons chunk chunks ih => rw [CursorLog.total_cons, ih, flatten_cons, utf8Bytes_append]

/-- A retained cursor is the end of a chunk: after it, the rest is read. -/
theorem Keeps.split_at {cursor : ℕ} (h : journal.Keeps chunks) (hcursor : journal.retains cursor) :
    ∃ before after, chunks = before ++ after ∧ IsAt chunks.flatten cursor before.flatten ∧
      (journal.deltasAfter cursor).map Prod.snd = after ∧
      charsTo chunks cursor = utf16Length before.flatten := by
  have hstart : journal.minimumCursor ≤ cursor := hcursor.1.1
  obtain ⟨before, after, rfl, rfl⟩ := h.isMark hcursor
  refine ⟨before, after, rfl, ⟨?_, ?_⟩, ?_, ?_⟩
  · rw [flatten_append]
    exact prefix_append ..
  · rw [Nat.zero_add, total_utf8Bytes]
  · rw [Nat.zero_add] at hstart ⊢
    rw [h.deltasAfter hstart, CursorLog.map_snd_ends]
  · rw [charsTo, CursorLog.weightTo_mark h.positive, total_utf16Length]

theorem Recorded.journalled (h : journal.Recorded maximumBytes chunkBytes chunks) :
    journal.Journalled maximumBytes chunkBytes chunks.flatten where
  kept := by
    obtain ⟨dropped, hchunks, -⟩ := h.keeps.kept
    refine ⟨chunks, rfl, ⟨dropped, hchunks.symm⟩, h.capped, fun hne => h.newest ?_⟩
    rintro rfl
    exact hne rfl
  bounded := h.bounded
  cursor := h.keeps.cursor_eq.trans (total_utf8Bytes chunks)
  deltas := by
    intro cursor hcursor
    obtain ⟨before, after, hchunks, hat, hdeltas, -⟩ := h.keeps.split_at hcursor
    exact ⟨before.flatten, hat, by rw [hdeltas, hchunks, flatten_append]⟩
  characters := by
    intro start finish hstart hfinish hle
    obtain ⟨before, -, -, hat, -, hchars⟩ := h.keeps.split_at hstart
    obtain ⟨upTo, -, -, hat', -, hchars'⟩ := h.keeps.split_at hfinish
    refine ⟨before.flatten, upTo.flatten, hat, hat', ?_⟩
    rw [← hchars, ← hchars', Nat.add_comm, h.keeps.charactersBetween_add hstart hfinish hle]

/-! ## A run of outputs -/

theorem recorded_empty (maximumBytes chunkBytes : ℕ) :
    (empty maximumBytes).Recorded maximumBytes chunkBytes [] where
  keeps := keeps_empty maximumBytes
  capped := forall_mem_nil _
  bound := rfl
  bounded := Nat.zero_le _
  newest hne := absurd rfl hne

theorem Recorded.recordAll (hcap : chunkBytes ≤ maximumBytes) (outputs : List Output)
    (h : journal.Recorded maximumBytes chunkBytes chunks) :
    ((journal.recordAll chunkBytes outputs).isSome ↔
      ∀ data ∈ outputs, ∀ c ∈ data, c.utf8Size ≤ chunkBytes) ∧
    ∀ journal', journal.recordAll chunkBytes outputs = some journal' →
      (chunksOf chunkBytes outputs).flatten = outputs.flatten ∧
        journal'.Recorded maximumBytes chunkBytes (chunks ++ chunksOf chunkBytes outputs) := by
  induction outputs generalizing journal chunks with
  | nil =>
    refine ⟨iff_of_true rfl (forall_mem_nil _), ?_⟩
    rintro journal' ⟨⟩
    exact ⟨rfl, by rwa [chunksOf, flatMap_nil, append_nil]⟩
  | cons data outputs ih =>
    rw [TerminalCursorJournal.recordAll, foldlM_cons, forall_mem_cons, ← splitRest_isSome_iff,
      ← splitByUtf8Bytes]
    cases hsplit : splitByUtf8Bytes data chunkBytes with
    | none => simp
    | some pieces =>
      obtain ⟨hflat, hpieces⟩ := splitByUtf8Bytes_spec hsplit
      obtain ⟨appended, happended, hrecorded⟩ := h.appendAll hcap hpieces
      have hchunks : chunksOf chunkBytes (data :: outputs) =
          pieces ++ chunksOf chunkBytes outputs := by
        rw [chunksOf, flatMap_cons, hsplit, Option.getD_some, chunksOf]
      obtain ⟨hsome, hrest⟩ := ih hrecorded
      simp only [Option.bind_some, happended, Option.isSome_some, true_and]
      refine ⟨hsome, fun journal' hjournal => ?_⟩
      obtain ⟨hsame, hlater⟩ := hrest journal' hjournal
      rw [hchunks, flatten_append, hflat, hsame, flatten_cons, ← append_assoc]
      exact ⟨rfl, hlater⟩

/-- **The journal of a run of outputs.** Recording throws exactly at a code point over the
cap of a chunk; else the journal holds the end of the output, within its bound, and readers
are answered from the output itself. -/
theorem recordAll_journalled (hcap : chunkBytes ≤ maximumBytes) (outputs : List Output) :
    (((empty maximumBytes).recordAll chunkBytes outputs).isSome ↔
      ∀ data ∈ outputs, ∀ c ∈ data, c.utf8Size ≤ chunkBytes) ∧
    ∀ journal, (empty maximumBytes).recordAll chunkBytes outputs = some journal →
      journal.Journalled maximumBytes chunkBytes outputs.flatten := by
  obtain ⟨hsome, hrecorded⟩ := (recorded_empty maximumBytes chunkBytes).recordAll hcap outputs
  refine ⟨hsome, fun journal hjournal => ?_⟩
  obtain ⟨hflat, hchunks⟩ := hrecorded journal hjournal
  rw [← hflat]
  exact hchunks.journalled

/-- Two outputs, of which the journal has dropped the first chunk. -/
theorem recordAll_journalled_twoOutputs : ∃ journal,
    (empty 5).recordAll 4 ["abcdef".toList, "é".toList] = some journal ∧
      journal.Journalled 5 4 "abcdefé".toList :=
  ⟨_, rfl, (recordAll_journalled (show 4 ≤ 5 by decide) ["abcdef".toList, "é".toList]).2 _ rfl⟩

theorem Keeps.getLast?_deltasAfter {cursor : ℕ} (h : journal.Keeps chunks)
    (hcursor : journal.retains cursor) (hlt : cursor < journal.cursor) :
    (journal.deltasAfter cursor).getLast?.map Prod.fst = some journal.cursor := by
  have hstart : journal.minimumCursor ≤ cursor := hcursor.1.1
  obtain ⟨before, after, rfl, rfl⟩ := h.isMark hcursor
  rw [h.cursor_eq, CursorLog.total_append] at hlt ⊢
  rw [Nat.zero_add] at hstart hlt ⊢
  rw [h.deltasAfter hstart]
  apply CursorLog.getLast?_ends
  rintro rfl
  rw [CursorLog.total_nil] at hlt
  omega

end Laborer.Terminal.TerminalCursorJournal
