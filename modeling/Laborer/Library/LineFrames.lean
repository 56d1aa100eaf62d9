import Laborer.Library.JsValue
import Laborer.Library.LineTexts
import Mathlib.Data.List.TakeWhile

/-!
# Frames that are lines of a stream

A reader of a stream of bytes that comes in chunks. It keeps what is not yet a whole line,
takes the lines that are, and gives the stream up at a line that it cannot parse, or when the
unfinished one is over a limit. What it takes does not depend on the chunks exactly if no
line that it could take is over that limit.
-/

namespace Laborer.Library

open JsValue List Bool

/-! ## The lines of a text -/

def completeLines (text : List Char) : List (List Char) := (text.splitOn '\n').dropLast

def lastLine (text : List Char) : List Char := ((text.splitOn '\n').getLast?).getD []

variable {text : List Char}

theorem completeLines_of_not_mem (h : '\n' ∉ text) : completeLines text = [] := by
  rw [completeLines, splitOn_of_not_mem h]
  rfl

theorem lastLine_of_not_mem (h : '\n' ∉ text) : lastLine text = text := by
  rw [lastLine, splitOn_of_not_mem h]
  rfl

variable {line : List Char}

theorem completeLines_line (h : '\n' ∉ line) (rest : List Char) :
    completeLines (line ++ '\n' :: rest) = line :: completeLines rest := by
  rw [completeLines, splitOn_append_cons, splitOn_of_not_mem h, singleton_append,
    dropLast_cons_of_ne_nil (splitOn_ne_nil _ rest)]
  rfl

theorem lastLine_line (h : '\n' ∉ line) (rest : List Char) :
    lastLine (line ++ '\n' :: rest) = lastLine rest := by
  rw [lastLine, splitOn_append_cons, splitOn_of_not_mem h, singleton_append,
    getLast?_cons_of_ne_nil (splitOn_ne_nil _ rest)]
  rfl

theorem exists_line (text : List Char) :
    '\n' ∉ text ∨ ∃ line rest, '\n' ∉ line ∧ text = line ++ '\n' :: rest := by
  by_cases h : '\n' ∈ text
  · obtain ⟨line, rest, htext, hline⟩ := eq_append_cons_of_mem h
    exact .inr ⟨line, rest, hline, htext⟩
  · exact .inl h

/-- **Induction on the lines of a text.** -/
theorem linesInduction {motive : List Char → Prop} (unfinished : ∀ text, '\n' ∉ text → motive text)
    (line : ∀ first rest, '\n' ∉ first → motive rest → motive (first ++ '\n' :: rest))
    (text : List Char) : motive text := by
  induction hlength : text.length using Nat.strong_induction_on generalizing text with
  | _ length ih =>
    rcases exists_line text with h | ⟨first, rest, hfirst, rfl⟩
    · exact unfinished text h
    · apply line first rest hfirst
      refine ih rest.length ?_ rest rfl
      rw [← hlength, length_append, length_cons]
      omega

theorem unlines_completeLines (text : List Char) :
    unlines (completeLines text) ++ lastLine text = text := by
  induction text using linesInduction with
  | unfinished text h => rw [completeLines_of_not_mem h, lastLine_of_not_mem h]; rfl
  | line first rest hfirst ih =>
    rw [completeLines_line hfirst, lastLine_line hfirst, unlines_cons, append_assoc,
      cons_append, ih]

theorem completeLines_append (text more : List Char) :
    completeLines (text ++ more) = completeLines text ++ completeLines (lastLine text ++ more) := by
  induction text using linesInduction with
  | unfinished text h => rw [completeLines_of_not_mem h, lastLine_of_not_mem h]; rfl
  | line first rest hfirst ih =>
    rw [append_assoc, cons_append, completeLines_line hfirst, ih,
      completeLines_line hfirst, lastLine_line hfirst, cons_append]

theorem lastLine_append (text more : List Char) :
    lastLine (text ++ more) = lastLine (lastLine text ++ more) := by
  induction text using linesInduction with
  | unfinished text h => rw [lastLine_of_not_mem h]
  | line first rest hfirst ih =>
    rw [append_assoc, cons_append, lastLine_line hfirst, ih, lastLine_line hfirst]

theorem not_mem_lastLine (text : List Char) : '\n' ∉ lastLine text := by
  induction text using linesInduction with
  | unfinished text h => rwa [lastLine_of_not_mem h]
  | line first rest hfirst ih => rwa [lastLine_line hfirst]

theorem not_mem_of_mem_completeLines (h : line ∈ completeLines text) : '\n' ∉ line := by
  induction text using linesInduction with
  | unfinished text hnone =>
    rw [completeLines_of_not_mem hnone] at h
    exact absurd h not_mem_nil
  | line first rest hfirst ih =>
    rw [completeLines_line hfirst] at h
    rcases mem_cons.mp h with rfl | hrest
    · exact hfirst
    · exact ih hrest

theorem completeLines_unlines {lines : List (List Char)} (h : ∀ line ∈ lines, '\n' ∉ line) :
    completeLines (unlines lines) = lines := by
  rw [completeLines, splitOn_unlines h, dropLast_concat]

theorem lastLine_unlines {lines : List (List Char)} (h : ∀ line ∈ lines, '\n' ∉ line) :
    lastLine (unlines lines) = [] := by
  rw [lastLine, splitOn_unlines h, getLast?_concat]
  rfl

theorem growing_line (h : '\n' ∉ line) (more : List Char) :
    (∃ grown rest, completeLines (line ++ more) = grown :: rest ∧ line <+: grown) ∨
      completeLines (line ++ more) = [] ∧ line <+: lastLine (line ++ more) := by
  rcases exists_line more with hmore | ⟨first, rest, hfirst, rfl⟩
  · have hnone : '\n' ∉ line ++ more := by
      rw [mem_append]
      exact fun hmem => hmem.elim h hmore
    rw [completeLines_of_not_mem hnone, lastLine_of_not_mem hnone]
    exact .inr ⟨rfl, prefix_append _ _⟩
  · have hline : '\n' ∉ line ++ first := by
      rw [mem_append]
      exact fun hmem => hmem.elim h hfirst
    rw [← append_assoc, completeLines_line hline]
    exact .inl ⟨_, _, rfl, prefix_append _ _⟩

/-! ## A reader -/

/-- What was read of a stream: the messages taken, and whether it was given up. -/
structure LineReading (α : Type*) where
  handled : List α
  dropped : Bool

structure LineReader (α : Type*) where
  reading : LineReading α
  buffer : List Char

variable {α : Type*} (parse : List Char → Option α) (limit : ℕ)

/-- Lines are taken up to one that is not a message. An empty one is passed over. -/
def takeLines : List (List Char) → LineReading α → LineReading α
  | [], reading => reading
  | line :: lines, reading =>
    if line.isEmpty then takeLines lines reading
    else
      match parse line with
      | none => { reading with dropped := true }
      | some message => takeLines lines { reading with handled := reading.handled ++ [message] }

/-- What is left after the lines is measured. -/
def measure (rest : List Char) (reading : LineReading α) : LineReading α :=
  { reading with dropped := reading.dropped || decide (limit < byteLength rest) }

namespace LineReader

def initial : LineReader α where
  reading := { handled := [], dropped := false }
  buffer := []

def feed (chunk : List Char) (reader : LineReader α) : LineReader α :=
  if reader.reading.dropped then reader
  else
    let buffer := reader.buffer ++ chunk
    { reading :=
        measure limit (lastLine buffer) (takeLines parse (completeLines buffer) reader.reading)
      buffer := lastLine buffer }

def feedAll (chunks : List (List Char)) (reader : LineReader α) : LineReader α :=
  chunks.foldl (fun reader chunk => reader.feed parse limit chunk) reader

end LineReader

def readable (line : List Char) : Bool := line.isEmpty || (parse line).isSome

/-- The lines of a text, up to one that is not a message. -/
def readableLines (text : List Char) : List (List Char) :=
  (completeLines text).takeWhile (readable parse)

/-- Of the lines up to one that is not a message, none is over the limit. -/
def FramesFit (text : List Char) : Prop :=
  ∀ line ∈ readableLines parse text, byteLength line ≤ limit

instance (text : List Char) : Decidable (FramesFit parse limit text) :=
  inferInstanceAs (Decidable (∀ line ∈ readableLines parse text, byteLength line ≤ limit))

variable {parse limit}

/-! ## Taking lines -/

variable (parse) in
theorem takeLines_append (lines more : List (List Char)) (reading : LineReading α)
    (h : reading.dropped = false) :
    takeLines parse (lines ++ more) reading =
      if (takeLines parse lines reading).dropped then takeLines parse lines reading
      else takeLines parse more (takeLines parse lines reading) := by
  induction lines generalizing reading with
  | nil => simp [takeLines, h]
  | cons line lines ih =>
    simp only [cons_append, takeLines]
    split
    · exact ih reading h
    · split
      · simp
      · exact ih _ h

variable (parse) in
theorem handled_takeLines (lines : List (List Char)) (reading : LineReading α) :
    (takeLines parse lines reading).handled = reading.handled ++
      ((lines.takeWhile (readable parse)).filter fun line => !line.isEmpty).filterMap parse := by
  induction lines generalizing reading with
  | nil => simp [takeLines]
  | cons line lines ih =>
    rw [takeLines]
    by_cases hempty : line.isEmpty
    · simp [hempty, readable, ih]
    · cases hparse : parse line with
      | none => simp [hempty, readable, hparse]
      | some message => simp [hempty, readable, hparse, ih]

variable (parse) in
theorem dropped_takeLines (lines : List (List Char)) (reading : LineReading α)
    (h : reading.dropped = false) :
    (takeLines parse lines reading).dropped = !lines.all (readable parse) := by
  induction lines generalizing reading with
  | nil => simp [takeLines, h]
  | cons line lines ih =>
    rw [takeLines]
    by_cases hempty : line.isEmpty
    · simp [hempty, readable, ih reading h]
    · cases hparse : parse line with
      | none => simp [hempty, readable, hparse]
      | some message =>
        have hrest := ih { reading with handled := reading.handled ++ [message] } h
        simpa [hempty, readable, hparse] using hrest

/-! ## Chunks -/

theorem measure_of_over {rest : List Char} (h : limit < byteLength rest) (reading : LineReading α) :
    measure limit rest reading = { reading with dropped := true } := by
  rw [measure, decide_eq_true h, Bool.or_true]

theorem measure_of_within {rest : List Char} (h : ¬limit < byteLength rest)
    (reading : LineReading α) :
    measure limit rest reading = reading := by
  rw [measure, decide_eq_false h, Bool.or_false]

theorem measure_of_dropped {reading : LineReading α} (h : reading.dropped = true)
    (rest : List Char) :
    measure limit rest reading = reading := by
  rw [measure, h, Bool.true_or, ← h]

theorem byteLength_le_of_starts {more : List Char} (h : text <+: more) :
    byteLength text ≤ byteLength more := by
  obtain ⟨rest, rfl⟩ := h
  rw [byteLength_append]
  exact Nat.le_add_right _ _

namespace LineReader

/-- What is kept between two chunks is a line without its newline, within the limit. -/
structure Waiting (limit : ℕ) (reader : LineReader α) : Prop where
  unfinished : '\n' ∉ reader.buffer
  within : reader.reading.dropped = false → byteLength reader.buffer ≤ limit

theorem waiting_initial : (initial : LineReader α).Waiting limit :=
  ⟨not_mem_nil, fun _ => Nat.zero_le _⟩

variable {reader : LineReader α}

theorem feed_of_open (h : reader.reading.dropped = false) (chunk : List Char) :
    reader.feed parse limit chunk =
      { reading :=
          measure limit (lastLine (reader.buffer ++ chunk))
            (takeLines parse (completeLines (reader.buffer ++ chunk)) reader.reading)
        buffer := lastLine (reader.buffer ++ chunk) } := by
  rw [LineReader.feed, if_neg (not_eq_true _ ▸ h)]

theorem feed_of_dropped (h : reader.reading.dropped = true)
    (chunk : List Char) : reader.feed parse limit chunk = reader := by
  rw [feed, if_pos h]

variable (parse) in
theorem Waiting.feed (h : reader.Waiting limit) (chunk : List Char) :
    (reader.feed parse limit chunk).Waiting limit := by
  cases hdropped : reader.reading.dropped with
  | true => rwa [feed_of_dropped hdropped]
  | false =>
    rw [feed_of_open hdropped]
    refine ⟨not_mem_lastLine _, fun hopen => ?_⟩
    have hover := (or_eq_false_iff.mp hopen).2
    exact Nat.le_of_not_lt (of_decide_eq_false hover)

variable (parse limit) in
theorem handled_prefix_feed (reader : LineReader α) (chunk : List Char) :
    reader.reading.handled <+: (reader.feed parse limit chunk).reading.handled := by
  cases hdropped : reader.reading.dropped with
  | true =>
    rw [feed_of_dropped hdropped]
  | false =>
    rw [feed_of_open hdropped]
    have hhandled := handled_takeLines parse (completeLines (reader.buffer ++ chunk)) reader.reading
    exact ⟨_, hhandled.symm⟩

theorem feedAll_of_dropped (h : reader.reading.dropped = true)
    (chunks : List (List Char)) : reader.feedAll parse limit chunks = reader := by
  induction chunks with
  | nil => rfl
  | cons chunk chunks ih =>
    rw [feedAll, foldl_cons, feed_of_dropped h]
    exact ih

variable {more : List Char}

/-- A line over the limit that can only be the end of the stream. -/
theorem takeLines_of_over {reading : LineReading α} {rest : List Char}
    (hrest : '\n' ∉ rest) (hover : limit < byteLength rest)
    (hfit : FramesFit parse limit (rest ++ more)) :
    takeLines parse (completeLines (rest ++ more)) reading = { reading with dropped := true } ∨
      takeLines parse (completeLines (rest ++ more)) reading = reading ∧
        limit < byteLength (lastLine (rest ++ more)) := by
  rcases growing_line hrest more with ⟨grown, lines, hlines, hprefix⟩ | ⟨hnone, hprefix⟩
  · left
    have hgrown : limit < byteLength grown := hover.trans_le (byteLength_le_of_starts hprefix)
    have hunreadable : readable parse grown = false := by
      by_contra hreadable
      apply absurd (hfit grown _) (not_le_of_gt hgrown)
      rw [readableLines, hlines, takeWhile_cons_of_pos (by simpa using hreadable)]
      exact mem_cons_self
    rw [readable, or_eq_false_iff] at hunreadable
    have hparse : parse grown = none := by simpa using hunreadable.2
    rw [hlines, takeLines, if_neg (by simpa using hunreadable.1), hparse]
  · right
    rw [hnone]
    exact ⟨rfl, hover.trans_le (byteLength_le_of_starts hprefix)⟩

theorem framesFit_rest {text : List Char} (hall : (completeLines text).all (readable parse) = true)
    (hfit : FramesFit parse limit (text ++ more)) :
    FramesFit parse limit (lastLine text ++ more) := by
  intro line hline
  apply hfit line
  rw [readableLines, completeLines_append, takeWhile_append_of_pos (all_eq_true.mp hall)]
  exact mem_append_right _ hline

/-- **Two chunks are read as one.** -/
theorem reading_feed_feed {chunk : List Char} (hopen : reader.reading.dropped = false)
    (hfit : FramesFit parse limit (reader.buffer ++ (chunk ++ more))) :
    ((reader.feed parse limit chunk).feed parse limit more).reading =
      (reader.feed parse limit (chunk ++ more)).reading := by
  rw [feed_of_open hopen (chunk ++ more), feed_of_open hopen chunk]
  rw [← append_assoc] at hfit ⊢
  generalize reader.buffer ++ chunk = buffer at hfit ⊢
  have hlines := takeLines_append parse (completeLines buffer)
    (completeLines (lastLine buffer ++ more)) reader.reading hopen
  rw [← completeLines_append] at hlines
  have hall := dropped_takeLines parse (completeLines buffer) reader.reading hopen
  cases hdropped : (takeLines parse (completeLines buffer) reader.reading).dropped with
  | true =>
    -- a line of the first chunk ends the stream
    rw [hdropped, if_pos rfl] at hlines
    rw [hlines, measure_of_dropped hdropped, measure_of_dropped hdropped, feed_of_dropped hdropped]
  | false =>
    rw [hdropped, if_neg Bool.false_ne_true] at hlines
    rw [hdropped, eq_comm, not_eq_false'] at hall
    rw [hlines]
    by_cases hover : limit < byteLength (lastLine buffer)
    · -- the first chunk leaves too much; in one piece the line is given up or is too long as well
      rw [measure_of_over hover, feed_of_dropped rfl]
      rcases takeLines_of_over (not_mem_lastLine buffer) hover (framesFit_rest hall hfit) with
        hend | ⟨hsame, hlong⟩
      · rw [hend, measure_of_dropped rfl]
      · rw [hsame, lastLine_append, measure_of_over hlong]
    · rw [measure_of_within hover, feed_of_open hdropped, lastLine_append buffer more]

/-- **Chunks are read as their text**, where no line that could be taken is over the limit. -/
theorem reading_feedAll (hwaiting : reader.Waiting limit)
    (hopen : reader.reading.dropped = false) {chunks : List (List Char)}
    (hfit : FramesFit parse limit (reader.buffer ++ chunks.flatten)) :
    (reader.feedAll parse limit chunks).reading =
      (reader.feed parse limit chunks.flatten).reading := by
  induction chunks generalizing reader with
  | nil =>
    have hlast := lastLine_of_not_mem hwaiting.unfinished
    have hnone := completeLines_of_not_mem hwaiting.unfinished
    rw [feed_of_open hopen, flatten_nil, append_nil, hnone, hlast,
      measure_of_within (not_lt_of_ge (hwaiting.within hopen))]
    rfl
  | cons chunk chunks ih =>
    rw [flatten_cons] at hfit ⊢
    rw [← reading_feed_feed hopen hfit]
    have hnext := hwaiting.feed parse chunk
    have hfold : reader.feedAll parse limit (chunk :: chunks) =
        (reader.feed parse limit chunk).feedAll parse limit chunks := rfl
    rw [hfold]
    cases hdropped : (reader.feed parse limit chunk).reading.dropped with
    | true => rw [feedAll_of_dropped hdropped, feed_of_dropped hdropped]
    | false =>
      apply ih hnext hdropped
      rw [feed_of_open hopen] at hdropped ⊢
      have htaken := (or_eq_false_iff.mp hdropped).1
      rw [dropped_takeLines _ _ _ hopen, not_eq_false'] at htaken
      apply framesFit_rest htaken
      rwa [append_assoc]

/-- A line over the limit is taken in one piece, and not when its newline comes alone. -/
theorem reading_differs {text : List Char} (h : ¬FramesFit parse limit text) :
    ∃ first second, first ++ second = text ∧
      ((initial : LineReader α).feedAll parse limit [first, second]).reading ≠
        ((initial : LineReader α).feedAll parse limit [text]).reading := by
  unfold FramesFit at h
  push Not at h
  obtain ⟨line, hline, hover⟩ := h
  obtain ⟨before, after, hreadable⟩ := append_of_mem hline
  have hsplit := takeWhile_append_dropWhile (p := readable parse) (l := completeLines text)
  rw [← readableLines, hreadable, append_assoc, cons_append] at hsplit
  have hmem : ∀ l ∈ before ++ line :: after, l ∈ completeLines text ∧ readable parse l = true := by
    intro l hl
    rw [← hreadable] at hl
    exact ⟨takeWhile_subset _ hl, mem_takeWhile_imp hl⟩
  have hbefore : ∀ l ∈ before, '\n' ∉ l := fun l hl =>
    not_mem_of_mem_completeLines (hmem l (mem_append_left _ hl)).1
  have hnewline : '\n' ∉ line := not_mem_of_mem_completeLines (hmem line (by simp)).1
  have htext : text = (unlines before ++ line) ++ '\n' ::
      (unlines (after ++ (completeLines text).dropWhile (readable parse)) ++ lastLine text) := by
    conv_lhs => rw [← unlines_completeLines text, ← hsplit]
    simp [unlines, append_assoc]
  have hlines : completeLines (unlines before ++ line) = before := by
    rw [completeLines_append, completeLines_unlines hbefore, lastLine_unlines hbefore,
      nil_append, completeLines_of_not_mem hnewline, append_nil]
  have hlast : lastLine (unlines before ++ line) = line := by
    rw [lastLine_append, lastLine_unlines hbefore, nil_append, lastLine_of_not_mem hnewline]
  refine ⟨unlines before ++ line, _, htext.symm, fun hsame => ?_⟩
  have hcut : ((initial : LineReader α).feedAll parse limit [unlines before ++ line, '\n' ::
      (unlines (after ++ (completeLines text).dropWhile (readable parse)) ++
        lastLine text)]).reading.handled =
      (takeLines parse before (initial : LineReader α).reading).handled := by
    have hfirst : ((initial : LineReader α).feed parse limit (unlines before ++ line)) =
        { reading := { takeLines parse before (initial : LineReader α).reading with
            dropped := true }
          buffer := line } := by
      have hempty : (initial : LineReader α).buffer = [] := rfl
      rw [feed_of_open rfl, hempty, nil_append, hlines, hlast, measure_of_over hover]
    rw [feedAll, foldl_cons, hfirst]
    rw [foldl_cons, feed_of_dropped rfl]
    rfl
  have hwhole : ((initial : LineReader α).feedAll parse limit [text]).reading.handled =
      (takeLines parse (completeLines text) (initial : LineReader α).reading).handled := rfl
  rw [hsame, hwhole, handled_takeLines, handled_takeLines, ← readableLines, hreadable] at hcut
  have hempty : line.isEmpty = false := by
    cases line with
    | nil => exact absurd hover (Nat.not_lt_zero _)
    | cons => rfl
  have hparse : (parse line).isSome = true := by
    have hline := (hmem line (by simp)).2
    rwa [readable, hempty, Bool.false_or] at hline
  obtain ⟨message, hmessage⟩ := Option.isSome_iff_exists.mp hparse
  have hall : before.takeWhile (readable parse) = before :=
    takeWhile_eq_self_iff.mpr fun l hl => (hmem l (mem_append_left _ hl)).2
  rw [hall] at hcut
  have hlength := congrArg List.length hcut
  simp [hempty, hmessage] at hlength

end LineReader

/-! ## Bytes

The chunks of a socket are cut anywhere between two bytes. The decoder holds the bytes of an
unfinished character back. -/

def takeBytes : ℕ → List Char → List Char
  | _, [] => []
  | bytes, c :: text =>
    if c.utf8Size ≤ bytes then c :: takeBytes (bytes - c.utf8Size) text else []

/-- What the decoder gives for chunks of so many bytes, with some bytes held from before. -/
def decoded : ℕ → List ℕ → List Char → List (List Char)
  | _, [], _ => []
  | held, bytes :: cuts, text =>
    let chunk := takeBytes (held + bytes) text
    chunk :: decoded (held + bytes - byteLength chunk) cuts (text.drop chunk.length)

theorem takeBytes_prefix (bytes : ℕ) (text : List Char) : takeBytes bytes text <+: text := by
  induction text generalizing bytes with
  | nil => exact nil_prefix
  | cons c text ih =>
    rw [takeBytes]
    split
    · exact cons_prefix_cons.mpr ⟨rfl, ih _⟩
    · exact nil_prefix

theorem byteLength_takeBytes (bytes : ℕ) (text : List Char) :
    byteLength (takeBytes bytes text) ≤ bytes := by
  induction text generalizing bytes with
  | nil => exact Nat.zero_le _
  | cons c text ih =>
    rw [takeBytes]
    split
    · next hfits =>
      have hrest := ih (bytes - c.utf8Size)
      rw [byteLength_cons]
      omega
    · exact Nat.zero_le _

theorem takeBytes_append (text more : List Char) :
    takeBytes (byteLength text) (text ++ more) = text := by
  induction text with
  | nil =>
    cases more with
    | nil => rfl
    | cons c more =>
      have hpos := c.utf8Size_pos
      exact if_neg (Nat.not_le_of_lt hpos)
  | cons c text ih =>
    rw [cons_append, takeBytes, byteLength_cons, if_pos (Nat.le_add_right _ _),
      Nat.add_sub_cancel_left, ih]

theorem takeBytes_rest (bytes : ℕ) (text : List Char) :
    ∀ c ∈ (text.drop (takeBytes bytes text).length).head?,
      bytes - byteLength (takeBytes bytes text) < c.utf8Size := by
  induction text generalizing bytes with
  | nil => exact fun c hc => absurd hc (by simp)
  | cons d text ih =>
    intro c hc
    rw [takeBytes] at hc ⊢
    split at hc
    · next hfits =>
      rw [if_pos hfits, byteLength_cons, ← Nat.sub_sub]
      exact ih (bytes - d.utf8Size) c hc
    · next hfits =>
      rw [if_neg hfits]
      have hd : d = c := by simpa using hc
      subst hd
      exact Nat.lt_of_not_le hfits

/-- **Nothing is lost or changed by the decoder**, wherever the bytes are cut. -/
theorem flatten_decoded {held : ℕ} {cuts : List ℕ}
    (hheld : ∀ c ∈ text.head?, held < c.utf8Size) (hsum : held + cuts.sum = byteLength text) :
    (decoded held cuts text).flatten = text := by
  induction cuts generalizing held text with
  | nil =>
    cases text with
    | nil => rfl
    | cons c text =>
      have hshort := hheld c rfl
      rw [byteLength_cons, sum_nil] at hsum
      omega
  | cons bytes cuts ih =>
    obtain ⟨rest, hrest⟩ := takeBytes_prefix (held + bytes) text
    have hdrop : text.drop (takeBytes (held + bytes) text).length = rest := by
      have happend : (takeBytes (held + bytes) text ++ rest).drop
          (takeBytes (held + bytes) text).length = rest := drop_left
      rwa [hrest] at happend
    have hlength := congrArg byteLength hrest
    have hle := byteLength_takeBytes (held + bytes) text
    have hhead := takeBytes_rest (held + bytes) text
    rw [byteLength_append] at hlength
    rw [sum_cons] at hsum
    rw [hdrop] at hhead
    rw [decoded, flatten_cons, hdrop, ih hhead (by omega)]
    exact hrest

theorem decoded_pair (first second : List Char) :
    decoded 0 [byteLength first, byteLength second] (first ++ second) = [first, second] := by
  have hfirst := takeBytes_append first second
  have hsecond := takeBytes_append second []
  rw [append_nil] at hsecond
  simp only [decoded, Nat.zero_add, hfirst, Nat.sub_self, drop_left, hsecond]

theorem decoded_single (text : List Char) : decoded 0 [byteLength text] text = [text] := by
  have hwhole := takeBytes_append text []
  rw [append_nil] at hwhole
  simp only [decoded, Nat.zero_add, hwhole]

/-- What a reader has read of a stream that came in chunks of so many bytes. -/
def readInCuts (parse : List Char → Option α) (limit : ℕ) (text : List Char) (cuts : List ℕ) :
    LineReading α :=
  (LineReader.initial.feedAll parse limit (decoded 0 cuts text)).reading

/-- **The chunks make no difference exactly if the frames fit.** -/
theorem readInCuts_congr_iff (text : List Char) :
    (∀ cuts cuts' : List ℕ, cuts.sum = byteLength text → cuts'.sum = byteLength text →
      readInCuts parse limit text cuts = readInCuts parse limit text cuts') ↔
      FramesFit parse limit text := by
  constructor
  · intro hsame
    by_contra hfit
    obtain ⟨first, second, htext, hdiffers⟩ := LineReader.reading_differs hfit
    apply hdiffers
    have hcuts := hsame [byteLength first, byteLength second] [byteLength text]
      (by simp [← htext]) (by simp)
    rw [readInCuts, readInCuts, decoded_single, ← htext, decoded_pair] at hcuts
    rw [← htext]
    exact hcuts
  · intro hfit cuts cuts' hcuts hcuts'
    have hread : ∀ cuts : List ℕ, cuts.sum = byteLength text → readInCuts parse limit text cuts =
          (LineReader.initial.feed parse limit text).reading := by
      intro cuts hcuts
      have hflatten : (decoded 0 cuts text).flatten = text :=
        flatten_decoded (fun c _ => c.utf8Size_pos) (by rw [Nat.zero_add, hcuts])
      have hfits : FramesFit parse limit
          ((LineReader.initial : LineReader α).buffer ++ (decoded 0 cuts text).flatten) := by
        rw [hflatten]
        exact hfit
      have hall := LineReader.reading_feedAll LineReader.waiting_initial rfl hfits
      rwa [hflatten] at hall
    rw [hread cuts hcuts, hread cuts' hcuts']

end Laborer.Library
