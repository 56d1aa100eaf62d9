import Laborer.Library.Occurrences
import Laborer.Library.Text

/-!
# Agent memory

The text of an agent memory with its framed entries, and the mutations of it. Texts
are lists of characters.
-/

namespace Laborer.AcpRuntime

open Laborer.Library

/-! ## Framing -/

def memoryEntryFrameStart : List Char :=
  "<!-- laborer-memory-entry:start -->\n".toList

def memoryEntryFrameEnd : List Char :=
  "\n<!-- laborer-memory-entry:end -->".toList

def memoryEntrySeparator : List Char :=
  ['\n', '\n']

/-- `MEMORY_ENTRY_FRAME_START.trimEnd()`. -/
def memoryEntryStartDelimiter : List Char :=
  memoryEntryFrameStart.dropLast

/-- `MEMORY_ENTRY_FRAME_END.trimStart()`. -/
def memoryEntryEndDelimiter : List Char :=
  memoryEntryFrameEnd.tail

structure FramedMemoryEntry where
  content : List Char
  contentEnd : ℕ
  contentStart : ℕ
  frameEnd : ℕ
  frameStart : ℕ

/-- `value.includes(pattern)`. -/
def includes (value pattern : List Char) : Bool :=
  (indexOf value pattern 0).isSome

def containsMemoryEntryFrameDelimiter (value : List Char) : Bool :=
  includes value memoryEntryStartDelimiter || includes value memoryEntryEndDelimiter

def renderFramedMemoryEntry (content : List Char) : List Char :=
  memoryEntryFrameStart ++ (content ++ memoryEntryFrameEnd)

/-- `source.slice(start, end)`, for indexes from zero on. -/
def slice (source : List Char) (start stop : ℕ) : List Char :=
  (source.drop start).take (stop - start)

def startsAtEntryBoundary (source : List Char) (frameStart : ℕ) : Bool :=
  -- below the length of the separator the slice does not reach back far enough
  frameStart = 0 || (2 ≤ frameStart &&
    slice source (frameStart - memoryEntrySeparator.length) frameStart = memoryEntrySeparator)

def endsAtEntryBoundary (source : List Char) (frameEnd : ℕ) : Bool :=
  frameEnd = source.length ||
    slice source frameEnd (frameEnd + memoryEntrySeparator.length) = memoryEntrySeparator

def framedMemoryEntriesFrom (source : List Char) : ℕ → ℕ → List FramedMemoryEntry
  | 0, _ => []
  | fuel + 1, fromIndex =>
    if fromIndex < source.length then
      match indexOf source memoryEntryFrameStart fromIndex with
      | none => []
      | some frameStart =>
        if startsAtEntryBoundary source frameStart then
          let contentStart := frameStart + memoryEntryFrameStart.length
          match indexOf source memoryEntryFrameEnd contentStart with
          | none => []
          | some endStart =>
            match (indexOf source memoryEntryFrameStart contentStart).filter (· < endStart) with
            | some nestedStart => framedMemoryEntriesFrom source fuel nestedStart
            | none =>
              let frameEnd := endStart + memoryEntryFrameEnd.length
              if endsAtEntryBoundary source frameEnd then
                { content := slice source contentStart endStart
                  contentEnd := endStart
                  contentStart
                  frameEnd
                  frameStart } :: framedMemoryEntriesFrom source fuel frameEnd
              else framedMemoryEntriesFrom source fuel (frameStart + 1)
        else framedMemoryEntriesFrom source fuel (frameStart + 1)
    else []

def framedMemoryEntries (source : List Char) : List FramedMemoryEntry :=
  framedMemoryEntriesFrom source source.length 0

def stripFrom (source : List Char) : List FramedMemoryEntry → ℕ → List Char
  | [], fromIndex => source.drop fromIndex
  | entry :: rest, fromIndex =>
    slice source fromIndex entry.frameStart ++
      (entry.content ++ stripFrom source rest entry.frameEnd)

def stripMemoryEntryFraming (source : List Char) : List Char :=
  stripFrom source (framedMemoryEntries source) 0

/-! ## Mutations -/

inductive MemoryOperation where
  | add | remove | replace
deriving DecidableEq

structure MemoryMutation where
  operation : MemoryOperation
  replacement : Option (List Char) := none
  text : List Char

inductive MemoryMutationReason where
  | ambiguousMatch | invalidInput | invalidSource | limitExceeded | sourceOversized
deriving DecidableEq

def isRenderedCharacter (c : Char) : Bool :=
  c.toNat ∈ [0x09, 0x0a, 0x0d] || (0x20 ≤ c.toNat && c.toNat ≤ 0xd7ff) ||
    (0xe000 ≤ c.toNat && c.toNat ≤ 0xfffd) || 0x10000 ≤ c.toNat

def escapedWidth (c : Char) : ℕ :=
  if c = '&' then 5 else if c = '<' ∨ c = '>' then 4 else 1

def escapedRenderedCharacterCount (value : List Char) : Except MemoryMutationReason ℕ :=
  if value.all isRenderedCharacter then .ok (value.map escapedWidth).sum
  else .error .invalidSource

def exactMatchIndexes (source text : List Char) : List ℕ :=
  occurrences source text

/-- The range is clear of an entry's frame, or in its content. -/
def isVisibleRange (index stop : ℕ) (entry : FramedMemoryEntry) : Bool :=
  let overlapsFrame := index < entry.frameEnd && entry.frameStart < stop
  let isInsideVisibleContent := entry.contentStart ≤ index && stop ≤ entry.contentEnd
  !overlapsFrame || isInsideVisibleContent

def visibleMatchIndexes (source text : List Char) : List ℕ :=
  (exactMatchIndexes source text).filter fun index =>
    (framedMemoryEntries source).all (isVisibleRange index (index + text.length))

def dropLineBreak : List Char → Option (List Char)
  | '\n' :: rest => some rest
  | '\r' :: '\n' :: rest => some rest
  | _ => none

def isBlank (c : Char) : Bool :=
  c = '\t' || c = ' '

/-- `BLANK_LINE_AFTER_PATTERN`. -/
def blankLineAfter (text : List Char) : Bool :=
  ((dropLineBreak text).bind fun rest => dropLineBreak (rest.dropWhile isBlank)).isSome

/-- `BLANK_LINE_BEFORE_PATTERN`, read from the end of the text. -/
def blankLineBefore (text : List Char) : Bool :=
  match text.reverse with
  | '\n' :: rest =>
    let rest := if rest.head? = some '\r' then rest.tail else rest
    (rest.dropWhile isBlank).head? = some '\n'
  | _ => false

def hasExactAddedEntry (source candidate : List Char) : Bool :=
  let framedEntries := framedMemoryEntries source
  framedEntries.any (·.content = candidate) ||
    (exactMatchIndexes source candidate).any fun index =>
      let stop := index + candidate.length
      let overlapsFramedEntry := framedEntries.any fun entry =>
        index < entry.frameEnd && entry.frameStart < stop
      !overlapsFramedEntry &&
        ((index = 0 || blankLineBefore (source.take index)) &&
          (stop = source.length || blankLineAfter (source.drop stop)))

def additionSeparator (source : List Char) : List Char :=
  if source = [] then [] else memoryEntrySeparator

/-- The range that goes with an entry: its frame and one separator beside it. -/
def removalRange (source : List Char) (entry : FramedMemoryEntry) : ℕ × ℕ :=
  let separator := memoryEntrySeparator
  if separator.length ≤ entry.frameStart &&
      slice source (entry.frameStart - separator.length) entry.frameStart = separator then
    (entry.frameStart - separator.length, entry.frameEnd)
  else if slice source entry.frameEnd (entry.frameEnd + separator.length) = separator then
    (entry.frameStart, entry.frameEnd + separator.length)
  else (entry.frameStart, entry.frameEnd)

/-- The entry whose whole content a removal names. -/
def removedEntry (source : List Char) (mutation : MemoryMutation) (index : ℕ) :
    Option FramedMemoryEntry :=
  if mutation.operation = .remove then
    (framedMemoryEntries source).find? fun entry =>
      entry.contentStart = index && entry.contentEnd = index + mutation.text.length
  else none

structure Applied where
  changed : Bool
  content : List Char
deriving DecidableEq

def applyMutation (source : List Char) (mutation : MemoryMutation) :
    Except MemoryMutationReason Applied :=
  if mutation.operation = .add then
    if hasExactAddedEntry source mutation.text then .ok { changed := false, content := source }
    else .ok
      { changed := true
        content :=
          source ++ (additionSeparator source ++ renderFramedMemoryEntry mutation.text) }
  else
    match visibleMatchIndexes source mutation.text with
    | [index] =>
      match if mutation.operation = .replace then mutation.replacement else some [] with
      | none => .error .invalidInput
      | some replacement =>
        let stop := index + mutation.text.length
        match removedEntry source mutation index with
        | some entry =>
          let range := removalRange source entry
          .ok { changed := true, content := source.take range.1 ++ source.drop range.2 }
        | none => .ok
            { changed := replacement ≠ mutation.text
              content := source.take index ++ (replacement ++ source.drop stop) }
    | _ => .error .ambiguousMatch

def isBlankText (text : List Char) : Bool :=
  text.all isJsWhitespace

def validateMutation (mutation : MemoryMutation) : Except MemoryMutationReason Unit :=
  if isBlankText mutation.text ||
      (mutation.operation = .replace && mutation.replacement.any isBlankText) ||
      containsMemoryEntryFrameDelimiter mutation.text ||
      mutation.replacement.any containsMemoryEntryFrameDelimiter then .error .invalidInput
  else if mutation.operation = .replace && mutation.replacement.isNone ||
      mutation.operation ≠ .replace && mutation.replacement.isSome then .error .invalidInput
  else .ok ()

/-- The source after a mutation. A mutation that changes nothing writes nothing. -/
def mutate (characterLimit : ℕ) (source : List Char) (mutation : MemoryMutation) :
    Except MemoryMutationReason Applied := do
  validateMutation mutation
  let currentCharacters ← escapedRenderedCharacterCount (stripMemoryEntryFraming source)
  if characterLimit < currentCharacters then throw .sourceOversized
  else do
    let next ← applyMutation source mutation
    let renderedCharacters ← escapedRenderedCharacterCount (stripMemoryEntryFraming next.content)
    if characterLimit < renderedCharacters then throw .limitExceeded
    else pure { next with content := if next.changed then next.content else source }

end Laborer.AcpRuntime
