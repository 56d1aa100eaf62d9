import Laborer.Library.LineTexts
import Mathlib.Data.Nat.Digits.Defs

/-!
# What git prints of changed files

The listings and patches of git for a set of changes, in its documented formats: names
quoted where they have to be, the notation of a rename, and patches of header and hunk
lines.
-/

namespace Laborer.Files

open Laborer.Library

/-! ## Names -/

abbrev GitName := { name : List Char // name ≠ [] }

/-- A character that makes git quote a name, with `core.quotepath` off. -/
def needsQuote (c : Char) : Bool :=
  c.toNat < 0x20 || c = quotationMark || c = backslash || c.toNat = 0x7f

def octalDigit (n : ℕ) : Char :=
  Char.ofNat (0x30 + n % 8)

def escapeChar (c : Char) : List Char :=
  match c.toNat with
  | 0x07 => [backslash, 'a']
  | 0x08 => [backslash, 'b']
  | 0x09 => [backslash, 't']
  | 0x0a => [backslash, 'n']
  | 0x0b => [backslash, 'v']
  | 0x0c => [backslash, 'f']
  | 0x0d => [backslash, 'r']
  | 0x22 => [backslash, quotationMark]
  | 0x5c => [backslash, backslash]
  | n => [backslash, octalDigit (n / 64), octalDigit (n / 8), octalDigit n]

def quoteBody (name : List Char) : List Char :=
  name.flatMap fun c => if needsQuote c then escapeChar c else [c]

/-- A name after a prefix, quoted together with it where the name has to be. -/
def quoteTwo (before name : List Char) : List Char :=
  if name.any needsQuote then quotationMark :: before ++ quoteBody name ++ [quotationMark]
  else before ++ name

def quoteName (name : List Char) : List Char :=
  quoteTwo [] name

def commonPrefix : List Char → List Char → List Char
  | a :: p, b :: q => if a = b then a :: commonPrefix p q else []
  | _, _ => []

/-- The notation of a rename, with the directories that the names share outside the braces. -/
def renameNotation (old new : List Char) : List Char :=
  if old.any needsQuote || new.any needsQuote then
    quoteName old ++ " => ".toList ++ quoteName new
  else
    let before := ((commonPrefix old new).reverse.dropWhile fun c => c ≠ '/').reverse
    -- the slash at the end of the common start may begin the common end as well
    let kept := before.length - 1
    let common := commonPrefix (old.drop kept).reverse (new.drop kept).reverse
    let after := common.reverse.dropWhile fun c => c ≠ '/'
    let middle := fun name : List Char =>
      (name.drop before.length).take (name.length - before.length - after.length)
    let renamed := middle old ++ " => ".toList ++ middle new
    if before = [] ∧ after = [] then renamed
    else before ++ '\x7b' :: renamed ++ '\x7d' :: after

/-! ## Changes -/

abbrev OneLine := { text : List Char // '\n' ∉ text }

inductive ChangeKind where
  | modified
  | added
  | deleted
  | renamed (oldPath : GitName)
deriving DecidableEq

inductive HeaderLabel where
  | oldMode
  | newMode
  | deletedFileMode
  | newFileMode
  | similarityIndex
  | renameFrom
  | renameTo
  | index
  | binaryFiles

def HeaderLabel.text : HeaderLabel → List Char
  | .oldMode => "old mode ".toList
  | .newMode => "new mode ".toList
  | .deletedFileMode => "deleted file mode ".toList
  | .newFileMode => "new file mode ".toList
  | .similarityIndex => "similarity index ".toList
  | .renameFrom => "rename from ".toList
  | .renameTo => "rename to ".toList
  | .index => "index ".toList
  | .binaryFiles => "Binary files ".toList

structure ExtendedHeader where
  label : HeaderLabel
  value : OneLine

inductive HunkMarker where
  | range
  | context
  | added
  | removed
  | noNewline

def HunkMarker.char : HunkMarker → Char
  | .range => '@'
  | .context => ' '
  | .added => '+'
  | .removed => '-'
  | .noNewline => backslash

/-- A line of a hunk: its marker, and any text of one line. -/
structure HunkLine where
  marker : HunkMarker
  text : OneLine

/-- One changed file. A mode change, a binary file and an empty file have no hunks. -/
structure FileChange where
  path : GitName
  kind : ChangeKind
  /-- The lines added and removed, `none` for a binary file. -/
  counts : Option (ℕ × ℕ)
  headers : List ExtendedHeader
  hunks : List HunkLine

namespace FileChange

variable (change : FileChange)

def oldPath : GitName :=
  match change.kind with
  | .renamed oldPath => oldPath
  | .modified | .added | .deleted => change.path

def DIFF_GIT : List Char := "diff --git ".toList

def headerLine : List Char :=
  DIFF_GIT ++ quoteTwo "a/".toList change.oldPath.val ++ ' ' :: quoteTwo "b/".toList change.path.val

/-- A tab after a name with a space in it. -/
def nameTab (name : List Char) : List Char :=
  if ' ' ∈ name then ['\t'] else []

def oldLine : List Char :=
  match change.kind with
  | .added => "--- /dev/null".toList
  | .modified | .deleted | .renamed _ =>
    "--- ".toList ++ quoteTwo "a/".toList change.oldPath.val ++ nameTab change.oldPath.val

def newLine : List Char :=
  match change.kind with
  | .deleted => "+++ /dev/null".toList
  | .modified | .added | .renamed _ =>
    "+++ ".toList ++ quoteTwo "b/".toList change.path.val ++ nameTab change.path.val

def headerLines : List (List Char) :=
  change.headers.map fun header => header.label.text ++ header.value.val

def hunkLines : List (List Char) :=
  change.hunks.map fun line => line.marker.char :: line.text.val

def bodyLines : List (List Char) :=
  change.headerLines ++
    if change.hunks = [] then [] else change.oldLine :: change.newLine :: change.hunkLines

/-- The file's own patch. -/
def patchText : List Char :=
  unlines (change.headerLine :: change.bodyLines)

/-- The path as `--numstat` shows it. -/
def statPath : List Char :=
  match change.kind with
  | .renamed oldPath => renameNotation oldPath.val change.path.val
  | .modified | .added | .deleted => quoteName change.path.val

def countText : List Char :=
  match change.counts with
  | none => ['-', '\t', '-', '\t']
  | some (added, removed) => Nat.toDigits 10 added ++ '\t' :: Nat.toDigits 10 removed ++ ['\t']

def numstatLine : List Char :=
  change.countText ++ change.statPath

end FileChange

/-! ## A worktree with changes -/

/-- A worktree against its base: what git tracks, and the files it does not. A file taken from the
index but still on disk is deleted and untracked. -/
structure ChangedWorktree where
  tracked : List FileChange
  untracked : List FileChange
  tracked_nodup : (tracked.map FileChange.path).Nodup
  untracked_nodup : (untracked.map FileChange.path).Nodup
  added_of_untracked : ∀ change ∈ untracked, change.kind = .added
  /-- The text of a file, `none` when there is none. -/
  contents : List Char → Option (List Char)
  /-- What `git diff --no-index -- /dev/null` prints for a path. -/
  noIndex : List Char → List Char
  noIndex_of_untracked : ∀ change ∈ untracked, noIndex change.path.val = change.patchText

namespace ChangedWorktree

variable (worktree : ChangedWorktree)

/-- `git diff --numstat`. -/
def numstat : List Char :=
  unlines (worktree.tracked.map FileChange.numstatLine)

def nameOnly (changes : List FileChange) : List Char :=
  unlines (changes.map fun change => quoteName change.path.val)

def others : List Char :=
  nameOnly worktree.untracked

def deletedChanges : List FileChange :=
  worktree.tracked.filter fun change => change.kind = .deleted

def addedChanges : List FileChange :=
  worktree.tracked.filter fun change => change.kind = .added

def patch : List Char :=
  (worktree.tracked.map FileChange.patchText).flatten

def changes : List FileChange :=
  worktree.tracked ++ worktree.untracked

end ChangedWorktree

end Laborer.Files
