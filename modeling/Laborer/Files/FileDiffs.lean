import Laborer.Files.FilesystemContainment
import Laborer.Files.GitOutputs
import Laborer.Library.Decimals

/-!
# The changed files of a workspace

What `file.diff` makes of the listings and the patch that git prints.
-/

namespace Laborer.Files

open Laborer.Library

/-! ## The listings -/

inductive FileStatus where
  | added
  | deleted
  | modified
deriving DecidableEq

structure FileInfo where
  path : List Char
  added : ℕ
  removed : ℕ
  status : FileStatus

def listedLines (stdout : List Char) : List (List Char) :=
  if trimChars stdout = [] then [] else (trimChars stdout).splitOn '\n'

/-- A number of lines; a dash, and what is no number, counts as none. -/
def parseCount (text : List Char) : ℕ :=
  decimalValue (text.takeWhile Char.isDigit)

def parseNumstatLine (line : List Char) : Option FileInfo :=
  match line.splitOn '\t' with
  | addedStr :: removedStr :: first :: rest =>
    some ⟨['\t'].intercalate (first :: rest), parseCount addedStr, parseCount removedStr, .modified⟩
  | _ => none

def parseNumstatOutput (stdout : List Char) : List FileInfo :=
  (listedLines stdout).filterMap parseNumstatLine

def parseNameOnlyOutput (stdout : List Char) : List (List Char) :=
  (listedLines stdout).filter fun path => path ≠ []

def countLines (contents : Option (List Char)) : ℕ :=
  match contents with
  | some text => ((text.splitOn '\n').filter fun line => line ≠ []).length
  | none => 0

def parseUntrackedOutput (stdout : List Char) (contents : List Char → Option (List Char)) :
    List FileInfo :=
  (parseNameOnlyOutput stdout).map fun filePath =>
    ⟨filePath, countLines (contents filePath), 0, .added⟩

def classifyChangedFiles (trackedStats untracked : List FileInfo)
    (deletedPaths addedPaths : List (List Char)) : List FileInfo :=
  let tracked := (trackedStats.filter fun file => !deletedPaths.contains file.path).map fun file =>
    if addedPaths.contains file.path then { file with status := .added } else file
  tracked ++ untracked ++ deletedPaths.map fun filePath => ⟨filePath, 0, 0, .deleted⟩

/-! ## The patch -/

def isLineTerminator (c : Char) : Bool :=
  c = '\n' || c = '\r' || c = Char.ofNat 0x2028 || c = Char.ofNat 0x2029

def DIFF_HEADER : List Char := "diff --git ".toList

/-- `/^(?=diff --git )/m`, after a character of the text. -/
def startsChunk (before : Char) (rest : List Char) : Bool :=
  isLineTerminator before && decide (DIFF_HEADER <+: rest)

def splitGitPatch (combined : List Char) : List (List Char) :=
  if trimChars combined = [] then []
  else (splitAhead startsChunk combined).filter fun part => DIFF_HEADER <+: part

def stripTrailingTab (text : List Char) : List Char :=
  if text.getLast? = some '\t' then text.dropLast else text

def pathOfLine (chunk line : List Char) : Option (List Char) :=
  if "+++ b/".toList <+: line then some (stripTrailingTab (line.drop 6))
  else if "--- a/".toList <+: line ∧ "+++ /dev/null".toList <:+: chunk then
    some (stripTrailingTab (line.drop 6))
  else none

/-- `/^diff --git a\/(.+) b\/\1$/` on a line: both halves after the prefix are the path. -/
def pathOfHeader (line : List Char) : Option (List Char) :=
  let before := "diff --git a/".toList
  let rest := line.drop before.length
  let path := rest.take ((rest.length - 3) / 2)
  if before <+: line ∧ rest = path ++ " b/".toList ++ path ∧ path ≠ [] ∧
      ¬ path.any isLineTerminator then
    some path
  else none

def fileFromPatchChunk (chunk : List Char) : Option (List Char) :=
  match (chunk.splitOn '\n').findSome? (pathOfLine chunk) with
  | some path => some path
  | none => pathOfHeader ((chunk.splitOn '\n').headD [])

abbrev PatchMap := OrderedMap (List Char) (List Char)

def addChunk (map : PatchMap) (chunk : List Char) : PatchMap :=
  match fileFromPatchChunk chunk with
  | some path => OrderedMap.set map path chunk
  | none => map

def buildBatchedPatchMap (result : Option GitResult) : PatchMap :=
  match result with
  | none => []
  | some result => if result.exitCode ≠ 0 then []
      else (splitGitPatch result.stdout).foldl addChunk []

def buildUntrackedPatch (stdout : List Char) : Option (List Char) :=
  if trimChars stdout = [] then none else some stdout

/-! ## The entries -/

structure FileDiffEntry where
  path : List Char
  added : ℕ
  removed : ℕ
  status : FileStatus
  patch : Option (List Char)
  truncated : Bool

def FileInfo.entry (file : FileInfo) (patch : Option (List Char)) (truncated : Bool) :
    FileDiffEntry :=
  ⟨file.path, file.added, file.removed, file.status, patch, truncated⟩

def MAX_PATCH_BYTES : ℕ := 10000000

def MAX_TOTAL_PATCH_BYTES : ℕ := 10000000

/-- `Buffer.byteLength(text, 'utf-8')`. -/
def byteLength (text : List Char) : ℕ :=
  (text.map Char.utf8Size).sum

/-- The loop of `assembleDiffEntries`, with the bytes so far and whether they are used up. -/
def assembleFrom (patches : PatchMap) : ℕ → Bool → List FileInfo → List FileDiffEntry
  | _, _, [] => []
  | totalBytes, capped, file :: files =>
    match OrderedMap.get? patches file.path with
    | none => file.entry none false :: assembleFrom patches totalBytes capped files
    | some patch =>
      let patchBytes := byteLength patch
      if capped ∨ MAX_PATCH_BYTES < patchBytes then
        file.entry none true :: assembleFrom patches totalBytes capped files
      else if MAX_TOTAL_PATCH_BYTES < totalBytes + patchBytes then
        file.entry none true :: assembleFrom patches (totalBytes + patchBytes) true files
      else
        file.entry (some patch) false :: assembleFrom patches (totalBytes + patchBytes) capped files

def assembleDiffEntries (files : List FileInfo) (patches : PatchMap) : List FileDiffEntry :=
  assembleFrom patches 0 false files

/-! ## `file.diff` -/

/-- The patches of the added files that the batch lacks. -/
def addUntrackedPatches (noIndex : List Char → List Char) (files : List FileInfo)
    (patchMap : PatchMap) : PatchMap :=
  let untrackedFiles := files.filter fun file =>
    file.status = .added ∧ OrderedMap.get? patchMap file.path = none
  untrackedFiles.foldl (fun map file =>
    match buildUntrackedPatch (noIndex file.path) with
    | some patch => OrderedMap.set map file.path patch
    | none => map) patchMap

namespace ChangedWorktree

variable (worktree : ChangedWorktree)

def files : List FileInfo :=
  classifyChangedFiles (parseNumstatOutput worktree.numstat)
    (parseUntrackedOutput worktree.others worktree.contents)
    (parseNameOnlyOutput (nameOnly worktree.deletedChanges))
    (parseNameOnlyOutput (nameOnly worktree.addedChanges))

/-- `file.diff` of the worktree. -/
def diff : List FileDiffEntry :=
  let patchMap := buildBatchedPatchMap (some ⟨0, worktree.patch⟩)
  assembleDiffEntries worktree.files (addUntrackedPatches worktree.noIndex worktree.files patchMap)

end ChangedWorktree

end Laborer.Files
