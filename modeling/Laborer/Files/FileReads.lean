import Laborer.Files.FileService

/-!
# Reading a worktree

The operations themselves, and the revision that `diffContents` measures against.
-/

namespace Laborer.Files

open Laborer.Library

variable (host : Host) (fs : FileSystem) (worktreeRoot : AbsolutePath)

/-! ## Listing -/

/-- The directory that a listing is asked for; without one, the worktree root. -/
def listTarget : Option (List Char) → AbsolutePath
  | some dir => worktreeRoot.resolveFrom dir
  | none => worktreeRoot

def list (dir : Option (List Char)) : Except FileError (Served (List FileNode)) :=
  let targetDir := listTarget worktreeRoot dir
  (validatePathContainment targetDir worktreeRoot (dir.getD "undefined".toList)).bind fun _ =>
    readAndBuildNodes host fs targetDir worktreeRoot (loadIgnorePatterns host fs worktreeRoot)

def listEntries : Except FileError (Served FileEntriesResult) :=
  walkWorktreeEntries host fs worktreeRoot (loadIgnorePatterns host fs worktreeRoot)

/-! ## Verbatim text -/

def MAX_READ_TEXT_BYTES : ℕ := 1024 * 1024

def containmentRpcError (error : FilesystemContainmentError) (filePath : List Char) : FileError :=
  match error.reason with
  | .PATH_TRAVERSAL => .rpcError error.message .PATH_TRAVERSAL
  | .IO_FAILED =>
    if "ENOENT".toList <:+: error.message ∨ "ENOTDIR".toList <:+: error.message then
      .rpcError ("File not found: ".toList ++ filePath) .NOT_FOUND
    else .rpcError ("Failed to read file: ".toList ++ error.message) .READ_FAILED

structure FileTextContent where
  relativePath : List Char
  contents : List Char
  byteLength : ℕ
  truncated : Bool

def notATextFile (filePath : List Char) : FileError :=
  .rpcError (filePath ++ " is not a text file.".toList) .BINARY_FILE

def readText (filePath : List Char) : Except FileError (Served FileTextContent) :=
  if isBinaryByExtension host filePath ∨ isImageByExtension host filePath then
    .error (notATextFile filePath)
  else
    match readContainedFile host fs worktreeRoot filePath MAX_READ_TEXT_BYTES with
    | .error e => .error (containmentRpcError e filePath)
    | .ok contained =>
      let contents := host.decode contained.contents
      -- extension checks miss extensionless binaries
      if looksBinary contents then .error (notATextFile filePath)
      else .ok ⟨⟨filePath, contents, contained.byteLength,
        MAX_READ_TEXT_BYTES < contained.byteLength⟩, [contained.location]⟩

/-! ## One file and its diff -/

inductive ContentType where
  | text
  | binary

structure FileContent where
  type : ContentType
  content : List Char
  encoding : Option (List Char) := none
  mimeType : Option (List Char) := none
  patch : Option StructuredPatch := none
  diff : Option (List Char) := none

def gitDiffOf (staged : List (List Char)) (filePath : List Char) : Option (List Char) :=
  (host.spawnGit worktreeRoot
    (["-c", "core.fsmonitor=false", "diff"].map String.toList ++ staged ++
      ["--".toList, filePath])).map fun result => trimChars result.stdout

def unstagedOrStaged (filePath : List Char) : Option (List Char) :=
  (gitDiffOf host worktreeRoot [] filePath).bind fun diff =>
    if diff = [] then gitDiffOf host worktreeRoot ["--staged".toList] filePath else some diff

/-- The content with its diff against `HEAD`, or alone when git cannot be run. -/
def computeFileDiff (filePath content : List Char) : FileContent :=
  let plain : FileContent := { type := .text, content }
  match unstagedOrStaged host worktreeRoot filePath with
  | none => plain
  | some [] => plain
  | some (_ :: _) =>
    match host.spawnGit worktreeRoot ["show".toList, "HEAD:".toList ++ filePath] with
    | none => plain
    | some showResult =>
      let original := if showResult.exitCode = 0 then showResult.stdout else []
      let patch := host.structuredPatch filePath original content
      { plain with patch := some patch, diff := some (host.formatPatch patch) }

def read (filePath : List Char) : Except FileError (Served FileContent) :=
  let fullPath := worktreeRoot.resolveFrom filePath
  (validatePathContainment fullPath worktreeRoot filePath).bind fun _ =>
    if isImageByExtension host filePath then
      match fs.readFile host.maxLinks fullPath with
      | .error _ => .ok ⟨{ type := .text, content := [] }, []⟩
      | .ok opened =>
        .ok ⟨{ type := .text, content := host.base64 opened.contents,
               encoding := some "base64".toList,
               mimeType := some (getImageMimeType host filePath) }, [opened.location]⟩
    else if isBinaryByExtension host filePath then .ok ⟨{ type := .binary, content := [] }, []⟩
    else
      match fs.readFile host.maxLinks fullPath with
      | .error _ => .ok ⟨{ type := .text, content := [] }, []⟩
      | .ok opened =>
        .ok ⟨computeFileDiff host worktreeRoot filePath
          (trimEndChars (host.decode opened.contents)),
          [opened.location]⟩

/-! ## The revision to measure against -/

inductive DiffTarget where
  | working
  | branch
  | ref (ref : List Char)

def STATUS_GIT_FLAGS : List (List Char) :=
  ["-c", "core.fsmonitor=false", "-c", "core.quotepath=false"].map String.toList

/-- A git probe that never fails. -/
def gitProbe (args : List (List Char)) : GitResult :=
  (host.spawnGit worktreeRoot (STATUS_GIT_FLAGS ++ args)).getD ⟨-1, []⟩

def resolveMergeBase (ref : List Char) : Except FileError (List Char) :=
  let verified := gitProbe host worktreeRoot
    (["rev-parse", "--verify", "--quiet"].map String.toList ++ [ref ++ "^\x7bcommit\x7d".toList])
  if verified.exitCode ≠ 0 then
    .error (.diffTargetUnresolved
      ("This repository has no ref named ".toList ++ ref ++ ".".toList) .REF_NOT_FOUND (some ref))
  else
    let mergeBase := gitProbe host worktreeRoot ["merge-base".toList, ref, "HEAD".toList]
    let sha := trimChars mergeBase.stdout
    if mergeBase.exitCode ≠ 0 ∨ sha = [] then
      .error (.diffTargetUnresolved
        ("This branch shares no history with ".toList ++ ref ++
          ", so there is nothing to diff it against.".toList) .MERGE_BASE_FAILED (some ref))
    else .ok sha

def CANDIDATE_BASE_BRANCHES : List (List Char) :=
  ["dev", "main", "master"].map String.toList

def resolveBaseRef (storedBaseBranch : Option (List Char)) : Option (List Char) :=
  match storedBaseBranch with
  | some (c :: cs) => some (c :: cs)
  | some [] | none =>
    let remoteHead := gitProbe host worktreeRoot
      (["symbolic-ref", "refs/remotes/origin/HEAD"].map String.toList)
    if remoteHead.exitCode = 0 ∧ trimChars remoteHead.stdout ≠ [] then
      some (trimChars remoteHead.stdout)
    else
      CANDIDATE_BASE_BRANCHES.find? fun candidate =>
        (gitProbe host worktreeRoot ["rev-parse".toList, "--verify".toList, candidate]).exitCode = 0

/-- The base revision of a diff target; the branch is the one the workspace has stored. -/
def resolveBaseRev (target : DiffTarget) (storedBaseBranch : Option (List Char)) :
    Except FileError (List Char) :=
  match target with
  | .working => .ok "HEAD".toList
  | .ref ref => resolveMergeBase host worktreeRoot ref
  | .branch =>
    match resolveBaseRef host worktreeRoot storedBaseBranch with
    | some baseRef => resolveMergeBase host worktreeRoot baseRef
    | none =>
      .error (.diffTargetUnresolved
        ("No base branch is recorded for this workspace and the repository has no origin/HEAD, " ++
          "so the branch diff has nothing to fork from.").toList .NO_BASE_BRANCH none)

/-! ## Both sides of a changed file -/

def MAX_DIFF_CONTENTS_BYTES : ℕ := 2000000

structure CappedSide where
  contents : List Char
  truncated : Bool

def capToBytes (text : List Char) (maxBytes : ℕ) : CappedSide :=
  let buffer := host.encode text
  if buffer.length ≤ maxBytes then ⟨text, false⟩
  else
    let line := ((buffer.take maxBytes).reverse.dropWhile fun byte => byte ≠ 0x0a).reverse
    ⟨host.decode line, true⟩

def readBaseBlob (baseRev oldPath : List Char) (maxBytes : ℕ) : Except FileError CappedSide :=
  match host.spawnGit worktreeRoot
      (STATUS_GIT_FLAGS ++ ["show".toList, "--no-textconv".toList, baseRev ++ ':' :: oldPath]) with
  | none =>
    .error (.rpcError ("Failed to read ".toList ++ oldPath ++ " at ".toList ++ baseRev)
      .GIT_COMMAND_FAILED)
  | some result =>
    if result.exitCode ≠ 0 then
      .error (.diffContentsUnavailable
        (oldPath ++ " does not exist at ".toList ++ baseRev ++ ".".toList) .OLD_PATH_ABSENT oldPath)
    else if looksBinary result.stdout then
      .error (.diffContentsUnavailable (oldPath ++ " is not a text file.".toList) .BINARY_FILE
        oldPath)
    else .ok (capToBytes host result.stdout maxBytes)

def readWorktreeFile (newPath : List Char) (maxBytes : ℕ) :
    Except FileError (Served CappedSide) :=
  let fullPath := worktreeRoot.resolveFrom newPath
  (validatePathContainment fullPath worktreeRoot newPath).bind fun _ =>
    match fs.readFile host.maxLinks fullPath with
    | .error _ =>
      .error (.diffContentsUnavailable
        (newPath ++ " does not exist in the worktree.".toList) .NEW_PATH_ABSENT newPath)
    | .ok opened =>
      let text := host.decode opened.contents
      if looksBinary text then
        .error (.diffContentsUnavailable (newPath ++ " is not a text file.".toList) .BINARY_FILE
          newPath)
      else .ok ⟨capToBytes host text maxBytes, [opened.location]⟩

inductive DiffContentsChangeType where
  | change
  | renamePure
  | renameChanged
deriving DecidableEq

structure DiffContentsRequest where
  target : DiffTarget
  changeType : DiffContentsChangeType
  oldPath : List Char
  newPath : List Char
  maxBytes : Option ℕ

structure FileDiffContents where
  oldContents : List Char
  newContents : List Char
  oldTruncated : Bool
  newTruncated : Bool

/-- The sides once the new one is read; a pure rename does not read the old one. -/
def withOldSide (request : DiffContentsRequest) (baseRev : List Char) (maxBytes : ℕ)
    (newSide : Served CappedSide) : Except FileError (Served FileDiffContents) :=
  let new := newSide.value
  if request.changeType = .renamePure then
    .ok ⟨⟨[], new.contents, false, new.truncated⟩, newSide.sources⟩
  else
    (readBaseBlob host worktreeRoot baseRev request.oldPath maxBytes).bind fun oldSide =>
      .ok ⟨⟨oldSide.contents, new.contents, oldSide.truncated, new.truncated⟩, newSide.sources⟩

def diffContents (storedBaseBranch : Option (List Char)) (request : DiffContentsRequest) :
    Except FileError (Served FileDiffContents) :=
  (validateRepoRelativePath request.oldPath).bind fun _ =>
    (validateRepoRelativePath request.newPath).bind fun _ =>
      if isBinaryByExtension host request.newPath ∨ isImageByExtension host request.newPath then
        .error (.diffContentsUnavailable (request.newPath ++ " is not a text file.".toList)
          .BINARY_FILE request.newPath)
      else
        -- a request may lower the cap but never raise it
        let maxBytes := min (request.maxBytes.getD MAX_DIFF_CONTENTS_BYTES) MAX_DIFF_CONTENTS_BYTES
        (resolveBaseRev host worktreeRoot request.target storedBaseBranch).bind fun baseRev =>
          (readWorktreeFile host fs worktreeRoot request.newPath maxBytes).bind fun newSide =>
            withOldSide host worktreeRoot request baseRev maxBytes newSide

end Laborer.Files
