import Laborer.Files.FilesystemContainment
import Laborer.Library.LineTexts
import Mathlib.Data.List.Sort

/-!
# The reading operations of the file service

`readText`, `read`, `diffContents`, `list` and `listEntries` on the worktree of a
workspace. Beside its value an answer records where the files and directories stand
whose contents or listing it carries.
-/

namespace Laborer.Files

open Laborer.Library

/-! ## Errors and answers -/

inductive RpcCode where
  | PATH_TRAVERSAL
  | BINARY_FILE
  | NOT_FOUND
  | READ_FAILED
  | READDIR_FAILED
  | GIT_COMMAND_FAILED

inductive TargetReason where
  | REF_NOT_FOUND
  | MERGE_BASE_FAILED
  | NO_BASE_BRANCH

inductive UnavailableReason where
  | BINARY_FILE
  | OLD_PATH_ABSENT
  | NEW_PATH_ABSENT

inductive FileError where
  | rpcError (message : List Char) (code : RpcCode)
  | diffTargetUnresolved (message : List Char) (reason : TargetReason) (ref : Option (List Char))
  | diffContentsUnavailable (message : List Char) (reason : UnavailableReason) (path : List Char)

def FileError.IsRefusal : FileError → Prop
  | .rpcError _ code => code = .PATH_TRAVERSAL
  | .diffTargetUnresolved .. => False
  | .diffContentsUnavailable .. => False

/-- A value, and where the files and directories stand that it shows. -/
structure Served (α : Type) where
  value : α
  sources : List Location

/-- An operation accepts a request that it does not refuse for its path. -/
def Accepts {α : Type} (answer : Except FileError α) : Prop :=
  ∀ e, answer = .error e → ¬ e.IsRefusal

/-! ## Binary and image detection -/

def BINARY_EXTENSIONS : List (List Char) :=
  ["exe", "dll", "so", "dylib", "bin", "o", "a", "lib", "zip", "gz", "tar", "bz2", "xz", "7z",
    "rar", "zst", "pdf", "doc", "docx", "xls", "xlsx", "ppt", "pptx", "wasm", "pyc", "pyo",
    "class", "sqlite", "db", "sqlite3", "ttf", "otf", "woff", "woff2", "eot", "mp3", "mp4", "avi",
    "mov", "mkv", "flv", "wmv", "wav", "flac", "ogg", "dmg", "iso", "img", "jar", "war", "ear",
    "deb", "rpm", "msi", "lock"].map String.toList

def IMAGE_MIME_TYPES : List (List Char × List Char) :=
  [("png", "image/png"), ("jpg", "image/jpeg"), ("jpeg", "image/jpeg"), ("gif", "image/gif"),
    ("bmp", "image/bmp"), ("webp", "image/webp"), ("ico", "image/x-icon"),
    ("tiff", "image/tiff"), ("tif", "image/tiff"), ("svg", "image/svg+xml"),
    ("avif", "image/avif"), ("heic", "image/heic"), ("heif", "image/heif"),
    ("jxl", "image/jxl")].map fun row => (row.1.toList, row.2.toList)

def IMAGE_EXTENSIONS : List (List Char) :=
  ["png", "jpg", "jpeg", "gif", "bmp", "webp", "ico", "tiff", "tif", "svg", "avif", "heic",
    "heif", "jxl"].map String.toList

def basename (path : List Char) : List Char :=
  ((path.splitOn '/').filter fun segment => segment ≠ []).getLastD []

/-- `path.extname`: from the last dot of the base name, when it does not start there. -/
def extname (path : List Char) : List Char :=
  let base := basename path
  let beforeDot := (base.reverse.dropWhile fun c => c ≠ '.').reverse.dropLast
  if '.' ∉ base ∨ beforeDot = [] ∨ base = ['.', '.'] then [] else base.drop beforeDot.length

/-- True when the decoded text cannot honestly be treated as lines of text. -/
def looksBinary (text : List Char) : Bool :=
  Char.ofNat 0 ∈ text ∨ Char.ofNat 0xfffd ∈ text

section

variable (host : Host)

def getExt (filePath : List Char) : List Char :=
  (host.toLowerCase (extname filePath)).drop 1

def isImageByExtension (filePath : List Char) : Bool :=
  IMAGE_EXTENSIONS.contains (getExt host filePath)

def isBinaryByExtension (filePath : List Char) : Bool :=
  BINARY_EXTENSIONS.contains (getExt host filePath)

def getImageMimeType (filePath : List Char) : List Char :=
  let ext := getExt host filePath
  ((IMAGE_MIME_TYPES.find? fun row => row.1 = ext).map Prod.snd).getD ("image/".toList ++ ext)

end

/-! ## Containment checks -/

def escapesWorktreeRoot (dir : List Char) : FileError :=
  .rpcError ("Path escapes worktree root: ".toList ++ dir) .PATH_TRAVERSAL

/-- Whether a resolved path does not escape the worktree root, by the normalized texts. -/
def validatePathContainment (targetDir worktreeRoot : AbsolutePath) (dir : List Char) :
    Except FileError Unit :=
  let normalizedTarget := AbsolutePath.normalize targetDir.text
  let normalizedRoot := AbsolutePath.normalize worktreeRoot.text
  if ¬ normalizedRoot ++ ['/'] <+: normalizedTarget ∧ normalizedTarget ≠ normalizedRoot then
    .error (escapesWorktreeRoot dir)
  else .ok ()

def validateRepoRelativePath (filePath : List Char) : Except FileError Unit :=
  let segments := filePath.splitOn '/'
  if filePath = [] ∨ filePath.head? = some '/' ∨ segments.contains ['.', '.'] then
    .error (escapesWorktreeRoot filePath)
  else .ok ()

/-! ## Ignore rules -/

def IGNORED_DIRECTORIES : List (List Char) :=
  [".git", "node_modules", "dist", "build", "out", ".next", ".nuxt", ".svelte-kit", ".turbo",
    ".yarn", ".pnpm-store", ".idea", "coverage", ".nyc_output", "__pycache__", ".pytest_cache",
    ".cache", ".history", ".gradle", "target", "bin", "obj"].map String.toList

def IGNORED_FILES : List (List Char) :=
  [".DS_Store", "Thumbs.db"].map String.toList

section

variable (host : Host) (fs : FileSystem)

def readFileText (p : AbsolutePath) : Option (List Char) :=
  match fs.readFile host.maxLinks p with
  | .ok opened => some (host.decode opened.contents)
  | .error _ => none

/-- The patterns of `.gitignore` and `.ignore` at the worktree root. -/
def loadIgnorePatterns (worktreeRoot : AbsolutePath) : List Char → Bool :=
  host.ignores
    ((readFileText host fs (worktreeRoot.join ".gitignore".toList)).toList ++
      (readFileText host fs (worktreeRoot.join ".ignore".toList)).toList)

/-! ## One directory level -/

inductive NodeType where
  | directory
  | file
deriving DecidableEq

structure FileNode where
  name : List Char
  path : List Char
  absolute : List Char
  type : NodeType
  ignored : Bool

def fileNodeOrder (a b : FileNode) : Bool :=
  if a.type ≠ b.type then a.type = .directory else (host.localeCompare a.name b.name).isLE

def fileNode (isIgnored : List Char → Bool) (targetDir worktreeRoot : AbsolutePath)
    (entry : FileSystem.Dirent) : Option FileNode :=
  let name := entry.name.val
  let absolute := targetDir.join name
  let relPath := worktreeRoot.relative absolute
  match entry.node with
  | .directory =>
    if IGNORED_DIRECTORIES.contains name then none
    else some ⟨name, relPath, absolute.text, .directory, isIgnored (relPath ++ ['/'])⟩
  | .file _ | .link _ =>
    if IGNORED_FILES.contains name then none
    else some ⟨name, relPath, absolute.text, .file, isIgnored relPath⟩
  | .socket => none

def readAndBuildNodes (targetDir worktreeRoot : AbsolutePath) (isIgnored : List Char → Bool) :
    Except FileError (Served (List FileNode)) :=
  match fs.readdir host.maxLinks targetDir with
  | .error e =>
    .error (.rpcError ("Failed to read directory: ".toList ++ host.errorText e targetDir)
      .READDIR_FAILED)
  | .ok opened =>
    let nodes := opened.dirents.filterMap (fileNode isIgnored targetDir worktreeRoot)
    .ok ⟨nodes.insertionSort fun a b => fileNodeOrder host a b, [opened.location]⟩

/-! ## Recursive worktree listing -/

def MAX_FILE_ENTRIES : ℕ := 20000

structure FileEntry where
  path : List Char
  kind : NodeType

def isDirectory (dirent : FileSystem.Dirent) : Bool :=
  dirent.node = .directory

def compareDirents (a b : FileSystem.Dirent) : Bool :=
  if isDirectory a ≠ isDirectory b then isDirectory a
  else (host.localeCompare a.name.val b.name.val).isLE

/-- One walkable dirent classified against the ignore rules. -/
def classifyWalkDirent (dirent : FileSystem.Dirent) (parentDir worktreeRoot : AbsolutePath)
    (isIgnored : List Char → Bool) : Option (FileEntry × AbsolutePath) :=
  let name := dirent.name.val
  let absolute := parentDir.join name
  let relPath := worktreeRoot.relative absolute
  match dirent.node with
  | .directory =>
    if IGNORED_DIRECTORIES.contains name ∨ isIgnored (relPath ++ ['/']) then none
    else some (⟨relPath, .directory⟩, absolute)
  | .file _ | .link _ =>
    if IGNORED_FILES.contains name ∨ isIgnored relPath then none
    else some (⟨relPath, .file⟩, absolute)
  | .socket => none

/-- The entries gathered so far, and the directories opened for them. -/
structure EntryWalk where
  entries : List FileEntry := []
  truncated : Bool := false
  opened : List Location := []

def EntryWalk.push (state : EntryWalk) (entry : FileEntry) : EntryWalk :=
  { state with entries := state.entries ++ [entry] }

def walkDirents (walk : AbsolutePath → EntryWalk → Except Errno EntryWalk)
    (classify : FileSystem.Dirent → Option (FileEntry × AbsolutePath)) :
    List FileSystem.Dirent → EntryWalk → Except Errno EntryWalk
  | [], state => .ok state
  | dirent :: rest, state =>
    if state.truncated then .ok state
    else
      match classify dirent with
      | none => walkDirents walk classify rest state
      | some (entry, absolute) =>
        if MAX_FILE_ENTRIES ≤ state.entries.length then .ok { state with truncated := true }
        else if entry.kind = .directory then
          (walk absolute (state.push entry)).bind (walkDirents walk classify rest)
        else walkDirents walk classify rest (state.push entry)

/-- The walk of a directory, to the given depth at most. -/
def walkDirectory (worktreeRoot : AbsolutePath) (isIgnored : List Char → Bool) :
    ℕ → AbsolutePath → EntryWalk → Except Errno EntryWalk
  | 0, _, state => .ok state
  | depth + 1, dir, state =>
    (fs.readdir host.maxLinks dir).bind fun opened =>
      walkDirents (walkDirectory worktreeRoot isIgnored depth)
        (fun dirent => classifyWalkDirent dirent dir worktreeRoot isIgnored)
        (opened.dirents.insertionSort fun a b => compareDirents host a b)
        { state with opened := state.opened ++ [opened.location] }

structure FileEntriesResult where
  entries : List FileEntry
  truncated : Bool

/-- Every level below the root has an entry of its own, so the cap bounds the depth too. -/
def walkWorktreeEntries (worktreeRoot : AbsolutePath) (isIgnored : List Char → Bool) :
    Except FileError (Served FileEntriesResult) :=
  match walkDirectory host fs worktreeRoot isIgnored (MAX_FILE_ENTRIES + 1) worktreeRoot {} with
  | .ok state => .ok ⟨⟨state.entries, state.truncated⟩, state.opened⟩
  | .error e =>
    .error (.rpcError
      ("Failed to list worktree entries: ".toList ++ host.errorText e worktreeRoot)
      .READDIR_FAILED)

end

end Laborer.Files
