import Laborer.Library.FileSystem
import Laborer.Library.PathTexts
import Laborer.Library.Transactions

/-!
# Reading a file inside a root

`readContainedFile` resolves the requested path against the canonical root, and checks
the path it spells and the file it leads to, before it reads a byte.
-/

namespace Laborer.Files

open Laborer.Library

/-! ## The platform -/

structure GitResult where
  exitCode : ℤ
  stdout : List Char

/-- The hunks of a structured patch, as the lines that print them. -/
structure StructuredPatch where
  oldFileName : List Char
  newFileName : List Char
  hunks : List (List Char)

/-- What the server runs on: Node's text functions, the packages it calls, and git. -/
structure Host where
  /-- How many links the operating system follows. -/
  maxLinks : ℕ
  /-- `buffer.toString('utf-8')`. -/
  decode : List UInt8 → List Char
  /-- `Buffer.from(text, 'utf-8')`. -/
  encode : List Char → List UInt8
  base64 : List UInt8 → List Char
  toLowerCase : List Char → List Char
  localeCompare : List Char → List Char → Ordering
  /-- `String(error)` of a failed system call on the path. -/
  errorText : Errno → AbsolutePath → List Char
  /-- The `ignore` package: the texts added, and the path tested. -/
  ignores : List (List Char) → List Char → Bool
  /-- `spawnGit` in a directory, `none` when the process cannot be run. -/
  spawnGit : AbsolutePath → List (List Char) → Option GitResult
  structuredPatch : List Char → List Char → List Char → StructuredPatch
  formatPatch : StructuredPatch → List Char

/-! ## Containment -/

inductive ContainmentReason where
  | PATH_TRAVERSAL
  | IO_FAILED

structure FilesystemContainmentError where
  reason : ContainmentReason
  message : List Char

def isContained (root target : AbsolutePath) : Bool :=
  let pathFromRoot := root.relative target
  pathFromRoot = [] ∨
    (pathFromRoot.head? ≠ some '/' ∧ pathFromRoot ≠ ['.', '.'] ∧
      ¬ ['.', '.', '/'] <+: pathFromRoot)

def escapesCanonicalRoot (requestedPath : List Char) : FilesystemContainmentError where
  reason := .PATH_TRAVERSAL
  message := "Path escapes canonical root: ".toList ++ requestedPath

def assertContained (root target : AbsolutePath) (requestedPath : List Char) :
    Except FilesystemContainmentError Unit :=
  if isContained root target then .ok () else .error (escapesCanonicalRoot requestedPath)

def notARegularFile (requestedPath : List Char) : FilesystemContainmentError where
  reason := .PATH_TRAVERSAL
  message := "Path is not a regular file: ".toList ++ requestedPath

def mapError (errorText requestedPath : List Char) : FilesystemContainmentError where
  reason := .IO_FAILED
  message := "Filesystem operation failed for ".toList ++ requestedPath ++ ": ".toList ++ errorText

section

variable (host : Host) (fs : FileSystem)

def canonicalizeRoot (root : AbsolutePath) : Except FilesystemContainmentError AbsolutePath :=
  match fs.realpath host.maxLinks root with
  | .ok location => .ok ⟨location⟩
  | .error e => .error (mapError (host.errorText e root) root.text)

structure ContainedRead where
  location : Location
  contents : List UInt8
  byteLength : ℕ

/-- `open`, `stat` and `read` of the canonical target. -/
def readHandle (canonicalTarget : AbsolutePath) (requestedPath : List Char) (maxBytes : ℕ) :
    Except FilesystemContainmentError ContainedRead :=
  match fs.realpath host.maxLinks canonicalTarget with
  | .error e => .error (mapError (host.errorText e canonicalTarget) requestedPath)
  | .ok location =>
    match fs.node? location with
    | some (.file contents) => .ok ⟨location, contents.take maxBytes, contents.length⟩
    | some .directory => .error (notARegularFile requestedPath)
    -- a socket is not opened at all
    | some .socket => .error (mapError (host.errorText .EOPNOTSUPP canonicalTarget) requestedPath)
    | some (.link _) | none =>
      .error (mapError (host.errorText .ENOENT canonicalTarget) requestedPath)

def readContainedFile (root : AbsolutePath) (requestedPath : List Char) (maxBytes : ℕ) :
    Except FilesystemContainmentError ContainedRead :=
  (canonicalizeRoot host fs root).bind fun canonicalRoot =>
    let lexicalTarget := canonicalRoot.resolveFrom requestedPath
    (assertContained canonicalRoot lexicalTarget requestedPath).bind fun _ =>
      match fs.realpath host.maxLinks lexicalTarget with
      | .error e => .error (mapError (host.errorText e lexicalTarget) requestedPath)
      | .ok canonicalTarget =>
        (assertContained canonicalRoot ⟨canonicalTarget⟩ requestedPath).bind fun _ =>
          readHandle host fs ⟨canonicalTarget⟩ requestedPath maxBytes

end

/-! ## What the checks establish -/

@[simp]
theorem isContained_iff {root target : AbsolutePath} :
    isContained root target = true ↔ root.Contains target := by
  rw [isContained, decide_eq_true_iff]
  exact AbsolutePath.contains_iff_relative root target

theorem assertContained_eq_ok_iff {root target : AbsolutePath} {requestedPath : List Char} :
    assertContained root target requestedPath = .ok () ↔ root.Contains target := by
  rw [assertContained, ← isContained_iff]
  split
  · next h => exact iff_of_true rfl h
  · next h => simp [h]

theorem assertContained_of_not_contains {root target : AbsolutePath} {requestedPath : List Char}
    (h : ¬ root.Contains target) :
    assertContained root target requestedPath = .error (escapesCanonicalRoot requestedPath) := by
  rw [assertContained, if_neg (isContained_iff.not.mpr h)]

section

variable {host : Host} {fs : FileSystem} {root : AbsolutePath} {requestedPath : List Char}
  {maxBytes : ℕ}

theorem canonicalizeRoot_eq_ok {canonicalRoot : AbsolutePath}
    (h : canonicalizeRoot host fs root = .ok canonicalRoot) :
    fs.realpath host.maxLinks root = .ok canonicalRoot.names := by
  rw [canonicalizeRoot] at h
  cases hreal : fs.realpath host.maxLinks root with
  | error e =>
    rw [hreal] at h
    cases h
  | ok location =>
    rw [hreal] at h
    cases h
    rfl

theorem readHandle_eq_ok {canonicalTarget : AbsolutePath} {read : ContainedRead}
    (h : readHandle host fs canonicalTarget requestedPath maxBytes = .ok read) :
    fs.realpath host.maxLinks canonicalTarget = .ok read.location := by
  rw [readHandle] at h
  cases hreal : fs.realpath host.maxLinks canonicalTarget with
  | error e =>
    rw [hreal] at h
    cases h
  | ok location =>
    rw [hreal] at h
    dsimp only at h
    cases hnode : fs.node? location with
    | none =>
      rw [hnode] at h
      cases h
    | some node =>
      rw [hnode] at h
      cases node with
      | file contents =>
        cases h
        rfl
      | _ => cases h

/-- **What `readContainedFile` reads stands in the canonical root.** -/
theorem readContainedFile_inside {read : ContainedRead}
    (h : readContainedFile host fs root requestedPath maxBytes = .ok read) :
    ∃ canonicalRoot, fs.realpath host.maxLinks root = .ok canonicalRoot ∧
      canonicalRoot <+: read.location := by
  obtain ⟨canonicalRoot, hroot, h⟩ := bind_eq_ok.mp h
  obtain ⟨_, hlexical, h⟩ := bind_eq_ok.mp h
  cases hreal : fs.realpath host.maxLinks (canonicalRoot.resolveFrom requestedPath) with
  | error e =>
    rw [hreal] at h
    cases h
  | ok canonicalTarget =>
    rw [hreal] at h
    obtain ⟨_, hcanonical, h⟩ := bind_eq_ok.mp h
    -- the location opened is the one that was checked
    have hopened := readHandle_eq_ok h
    rw [FileSystem.realpath_of_stands _ (FileSystem.stands_of_realpath hreal)] at hopened
    cases hopened
    exact ⟨_, canonicalizeRoot_eq_ok hroot, assertContained_eq_ok_iff.mp hcanonical⟩

/-- The path spells a place outside the canonical root, or leads to one, or to a directory. -/
def Escapes (host : Host) (fs : FileSystem) (canonicalRoot : Location)
    (requestedPath : List Char) : Prop :=
  let lexicalTarget := AbsolutePath.resolveFrom ⟨canonicalRoot⟩ requestedPath
  ¬ AbsolutePath.Contains ⟨canonicalRoot⟩ lexicalTarget ∨
    ∃ location, fs.realpath host.maxLinks lexicalTarget = .ok location ∧
      (¬ canonicalRoot <+: location ∨ fs.node? location = some .directory)

theorem readHandle_traversal_iff {location : Location} (h : fs.Stands location) :
    (∃ e, readHandle host fs ⟨location⟩ requestedPath maxBytes = .error e ∧
      e.reason = .PATH_TRAVERSAL) ↔ fs.node? location = some .directory := by
  rw [readHandle, FileSystem.realpath_of_stands _ h]
  dsimp only
  cases hnode : fs.node? location with
  | none => simp [mapError]
  | some node => cases node <;> simp [mapError, notARegularFile]

/-- **A path is refused as a traversal exactly when it escapes the canonical root.** -/
theorem readContainedFile_traversal_iff {canonicalRoot : Location}
    (hroot : fs.realpath host.maxLinks root = .ok canonicalRoot) :
    (∃ e, readContainedFile host fs root requestedPath maxBytes = .error e ∧
      e.reason = .PATH_TRAVERSAL) ↔ Escapes host fs canonicalRoot requestedPath := by
  have hcanonical : canonicalizeRoot host fs root = .ok ⟨canonicalRoot⟩ := by
    rw [canonicalizeRoot, hroot]
  rw [readContainedFile, hcanonical, Escapes]
  change (∃ e, (assertContained ⟨canonicalRoot⟩ _ _).bind _ = _ ∧ _) ↔ _
  by_cases hlexical : AbsolutePath.Contains ⟨canonicalRoot⟩
      (AbsolutePath.resolveFrom ⟨canonicalRoot⟩ requestedPath)
  · rw [assertContained_eq_ok_iff.mpr hlexical]
    cases hreal : fs.realpath host.maxLinks
        (AbsolutePath.resolveFrom ⟨canonicalRoot⟩ requestedPath) with
    | error e => simp [Except.bind, hlexical, mapError]
    | ok location =>
      by_cases hinside : canonicalRoot <+: location
      · have hasserted : assertContained ⟨canonicalRoot⟩ ⟨location⟩ requestedPath = .ok () :=
          assertContained_eq_ok_iff.mpr hinside
        have hhandle : (∃ e, readHandle host fs ⟨location⟩ requestedPath maxBytes = .error e ∧
            e.reason = .PATH_TRAVERSAL) ↔ fs.node? location = some .directory :=
          readHandle_traversal_iff (FileSystem.stands_of_realpath hreal)
        simpa [Except.bind, hreal, hlexical, hasserted, hinside] using hhandle
      · have hrefused : assertContained ⟨canonicalRoot⟩ ⟨location⟩ requestedPath =
            .error (escapesCanonicalRoot requestedPath) :=
          assertContained_of_not_contains hinside
        simp [Except.bind, hlexical, hrefused, hinside, escapesCanonicalRoot]
  · rw [assertContained_of_not_contains hlexical]
    simp [Except.bind, hlexical, escapesCanonicalRoot]

end

end Laborer.Files
