import Mathlib

/-!
# Migrating a legacy context file

The migration renames the legacy source to a staged file beside it, publishes a copy of its text
under the target path, verifies both and removes the staged file. Each step may fail, or be the
last one of the process, and the next run starts from the three files that it finds. Modes,
owners, symbolic links and the temporary file of the publication are left out.
-/

namespace Laborer.AcpRuntime

/-! ## Reading -/

structure LegacyFile where
  bytes : ByteArray
  inode : ℕ

structure LegacySource where
  bytes : ByteArray
  content : String
  inode : ℕ

inductive LegacyReadFailure where
  | missing
  | oversized
  | notText

def maxContextSourceReadBytes : ℕ := 512 * 1024

def byteOrderMark : Char := '\uFEFF'

/-- `new TextDecoder('utf-8', \x7b fatal: true \x7d).decode`, which drops a byte order mark. -/
def decodeText (bytes : ByteArray) : Option String :=
  (String.fromUTF8? bytes).map fun text =>
    if text.toList.head? = some byteOrderMark then String.ofList text.toList.tail else text

def readBoundedLegacySource (file : Option LegacyFile) : Except LegacyReadFailure LegacySource :=
  match file with
  | none => .error .missing
  | some file =>
    if maxContextSourceReadBytes < file.bytes.size then .error .oversized
    else
      match decodeText file.bytes with
      | none => .error .notText
      | some content => .ok { bytes := file.bytes, content := content, inode := file.inode }

def readIfPresent (file : Option LegacyFile) : Except LegacyReadFailure (Option LegacySource) :=
  match readBoundedLegacySource file with
  | .ok source => .ok (some source)
  | .error .missing => .ok none
  | .error failure => .error failure

/-- The file is the one that was read, and `removeVerified` removes it. -/
def unchanged (file : Option LegacyFile) (expected : LegacySource) : Bool :=
  match readBoundedLegacySource file with
  | .ok current => decide (current.inode = expected.inode ∧ current.bytes = expected.bytes)
  | .error _ => false

/-! ## The transaction -/

structure ContextFiles where
  source : Option LegacyFile
  staged : Option LegacyFile
  target : Option LegacyFile
  nextInode : ℕ

inductive LegacyMigrationResult where
  | conflict
  | migrated
  | sourceAbsent
  | targetPresent
deriving DecidableEq

inductive MigrationEnding where
  | threw
  | returned (result : LegacyMigrationResult)
deriving DecidableEq

inductive MigrationPhase where
  | starting
  | readingSource
  | readingStaged (source : Option LegacySource)
  | readingTarget (source staged : Option LegacySource)
  | staging
  | syncingStage
  | readingStage
  | rereadingSource (staged : LegacySource)
  | rereadingTarget (staged : LegacySource) (source : Option LegacySource)
  | hardening (staged : LegacySource) (source : Option LegacySource) (target : LegacySource)
  | beforePublishing (staged : LegacySource)
  | linking (staged : LegacySource)
  | seeding (staged : LegacySource)
  | readingPublished (staged : LegacySource)
  | rereadingStage (staged published : LegacySource)
  | rereadingDuplicate (staged published : LegacySource) (currentStage : Option LegacySource)
  | verifyingTarget (staged published : LegacySource) (currentSource : Option LegacySource)
  | removingSource (staged source : LegacySource)
  | removingStaged (staged : LegacySource) (result : LegacyMigrationResult)
  | syncingRemoval (result : LegacyMigrationResult)
  | restoring (ending : MigrationEnding)
  | syncingRestore (ending : MigrationEnding)
  | rollingBack (published : LegacySource) (movesBack : Bool)
  | movingBack
  | syncingBack

inductive MigrationProgress where
  | goes (phase : MigrationPhase)
  | ended (ending : MigrationEnding)

namespace MigrationPhase

def failed : MigrationPhase → MigrationProgress
  | .readingStage => .goes (.restoring .threw)
  | .beforePublishing _ => .goes (.restoring .threw)
  | .linking _ => .goes (.restoring .threw)
  | .seeding _ => .goes (.restoring .threw)
  | .rereadingStage _ published => .goes (.rollingBack published false)
  | .rereadingDuplicate _ published _ => .goes (.rollingBack published false)
  | _ => .ended .threw

def chooseStart (source staged target : Option LegacySource) : MigrationProgress :=
  match staged, source with
  | none, none =>
    .ended (.returned (if target = none then .sourceAbsent else .targetPresent))
  | none, some source =>
    match target with
    | none => .goes .staging
    | some target =>
      if source.bytes ≠ target.bytes then .ended (.returned .conflict) else .goes .staging
  | some staged, _ => .goes (.rereadingSource staged)

def settle (staged : LegacySource) (source : Option LegacySource) (target : LegacySource) :
    MigrationProgress :=
  if staged.bytes ≠ target.bytes then .ended (.returned .conflict)
  else
    match source with
    | none => .goes (.removingStaged staged .migrated)
    | some source =>
      if source.bytes ≠ target.bytes then .goes (.removingStaged staged .conflict)
      else .goes (.removingSource staged source)

def publish (staged : LegacySource) (source : Option LegacySource) : MigrationProgress :=
  match source with
  | none => .goes (.beforePublishing staged)
  | some source =>
    if source.bytes ≠ staged.bytes then .ended (.returned .conflict)
    else .goes (.beforePublishing staged)

/-- The decision once the staged file and a new source have been read again. -/
def verifyInput (staged published : LegacySource)
    (currentStage currentSource : Option LegacySource) :
    MigrationProgress :=
  let stageIsUnchanged := currentStage.any fun current =>
    decide (current.inode = staged.inode ∧ current.bytes = staged.bytes)
  let sourceIsDuplicate := currentSource.any fun current => decide (current.bytes = staged.bytes)
  if !stageIsUnchanged || (currentSource.isSome && !sourceIsDuplicate) then
    .goes (.rollingBack published (currentSource.isNone && currentStage.isSome))
  else .goes (.verifyingTarget staged published currentSource)

/-- A step that goes through. Between what it reads and what it writes nothing else is written,
since those who write the files take the same locks. -/
def proceeds (phase : MigrationPhase) (files : ContextFiles) : MigrationProgress × ContextFiles :=
  match phase with
  | .starting => (.goes .readingSource, files)
  | .readingSource =>
    match readIfPresent files.source with
    | .ok source => (.goes (.readingStaged source), files)
    | .error _ => (failed phase, files)
  | .readingStaged source =>
    match readIfPresent files.staged with
    | .ok staged => (.goes (.readingTarget source staged), files)
    | .error _ => (failed phase, files)
  | .readingTarget source staged =>
    match readIfPresent files.target with
    | .ok target => (chooseStart source staged target, files)
    | .error _ => (failed phase, files)
  | .staging =>
    match files.source with
    | some source => (.goes .syncingStage, { files with source := none, staged := some source })
    | none => (failed phase, files)
  | .syncingStage => (.goes .readingStage, files)
  | .readingStage =>
    match readBoundedLegacySource files.staged with
    | .ok staged => (.goes (.rereadingSource staged), files)
    | .error _ => (failed phase, files)
  | .rereadingSource staged =>
    match readIfPresent files.source with
    | .ok source => (.goes (.rereadingTarget staged source), files)
    | .error _ => (failed phase, files)
  | .rereadingTarget staged source =>
    match readIfPresent files.target with
    | .ok (some target) => (.goes (.hardening staged source target), files)
    | .ok none => (publish staged source, files)
    | .error _ => (failed phase, files)
  | .hardening staged source target => (settle staged source target, files)
  | .beforePublishing staged => (.goes (.linking staged), files)
  | .linking staged =>
    match files.target with
    | some _ => (.goes (.restoring (.returned .conflict)), files)
    | none =>
      (.goes (.seeding staged),
        { files with
          target := some { bytes := staged.content.toUTF8, inode := files.nextInode }
          nextInode := files.nextInode + 1 })
  | .seeding staged => (.goes (.readingPublished staged), files)
  | .readingPublished staged =>
    match readBoundedLegacySource files.target with
    | .ok published => (.goes (.rereadingStage staged published), files)
    | .error _ => (failed phase, files)
  | .rereadingStage staged published =>
    match readIfPresent files.staged with
    | .ok currentStage => (.goes (.rereadingDuplicate staged published currentStage), files)
    | .error _ => (failed phase, files)
  | .rereadingDuplicate staged published currentStage =>
    match readIfPresent files.source with
    | .ok currentSource => (verifyInput staged published currentStage currentSource, files)
    | .error _ => (failed phase, files)
  | .verifyingTarget staged published currentSource =>
    if unchanged files.target published then
      match currentSource with
      | some source => (.goes (.removingSource staged source), files)
      | none => (.goes (.removingStaged staged .migrated), files)
    else (failed phase, files)
  | .removingSource staged source =>
    if unchanged files.source source then
      (.goes (.removingStaged staged .migrated), { files with source := none })
    else (failed phase, files)
  | .removingStaged staged result =>
    if unchanged files.staged staged then
      (.goes (.syncingRemoval result), { files with staged := none })
    else (failed phase, files)
  | .syncingRemoval result => (.ended (.returned result), files)
  | .restoring ending =>
    if files.source.isNone && files.staged.isSome then
      (.goes (.syncingRestore ending), { files with source := files.staged, staged := none })
    else (.ended ending, files)
  | .syncingRestore ending => (.ended ending, files)
  | .rollingBack published movesBack =>
    if unchanged files.target published then
      (if movesBack then .goes .movingBack else .ended .threw, { files with target := none })
    else (.ended .threw, files)
  | .movingBack =>
    match files.staged with
    | some staged => (.goes .syncingBack, { files with source := some staged, staged := none })
    | none => (.ended .threw, files)
  | .syncingBack => (.ended .threw, files)

/-- Recorded: the bytes that the run moves, once it has read the three files. -/
def movingOf (phase : MigrationPhase) (moving : Option ByteArray) : Option ByteArray :=
  match phase with
  | .readingTarget source staged => (staged.or source).map LegacySource.bytes
  | _ => moving

end MigrationPhase

/-! ## Runs -/

/-- The three files and the run that has their locks. The rest is recorded: how the last run
ended, the bytes that it moves, the content that the files have been given and that nobody else
has written over, and whether somebody else has given them any but the original one. -/
structure ContextMigration where
  files : ContextFiles
  run : Option MigrationPhase
  ending : Option MigrationEnding
  moving : Option ByteArray
  original : ByteArray
  contents : List ByteArray
  disturbed : Bool

/-- A run begins, goes on, has a step that throws, or is killed; somebody else writes a file. -/
inductive MigrationEvent where
  | begins
  | proceeds
  | fails
  | dies
  | writesSource (bytes : ByteArray)
  | writesTarget (bytes : ByteArray)

namespace ContextMigration

def initial (original : ByteArray) (target : Option ByteArray) : ContextMigration where
  files :=
    { source := some { bytes := original, inode := 0 }
      staged := none
      target := target.map fun bytes => { bytes := bytes, inode := 1 }
      nextInode := 2 }
  run := none
  ending := none
  moving := none
  original := original
  contents := original :: target.toList
  disturbed := target.any fun bytes => decide (bytes ≠ original)

def goOn (progress : MigrationProgress) (s : ContextMigration) : ContextMigration :=
  match progress with
  | .goes phase => { s with run := some phase }
  | .ended ending => { s with run := none, ending := some ending }

/-- Somebody else has written `bytes` over a file. -/
def written (old : Option LegacyFile) (bytes : ByteArray) (s : ContextMigration) :
    ContextMigration :=
  { s with
    contents := bytes :: s.contents.filter fun content => some content ≠ old.map LegacyFile.bytes
    disturbed := s.disturbed || decide (bytes ≠ s.original) }

def step (event : MigrationEvent) (s : ContextMigration) : ContextMigration :=
  match event, s.run with
  | .begins, none => { s with run := some .starting, ending := none }
  | .begins, some _ => s
  | .proceeds, some phase =>
    goOn (phase.proceeds s.files).1
      { s with files := (phase.proceeds s.files).2, moving := phase.movingOf s.moving }
  | .fails, some phase => goOn phase.failed s
  | .dies, some _ => { s with run := none }
  | .proceeds, none => s
  | .fails, none => s
  | .dies, none => s
  | .writesSource bytes, none =>
    { s.written s.files.source bytes with
      files := { s.files with
        source := some { bytes := bytes, inode := s.files.nextInode }
        nextInode := s.files.nextInode + 1 } }
  | .writesTarget bytes, none =>
    { s.written s.files.target bytes with
      files := { s.files with
        target := some { bytes := bytes, inode := s.files.nextInode }
        nextInode := s.files.nextInode + 1 } }
  -- the lock of the run is waited for
  | .writesSource _, some _ => s
  | .writesTarget _, some _ => s

end ContextMigration

end Laborer.AcpRuntime
