import Laborer.AcpRuntime.ContextMigration
import Laborer.Library.Runs

/-!
# No content is lost

Whatever step of the migration throws or is the last one of the process, what one of the three
files held before it one of them holds after it, as long as the text of the staged file does not
begin with a byte order mark.
-/

namespace Laborer.AcpRuntime

open Library Option List

/-! ## Reading -/

variable {file : Option LegacyFile} {source : LegacySource}

theorem readBoundedLegacySource_ok (h : readBoundedLegacySource file = .ok source) :
    ∃ found, file = some found ∧ source.bytes = found.bytes ∧ source.inode = found.inode ∧
      decodeText found.bytes = some source.content := by
  unfold readBoundedLegacySource at h
  split at h
  · cases h
  · next found =>
    split at h
    · cases h
    · split at h
      · cases h
      · next content hcontent =>
        cases h
        exact ⟨found, rfl, rfl, rfl, hcontent⟩

theorem readBoundedLegacySource_missing :
    readBoundedLegacySource file = .error .missing ↔ file = none := by
  unfold readBoundedLegacySource
  split
  · exact iff_of_true rfl rfl
  · refine iff_of_false (fun h => ?_) fun h => by cases h
    split at h
    · cases h
    · split at h <;> cases h

@[simp] theorem readIfPresent_some_iff :
    readIfPresent file = .ok (some source) ↔ readBoundedLegacySource file = .ok source := by
  unfold readIfPresent
  cases readBoundedLegacySource file with
  | ok found => simp
  | error failure => cases failure <;> simp

@[simp] theorem readIfPresent_none_iff : readIfPresent file = .ok none ↔ file = none := by
  rw [← readBoundedLegacySource_missing]
  unfold readIfPresent
  cases readBoundedLegacySource file with
  | ok found => simp
  | error failure => cases failure <;> simp

theorem unchanged_of_read
    (h : readBoundedLegacySource file = .ok source) : unchanged file source = true := by
  unfold unchanged
  rw [h]
  simp

/-! ## What the files hold -/

def Holds (file : Option LegacyFile) (bytes : ByteArray) : Prop :=
  file.map LegacyFile.bytes = some bytes

instance (file : Option LegacyFile) (bytes : ByteArray) : Decidable (Holds file bytes) :=
  inferInstanceAs (Decidable (_ = _))

variable {bytes : ByteArray}

@[simp] theorem holds_some {file : LegacyFile} :
    Holds (some file) bytes ↔ file.bytes = bytes := by simp [Holds]

@[simp] theorem not_holds_none : ¬Holds none bytes := by simp [Holds]

theorem holds_of_read
    (h : readBoundedLegacySource file = .ok source) : Holds file source.bytes := by
  obtain ⟨found, rfl, hbytes, -, -⟩ := readBoundedLegacySource_ok h
  exact holds_some.mpr hbytes.symm

def ContextFiles.Held (files : ContextFiles) (bytes : ByteArray) : Prop :=
  Holds files.source bytes ∨ Holds files.staged bytes ∨ Holds files.target bytes

instance (files : ContextFiles) (bytes : ByteArray) : Decidable (files.Held bytes) :=
  inferInstanceAs (Decidable (_ ∨ _ ∨ _))

/-! ## The effects of a step -/

/-- What a step of the migration does to the three files: a file is renamed to where there is
none, the bytes of the staged file are published where there is no target, or a file is removed
that another one holds the bytes of. -/
inductive FileMove : ContextFiles → ContextFiles → Prop where
  | stays (files : ContextFiles) : FileMove files files
  | stages (files : ContextFiles) (file : LegacyFile) (hsource : files.source = some file)
      (hstaged : files.staged = none) :
      FileMove files { files with source := none, staged := some file }
  | restores (files : ContextFiles) (hsource : files.source = none) :
      FileMove files { files with source := files.staged, staged := none }
  | publishes (files : ContextFiles) (file : LegacyFile) (nextInode : ℕ)
      (htarget : files.target = none) (hstaged : Holds files.staged file.bytes) :
      FileMove files { files with target := some file, nextInode := nextInode }
  | removesSource (files : ContextFiles) (bytes : ByteArray) (hsource : Holds files.source bytes)
      (hstaged : Holds files.staged bytes) : FileMove files { files with source := none }
  | removesStaged (files : ContextFiles) (bytes : ByteArray) (hstaged : Holds files.staged bytes)
      (htarget : Holds files.target bytes) : FileMove files { files with staged := none }
  | withdraws (files : ContextFiles) (bytes : ByteArray) (hstaged : Holds files.staged bytes)
      (htarget : Holds files.target bytes) : FileMove files { files with target := none }

namespace FileMove

variable {files files' : ContextFiles}

theorem eq_of_holds {file : Option LegacyFile} {bytes bytes' : ByteArray} (h : Holds file bytes)
    (h' : Holds file bytes') : bytes' = bytes :=
  some.inj (h'.symm.trans h)

/-- **No content comes or goes.** -/
theorem held_iff (h : FileMove files files') (bytes : ByteArray) :
    files'.Held bytes ↔ files.Held bytes := by
  cases h with
  | stays => exact Iff.rfl
  | stages file hsource hstaged => simp [ContextFiles.Held, hsource, hstaged]
  | restores hsource => simp [ContextFiles.Held, hsource]
  | publishes file nextInode htarget hstaged =>
    have hsame : file.bytes = bytes → Holds files.staged bytes := by
      rintro rfl
      exact hstaged
    simp only [ContextFiles.Held, htarget, holds_some, not_holds_none, or_false]
    exact ⟨fun h => h.imp_right (Or.rec id hsame), fun h => h.imp_right .inl⟩
  | removesSource bytes' hsource hstaged =>
    simp only [ContextFiles.Held, not_holds_none, false_or]
    refine ⟨.inr, fun h => h.elim (fun hholds => .inl ?_) id⟩
    rw [eq_of_holds hsource hholds]
    exact hstaged
  | removesStaged bytes' hstaged htarget =>
    simp only [ContextFiles.Held, not_holds_none, false_or]
    refine ⟨Or.imp_right .inr, Or.imp_right (Or.rec (fun hholds => ?_) id)⟩
    rw [eq_of_holds hstaged hholds]
    exact htarget
  | withdraws bytes' hstaged htarget =>
    simp only [ContextFiles.Held, not_holds_none, or_false]
    refine ⟨Or.imp_right .inl, Or.imp_right (Or.rec id fun hholds => ?_)⟩
    rw [eq_of_holds htarget hholds]
    exact hstaged

theorem target_stays (h : FileMove files files') {target : LegacyFile}
    (htarget : files.target = some target) :
    files'.target = some target ∨ Holds files.staged target.bytes := by
  cases h with
  | publishes file nextInode hnone hstaged =>
    rw [hnone] at htarget
    cases htarget
  | withdraws bytes hstaged hholds =>
    rw [htarget, holds_some] at hholds
    rw [hholds]
    exact .inr hstaged
  | _ => exact .inl htarget

/-- What is in the source or staged has been there before. -/
theorem inputs (h : FileMove files files') {file : LegacyFile}
    (hfile : files'.source = some file ∨ files'.staged = some file) :
    files.source = some file ∨ files.staged = some file := by
  cases h with
  | stages found hsource hstaged =>
    rcases hfile with hfile | hfile
    · cases hfile
    · exact .inl (hsource.trans hfile)
  | restores hsource =>
    rcases hfile with hfile | hfile
    · exact .inr hfile
    · cases hfile
  | removesSource =>
    rcases hfile with hfile | hfile
    · cases hfile
    · exact .inr hfile
  | removesStaged =>
    rcases hfile with hfile | hfile
    · exact .inl hfile
    · cases hfile
  | _ => exact hfile

end FileMove

/-! ## The text of the staged file -/

/-- The text that the bytes encode begins with a byte order mark. -/
def startsWithMark (bytes : ByteArray) : Bool :=
  (String.fromUTF8? bytes).any fun text => decide (text.toList.head? = some byteOrderMark)

theorem toUTF8_of_decodeText {content : String}
    (h : decodeText bytes = some content) (hmark : startsWithMark bytes = false) :
    content.toUTF8 = bytes := by
  unfold decodeText at h
  unfold startsWithMark at hmark
  obtain ⟨text, htext, hcontent⟩ := map_eq_some_iff.mp h
  rw [htext, any_some, decide_eq_false_iff_not] at hmark
  rw [if_neg hmark] at hcontent
  unfold String.fromUTF8? at htext
  split at htext
  · cases htext
    rw [← hcontent]
    rfl
  · cases htext

def ContextFiles.Unmarked (files : ContextFiles) : Prop :=
  ∀ file, files.source = some file ∨ files.staged = some file → startsWithMark file.bytes = false

/-! ## What a phase relies on -/

def HasStaged (staged : LegacySource) (files : ContextFiles) : Prop :=
  readBoundedLegacySource files.staged = .ok staged

def Twin (staged : LegacySource) (files : ContextFiles) : Prop :=
  ∀ file, files.source = some file → file.bytes = staged.bytes

/-- What the run has read is what there is. -/
def MigrationPhase.Placed (phase : MigrationPhase) (files : ContextFiles)
    (moving : Option ByteArray) : Prop :=
  match phase with
  | .starting => True
  | .readingSource => True
  | .readingStaged source => readIfPresent files.source = .ok source
  | .readingTarget source staged =>
    readIfPresent files.source = .ok source ∧ readIfPresent files.staged = .ok staged
  | .staging =>
    files.staged = none ∧ ∃ bytes, Holds files.source bytes ∧ moving = some bytes
  | .syncingStage => ∃ bytes, Holds files.staged bytes ∧ moving = some bytes
  | .readingStage => ∃ bytes, Holds files.staged bytes ∧ moving = some bytes
  | .rereadingSource staged => HasStaged staged files ∧ moving = some staged.bytes
  | .rereadingTarget staged source =>
    HasStaged staged files ∧ moving = some staged.bytes ∧ readIfPresent files.source = .ok source
  | .hardening staged source target =>
    HasStaged staged files ∧ moving = some staged.bytes ∧
      readIfPresent files.source = .ok source ∧ readBoundedLegacySource files.target = .ok target
  | .beforePublishing staged =>
    HasStaged staged files ∧ moving = some staged.bytes ∧ Twin staged files ∧ files.target = none
  | .linking staged =>
    HasStaged staged files ∧ moving = some staged.bytes ∧ Twin staged files ∧ files.target = none
  | .seeding staged =>
    HasStaged staged files ∧ moving = some staged.bytes ∧ Twin staged files ∧
      Holds files.target staged.bytes
  | .readingPublished staged =>
    HasStaged staged files ∧ moving = some staged.bytes ∧ Twin staged files ∧
      Holds files.target staged.bytes
  | .rereadingStage staged published =>
    HasStaged staged files ∧ moving = some staged.bytes ∧ Twin staged files ∧
      readBoundedLegacySource files.target = .ok published ∧ published.bytes = staged.bytes
  | .rereadingDuplicate staged published currentStage =>
    HasStaged staged files ∧ moving = some staged.bytes ∧ Twin staged files ∧
      readBoundedLegacySource files.target = .ok published ∧ published.bytes = staged.bytes ∧
        currentStage = some staged
  | .verifyingTarget staged published currentSource =>
    HasStaged staged files ∧ moving = some staged.bytes ∧ Twin staged files ∧
      readBoundedLegacySource files.target = .ok published ∧ published.bytes = staged.bytes ∧
        readIfPresent files.source = .ok currentSource
  | .removingSource staged source =>
    HasStaged staged files ∧ moving = some staged.bytes ∧ Holds files.target staged.bytes ∧
      readBoundedLegacySource files.source = .ok source ∧ source.bytes = staged.bytes
  | .removingStaged staged _ =>
    HasStaged staged files ∧ moving = some staged.bytes ∧ Holds files.target staged.bytes
  | .syncingRemoval _ => ∃ bytes, moving = some bytes ∧ Holds files.target bytes
  | .restoring ending => ending ≠ .returned .migrated
  | .syncingRestore ending => ending ≠ .returned .migrated
  | .rollingBack published movesBack =>
    movesBack = false ∧ readBoundedLegacySource files.target = .ok published ∧
      Holds files.staged published.bytes
  -- nobody changes the staged file while the run has the locks
  | .movingBack => False
  | .syncingBack => False

def MigrationProgress.Follows (progress : MigrationProgress) (files : ContextFiles)
    (moving : Option ByteArray) : Prop :=
  match progress with
  | .goes phase => phase.Placed files moving
  | .ended ending =>
    ending = .returned .migrated → ∃ bytes, moving = some bytes ∧ Holds files.target bytes

namespace MigrationPhase

variable {files : ContextFiles} {moving : Option ByteArray} {staged published : LegacySource}
  {source : Option LegacySource}

theorem follows_threw : (MigrationProgress.ended .threw).Follows files moving := fun h => by cases h

theorem follows_conflict : (MigrationProgress.ended (.returned .conflict)).Follows files moving :=
  fun h => by cases h

theorem failed_follows {phase : MigrationPhase} (h : phase.Placed files moving) :
    phase.failed.Follows files moving := by
  have hends : MigrationEnding.threw ≠ .returned .migrated := fun heq => by cases heq
  have hrolls : ∀ staged published : LegacySource, HasStaged staged files →
      readBoundedLegacySource files.target = .ok published → published.bytes = staged.bytes →
        (MigrationPhase.rollingBack published false).Placed files moving := by
    intro staged published hstaged hpublished hsame
    refine ⟨rfl, hpublished, ?_⟩
    rw [hsame]
    exact holds_of_read hstaged
  cases phase with
  | readingStage => exact hends
  | beforePublishing staged => exact hends
  | linking staged => exact hends
  | seeding staged => exact hends
  | rereadingStage staged published =>
    obtain ⟨hstaged, -, -, hpublished, hsame⟩ := h
    exact hrolls staged published hstaged hpublished hsame
  | rereadingDuplicate staged published currentStage =>
    obtain ⟨hstaged, -, -, hpublished, hsame, -⟩ := h
    exact hrolls staged published hstaged hpublished hsame
  | _ => exact follows_threw

/-! ## Decisions -/

theorem chooseStart_follows {staged target : Option LegacySource}
    (hsource : readIfPresent files.source = .ok source)
    (hstaged : readIfPresent files.staged = .ok staged) :
    (chooseStart source staged target).Follows files
    ((staged.or source).map LegacySource.bytes) := by
  unfold chooseStart
  cases staged with
  | some staged => exact ⟨readIfPresent_some_iff.mp hstaged, rfl⟩
  | none =>
    have hplaced : ∀ found, source = some found →
        (MigrationPhase.staging).Placed files (some found.bytes) := by
      rintro found rfl
      exact ⟨readIfPresent_none_iff.mp hstaged,
        ⟨_, holds_of_read (readIfPresent_some_iff.mp hsource), rfl⟩⟩
    cases source with
    | none =>
      dsimp only
      split <;> exact fun h => by cases h
    | some source =>
      dsimp only
      split
      · exact hplaced source rfl
      · split
        · exact follows_conflict
        · exact hplaced source rfl

theorem settle_follows {target : LegacySource}
    (hstaged : HasStaged staged files) (hmoving : moving = some staged.bytes)
    (hsource : readIfPresent files.source = .ok source)
    (htarget : readBoundedLegacySource files.target = .ok target) :
    (settle staged source target).Follows files moving := by
  unfold settle
  split
  · exact follows_conflict
  · next hsame =>
    have hsame := not_not.mp hsame
    have hholds : Holds files.target staged.bytes := by
      rw [hsame]
      exact holds_of_read htarget
    cases source with
    | none => exact ⟨hstaged, hmoving, hholds⟩
    | some source =>
      dsimp only
      split
      · exact ⟨hstaged, hmoving, hholds⟩
      · next htwin =>
        exact ⟨hstaged, hmoving, hholds, readIfPresent_some_iff.mp hsource,
          (not_not.mp htwin).trans hsame.symm⟩

theorem publish_follows (hstaged : HasStaged staged files)
    (hmoving : moving = some staged.bytes) (hsource : readIfPresent files.source = .ok source)
    (htarget : files.target = none) : (publish staged source).Follows files moving := by
  unfold publish
  cases source with
  | none =>
    refine ⟨hstaged, hmoving, fun file hfile => ?_, htarget⟩
    rw [readIfPresent_none_iff.mp hsource] at hfile
    cases hfile
  | some source =>
    dsimp only
    split
    · exact follows_conflict
    · next hsame =>
      refine ⟨hstaged, hmoving, fun file hfile => ?_, htarget⟩
      have hholds := holds_of_read (readIfPresent_some_iff.mp hsource)
      rw [hfile, holds_some] at hholds
      exact hholds.trans (not_not.mp hsame)

theorem verifyInput_eq {currentSource : Option LegacySource} (htwin : Twin staged files)
    (hsource : readIfPresent files.source = .ok currentSource) :
    verifyInput staged published (some staged) currentSource =
      .goes (.verifyingTarget staged published currentSource) := by
  unfold verifyInput
  cases currentSource with
  | none => simp
  | some source =>
    obtain ⟨file, hfile, hbytes, -, -⟩ :=
      readBoundedLegacySource_ok (readIfPresent_some_iff.mp hsource)
    simp [hbytes, htwin file hfile]

/-! ## Steps -/

/-- A step that goes through moves at most one file, and what it leads to relies on what there
is. -/
theorem proceeds_follows {phase : MigrationPhase} (h : phase.Placed files moving)
    (hunmarked : files.Unmarked) : FileMove files (phase.proceeds files).2 ∧
      (phase.proceeds files).1.Follows (phase.proceeds files).2 (phase.movingOf moving) := by
  unfold proceeds
  cases phase with
  | starting => exact ⟨.stays _, trivial⟩
  | readingSource =>
    dsimp only
    split
    · next source hsource => exact ⟨.stays _, hsource⟩
    · exact ⟨.stays _, failed_follows h⟩
  | readingStaged source =>
    dsimp only
    split
    · next staged hstaged => exact ⟨.stays _, h, hstaged⟩
    · exact ⟨.stays _, failed_follows h⟩
  | readingTarget source staged =>
    dsimp only
    split
    · exact ⟨.stays _, chooseStart_follows h.1 h.2⟩
    · exact ⟨.stays _, follows_threw⟩
  | staging =>
    obtain ⟨hstaged, bytes, hbytes, hmoving⟩ := h
    dsimp only
    split
    · next source hsource =>
      rw [hsource] at hbytes
      exact ⟨.stages _ source hsource hstaged, bytes, hbytes, hmoving⟩
    · exact ⟨.stays _, follows_threw⟩
  | readingStage =>
    obtain ⟨bytes, hbytes, hmoving⟩ := h
    dsimp only
    split
    · next staged hstaged =>
      refine ⟨.stays _, hstaged, ?_⟩
      rw [FileMove.eq_of_holds (holds_of_read hstaged) hbytes] at hmoving
      exact hmoving
    · exact ⟨.stays _, fun heq => by cases heq⟩
  | rereadingSource staged =>
    dsimp only
    split
    · next source hsource => exact ⟨.stays _, h.1, h.2, hsource⟩
    · exact ⟨.stays _, failed_follows h⟩
  | rereadingTarget staged source =>
    obtain ⟨hstaged, hmoving, hsource⟩ := h
    dsimp only
    split
    · next target htarget =>
      exact ⟨.stays _, hstaged, hmoving, hsource, readIfPresent_some_iff.mp htarget⟩
    · next htarget =>
      exact ⟨.stays _, publish_follows hstaged hmoving hsource (readIfPresent_none_iff.mp htarget)⟩
    · exact ⟨.stays _, follows_threw⟩
  | hardening staged source target =>
    obtain ⟨hstaged, hmoving, hsource, htarget⟩ := h
    exact ⟨.stays _, settle_follows hstaged hmoving hsource htarget⟩
  | linking staged =>
    obtain ⟨hstaged, hmoving, htwin, htarget⟩ := h
    dsimp only
    split
    · exact ⟨.stays _, fun heq => by cases heq⟩
    · -- what is published is what was staged
      obtain ⟨file, hfile, hbytes, -, hcontent⟩ := readBoundedLegacySource_ok hstaged
      have hsame : staged.content.toUTF8 = staged.bytes := by
        rw [toUTF8_of_decodeText hcontent (hunmarked file (.inr hfile)), hbytes]
      have hheld : Holds files.staged staged.content.toUTF8 := by
        rw [hsame]
        exact holds_of_read hstaged
      exact ⟨.publishes _ _ _ htarget hheld, hstaged, hmoving, htwin, holds_some.mpr hsame⟩
  | readingPublished staged =>
    obtain ⟨hstaged, hmoving, htwin, htarget⟩ := h
    dsimp only
    split
    · next published hpublished =>
      exact ⟨.stays _, hstaged, hmoving, htwin, hpublished,
        FileMove.eq_of_holds htarget (holds_of_read hpublished)⟩
    · exact ⟨.stays _, follows_threw⟩
  | rereadingStage staged published =>
    have hfailed := failed_follows h
    obtain ⟨hstaged, hmoving, htwin, hpublished, hsame⟩ := h
    have hread := readIfPresent_some_iff.mpr hstaged
    dsimp only
    split
    · next currentStage hcurrent =>
      rw [hread] at hcurrent
      exact ⟨.stays _, hstaged, hmoving, htwin, hpublished, hsame, (Except.ok.inj hcurrent).symm⟩
    · exact ⟨.stays _, hfailed⟩
  | rereadingDuplicate staged published currentStage =>
    have hfailed := failed_follows h
    obtain ⟨hstaged, hmoving, htwin, hpublished, hsame, rfl⟩ := h
    dsimp only
    split
    · next currentSource hsource =>
      rw [verifyInput_eq htwin hsource]
      exact ⟨.stays _, hstaged, hmoving, htwin, hpublished, hsame, hsource⟩
    · exact ⟨.stays _, hfailed⟩
  | verifyingTarget staged published currentSource =>
    obtain ⟨hstaged, hmoving, htwin, hpublished, hsame, hsource⟩ := h
    have htarget : Holds files.target staged.bytes := by
      rw [← hsame]
      exact holds_of_read hpublished
    dsimp only
    rw [if_pos (unchanged_of_read hpublished)]
    cases currentSource with
    | none => exact ⟨.stays _, hstaged, hmoving, htarget⟩
    | some source =>
      have hread := readIfPresent_some_iff.mp hsource
      obtain ⟨file, hfile, hbytes, -, -⟩ := readBoundedLegacySource_ok hread
      exact ⟨.stays _, hstaged, hmoving, htarget, hread, hbytes.trans (htwin file hfile)⟩
  | removingSource staged source =>
    obtain ⟨hstaged, hmoving, htarget, hsource, hsame⟩ := h
    dsimp only
    rw [if_pos (unchanged_of_read hsource)]
    have hholds := holds_of_read hsource
    rw [hsame] at hholds
    exact ⟨.removesSource _ _ hholds (holds_of_read hstaged), hstaged, hmoving, htarget⟩
  | removingStaged staged result =>
    obtain ⟨hstaged, hmoving, htarget⟩ := h
    dsimp only
    rw [if_pos (unchanged_of_read hstaged)]
    exact ⟨.removesStaged _ _ (holds_of_read hstaged) htarget, _, hmoving, htarget⟩
  | syncingRemoval result => exact ⟨.stays _, fun _ => h⟩
  | restoring ending =>
    dsimp only
    split
    · next hboth =>
      have hnone := isNone_iff_eq_none.mp (Bool.and_eq_true_iff.mp hboth).1
      exact ⟨.restores _ hnone, h⟩
    · exact ⟨.stays _, fun heq => absurd heq h⟩
  | syncingRestore ending => exact ⟨.stays _, fun heq => absurd heq h⟩
  | rollingBack published movesBack =>
    obtain ⟨rfl, hpublished, hstaged⟩ := h
    dsimp only
    rw [if_pos (unchanged_of_read hpublished)]
    exact ⟨.withdraws _ _ hstaged (holds_of_read hpublished), fun heq => by cases heq⟩
  | movingBack => exact h.elim
  | syncingBack => exact h.elim
  | _ => exact ⟨.stays _, h⟩

/-! ## A run in which nothing throws -/

def rank : MigrationPhase → ℕ
  | .starting => 18
  | .readingSource => 17
  | .readingStaged _ => 16
  | .readingTarget _ _ => 15
  | .staging => 14
  | .syncingStage => 13
  | .readingStage => 12
  | .rereadingSource _ => 11
  | .rereadingTarget _ _ => 10
  | .hardening _ _ _ => 9
  | .beforePublishing _ => 9
  | .linking _ => 8
  | .seeding _ => 7
  | .readingPublished _ => 6
  | .rereadingStage _ _ => 5
  | .rereadingDuplicate _ _ _ => 4
  | .verifyingTarget _ _ _ => 3
  | .removingSource _ _ => 2
  | .removingStaged _ _ => 1
  | _ => 0

/-- Nothing has thrown, and no conflict has been found. -/
def OnCourse : MigrationPhase → Prop
  | .removingStaged _ result => result = .migrated
  | .syncingRemoval result => result = .migrated
  | .restoring _ => False
  | .syncingRestore _ => False
  | .rollingBack _ _ => False
  | .movingBack => False
  | .syncingBack => False
  | _ => True

end MigrationPhase

/-- The migration can read the bytes. -/
def Readable (bytes : ByteArray) : Prop :=
  bytes.size ≤ maxContextSourceReadBytes ∧ (decodeText bytes).isSome = true

instance (bytes : ByteArray) : Decidable (Readable bytes) := inferInstanceAs (Decidable (_ ∧ _))

def ContextFiles.Agree (files : ContextFiles) (original : ByteArray) : Prop :=
  files.Held original ∧ ∀ bytes, files.Held bytes → bytes = original

def MigrationProgress.Advances (progress : MigrationProgress) (phase : MigrationPhase)
    (files : ContextFiles) : Prop :=
  (∃ next, progress = .goes next ∧ next.OnCourse ∧ next.rank < phase.rank) ∨
    progress = .ended (.returned .migrated) ∨
      (progress = .ended (.returned .targetPresent) ∧ files.source = none ∧ files.staged = none)

namespace MigrationPhase

variable {original : ByteArray} {source : Option LegacySource}

theorem advances_goes {phase next : MigrationPhase} (hcourse : next.OnCourse)
    (hrank : next.rank < phase.rank) : (MigrationProgress.goes next).Advances phase files :=
  .inl ⟨next, rfl, hcourse, hrank⟩

theorem exists_read (hreadable : Readable original) {file : Option LegacyFile}
    (hsome : file ≠ none) (hsame : ∀ bytes, Holds file bytes → bytes = original) :
    ∃ source, readBoundedLegacySource file = .ok source ∧ source.bytes = original := by
  obtain ⟨found, rfl⟩ := ne_none_iff_exists'.mp hsome
  have hbytes := hsame found.bytes (holds_some.mpr rfl)
  obtain ⟨hsize, hsome⟩ := hreadable
  obtain ⟨content, hcontent⟩ := isSome_iff_exists.mp hsome
  refine ⟨{ bytes := found.bytes, content := content, inode := found.inode }, ?_, hbytes⟩
  unfold readBoundedLegacySource
  dsimp only
  rw [hbytes, if_neg (Nat.not_lt.mpr hsize), hcontent]

theorem exists_readIfPresent (hreadable : Readable original) (file : Option LegacyFile)
    (hsame : ∀ bytes, Holds file bytes → bytes = original) :
    ∃ source, readIfPresent file = .ok source ∧
      ∀ found, source = some found → found.bytes = original := by
  by_cases hnone : file = none
  · exact ⟨none, readIfPresent_none_iff.mpr hnone, fun _ h => by cases h⟩
  · obtain ⟨source, hread, hbytes⟩ := exists_read hreadable hnone hsame
    refine ⟨some source, readIfPresent_some_iff.mpr hread, fun found hfound => ?_⟩
    cases hfound
    exact hbytes

theorem chooseStart_advances {staged target : Option LegacySource}
    (hsource : readIfPresent files.source = .ok source)
    (hstaged : readIfPresent files.staged = .ok staged)
    (htarget : readIfPresent files.target = .ok target) (hheld : files.Held original)
    (hsame : ∀ found other, source = some found → target = some other → found.bytes = other.bytes) :
    (chooseStart source staged target).Advances (.readingTarget source staged) files := by
  unfold chooseStart
  cases staged with
  | some staged => exact advances_goes trivial (by simp [rank])
  | none =>
    cases source with
    | none =>
      have hnoSource := readIfPresent_none_iff.mp hsource
      have hnoStaged := readIfPresent_none_iff.mp hstaged
      refine .inr (.inr ⟨?_, hnoSource, hnoStaged⟩)
      dsimp only
      rw [if_neg]
      -- the content is in the target, since it is nowhere else
      rintro rfl
      rw [ContextFiles.Held, hnoSource, hnoStaged, readIfPresent_none_iff.mp htarget] at hheld
      rcases hheld with hholds | hholds | hholds <;> exact not_holds_none hholds
    | some source =>
      cases target with
      | none => exact advances_goes trivial (by simp [rank])
      | some target =>
        dsimp only
        rw [if_neg (not_not.mpr (hsame source target rfl rfl))]
        exact advances_goes trivial (by simp [rank])

theorem settle_advances {target : LegacySource} (hstaged : staged.bytes = target.bytes)
    (hsource : ∀ found, source = some found → found.bytes = target.bytes) :
    (settle staged source target).Advances (.hardening staged source target) files := by
  unfold settle
  rw [if_neg (not_not.mpr hstaged)]
  cases source with
  | none => exact advances_goes rfl (by simp [rank])
  | some source =>
    dsimp only
    rw [if_neg (not_not.mpr (hsource source rfl))]
    exact advances_goes trivial (by simp [rank])

theorem publish_advances (hsource : ∀ found, source = some found → found.bytes = staged.bytes) :
    (publish staged source).Advances (.rereadingTarget staged source) files := by
  unfold publish
  cases source with
  | none => exact advances_goes trivial (by simp [rank])
  | some source =>
    dsimp only
    rw [if_neg (not_not.mpr (hsource source rfl))]
    exact advances_goes trivial (by simp [rank])

theorem proceeds_advances {phase : MigrationPhase} (h : phase.Placed files moving)
    (hcourse : phase.OnCourse) (hreadable : Readable original) (hagree : files.Agree original) :
    (phase.proceeds files).1.Advances phase (phase.proceeds files).2 := by
  obtain ⟨hheld, hsame⟩ := hagree
  have hsource : ∀ bytes, Holds files.source bytes → bytes = original :=
    fun bytes hholds => hsame bytes (.inl hholds)
  have hstagedSame : ∀ bytes, Holds files.staged bytes → bytes = original :=
    fun bytes hholds => hsame bytes (.inr (.inl hholds))
  have htargetSame : ∀ bytes, Holds files.target bytes → bytes = original :=
    fun bytes hholds => hsame bytes (.inr (.inr hholds))
  have hread : ∀ {file : Option LegacyFile} {source : Option LegacySource},
      (∀ bytes, Holds file bytes → bytes = original) → readIfPresent file = .ok source →
        ∀ found, source = some found → found.bytes = original := by
    rintro file source hfile hok found rfl
    exact hfile _ (holds_of_read (readIfPresent_some_iff.mp hok))
  unfold proceeds
  cases phase with
  | starting => exact advances_goes trivial (by decide)
  | readingSource =>
    obtain ⟨source, hok, -⟩ := exists_readIfPresent hreadable files.source hsource
    dsimp only
    rw [hok]
    exact advances_goes trivial (by simp [rank])
  | readingStaged source =>
    obtain ⟨staged, hok, -⟩ := exists_readIfPresent hreadable files.staged hstagedSame
    dsimp only
    rw [hok]
    exact advances_goes trivial (by simp [rank])
  | readingTarget source staged =>
    obtain ⟨target, hok, htarget⟩ := exists_readIfPresent hreadable files.target htargetSame
    dsimp only
    rw [hok]
    refine chooseStart_advances h.1 h.2 hok hheld fun found other hfound hother => ?_
    rw [hread hsource h.1 found hfound, htarget other hother]
  | staging =>
    obtain ⟨-, bytes, hbytes, -⟩ := h
    dsimp only
    split
    · exact advances_goes trivial (by decide)
    · next hnone =>
      rw [hnone] at hbytes
      exact absurd hbytes not_holds_none
  | syncingStage => exact advances_goes trivial (by decide)
  | readingStage =>
    obtain ⟨bytes, hbytes, -⟩ := h
    have hsome : files.staged ≠ none := by
      intro hnone
      rw [hnone] at hbytes
      exact not_holds_none hbytes
    obtain ⟨staged, hok, -⟩ := exists_read hreadable hsome hstagedSame
    dsimp only
    rw [hok]
    exact advances_goes trivial (by simp [rank])
  | rereadingSource staged =>
    obtain ⟨source, hok, -⟩ := exists_readIfPresent hreadable files.source hsource
    dsimp only
    rw [hok]
    exact advances_goes trivial (by simp [rank])
  | rereadingTarget staged source =>
    obtain ⟨target, hok, -⟩ := exists_readIfPresent hreadable files.target htargetSame
    dsimp only
    rw [hok]
    cases target with
    | some target => exact advances_goes trivial (by simp [rank])
    | none =>
      refine publish_advances fun found hfound => ?_
      rw [hread hsource h.2.2 found hfound, hstagedSame _ (holds_of_read h.1)]
  | hardening staged source target =>
    have htarget := htargetSame _ (holds_of_read h.2.2.2)
    refine settle_advances ((hstagedSame _ (holds_of_read h.1)).trans htarget.symm)
      fun found hfound => ?_
    rw [hread hsource h.2.2.1 found hfound, htarget]
  | beforePublishing staged => exact advances_goes trivial (by simp [rank])
  | linking staged =>
    dsimp only
    rw [h.2.2.2]
    exact advances_goes trivial (by simp [rank])
  | seeding staged => exact advances_goes trivial (by simp [rank])
  | readingPublished staged =>
    have hsome : files.target ≠ none := by
      intro hnone
      have hholds := h.2.2.2
      rw [hnone] at hholds
      exact not_holds_none hholds
    obtain ⟨published, hok, -⟩ := exists_read hreadable hsome htargetSame
    dsimp only
    rw [hok]
    exact advances_goes trivial (by simp [rank])
  | rereadingStage staged published =>
    dsimp only
    rw [readIfPresent_some_iff.mpr h.1]
    exact advances_goes trivial (by simp [rank])
  | rereadingDuplicate staged published currentStage =>
    obtain ⟨-, -, htwin, -, -, rfl⟩ := h
    obtain ⟨source, hok, -⟩ := exists_readIfPresent hreadable files.source hsource
    dsimp only
    rw [hok]
    dsimp only
    rw [verifyInput_eq htwin hok]
    exact advances_goes trivial (by simp [rank])
  | verifyingTarget staged published currentSource =>
    dsimp only
    rw [if_pos (unchanged_of_read h.2.2.2.1)]
    cases currentSource with
    | some source => exact advances_goes trivial (by simp [rank])
    | none => exact advances_goes rfl (by simp [rank])
  | removingSource staged source =>
    dsimp only
    rw [if_pos (unchanged_of_read h.2.2.2.1)]
    exact advances_goes rfl (by simp [rank])
  | removingStaged staged result =>
    dsimp only
    rw [if_pos (unchanged_of_read h.1)]
    exact advances_goes hcourse (by simp [rank])
  | syncingRemoval result =>
    have hresult : result = .migrated := hcourse
    rw [hresult]
    exact .inr (.inl rfl)
  | _ => exact hcourse.elim

end MigrationPhase

/-! ## Runs -/

namespace MigrationEvent

def Own : MigrationEvent → Prop
  | .writesSource _ => False
  | .writesTarget _ => False
  | _ => True

/-- What somebody else writes into the source does not begin with a byte order mark. -/
def Unmarked : MigrationEvent → ContextMigration → Prop
  | .writesSource bytes, _ => startsWithMark bytes = false
  | _, _ => True

instance decidableUnmarked (event : MigrationEvent) (s : ContextMigration) :
    Decidable (event.Unmarked s) :=
  match event with
  | .writesSource bytes => inferInstanceAs (Decidable (startsWithMark bytes = false))
  | .begins => isTrue trivial
  | .proceeds => isTrue trivial
  | .fails => isTrue trivial
  | .dies => isTrue trivial
  | .writesTarget _ => isTrue trivial

end MigrationEvent

namespace ContextMigration

structure Inv (s : ContextMigration) : Prop where
  placed : ∀ phase, s.run = some phase → phase.Placed s.files s.moving
  running : s.run.isSome = true → s.ending = none
  unmarked : s.files.Unmarked
  held : ∀ bytes ∈ s.contents, s.files.Held bytes
  agree : s.disturbed = false → s.files.Agree s.original

variable {s : ContextMigration}

theorem inv_initial {original : ByteArray} (target : Option ByteArray)
    (hmark : startsWithMark original = false) : (initial original target).Inv where
  placed := fun _ h => by cases h
  running := fun h => by cases h
  unmarked := by
    rintro file (hfile | hfile)
    · cases hfile
      exact hmark
    · cases hfile
  held := by
    intro bytes hmem
    rcases mem_cons.mp hmem with rfl | hmem
    · exact .inl (holds_some.mpr rfl)
    · refine .inr (.inr ?_)
      rw [mem_toList.mp hmem]
      exact holds_some.mpr rfl
  agree := by
    intro hnone
    refine ⟨.inl (holds_some.mpr rfl), fun bytes hheld => ?_⟩
    rcases hheld with hholds | hholds | hholds
    · exact (holds_some.mp hholds).symm
    · exact absurd hholds not_holds_none
    · cases target with
      | none => exact absurd hholds not_holds_none
      | some found =>
        have hsame : found = original := of_not_not (of_decide_eq_false hnone)
        rw [← hsame]
        exact (holds_some.mp hholds).symm

theorem Inv.goOn (h : s.Inv) {progress : MigrationProgress} {files : ContextFiles}
    {moving : Option ByteArray} (hmove : FileMove s.files files)
    (hfollows : progress.Follows files moving) (hending : s.ending = none) :
    (goOn progress { s with files := files, moving := moving }).Inv := by
  have hunmarked : files.Unmarked := fun file hfile => h.unmarked file (hmove.inputs hfile)
  have hheld : ∀ bytes ∈ s.contents, files.Held bytes :=
    fun bytes hmem => (hmove.held_iff bytes).mpr (h.held bytes hmem)
  have hagree : s.disturbed = false → files.Agree s.original := by
    intro hnone
    obtain ⟨hheld, hsame⟩ := h.agree hnone
    exact ⟨(hmove.held_iff _).mpr hheld, fun bytes hbytes =>
      hsame bytes ((hmove.held_iff _).mp hbytes)⟩
  unfold ContextMigration.goOn
  cases progress with
  | goes phase =>
    refine ⟨fun next hnext => ?_, fun _ => hending, hunmarked, hheld, hagree⟩
    cases hnext
    exact hfollows
  | ended ending => exact ⟨fun _ h => (by cases h), fun h => (by cases h), hunmarked, hheld, hagree⟩

/-- Somebody else writes a file while there is no run. -/
theorem Inv.written (h : s.Inv) (hrun : s.run = none) {old : Option LegacyFile} {bytes : ByteArray}
    {files : ContextFiles} (hunmarked : files.Unmarked) (hnew : files.Held bytes)
    (hrest : ∀ content, s.files.Held content → ¬Holds old content → files.Held content)
    (honly : ∀ content, files.Held content → content = bytes ∨ s.files.Held content) :
    Inv { s.written old bytes with files := files } := by
  refine ⟨fun phase hphase => ?_, fun hsome => ?_, hunmarked, fun content hmem => ?_,
    fun hnone => ?_⟩
  · rw [show s.run = some phase from hphase] at hrun
    cases hrun
  · have hsome' : s.run.isSome = true := hsome
    rw [hrun] at hsome'
    cases hsome'
  · rcases mem_cons.mp hmem with rfl | hold
    · exact hnew
    · obtain ⟨hold, hne⟩ := mem_filter.mp hold
      refine hrest content (h.held content hold) fun hholds => ?_
      exact of_decide_eq_true hne hholds.symm
  · have hboth : (s.disturbed || decide (bytes ≠ s.original)) = false := hnone
    obtain ⟨hdisturbed, hsame⟩ := Bool.or_eq_false_iff.mp hboth
    have hsame : bytes = s.original := not_not.mp (of_decide_eq_false hsame)
    have hagree := h.agree hdisturbed
    refine ⟨hsame ▸ hnew, fun content hcontent => ?_⟩
    rcases honly content hcontent with heq | hold
    · exact heq.trans hsame
    · exact hagree.2 content hold

theorem Inv.step (h : s.Inv) (event : MigrationEvent) (hcalm : event.Unmarked s) :
    (s.step event).Inv := by
  unfold ContextMigration.step
  cases hrun : s.run with
  | none =>
    cases event with
    | begins =>
      refine ⟨fun phase hphase => ?_, fun _ => rfl, h.unmarked, h.held, h.agree⟩
      cases hphase
      trivial
    | writesSource bytes =>
      refine h.written hrun ?_ (.inl (holds_some.mpr rfl)) ?_ ?_
      · rintro file (hfile | hfile)
        · cases hfile
          exact hcalm
        · exact h.unmarked file (.inr hfile)
      · exact fun content hheld hold => .inr (hheld.resolve_left hold)
      · rintro content (hholds | hrest)
        · exact .inl (holds_some.mp hholds).symm
        · exact .inr (.inr hrest)
    | writesTarget bytes =>
      refine h.written hrun h.unmarked (.inr (.inr (holds_some.mpr rfl))) ?_ ?_
      · rintro content (hholds | hholds | hholds) hold
        · exact .inl hholds
        · exact .inr (.inl hholds)
        · exact absurd hholds hold
      · rintro content (hholds | hholds | hholds)
        · exact .inr (.inl hholds)
        · exact .inr (.inr (.inl hholds))
        · exact .inl (holds_some.mp hholds).symm
    | _ => exact h
  | some phase =>
    have hplaced := h.placed phase hrun
    have hending := h.running (by rw [hrun]; rfl)
    cases event with
    | proceeds =>
      obtain ⟨hmove, hfollows⟩ := MigrationPhase.proceeds_follows hplaced h.unmarked
      exact h.goOn hmove hfollows hending
    | fails => exact h.goOn (.stays _) (MigrationPhase.failed_follows hplaced) hending
    | dies =>
      exact ⟨fun _ h => (by cases h), fun h => (by cases h), h.unmarked, h.held, h.agree⟩
    | _ => exact h

/-! ## Reruns -/

/-- The last run has migrated the source, or has found nothing left of it but the target. -/
def Completed (s : ContextMigration) : Prop :=
  s.run = none ∧ (s.ending = some (.returned .migrated) ∨
    (s.ending = some (.returned .targetPresent) ∧ s.files.source = none ∧ s.files.staged = none))

def proceedsFor (steps : ℕ) (s : ContextMigration) : ContextMigration :=
  finalState step s (List.replicate steps .proceeds)

theorem proceedsFor_succ (steps : ℕ) (s : ContextMigration) :
    proceedsFor (steps + 1) s = proceedsFor steps (step .proceeds s) := rfl

theorem proceedsFor_of_no_run (steps : ℕ) (h : s.run = none) : proceedsFor steps s = s := by
  induction steps with
  | zero => rfl
  | succ steps ih =>
    have hstep : step .proceeds s = s := by
      unfold ContextMigration.step
      rw [h]
    rw [proceedsFor_succ, hstep]
    exact ih

/-- A run that is on its course and is given the steps that are left comes to its end. -/
theorem Inv.completes (h : s.Inv) (hreadable : Readable s.original)
    (hdisturbed : s.disturbed = false)
    {phase : MigrationPhase} (hrun : s.run = some phase) (hcourse : phase.OnCourse) {steps : ℕ}
    (hsteps : phase.rank < steps) : (proceedsFor steps s).Completed := by
  induction steps generalizing s phase with
  | zero => exact absurd hsteps (Nat.not_lt_zero _)
  | succ steps ih =>
    have hadvances := MigrationPhase.proceeds_advances (h.placed phase hrun) hcourse hreadable
      (h.agree hdisturbed)
    have hinv := h.step .proceeds trivial
    have hstep : ContextMigration.step .proceeds s =
      ContextMigration.goOn (phase.proceeds s.files).1
        { s with files := (phase.proceeds s.files).2, moving := phase.movingOf s.moving } := by
      unfold ContextMigration.step
      rw [hrun]
    rw [proceedsFor_succ]
    rcases hadvances with ⟨next, hprogress, hnext, hrank⟩ | hprogress | ⟨hprogress, hboth⟩
    · rw [hprogress] at hstep
      rw [hstep] at hinv ⊢
      exact ih hinv hreadable hdisturbed rfl hnext (by omega)
    · rw [hprogress] at hstep
      rw [hstep, proceedsFor_of_no_run steps rfl]
      exact ⟨rfl, .inl rfl⟩
    · rw [hprogress] at hstep
      rw [hstep, proceedsFor_of_no_run steps rfl]
      exact ⟨rfl, .inr ⟨rfl, hboth⟩⟩

/-- What the states of a run have: nothing that was written and that nobody else has written
over is lost, and a rerun whose steps go through completes the migration, unless somebody else
has written something different. -/
structure Sound (s : ContextMigration) : Prop where
  held : ∀ bytes ∈ s.contents, s.files.Held bytes
  reruns : s.run = none → s.disturbed = false →
    ∀ steps ≥ 19, (proceedsFor steps (step .begins s)).Completed

/-- What the steps of a run have: the migration takes no content away, takes a target away only
while the staged file holds the same, and ends as migrated only with a target that holds what it
was to move. -/
structure SoundStep (before : ContextMigration) (event : MigrationEvent)
    (after : ContextMigration) :
    Prop where
  held : event.Own → ∀ bytes, before.files.Held bytes → after.files.Held bytes
  target : event.Own → ∀ target, before.files.target = some target →
    after.files.target = some target ∨ Holds before.files.staged target.bytes
  migrated : before.run.isSome = true → after.run = none →
    after.ending = some (.returned .migrated) →
      ∃ bytes, after.moving = some bytes ∧ Holds after.files.target bytes

theorem Inv.sound (h : s.Inv) (hreadable : Readable s.original) : s.Sound where
  held := h.held
  reruns := by
    intro hrun hdisturbed steps hsteps
    have hinv := h.step .begins trivial
    have hstep : ContextMigration.step .begins s =
      { s with run := some .starting, ending := none } := by
      unfold ContextMigration.step
      rw [hrun]
    rw [hstep] at hinv ⊢
    exact hinv.completes hreadable hdisturbed rfl trivial hsteps

theorem Inv.soundStep (h : s.Inv) (event : MigrationEvent) : SoundStep s event (s.step event) := by
  have hstays : ∀ after : ContextMigration, after.files = s.files →
      (s.run.isSome = true → after.run = none → after.ending ≠ some (.returned .migrated)) →
        SoundStep s event after := by
    intro after hfiles hending
    constructor
    · intro _ bytes hheld
      rw [hfiles]
      exact hheld
    · intro _ target htarget
      rw [hfiles]
      exact .inl htarget
    · exact fun hsome hnone hmigrated => absurd hmigrated (hending hsome hnone)
  have hgoes : ∀ (progress : MigrationProgress) (files : ContextFiles) (moving : Option ByteArray),
      FileMove s.files files → progress.Follows files moving →
        SoundStep s event (ContextMigration.goOn progress
          { s with files := files, moving := moving }) := by
    intro progress files moving hmove hfollows
    have hkeeps : (ContextMigration.goOn progress
        { s with files := files, moving := moving }).files = files := by
      cases progress <;> rfl
    constructor
    · intro _ bytes hheld
      rw [hkeeps]
      exact (hmove.held_iff bytes).mpr hheld
    · intro _ target htarget
      rw [hkeeps]
      exact hmove.target_stays htarget
    · intro _ hnone hmigrated
      cases progress with
      | goes phase => cases hnone
      | ended ending =>
        refine hfollows ?_
        exact some.inj hmigrated
  unfold ContextMigration.step
  cases hrun : s.run with
  | none =>
    have hnot : s.run.isSome ≠ true := by
      rw [hrun]
      exact Bool.false_ne_true
    cases event with
    | writesSource bytes =>
      exact ⟨fun hown => hown.elim, fun hown => hown.elim, fun hsome => absurd hsome hnot⟩
    | writesTarget bytes =>
      exact ⟨fun hown => hown.elim, fun hown => hown.elim, fun hsome => absurd hsome hnot⟩
    | _ => exact hstays _ rfl fun hsome => absurd hsome hnot
  | some phase =>
    have hplaced := h.placed phase hrun
    have hending := h.running (by rw [hrun]; rfl)
    have hsame : s.run ≠ none := by
      rw [hrun]
      exact some_ne_none _
    cases event with
    | proceeds =>
      obtain ⟨hmove, hfollows⟩ := MigrationPhase.proceeds_follows hplaced h.unmarked
      exact hgoes _ _ _ hmove hfollows
    | fails => exact hgoes _ _ _ (.stays _) (MigrationPhase.failed_follows hplaced)
    | dies =>
      refine hstays _ rfl fun _ _ heq => ?_
      rw [show s.ending = _ from heq] at hending
      cases hending
    | _ => exact hstays _ rfl fun _ hnone => absurd hnone hsame

theorem original_step (event : MigrationEvent) (s : ContextMigration) :
    (step event s).original = s.original := by
  unfold step
  split
  all_goals first
    | rfl
    | (unfold goOn; split <;> rfl)

/-- **The migration in every run.** -/
theorem migration_sound {original : ByteArray} (target : Option ByteArray)
    (hreadable : Readable original) (hmark : startsWithMark original = false)
    (events : List MigrationEvent)
    (h : RunMeets step MigrationEvent.Unmarked (initial original target) events) :
    (∀ s ∈ visited step (initial original target) events, s.Sound) ∧
      ∀ t ∈ transitions step (initial original target) events, SoundStep t.1 t.2.1 t.2.2 := by
  have hstep : ∀ event (s : ContextMigration), s.Inv ∧ s.original = original →
      event.Unmarked s → (step event s).Inv ∧ (step event s).original = original :=
    fun event s hinv hcalm => ⟨hinv.1.step event hcalm, (original_step event s).trans hinv.2⟩
  have hinit : (initial original target).Inv ∧ (initial original target).original = original :=
    ⟨inv_initial target hmark, rfl⟩
  refine ⟨fun s hs => ?_, ?_⟩
  · obtain ⟨hinv, horiginal⟩ := invariant_visited hstep hinit h s hs
    exact hinv.sound (by rw [horiginal]; exact hreadable)
  · exact invariant_transitions hstep (fun event s hinv _ => hinv.1.soundStep event) hinit h

/-- The first run is aborted once it has published, the second one is killed before it has
removed the staged file, and the third one goes through. -/
def abortedThenKilled : List MigrationEvent :=
  [.begins] ++ List.replicate 12 .proceeds ++ [.fails, .begins] ++ List.replicate 6 .proceeds ++
    [.dies, .begins] ++ List.replicate 12 .proceeds

theorem migration_sound_abortedThenKilled :
    (finalState step (initial "# Soul".toUTF8 none) abortedThenKilled).ending =
        some (.returned .migrated) ∧
      (finalState step (initial "# Soul".toUTF8 none) abortedThenKilled).Sound :=
  ⟨by decide +kernel, (migration_sound none (by decide +kernel) (by decide +kernel)
    abortedThenKilled (by decide +kernel)).1 _ (finalState_mem_visited _ _)⟩

/-- The run is killed after it has removed the staged file, and the next one goes through. -/
def killedAtTheEnd : List MigrationEvent :=
  [.begins] ++ List.replicate 18 .proceeds ++ [.dies, .begins] ++ List.replicate 19 .proceeds

/-- The rerun of a run that had finished its work finds nothing to migrate, and a source that
begins with a byte order mark ends as migrated with its bytes in no file. -/
theorem migration_not_expected :
    (finalState step (initial "# Soul".toUTF8 none) killedAtTheEnd).ending =
        some (.returned .targetPresent) ∧
      (proceedsFor 19 (step .begins (initial "\uFEFF# Soul".toUTF8 none))).ending =
        some (.returned .migrated) ∧
      ¬(proceedsFor 19 (step .begins (initial "\uFEFF# Soul".toUTF8 none))).files.Held
        "\uFEFF# Soul".toUTF8 := by
  decide +kernel

end ContextMigration

end Laborer.AcpRuntime
