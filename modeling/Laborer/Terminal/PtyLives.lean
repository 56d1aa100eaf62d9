import Laborer.Terminal.StreamRuns

/-!
# The lives of a terminal

A terminal id is given one process after the other, while replaced ones may still write and
exit. Handlers tell them apart by a generation number that starts again when the current
process has exited. While no living process has the number of the next one and none of the old
output waits when it starts, data and exits only reach their own life, every exit is reported
once unless the process was replaced, and a running terminal has a living process.
-/

namespace Laborer.Terminal

open Library AttachLane List Option Bool

/-- What a callback was given comes from the PTY it was registered for, while the terminal
was that PTY's. -/
def Delivery.IsOwn (delivery : Delivery) : Prop :=
  delivery.origin = delivery.life ∧ delivery.callback = delivery.life

instance (delivery : Delivery) : Decidable delivery.IsOwn :=
  inferInstanceAs (Decidable (_ ∧ _))

namespace Host

def exitsReported (pty : ℕ) (host : Host) : ℕ :=
  host.exitReports.countP fun report => report.origin = pty

def NothingBuffered (host : Host) : Prop :=
  ∀ coalescer ∈ host.client.coalescer, coalescer.chunks = []

instance (host : Host) : Decidable host.NothingBuffered :=
  inferInstanceAs (Decidable (∀ coalescer ∈ host.client.coalescer, _))

/-- No living PTY has the number that the next one is given. -/
def NumberFree (host : Host) : Prop :=
  ∀ process ∈ host.client.spawned, process.alive = true →
    process.generation ≠ host.client.ptyGeneration.getD 0 + 1

instance (host : Host) : Decidable host.NumberFree :=
  inferInstanceAs (Decidable (∀ process ∈ host.client.spawned, _))

/-- A spawn or a restart begins a life of its own: a process is started, under a number that
no living one has, and no output of an earlier life waits or is in the journal. -/
def LifeKept (input : TerminalInput) (host : Host) : Prop :=
  match input.event with
  | .spawn _ outcome =>
    outcome ≠ .threw ∧ host.NumberFree ∧ host.NothingBuffered ∧ host.journalOrigins = []
  | .restart _ outcome =>
    host.terminal = none ∨
      (outcome ≠ .threw ∧ host.NumberFree ∧
        (host.terminal.map ManagedTerminal.status = some .running ∨ host.NothingBuffered))
  | _ => True

instance (input : TerminalInput) (host : Host) : Decidable (host.LifeKept input) :=
  match input with
  | ⟨.spawn .., _⟩ => inferInstanceAs (Decidable (_ ∧ _ ∧ _ ∧ _))
  | ⟨.restart .., _⟩ => inferInstanceAs (Decidable (_ ∨ (_ ∧ _ ∧ (_ ∨ _))))
  | ⟨.attach .., _⟩ | ⟨.kill, _⟩ | ⟨.remove, _⟩ | ⟨.killAllForWorkspace, _⟩
  | ⟨.orphanTimeout, _⟩ | ⟨.data .., _⟩ | ⟨.windowCloses, _⟩ | ⟨.exits .., _⟩ | ⟨.parses .., _⟩
  | ⟨.unsubscribe .., _⟩ | ⟨.acknowledge .., _⟩ | ⟨.beginSample .., _⟩ | ⟨.completeSample .., _⟩
  | ⟨.setAgentStatusFromHook .., _⟩ | ⟨.setObservedWorkspaces .., _⟩ => isTrue trivial

/-! ## Output that is delivered -/

/-- The data callback and the buffered output are of the terminal's life. -/
structure Own (host : Host) : Prop where
  callback : ∀ callback ∈ host.client.dataCallback, callback = host.life
  buffered : ∀ coalescer ∈ host.client.coalescer, ∀ chunk ∈ coalescer.chunks, chunk.1 = host.life

/-- A step in which nothing happens but deliveries within the terminal's life. -/
structure Delivered (host host' : Host) : Prop where
  client : ∃ coalescer : Option Coalescer,
    host'.client = { host.client with coalescer := coalescer } ∧
      ∀ left ∈ coalescer, ∀ chunk ∈ left.chunks, chunk.1 = host.life
  terminal : host'.terminal = host.terminal
  life : host'.life = host.life
  exitReports : host'.exitReports = host.exitReports
  deliveries : ∀ delivery ∈ host'.deliveries, delivery ∈ host.deliveries ∨ delivery.IsOwn
  origins : ∀ origin ∈ host'.journalOrigins, origin ∈ host.journalOrigins ∨ origin = host.life

variable {config : TransportConfig} {accepts : Accepts} {host host' host'' : Host}
  {coalescer : Coalescer} {pty : ℕ} {process : Pty}

theorem Own.refl (h : host.Own) : Delivered host host :=
  ⟨⟨host.client.coalescer, rfl, h.buffered⟩, rfl, rfl, rfl, fun _ hmem => .inl hmem,
    fun _ hmem => .inl hmem⟩

theorem Own.delivered (h : host.Own) (hdelivered : Delivered host host') : host'.Own := by
  obtain ⟨coalescer, hclient, hchunks⟩ := hdelivered.client
  constructor
  · rw [hclient, hdelivered.life]
    exact h.callback
  · rw [hclient, hdelivered.life]
    exact hchunks

theorem Delivered.trans (h : Delivered host host') (h' : Delivered host' host'') :
    Delivered host host'' := by
  obtain ⟨coalescer, hclient, -⟩ := h.client
  obtain ⟨coalescer', hclient', hchunks'⟩ := h'.client
  refine ⟨⟨coalescer', ?_, ?_⟩, h'.terminal.trans h.terminal, h'.life.trans h.life,
    h'.exitReports.trans h.exitReports, ?_, ?_⟩
  · rw [hclient', hclient]
  · rw [← h.life]
    exact hchunks'
  · intro delivery hmem
    rcases h'.deliveries delivery hmem with hmem | hown
    · exact h.deliveries delivery hmem
    · exact .inr hown
  · intro origin hmem
    rcases h'.origins origin hmem with hmem | hown
    · exact h.origins origin hmem
    · exact .inr (hown.trans h.life)

theorem delivered_setCoalescer (hchunks : ∀ chunk ∈ coalescer.chunks, chunk.1 = host.life) :
    Delivered host (host.setCoalescer coalescer) := by
  refine ⟨⟨some coalescer, rfl, ?_⟩, rfl, rfl, rfl, fun _ hmem => .inl hmem,
    fun _ hmem => .inl hmem⟩
  intro left hleft
  cases some.inj hleft
  exact hchunks

theorem Own.openWindow (h : host.Own) : Delivered host host.openWindow := by
  unfold Host.openWindow
  split
  · exact h.refl
  · next coalescer hcoalescer =>
    exact delivered_setCoalescer (h.buffered coalescer hcoalescer)

theorem Own.forward (h : host.Own) (hchunks : ∀ chunk ∈ coalescer.chunks, chunk.1 = host.life)
    (hforward : host.forward config accepts coalescer = some host') : Delivered host host' := by
  unfold Host.forward at hforward
  split at hforward
  · cases some.inj hforward
    exact ⟨⟨host.client.coalescer, rfl, h.buffered⟩, rfl, rfl, rfl, fun _ hmem => .inl hmem,
      fun _ hmem => .inl hmem⟩
  · next callback hcallback =>
    obtain ⟨lane, -, rfl⟩ := map_eq_some_iff.mp hforward
    refine ⟨⟨host.client.coalescer, rfl, h.buffered⟩, rfl, rfl, rfl, ?_, ?_⟩
    · intro delivery hmem
      rcases mem_append.mp hmem with hmem | hmem
      · exact .inl hmem
      · obtain ⟨chunk, hchunk, rfl⟩ := mem_map.mp hmem
        exact .inr ⟨hchunks chunk hchunk, h.callback callback hcallback⟩
    · intro origin hmem
      rcases mem_append.mp hmem with hmem | hmem
      · exact .inl hmem
      · obtain ⟨chunk, hchunk, rfl⟩ := mem_map.mp hmem
        exact .inr (hchunks chunk hchunk)

theorem forward_coalescer (hforward : host.forward config accepts coalescer = some host') :
    host'.client = host.client := by
  unfold Host.forward at hforward
  split at hforward
  · cases some.inj hforward
    rfl
  · obtain ⟨lane, -, rfl⟩ := map_eq_some_iff.mp hforward
    rfl

theorem Own.emitBuffered (h : host.Own) (hemit : host.emitBuffered config accepts = some host') :
    Delivered host host' ∧ host'.NothingBuffered := by
  unfold Host.emitBuffered at hemit
  split at hemit
  · next hnone =>
    cases some.inj hemit
    refine ⟨h.refl, ?_⟩
    intro coalescer hcoalescer
    rw [hnone] at hcoalescer
    exact absurd hcoalescer (not_mem_none _)
  · next coalescer hcoalescer =>
    split at hemit
    · next hempty =>
      cases some.inj hemit
      refine ⟨h.refl, ?_⟩
      intro other hother
      rw [hcoalescer] at hother
      cases some.inj hother
      exact hempty
    · have hcleared : Delivered host (host.setCoalescer { coalescer with chunks := [] }) :=
        delivered_setCoalescer fun _ hmem => absurd hmem not_mem_nil
      have hsent : Delivered (host.setCoalescer { coalescer with chunks := [] }) host' :=
        (h.delivered hcleared).forward (h.buffered coalescer hcoalescer) hemit
      refine ⟨hcleared.trans hsent, ?_⟩
      intro other hother
      rw [forward_coalescer hemit] at hother
      cases some.inj hother
      rfl

theorem Own.flushCoalesceBuffer (h : host.Own)
    (hflush : host.flushCoalesceBuffer config accepts = some host') :
    Delivered host host' ∧ host'.NothingBuffered := by
  unfold Host.flushCoalesceBuffer at hflush
  split at hflush
  · next hnone =>
    cases some.inj hflush
    refine ⟨h.refl, ?_⟩
    intro coalescer hcoalescer
    rw [hnone] at hcoalescer
    exact absurd hcoalescer (not_mem_none _)
  · next coalescer hcoalescer =>
    have hclosed : Delivered host (host.setCoalescer { coalescer with windowOpen := false }) :=
      delivered_setCoalescer (h.buffered coalescer hcoalescer)
    obtain ⟨hemitted, hnothing⟩ := (h.delivered hclosed).emitBuffered hflush
    exact ⟨hclosed.trans hemitted, hnothing⟩

theorem Own.emit_openWindow (h : host.Own)
    (hemit : (host.emitBuffered config accepts).map Host.openWindow = some host') :
    Delivered host host' := by
  obtain ⟨emitted, hemitted, rfl⟩ := map_eq_some_iff.mp hemit
  have hdelivered := (h.emitBuffered hemitted).1
  exact hdelivered.trans (h.delivered hdelivered).openWindow

theorem Own.writeCoalescer (h : host.Own) (hpty : pty = host.life) {data : Output}
    (hwrite : host.writeCoalescer config accepts pty data = some host') : Delivered host host' := by
  unfold Host.writeCoalescer at hwrite
  split at hwrite
  · cases some.inj hwrite
    exact h.refl
  · have hpushed : Delivered host (host.setCoalescer { host.client.coalescer.getD .initial with
        chunks := (host.client.coalescer.getD .initial).chunks ++ [(pty, data)] }) := by
      apply delivered_setCoalescer
      intro chunk hchunk
      rcases mem_append.mp hchunk with hchunk | hchunk
      · cases hcoalescer : host.client.coalescer with
        | none =>
          rw [hcoalescer] at hchunk
          exact absurd hchunk not_mem_nil
        | some coalescer =>
          rw [hcoalescer] at hchunk
          exact h.buffered coalescer hcoalescer chunk hchunk
      · rw [mem_singleton.mp hchunk]
        exact hpty
    have hown := h.delivered hpushed
    simp only [] at hwrite
    split at hwrite
    · exact hpushed.trans (hown.flushCoalesceBuffer hwrite).1
    · split at hwrite
      · cases some.inj hwrite
        exact hpushed
      · exact hpushed.trans (hown.emit_openWindow hwrite)

theorem Own.windowCloses (h : host.Own)
    (hcloses : host.windowCloses config accepts = some host') : Delivered host host' := by
  unfold Host.windowCloses at hcloses
  split at hcloses
  · cases some.inj hcloses
    exact h.refl
  · next coalescer hcoalescer =>
    split at hcloses
    · have hclosed : Delivered host (host.setCoalescer { coalescer with windowOpen := false }) :=
        delivered_setCoalescer (h.buffered coalescer hcoalescer)
      simp only [] at hcloses
      split at hcloses
      · cases some.inj hcloses
        exact hclosed
      · exact hclosed.trans ((h.delivered hclosed).emit_openWindow hcloses)
    · cases some.inj hcloses
      exact h.refl

theorem Own.killPty (h : host.Own) : Delivered host (host.killPty config accepts) ∧
    (host.present = true → (host.killPty config accepts).NothingBuffered) := by
  unfold Host.killPty
  split
  · next hnone =>
    refine ⟨h.refl, fun hpresent => ?_⟩
    unfold Host.present at hpresent
    rw [hnone] at hpresent
    exact absurd hpresent false_ne_true
  · unfold flushOrDrop
    cases hflush : host.flushCoalesceBuffer config accepts with
    | none =>
      rw [getD_none]
      unfold dropBuffer
      split
      · next hnone =>
        refine ⟨h.refl, fun _ coalescer hcoalescer => ?_⟩
        rw [hnone] at hcoalescer
        exact absurd hcoalescer (not_mem_none _)
      · refine ⟨delivered_setCoalescer fun _ hmem => absurd hmem not_mem_nil,
          fun _ coalescer hcoalescer => ?_⟩
        cases some.inj hcoalescer
        rfl
    | some flushed =>
      obtain ⟨hdelivered, hnothing⟩ := h.flushCoalesceBuffer hflush
      exact ⟨hdelivered, fun _ => hnothing⟩

theorem NothingBuffered.killPty (h : host.NothingBuffered) :
    ∃ coalescer : Option Coalescer, (∀ left ∈ coalescer, left.chunks = []) ∧
      host.killPty config accepts =
        { host with client := { host.client with coalescer := coalescer } } := by
  unfold Host.killPty
  split
  · exact ⟨host.client.coalescer, h, rfl⟩
  · cases hcoalescer : host.client.coalescer with
    | none =>
      have hflush : host.flushCoalesceBuffer config accepts = some host := by
        unfold flushCoalesceBuffer
        rw [hcoalescer]
      refine ⟨host.client.coalescer, h, ?_⟩
      unfold flushOrDrop
      rw [hflush]
      rfl
    | some coalescer =>
      have hempty := h coalescer hcoalescer
      have hflush : host.flushCoalesceBuffer config accepts =
          some (host.setCoalescer { coalescer with windowOpen := false }) := by
        unfold flushCoalesceBuffer
        rw [hcoalescer]
        exact if_pos hempty
      refine ⟨some { coalescer with windowOpen := false }, ?_, ?_⟩
      · intro left hleft
        cases some.inj hleft
        exact hempty
      · unfold flushOrDrop
        rw [hflush]
        rfl

/-! ## The invariant -/

/-- The PTY the terminal runs: the last one spawned, which none has replaced. -/
structure Runs (pty : ℕ) (host : Host) : Prop where
  life : pty = host.life
  exitCallback : host.client.exitCallback = some pty
  alive : ∃ process, host.client.spawned[pty]? = some process ∧ process.alive = true ∧
    process.replaced = false ∧ host.client.ptyGeneration = some process.generation

structure Lives (host : Host) : Prop where
  own : host.Own
  current : ∀ pty, host.client.pty = some pty → host.Runs pty
  idle : host.client.pty = none → host.client.ptyGeneration = none
  others : ∀ pty process, host.client.spawned[pty]? = some process → process.alive = true →
    host.client.pty ≠ some pty →
      process.replaced = true ∧ host.client.ptyGeneration ≠ some process.generation
  deliveries : ∀ delivery ∈ host.deliveries, delivery.IsOwn
  exitReports : ∀ report ∈ host.exitReports, report.IsOwn
  journal : ∀ origin ∈ host.journalOrigins, origin = host.life
  reported : ∀ pty process, host.client.spawned[pty]? = some process →
    host.exitsReported pty = if process.alive = true ∨ process.replaced = true then 0 else 1
  bounded : ∀ report ∈ host.exitReports, report.origin < host.client.spawned.length
  running : ∀ terminal ∈ host.terminal, terminal.status = .running → host.client.pty.isSome

theorem lives_initial : Host.initial.Lives where
  own := ⟨fun _ hmem => absurd hmem (Option.not_mem_none _),
    fun _ hmem => absurd hmem (Option.not_mem_none _)⟩
  current := fun _ hpty => absurd hpty.symm (Option.some_ne_none _)
  idle := fun _ => rfl
  others := fun _ _ hprocess => absurd hprocess.symm (Option.some_ne_none _)
  deliveries := fun _ hmem => absurd hmem List.not_mem_nil
  exitReports := fun _ hmem => absurd hmem List.not_mem_nil
  journal := fun _ hmem => absurd hmem List.not_mem_nil
  reported := fun _ _ hprocess => absurd hprocess.symm (Option.some_ne_none _)
  bounded := fun _ hmem => absurd hmem List.not_mem_nil
  running := fun _ hmem => absurd hmem (Option.not_mem_none _)

theorem Lives.delivered (h : host.Lives) (hdelivered : Delivered host host') : host'.Lives := by
  have hown := h.own.delivered hdelivered
  obtain ⟨coalescer, hclient, -⟩ := hdelivered.client
  constructor
  · exact hown
  · intro pty hpty
    rw [hclient] at hpty
    obtain ⟨hlife, hexit, halive⟩ := h.current pty hpty
    refine ⟨hlife.trans hdelivered.life.symm, ?_, ?_⟩
    · rw [hclient]
      exact hexit
    · rw [hclient]
      exact halive
  · rw [hclient]
    exact h.idle
  · rw [hclient]
    exact h.others
  · intro delivery hmem
    rcases hdelivered.deliveries delivery hmem with hmem | hisOwn
    · exact h.deliveries delivery hmem
    · exact hisOwn
  · rw [hdelivered.exitReports]
    exact h.exitReports
  · intro origin hmem
    rw [hdelivered.life]
    rcases hdelivered.origins origin hmem with hmem | heq
    · exact h.journal origin hmem
    · exact heq
  · unfold exitsReported
    rw [hclient, hdelivered.exitReports]
    exact h.reported
  · rw [hclient, hdelivered.exitReports]
    exact h.bounded
  · rw [hclient, hdelivered.terminal]
    exact h.running

theorem Lives.untouched (h : host.Lives) (hclient : host'.client = host.client)
    (hterminal : host'.terminal = host.terminal) (hlife : host'.life = host.life)
    (hdeliveries : host'.deliveries = host.deliveries)
    (hexits : host'.exitReports = host.exitReports)
    (horigins : host'.journalOrigins = host.journalOrigins) : host'.Lives := by
  apply h.delivered
  refine ⟨⟨host.client.coalescer, hclient, h.own.buffered⟩, hterminal, hlife, hexits, ?_, ?_⟩
  · intro delivery hmem
    rw [hdeliveries] at hmem
    exact .inl hmem
  · intro origin hmem
    rw [horigins] at hmem
    exact .inl hmem

theorem Lives.setTerminal (h : host.Lives) {terminal : Option ManagedTerminal}
    (hstopped : ∀ managed ∈ terminal, managed.status ≠ .running) :
    { host with terminal := terminal }.Lives :=
  { h with
    own := ⟨h.own.callback, h.own.buffered⟩
    current := fun pty hpty => ⟨(h.current pty hpty).life, (h.current pty hpty).exitCallback,
      (h.current pty hpty).alive⟩
    running := fun managed hmem hrunning => absurd hrunning (hstopped managed hmem) }

theorem Lives.markStopped (h : host.Lives) : host.markStopped.Lives := by
  apply h.setTerminal
  intro managed hmem
  obtain ⟨terminal, -, rfl⟩ := map_eq_some_iff.mp hmem
  intro hrunning
  cases hrunning

/-! ## Steps of the PTYs -/

theorem Lives.current_of_generation (h : host.Lives)
    (hprocess : host.client.spawned[pty]? = some process) (halive : process.alive = true)
    (hgeneration : host.client.ptyGeneration = some process.generation) :
    host.client.pty = some pty := by
  by_contra hne
  exact (h.others pty process hprocess halive hne).2 hgeneration

theorem Lives.setPty (h : host.Lives) (process' : Pty)
    (hprocess : host.client.spawned[pty]? = some process)
    (hgeneration : process'.generation = process.generation)
    (hreplaced : process'.replaced = process.replaced)
    (halive : process'.alive = true → process.alive = true)
    (hcurrent : host.client.pty = some pty → process'.alive = process.alive) :
    { host with client := { host.client with
      spawned := host.client.spawned.set pty process' } }.Lives := by
  have hlt : pty < host.client.spawned.length := (List.getElem?_eq_some_iff.mp hprocess).1
  constructor
  · exact ⟨h.own.callback, h.own.buffered⟩
  · intro current hpty
    obtain ⟨hlife, hexit, found, hfound, hrest⟩ := h.current current hpty
    refine ⟨hlife, hexit, ?_⟩
    by_cases hsame : pty = current
    · subst hsame
      cases some.inj (hprocess.symm.trans hfound)
      refine ⟨process', getElem?_set_self hlt, ?_⟩
      rw [hcurrent hpty, hgeneration, hreplaced]
      exact hrest
    · refine ⟨found, ?_, hrest⟩
      show (host.client.spawned.set pty process')[current]? = some found
      rw [getElem?_set_ne hsame]
      exact hfound
  · exact h.idle
  · intro other found hfound hfoundAlive hne
    have hfound : (host.client.spawned.set pty process')[other]? = some found := hfound
    by_cases hsame : pty = other
    · subst hsame
      rw [getElem?_set_self hlt] at hfound
      cases some.inj hfound
      rw [hgeneration, hreplaced]
      exact h.others pty process hprocess (halive hfoundAlive) hne
    · rw [getElem?_set_ne hsame] at hfound
      exact h.others other found hfound hfoundAlive hne
  · exact h.deliveries
  · exact h.exitReports
  · exact h.journal
  · intro other found hfound
    have hfound : (host.client.spawned.set pty process')[other]? = some found := hfound
    by_cases hsame : pty = other
    · subst hsame
      rw [getElem?_set_self hlt] at hfound
      cases some.inj hfound
      rw [hreplaced]
      apply (h.reported pty process hprocess).trans
      by_cases hpty : host.client.pty = some pty
      · rw [hcurrent hpty]
      · -- One that the terminal does not run is dead already or was replaced.
        by_cases hwas : process.alive = true
        · have hgone := (h.others pty process hprocess hwas hpty).1
          rw [if_pos (.inr hgone), if_pos (.inr hgone)]
        · have hnow : process'.alive ≠ true := fun hnow => hwas (halive hnow)
          simp only [hwas, hnow]
    · rw [getElem?_set_ne hsame] at hfound
      exact h.reported other found hfound
  · intro report hmem
    show report.origin < (host.client.spawned.set pty process').length
    rw [length_set]
    exact h.bounded report hmem
  · exact h.running

theorem Lives.onData (h : host.Lives) {data : Output}
    (hdata : host.onData config accepts pty data = some host') : host'.Lives := by
  unfold Host.onData at hdata
  split at hdata
  · cases some.inj hdata
    exact h
  · next process hprocess =>
    split at hdata
    · next halive =>
      have hwrote := h.setPty { process with emitted := process.emitted ++ data } hprocess rfl rfl
        (fun halive => halive) (fun _ => rfl)
      simp only [] at hdata
      split at hdata
      · next hgeneration =>
        have hcurrent := h.current_of_generation hprocess halive hgeneration
        exact hwrote.delivered (hwrote.own.writeCoalescer (h.current pty hcurrent).life hdata)
      · cases some.inj hdata
        exact hwrote
    · cases some.inj hdata
      exact h

theorem exitsReported_append {report : Delivery} {reports : List Delivery} :
    (reports ++ [report]).countP (fun report => report.origin = pty) =
      reports.countP (fun report => report.origin = pty) +
        if report.origin = pty then 1 else 0 := by
  rw [countP_append, countP_singleton]
  simp only [decide_eq_true_eq]

theorem Lives.finished (h : host.Lives) {exited finished : Host}
    {exitCode signal : ℤ} {now : ℕ} (hprocess : host.client.spawned[pty]? = some process)
    (hpty : host.client.pty = some pty) (hexited : exited = { host with client := { host.client with
      spawned := host.client.spawned.set pty { process with alive := false } } })
    (hflushed : Delivered exited finished) :
    ((finished.forget.callExit config accepts pty exitCode signal now).deleteCallbacks).Lives := by
  obtain ⟨hlife, hexit, found, hfound, hfoundAlive, hfoundKept, -⟩ := h.current pty hpty
  cases some.inj (hprocess.symm.trans hfound)
  have hlt : pty < host.client.spawned.length := (List.getElem?_eq_some_iff.mp hprocess).1
  obtain ⟨coalescer, hclient, -⟩ := hflushed.client
  have hsameLife : finished.life = host.life := by
    rw [hflushed.life, hexited]
  have hsameReports : finished.exitReports = host.exitReports := by
    rw [hflushed.exitReports, hexited]
  have hspawned : finished.client.spawned =
      host.client.spawned.set pty { process with alive := false } := by
    rw [hclient, hexited]
  have hcallback : finished.forget.client.exitCallback = some pty := by
    show finished.client.exitCallback = some pty
    rw [hclient, hexited]
    exact hexit
  unfold callExit
  rw [hcallback]
  constructor
  · constructor
    · exact fun _ hmem => absurd hmem (not_mem_none _)
    · exact fun _ hmem => absurd hmem (not_mem_none _)
  · exact fun _ hnone => absurd hnone.symm (some_ne_none _)
  · exact fun _ => rfl
  · intro other living hliving halive _
    have hliving : finished.client.spawned[other]? = some living := hliving
    rw [hspawned] at hliving
    refine ⟨?_, fun heq => absurd heq.symm (some_ne_none _)⟩
    by_cases hsame : pty = other
    · subst hsame
      rw [getElem?_set_self hlt] at hliving
      cases some.inj hliving
      exact absurd halive false_ne_true
    · rw [getElem?_set_ne hsame] at hliving
      apply (h.others other living hliving halive ?_).1
      intro heq
      exact hsame (some.inj (hpty.symm.trans heq))
  · intro delivery hmem
    rcases hflushed.deliveries delivery hmem with hmem | hisOwn
    · rw [hexited] at hmem
      exact h.deliveries delivery hmem
    · exact hisOwn
  · intro report hmem
    have hmem : report ∈ finished.exitReports ++
        [{ origin := pty, callback := pty, life := finished.life }] := hmem
    rcases mem_append.mp hmem with hmem | hmem
    · rw [hsameReports] at hmem
      exact h.exitReports report hmem
    · rw [mem_singleton.mp hmem, hsameLife]
      exact ⟨hlife, hlife⟩
  · intro origin hmem
    show origin = finished.life
    rw [hsameLife]
    rcases hflushed.origins origin hmem with hmem | heq
    · rw [hexited] at hmem
      exact h.journal origin hmem
    · rw [heq, hexited]
  · intro other ended hended
    have hended : finished.client.spawned[other]? = some ended := hended
    show (finished.exitReports ++ [({ origin := pty, callback := pty, life := finished.life } :
      Delivery)]).countP (fun report => report.origin = other) = _
    rw [exitsReported_append, hsameReports]
    rw [hspawned] at hended
    by_cases hsame : pty = other
    · subst hsame
      rw [getElem?_set_self hlt] at hended
      cases some.inj hended
      have hbefore := h.reported pty process hprocess
      rw [if_pos (.inl hfoundAlive)] at hbefore
      unfold exitsReported at hbefore
      rw [hbefore, if_pos rfl, if_neg]
      simp [hfoundKept]
    · rw [getElem?_set_ne hsame] at hended
      rw [if_neg hsame]
      exact h.reported other ended hended
  · intro report hmem
    have hmem : report ∈ finished.exitReports ++
        [{ origin := pty, callback := pty, life := finished.life }] := hmem
    show report.origin < finished.client.spawned.length
    rw [hspawned, length_set]
    rcases mem_append.mp hmem with hmem | hmem
    · rw [hsameReports] at hmem
      exact h.bounded report hmem
    · rw [mem_singleton.mp hmem]
      exact hlt
  · intro managed hmem hrunning
    have hmem : managed ∈ finished.terminal.map fun terminal =>
      { terminal with status := .stopped } := hmem
    obtain ⟨terminal, -, rfl⟩ := map_eq_some_iff.mp hmem
    cases hrunning

theorem Lives.onExit (h : host.Lives) {exitCode signal : ℤ} {now : ℕ}
    (hexits : host.onExit config accepts pty exitCode signal now = some host') : host'.Lives := by
  unfold Host.onExit at hexits
  split at hexits
  · cases some.inj hexits
    exact h
  · next process hprocess =>
    split at hexits
    · next halive =>
      split at hexits
      · next hgeneration =>
        have hcurrent := h.current_of_generation hprocess halive hgeneration
        obtain ⟨flushed, hflushed, rfl⟩ := map_eq_some_iff.mp hexits
        have hown : Own { host with client := { host.client with
            spawned := host.client.spawned.set pty { process with alive := false } } } :=
          ⟨h.own.callback, h.own.buffered⟩
        exact h.finished hprocess hcurrent rfl (hown.flushCoalesceBuffer hflushed).1
      · next hgeneration =>
        cases some.inj hexits
        apply h.setPty { process with alive := false } hprocess rfl rfl
        · exact fun hnever => absurd hnever false_ne_true
        · -- The terminal's own PTY has its number.
          intro hcurrent
          obtain ⟨found, hfound, -, -, heq⟩ := (h.current pty hcurrent).alive
          cases some.inj (hprocess.symm.trans hfound)
          exact absurd heq hgeneration
    · cases some.inj hexits
      exact h

/-! ## Spawning -/

/-- A process that is started in a new life, under a number of its own and with nothing
buffered, keeps the lives apart. -/
theorem Lives.spawnPty (h : host.Lives) {begun : Host} (hclient : begun.client = host.client)
    (hdeliveries : begun.deliveries = host.deliveries)
    (hexits : begun.exitReports = host.exitReports)
    (hlife : begun.life = host.client.spawned.length) (horigins : begun.journalOrigins = [])
    (hnothing : host.NothingBuffered) (hfree : host.NumberFree) (pid : ℕ) :
    (begun.spawnPty config accepts (.started pid)).Lives := by
  have hbegun : begun.NothingBuffered := by
    unfold NothingBuffered
    rw [hclient]
    exact hnothing
  obtain ⟨coalescer, hempty, hkill⟩ : ∃ coalescer : Option Coalescer,
      (∀ left ∈ coalescer, left.chunks = []) ∧ begun.killPty config accepts =
        { begun with client := { begun.client with coalescer := coalescer } } := hbegun.killPty
  unfold Host.spawnPty
  rw [hkill]
  -- The PTY that is started, and those before it.
  have hstarted : ∀ pty process, (begun.client.replaceCurrent ++
      [Pty.start (begun.client.ptyGeneration.getD 0 + 1)])[pty]? = some process →
        (pty = host.client.spawned.length ∧
          process = .start (host.client.ptyGeneration.getD 0 + 1)) ∨
        ∃ earlier, host.client.spawned[pty]? = some earlier ∧ process =
          { earlier with replaced := earlier.replaced || decide (host.client.pty = some pty) } := by
    intro pty process hprocess
    rw [hclient] at hprocess
    by_cases hlt : pty < host.client.replaceCurrent.length
    · rw [getElem?_append_left hlt] at hprocess
      exact .inr (PtyDirect.getElem?_replaceCurrent hprocess)
    · rw [getElem?_append_right (Nat.le_of_not_lt hlt)] at hprocess
      obtain ⟨hzero, heq⟩ := List.getElem?_eq_some_iff.mp hprocess
      simp only [length_singleton, PtyDirect.replaceCurrent_length] at hzero hlt
      refine .inl ⟨by omega, ?_⟩
      rw [← heq]
      exact getElem_singleton _
  have hlength : begun.client.spawned.length = host.client.spawned.length := by
    rw [hclient]
  constructor
  · constructor
    · intro callback hmem
      exact (some.inj hmem).symm
    · intro left hmem chunk hchunk
      rw [hempty left hmem] at hchunk
      exact absurd hchunk not_mem_nil
  · intro pty hpty
    cases some.inj hpty
    have hsame : begun.client.spawned.length = begun.life := hlength.trans hlife.symm
    refine ⟨hsame, congrArg some hsame.symm, .start (begun.client.ptyGeneration.getD 0 + 1), ?_,
      rfl, rfl, rfl⟩
    show (begun.client.replaceCurrent ++ [_])[begun.client.spawned.length]? = _
    rw [← PtyDirect.replaceCurrent_length, getElem?_concat_length]
    rfl
  · exact fun hnone => absurd hnone (some_ne_none _)
  · intro pty process hprocess halive hne
    rcases hstarted pty process hprocess with ⟨heq, -⟩ | ⟨earlier, hearlier, rfl⟩
    · exact absurd (congrArg some (hlength.trans heq.symm)) hne
    · have hnumber : host.client.ptyGeneration.getD 0 + 1 ≠ earlier.generation :=
        (hfree earlier (mem_of_getElem? hearlier) halive).symm
      constructor
      · by_cases hpty : host.client.pty = some pty
        · simp [hpty]
        · simp [(h.others pty earlier hearlier halive hpty).1]
      · intro heq
        have heq : some (begun.client.ptyGeneration.getD 0 + 1) = some earlier.generation := heq
        rw [hclient] at heq
        exact hnumber (some.inj heq)
  · intro delivery hmem
    have hmem : delivery ∈ begun.deliveries := hmem
    rw [hdeliveries] at hmem
    exact h.deliveries delivery hmem
  · intro report hmem
    have hmem : report ∈ begun.exitReports := hmem
    rw [hexits] at hmem
    exact h.exitReports report hmem
  · intro origin hmem
    have hmem : origin ∈ begun.journalOrigins := hmem
    rw [horigins] at hmem
    exact absurd hmem not_mem_nil
  · intro pty process hprocess
    show begun.exitReports.countP (fun report => report.origin = pty) = _
    rw [hexits]
    rcases hstarted pty process hprocess with ⟨rfl, rfl⟩ | ⟨earlier, hearlier, rfl⟩
    · rw [if_pos (.inl rfl), countP_eq_zero]
      intro report hmem
      have hlt := h.bounded report hmem
      simp only [decide_eq_true_eq]
      omega
    · apply (h.reported pty earlier hearlier).trans
      by_cases hpty : host.client.pty = some pty
      · -- The PTY that is replaced is alive.
        obtain ⟨found, hfound, halive, -⟩ := (h.current pty hpty).alive
        cases some.inj (hearlier.symm.trans hfound)
        rw [if_pos (.inl halive), if_pos (.inl halive)]
      · simp [hpty]
  · intro report hmem
    have hmem : report ∈ begun.exitReports := hmem
    rw [hexits] at hmem
    show report.origin < (begun.client.replaceCurrent ++ [_]).length
    rw [length_append, PtyDirect.replaceCurrent_length, hlength]
    exact Nat.lt_succ_of_lt (h.bounded report hmem)
  · exact fun _ _ _ => rfl

theorem Lives.spawn (h : host.Lives) {restored : Bool} {outcome : SpawnOutcome}
    (hstarted : outcome ≠ .threw) (hfree : host.NumberFree) (hnothing : host.NothingBuffered)
    (horigins : host.journalOrigins = []) : (host.spawn config accepts restored outcome).Lives := by
  cases outcome with
  | threw => exact absurd rfl hstarted
  | started pid =>
    have hspawned : (Host.spawnPty config accepts (.started pid)
        { host.beginLife with lane := host.lane.createHeadless }).Lives :=
      h.spawnPty (by rfl) (by rfl) (by rfl) (by rfl) (by exact horigins) hnothing hfree pid
    unfold Host.spawn
    split
    · exact hspawned
    · exact hspawned.untouched rfl rfl rfl rfl rfl rfl

/-! ## Ending a process on purpose -/

theorem Lives.deleteEngine (h : host.Lives) : host.deleteEngine.Lives :=
  h.untouched rfl rfl rfl rfl rfl rfl

theorem Lives.terminate (h : host.Lives) : (host.terminate config accepts).Lives :=
  h.deleteEngine.delivered h.deleteEngine.own.killPty.1

theorem NumberFree.delivered (h : host.NumberFree) (hdelivered : Delivered host host') :
    host'.NumberFree := by
  obtain ⟨coalescer, hclient, -⟩ := hdelivered.client
  unfold NumberFree
  rw [hclient]
  exact h

section

variable (h : host.Lives)
include h

theorem Lives.killed {terminal : ManagedTerminal} :
    Lives (if terminal.status = .running then host.terminate config accepts else host) := by
  split
  · exact h.terminate
  · exact h

theorem Lives.restart {uuid : String} {outcome : SpawnOutcome}
    (hkept : host.terminal = none ∨ (outcome ≠ .threw ∧ host.NumberFree ∧
      (host.terminal.map ManagedTerminal.status = some .running ∨ host.NothingBuffered))) :
    (host.restart config accepts uuid outcome).Lives := by
  unfold Host.restart
  split
  · exact h
  · next terminal hterminal =>
    rcases hkept with hnone | ⟨hstarted, hfree, hready⟩
    · exact absurd (hterminal.symm.trans hnone) (some_ne_none _)
    · cases outcome with
      | threw => exact absurd rfl hstarted
      | started pid =>
        apply Lives.deleteEngine
        by_cases hrunning : terminal.status = .running
        · rw [if_pos hrunning]
          have hpresent : host.deleteEngine.present = true := h.running terminal hterminal hrunning
          obtain ⟨hdelivered, hnothing⟩ : Delivered host.deleteEngine
              (host.terminate config accepts) ∧ (host.deleteEngine.present = true →
                (host.terminate config accepts).NothingBuffered) :=
            h.deleteEngine.own.killPty
          have hfreed : (host.terminate config accepts).NumberFree :=
            NumberFree.delivered (by exact hfree) hdelivered
          apply h.terminate.spawnPty (by rfl) (by rfl) (by rfl) (by rfl) (by rfl)
            (hnothing hpresent) hfreed pid
        · rw [if_neg hrunning]
          have hnothing : host.NothingBuffered := by
            rcases hready with heq | hnothing
            · rw [hterminal] at heq
              exact absurd (some.inj heq) hrunning
            · exact hnothing
          apply h.spawnPty (by rfl) (by rfl) (by rfl) (by rfl) (by rfl) hnothing hfree pid

theorem Lives.kill : (host.kill config accepts).Lives := by
  unfold Host.kill
  split
  · exact h
  · split
    · exact h.terminate.markStopped.untouched rfl rfl rfl rfl rfl rfl
    · exact h

theorem Lives.remove : (host.remove config accepts).Lives := by
  unfold Host.remove
  split
  · exact h
  · next terminal _ =>
    have hkilled : Lives (if terminal.status = .running then host.terminate config accepts
        else host) := h.killed
    generalize (if terminal.status = .running then host.terminate config accepts else host) =
      killed at hkilled ⊢
    have hremoved : { killed with terminal := none }.Lives :=
      hkilled.setTerminal fun _ hmem => absurd hmem (not_mem_none _)
    constructor
    · exact ⟨hremoved.own.callback, hremoved.own.buffered⟩
    · intro pty hpty
      obtain ⟨hlife, hexit, halive⟩ := hremoved.current pty hpty
      exact ⟨hlife, hexit, halive⟩
    · exact hremoved.idle
    · exact hremoved.others
    · exact hremoved.deliveries
    · exact hremoved.exitReports
    · exact fun _ hmem => absurd hmem not_mem_nil
    · exact hremoved.reported
    · exact hremoved.bounded
    · exact hremoved.running

theorem Lives.killAllForWorkspace : (host.killAllForWorkspace config accepts).Lives := by
  unfold Host.killAllForWorkspace
  split
  · exact h
  · split
    · exact (h.delivered h.own.killPty.1).markStopped.untouched rfl rfl rfl rfl rfl rfl
    · exact h

theorem Lives.orphanTimeout : (host.orphanTimeout config accepts).Lives := by
  have hfired : { host with graceArmed := false }.Lives := h.untouched rfl rfl rfl rfl rfl rfl
  unfold Host.orphanTimeout
  split
  · split
    · exact hfired
    · split
      · split
        · exact hfired
        · exact hfired.terminate.markStopped
      · exact hfired
  · exact h

theorem Lives.attach {screen : Screen} {uuid : String} {options : AttachOptions}
    {leaseId : String} : (host.attach config screen accepts uuid options leaseId).Lives := by
  unfold Host.attach
  split
  · exact h
  · simp only []
    split
    · exact h.untouched rfl rfl rfl rfl rfl rfl
    · exact h.untouched rfl rfl rfl rfl rfl rfl

/-! ## Runs -/

theorem Lives.handle (screen : Screen) {input : TerminalInput}
    (hkept : host.LifeKept input) (hhandle : host.handle config screen input = some host') :
    host'.Lives := by
  unfold LifeKept at hkept
  unfold Host.handle at hhandle
  cases hevent : input.event with
  | spawn restored outcome =>
    rw [hevent] at hkept hhandle
    cases some.inj hhandle
    obtain ⟨hstarted, hfree, hnothing, horigins⟩ := hkept
    exact h.spawn hstarted hfree hnothing horigins
  | restart uuid outcome =>
    rw [hevent] at hkept hhandle
    cases some.inj hhandle
    exact h.restart hkept
  | kill =>
    rw [hevent] at hhandle
    cases some.inj hhandle
    exact h.kill
  | remove =>
    rw [hevent] at hhandle
    cases some.inj hhandle
    exact h.remove
  | killAllForWorkspace =>
    rw [hevent] at hhandle
    cases some.inj hhandle
    exact h.killAllForWorkspace
  | orphanTimeout =>
    rw [hevent] at hhandle
    cases some.inj hhandle
    exact h.orphanTimeout
  | data pty data =>
    rw [hevent] at hhandle
    exact h.onData hhandle
  | windowCloses =>
    rw [hevent] at hhandle
    exact h.delivered (h.own.windowCloses hhandle)
  | exits pty exitCode signal now =>
    rw [hevent] at hhandle
    exact h.onExit hhandle
  | attach uuid options leaseId =>
    rw [hevent] at hhandle
    cases some.inj hhandle
    exact h.attach
  | _ =>
    -- Neither the client nor the terminal is touched.
    rw [hevent] at hhandle
    cases some.inj hhandle
    exact h.untouched rfl rfl rfl rfl rfl rfl

end

/-- What holds of the lives of a terminal: what the callbacks were given and what is in the
journal belongs to the life it was given in, an exit is reported once where the process was not
replaced, and a terminal that is listed as running has the living process of its life. -/
structure LivesApart (host : Host) : Prop where
  deliveries : ∀ delivery ∈ host.deliveries, delivery.IsOwn
  exitReports : ∀ report ∈ host.exitReports, report.IsOwn
  journal : ∀ origin ∈ host.journalOrigins, origin = host.life
  once : ∀ pty, host.exitsReported pty ≤ 1
  reported : ∀ pty process, host.client.spawned[pty]? = some process →
    process.alive = false → process.replaced = false → host.exitsReported pty = 1
  running : ∀ terminal ∈ host.terminal, terminal.status = .running →
    host.client.pty = some host.life ∧
      ∃ process, host.client.spawned[host.life]? = some process ∧ process.alive = true

theorem Lives.exitsReported_le (h : host.Lives) (pty : ℕ) : host.exitsReported pty ≤ 1 := by
  cases hprocess : host.client.spawned[pty]? with
  | some process =>
    rw [h.reported pty process hprocess]
    split
    · exact Nat.zero_le 1
    · exact Nat.le_refl 1
  | none =>
    have hle := List.getElem?_eq_none_iff.mp hprocess
    have hzero : host.exitsReported pty = 0 := by
      unfold exitsReported
      rw [countP_eq_zero]
      intro report hmem
      have hlt := h.bounded report hmem
      simp only [decide_eq_true_eq]
      omega
    rw [hzero]
    exact Nat.zero_le 1

theorem Lives.livesApart (h : host.Lives) : host.LivesApart where
  deliveries := h.deliveries
  exitReports := h.exitReports
  journal := h.journal
  once := h.exitsReported_le
  reported := by
    intro pty process hprocess hdead hkept
    rw [h.reported pty process hprocess, hdead, hkept]
    rfl
  running := by
    intro terminal hterminal hrunning
    obtain ⟨pty, hpty⟩ := isSome_iff_exists.mp (h.running terminal hterminal hrunning)
    obtain ⟨hlife, -, process, hprocess, halive, -⟩ := h.current pty hpty
    rw [hlife] at hpty hprocess
    exact ⟨hpty, process, hprocess, halive⟩

/-- A step of a run: what is spawned or restarted begins a life of its own. -/
def LifeStep (input : TerminalInput) (host : Option Host) : Prop :=
  ∀ alive ∈ host, alive.LifeKept input

instance (input : TerminalInput) (host : Option Host) : Decidable (LifeStep input host) :=
  inferInstanceAs (Decidable (∀ alive ∈ host, alive.LifeKept input))

/-- **The lives of a terminal stay apart.** In every run in which each spawn and each restart
begins a life of its own, they do in every state. -/
theorem lives_apart (config : TransportConfig) (screen : Screen) (inputs : List TerminalInput)
    (hrun : RunMeets (hostStep config screen) LifeStep (some Host.initial) inputs) :
    ∀ host, some host ∈ visited (hostStep config screen) (some Host.initial) inputs →
      host.LivesApart := by
  have hinit : ∀ host ∈ some Host.initial, host.Lives := by
    intro host hhost
    cases some.inj hhost
    exact lives_initial
  have hstep : ∀ input alive, (∀ host ∈ alive, host.Lives) → LifeStep input alive →
      ∀ host ∈ hostStep config screen input alive, host.Lives := by
    intro input alive h hok host' hhost'
    obtain ⟨host, hhost, hhandle⟩ := bind_eq_some_iff.mp hhost'
    exact (h host hhost).handle screen (hok host hhost) hhandle
  intro host hhost
  exact (invariant_visited hstep hinit hrun _ hhost host rfl).livesApart

end Host

/-- Two lives, with output of the first that is flushed when it is replaced, and its late exit. -/
def restartedRun : List TerminalInput := acceptedRun
  [.spawn false (.started 10), .data 0 ['a'], .data 0 ['b'], .restart "epoch" (.started 11),
    .data 0 ['c'], .data 1 ['d'], .exits 0 0 0 1, .kill, .exits 1 0 0 2, .remove]

theorem lives_apart_restartedRun :
    RunMeets (hostStep smallConfig plainScreen) Host.LifeStep (some Host.initial) restartedRun ∧
      ∀ host, some host ∈ visited (hostStep smallConfig plainScreen) (some Host.initial)
        restartedRun → host.LivesApart :=
  have hrun : RunMeets (hostStep smallConfig plainScreen) Host.LifeStep (some Host.initial)
      restartedRun := by decide +kernel
  ⟨hrun, Host.lives_apart smallConfig plainScreen restartedRun hrun⟩

/-- The second PTY exits by itself while the first, replaced, has not exited yet. -/
def thirdLifeRun : List TerminalInput := acceptedRun
  [.spawn false (.started 10), .restart "epoch" (.started 11), .exits 1 0 0 1,
    .restart "epoch" (.started 12), .data 0 ['a'], .exits 0 0 0 2]

/-- A restart of which the spawn throws, and then the exit of the killed process. -/
def throwingRun : List TerminalInput := acceptedRun
  [.spawn false (.started 10), .restart "epoch" .threw, .exits 0 0 0 1]

/-- The third PTY is given the number of the first: what the first writes reaches the third
one's callback and journal, and its exit is reported as the third's. And where the spawn
throws, the terminal stays listed as running when no process is alive. -/
theorem thirdLifeRun_mixes_lives :
    (∃ host, finalState (hostStep smallConfig plainScreen) (some Host.initial) thirdLifeRun =
        some host ∧
      host.deliveries = [{ origin := 0, callback := 2, life := 2 }] ∧ host.journalOrigins = [0] ∧
      host.exitReports =
        [{ origin := 1, callback := 1, life := 1 }, { origin := 0, callback := 2, life := 2 }] ∧
      ¬host.LivesApart) ∧
    ∃ host, finalState (hostStep smallConfig plainScreen) (some Host.initial) throwingRun =
        some host ∧
      host.terminal.map ManagedTerminal.status = some .running ∧
      (∀ process ∈ host.client.spawned, process.alive = false) ∧ ¬host.LivesApart := by
  refine ⟨⟨_, rfl, by decide +kernel, by decide +kernel, by decide +kernel, ?_⟩,
    ⟨_, rfl, by decide +kernel, by decide +kernel, ?_⟩⟩
  · intro happart
    have howns := happart.deliveries { origin := 0, callback := 2, life := 2 } (by decide +kernel)
    exact absurd howns (by decide)
  · intro happart
    have hpty := (happart.running { status := .running, shellPid := none } (by decide +kernel)
      (by rfl)).1
    revert hpty
    decide +kernel

end Laborer.Terminal
