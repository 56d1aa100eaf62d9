import Laborer.Terminal.Host

/-!
# What an attached client reads

A client reads its events as a base, the cursor it asked to resume from or a snapshot, and the
deltas after it; the reading reflects the output of a terminal when it has all of it from the
base on. A snapshot is spliced from the headless terminal and the journal, so this rests on the
recorded cursor being what that has parsed and on the journal still retaining it.
-/

namespace Laborer.Terminal

open Library List Option OrderedMap

/-! ## Readings -/

/-- What a client has: the cursor of its base, the snapshot if that is one, and every delta
since with its cursor. -/
structure Reading where
  base : Option ℕ
  snapshot : Option Output
  deltas : List (ℕ × Output)

namespace Reading

def read (reading : Reading) : TerminalAttachEvent → Reading
  | .reset .. => { base := none, snapshot := none, deltas := [] }
  | .snapshot cursor data => { base := some cursor, snapshot := some data, deltas := [] }
  | .delta cursor data => { reading with deltas := reading.deltas ++ [(cursor, data)] }
  | .metadata .. | .replayComplete | .exit .. => reading

/-- The base is the end of a part of the output, the deltas are the part after it, and a
snapshot shows the first part. Every delta starts where the one before it ended. -/
structure Spans (screen : Screen) (reading : Reading) (before between : List Output) : Prop where
  base : reading.base = some (CursorLog.total utf8Bytes before)
  snapshot : ∀ data, reading.snapshot = some data → data = screen.serialize before.flatten
  deltas : reading.deltas = CursorLog.ends utf8Bytes (CursorLog.total utf8Bytes before) between

/-- The reading has all of the output from its base on. -/
def Reflects (screen : Screen) (output : List Output) (reading : Reading) : Prop :=
  ∃ before between, output = before ++ between ∧ reading.Spans screen before between

/-- The reading has nothing yet, or the output from its base on up to some chunk. -/
def Follows (screen : Screen) (output : List Output) (reading : Reading) : Prop :=
  (reading.snapshot = none ∧ reading.deltas = []) ∨
    ∃ before between after, output = before ++ between ++ after ∧
      reading.Spans screen before between

variable {screen : Screen} {reading : Reading} {output before between after : List Output}

theorem Reflects.follows (h : reading.Reflects screen output) : reading.Follows screen output := by
  obtain ⟨before, between, rfl, hspans⟩ := h
  exact .inr ⟨before, between, [], (append_nil _).symm, hspans⟩

theorem Reflects.follows_append (h : reading.Reflects screen output) (chunk : Output) :
    reading.Follows screen (output ++ [chunk]) := by
  obtain ⟨before, between, rfl, hspans⟩ := h
  exact .inr ⟨before, between, [chunk], rfl, hspans⟩

theorem Spans.delta (h : reading.Spans screen before between) (chunk : Output) :
    (reading.read (.delta (CursorLog.total utf8Bytes (before ++ between ++ [chunk])) chunk)).Spans
      screen before (between ++ [chunk]) := by
  refine ⟨h.base, h.snapshot, ?_⟩
  show reading.deltas ++ [_] = _
  rw [h.deltas, CursorLog.ends_append, CursorLog.total_append, CursorLog.total_append]
  simp [CursorLog.ends]

theorem Reflects.delta (h : reading.Reflects screen output) (chunk : Output) :
    (reading.read (.delta (CursorLog.total utf8Bytes (output ++ [chunk])) chunk)).Reflects screen
      (output ++ [chunk]) := by
  obtain ⟨before, between, rfl, hspans⟩ := h
  exact ⟨before, between ++ [chunk], append_assoc .., hspans.delta chunk⟩

theorem reflects_empty (screen : Screen) (reading : Reading) :
    (reading.read (.snapshot 0 [])).Reflects screen [] := by
  refine ⟨[], [], rfl, rfl, ?_, rfl⟩
  intro data hdata
  cases some.inj hdata
  exact screen.serialize_nil.symm

end Reading

namespace AttachSubscriber

def take (subscriber : AttachSubscriber) (event : TerminalAttachEvent) : AttachSubscriber :=
  { subscriber with received := subscriber.received ++ [event] }

/-- The reading of a client that resumes from the cursor it asked for until it is reset. -/
def reading (subscriber : AttachSubscriber) : Reading :=
  subscriber.received.foldl Reading.read
    { base := subscriber.resume, snapshot := none, deltas := [] }

theorem reading_take (subscriber : AttachSubscriber) (event : TerminalAttachEvent) :
    (subscriber.take event).reading = subscriber.reading.read event := by
  unfold reading take
  rw [foldl_append]
  rfl

/-- A property of every state of a client that is sent some events, up to the last of them. -/
def Throughout (P : AttachSubscriber → Prop) : AttachSubscriber → List TerminalAttachEvent → Prop
  | _, [] => True
  | subscriber, event :: events => P subscriber ∧ Throughout P (subscriber.take event) events

theorem Throughout.append {P : AttachSubscriber → Prop} {events events' : List TerminalAttachEvent}
    {subscriber : AttachSubscriber} (h : Throughout P subscriber events)
    (h' : Throughout P (events.foldl take subscriber) events') :
    Throughout P subscriber (events ++ events') := by
  induction events generalizing subscriber with
  | nil => exact h'
  | cons event events ih => exact ⟨h.1, ih h.2 h'⟩

end AttachSubscriber

/-! ## Offering events -/

namespace AttachLane

/-- What is not changed when events are offered: the output and those who follow it. -/
structure SameOutput (config : TransportConfig) (lane lane' : AttachLane) : Prop where
  journal : lane'.journalFor config = lane.journalFor config
  history : lane'.history = lane.history
  headlessTerminals : lane'.headlessTerminals = lane.headlessTerminals
  headless : lane'.headless = lane.headless
  parsedCursor : lane'.parsedCursor = lane.parsedCursor

variable {config : TransportConfig} {accepts : Accepts} {present : Bool}
variable {lane lane' lane'' : AttachLane} {event : TerminalAttachEvent}
  {subscriber : AttachSubscriber} {sid : String}

theorem SameOutput.refl (lane : AttachLane) : SameOutput config lane lane :=
  ⟨rfl, rfl, rfl, rfl, rfl⟩

theorem SameOutput.trans (h : SameOutput config lane lane') (h' : SameOutput config lane' lane'') :
    SameOutput config lane lane'' :=
  ⟨h'.journal.trans h.journal, h'.history.trans h.history,
    h'.headlessTerminals.trans h.headlessTerminals, h'.headless.trans h.headless,
    h'.parsedCursor.trans h.parsedCursor⟩

theorem removeAttachSubscriber_spec (lane : AttachLane) (sid : String) :
    SameOutput config lane (lane.removeAttachSubscriber config present sid) ∧
      (lane.removeAttachSubscriber config present sid).subscribers = lane.subscribers.delete sid ∧
      (lane.removeAttachSubscriber config present sid).ended = lane.ended ++
        ((lane.subscribers.get? sid).map fun subscriber => (subscriber, lane.history)).toList := by
  unfold removeAttachSubscriber
  cases hsubscriber : lane.subscribers.get? sid with
  | none =>
    have hkeys := OrderedMap.get?_eq_none_iff.mp hsubscriber
    have hsame : lane.subscribers.delete sid = lane.subscribers := by
      unfold OrderedMap.delete
      rw [filter_eq_self]
      intro entry hentry
      exact decide_eq_true fun heq => hkeys (mem_map.mpr ⟨entry, hentry, heq⟩)
    exact ⟨SameOutput.refl lane, hsame.symm, (append_nil _).symm⟩
  | some subscriber =>
    simp only []
    split
    · exact ⟨⟨rfl, rfl, rfl, rfl, rfl⟩, rfl, rfl⟩
    · split
      · exact ⟨⟨rfl, rfl, rfl, rfl, rfl⟩, rfl, rfl⟩
      · exact ⟨⟨rfl, rfl, rfl, rfl, rfl⟩, rfl, rfl⟩

theorem offer_spec (lane : AttachLane) (h : lane.subscribers.get? sid = some subscriber) :
    SameOutput config lane (lane.offer config accepts present event sid) ∧
      (((lane.offer config accepts present event sid).subscribers =
          lane.subscribers.set sid (subscriber.take event) ∧
        (lane.offer config accepts present event sid).ended = lane.ended) ∨
      ((lane.offer config accepts present event sid).subscribers = lane.subscribers.delete sid ∧
        (lane.offer config accepts present event sid).ended =
          lane.ended ++ [(subscriber, lane.history)])) := by
  unfold offer
  rw [h]
  simp only []
  split
  · exact ⟨⟨rfl, rfl, rfl, rfl, rfl⟩, .inl ⟨rfl, rfl⟩⟩
  · obtain ⟨hsame, hsubscribers, hended⟩ :
        SameOutput config lane (lane.removeAttachSubscriber config present sid) ∧ _ ∧ _ :=
      removeAttachSubscriber_spec lane sid
    rw [h] at hended
    exact ⟨hsame, .inr ⟨hsubscribers, hended⟩⟩

theorem offer_gone (h : lane.subscribers.get? sid = none) :
    lane.offer config accepts present event sid = lane := by
  unfold offer
  rw [h]

theorem nodup_offer (hnodup : (lane.subscribers.map Prod.fst).Nodup) :
    ((lane.offer config accepts present event sid).subscribers.map Prod.fst).Nodup := by
  cases hsubscriber : lane.subscribers.get? sid with
  | none =>
    rw [offer_gone hsubscriber]
    exact hnodup
  | some subscriber =>
    obtain ⟨-, ⟨hsubscribers, -⟩ | ⟨hsubscribers, -⟩⟩ :
        SameOutput config lane (lane.offer config accepts present event sid) ∧ _ :=
      offer_spec lane hsubscriber
    · rw [hsubscribers]
      exact nodup_keys_set _ _ hnodup
    · rw [hsubscribers]
      exact nodup_keys_delete _ hnodup

/-- An event that takes every subscriber from one property to another does so for all of
them; those that refuse it go with what they had. -/
theorem offerAll_spec {P Q : AttachSubscriber → Prop} (hstep : ∀ subscriber, P subscriber →
      Q (subscriber.take event)) (subscriberIds : List String) (hids : subscriberIds.Nodup)
    (hnodup : (lane.subscribers.map Prod.fst).Nodup)
    (hbefore : ∀ entry ∈ lane.subscribers,
      if entry.1 ∈ subscriberIds then P entry.2 else Q entry.2) :
    let lane' := subscriberIds.foldl (offer config accepts present event) lane
    SameOutput config lane lane' ∧ (lane'.subscribers.map Prod.fst).Nodup ∧
      (∀ entry ∈ lane'.subscribers, Q entry.2) ∧
      ∀ entry ∈ lane'.ended, entry ∈ lane.ended ∨ (P entry.1 ∧ entry.2 = lane.history) := by
  induction subscriberIds generalizing lane with
  | nil =>
    refine ⟨SameOutput.refl lane, hnodup, ?_, fun entry hentry => .inl hentry⟩
    intro entry hentry
    have hnow := hbefore entry hentry
    rwa [if_neg not_mem_nil] at hnow
  | cons sid subscriberIds ih =>
    obtain ⟨hfresh, hids⟩ := nodup_cons.mp hids
    rw [foldl_cons]
    have hothers : ∀ entry ∈ lane.subscribers, entry.1 ≠ sid →
        if entry.1 ∈ subscriberIds then P entry.2 else Q entry.2 := by
      intro entry hentry hother
      have hnow := hbefore entry hentry
      by_cases hlater : entry.1 ∈ subscriberIds
      · rw [if_pos hlater]
        rwa [if_pos (mem_cons_of_mem _ hlater)] at hnow
      · rw [if_neg hlater]
        rwa [if_neg (by simp [hother, hlater])] at hnow
    cases hsubscriber : lane.subscribers.get? sid with
    | none =>
      -- The subscriber is gone already.
      rw [offer_gone hsubscriber]
      exact ih hids hnodup fun entry hentry => hothers entry hentry fun heq =>
        OrderedMap.get?_eq_none_iff.mp hsubscriber (mem_map.mpr ⟨entry, hentry, heq⟩)
    | some subscriber =>
      have hP : P subscriber := by
        have hnow := hbefore _ (mem_of_get? hsubscriber)
        rwa [if_pos mem_cons_self] at hnow
      obtain ⟨hsame, ⟨hsubscribers, hended⟩ | ⟨hsubscribers, hended⟩⟩ :
          SameOutput config lane (lane.offer config accepts present event sid) ∧ _ :=
        offer_spec lane hsubscriber
      · have hmem := mem_keys_of_get? hsubscriber
        have hbefore' : ∀ entry ∈ (lane.offer config accepts present event sid).subscribers,
            if entry.1 ∈ subscriberIds then P entry.2 else Q entry.2 := by
          intro entry hentry
          rw [hsubscribers] at hentry
          unfold OrderedMap.set at hentry
          rw [if_pos hmem] at hentry
          obtain ⟨earlier, hearlier, heq⟩ := mem_map.mp hentry
          by_cases hother : earlier.1 = sid
          · rw [if_pos hother] at heq
            rw [← heq, if_neg hfresh]
            exact hstep subscriber hP
          · rw [if_neg hother] at heq
            rw [← heq]
            exact hothers earlier hearlier hother
        obtain ⟨hlater, hlast, hlive, hgone⟩ := ih hids (nodup_offer hnodup) hbefore'
        refine ⟨hsame.trans hlater, hlast, hlive, ?_⟩
        intro entry hentry
        rw [← hended, ← hsame.history]
        exact hgone entry hentry
      · have hbefore' : ∀ entry ∈ (lane.offer config accepts present event sid).subscribers,
            if entry.1 ∈ subscriberIds then P entry.2 else Q entry.2 := by
          intro entry hentry
          rw [hsubscribers] at hentry
          obtain ⟨hmem, hother⟩ := mem_filter.mp hentry
          exact hothers entry hmem (by simpa using hother)
        obtain ⟨hlater, hlast, hlive, hgone⟩ := ih hids (nodup_offer hnodup) hbefore'
        refine ⟨hsame.trans hlater, hlast, hlive, ?_⟩
        intro entry hentry
        rcases hgone entry hentry with hearlier | ⟨hnow, houtput⟩
        · rw [hended] at hearlier
          rcases mem_append.mp hearlier with hearlier | hlast
          · exact .inl hearlier
          · rw [mem_singleton.mp hlast]
            exact .inr ⟨hP, rfl⟩
        · exact .inr ⟨hnow, houtput.trans hsame.history⟩

theorem emitAll_gone (events : List TerminalAttachEvent) (h : lane.subscribers.get? sid = none) :
    lane.emitAll config accepts present sid events = lane := by
  unfold emitAll
  induction events with
  | nil => rfl
  | cons event events ih =>
    rw [foldl_cons, offer_gone h]
    exact ih

/-- A client that is sent events one after the other takes all of them, or goes with what it
had before one of them. -/
theorem emitAll_spec {R : AttachSubscriber → Prop} (events : List TerminalAttachEvent)
    (hnodup : (lane.subscribers.map Prod.fst).Nodup)
    (hsubscriber : lane.subscribers.get? sid = some subscriber)
    (hthroughout : AttachSubscriber.Throughout R subscriber events) :
    let lane' := lane.emitAll config accepts present sid events
    SameOutput config lane lane' ∧ (lane'.subscribers.map Prod.fst).Nodup ∧
      (∀ entry ∈ lane'.subscribers, (entry ∈ lane.subscribers ∧ entry.1 ≠ sid) ∨
        entry = (sid, events.foldl AttachSubscriber.take subscriber)) ∧
      ∀ entry ∈ lane'.ended, entry ∈ lane.ended ∨ (R entry.1 ∧ entry.2 = lane.history) := by
  induction events generalizing lane subscriber with
  | nil =>
    refine ⟨SameOutput.refl lane, hnodup, ?_, fun entry hentry => .inl hentry⟩
    intro entry hentry
    by_cases hother : entry.1 = sid
    · right
      have hmem := mem_of_get? hsubscriber
      have hinj := inj_on_of_nodup_map hnodup hentry hmem hother
      exact hinj
    · exact .inl ⟨hentry, hother⟩
  | cons event events ih =>
    obtain ⟨hnow, hlater⟩ := hthroughout
    have hunfold : lane.emitAll config accepts present sid (event :: events) =
        (lane.offer config accepts present event sid).emitAll config accepts present
          sid events := foldl_cons ..
    rw [hunfold]
    obtain ⟨hsame, ⟨hsubscribers, hended⟩ | ⟨hsubscribers, hended⟩⟩ :
        SameOutput config lane (lane.offer config accepts present event sid) ∧ _ :=
      offer_spec lane hsubscriber
    · have htaken : (lane.offer config accepts present event sid).subscribers.get?
          sid = some (subscriber.take event) := by
        rw [hsubscribers, OrderedMap.get?_set, if_pos rfl]
      obtain ⟨hrest, hlast, hlive, hgone⟩ := ih (nodup_offer hnodup) htaken hlater
      refine ⟨hsame.trans hrest, hlast, ?_, ?_⟩
      · intro entry hentry
        rcases hlive entry hentry with ⟨hearlier, hother⟩ | hall
        · rw [hsubscribers] at hearlier
          rcases mem_set hearlier with rfl | hearlier
          · exact absurd rfl hother
          · exact .inl ⟨hearlier, hother⟩
        · exact .inr hall
      · intro entry hentry
        rw [← hended, ← hsame.history]
        exact hgone entry hentry
    · -- It refused the event: what follows is not offered.
      have hnone : (lane.offer config accepts present event sid).subscribers.get? sid = none := by
        rw [hsubscribers, OrderedMap.get?_delete, if_pos rfl]
      rw [emitAll_gone events hnone]
      refine ⟨hsame, nodup_offer hnodup, ?_, ?_⟩
      · intro entry hentry
        rw [hsubscribers] at hentry
        obtain ⟨hmem, hother⟩ := mem_filter.mp hentry
        exact .inl ⟨hmem, by simpa using hother⟩
      · intro entry hentry
        rw [hended] at hentry
        rcases mem_append.mp hentry with hearlier | hlast
        · exact .inl hearlier
        · rw [mem_singleton.mp hlast]
          exact .inr ⟨hnow, rfl⟩

/-! ## The streams of a terminal -/

/-- Every client that is gone followed the output, and the headless terminal has parsed a
part of it and has the rest in its queue. -/
structure Mirrors (config : TransportConfig) (screen : Screen) (lane : AttachLane) : Prop where
  keeps : (lane.journalFor config).Keeps lane.history
  nodup : (lane.subscribers.map Prod.fst).Nodup
  gone : ∀ entry ∈ lane.ended, entry.1.reading.Follows screen entry.2
  mirror : ∃ instanceId terminal, lane.headless = some instanceId ∧
    lane.headlessTerminals[instanceId]? = some terminal ∧
    terminal.parsed ++ terminal.queue.map Prod.fst = lane.history

structure Streams (config : TransportConfig) (screen : Screen) (lane : AttachLane) : Prop
    extends Mirrors config screen lane where
  live : ∀ entry ∈ lane.subscribers, entry.2.reading.Reflects screen lane.history

variable {screen : Screen} {options : AttachOptions} {uuid : String}

theorem Streams.congr (h : Streams config screen lane)
    (hjournal : lane'.journalFor config = lane.journalFor config)
    (hhistory : lane'.history = lane.history) (hsubscribers : lane'.subscribers = lane.subscribers)
    (hended : lane'.ended = lane.ended) (hheadless : lane'.headless = lane.headless)
    (hterminals : lane'.headlessTerminals = lane.headlessTerminals) :
    Streams config screen lane' := by
  refine ⟨⟨?_, ?_, ?_, ?_⟩, ?_⟩
  · rw [hjournal, hhistory]
    exact h.keeps
  · rw [hsubscribers]
    exact h.nodup
  · rw [hended]
    exact h.gone
  · rw [hheadless, hterminals, hhistory]
    exact h.mirror
  · rw [hsubscribers, hhistory]
    exact h.live

theorem Mirrors.same (h : Mirrors config screen lane) (hsame : SameOutput config lane lane')
    (hnodup : (lane'.subscribers.map Prod.fst).Nodup)
    (hlive : ∀ entry ∈ lane'.subscribers, entry.2.reading.Reflects screen lane.history)
    (hgone : ∀ entry ∈ lane'.ended, entry.1.reading.Follows screen entry.2) :
    Streams config screen lane' := by
  refine ⟨⟨?_, hnodup, hgone, ?_⟩, ?_⟩
  · rw [hsame.journal, hsame.history]
    exact h.keeps
  · rw [hsame.headless, hsame.headlessTerminals, hsame.history]
    exact h.mirror
  · rw [hsame.history]
    exact hlive

theorem Streams.removeAttachSubscriber (h : Streams config screen lane) (sid : String) :
    Streams config screen (lane.removeAttachSubscriber config present sid) := by
  obtain ⟨hsame, hsubscribers, hended⟩ :
      SameOutput config lane (lane.removeAttachSubscriber config present sid) ∧ _ ∧ _ :=
    removeAttachSubscriber_spec lane sid
  apply h.same hsame
  · rw [hsubscribers]
    exact nodup_keys_delete _ h.nodup
  · intro entry hentry
    rw [hsubscribers] at hentry
    exact h.live entry (mem_filter.mp hentry).1
  · intro entry hentry
    rw [hended] at hentry
    rcases mem_append.mp hentry with hearlier | hlast
    · exact h.gone entry hearlier
    · obtain ⟨subscriber, hsubscriber, rfl⟩ := map_eq_some_iff.mp (mem_toList.mp hlast)
      exact (h.live _ (mem_of_get? hsubscriber)).follows

theorem Streams.acknowledge (h : Streams config screen lane) (leaseId : String) (cursor : ℕ) :
    Streams config screen (lane.acknowledge config present leaseId cursor) := by
  unfold AttachLane.acknowledge
  split
  · next journal previous hjournal _ =>
    split
    · exact h
    · split
      · exact h.congr (by rfl) (by rfl) (by rfl) (by rfl) (by rfl) (by rfl)
      · exact h
  · exact h

/-- Parsing moves a chunk of the current headless terminal from its queue to what it has
parsed; another instance is not looked at. -/
theorem Streams.parseNext (h : Streams config screen lane) (instanceId : ℕ) :
    Streams config screen (lane.parseNext instanceId) := by
  unfold AttachLane.parseNext
  cases hinstance : lane.headlessTerminals[instanceId]? with
  | none => exact h
  | some parsing =>
    simp only []
    split
    · exact h
    · next data cursor queue hqueue =>
      refine ⟨⟨h.keeps, h.nodup, h.gone, ?_⟩, h.live⟩
      obtain ⟨current, terminal, hcurrent, hterminal, hmirror⟩ := h.mirror
      have hlength := (List.getElem?_eq_some_iff.mp hinstance).1
      by_cases hsame : current = instanceId
      · subst hsame
        rw [hinstance] at hterminal
        cases some.inj hterminal
        refine ⟨current, _, hcurrent, getElem?_set_self hlength, ?_⟩
        rw [← hmirror, hqueue]
        simp
      · exact ⟨current, terminal, hcurrent,
          (getElem?_set_ne (Ne.symm hsame)).trans hterminal, hmirror⟩

/-! ## Output -/

theorem Mirrors.publishAttachEvent {P : AttachSubscriber → Prop} (h : Mirrors config screen lane)
    (hlive : ∀ entry ∈ lane.subscribers, P entry.2)
    (hfollows : ∀ subscriber, P subscriber → subscriber.reading.Follows screen lane.history)
    (hstep : ∀ subscriber, P subscriber →
      (subscriber.reading.read event).Reflects screen lane.history) :
    Streams config screen (lane.publishAttachEvent config accepts present event) ∧
      SameOutput config lane (lane.publishAttachEvent config accepts present event) := by
  obtain ⟨hsame, hnodup, hafter, hgone⟩ :
      SameOutput config lane (lane.publishAttachEvent config accepts present event) ∧ _ ∧ _ ∧ _ :=
    offerAll_spec (P := P) (Q := fun subscriber => subscriber.reading.Reflects screen lane.history)
      (fun subscriber hsubscriber => by
        rw [AttachSubscriber.reading_take]
        exact hstep subscriber hsubscriber)
      (lane.subscribers.map Prod.fst) h.nodup h.nodup (fun entry hentry => by
        rw [if_pos (mem_map.mpr ⟨entry, hentry, rfl⟩)]
        exact hlive entry hentry)
  refine ⟨h.same hsame hnodup hafter ?_, hsame⟩
  intro entry hentry
  rcases hgone entry hentry with hearlier | ⟨hnow, houtput⟩
  · exact h.gone entry hearlier
  · rw [houtput]
    exact hfollows entry.1 hnow

theorem Streams.processChunk {chunk : Output} (h : Streams config screen lane) (hchunk : chunk ≠ [])
    (hprocess : lane.processChunk config accepts present chunk = some lane') :
    Streams config screen lane' ∧ lane'.history = lane.history ++ [chunk] := by
  unfold AttachLane.processChunk at hprocess
  obtain ⟨journal', happend, rfl⟩ := map_eq_some_iff.mp hprocess
  have hkeeps := h.keeps.append hchunk happend
  have hcursor : journal'.cursor = CursorLog.total utf8Bytes (lane.history ++ [chunk]) :=
    hkeeps.cursor_eq
  obtain ⟨instanceId, terminal, hheadless, hterminal, hmirror⟩ := h.mirror
  -- The chunk is in the journal and in the queue of the headless terminal.
  have hwritten : AttachLane.writeHeadless chunk journal'.cursor
      { lane with journal := some journal', history := lane.history ++ [chunk] } =
        { lane with
          journal := some journal'
          history := lane.history ++ [chunk]
          headlessTerminals := lane.headlessTerminals.modify instanceId fun terminal =>
            { terminal with queue := terminal.queue ++ [(chunk, journal'.cursor)] } } := by
    unfold AttachLane.writeHeadless
    simp only [hheadless]
  rw [hwritten]
  have hmirrors : Mirrors config screen
      { lane with
        journal := some journal'
        history := lane.history ++ [chunk]
        headlessTerminals := lane.headlessTerminals.modify instanceId fun terminal =>
          { terminal with queue := terminal.queue ++ [(chunk, journal'.cursor)] } } := by
    refine ⟨hkeeps, h.nodup, h.gone, instanceId,
      { terminal with queue := terminal.queue ++ [(chunk, journal'.cursor)] }, hheadless, ?_, ?_⟩
    · show (lane.headlessTerminals.modify instanceId _)[instanceId]? = _
      rw [getElem?_modify_eq, hterminal]
      rfl
    · show terminal.parsed ++ (terminal.queue ++ [(chunk, journal'.cursor)]).map Prod.fst = _
      rw [map_append, ← append_assoc, hmirror]
      rfl
  have hstep : ∀ subscriber : AttachSubscriber, subscriber.reading.Reflects screen lane.history →
      (subscriber.reading.read (.delta journal'.cursor chunk)).Reflects screen
        (lane.history ++ [chunk]) := by
    intro subscriber hsubscriber
    rw [hcursor]
    exact hsubscriber.delta chunk
  exact (hmirrors.publishAttachEvent h.live
    (fun _ hsubscriber => hsubscriber.follows_append chunk) hstep).imp_right SameOutput.history

theorem Streams.processChunks {chunks : List Output} (h : Streams config screen lane)
    (hchunks : ∀ chunk ∈ chunks, chunk ≠ [])
    (hprocess : lane.processChunks config accepts present chunks = some lane') :
    Streams config screen lane' ∧ lane'.history = lane.history ++ chunks := by
  induction chunks generalizing lane with
  | nil =>
    cases some.inj hprocess
    exact ⟨h, (append_nil _).symm⟩
  | cons chunk chunks ih =>
    unfold AttachLane.processChunks at hprocess
    obtain ⟨next, hnext, hrest⟩ := bind_eq_some_iff.mp hprocess
    obtain ⟨hstreams, hhistory⟩ := h.processChunk (hchunks chunk mem_cons_self) hnext
    obtain ⟨hlast, hhistory'⟩ :=
      ih hstreams (fun other hother => hchunks other (mem_cons_of_mem _ hother)) hrest
    refine ⟨hlast, ?_⟩
    rw [hhistory', hhistory, append_assoc]
    rfl

theorem Streams.processOutput {data : Output} (h : Streams config screen lane)
    (hprocess : lane.processOutput config accepts present data = some lane') :
    Streams config screen lane' ∧ lane'.history.flatten = lane.history.flatten ++ data := by
  unfold AttachLane.processOutput at hprocess
  obtain ⟨chunks, hchunks, hrest⟩ := bind_eq_some_iff.mp hprocess
  obtain ⟨hflat, hpieces⟩ := splitByUtf8Bytes_spec hchunks
  obtain ⟨hstreams, hhistory⟩ :=
    h.processChunks (fun chunk hchunk => (hpieces chunk hchunk).1) hrest
  refine ⟨hstreams, ?_⟩
  rw [hhistory, flatten_append, hflat]

/-! ## Attach -/

/-- The cursor and the epoch a client gives are those of this output. -/
def Resumes (config : TransportConfig) (uuid : String) (options : AttachOptions)
    (lane : AttachLane) : Prop :=
  (options.epoch = none ∨ options.epoch = some (lane.transportEpoch.getD uuid)) ∧
    ∃ cursor ∈ options.cursor, (lane.journalFor config).retains cursor

instance (config : TransportConfig) (uuid : String) (options : AttachOptions) (lane : AttachLane) :
    Decidable (lane.Resumes config uuid options) := by
  unfold Resumes
  cases options.cursor with
  | none =>
    exact isFalse fun h => h.2.elim fun cursor hcursor =>
      absurd hcursor.1 (Option.not_mem_none cursor)
  | some cursor =>
    have : Decidable (∃ other ∈ some cursor, (lane.journalFor config).retains other) :=
      decidable_of_iff ((lane.journalFor config).retains cursor) (by simp)
    infer_instance

/-- The recorded cursor is what the current headless terminal has parsed, and the journal
still has what comes after it. -/
def SnapshotCurrent (config : TransportConfig) (lane : AttachLane) : Prop :=
  lane.parsedCursor.getD 0 = CursorLog.total utf8Bytes lane.parsed ∧
    (lane.journalFor config).minimumCursor ≤ lane.parsedCursor.getD 0

instance (config : TransportConfig) (lane : AttachLane) :
    Decidable (lane.SnapshotCurrent config) :=
  inferInstanceAs (Decidable (_ ∧ _))

theorem throughout_deltas {output before between rest : List Output}
    (hspans : subscriber.reading.Spans screen before between)
    (houtput : output = before ++ between ++ rest) :
    let events := (CursorLog.ends utf8Bytes
      (CursorLog.total utf8Bytes (before ++ between)) rest).map
      fun entry => TerminalAttachEvent.delta entry.1 entry.2
    AttachSubscriber.Throughout (fun subscriber => subscriber.reading.Follows screen output)
        subscriber events ∧
      (events.foldl AttachSubscriber.take subscriber).reading.Spans screen before
        (between ++ rest) := by
  induction rest generalizing between subscriber with
  | nil =>
    rw [append_nil]
    exact ⟨trivial, hspans⟩
  | cons chunk rest ih =>
    have hcursor : CursorLog.total utf8Bytes (before ++ between) + utf8Bytes chunk =
        CursorLog.total utf8Bytes (before ++ (between ++ [chunk])) := by
      rw [← append_assoc, CursorLog.total_append _ [chunk], CursorLog.total_cons,
        CursorLog.total_nil, Nat.add_zero]
    have hnext : (subscriber.take (.delta (CursorLog.total utf8Bytes
        (before ++ (between ++ [chunk]))) chunk)).reading.Spans screen before
          (between ++ [chunk]) := by
      rw [AttachSubscriber.reading_take, ← append_assoc]
      exact hspans.delta chunk
    have hlater := ih hnext (by rw [houtput]; simp)
    simp only [CursorLog.ends, map_cons, foldl_cons]
    rw [hcursor]
    refine ⟨⟨?_, hlater.1⟩, ?_⟩
    · exact .inr ⟨before, between, chunk :: rest, houtput, hspans⟩
    · rw [show between ++ chunk :: rest = between ++ [chunk] ++ rest by simp]
      exact hlater.2

theorem throughout_replay {before : List Output} (after : List Output) (epoch : String)
    (status : TerminalStatus)
    (hspans : subscriber.reading.Spans screen before []) :
    let events := (CursorLog.ends utf8Bytes (CursorLog.total utf8Bytes before) after).map
      (fun entry => TerminalAttachEvent.delta entry.1 entry.2) ++
        [.metadata epoch status, .replayComplete]
    AttachSubscriber.Throughout
        (fun subscriber => subscriber.reading.Follows screen (before ++ after)) subscriber events ∧
      (events.foldl AttachSubscriber.take subscriber).reading.Reflects screen
        (before ++ after) := by
  have houtput : before ++ after = before ++ [] ++ after := by rw [append_nil]
  have hdeltas := throughout_deltas hspans houtput
  rw [append_nil, nil_append] at hdeltas
  obtain ⟨hthroughout, hall⟩ := hdeltas
  have hreflects : ∀ subscriber : AttachSubscriber, subscriber.reading.Spans screen before after →
      subscriber.reading.Reflects screen (before ++ after) :=
    fun _ hspans => ⟨before, after, rfl, hspans⟩
  constructor
  · apply hthroughout.append
    refine ⟨(hreflects _ hall).follows, ?_, trivial⟩
    show (AttachSubscriber.take _ _).reading.Follows screen _
    rw [AttachSubscriber.reading_take]
    exact (hreflects _ hall).follows
  · rw [foldl_append]
    show (AttachSubscriber.take (AttachSubscriber.take _ _) _).reading.Reflects screen _
    rw [AttachSubscriber.reading_take, AttachSubscriber.reading_take]
    exact hreflects _ hall

def replayEvents (epoch : String) (status : TerminalStatus) (deltas : List (ℕ × Output)) :
    List TerminalAttachEvent :=
  deltas.map (fun entry => TerminalAttachEvent.delta entry.1 entry.2) ++
    [.metadata epoch status, .replayComplete]

theorem attachEvents_resumes (status : TerminalStatus) (h : lane.Resumes config uuid options) :
    ∃ cursor, options.cursor = some cursor ∧ (lane.journalFor config).retains cursor ∧
      lane.attachEvents config screen (lane.transportEpoch.getD uuid) status options =
        (replayEvents (lane.transportEpoch.getD uuid) status
          ((lane.journalFor config).deltasAfter cursor), false) := by
  obtain ⟨hepoch, cursor, hcursor, hretains⟩ := h
  have hcursor : options.cursor = some cursor := hcursor
  refine ⟨cursor, hcursor, hretains, ?_⟩
  have hsame : (options.epoch.isSome && options.epoch != some (lane.transportEpoch.getD uuid)) =
      false := by
    rcases hepoch with hnone | hsome
    · rw [hnone]
      rfl
    · rw [hsome]
      simp
  unfold AttachLane.attachEvents replayEvents
  simp [hsame, hcursor, hretains]

theorem attachEvents_snapshot (status : TerminalStatus) (h : ¬ lane.Resumes config uuid options) :
    ∃ reset : List TerminalAttachEvent,
      (reset = [] ∨ ∃ reason, reset = [.reset (lane.transportEpoch.getD uuid) reason]) ∧
      lane.attachEvents config screen (lane.transportEpoch.getD uuid) status options =
        if config.snapshotBytes < utf8Bytes (lane.getScreenState screen) then (reset, true)
        else (reset ++ [.snapshot (lane.parsedCursor.getD 0) (lane.getScreenState screen)] ++
          replayEvents (lane.transportEpoch.getD uuid) status
            ((lane.journalFor config).deltasAfter (lane.parsedCursor.getD 0)), false) := by
  unfold AttachLane.attachEvents replayEvents
  simp only []
  by_cases hlost : (options.epoch.isSome && options.epoch != some (lane.transportEpoch.getD uuid) ||
      options.cursor.any fun cursor => !decide ((lane.journalFor config).retains cursor)) = true
  · rw [if_pos hlost, if_pos hlost]
    exact ⟨_, .inr ⟨_, rfl⟩, rfl⟩
  · rw [if_neg hlost, if_neg hlost]
    refine ⟨[], .inl rfl, ?_⟩
    cases hcursor : options.cursor with
    | none => rfl
    | some cursor =>
      -- With its epoch and its cursor right it would resume.
      exfalso
      rw [hcursor] at hlost
      simp only [Bool.or_eq_true, not_or, any_some, Bool.not_eq_true',
        decide_eq_false_iff_not, not_not, Bool.and_eq_true, not_and, bne_iff_ne, ne_eq] at hlost
      apply h
      refine ⟨?_, cursor, hcursor, hlost.2⟩
      cases hepoch : options.epoch with
      | none => exact .inl rfl
      | some epoch =>
        rw [hepoch] at hlost
        exact .inr (by simpa using hlost.1)

/-- What an attached client is sent is a base and the output from it on, whatever it refuses
on the way. -/
theorem attachEvents_spec (h : Mirrors config screen lane) (status : TerminalStatus)
    (hmatches : lane.Resumes config uuid options ∨ lane.SnapshotCurrent config) :
    let events := lane.attachEvents config screen (lane.transportEpoch.getD uuid) status options
    let subscriber : AttachSubscriber := { resume := options.cursor, received := [] }
    AttachSubscriber.Throughout (fun subscriber => subscriber.reading.Follows screen lane.history)
        subscriber events.1 ∧
      (events.1.foldl AttachSubscriber.take subscriber).reading.Follows screen lane.history ∧
      (events.2 = false →
        (events.1.foldl AttachSubscriber.take subscriber).reading.Reflects screen
          lane.history) := by
  by_cases hresumes : lane.Resumes config uuid options
  · obtain ⟨cursor, hcursor, hretains, heq⟩ :
        ∃ cursor, options.cursor = some cursor ∧ (lane.journalFor config).retains cursor ∧
          lane.attachEvents config screen _ status options = _ :=
      attachEvents_resumes status hresumes
    rw [heq]
    obtain ⟨before, after, houtput, hmark⟩ := h.keeps.isMark hretains
    rw [Nat.zero_add] at hmark
    have hkeeps := h.keeps
    rw [houtput] at hkeeps
    rw [houtput, hmark, hkeeps.deltasAfter (by rw [← hmark]; exact hretains.1.1)]
    have hspans : (AttachSubscriber.mk options.cursor []).reading.Spans screen before [] := by
      refine ⟨?_, ?_, rfl⟩
      · rw [← hmark]
        exact hcursor
      · exact fun data hdata => absurd hdata (by simp [AttachSubscriber.reading])
    obtain ⟨hthroughout, hreflects⟩ := throughout_replay after _ status hspans
    exact ⟨hthroughout, hreflects.follows, fun _ => hreflects⟩
  · obtain ⟨hparsed, hretained⟩ := hmatches.resolve_left hresumes
    obtain ⟨reset, hreset, heq⟩ : ∃ reset : List TerminalAttachEvent, _ ∧
          lane.attachEvents config screen (lane.transportEpoch.getD uuid) status options = _ :=
      attachEvents_snapshot status hresumes
    rw [heq]
    -- Before its snapshot the client has nothing.
    have hnothing : AttachSubscriber.Throughout
        (fun subscriber => subscriber.reading.Follows screen lane.history)
          { resume := options.cursor, received := [] } reset ∧
        (reset.foldl AttachSubscriber.take
          { resume := options.cursor, received := [] }).reading.Follows screen lane.history := by
      rcases hreset with rfl | ⟨reason, rfl⟩
      · exact ⟨trivial, .inl ⟨rfl, rfl⟩⟩
      · exact ⟨⟨.inl ⟨rfl, rfl⟩, trivial⟩, .inl ⟨rfl, rfl⟩⟩
    split
    · exact ⟨hnothing.1, hnothing.2, fun hfalse => absurd hfalse.symm Bool.false_ne_true⟩
    · obtain ⟨instanceId, terminal, hheadless, hterminal, houtput⟩ := h.mirror
      have hparsedBy : lane.parsed = terminal.parsed := by
        unfold AttachLane.parsed
        rw [hheadless]
        simp only [hterminal]
        rfl
      have hkeeps := h.keeps
      rw [← houtput] at hkeeps
      rw [hparsed, hparsedBy] at hretained ⊢
      rw [hkeeps.deltasAfter hretained, ← houtput]
      have hspans : ((reset.foldl AttachSubscriber.take
          { resume := options.cursor, received := [] }).take (.snapshot
            (CursorLog.total utf8Bytes terminal.parsed)
              (lane.getScreenState screen))).reading.Spans screen terminal.parsed [] := by
        rw [AttachSubscriber.reading_take]
        refine ⟨rfl, ?_, rfl⟩
        intro data hdata
        cases some.inj hdata
        unfold AttachLane.getScreenState
        rw [hparsedBy]
      obtain ⟨hthroughout, hreflects⟩ := throughout_replay (terminal.queue.map Prod.fst)
        (lane.transportEpoch.getD uuid) status hspans
      rw [houtput] at hthroughout hreflects ⊢
      rw [append_assoc]
      have hfold : ∀ snapshot events, events.foldl AttachSubscriber.take
          ((reset.foldl AttachSubscriber.take { resume := options.cursor, received := [] }).take
            snapshot) = (reset ++ ([snapshot] ++ events)).foldl AttachSubscriber.take
              { resume := options.cursor, received := [] } := by
        intro snapshot events
        rw [foldl_append]
        rfl
      have hall := hreflects
      rw [hfold] at hall
      exact ⟨hnothing.1.append ⟨hnothing.2, hthroughout⟩, hall.follows, fun _ => hall⟩

theorem Streams.attach (h : Streams config screen lane) (status : TerminalStatus) (sid : String)
    (hmatches : (lane.subscribers.get? sid).isSome = true ∨
      lane.Resumes config uuid options ∨ lane.SnapshotCurrent config) : Streams config screen
      (lane.attach config screen accepts present uuid status options sid) ∧
    (lane.attach config screen accepts present uuid status options sid).history = lane.history := by
  unfold AttachLane.attach
  by_cases htaken : (lane.subscribers.get? sid).isSome = true
  · rw [if_pos htaken]
    exact ⟨h.congr (by rfl) (by rfl) (by rfl) (by rfl) (by rfl) (by rfl), rfl⟩
  · rw [if_neg htaken]
    obtain ⟨hthroughout, hfollows, hreflects⟩ :=
      attachEvents_spec h.toMirrors status (hmatches.resolve_left htaken)
    have hfree : sid ∉ lane.subscribers.map Prod.fst := by
      rw [← OrderedMap.get?_eq_none_iff]
      exact not_isSome_iff_eq_none.mp htaken
    have hregistered : Mirrors config screen (lane.register config present uuid options sid) := by
      refine ⟨h.keeps, ?_, h.gone, h.mirror⟩
      have hkeys : (lane.register config present uuid options sid).subscribers.map Prod.fst =
          lane.subscribers.map Prod.fst ++ [sid] := keys_set_of_not_mem _ hfree
      rw [hkeys, nodup_append]
      refine ⟨h.nodup, nodup_singleton _, ?_⟩
      intro key hkey other hother heq
      rw [mem_singleton.mp hother] at heq
      exact hfree (heq ▸ hkey)
    have htakes : (lane.register config present uuid options sid).subscribers.get?
        sid = some { resume := options.cursor, received := [] } := by
      show (OrderedMap.set _ _ _).get? sid = _
      rw [OrderedMap.get?_set, if_pos rfl]
    obtain ⟨hsame, hnodup, hlive, hgone⟩ : SameOutput config _
        (AttachLane.emitAll config accepts present sid (lane.attachEvents config screen
          (lane.transportEpoch.getD uuid) status options).1
            (lane.register config present uuid options sid)) ∧ _ ∧ _ ∧ _ :=
      emitAll_spec _ hregistered.nodup htakes hthroughout
    have hended : ∀ entry ∈ (AttachLane.emitAll config accepts present sid
        (lane.attachEvents config screen (lane.transportEpoch.getD uuid) status options).1
          (lane.register config present uuid options sid)).ended,
            entry.1.reading.Follows screen entry.2 := by
      intro entry hentry
      rcases hgone entry hentry with hearlier | ⟨hnow, houtput⟩
      · exact h.gone entry hearlier
      · rw [houtput]
        exact hnow
    have hothers : ∀ entry ∈ (lane.register config present uuid options sid).subscribers,
        entry.1 ≠ sid → entry.2.reading.Reflects screen lane.history := by
      intro entry hentry hother
      rcases mem_set hentry with rfl | hentry
      · exact absurd rfl hother
      · exact h.live entry hentry
    simp only []
    split
    · -- The snapshot is too long: the client goes again.
      obtain ⟨hsame', hsubscribers, hended'⟩ : SameOutput config _
          (AttachLane.removeAttachSubscriber config present sid (AttachLane.emitAll config
            accepts present sid (lane.attachEvents config screen
              (lane.transportEpoch.getD uuid) status options).1
                (lane.register config present uuid options sid))) ∧ _ ∧ _ :=
        removeAttachSubscriber_spec _ sid
      refine ⟨hregistered.same (hsame.trans hsame') ?_ ?_ ?_, (hsame.trans hsame').history⟩
      · rw [hsubscribers]
        exact nodup_keys_delete _ hnodup
      · intro entry hentry
        rw [hsubscribers] at hentry
        obtain ⟨hmem, hother⟩ := mem_filter.mp hentry
        have hother : entry.1 ≠ sid := by simpa using hother
        rcases hlive entry hmem with ⟨hmem, -⟩ | rfl
        · exact hothers entry hmem hother
        · exact absurd rfl hother
      · intro entry hentry
        rw [hended'] at hentry
        rcases mem_append.mp hentry with hearlier | hlast
        · exact hended entry hearlier
        · obtain ⟨subscriber, hsubscriber, rfl⟩ := map_eq_some_iff.mp (mem_toList.mp hlast)
          rcases hlive _ (mem_of_get? hsubscriber) with ⟨-, hother⟩ | heq
          · exact absurd rfl hother
          · cases heq
            rw [hsame.history]
            exact hfollows
    · next hfits =>
      refine ⟨hregistered.same hsame hnodup ?_ hended, hsame.history⟩
      intro entry hentry
      rcases hlive entry hentry with ⟨hmem, hother⟩ | rfl
      · exact hothers entry hmem hother
      · exact hreflects (Bool.eq_false_of_not_eq_true hfits)

/-! ## Restart -/

theorem Streams.publishAttachEvent (h : Streams config screen lane)
    (hsilent : ∀ reading : Reading, reading.read event = reading) :
    Streams config screen (lane.publishAttachEvent config accepts present event) ∧
      SameOutput config lane (lane.publishAttachEvent config accepts present event) := by
  apply h.toMirrors.publishAttachEvent
    (P := fun subscriber => subscriber.reading.Reflects screen lane.history) h.live
  · exact fun _ hsubscriber => hsubscriber.follows
  · intro subscriber hsubscriber
    rw [hsilent]
    exact hsubscriber

theorem Streams.restart (h : Streams config screen lane) (uuid : String) :
    Streams config screen (lane.restart config accepts present uuid) ∧
      (lane.restart config accepts present uuid).history = [] := by
  unfold AttachLane.restart
  simp only []
  -- The clients that refuse the reset go with the output as it was before.
  obtain ⟨hsame, hnodup, hblank, hgone⟩ : SameOutput config (lane.beginGeneration uuid)
      ((lane.beginGeneration uuid).publishAttachEvent config accepts present
        (.reset uuid .epoch_changed)) ∧ _ ∧ _ ∧ _ :=
    offerAll_spec (P := fun subscriber => subscriber.reading.Reflects screen lane.history)
      (Q := fun subscriber => subscriber.reading = { base := none, snapshot := none, deltas := [] })
      (fun subscriber _ => subscriber.reading_take _)
      (lane.subscribers.map Prod.fst) h.nodup h.nodup (fun entry hentry => by
        have hmem : entry.1 ∈ lane.subscribers.map Prod.fst := mem_map.mpr ⟨entry, hentry, rfl⟩
        rw [if_pos hmem]
        exact h.live entry hentry)
  have hannounced : Mirrors config screen
      { (lane.beginGeneration uuid).publishAttachEvent config accepts present
          (.reset uuid .epoch_changed) with
        history := [] } := by
    refine ⟨?_, hnodup, ?_, lane.headlessTerminals.length, { parsed := [], queue := [] },
      ?_, ?_, rfl⟩
    · show (AttachLane.journalFor config (AttachLane.publishAttachEvent config accepts present _
        (lane.beginGeneration uuid))).Keeps []
      rw [hsame.journal]
      exact TerminalCursorJournal.keeps_empty _
    · intro entry hentry
      rcases hgone entry hentry with hearlier | ⟨hnow, houtput⟩
      · exact h.gone entry hearlier
      · rw [houtput]
        exact hnow.follows
    · exact hsame.headless
    · show (AttachLane.publishAttachEvent config accepts present _
        (lane.beginGeneration uuid)).headlessTerminals[_]? = _
      rw [hsame.headlessTerminals]
      exact getElem?_concat_length
  have hfirst : Streams config screen (AttachLane.publishAttachEvent config accepts present
      (.snapshot 0 []) _) ∧ SameOutput config _ _ :=
    hannounced.publishAttachEvent (P := fun subscriber =>
        subscriber.reading = { base := none, snapshot := none, deltas := [] })
      hblank
      (fun subscriber hsubscriber => .inl (by
        rw [hsubscriber]
        exact ⟨rfl, rfl⟩))
      (fun subscriber _ => Reading.reflects_empty screen subscriber.reading)
  have hsecond : Streams config screen (AttachLane.publishAttachEvent config accepts present
      (.metadata uuid .running) _) ∧ SameOutput config _ _ :=
    hfirst.1.publishAttachEvent fun _ => rfl
  have hthird : Streams config screen (AttachLane.publishAttachEvent config accepts present
      .replayComplete _) ∧ SameOutput config _ _ :=
    hsecond.1.publishAttachEvent fun _ => rfl
  exact ⟨hthird.1, ((hfirst.2.trans hsecond.2).trans hthird.2).history⟩

end AttachLane

end Laborer.Terminal
