import Laborer.Library.LineFrames

/-!
# The probes of a PTY host

How a client finds out whether the host that is registered is alive, asks it to stop, and
gets a host. Each of the three control requests goes over a connection of its own, on which
the host pushes its lifecycle events as well, and each has a reader of its own that looks at
the first line only.
-/

namespace Laborer.Terminal

open Library JsValue List Bool

/-! ## Messages -/

structure PtyHostHealth where
  epoch : String
  execPath : Option String
  version : String
deriving DecidableEq

inductive ControlResult where
  | health (health : PtyHostHealth)
  | accepted (empty : Bool)
  | stopping
deriving DecidableEq

/-- What a host sends on a connection without leases. -/
inductive PtyHostServerMessage where
  | response (requestId : String) (result : Except String ControlResult)
  | lifecycleEvent (event : JsValue)
deriving DecidableEq

/-- The result as it is sent; `undefined` is left out. -/
def ControlResult.entries : ControlResult → List (String × JsValue)
  | .health found =>
    [("result", .obj ([("epoch", .str found.epoch)] ++
      (found.execPath.map fun execPath => ("execPath", JsValue.str execPath)).toList ++
      [("version", .str found.version)]))]
  | .accepted empty => [("result", .bool empty)]
  | .stopping => []

namespace PtyHostServerMessage

/-- The object that `send` writes. -/
def toJs : PtyHostServerMessage → JsValue
  | response requestId (.ok result) =>
    .obj ([("type", .str "response"), ("requestId", .str requestId)] ++ result.entries)
  | response requestId (.error message) =>
    .obj
      [("type", .str "response"), ("requestId", .str requestId),
        ("error", .obj [("message", .str message)])]
  | lifecycleEvent event => .obj [("type", .str "lifecycle-event"), ("event", event)]

def result? : PtyHostServerMessage → Option ControlResult
  | response _ (.ok result) => some result
  | _ => none

/-- `message.error?.message`. -/
def error? : PtyHostServerMessage → Option String
  | response _ (.error message) => some message
  | _ => none

end PtyHostServerMessage

structure PtyHostRegistration where
  pid : ℕ
  startedAt : String
  version : String
  epoch : String
  socketPath : String
deriving DecidableEq

def maxProtocolFrameBytes : ℕ := 1024 * 1024

/-! ## The readers -/

/-- What came of a connection within the time limit: the chunks of its data, or nothing, as
it was refused. -/
abbrev Received := Option (List (List Char))

/-- The buffer a reader decides on. -/
inductive FirstBuffer where
  | refused
  | timedOut
  | tooLarge
  | received (buffer : List Char)

/-- Chunks are put together until there is a newline among them. -/
def awaitNewline (tooLarge : List Char → Bool) : List Char → List (List Char) → FirstBuffer
  | _, [] => .timedOut
  | buffer, chunk :: chunks =>
    let buffer := buffer ++ chunk
    if tooLarge buffer then .tooLarge
    else if buffer.contains '\n' then .received buffer
    else awaitNewline tooLarge buffer chunks

def readBuffer (tooLarge : List Char → Bool) : Received → FirstBuffer
  | none => .refused
  | some chunks => awaitNewline tooLarge [] chunks

def firstLine (buffer : List Char) : List Char := buffer.takeWhile (· != '\n')

def exceedsFrame (buffer : List Char) : Bool := decide (maxProtocolFrameBytes < byteLength buffer)

variable (parse : List Char → Option PtyHostServerMessage)

def shouldReplaceDevHostRuntime (devWatch : Bool) (expectedExecPath : String)
    (hostExecPath : Option String) : Bool :=
  devWatch && hostExecPath != some expectedExecPath

/-- The health in a line, if it is that of the host that registered. -/
def healthOf (registration : PtyHostRegistration) (line : List Char) : Option PtyHostHealth :=
  match (parse line).bind PtyHostServerMessage.result? with
  | some (.health health) =>
    if health.epoch = registration.epoch ∧ health.version = registration.version then some health
    else none
  | _ => none

def readHostHealth (registration : PtyHostRegistration) (received : Received) :
    Option PtyHostHealth :=
  match readBuffer exceedsFrame received with
  | .received buffer => healthOf parse registration (firstLine buffer)
  | _ => none

def probeHealth (registration : PtyHostRegistration) (received : Received) : Bool :=
  (readHostHealth parse registration received).isSome

/-- The buffer with which the request is taken as answered is kept for the statements. -/
def requestHostShutdown (received : Received) : Except String (List Char) :=
  match readBuffer (fun _ => false) received with
  | .received buffer => .ok buffer
  | .refused => .error "connect failed"
  | _ => .error "Timed out waiting for PTY host shutdown response"

def acceptedBy (line : List Char) : Except String Bool :=
  match parse line with
  | none => .error "PTY host sent an invalid shutdown response"
  | some (.response requestId (.ok (.accepted empty))) =>
    if requestId = "shutdown-if-empty" then .ok empty
    else .error "PTY host does not support conditional shutdown"
  | some message =>
    .error (message.error?.getD "PTY host does not support conditional shutdown")

def requestHostShutdownIfEmpty (received : Received) : Except String Bool :=
  match readBuffer exceedsFrame received with
  | .received buffer => acceptedBy parse (firstLine buffer)
  | .tooLarge => .error "PTY host protocol frame exceeded limit"
  | .refused => .error "connect failed"
  | .timedOut => .error "Timed out waiting for PTY host shutdown response"

/-! ## Getting a host -/

/-- One look for a host: the registration that is read, whether its process exists, and what
came of the health probe. -/
structure Look where
  registration : Option PtyHostRegistration
  processExists : Bool
  health : Received

def findHealthyRegistration (readRegistration : Look → Option PtyHostRegistration) (look : Look) :
    Option PtyHostRegistration :=
  (readRegistration look).filter fun registration =>
    look.processExists && probeHealth parse registration look.health

/-- How `ensure` ends. `none` is a timeout, and whether a process was spawned is kept. -/
structure Ensured where
  registration : Option PtyHostRegistration
  spawned : Bool
deriving DecidableEq

/-- `ensure` with the policy `adopt`: one look, then a new process and further looks up to
the deadline. -/
def ensure (readRegistration : Look → Option PtyHostRegistration) (look : Look)
    (polls : List Look) : Ensured :=
  match findHealthyRegistration parse readRegistration look with
  | some incumbent => { registration := some incumbent, spawned := false }
  | none =>
    { registration := polls.findSome? (findHealthyRegistration parse readRegistration)
      spawned := true }

structure ClientRuntime where
  expectedVersion : String
  devWatch : Bool
  execPath : String

structure Findings where
  incumbent : Look
  shutdownIfEmpty : Received
  again : Look
  polls : List Look

/-- How `ensurePtyHost` ends, with the answer to `shutdownIfEmpty` it has acted on. -/
structure EnsuredPtyHost where
  ensured : Ensured
  shutdownAccepted : Option Bool

/-- Only a registration of the version that is expected is looked at. -/
def ensureExpected (runtime : ClientRuntime) (findings : Findings) : Ensured :=
  ensure parse (fun look => look.registration.filter fun registration =>
    registration.version = runtime.expectedVersion) findings.again findings.polls

def ensurePtyHost (runtime : ClientRuntime) (findings : Findings) : EnsuredPtyHost :=
  let fallback := ensureExpected parse runtime findings
  match findings.incumbent.registration with
  | none => { ensured := fallback, shutdownAccepted := none }
  | some incumbent =>
    let adopted : Ensured := { registration := some incumbent, spawned := false }
    if findings.incumbent.processExists then
      match readHostHealth parse incumbent findings.incumbent.health with
      | none => { ensured := fallback, shutdownAccepted := none }
      | some health =>
        if shouldReplaceDevHostRuntime runtime.devWatch runtime.execPath health.execPath then
          match requestHostShutdownIfEmpty parse findings.shutdownIfEmpty with
          | .ok true => { ensured := fallback, shutdownAccepted := some true }
          | _ => { ensured := adopted, shutdownAccepted := some false }
        else { ensured := adopted, shutdownAccepted := none }
    else { ensured := fallback, shutdownAccepted := none }

/-! ## Up to the first newline -/

/-- The data received when the first newline comes. -/
def untilNewline : List Char → List (List Char) → List Char
  | buffer, [] => buffer
  | buffer, chunk :: chunks =>
    if (buffer ++ chunk).contains '\n' then buffer ++ chunk
    else untilNewline (buffer ++ chunk) chunks

theorem untilNewline_prefix (buffer : List Char) (chunks : List (List Char)) :
    untilNewline buffer chunks <+: buffer ++ chunks.flatten := by
  induction chunks generalizing buffer with
  | nil => rw [flatten_nil, append_nil]; exact prefix_refl _
  | cons chunk chunks ih =>
    rw [untilNewline, flatten_cons, ← append_assoc]
    split
    · exact prefix_append _ _
    · exact ih (buffer ++ chunk)

theorem prefix_untilNewline (buffer : List Char) (chunks : List (List Char)) :
    buffer <+: untilNewline buffer chunks := by
  induction chunks generalizing buffer with
  | nil => exact prefix_refl _
  | cons chunk chunks ih =>
    rw [untilNewline]
    split
    · exact prefix_append _ _
    · exact (prefix_append buffer chunk).trans (ih (buffer ++ chunk))

theorem newline_mem_untilNewline {buffer : List Char} {chunks : List (List Char)}
    (hbuffer : '\n' ∉ buffer) (h : '\n' ∈ buffer ++ chunks.flatten) :
    '\n' ∈ untilNewline buffer chunks := by
  induction chunks generalizing buffer with
  | nil =>
    rw [flatten_nil, append_nil] at h
    exact absurd h hbuffer
  | cons chunk chunks ih =>
    rw [flatten_cons, ← append_assoc] at h
    rw [untilNewline]
    split
    · next hnewline => exact contains_iff_mem.mp hnewline
    · next hnone =>
      rw [contains_iff_mem] at hnone
      exact ih hnone h

theorem awaitNewline_eq {tooLarge : List Char → Bool}
    (hmono : ∀ text more, text <+: more → tooLarge text = true → tooLarge more = true)
    {buffer : List Char} {chunks : List (List Char)} (hbuffer : '\n' ∉ buffer)
    (h : '\n' ∈ buffer ++ chunks.flatten) :
    awaitNewline tooLarge buffer chunks =
      if tooLarge (untilNewline buffer chunks) then .tooLarge
      else .received (untilNewline buffer chunks) := by
  induction chunks generalizing buffer with
  | nil =>
    rw [flatten_nil, append_nil] at h
    exact absurd h hbuffer
  | cons chunk chunks ih =>
    rw [flatten_cons, ← append_assoc] at h
    rw [awaitNewline, untilNewline]
    by_cases hnewline : (buffer ++ chunk).contains '\n' = true
    · simp only [hnewline, if_true]
    · have hnone : '\n' ∉ buffer ++ chunk := by rwa [contains_iff_mem] at hnewline
      simp only [hnewline, if_false, false_eq_true]
      rw [ih hnone h]
      -- what is too large already stays so
      by_cases hlarge : tooLarge (buffer ++ chunk) = true
      · rw [if_pos hlarge, if_pos]
        exact hmono _ _ (prefix_untilNewline _ _) hlarge
      · rw [if_neg hlarge]

theorem firstLine_of_starts {buffer text : List Char} (h : buffer <+: text)
    (hnewline : '\n' ∈ buffer) : firstLine buffer = firstLine text := by
  obtain ⟨line, rest, rfl, hline⟩ := eq_append_cons_of_mem hnewline
  obtain ⟨more, rfl⟩ := h
  have hall : ∀ c ∈ line, (c != '\n') = true := by
    intro c hc
    rw [bne_iff_ne]
    rintro rfl
    exact hline hc
  rw [firstLine, firstLine, append_assoc, takeWhile_append_of_pos hall,
    takeWhile_append_of_pos hall]
  rfl

theorem firstLine_unlines {line : List Char} (h : '\n' ∉ line) (lines : List (List Char)) :
    firstLine (unlines (line :: lines)) = line := by
  have hall : ∀ c ∈ line, (c != '\n') = true := by
    intro c hc
    rw [bne_iff_ne]
    rintro rfl
    exact h hc
  rw [firstLine, unlines_cons, takeWhile_append_of_pos hall]
  exact append_nil line

/-! ## A host that answers -/

/-- A message is one line and is read back. -/
structure Framed (parse : List Char → Option PtyHostServerMessage)
    (line : PtyHostServerMessage → List Char) (message : PtyHostServerMessage) : Prop where
  reads : parse (line message) = some message
  oneLine : '\n' ∉ line message

/-- An answer among the lifecycle events that are pushed to every connection. -/
def interleaved (before : List JsValue) (answer : PtyHostServerMessage) (after : List JsValue) :
    List PtyHostServerMessage :=
  before.map .lifecycleEvent ++ answer :: after.map .lifecycleEvent

/-- A connection to a live host: its one answer among the events, written as lines and cut
into chunks anywhere. -/
structure Exchange (parse : List Char → Option PtyHostServerMessage)
    (line : PtyHostServerMessage → List Char) (answer : PtyHostServerMessage) where
  before : List JsValue
  after : List JsValue
  chunks : List (List Char)
  framed : ∀ message ∈ interleaved before answer after, Framed parse line message
  cut : chunks.flatten = unlines ((interleaved before answer after).map line)

namespace Exchange

variable {parse} {line : PtyHostServerMessage → List Char} {answer : PtyHostServerMessage}
variable (exchange : Exchange parse line answer)

def firstBuffer : List Char := untilNewline [] exchange.chunks

/-- The answer comes before any event, and not more with it than a frame may have. -/
def AnswerFirst : Prop :=
  exchange.before = [] ∧ byteLength exchange.firstBuffer ≤ maxProtocolFrameBytes

instance : Decidable exchange.AnswerFirst := inferInstanceAs (Decidable (_ ∧ _))

def answered : List Char :=
  unlines ((exchange.before.map fun event => line (.lifecycleEvent event)) ++ [line answer])

def first : PtyHostServerMessage := (exchange.before.head?.map .lifecycleEvent).getD answer

theorem interleaved_eq_first_cons :
    ∃ rest, interleaved exchange.before answer exchange.after = exchange.first :: rest := by
  rw [interleaved, first]
  cases exchange.before with
  | nil => exact ⟨_, rfl⟩
  | cons event before => exact ⟨_, rfl⟩

theorem newline_mem : '\n' ∈ exchange.chunks.flatten := by
  obtain ⟨rest, hfirst⟩ := exchange.interleaved_eq_first_cons
  rw [exchange.cut, hfirst, map_cons, unlines_cons]
  simp

theorem firstBuffer_prefix : exchange.firstBuffer <+: exchange.chunks.flatten :=
  untilNewline_prefix [] exchange.chunks

/-- **The first line is the first message**, whatever the chunks are. -/
theorem parse_firstLine : parse (firstLine exchange.firstBuffer) = some exchange.first := by
  obtain ⟨rest, hfirst⟩ := exchange.interleaved_eq_first_cons
  have hframed := exchange.framed exchange.first (by rw [hfirst]; exact mem_cons_self)
  have hnewline : '\n' ∈ exchange.firstBuffer :=
    newline_mem_untilNewline not_mem_nil exchange.newline_mem
  rw [firstLine_of_starts exchange.firstBuffer_prefix hnewline, exchange.cut, hfirst,
    map_cons, firstLine_unlines hframed.oneLine]
  exact hframed.reads

theorem readBuffer_exceedsFrame :
    readBuffer exceedsFrame (some exchange.chunks) =
      if byteLength exchange.firstBuffer ≤ maxProtocolFrameBytes then
        .received exchange.firstBuffer
      else .tooLarge := by
  have hmono : ∀ text more, text <+: more → exceedsFrame text = true →
      exceedsFrame more = true := by
    intro text more hprefix hexceeds
    have hle := byteLength_le_of_starts hprefix
    exact decide_eq_true ((of_decide_eq_true hexceeds).trans_le hle)
  have hread := awaitNewline_eq hmono not_mem_nil exchange.newline_mem
  rw [readBuffer, hread, firstBuffer]
  by_cases hfits : byteLength (untilNewline [] exchange.chunks) ≤ maxProtocolFrameBytes
  · rw [if_pos hfits, if_neg]
    simpa [exceedsFrame] using hfits
  · rw [if_neg hfits, if_pos]
    simpa [exceedsFrame] using hfits

theorem readBuffer_unlimited :
    readBuffer (fun _ => false) (some exchange.chunks) = .received exchange.firstBuffer := by
  have hmono : ∀ text more : List Char, text <+: more → (fun _ => false) text = true →
      (fun _ => false) more = true := fun _ _ _ h => h
  have hread := awaitNewline_eq hmono not_mem_nil exchange.newline_mem
  rw [readBuffer, hread, if_neg Bool.false_ne_true, firstBuffer]

theorem answered_prefix : exchange.answered <+: exchange.chunks.flatten := by
  rw [exchange.cut, answered, interleaved]
  refine ⟨unlines ((exchange.after.map PtyHostServerMessage.lifecycleEvent).map line), ?_⟩
  simp only [unlines, map_append, map_map, map_cons, flatMap_append,
    flatMap_cons, append_assoc, flatMap_nil, append_nil]
  rfl

theorem first_of_before_nil (h : exchange.before = []) : exchange.first = answer := by
  rw [first, h]
  rfl

theorem first_of_before_ne_nil (h : exchange.before ≠ []) :
    ∃ event, exchange.first = .lifecycleEvent event := by
  rw [first]
  cases hbefore : exchange.before with
  | nil => exact absurd hbefore h
  | cons event before => exact ⟨event, rfl⟩

end Exchange

section Readers

variable {parse} {line : PtyHostServerMessage → List Char}
variable {registration : PtyHostRegistration} {requestId : String}

def PtyHostRegistration.health (registration : PtyHostRegistration) (execPath : Option String) :
    PtyHostHealth :=
  { epoch := registration.epoch, execPath := execPath, version := registration.version }

theorem readHostHealth_exchange {execPath : Option String} (exchange : Exchange parse line
      (.response requestId (.ok (.health (registration.health execPath))))) :
    readHostHealth parse registration (some exchange.chunks) =
      if exchange.AnswerFirst then some (registration.health execPath) else none := by
  rw [readHostHealth, exchange.readBuffer_exceedsFrame]
  by_cases hfits : byteLength exchange.firstBuffer ≤ maxProtocolFrameBytes
  · simp only [if_pos hfits, healthOf, exchange.parse_firstLine]
    by_cases hbefore : exchange.before = []
    · rw [if_pos ⟨hbefore, hfits⟩, exchange.first_of_before_nil hbefore]
      exact if_pos ⟨rfl, rfl⟩
    · obtain ⟨event, hevent⟩ := exchange.first_of_before_ne_nil hbefore
      rw [if_neg fun hanswer => hbefore hanswer.1, hevent]
      rfl
  · rw [if_neg hfits, if_neg fun hanswer => hfits hanswer.2]

/-- The answer to `shutdownIfEmpty`: a host of another version may not know the request. -/
def conditionalAnswer (reply : Except String Bool) : PtyHostServerMessage :=
  .response "shutdown-if-empty" (reply.map .accepted)

/-- What the host said, if it could say anything. -/
def acceptedReply : Except String Bool → Bool
  | .ok empty => empty
  | .error _ => false

/-- An answer that does not come first is read as a refusal. -/
theorem requestHostShutdownIfEmpty_exchange {reply : Except String Bool}
    (exchange : Exchange parse line (conditionalAnswer reply)) :
    requestHostShutdownIfEmpty parse (some exchange.chunks) = .ok true ↔
      exchange.AnswerFirst ∧ acceptedReply reply = true := by
  rw [requestHostShutdownIfEmpty, exchange.readBuffer_exceedsFrame]
  by_cases hfits : byteLength exchange.firstBuffer ≤ maxProtocolFrameBytes
  · simp only [if_pos hfits, acceptedBy, exchange.parse_firstLine]
    by_cases hbefore : exchange.before = []
    · rw [exchange.first_of_before_nil hbefore]
      have hanswer : exchange.AnswerFirst := ⟨hbefore, hfits⟩
      cases reply with
      | ok empty =>
        simp only [conditionalAnswer, Except.map, if_true, acceptedReply, Except.ok.injEq]
        exact ⟨fun hempty => ⟨hanswer, hempty⟩, fun h => h.2⟩
      | error message => simp [conditionalAnswer, Except.map, acceptedReply]
    · obtain ⟨event, hevent⟩ := exchange.first_of_before_ne_nil hbefore
      simp [hevent, Exchange.AnswerFirst, hbefore]
  · simp [Exchange.AnswerFirst, hfits]

theorem requestHostShutdown_exchange {answer : PtyHostServerMessage}
    (exchange : Exchange parse line answer) :
    requestHostShutdown (some exchange.chunks) = .ok exchange.firstBuffer := by
  rw [requestHostShutdown, exchange.readBuffer_unlimited]

end Readers

/-- A registered host that is alive and answers every request within the time limit: what it
answers, and a connection for each request a client may make. -/
structure LiveHost (parse : List Char → Option PtyHostServerMessage)
    (line : PtyHostServerMessage → List Char) where
  registration : PtyHostRegistration
  execPath : Option String
  reply : Except String Bool
  probe : Exchange parse line
    (.response "health" (.ok (.health (registration.health execPath))))
  conditional : Exchange parse line (conditionalAnswer reply)
  secondProbe : Exchange parse line
    (.response "health" (.ok (.health (registration.health execPath))))
  stop : Exchange parse line (.response "shutdown" (.ok .stopping))

namespace LiveHost

variable {parse} {line : PtyHostServerMessage → List Char} (host : LiveHost parse line)
variable (runtime : ClientRuntime)

/-- What a client finds: the registration stays, and the process is there. -/
def findings (polls : List Look) : Findings where
  incumbent :=
    { registration := some host.registration
      processExists := true
      health := some host.probe.chunks }
  shutdownIfEmpty := some host.conditional.chunks
  again :=
    { registration := some host.registration
      processExists := true
      health := some host.secondProbe.chunks }
  polls := polls

/-- A development client would have the host run under its own executable. -/
def stale : Bool := shouldReplaceDevHostRuntime runtime.devWatch runtime.execPath host.execPath

/-- The host is adopted and no other one is spawned. -/
def adopted : Ensured := { registration := some host.registration, spawned := false }

/-- The second look adopts the host exactly if it has the version and its answer comes
first. -/
theorem ensureExpected_eq_adopted_iff (polls : List Look) :
    ensureExpected parse runtime (host.findings polls) = host.adopted ↔
      host.registration.version = runtime.expectedVersion ∧ host.secondProbe.AnswerFirst := by
  unfold ensureExpected ensure findHealthyRegistration
  by_cases hversion : host.registration.version = runtime.expectedVersion
  · by_cases hanswer : host.secondProbe.AnswerFirst
    · simp [findings, Option.filter, hversion, probeHealth, readHostHealth_exchange, hanswer,
        adopted]
    · simp [findings, Option.filter, hversion, probeHealth, readHostHealth_exchange, hanswer,
        adopted]
  · simp [findings, Option.filter, hversion, adopted]

/-- A client that finds a live host adopts it, unless it acts on the host's word that it
stops. -/
structure Kept (result : EnsuredPtyHost) : Prop where
  actsOnAnswer : ∀ accepted, result.shutdownAccepted = some accepted →
    accepted = acceptedReply host.reply
  adopts : result.shutdownAccepted ≠ some true → result.ensured = host.adopted

/-- The answer that decides comes first on its connection. -/
def AnswersFirst : Prop :=
  if host.probe.AnswerFirst then
    host.stale runtime = true → acceptedReply host.reply = true → host.conditional.AnswerFirst
  else
    host.registration.version = runtime.expectedVersion ∧ host.secondProbe.AnswerFirst

theorem ensurePtyHost_of_missed (polls : List Look) (h : ¬host.probe.AnswerFirst) :
    ensurePtyHost parse runtime (host.findings polls) =
      { ensured := ensureExpected parse runtime (host.findings polls),
        shutdownAccepted := none } := by
  have hprobe := readHostHealth_exchange host.probe
  rw [if_neg h] at hprobe
  simp only [ensurePtyHost, findings, if_true, hprobe]

theorem ensurePtyHost_of_current (polls : List Look) (h : host.probe.AnswerFirst)
    (hstale : host.stale runtime = false) : ensurePtyHost parse runtime (host.findings polls) =
      { ensured := host.adopted, shutdownAccepted := none } := by
  have hprobe := readHostHealth_exchange host.probe
  rw [if_pos h] at hprobe
  rw [stale] at hstale
  simp only [ensurePtyHost, findings, if_true, hprobe, PtyHostRegistration.health, hstale,
    false_eq_true, if_false, adopted]

theorem ensurePtyHost_of_accepted (polls : List Look) (h : host.probe.AnswerFirst)
    (hstale : host.stale runtime = true)
    (hasked : requestHostShutdownIfEmpty parse (some host.conditional.chunks) = .ok true) :
    ensurePtyHost parse runtime (host.findings polls) =
      { ensured := ensureExpected parse runtime (host.findings polls)
        shutdownAccepted := some true } := by
  have hprobe := readHostHealth_exchange host.probe
  rw [if_pos h] at hprobe
  rw [stale] at hstale
  simp only [ensurePtyHost, findings, if_true, hprobe, PtyHostRegistration.health, hstale, hasked]

theorem ensurePtyHost_of_refused (polls : List Look) (h : host.probe.AnswerFirst)
    (hstale : host.stale runtime = true)
    (hasked : requestHostShutdownIfEmpty parse (some host.conditional.chunks) ≠ .ok true) :
    ensurePtyHost parse runtime (host.findings polls) =
      { ensured := host.adopted, shutdownAccepted := some false } := by
  have hprobe := readHostHealth_exchange host.probe
  rw [if_pos h] at hprobe
  rw [stale] at hstale
  simp only [ensurePtyHost, findings, if_true, hprobe, PtyHostRegistration.health, hstale, adopted]

/-- A live host is kept exactly if the answers that decide come first. -/
theorem kept_ensurePtyHost_iff (polls : List Look) :
    host.Kept (ensurePtyHost parse runtime (host.findings polls)) ↔ host.AnswersFirst runtime := by
  by_cases hprobe : host.probe.AnswerFirst
  · rw [AnswersFirst, if_pos hprobe]
    cases hstale : host.stale runtime with
    | false =>
      rw [host.ensurePtyHost_of_current runtime polls hprobe hstale]
      refine ⟨fun _ h => absurd h false_ne_true, fun _ => ⟨fun _ h => ?_, fun _ => rfl⟩⟩
      cases h
    | true =>
      have hreply := requestHostShutdownIfEmpty_exchange host.conditional
      by_cases hasked : requestHostShutdownIfEmpty parse (some host.conditional.chunks) = .ok true
      · have hfirst := hreply.mp hasked
        rw [host.ensurePtyHost_of_accepted runtime polls hprobe hstale hasked]
        refine ⟨fun _ _ _ => hfirst.1, fun _ => ⟨fun accepted h => ?_, fun h => absurd rfl h⟩⟩
        rw [hfirst.2]
        exact (Option.some.inj h).symm
      · rw [host.ensurePtyHost_of_refused runtime polls hprobe hstale hasked]
        constructor
        · intro hkept _ haccepted
          have hfalse := hkept.actsOnAnswer false rfl
          exact absurd (hfalse.trans haccepted) false_ne_true
        · intro hfirst
          refine ⟨fun accepted h => ?_, fun _ => rfl⟩
          cases haccepted : acceptedReply host.reply with
          | false => exact (Option.some.inj h).symm
          | true => exact absurd (hreply.mpr ⟨hfirst rfl haccepted, haccepted⟩) hasked
  · rw [AnswersFirst, if_neg hprobe, host.ensurePtyHost_of_missed runtime polls hprobe,
      ← host.ensureExpected_eq_adopted_iff runtime polls]
    refine ⟨fun hkept => hkept.adopts (by simp), fun h => ⟨fun _ hnone => ?_, fun _ => h⟩⟩
    cases hnone

/-- The first newline comes with the whole answer. -/
def AnsweredAtFirst : Prop := host.stop.answered.length ≤ host.stop.firstBuffer.length

/-- A shutdown request is taken as answered only with the answer at hand. -/
def ShutdownAnswered : Prop :=
  ∀ buffer, requestHostShutdown (some host.stop.chunks) = .ok buffer → host.stop.answered <+: buffer

theorem shutdownAnswered_iff : host.ShutdownAnswered ↔ host.AnsweredAtFirst := by
  have hread := requestHostShutdown_exchange host.stop
  constructor
  · intro hanswered
    exact (hanswered _ hread).length_le
  · intro hfirst buffer hbuffer
    rw [hread] at hbuffer
    rw [← Except.ok.inj hbuffer]
    exact prefix_of_prefix_length_le host.stop.answered_prefix host.stop.firstBuffer_prefix hfirst

end LiveHost

/-- **A live host is recognised exactly if its answers come before its events.** It is adopted
and its word acted on if the deciding answer is the first line of its connection, with no more
than a frame of data, and a shutdown is answered rightly if the answer comes with the first
newline. -/
theorem liveHost_recognised_iff {parse : List Char → Option PtyHostServerMessage}
    {line : PtyHostServerMessage → List Char} (host : LiveHost parse line)
    (runtime : ClientRuntime) (polls : List Look) :
    host.Kept (ensurePtyHost parse runtime (host.findings polls)) ∧ host.ShutdownAnswered ↔
      host.AnswersFirst runtime ∧ host.AnsweredAtFirst :=
  and_congr (host.kept_ensurePtyHost_iff runtime polls) host.shutdownAnswered_iff

/-! ### A busy host of another version -/

def statusChanged : JsValue :=
  .obj [("_tag", .str "StatusChanged"), ("id", .str "t1"), ("status", .str "stopped")]

def busyRegistration : PtyHostRegistration where
  pid := 4100
  startedAt := "2026-01-01T00:00:00.000Z"
  version := "1"
  epoch := "e1"
  socketPath := "/tmp/pty.sock"

def busyExecPath : Option String := some "/usr/bin/node"

def busyHealth : PtyHostServerMessage :=
  .response "health" (.ok (.health (busyRegistration.health busyExecPath)))

def busyMessages : List PtyHostServerMessage :=
  [.lifecycleEvent statusChanged, busyHealth, conditionalAnswer (.ok false),
    .response "shutdown" (.ok .stopping)]

def busyLine (message : PtyHostServerMessage) : List Char :=
  stringify (fun _ => []) message.toJs

def busyParse (line : List Char) : Option PtyHostServerMessage :=
  busyMessages.find? fun message => busyLine message == line

theorem framed_busy {message : PtyHostServerMessage} (h : message ∈ busyMessages) :
    Framed busyParse busyLine message := by
  have hall : busyMessages.all (fun message =>
      decide (busyParse (busyLine message) = some message) &&
        !(busyLine message).contains '\n') = true := by decide
  have hmessage := all_eq_true.mp hall message h
  simp only [and_eq_true, decide_eq_true_eq, not_eq_true', contains_eq_mem,
    decide_eq_false_iff_not] at hmessage
  exact ⟨hmessage.1, hmessage.2⟩

def busyExchange (before : List JsValue) (answer : PtyHostServerMessage)
    (h : ∀ message ∈ interleaved before answer [], message ∈ busyMessages) :
    Exchange busyParse busyLine answer where
  before := before
  after := []
  chunks := (interleaved before answer []).map fun message => busyLine message ++ ['\n']
  framed := fun message hmessage => framed_busy (h message hmessage)
  cut := by rw [unlines, List.flatMap_map, List.flatMap_def]

/-- The host has version `1`; an event is pushed before it answers the first probe. -/
def busyHost : LiveHost busyParse busyLine where
  registration := busyRegistration
  execPath := busyExecPath
  reply := .ok false
  probe := busyExchange [statusChanged] busyHealth (by decide)
  conditional := busyExchange [] (conditionalAnswer (.ok false)) (by decide)
  secondProbe := busyExchange [] busyHealth (by decide)
  stop := busyExchange [] (.response "shutdown" (.ok .stopping)) (by decide)

/-- A client of version `2` spawns another host, as if this one were dead. -/
theorem busyHost_not_recognised : ¬(busyHost.Kept (ensurePtyHost busyParse
        { expectedVersion := "2", devWatch := false, execPath := "/usr/bin/node" }
        (busyHost.findings [])) ∧ busyHost.ShutdownAnswered) := by
  intro h
  have hadopted := h.1.adopts (by decide)
  exact absurd hadopted (by decide)

end Laborer.Terminal
