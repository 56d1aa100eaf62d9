import Laborer.Terminal.AckRuns
import Laborer.Terminal.AttachLeases
import Laborer.Terminal.HostProbes

/-!
# The connections of a PTY host

A proxy writes its requests as lines on one socket. The host cuts them out of the chunks it
gets, runs them one after the other in a lane that outlives the socket, and keeps the leases
of its attaches until the connection closes. The proxy reads the host's messages likewise.
-/

namespace Laborer.Terminal

open Library JsValue List Option OrderedMap Bool

/-! ## Requests -/

/-- A method, with the arguments that decide about leases and about the end of the host. -/
inductive PtyHostCall where
  | attach (terminalId : String) (options : AttachOptions) (leaseId : Option String)
  | unsubscribe (terminalId subscriberId : String)
  | spawn
  | restart
  | shutdown
  | shutdownIfEmpty
  | other (method : String)

structure PtyHostRequest where
  requestId : String
  call : PtyHostCall

inductive Reply where
  | subscriber (subscriberId : String)
  | empty (empty : Bool)
  | done
deriving DecidableEq

abbrev Outcome := Except String Reply

structure PtyHostResponse where
  requestId : String
  outcome : Outcome

/-! ## State -/

/-- One connection. The request that runs is no longer among those that wait; the ones that
have run are kept for the statements. -/
structure HostConnection where
  reader : LineReader PtyHostRequest
  waiting : List PtyHostRequest
  running : Option (PtyHostRequest × Outcome)
  attachLeases : OrderedMap String String
  writable : Bool
  closed : Bool
  completed : List PtyHostRequest
  sent : List PtyHostResponse

def HostConnection.initial : HostConnection where
  reader := .initial
  waiting := []
  running := none
  attachLeases := []
  writable := true
  closed := false
  completed := []
  sent := []

/-- The host: its connections by number, the attach lane of every terminal, the connection
that the subscriber of a lease writes to, and whether the host has agreed to stop. It dies
where the callback of a PTY throws. -/
structure PtyHost where
  connections : List HostConnection
  terminals : OrderedMap String AttachLane
  leaseSockets : OrderedMap (String × String) ℕ
  shutdownAccepted : Bool
  alive : Bool

structure Invocation where
  status : Option TerminalStatus
  epoch : String
  uuid : String
  outcome : Outcome

inductive TerminalChange where
  | output (data : Output)
  | exits (exitCode signal : ℤ)
  | restarts (uuid : String)
  | removed
  | parses (instanceId : ℕ)
  | acknowledged (leaseId : String) (cursor : ℕ)

inductive PtyHostEvent where
  | connects
  | data (connection : ℕ) (chunk : List Char)
  | ends (connection : ℕ)
  | closes (connection : ℕ)
  | begins (connection : ℕ) (invocation : Invocation)
  | completes (connection : ℕ)
  | changes (terminalId : String) (change : TerminalChange)

structure PtyHostInput where
  event : PtyHostEvent
  present : List String

namespace PtyHost

def initial : PtyHost where
  connections := []
  terminals := []
  leaseSockets := []
  shutdownAccepted := false
  alive := true

def lane (host : PtyHost) (terminalId : String) : AttachLane :=
  (host.terminals.get? terminalId).getD .initial

def setLane (terminalId : String) (lane : AttachLane) (host : PtyHost) : PtyHost :=
  { host with terminals := host.terminals.set terminalId lane }

def setConnection (number : ℕ) (connection : HostConnection) (host : PtyHost) : PtyHost :=
  { host with connections := host.connections.set number connection }

/-- `send`: a subscriber takes what its socket can still be written. -/
def takes (host : PtyHost) (terminalId : String) : Accepts := fun leaseId _ =>
  match host.leaseSockets.get? (terminalId, leaseId) with
  | none => true
  | some number => host.connections[number]?.any HostConnection.writable

variable (parse : List Char → Option PtyHostRequest) (config : TransportConfig) (screen : Screen)
variable (present : List String)

/-! ## The terminal manager -/

def unsubscribe (terminalId subscriberId : String) (host : PtyHost) : PtyHost :=
  host.setLane terminalId
    ((host.lane terminalId).removeAttachSubscriber config (present.contains terminalId)
      subscriberId)

/-- The subscriber of a lease that is free writes to the connection that asks. -/
def register (number : ℕ) (terminalId subscriberId : String) (host : PtyHost) : PtyHost :=
  if (host.lane terminalId).Holds subscriberId then host
  else
    { host with leaseSockets := host.leaseSockets.set (terminalId, subscriberId) number }

/-- How an attach ends. An event that is refused ends it before the snapshot is measured. -/
def attachOutcome (terminalId : String) (status : TerminalStatus) (options : AttachOptions)
    (epoch subscriberId : String) (host : PtyHost) : Outcome :=
  let lane := host.lane terminalId
  let events := lane.attachEvents config screen (lane.transportEpoch.getD epoch) status options
  if lane.Holds subscriberId then
    .error ("Terminal attach lease already exists: " ++ subscriberId)
  else if events.2 && events.1.all (host.takes terminalId subscriberId) then
    .error ("Terminal snapshot exceeds the " ++ toString config.snapshotBytes ++ "-byte bound")
  else .ok (.subscriber subscriberId)

def attach (number : ℕ) (terminalId : String) (options : AttachOptions) (leaseId : Option String)
    (invocation : Invocation) (host : PtyHost) : PtyHost × Outcome :=
  match invocation.status with
  | none => (host, .error ("Terminal not found: " ++ terminalId))
  | some status =>
    let subscriberId := leaseId.getD invocation.uuid
    let registered := host.register number terminalId subscriberId
    (registered.setLane terminalId
        ((registered.lane terminalId).attach config screen (registered.takes terminalId)
          (present.contains terminalId) invocation.epoch status options subscriberId),
      registered.attachOutcome config screen terminalId status options invocation.epoch
        subscriberId)

/-- What becomes of the lane of a terminal; `none` where the host dies. -/
def changeLane (terminalId : String) (change : TerminalChange) (host : PtyHost) :
    Option AttachLane :=
  let lane := host.lane terminalId
  let accepts := host.takes terminalId
  let present := present.contains terminalId
  match change with
  | .output data => lane.processOutput config accepts present data
  | .exits exitCode signal =>
    some (lane.publishAttachEvent config accepts present (.exit exitCode signal))
  | .restarts uuid => some (lane.restart config accepts present uuid)
  | .removed => some (lane.remove present)
  | .parses instanceId => some (lane.parseNext instanceId)
  | .acknowledged leaseId cursor => some (lane.acknowledge config present leaseId cursor)

def changes (terminalId : String) (change : TerminalChange) (host : PtyHost) : PtyHost :=
  match host.changeLane config present terminalId change with
  | none => { host with alive := false }
  | some lane => host.setLane terminalId lane

/-! ## The request lane -/

/-- A terminal is not made once the host has agreed to stop. -/
def gated (invocation : Invocation) (host : PtyHost) : Outcome :=
  if host.shutdownAccepted then .error "PTY host shutdown has already been accepted"
  else invocation.outcome

def invoke (number : ℕ) (request : PtyHostRequest) (invocation : Invocation) (host : PtyHost) :
    PtyHost × Outcome :=
  match request.call with
  | .attach terminalId options leaseId =>
    host.attach config screen present number terminalId options leaseId invocation
  | .unsubscribe terminalId subscriberId =>
    (host.unsubscribe config present terminalId subscriberId, .ok .done)
  | .spawn => (host, host.gated invocation)
  | .restart => (host, host.gated invocation)
  | .shutdown => (host, .ok .done)
  | .shutdownIfEmpty =>
    ({ host with
        shutdownAccepted :=
          host.shutdownAccepted || decide (invocation.outcome = .ok (.empty true)) },
      invocation.outcome)
  | .other _ => (host, invocation.outcome)

def begins (number : ℕ) (invocation : Invocation) (host : PtyHost) : PtyHost :=
  match host.connections[number]? with
  | none => host
  | some connection =>
    match connection.running, connection.waiting with
    | none, request :: waiting =>
      let invoked := host.invoke config screen present number request invocation
      invoked.1.setConnection number
        { connection with waiting := waiting, running := some (request, invoked.2) }
    | _, _ => host

/-- The leases of a connection when a request has run. -/
def recordLease (request : PtyHostRequest) (outcome : Outcome) (leases : OrderedMap String String) :
    OrderedMap String String :=
  match request.call, outcome with
  | .attach terminalId _ _, .ok (.subscriber subscriberId) => leases.set subscriberId terminalId
  | .unsubscribe _ subscriberId, .ok _ => leases.delete subscriberId
  | _, _ => leases

/-- The request that runs is answered, if the socket can still be written. -/
def complete (connection : HostConnection) : HostConnection :=
  match connection.running with
  | none => connection
  | some (request, outcome) =>
    { connection with
      running := none
      attachLeases := recordLease request outcome connection.attachLeases
      completed := connection.completed ++ [request]
      sent :=
        if connection.writable then
          connection.sent ++ [{ requestId := request.requestId, outcome := outcome }]
        else connection.sent }

/-! ## The socket -/

/-- A chunk arrives: its requests go to the lane, and a stream that is given up is destroyed. -/
def receive (chunk : List Char) (connection : HostConnection) : HostConnection :=
  if connection.writable then
    let reader := connection.reader.feed parse maxProtocolFrameBytes chunk
    { connection with
      reader := reader
      waiting := connection.waiting ++
        reader.reading.handled.drop connection.reader.reading.handled.length
      writable := !reader.reading.dropped }
  else connection

/-- The `close` event: the recorded leases are given up. -/
def closes (number : ℕ) (host : PtyHost) : PtyHost :=
  match host.connections[number]? with
  | none => host
  | some connection =>
    if connection.writable then host
    else
      let released := connection.attachLeases.foldl
        (fun host lease => host.unsubscribe config present lease.2 lease.1) host
      released.setConnection number { connection with closed := true, attachLeases := [] }

def changeConnection (number : ℕ) (change : HostConnection → HostConnection) (host : PtyHost) :
    PtyHost :=
  { host with connections := host.connections.modify number change }

def handle (input : PtyHostInput) (host : PtyHost) : PtyHost :=
  match input.event with
  | .connects => { host with connections := host.connections ++ [.initial] }
  | .data number chunk => host.changeConnection number (receive parse chunk)
  | .ends number =>
    host.changeConnection number fun connection => { connection with writable := false }
  | .closes number => host.closes config input.present number
  | .begins number invocation => host.begins config screen input.present number invocation
  | .completes number => host.changeConnection number complete
  | .changes terminalId change => host.changes config input.present terminalId change

end PtyHost

def ptyHostStep (parse : List Char → Option PtyHostRequest) (config : TransportConfig)
    (screen : Screen) (input : PtyHostInput) (host : PtyHost) : PtyHost :=
  if host.alive then host.handle parse config screen input else host

/-! ## Answers in order -/

namespace HostConnection

/-- The requests that were read are those that have run, the one that runs and those that
wait, in this order; each that has run was answered once while the socket could be written. -/
structure InOrder (connection : HostConnection) : Prop where
  lane : connection.reader.reading.handled =
    connection.completed ++ (connection.running.map Prod.fst).toList ++ connection.waiting
  sent : connection.sent.map PtyHostResponse.requestId <+:
    connection.completed.map PtyHostRequest.requestId
  answered : connection.writable = true →
    connection.sent.map PtyHostResponse.requestId =
      connection.completed.map PtyHostRequest.requestId
  closed : connection.closed = true → connection.writable = false

variable {connection : HostConnection}

theorem inOrder_initial : HostConnection.initial.InOrder :=
  ⟨rfl, prefix_refl _, fun _ => rfl, fun h => absurd h false_ne_true⟩

theorem InOrder.receive (h : connection.InOrder) (parse : List Char → Option PtyHostRequest)
    (chunk : List Char) : (PtyHost.receive parse chunk connection).InOrder := by
  unfold PtyHost.receive
  cases hwritable : connection.writable with
  | false => exact h
  | true =>
    obtain ⟨taken, htaken⟩ := connection.reader.handled_prefix_feed parse
      maxProtocolFrameBytes chunk
    refine ⟨?_, h.sent, fun _ => h.answered hwritable, fun hclosed => ?_⟩
    · rw [if_pos rfl]
      dsimp only
      rw [← htaken, drop_left, h.lane, append_assoc _ connection.waiting taken]
    · have hopen := h.closed hclosed
      rw [hwritable] at hopen
      cases hopen

theorem InOrder.complete (h : connection.InOrder) : (PtyHost.complete connection).InOrder := by
  unfold PtyHost.complete
  split
  · exact h
  · next request outcome hrunning =>
    have hlane := h.lane
    rw [hrunning] at hlane
    refine ⟨?_, ?_, fun hwritable => ?_, h.closed⟩
    · simpa using hlane
    · split
      · next hwritable =>
        rw [map_append, map_append, h.answered hwritable]
        exact prefix_refl _
      · rw [map_append]
        exact h.sent.trans (prefix_append _ _)
    · have hopen : connection.writable = true := hwritable
      simp only [hopen, if_true, map_append, h.answered hopen, map_cons, map_nil]

theorem InOrder.ends (h : connection.InOrder) :
    ({ connection with writable := false } : HostConnection).InOrder :=
  ⟨h.lane, h.sent, fun hopen => absurd hopen false_ne_true, fun _ => rfl⟩

theorem InOrder.begins (h : connection.InOrder) {request : PtyHostRequest}
    {waiting : List PtyHostRequest} (hrunning : connection.running = none)
    (hwaiting : connection.waiting = request :: waiting) (outcome : Outcome) :
    ({ connection with waiting := waiting, running := some (request, outcome) } :
      HostConnection).InOrder := by
  refine ⟨?_, h.sent, h.answered, h.closed⟩
  have hlane := h.lane
  rw [hrunning, hwaiting] at hlane
  simpa using hlane

theorem InOrder.closes (h : connection.InOrder) (hwritable : connection.writable = false) :
    ({ connection with closed := true, attachLeases := [] } : HostConnection).InOrder :=
  ⟨h.lane, h.sent, h.answered, fun _ => hwritable⟩

end HostConnection

namespace PtyHost

def Ordered (host : PtyHost) : Prop :=
  ∀ connection ∈ host.connections, connection.InOrder

variable {parse : List Char → Option PtyHostRequest} {config : TransportConfig} {screen : Screen}
variable {present : List String} {host : PtyHost} {leaseId tid : String} {number other : ℕ}

@[simp] theorem connections_setLane (tid : String) (lane : AttachLane) (host : PtyHost) :
    (host.setLane tid lane).connections = host.connections := rfl

@[simp] theorem connections_unsubscribe (tid sid : String) (host : PtyHost) :
    (host.unsubscribe config present tid sid).connections = host.connections := rfl

@[simp] theorem connections_register (number : ℕ) (tid sid : String) (host : PtyHost) :
    (host.register number tid sid).connections = host.connections := by
  unfold register
  split
  · rfl
  · rfl

theorem connections_invoke (number : ℕ) (request : PtyHostRequest) (invocation : Invocation)
    (host : PtyHost) : (host.invoke config screen present number request invocation).1.connections =
      host.connections := by
  unfold invoke
  split
  · unfold attach
    split
    · rfl
    · simp
  all_goals rfl

theorem connections_release (leases : OrderedMap String String) (host : PtyHost) :
    (leases.foldl (fun host lease => host.unsubscribe config present lease.2 lease.1)
      host).connections = host.connections := by
  induction leases generalizing host with
  | nil => rfl
  | cons lease leases ih => rw [foldl_cons, ih, connections_unsubscribe]

theorem connections_changes (tid : String) (change : TerminalChange) (host : PtyHost) :
    (host.changes config present tid change).connections = host.connections := by
  unfold changes
  split
  · rfl
  · rfl

theorem Ordered.changeConnection (h : host.Ordered) (number : ℕ)
    {change : HostConnection → HostConnection}
    (hchange : ∀ connection, connection.InOrder → (change connection).InOrder) :
    (host.changeConnection number change).Ordered := by
  intro connection hconnection
  obtain ⟨index, hindex⟩ := mem_iff_getElem?.mp hconnection
  rw [PtyHost.changeConnection, getElem?_modify] at hindex
  obtain ⟨earlier, hearlier, rfl⟩ := map_eq_some_iff.mp hindex
  have hordered := h earlier (mem_of_getElem? hearlier)
  split
  · exact hchange earlier hordered
  · exact hordered

theorem Ordered.setConnection {other : PtyHost} (h : host.Ordered)
    (hconnections : other.connections = host.connections) (number : ℕ)
    {connection : HostConnection} (hconnection : connection.InOrder) :
    (other.setConnection number connection).Ordered := by
  intro member hmember
  rw [PtyHost.setConnection, hconnections] at hmember
  rcases mem_or_eq_of_mem_set hmember with hmember | rfl
  · exact h member hmember
  · exact hconnection

theorem Ordered.handle (h : host.Ordered) (input : PtyHostInput) :
    (host.handle parse config screen input).Ordered := by
  unfold PtyHost.handle
  split
  · intro connection hconnection
    rcases mem_append.mp hconnection with hold | hnew
    · exact h connection hold
    · rw [mem_singleton.mp hnew]
      exact HostConnection.inOrder_initial
  · exact h.changeConnection _ fun connection hordered => hordered.receive parse _
  · exact h.changeConnection _ fun connection hordered => hordered.ends
  · next number _ =>
    unfold PtyHost.closes
    split
    · exact h
    · next connection hconnection =>
      have hordered := h connection (mem_of_getElem? hconnection)
      split
      · exact h
      · next hwritable =>
        exact h.setConnection (connections_release _ _) number
          (hordered.closes (eq_false_iff.mpr hwritable))
  · next number invocation _ =>
    unfold PtyHost.begins
    split
    · exact h
    · next connection hconnection =>
      have hordered := h connection (mem_of_getElem? hconnection)
      split
      · next request waiting hrunning hwaiting =>
        exact h.setConnection (connections_invoke number request invocation host) number
          (hordered.begins hrunning hwaiting _)
      · exact h
  · exact h.changeConnection _ fun connection hordered => hordered.complete
  · intro connection hconnection
    rw [connections_changes] at hconnection
    exact h connection hconnection

/-! ## Leases of a connection that is gone -/

/-- The connection can no longer be written, and its requests have all run. -/
def Idle (number : ℕ) (host : PtyHost) : Prop :=
  ∃ connection, host.connections[number]? = some connection ∧ connection.writable = false ∧
    connection.running = none ∧ connection.waiting = []

def LeasedTo (number : ℕ) (terminalId leaseId : String) (host : PtyHost) : Prop :=
  (host.lane terminalId).Holds leaseId ∧
    host.leaseSockets.get? (terminalId, leaseId) = some number

theorem lane_setLane (tid other : String) (lane : AttachLane) (host : PtyHost) :
    (host.setLane tid lane).lane other = if tid = other then lane else host.lane other := by
  unfold PtyHost.lane setLane
  rw [get?_set]
  split
  · rfl
  · rfl

theorem LeasedTo.of_setLane {other : String} {lane : AttachLane}
    (hlane : lane.Holds leaseId → (host.lane tid).Holds leaseId)
    (h : (host.setLane tid lane).LeasedTo number other leaseId) :
    host.LeasedTo number other leaseId := by
  refine ⟨?_, h.2⟩
  have hheld := h.1
  rw [lane_setLane] at hheld
  split at hheld
  · next heq =>
    rw [← heq]
    exact hlane hheld
  · exact hheld

theorem LeasedTo.of_unsubscribe {sid other : String}
    (h : (host.unsubscribe config present tid sid).LeasedTo number other leaseId) :
    host.LeasedTo number other leaseId :=
  h.of_setLane fun hheld =>
    ((AttachLane.holds_removeAttachSubscriber _ sid leaseId).mp hheld).1

theorem LeasedTo.of_release {leases : OrderedMap String String}
    (h : (leases.foldl (fun host lease => host.unsubscribe config present lease.2 lease.1)
      host).LeasedTo number tid leaseId) : host.LeasedTo number tid leaseId := by
  induction leases generalizing host with
  | nil => exact h
  | cons lease leases ih => exact (ih h).of_unsubscribe

theorem LeasedTo.of_attach (hother : other ≠ number)
    {asked : String} {options : AttachOptions} {lease : Option String} {invocation : Invocation}
    (h : (host.attach config screen present other asked options lease invocation).1.LeasedTo
      number tid leaseId) : host.LeasedTo number tid leaseId := by
  unfold attach at h
  split at h
  · exact h
  · next status _ =>
    dsimp only at h
    generalize hsubscriber : lease.getD invocation.uuid = sid at h
    by_cases hheld : (host.lane asked).Holds sid
    · rw [register, if_pos hheld] at h
      apply h.of_setLane
      intro hattached
      rcases AttachLane.holds_of_attach hattached with hbefore | rfl
      · exact hbefore
      · exact hheld
    · -- the lease was free, and is the other connection's now
      rw [register, if_neg hheld] at h
      have hsocket := h.2
      have hlane := h.1
      rw [lane_setLane] at hlane
      have hsockets : (host.leaseSockets.set (asked, sid) other).get?
          (tid, leaseId) = some number := hsocket
      rw [get?_set] at hsockets
      split at hsockets
      · exact absurd (some.inj hsockets) hother
      · next hdifferent =>
        refine ⟨?_, hsockets⟩
        split at hlane
        · next heq =>
          subst heq
          rcases AttachLane.holds_of_attach hlane with hbefore | heq
          · exact hbefore
          · exact absurd (by rw [heq]) hdifferent
        · exact hlane

theorem LeasedTo.of_invoke (hother : other ≠ number) {request : PtyHostRequest}
    {invocation : Invocation}
    (h : (host.invoke config screen present other request invocation).1.LeasedTo number tid
      leaseId) : host.LeasedTo number tid leaseId := by
  unfold invoke at h
  split at h
  · exact h.of_attach hother
  · exact h.of_unsubscribe
  all_goals exact h

theorem holds_of_changeLane {change : TerminalChange}
    {lane : AttachLane} (h : host.changeLane config present tid change = some lane)
    (hheld : lane.Holds leaseId) : (host.lane tid).Holds leaseId ∧
      ∀ data, change = .output data → data ≠ [] → ∃ event, host.takes tid leaseId event = true := by
  unfold changeLane at h
  cases change with (try obtain rfl := some.inj h)
  | output data =>
    by_cases hdata : data = []
    · subst hdata
      obtain ⟨chunks, hchunks, hprocessed⟩ := bind_eq_some_iff.mp h
      exact ⟨(AttachLane.holds_of_processChunks hprocessed hheld).1, fun _ heq hne =>
        absurd (TerminalChange.output.inj heq).symm hne⟩
    · have htaken := AttachLane.holds_of_processOutput hdata h hheld
      exact ⟨htaken.1, fun _ _ _ => htaken.2⟩
  | exits exitCode signal =>
    exact ⟨((AttachLane.holds_publishAttachEvent _ _ leaseId).mp hheld).1,
      fun _ heq => by cases heq⟩
  | restarts uuid =>
    exact ⟨AttachLane.holds_of_restart hheld, fun _ heq => by cases heq⟩
  | removed =>
    exact absurd hheld (AttachLane.not_holds_remove _)
  | parses instanceId =>
    exact ⟨(AttachLane.holds_parseNext _ instanceId leaseId).mp hheld, fun _ heq => by cases heq⟩
  | acknowledged lease cursor =>
    exact ⟨(AttachLane.holds_acknowledge _ lease cursor leaseId).mp hheld,
      fun _ heq => by cases heq⟩

theorem LeasedTo.of_changes {changed : String} {change : TerminalChange}
    (h : (host.changes config present changed change).LeasedTo number tid leaseId) :
    host.LeasedTo number tid leaseId := by
  unfold changes at h
  split at h
  · exact h
  · next lane hlane => exact h.of_setLane fun hheld => (holds_of_changeLane hlane hheld).1

theorem getElem?_setConnection_of_ne (hother : other ≠ number)
    (connection : HostConnection) (host : PtyHost) :
    (host.setConnection other connection).connections[number]? = host.connections[number]? :=
  getElem?_set_ne hother

theorem Idle.of_connections {other : PtyHost} (h : host.Idle number)
    (hsame : other.connections[number]? = host.connections[number]?) : other.Idle number := by
  obtain ⟨connection, hconnection, hidle⟩ := h
  exact ⟨connection, hsame.trans hconnection, hidle⟩

theorem Idle.changeConnection (h : host.Idle number) (other : ℕ)
    {change : HostConnection → HostConnection}
    (hchange : ∀ connection : HostConnection, connection.writable = false →
      connection.running = none → change connection = connection) :
    (host.changeConnection other change).Idle number := by
  obtain ⟨connection, hconnection, hwritable, hrunning, hwaiting⟩ := h
  refine ⟨connection, ?_, hwritable, hrunning, hwaiting⟩
  rw [PtyHost.changeConnection, getElem?_modify, hconnection]
  split
  · exact congrArg some (hchange connection hwritable hrunning)
  · rfl

/-- **A connection that is gone gets no lease and no request.** -/
theorem Idle.handle (h : host.Idle number) (input : PtyHostInput) :
    (host.handle parse config screen input).Idle number ∧ ∀ tid leaseId,
        (host.handle parse config screen input).LeasedTo number tid leaseId →
          host.LeasedTo number tid leaseId := by
  unfold PtyHost.handle
  split
  · refine ⟨?_, fun _ _ hleased => hleased⟩
    obtain ⟨connection, hconnection, hidle⟩ := h
    have hlength := (List.getElem?_eq_some_iff.mp hconnection).1
    exact ⟨connection, (getElem?_append_left hlength).trans hconnection, hidle⟩
  · next other chunk _ =>
    refine ⟨h.changeConnection other fun connection hwritable _ => ?_, fun _ _ hleased => hleased⟩
    rw [receive, hwritable, if_neg Bool.false_ne_true]
  · next other _ =>
    refine ⟨h.changeConnection other fun connection hwritable _ => ?_, fun _ _ hleased => hleased⟩
    rw [← hwritable]
  · next other _ =>
    unfold PtyHost.closes
    split
    · exact ⟨h, fun _ _ hleased => hleased⟩
    · next connection hconnection =>
      split
      · exact ⟨h, fun _ _ hleased => hleased⟩
      · refine ⟨?_, fun _ _ hleased => LeasedTo.of_release hleased⟩
        obtain ⟨gone, hgone, hwritable, hrunning, hwaiting⟩ := h
        by_cases hsame : other = number
        · subst hsame
          obtain rfl : connection = gone := some.inj (hconnection.symm.trans hgone)
          refine ⟨{ connection with closed := true, attachLeases := [] }, ?_, hwritable, hrunning,
            hwaiting⟩
          dsimp only
          rw [setConnection, connections_release]
          exact getElem?_set_self (List.getElem?_eq_some_iff.mp hgone).1
        · refine ⟨gone, ?_, hwritable, hrunning, hwaiting⟩
          rw [getElem?_setConnection_of_ne hsame, connections_release]
          exact hgone
  · next other invocation _ =>
    unfold PtyHost.begins
    split
    · exact ⟨h, fun _ _ hleased => hleased⟩
    · next connection hconnection =>
      split
      · next request waiting hrunning hwaiting =>
        have hother : other ≠ number := by
          rintro rfl
          obtain ⟨gone, hgone, -, -, hnone⟩ := h
          obtain rfl : connection = gone := some.inj (hconnection.symm.trans hgone)
          rw [hnone] at hwaiting
          cases hwaiting
        refine ⟨h.of_connections ?_, fun _ _ hleased => LeasedTo.of_invoke hother hleased⟩
        rw [getElem?_setConnection_of_ne hother, connections_invoke]
      · exact ⟨h, fun _ _ hleased => hleased⟩
  · next other _ =>
    refine ⟨h.changeConnection other fun connection _ hrunning => ?_, fun _ _ hleased => hleased⟩
    rw [complete, hrunning]
  · next changed change _ =>
    refine ⟨h.of_connections ?_, fun _ _ hleased => hleased.of_changes⟩
    rw [connections_changes]

/-- Output finds no lease of a connection that is gone. -/
theorem Idle.output (h : host.Idle number) {data : Output} (hdata : data ≠ [])
    (halive : (host.changes config present tid (.output data)).alive = true) (leaseId : String) :
    ¬(host.changes config present tid (.output data)).LeasedTo number tid leaseId := by
  intro hleased
  have hbefore := hleased.of_changes
  unfold changes at hleased halive
  split at hleased
  · next hdead =>
    rw [hdead] at halive
    exact absurd halive false_ne_true
  · next lane hlane =>
    have hheld := hleased.1
    rw [lane_setLane, if_pos rfl] at hheld
    obtain ⟨event, htaken⟩ := (holds_of_changeLane hlane hheld).2 data rfl hdata
    obtain ⟨connection, hconnection, hwritable, -⟩ := h
    rw [takes, hbefore.2] at htaken
    simp [hconnection, hwritable] at htaken

end PtyHost

section Runs

variable (parse : List Char → Option PtyHostRequest) (config : TransportConfig) (screen : Screen)

def ptyHostAfter (inputs : List PtyHostInput) : PtyHost :=
  finalState (ptyHostStep parse config screen) .initial inputs

def terminalWrites (terminalId : String) (data : Output) (present : List String) : PtyHostInput :=
  { event := .changes terminalId (.output data), present := present }

variable {parse config screen}

theorem ordered_ptyHostAfter (inputs : List PtyHostInput) :
    (ptyHostAfter parse config screen inputs).Ordered := by
  have hstep : ∀ input host, PtyHost.Ordered host → True →
      (ptyHostStep parse config screen input host).Ordered := by
    intro input host hordered _
    unfold ptyHostStep
    split
    · exact hordered.handle input
    · exact hordered
  have hinit : PtyHost.initial.Ordered := fun connection h => absurd h not_mem_nil
  exact invariant_finalState (P := PtyHost.Ordered) hstep hinit (runMeets_true _ inputs)

/-- A connection that is gone has no lease at a terminal, and will have none. -/
structure Released (number : ℕ) (terminalId : String) (host : PtyHost) : Prop where
  idle : host.Idle number
  none : ∀ leaseId, ¬host.LeasedTo number terminalId leaseId

theorem Released.step {number : ℕ} {tid : String} {host : PtyHost}
    (h : Released number tid host) (input : PtyHostInput) :
    Released number tid (ptyHostStep parse config screen input host) := by
  unfold ptyHostStep
  split
  · obtain ⟨hidle, hleases⟩ : (host.handle parse config screen input).Idle number ∧ _ :=
      h.idle.handle input
    exact ⟨hidle, fun leaseId hleased => h.none leaseId (hleases tid leaseId hleased)⟩
  · exact h

theorem alive_of_finalState {host : PtyHost} (inputs : List PtyHostInput)
    (h : (finalState (ptyHostStep parse config screen) host inputs).alive = true) :
    host.alive = true := by
  induction inputs generalizing host with
  | nil => exact h
  | cons input inputs ih =>
    have hnext : (ptyHostStep parse config screen input host).alive = true := ih h
    unfold ptyHostStep at hnext
    split at hnext
    · next halive => exact halive
    · exact hnext

/-- After the next output of a terminal no lease at it is left of a connection that is
gone. -/
theorem released_after_output {inputs later : List PtyHostInput} {number : ℕ} {tid : String}
    {data : Output} {present : List String}
    (hidle : (ptyHostAfter parse config screen inputs).Idle number) (hdata : data ≠ [])
    (halive : (ptyHostAfter parse config screen
      (inputs ++ terminalWrites tid data present :: later)).alive = true) :
    Released number tid (ptyHostAfter parse config screen
      (inputs ++ terminalWrites tid data present :: later)) := by
  have hrun : ptyHostAfter parse config screen
      (inputs ++ terminalWrites tid data present :: later) =
      finalState (ptyHostStep parse config screen) (ptyHostStep parse config screen
        (terminalWrites tid data present) (ptyHostAfter parse config screen inputs)) later := by
    rw [ptyHostAfter, finalState, foldl_append, foldl_cons]
    rfl
  rw [hrun] at halive ⊢
  have hstep : ∀ input host, Released number tid host → True →
      Released number tid (ptyHostStep parse config screen input host) :=
    fun input host h _ => h.step input
  have hwritten := alive_of_finalState later halive
  have hfirst : Released number tid (ptyHostStep parse config screen
      (terminalWrites tid data present) (ptyHostAfter parse config screen inputs)) := by
    have hbefore := alive_of_finalState [terminalWrites tid data present] hwritten
    unfold ptyHostStep at hwritten ⊢
    rw [if_pos hbefore] at hwritten ⊢
    refine ⟨(hidle.handle _).1, fun leaseId => ?_⟩
    exact hidle.output hdata hwritten leaseId
  exact invariant_finalState (P := Released number tid) hstep hfirst (runMeets_true _ later)

end Runs

/-- **What the two ends of a connection owe each other.** What is read of the requests and of
the messages does not depend on the chunks; every request is answered once and in order; and
a connection that is gone keeps no lease once the terminal writes. -/
structure ConnectionSound {μ : Type} (parseRequest : List Char → Option PtyHostRequest)
    (parseMessage : List Char → Option μ) (config : TransportConfig) (screen : Screen)
    (requests messages : List Char) : Prop where
  hostReads : ∀ cuts cuts' : List ℕ, cuts.sum = byteLength requests →
    cuts'.sum = byteLength requests →
      readInCuts parseRequest maxProtocolFrameBytes requests cuts =
        readInCuts parseRequest maxProtocolFrameBytes requests cuts'
  proxyReads : ∀ cuts cuts' : List ℕ, cuts.sum = byteLength messages →
    cuts'.sum = byteLength messages →
      readInCuts parseMessage maxProtocolFrameBytes messages cuts =
        readInCuts parseMessage maxProtocolFrameBytes messages cuts'
  inOrder : ∀ inputs, (ptyHostAfter parseRequest config screen inputs).Ordered
  released : ∀ inputs later number terminalId data present,
    (ptyHostAfter parseRequest config screen inputs).Idle number → data ≠ [] →
    (ptyHostAfter parseRequest config screen
      (inputs ++ terminalWrites terminalId data present :: later)).alive = true →
    ∀ leaseId, ¬(ptyHostAfter parseRequest config screen
      (inputs ++ terminalWrites terminalId data present :: later)).LeasedTo
        number terminalId leaseId

/-- **A connection is sound exactly if every frame that is taken fits.** The frames are the
lines up to one that is no message. -/
theorem connectionSound_iff {μ : Type} (parseRequest : List Char → Option PtyHostRequest)
    (parseMessage : List Char → Option μ) (config : TransportConfig) (screen : Screen)
    (requests messages : List Char) :
    ConnectionSound parseRequest parseMessage config screen requests messages ↔
      FramesFit parseRequest maxProtocolFrameBytes requests ∧
        FramesFit parseMessage maxProtocolFrameBytes messages := by
  constructor
  · intro h
    exact ⟨(readInCuts_congr_iff requests).mp h.hostReads,
      (readInCuts_congr_iff messages).mp h.proxyReads⟩
  · rintro ⟨hrequests, hmessages⟩
    refine ⟨(readInCuts_congr_iff requests).mpr hrequests,
      (readInCuts_congr_iff messages).mpr hmessages, ordered_ptyHostAfter, ?_⟩
    intro inputs later number terminalId data present hidle hdata halive
    exact (released_after_output hidle hdata halive).none

/-! ### A long paste -/

def pasteRequest : PtyHostRequest := { requestId := "r1", call := .other "write" }

def pasteHead : List Char :=
  "\x7b\"type\":\"request\",\"requestId\":\"r1\",\"method\":\"write\",\"args\":[\"t1\",\"".toList

def pasteTail : List Char := "\"]\x7d".toList

def pasteLine : List Char :=
  pasteHead ++ List.replicate maxProtocolFrameBytes 'x' ++ pasteTail

def pasteParse (line : List Char) : Option PtyHostRequest :=
  if line = pasteLine then some pasteRequest else none

theorem newline_not_mem_pasteLine : '\n' ∉ pasteLine := by
  have hhead : '\n' ∉ pasteHead := by decide
  have htail : '\n' ∉ pasteTail := by decide
  have hdata : '\n' ∉ List.replicate maxProtocolFrameBytes 'x' := by
    rw [mem_replicate]
    exact fun h => absurd h.2 (by decide)
  rw [pasteLine, mem_append, mem_append]
  rintro ((h | h) | h)
  · exact hhead h
  · exact hdata h
  · exact htail h

theorem maxProtocolFrameBytes_lt_pasteLine : maxProtocolFrameBytes < byteLength pasteLine := by
  have hdata : byteLength (List.replicate maxProtocolFrameBytes 'x') = maxProtocolFrameBytes := by
    have hsize : 'x'.utf8Size = 1 := rfl
    simp [byteLength, hsize]
  have htail : byteLength pasteTail = 3 := by decide
  rw [pasteLine, byteLength_append, byteLength_append, hdata, htail]
  omega

/-- The paste is written if it comes with its newline, and the connection is dropped if the
newline comes in the next chunk. -/
theorem pasteLine_not_sound :
    ¬ConnectionSound pasteParse (fun _ => (none : Option Unit)) smallConfig plainScreen
      (pasteLine ++ ['\n']) [] := by
  intro h
  have hfit := (readInCuts_congr_iff (pasteLine ++ ['\n'])).mp h.hostReads
  apply absurd (hfit pasteLine _) (not_le_of_gt maxProtocolFrameBytes_lt_pasteLine)
  have hreadable : readable pasteParse pasteLine = true := by
    rw [readable, pasteParse, if_pos rfl]
    exact or_true _
  rw [readableLines, completeLines_line newline_not_mem_pasteLine, takeWhile_cons_of_pos hreadable]
  exact mem_cons_self

end Laborer.Terminal
