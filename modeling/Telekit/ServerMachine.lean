import Telekit.Library.Interleaving
import Telekit.ServerHello

/-! The running server: every goroutine of `peer/server` that touches the shared
state, cut at its atomic operations. A call of the hello handler, of the offer
handler, of `handleICEOffer`, of `Connection.Close` and of the handshake timer is
a thread; the position of a thread is the operation it does next. A section under
one mutex is one step where the fields it reads and writes change under that
mutex only, and where `closed`, which is only ever set, is read last. The section
of `setConnection` is two steps, because `Close` may store the flag between its
check and its write; the other sections under `connectionsMu` wait for it.

The model has more runs than the program where that is simpler: hello calls are
not serialised by `helloMu`, `Close` may be called for any connection at any time
(by the application, by `Server.Close` and by the reader and monitor goroutines),
and a timer may fire whenever one is set. The results of the libraries (whether a
call succeeds, gathered descriptions) are choices of the environment; an agent or
a data transport that they make is a new number, and the server knows whose it is
and whether it was closed. The trace records, for statements about runs, what was
created, received, disclosed and closed, and `negotiations` what was started and
installed; both are only written. -/

namespace Telekit

def candidatesFit (maxBytes : Int) : Int → List GoString → Bool
  | _, [] => true
  | total, candidate :: rest =>
    if candidate.length > maxBytes - total then false
    else candidatesFit maxBytes (total + candidate.length) rest

def validateICEDescriptionLimits (description : ICEDescription) (maxCandidates maxBytes : Int) :
    Except Failure Unit :=
  let exceeds := str "ICE description exceeds " ++ str (toString maxBytes) ++ str " bytes"
  let total : Int := description.usernameFragment.length + description.password.length
  if maxCandidates < 1 ∨ maxBytes < 1 then fail "invalid ICE description limits"
  else if description.candidates.length > maxCandidates then
    .error (.text (str "ICE description has " ++ str (toString description.candidates.length) ++
      str " candidates, maximum is " ++ str (toString maxCandidates)))
  else if total > maxBytes then .error (.text exceeds)
  else if candidatesFit maxBytes total description.candidates = false then .error (.text exceeds)
  else .ok ()

/-- `sendICEAnswer` up to the publication: the packet, and the connection with its
counter and codec as the encoding leaves them. -/
def Server.sendICEAnswer {P : Primitives} (server : Server P) (conn : Connection)
    (description : ICEDescription) : Except Failure Bytes × Connection :=
  match validateICEDescriptionLimits description server.options.maxPendingICE
      server.options.maxPendingICEBytes with
  | .error err => (.error err, conn)
  | .ok () =>
    let (result, codec) := conn.codec.encodeMessage P {
      header := some {
        sourceId := server.serverId
        targetId := conn.sourceId
        typ := .iceAnswer
        sequence := conn.signalSend + 1 }
      payload := some {
        iceUsername := description.usernameFragment
        icePassword := description.password
        iceCandidates := description.candidates } }
    (result, { conn with signalSend := conn.signalSend + 1, codec := codec })

theorem Server.sendICEAnswer_snd {P : Primitives} (server : Server P) (conn : Connection)
    (description : ICEDescription) :
    ∃ sequence codec, (server.sendICEAnswer conn description).2 =
      { conn with signalSend := sequence, codec := { conn.codec with sendCodec := codec } } := by
  unfold sendICEAnswer
  split
  · exact ⟨conn.signalSend, conn.codec.sendCodec, rfl⟩
  · exact ⟨_, _, rfl⟩

namespace ServerMachine

inductive Disclosure
  | agent
  | gathering
  | answer
  deriving DecidableEq

inductive Event
  | created (i : Nat) (input : HelloInput) (data : Bytes) (hello : Hello)
  | received (i : Nat) (data : Bytes) (message : Message)
  | disclosed (i : Nat) (what : Disclosure)
  | closeReturned (i : Nat)

structure Agent where
  owner : Nat
  closed : Bool := false
  deriving DecidableEq

structure DataTransport where
  owner : Nat
  agent : Nat
  name : GoString
  closed : Bool := false
  deriving DecidableEq

inductive Negotiation
  | started (i : Nat) (remote : ICEDescription)
  | agentInstalled (i agent : Nat)
  | transportInstalled (i transport : Nat)
  deriving DecidableEq

/-- `connectionsMu` is held by `setConnection` between its check and its write,
and then names the connection it is about to register. -/
structure Shared (cache : Lru.Cache Bytes Int) extends ServerState cache where
  connectionsMu : Option Nat
  trace : List Event
  agents : List Agent := []
  transports : List DataTransport := []
  negotiations : List Negotiation := []

inductive ClosePos
  | store
  | once
  | remove
  | stopTimer
  | swapPending
  | dropPending
  | swapTotal
  | dropTotal
  | clear
  | leave (transport agent : Option Nat)

/-- Positions in the hello handler with `handleClientHello`, `setConnection` and
`sendServerHello` in it. -/
inductive HelloPos
  | lookup
  | prepare (existing : Option Nat) (hello : Hello)
  | nonce (existing : Option Nat) (hello : Hello)
  | reserveTotal (hello : Hello)
  | reservePending (hello : Hello)
  | undoTotal
  | create (hello : Hello)
  | undoPending
  | setCheck (i : Nat)
  | setAct (i : Nat)
  | startTimer (i : Nat)
  | send (i : Nat)

inductive OfferPos
  | lookup
  | accept (i : Nat)
  | current (i : Nat) (message : Message)
  | storeSelected (i : Nat) (name : GoString)
  | takePending (i : Nat)
  | keepOffer (i : Nat) (offer : ICEDescription)

/-- Positions in `handleICEOffer` with `markEstablished` in it. -/
inductive ICEPos
  | setup
  | setupCurrent
  | newAgent
  | install
  | relay
  | gather
  | gatherFailed
  | gathered
  | answer
  | publish
  | acceptICE
  | owned
  | dial
  | installTransport
  | transportState
  | establish
  | storeEstablished
  | swapPending
  | dropPending
  | stopTimer
  | current
  | deliver

/-- The local variables of `handleICEOffer`; `channel` tells whether the data
channel it has read is not nil. -/
structure Locals where
  remote : ICEDescription := ⟨[], [], []⟩
  selectedName : GoString := []
  agent : Nat := 0
  description : ICEDescription := ⟨[], [], []⟩
  transport : Nat := 0
  channel : Bool := false

/-- `closing` is a call of `Close`; `next` is the hello handling it returns to
when it was made by `prepareClientHello`. -/
inductive Thread
  | finished
  | hello (input : HelloInput) (data : Bytes) (pos : HelloPos)
  | closing (i : Nat) (pos : ClosePos) (next : Option (HelloInput × Bytes × Hello))
  | timer (i : Nat)
  | offer (data : Bytes) (pos : OfferPos)
  | ice (i : Nat) (locals : Locals) (pos : ICEPos)

def Thread.resume (i : Nat) (next : Option (HelloInput × Bytes × Hello)) : Option ClosePos → Thread
  | some pos => .closing i pos next
  | none =>
    next.elim .finished fun (input, data, authentic) => .hello input data (.reserveTotal authentic)

structure Choice where
  ok : Bool
  description : ICEDescription := ⟨[], [], []⟩

inductive Call
  | hello (input : HelloInput) (data : Bytes)
  | offer (data : Bytes)
  | close (i : Nat)
  | timer (i : Nat)
  | shutdown
  | clear

variable {cache : Lru.Cache Bytes Int}

namespace Shared

def on (s : Shared cache) (f : ServerState cache → ServerState cache) : Shared cache :=
  { s with toServerState := f s.toServerState }

def log (s : Shared cache) (event : Event) : Shared cache := { s with trace := s.trace ++ [event] }

def note (s : Shared cache) (negotiation : Negotiation) : Shared cache :=
  { s with negotiations := s.negotiations ++ [negotiation] }

def makeAgent (s : Shared cache) (i : Nat) : Shared cache :=
  { s with agents := s.agents ++ [{ owner := i }] }

def closeAgent (s : Shared cache) (agent : Nat) : Shared cache :=
  { s with agents := s.agents.modify agent fun a => { a with closed := true } }

def makeTransport (s : Shared cache) (transport : DataTransport) : Shared cache :=
  { s with transports := s.transports ++ [transport] }

def closeTransport (s : Shared cache) (transport : Nat) : Shared cache :=
  { s with transports := s.transports.modify transport fun t => { t with closed := true } }

def closeTaken (s : Shared cache) (transport agent : Option Nat) : Shared cache :=
  let s := transport.elim s s.closeTransport
  agent.elim s s.closeAgent

section Taken
variable (s : Shared cache) (transport agent : Option Nat)

@[simp] theorem closeTaken_toServerState :
    (s.closeTaken transport agent).toServerState = s.toServerState := by
  cases transport <;> cases agent <;> rfl

@[simp] theorem closeTaken_connectionsMu :
    (s.closeTaken transport agent).connectionsMu = s.connectionsMu := by
  cases transport <;> cases agent <;> rfl

@[simp] theorem closeTaken_trace : (s.closeTaken transport agent).trace = s.trace := by
  cases transport <;> cases agent <;> rfl

end Taken

def start (cache : Lru.Cache Bytes Int) : Shared cache where
  toServerState := ServerState.start cache
  connectionsMu := none
  trace := []

def ownsICEAgent (s : Shared cache) (i agent : Nat) : Bool :=
  s.pool[i]?.any (fun c => !c.closed && c.iceAgent = some agent) && s.isCurrent i

def isCurrentTransport (s : Shared cache) (i transport : Nat) (channel : Bool) : Bool :=
  s.pool[i]?.any (fun c => !c.closed && c.transportConn = some transport &&
    c.dataChannel.isSome = channel) && s.isCurrent i

/-- The condition of `selectedTransportForSetup` and of `installICEAgent`. -/
def available (s : Shared cache) (i : Nat) : Bool :=
  s.pool[i]?.any fun c => !c.closed && c.iceAgent.isNone && c.transportConn.isNone

/-- The condition of `installTransport`. -/
def awaitsTransport (s : Shared cache) (i agent : Nat) : Bool :=
  s.pool[i]?.any (fun c => !c.closed && c.iceAgent = some agent && c.transportConn.isNone &&
    c.dataChannel.isSome) && s.isCurrent i

/-- The condition of `markEstablished`. -/
def awaitsEstablished (s : Shared cache) (i agent transport : Nat) : Bool :=
  s.pool[i]?.any (fun c => !c.closed && c.iceAgent = some agent &&
    c.transportConn = some transport) && s.isCurrent i

end Shared

/-- A step of `Connection.Close`. A second caller waits in `closeOnce` until the
first one is done. -/
def closeStep (s : Shared cache) (i : Nat) : ClosePos → Option (Shared cache × Option ClosePos)
  | .store =>
    match s.pool[i]? with
    | none => none
    | some _ => some (s.on (·.storeClosed i), some .once)
  | .once =>
    match s.pool[i]? with
    | none => none
    | some c =>
      if c.closeEntered = false then some (s.on (·.enterClose i), some .remove)
      else if c.closeDone then some (s.log (.closeReturned i), none)
      else none
  | .remove =>
    if s.connectionsMu.isSome then none
    else some (s.on (·.removeCurrent i), some .stopTimer)
  | .stopTimer => some (s.on (·.stopHandshakeTimer i), some .swapPending)
  | .swapPending =>
    some (s.on fun state => (state.swapPendingLease i).2,
      some (if (s.swapPendingLease i).1 then .dropPending else .swapTotal))
  | .dropPending => some (s.on (·.dropPending), some .swapTotal)
  | .swapTotal =>
    some (s.on fun state => (state.swapTotalLease i).2,
      some (if (s.swapTotalLease i).1 then .dropTotal else .clear))
  | .dropTotal => some (s.on (·.dropTotal), some .clear)
  | .clear =>
    some (s.on (·.clearState i),
      some (.leave (s.pool[i]?.bind (·.transportConn)) (s.pool[i]?.bind (·.iceAgent))))
  | .leave transport agent =>
    some (((s.closeTaken transport agent).on (·.leaveClose i)).log (.closeReturned i), none)

section Step
variable {P : Primitives} (server : Server P)

def helloStep (s : Shared cache) (input : HelloInput) (data : Bytes) :
    HelloPos → Option (Shared cache × Thread)
  | .lookup =>
    match server.authenticate input.proofRandom input.skewTime data with
    | .ok (some hello) =>
      some (s, .hello input data (.prepare (s.connections hello.sourceId) hello))
    | _ => some (s, .finished)
  | .prepare existing hello =>
    match existing with
    | none => some (s, .hello input data (.nonce none hello))
    | some i =>
      if s.reuses (some i) hello then some (s, .hello input data (.setCheck i))
      else some (s, .hello input data (.nonce (some i) hello))
  | .nonce existing hello =>
    match s.isNonceAvailable server hello.nonce input.lookupTime input.addTime with
    | (false, state) => some ({ s with toServerState := state }, .finished)
    | (true, state) =>
      some ({ s with toServerState := state },
        match existing with
        | none => .hello input data (.reserveTotal hello)
        | some i => .closing i .store (some (input, data, hello)))
  | .reserveTotal hello =>
    if input.join = false then some (s, .finished)
    else
      match ServerState.reserveCounter s.totalConnections server.options.maxConnections with
      | none => some (s, .finished)
      | some total =>
        some (s.on fun state => { state with totalConnections := total },
          .hello input data (.reservePending hello))
  | .reservePending hello =>
    match ServerState.reserveCounter s.pendingHandshakes server.options.maxPendingHandshakes with
    | none => some (s, .hello input data .undoTotal)
    | some pending =>
      some (s.on fun state => { state with pendingHandshakes := pending },
        .hello input data (.create hello))
  | .undoTotal => some (s.on (·.dropTotal), .finished)
  | .create hello =>
    match server.createConnection hello input.random with
    | .error _ => some (s, .hello input data .undoPending)
    | .ok conn =>
      some ((s.on fun state => { state with pool := state.pool ++ [conn] }).log
        (.created s.pool.length input data hello), .hello input data (.setCheck s.pool.length))
  | .undoPending => some (s.on (·.dropPending), .hello input data .undoTotal)
  | .setCheck i =>
    if s.connectionsMu.isSome then none
    else
      match s.pool[i]? with
      | none => none
      | some c =>
        if s.closed ∨ c.closed then some (s, .closing i .store none)
        else some ({ s with connectionsMu := some i }, .hello input data (.setAct i))
  | .setAct i =>
    match s.pool[i]? with
    | none => none
    | some c =>
      some ({ s.on (·.register c.sourceId (some i)) with connectionsMu := none },
        .hello input data (.startTimer i))
  | .startTimer i => some (s.on (·.startHandshakeTimer i), .hello input data (.send i))
  | .send i =>
    match s.pool[i]? with
    | none => none
    | some conn =>
      match server.sendServerHello conn with
      | (result, conn) =>
        some (s.on (·.update i fun _ => conn),
          if result.isOk ∧ input.published then .finished else .closing i .store none)

def dispatch (data : Bytes) (i : Nat) (message : Message) : Thread :=
  let payload := message.payload.getD {}
  match (message.header.getD {}).typ with
  | .disconnect => .closing i .store none
  | .transportSelect =>
    if payload.transport ∈ server.transports then .offer data (.storeSelected i payload.transport)
    else .finished
  | .iceOffer =>
    let offer : ICEDescription := ⟨payload.iceUsername, payload.icePassword, payload.iceCandidates⟩
    if payload.iceUsername = [] ∨ payload.icePassword = [] ∨ payload.iceCandidates = [] then
      .finished
    else if (validateICEDescriptionLimits offer server.options.maxPendingICE
        server.options.maxPendingICEBytes).isOk then .offer data (.keepOffer i offer)
    else .finished
  | _ => .finished

def offerStep (s : Shared cache) (data : Bytes) :
    OfferPos → Option (Shared cache × Thread × List Thread)
  | .lookup =>
    match ({} : Codec).decodeMessageHeader P data with
    | .error _ => some (s, .finished, [])
    | .ok header =>
      if header.targetId ≠ server.serverId then some (s, .finished, [])
      else
        match s.connections header.sourceId with
        | none => some (s, .finished, [])
        | some i => some (s, .offer data (.accept i), [])
  | .accept i =>
    match s.pool[i]? with
    | none => none
    | some c =>
      match c.codec.decodeMessage P data with
      | .error _ => some (s, .finished, [])
      | .ok message =>
        match c.signalRecv.accept (message.header.getD {}).sequence with
        | (false, _) => some (s, .finished, [])
        | (true, window) =>
          some ((s.on (·.update i fun c => { c with signalRecv := window })).log
            (.received i data message),
            if message.payload = none then .finished else .offer data (.current i message), [])
  | .current i message =>
    some (s, if s.isCurrent i then dispatch server data i message else .finished, [])
  | .storeSelected i name =>
    some (s.on (·.update i fun c =>
      if c.closed = false ∧ c.selectedTransport = [] then { c with selectedTransport := name }
      else c), .offer data (.takePending i), [])
  | .takePending i =>
    match s.pool[i]? with
    | none => none
    | some c =>
      match c.closed, c.pendingICEOffer with
      | false, some offer =>
        some ((s.on (·.update i fun c => { c with pendingICEOffer := none })).note
          (.started i offer), .finished, [.ice i { remote := offer } .setup])
      | _, _ => some (s, .finished, [])
  | .keepOffer i offer =>
    match s.pool[i]? with
    | none => none
    | some c =>
      if c.closed then some (s, .finished, [])
      else if c.selectedTransport ≠ [] then
        some (s.note (.started i offer), .finished, [.ice i { remote := offer } .setup])
      else
        some (s.on (·.update i fun c => { c with pendingICEOffer := some offer }), .finished, [])

/-- The remote description of the offer is used by the library only. -/
def iceStep (choice : Choice) (s : Shared cache) (i : Nat) (locals : Locals) :
    ICEPos → Option (Shared cache × Thread)
  | .setup =>
    match s.pool[i]? with
    | none => none
    | some c =>
      if s.available i = true ∧ c.selectedTransport ≠ [] then
        some (s, .ice i { locals with selectedName := c.selectedTransport } .setupCurrent)
      else some (s, .finished)
  | .setupCurrent => some (s, if s.isCurrent i then .ice i locals .newAgent else .finished)
  | .newAgent =>
    if choice.ok then
      some ((s.makeAgent i).log (.disclosed i .agent),
        .ice i { locals with agent := s.agents.length } .install)
    else some (s.log (.disclosed i .agent), .closing i .store none)
  | .install =>
    if s.available i = true ∧ s.isCurrent i = true then
      some ((s.on (·.update i fun c => { c with iceAgent := some locals.agent })).note
        (.agentInstalled i locals.agent), .ice i locals .relay)
    else some (s.closeAgent locals.agent, .finished)
  | .relay => some (s, if choice.ok then .ice i locals .gather else .closing i .store none)
  | .gather =>
    some (s.log (.disclosed i .gathering),
      if choice.ok then .ice i { locals with description := choice.description } .gathered
      else .ice i locals .gatherFailed)
  | .gatherFailed =>
    if s.ownsICEAgent i locals.agent then some (s, .closing i .store none)
    else some (s.closeAgent locals.agent, .finished)
  | .gathered =>
    if s.ownsICEAgent i locals.agent = false then some (s.closeAgent locals.agent, .finished)
    else
      some (s,
        if (validateICEDescriptionLimits locals.description server.options.maxPendingICE
          server.options.maxPendingICEBytes).isOk then .ice i locals .answer
        else .closing i .store none)
  | .answer => some (s, if s.ownsICEAgent i locals.agent then .ice i locals .publish else .finished)
  | .publish =>
    match s.pool[i]? with
    | none => none
    | some c =>
      match server.sendICEAnswer c locals.description with
      | (result, conn) =>
        let state := s.on (·.update i fun _ => conn)
        if result.isOk then
          some (state.log (.disclosed i .answer),
            if choice.ok then .ice i locals .acceptICE else .closing i .store none)
        else some (state, .closing i .store none)
  | .acceptICE => some (s, if choice.ok then .ice i locals .owned else .closing i .store none)
  | .owned =>
    some (s,
      if s.ownsICEAgent i locals.agent = false then .finished
      else if locals.selectedName ∈ server.transports then .ice i locals .dial
      else .closing i .store none)
  | .dial =>
    if choice.ok then
      some (s.makeTransport ⟨i, locals.agent, locals.selectedName, false⟩,
        .ice i { locals with transport := s.transports.length } .installTransport)
    else some (s, .closing i .store none)
  | .installTransport =>
    if s.awaitsTransport i locals.agent then
      some ((s.on (·.update i fun c => { c with transportConn := some locals.transport })).note
        (.transportInstalled i locals.transport), .ice i locals .transportState)
    else some (s.closeTransport locals.transport, .finished)
  | .transportState =>
    some (s, .ice i { locals with channel := s.pool[i]?.any (·.dataChannel.isSome) } .establish)
  | .establish =>
    some (s,
      if s.awaitsEstablished i locals.agent locals.transport then .ice i locals .storeEstablished
      else .closing i .store none)
  | .storeEstablished =>
    some (s.on (·.update i fun c => { c with established := true }), .ice i locals .swapPending)
  | .swapPending =>
    some (s.on fun state => (state.swapPendingLease i).2,
      .ice i locals (if (s.swapPendingLease i).1 then .dropPending else .stopTimer))
  | .dropPending => some (s.on (·.dropPending), .ice i locals .stopTimer)
  | .stopTimer => some (s.on (·.stopHandshakeTimer i), .ice i locals .current)
  | .current =>
    some (s,
      if s.isCurrentTransport i locals.transport locals.channel then .ice i locals .deliver
      else .closing i .store none)
  | .deliver => some (s, if choice.ok then .finished else .closing i .store none)

def advance (choice : Choice) (s : Shared cache) :
    Thread → Option (Shared cache × Thread × List Thread)
  | .finished => none
  | .hello input data pos => (helloStep server s input data pos).map fun (s, t) => (s, t, [])
  | .closing i pos next =>
    (closeStep s i pos).map fun (s, pos) => (s, .resume i next pos, [])
  | .timer i =>
    some (s, if s.pool[i]?.any (·.pendingLease) then .closing i .store none else .finished, [])
  | .offer data pos => offerStep server s data pos
  | .ice i locals pos => (iceStep server choice s i locals pos).map fun (s, t) => (s, t, [])

/-- What starts from outside. `clear` is the last part of `Server.Close`. -/
def occur (s : Shared cache) : Call → Option (Shared cache × List Thread)
  | .hello input data => some (s, [.hello input data .lookup])
  | .offer data => some (s, [.offer data .lookup])
  | .close i => if i < s.pool.length then some (s, [.closing i .store none]) else none
  | .timer i => if s.pool[i]?.any (·.handshakeTimer) then some (s, [.timer i]) else none
  | .shutdown => some (s.on fun state => { state with closed := true }, [])
  | .clear =>
    if s.connectionsMu.isSome then none
    else some (s.on fun state => { state with connections := fun _ => none }, [])

def program : Interleaving.Program (Shared cache) Thread Choice Call :=
  ⟨advance server, fun call s => occur s call⟩

abbrev Action := Interleaving.Action Choice Call

def run (cache : Lru.Cache Bytes Int) (actions : List Action) :
    Interleaving.Config (Shared cache) Thread :=
  (program server).run ⟨Shared.start cache, []⟩ actions

end Step
end ServerMachine
end Telekit
