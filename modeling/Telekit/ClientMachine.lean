import Telekit.ClientHello
import Telekit.ReadLoop
import Telekit.RecvBuffer
import Telekit.ServerMachine

/-! The running client: the calls of the application (`Connect`, `Disconnect`,
`Reconnect`, `Read`), the reader and the monitor of each transport,
`finishTransport` and the reconnect loop of `peer/client`, cut at their atomic
operations. `mu` and `stateMu` protect different fields, so the connected flag
and the transport are separate steps everywhere.

A call of `connectWithContext` that passes its first check is an attempt, and its
number stands for the ICE agent, the connection and the data channel it creates,
which are fresh objects. The results of the libraries and the errors of the
signaling service are choices of the environment. It may deliver any bytes to the
hello subscription of an attempt and, once the attempt has one, to its answer
subscription, also after the attempt has ended. Addresses, deadlines of the
application and the time of the last read are left out.

Two logs are kept for statements about runs: the resets of the receive buffers,
the installations and what `Read` returned, with the attempt that opened each
byte, and what each attempt accepted and called. -/

namespace Telekit

structure ClientOptions where
  packetMode : Bool
  maxFrameSize : Nat
  receiveBufferSize : Int
  maxPendingICE : Int
  maxPendingICEBytes : Int
  accepted : 1024 ≤ maxFrameSize ∧ (maxFrameSize : Int) ≤ receiveBufferSize ∧
    1 ≤ maxPendingICE ∧ 1 ≤ maxPendingICEBytes

namespace ClientMachine

/-- Which attempt opened a byte, and how long the log was when it was appended. -/
structure Origin where
  opener : Nat
  time : Nat
  deriving DecidableEq

structure Buffer extends RecvBuffer where
  origins : List Origin := []
  deriving DecidableEq

namespace Buffer

def write (b : Buffer) (origin : Origin) (data : Bytes) : Except Failure Unit × Buffer :=
  match b.toRecvBuffer.write none data with
  | (.error err, _) => (.error err, b)
  | (.ok (), rb, _) => (.ok (), ⟨rb, b.origins ++ List.replicate data.length origin⟩)

def reset (b : Buffer) : Buffer :=
  ⟨(b.toRecvBuffer.reset none).1, if b.closed then b.origins else []⟩

def close (b : Buffer) : Buffer :=
  ⟨(b.toRecvBuffer.close none).1, if b.closed then b.origins else []⟩

def read (b : Buffer) (size : Nat) (now : Int) :
    Option (Except Failure (Bytes × List Origin) × Buffer) :=
  match b.toRecvBuffer.read none size now with
  | none => none
  | some (.error err, _) => some (.error err, b)
  | some (.ok data, rb, _) =>
    some (.ok (data, b.origins.take data.length), ⟨rb, b.origins.drop data.length⟩)

end Buffer

/-- `wiped` is a `Reset` of a buffer or its creation, `installed` a transport
with the buffer that is current then. -/
inductive Event
  | wiped (b : Nat)
  | installed (g b : Nat)
  | detached (g : Nat)
  | returned (b : Nat) (data : Bytes) (origins : List Origin)
  deriving DecidableEq

inductive Publication
  | transportSelect
  | iceOffer
  deriving DecidableEq

inductive SessionEvent
  | started (id : Nat) (hello : ClientHandshake)
  | accepted (id : Nat) (data : Bytes) (random : ClientRandom) (handshake : ServerHandshake)
  | called (id : Nat) (what : Publication)

/-- The part of the client that its connection depends on. `recvBuf` is the
pointer to the current buffer. -/
structure Core where
  connected : Bool := false
  connecting : Bool := false
  transportConn : Option Nat := none
  dataChannel : Option Nat := none
  iceAgent : Option Nat := none
  recvBuf : Nat := 0
  buffers : List Buffer
  closedConns : List Nat := []
  closedAgents : List Nat := []
  attempts : Nat := 0
  trace : List Event := []
  deriving DecidableEq

structure Shared extends Core where
  manualDisconnect : Bool := false
  reconnectGeneration : UInt64 := 0
  serverId : GoString := []
  codec : Option SignalingChannel := none
  signalSend : UInt64 := 0
  signalRecv : ReplayWindow := .empty
  hello : Nat → Option ClientHandshake := fun _ => none
  handshakeCh : Nat → Option ServerHandshake := fun _ => none
  answerSub : Nat → Option ServerHandshake := fun _ => none
  answers : Nat → Option ICEDescription := fun _ => none
  log : List SessionEvent := []

namespace Core

def emit (s : Core) (event : Event) : Core := { s with trace := s.trace ++ [event] }

def resetBuffer (s : Core) (b : Nat) : Core :=
  { s with buffers := s.buffers.modify b Buffer.reset }.emit (.wiped b)

def closeBuffer (s : Core) (b : Nat) : Core := { s with buffers := s.buffers.modify b Buffer.close }

def storeBuffer (s : Core) (buffer : Buffer) : Core :=
  { s with buffers := s.buffers ++ [buffer], recvBuf := s.buffers.length }.emit
    (.wiped s.buffers.length)

def writeBuffer (s : Core) (b g : Nat) (data : Bytes) : Except Failure Unit × Core :=
  match s.buffers[b]? with
  | none => (.error .closedPipe, s)
  | some buffer =>
    match buffer.write ⟨g, s.trace.length⟩ data with
    | (.error err, _) => (.error err, s)
    | (.ok (), buffer) =>
      (.ok (), { s with buffers := s.buffers.set b buffer })

def install (s : Core) (g : Nat) : Core :=
  { s with transportConn := some g, dataChannel := some g }.emit (.installed g s.recvBuf)

def detach (s : Core) : Core :=
  let cleared := { s with transportConn := none, dataChannel := none, iceAgent := none }
  match s.transportConn with
  | none => cleared
  | some g => cleared.emit (.detached g)

def closeAll (s : Core) (conn agent : Option Nat) : Core :=
  { s with
    closedConns := s.closedConns ++ conn.toList
    closedAgents := s.closedAgents ++ agent.toList }

def isCurrentTransport (s : Core) (g : Nat) : Bool :=
  s.transportConn = some g && s.dataChannel = some g

end Core

/-- Who called `connectWithContext`: the application, or a reconnect loop with
its generation, which acts for the transport `origin`. -/
inductive Caller
  | user
  | loop (generation : UInt64) (origin : Nat)
  deriving DecidableEq

inductive After
  | user
  | reconnect
  | failed (caller : Caller) (id : Nat)
  | checked (id : Nat)
  deriving DecidableEq

/-- Positions of `connectWithContext` between the receive buffer and the
installation of the transport. -/
inductive Negotiation
  | build
  | publishHello
  | waitHello
  | setSession (handshake : ServerHandshake)
  | checkTransport (handshake : ServerHandshake)
  | publishSelect (handshake : ServerHandshake)
  | newAgent (handshake : ServerHandshake)
  | installAgent (handshake : ServerHandshake)
  | gather (handshake : ServerHandshake)
  | publishOffer (handshake : ServerHandshake) (description : ICEDescription)
  | waitAnswer (handshake : ServerHandshake)
  | dial (handshake : ServerHandshake)
  | setTransport (handshake : ServerHandshake)

inductive ConnectPos
  | resetSession
  | resetSend
  | resetRecv
  | checkBuffer
  | newBuffer
  | resetBuffer (b : Nat)
  | negotiate (pos : Negotiation)
  | loadBuffer (handshake : ServerHandshake)
  | spawn (handshake : ServerHandshake) (b : Nat)
  | setConnected
  | leave (ok : Bool)

inductive DisconnectPos
  | bump
  | isConnected
  | publish
  | flag
  | loadBuffer
  | buffer (b : Nat)
  | clear
  | close (conn agent : Option Nat)

inductive FinishPos
  | detach
  | flag
  | loadBuffer
  | reset (b : Nat)
  | close
  | bump
  | decide (generation : UInt64)

inductive LoopPos
  | manual
  | generation
  | connected
  | failedManual
  | failedGeneration

inductive AnswerPos
  | decode (data : Bytes)
  | accept (message : Message)
  | send (message : Message)

/-- `connecting` is a call of `connectWithContext` before its first check;
`connect` is an attempt. `checking` is a loop whose attempt has succeeded. -/
inductive Thread
  | finished
  | connectCall
  | disconnectCall (reconnect : Bool)
  | connecting (caller : Caller)
  | connect (caller : Caller) (id : Nat) (pos : ConnectPos)
  | disconnect (closeBuffer : Bool) (after : After) (pos : DisconnectPos)
  | reader (g b : Nat) (channel : DataChannel) (pc : ReadPc)
  | monitor (g : Nat) (current : Bool)
  | finish (g : Nat) (agent : Option Nat) (pos : FinishPos)
  | loop (generation : UInt64) (origin : Nat) (pos : LoopPos)
  | checking (generation : UInt64) (id : Nat)
  | answer (id : Nat) (pos : AnswerPos)
  | read
  | readFrom (b : Nat)

structure Choice where
  ok : Bool := true
  nonceRandom : Random := fun _ => 0
  privateKey : Bytes := []
  codecRandom : Random := fun _ => 0
  now : Int := 0
  description : ICEDescription := ⟨[], [], []⟩
  chunk : Bytes := []
  size : Nat := 0

inductive Call
  | connect
  | disconnect
  | reconnect
  | read
  | deliverHello (id : Nat) (data : Bytes) (random : ClientRandom)
  | deliverAnswer (id : Nat) (data : Bytes)

def Caller.preserves : Caller → Bool
  | .user => false
  | .loop _ _ => true

def Caller.resume (id : Nat) (ok : Bool) : Caller → Thread
  | .user => .finished
  | .loop generation origin =>
    if ok then .checking generation id else .loop generation origin .failedManual

def After.resume (ok : Bool) : After → Thread
  | .user => .finished
  | .reconnect => if ok then .connectCall else .finished
  | .failed caller id => .connect caller id (.leave false)
  | .checked _ => .finished

namespace Shared

def on (s : Shared) (f : Core → Core) : Shared := { s with toCore := f s.toCore }

def record (s : Shared) (event : SessionEvent) : Shared := { s with log := s.log ++ [event] }

def start (options : ClientOptions) : Shared :=
  { buffers := [{ toRecvBuffer := .newWithLimit options.receiveBufferSize }] }

end Shared
end ClientMachine

namespace Client
variable (c : Client)

def sessionMessage (typ : MessageType) (payload : Payload) (serverID : GoString)
    (sequence : UInt64) : Message where
  header := some {
    sourceId := c.clientId
    targetId := serverID
    typ := typ
    sequence := sequence }
  payload := some payload

end Client

namespace ClientMachine

section Publish
variable (P : Primitives) (client : Client) (options : ClientOptions)

/-- The session is read and the message encoded with the next sequence number;
whether the signaling service takes it is left to the caller. -/
def publish (s : Shared) (message : GoString → UInt64 → Message) : Bool × Shared :=
  match s.codec with
  | none => (false, s)
  | some codec =>
    if s.serverId = [] then (false, s)
    else
      match codec.encodeMessage P (message s.serverId (s.signalSend + 1)) with
      | (result, codec) =>
        (result.isOk, { s with codec := some codec, signalSend := s.signalSend + 1 })

def publishTransportSelect (s : Shared) : Bool × Shared :=
  publish P s (client.sessionMessage .transportSelect { transport := client.transport })

def publishICEOffer (s : Shared) (description : ICEDescription) : Bool × Shared :=
  match validateICEDescriptionLimits description options.maxPendingICE
      options.maxPendingICEBytes with
  | .error _ => (false, s)
  | .ok () =>
    publish P s (client.sessionMessage .iceOffer {
      iceUsername := description.usernameFragment
      icePassword := description.password
      iceCandidates := description.candidates })

def publishDisconnect (s : Shared) : Bool × Shared :=
  publish P s (client.sessionMessage .disconnect {})

variable {P client options}

theorem publish_snd (s : Shared) (message : GoString → UInt64 → Message) :
    ∃ codec sequence, (publish P s message).2 =
      { s with codec := codec, signalSend := sequence } := by
  unfold publish
  split
  · exact ⟨_, _, rfl⟩
  · split_ifs <;> exact ⟨_, _, rfl⟩

theorem publishICEOffer_snd (s : Shared) (description : ICEDescription) :
    ∃ codec sequence, (publishICEOffer P client options s description).2 =
      { s with codec := codec, signalSend := sequence } := by
  unfold publishICEOffer
  split
  · exact ⟨_, _, rfl⟩
  · exact publish_snd s _

end Publish

section Step
variable (P : Primitives) (client : Client) (options : ClientOptions)

def giveUp (caller : Caller) (id : Nat) : Thread :=
  .disconnect (!caller.preserves) (.failed caller id) .isConnected

def negotiateStep (choice : Choice) (s : Shared) (caller : Caller) (id : Nat) :
    Negotiation → Option (Shared × Thread)
  | .build =>
    match client.buildClientHello P choice.nonceRandom choice.privateKey choice.codecRandom
        choice.now with
    | .error _ => some (s, giveUp caller id)
    | .ok hello =>
      some ({ s with hello := Function.update s.hello id (some hello) }.record (.started id hello),
        .connect caller id (.negotiate .publishHello))
  | .publishHello =>
    some (s, if choice.ok then .connect caller id (.negotiate .waitHello) else giveUp caller id)
  | .waitHello =>
    if choice.ok then
      match s.handshakeCh id with
      | none => none
      | some handshake =>
        some ({ s with handshakeCh := Function.update s.handshakeCh id none },
          .connect caller id (.negotiate (.setSession handshake)))
    else some (s, giveUp caller id)
  | .setSession handshake =>
    some ({ s with codec := some handshake.codec, serverId := handshake.serverID },
      .connect caller id (.negotiate (.checkTransport handshake)))
  | .checkTransport handshake =>
    if client.transport ∈ handshake.transports ∧ choice.ok then
      some ({ s with answerSub := Function.update s.answerSub id (some handshake) },
        .connect caller id (.negotiate (.publishSelect handshake)))
    else some (s, giveUp caller id)
  | .publishSelect handshake =>
    match publishTransportSelect P client s with
    | (encoded, s) =>
      some (s.record (.called id .transportSelect),
        if encoded ∧ choice.ok then .connect caller id (.negotiate (.newAgent handshake))
        else giveUp caller id)
  | .newAgent handshake =>
    some (s,
      if choice.ok then .connect caller id (.negotiate (.installAgent handshake))
      else giveUp caller id)
  | .installAgent handshake =>
    if s.manualDisconnect = false ∧ s.iceAgent = none ∧ s.transportConn = none then
      some (s.on fun core => { core with iceAgent := some id },
        .connect caller id (.negotiate (.gather handshake)))
    else some (s.on (·.closeAll none (some id)), giveUp caller id)
  | .gather handshake =>
    some (s,
      if choice.ok ∧ (validateICEDescriptionLimits choice.description options.maxPendingICE
          options.maxPendingICEBytes).isOk then
        .connect caller id (.negotiate (.publishOffer handshake choice.description))
      else giveUp caller id)
  | .publishOffer handshake description =>
    match publishICEOffer P client options s description with
    | (encoded, s) =>
      some (s.record (.called id .iceOffer),
        if encoded ∧ choice.ok then .connect caller id (.negotiate (.waitAnswer handshake))
        else giveUp caller id)
  | .waitAnswer handshake =>
    if choice.ok then
      match s.answers id with
      | none => none
      | some _ =>
        some ({ s with answers := Function.update s.answers id none },
          .connect caller id (.negotiate (.dial handshake)))
    else some (s, giveUp caller id)
  | .dial handshake =>
    some (s,
      if choice.ok then .connect caller id (.negotiate (.setTransport handshake))
      else giveUp caller id)
  | .setTransport handshake =>
    if s.manualDisconnect = false ∧ s.iceAgent = some id ∧ s.transportConn = none then
      some (s.on (·.install id), .connect caller id (.loadBuffer handshake))
    else some (s.on (·.closeAll (some id) none), giveUp caller id)

def connectStep (choice : Choice) (s : Shared) (caller : Caller) (id : Nat) :
    ConnectPos → Option (Shared × Thread × List Thread)
  | .resetSession =>
    some ({ s with serverId := [], codec := none }, .connect caller id .resetSend, [])
  | .resetSend => some ({ s with signalSend := 0 }, .connect caller id .resetRecv, [])
  | .resetRecv =>
    some ({ s with signalRecv := s.signalRecv.reset }, .connect caller id .checkBuffer, [])
  | .checkBuffer =>
    some (s, .connect caller id
      (if s.buffers[s.recvBuf]?.any (!·.closed) then .resetBuffer s.recvBuf else .newBuffer), [])
  | .newBuffer =>
    some (s.on (·.storeBuffer { toRecvBuffer := .newWithLimit options.receiveBufferSize }),
      .connect caller id (.negotiate .build), [])
  | .resetBuffer b =>
    some (s.on (·.resetBuffer b), .connect caller id (.negotiate .build), [])
  | .negotiate pos =>
    (negotiateStep P client options choice s caller id pos).map fun (s, t) => (s, t, [])
  | .loadBuffer handshake => some (s, .connect caller id (.spawn handshake s.recvBuf), [])
  | .spawn handshake b =>
    some (s, .connect caller id .setConnected,
      [.reader id b handshake.dataChannel
        (ReadLoop.start ⟨.client, options.packetMode, options.maxFrameSize⟩),
        .monitor id false])
  | .setConnected =>
    some (s.on fun core => { core with connected := true }, .connect caller id (.leave true), [])
  | .leave ok =>
    some (s.on fun core => { core with connecting := false }, caller.resume id ok, [])

def disconnectStep (choice : Choice) (s : Shared) (closeBuffer : Bool) (after : After) :
    DisconnectPos → Option (Shared × Thread)
  | .bump =>
    some ({ s with reconnectGeneration := s.reconnectGeneration + 1 },
      .disconnect closeBuffer after .isConnected)
  | .isConnected =>
    some (s, .disconnect closeBuffer after (if s.connected then .publish else .flag))
  | .publish => some ((publishDisconnect P client s).2, .disconnect closeBuffer after .flag)
  | .flag =>
    some (s.on fun core => { core with connected := false },
      .disconnect closeBuffer after .loadBuffer)
  | .loadBuffer => some (s, .disconnect closeBuffer after (.buffer s.recvBuf))
  | .buffer b =>
    some (s.on fun core => if closeBuffer then core.closeBuffer b else core.resetBuffer b,
      .disconnect closeBuffer after .clear)
  | .clear =>
    some ({ s.on (·.detach) with codec := none, serverId := [] },
      .disconnect closeBuffer after (.close s.transportConn s.iceAgent))
  | .close conn agent =>
    some (s.on (·.closeAll conn agent),
      after.resume (choice.ok || (conn.isNone && agent.isNone)))

/-- `finishTransport`; the caller's transport is compared under `stateMu`, and
the rest happens after the mutex is released. -/
def finishStep (s : Shared) (g : Nat) (agent : Option Nat) :
    FinishPos → Option (Shared × Thread × List Thread)
  | .detach =>
    if s.isCurrentTransport g then some (s.on (·.detach), .finish g s.iceAgent .flag, [])
    else some (s, .finished, [])
  | .flag =>
    some (s.on fun core => { core with connected := false }, .finish g agent .loadBuffer, [])
  | .loadBuffer => some (s, .finish g agent (.reset s.recvBuf), [])
  | .reset b => some (s.on (·.resetBuffer b), .finish g agent .close, [])
  | .close => some (s.on (·.closeAll (some g) agent), .finish g agent .bump, [])
  | .bump =>
    some ({ s with reconnectGeneration := s.reconnectGeneration + 1 },
      .finish g agent (.decide (s.reconnectGeneration + 1)), [])
  | .decide generation =>
    some (s, .finished, if s.manualDisconnect then [] else [.loop generation g .manual])

def readerStep (choice : Choice) (s : Shared) (g b : Nat) (channel : DataChannel) (pc : ReadPc) :
    Shared × Thread :=
  let l : ReadLoop := ⟨.client, options.packetMode, options.maxFrameSize⟩
  match pc with
  | .finished => (s, .finish g none .detach)
  | .checkHeader _ => (s, .reader g b channel (l.checked (s.isCurrentTransport g) pc))
  | .checkPacket _ => (s, .reader g b channel (l.checked (s.isCurrentTransport g) pc))
  | .recheck _ _ => (s, .reader g b channel (l.checked (s.isCurrentTransport g) pc))
  | .openFrame _ sequence frame =>
    match channel.openFrame P sequence frame options.maxFrameSize with
    | (result, channel) => (s, .reader g b channel (l.opened result pc))
  | .writeBuffer raw =>
    match s.writeBuffer b g raw with
    | (result, core) => ({ s with toCore := core }, .reader g b channel (l.wrote result pc))
  | _ => (s, .reader g b channel (l.received choice.chunk (!choice.ok) pc))

def loopStep (s : Shared) (generation : UInt64) (origin : Nat) : LoopPos → Thread
  | .manual => if s.manualDisconnect then .finished else .loop generation origin .generation
  | .generation =>
    if s.reconnectGeneration ≠ generation then .finished else .loop generation origin .connected
  | .connected => if s.connected then .finished else .connecting (.loop generation origin)
  | .failedManual =>
    if s.manualDisconnect then .finished else .loop generation origin .failedGeneration
  | .failedGeneration =>
    if s.reconnectGeneration ≠ generation then .finished else .loop generation origin .manual

def answerStep (s : Shared) (id : Nat) : AnswerPos → Option (Shared × Thread)
  | .decode data =>
    match s.answerSub id with
    | none => none
    | some handshake =>
      match handshake.codec.decodeMessage P data with
      | .error _ => some (s, .finished)
      | .ok message =>
        some (s,
          if (message.header.getD {}).sourceId = handshake.serverID ∧
              (message.header.getD {}).targetId = client.clientId then .answer id (.accept message)
          else .finished)
  | .accept message =>
    match s.signalRecv.accept (message.header.getD {}).sequence with
    | (accepted, window) =>
      some ({ s with signalRecv := window },
        if accepted then .answer id (.send message) else .finished)
  | .send message =>
    match message.payload with
    | none => some (s, .finished)
    | some payload =>
      let answer : ICEDescription :=
        ⟨payload.iceUsername, payload.icePassword, payload.iceCandidates⟩
      if (message.header.getD {}).typ = .iceAnswer ∧ payload.iceUsername ≠ [] ∧
          payload.icePassword ≠ [] ∧ (validateICEDescriptionLimits answer options.maxPendingICE
            options.maxPendingICEBytes).isOk ∧ s.answers id = none then
        some ({ s with answers := Function.update s.answers id (some answer) }, .finished)
      else some (s, .finished)

def advance (choice : Choice) (s : Shared) : Thread → Option (Shared × Thread × List Thread)
  | .finished => none
  | .connectCall => some ({ s with manualDisconnect := false }, .connecting .user, [])
  | .disconnectCall reconnect =>
    some ({ s with manualDisconnect := true },
      .disconnect true (if reconnect then .reconnect else .user) .bump, [])
  | .connecting caller =>
    if s.connected ∨ s.connecting then some (s, caller.resume 0 false, [])
    else
      some (s.on fun core => { core with connecting := true, attempts := core.attempts + 1 },
        .connect caller s.attempts .resetSession, [])
  | .connect caller id pos => connectStep P client options choice s caller id pos
  | .disconnect closeBuffer after pos =>
    (disconnectStep P client choice s closeBuffer after pos).map fun (s, t) => (s, t, [])
  | .reader g b channel pc =>
    match readerStep P options choice s g b channel pc with
    | (s, t) => some (s, t, [])
  | .monitor g false => some (s, if s.isCurrentTransport g then .monitor g true else .finished, [])
  | .monitor g true => some (s, if choice.ok then .monitor g false else .finish g none .detach, [])
  | .finish g agent pos => finishStep s g agent pos
  | .loop generation origin pos => some (s, loopStep s generation origin pos, [])
  | .checking generation id =>
    some (s, if s.reconnectGeneration ≠ generation then .disconnect true (.checked id) .isConnected
      else .finished, [])
  | .answer id pos => (answerStep P client options s id pos).map fun (s, t) => (s, t, [])
  | .read => some (s, .readFrom s.recvBuf, [])
  | .readFrom b =>
    match s.buffers[b]? with
    | none => none
    | some buffer =>
      match buffer.read choice.size choice.now with
      | none => none
      | some (.error _, _) => some (s, .finished, [])
      | some (.ok (data, origins), buffer) =>
        some (s.on fun core => { core with buffers := core.buffers.set b buffer }.emit
          (.returned b data origins), .finished, [])

/-- A delivered packet is put into the channel of the attempt, which holds one
handshake, if `handleServerHello` accepts it. -/
def deliverHello (s : Shared) (id : Nat) (data : Bytes) (random : ClientRandom) : Option Shared :=
  match s.hello id with
  | none => none
  | some hello =>
    match client.handleServerHello P data hello random with
    | .error _ => none
    | .ok handshake =>
      if (s.handshakeCh id).isSome then none
      else
        some ({ s with handshakeCh := Function.update s.handshakeCh id (some handshake) }.record
          (.accepted id data random handshake))

def occur (s : Shared) : Call → Option (Shared × List Thread)
  | .connect => some (s, [.connectCall])
  | .disconnect => some (s, [.disconnectCall false])
  | .reconnect => some (s, [.disconnectCall true])
  | .read => some (s, [.read])
  | .deliverHello id data random => (deliverHello P client s id data random).map fun s => (s, [])
  | .deliverAnswer id data =>
    if (s.answerSub id).isSome then some (s, [.answer id (.decode data)]) else none

def program : Interleaving.Program Shared Thread Choice Call :=
  ⟨advance P client options, fun call s => occur P client s call⟩

abbrev Action := Interleaving.Action Choice Call

def run (actions : List Action) : Interleaving.Config Shared Thread :=
  (program P client options).run ⟨Shared.start options, []⟩ actions

end Step

theorem alone_eq {result : Option (Shared × Thread)} {s : Shared} {t : Thread}
    {spawned : List Thread}
    (moved : (result.map fun (s, t) => (s, t, [])) = some (s, t, spawned)) :
    result = some (s, t) ∧ spawned = [] := by
  obtain ⟨⟨_, _⟩, rfl, same⟩ := Option.map_eq_some_iff.mp moved
  cases same
  exact ⟨rfl, rfl⟩

namespace Sample

def options : ClientOptions := ⟨true, 1024, 4096, 128, 262144, by decide⟩

def goes (n count : Nat) : List Action :=
  List.replicate count (.advance n {
    nonceRandom := UInt8.ofNat
    privateKey := List.replicate 32 3
    codecRandom := UInt8.ofNat
    now := 5000 })

end Sample
end ClientMachine
end Telekit
