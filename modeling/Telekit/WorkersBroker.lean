import Telekit.Library.Interleaving
import Telekit.Library.Tally
import Telekit.Handshake

/-! The broker for Cloudflare Workers:
`signaling/websocket/server_cloudflare_workers/src/core.js`. JavaScript runs one
turn at a time, so a step is what runs between two `await`s, one call from outside
or one microtask. A call of `admit` and a scheduled `#flush` are tasks, an
admission and a session are objects, here their numbers. Text is its UTF-8 form.

What the two policies answer, whether they throw, whether a session can be made
and which `socket.send` throws are choices of the environment. The lists of
enqueued and sent messages of a session record what happened and are never read. -/

namespace Telekit.Workers

def defaultMaxMessageBytes : Int := 16 * 2 ^ 20
def defaultMaxConnectionsPerRoom : Int := 256
def defaultMaxConnectionsPerIP : Int := 32
def defaultMaxQueueMessages : Int := 64
def defaultMaxQueueBytes : Int := 16 * 2 ^ 20

def positive (value : Option Int) (fallback : Int) : Int :=
  match value with
  | none => fallback
  | some value => if 0 < value then value else fallback

theorem positive_pos {fallback : Int} (pos : 0 < fallback) (value : Option Int) :
    0 < positive value fallback := by
  unfold positive
  cases value with
  | none => exact pos
  | some value =>
    dsimp only
    split_ifs with given
    · exact given
    · exact pos

structure GivenLimits where
  maxMessageBytes : Option Int := none
  maxConnectionsPerRoom : Option Int := none
  maxConnectionsPerIP : Option Int := none
  maxQueueMessages : Option Int := none
  maxQueueBytes : Option Int := none

structure Limits where
  maxMessageBytes : Int
  maxConnectionsPerRoom : Int
  maxConnectionsPerIP : Int
  maxQueueMessages : Int
  maxQueueBytes : Int
  messagePositive : 0 < maxMessageBytes
  roomPositive : 0 < maxConnectionsPerRoom
  addressPositive : 0 < maxConnectionsPerIP
  queuePositive : 0 < maxQueueMessages
  bytesPositive : 0 < maxQueueBytes

def GivenLimits.fill (given : GivenLimits) : Limits where
  maxMessageBytes := positive given.maxMessageBytes defaultMaxMessageBytes
  maxConnectionsPerRoom := positive given.maxConnectionsPerRoom defaultMaxConnectionsPerRoom
  maxConnectionsPerIP := positive given.maxConnectionsPerIP defaultMaxConnectionsPerIP
  maxQueueMessages := positive given.maxQueueMessages defaultMaxQueueMessages
  maxQueueBytes := positive given.maxQueueBytes defaultMaxQueueBytes
  messagePositive := positive_pos (by decide) _
  roomPositive := positive_pos (by decide) _
  addressPositive := positive_pos (by decide) _
  queuePositive := positive_pos (by decide) _
  bytesPositive := positive_pos (by decide) _

inductive SocketData
  | text (utf8 : Bytes)
  | buffer (bytes : Bytes)
  | array (bytes : Bytes)

def copySocketData : SocketData → SocketData
  | .text utf8 => .text utf8
  | .buffer bytes => .array bytes
  | .array bytes => .array bytes

def socketDataBytes : SocketData → Int
  | .text utf8 => utf8.length
  | .buffer bytes => bytes.length
  | .array bytes => bytes.length

def validateRoomID (roomID : GoString) : Option GoString :=
  if (1 ≤ roomID.length ∧ roomID.length ≤ 128) ∧ roomID.all isIdentifierByte = true then none
  else some (str "invalid room ID: use 1-128 letters, digits, underscore, or hyphen")

structure Session where
  roomID : GoString
  ip : GoString
  closed : Bool := false
  queue : List SocketData := []
  queuedBytes : Int := 0
  flushing : Bool := false
  /-- The call of `socket.close`, if there was one. -/
  closing : Option (Nat × GoString) := none
  enqueued : List SocketData := []
  sent : List SocketData := []

def Session.close (session : Session) (closing : Option (Nat × GoString)) : Session :=
  { session with closed := true, queue := [], queuedBytes := 0, closing := closing }

/-- What `admit` hands out: a reservation that `attach` or `cancel` uses once. -/
structure Admission where
  roomID : GoString
  ip : GoString
  used : Bool := false

structure Refusal where
  status : Nat
  reason : GoString

/-- Calls of `admit`, at the policy they wait for or with their result, and flushes. -/
inductive Task
  | checkOrigin (roomID ip : GoString)
  | authorize (roomID ip : GoString)
  | refused (refusal : Refusal)
  | accepted (admission : Nat)
  | rejected
  | flush (n : Nat)
  | flushed

structure Broker where
  rooms : GoString → Option (List Nat) := fun _ => none
  roomReservations : GoString → Option Int := fun _ => none
  ipCounts : GoString → Option Int := fun _ => none
  admissions : List Admission := []
  sessions : List Session := []

namespace Broker

def members (s : Broker) (roomID : GoString) : List Nat := (s.rooms roomID).getD []

def releaseIP (s : Broker) (ip : GoString) : Broker :=
  { s with ipCounts := Tally.lower s.ipCounts ip }

def releaseRoomReservation (s : Broker) (roomID : GoString) : Broker :=
  { s with roomReservations := Tally.lower s.roomReservations roomID }

def setSession (s : Broker) (n : Nat) (session : Session) : Broker :=
  { s with sessions := s.sessions.set n session }

def setRoom (s : Broker) (roomID : GoString) (members : Option (List Nat)) : Broker :=
  { s with rooms := Function.update s.rooms roomID members }

/-- The limits, checked and reserved in the last turn of `admit`. -/
def reserve (limits : Limits) (s : Broker) (roomID ip : GoString) : Task × Broker :=
  let roomConnections := (s.members roomID).length + Tally.count s.roomReservations roomID
  let ipConnections := Tally.count s.ipCounts ip
  if roomConnections ≥ limits.maxConnectionsPerRoom ∨ ipConnections ≥ limits.maxConnectionsPerIP then
    (.refused ⟨429, str "WebSocket connection limit reached"⟩, s)
  else
    (.accepted s.admissions.length, { s with
      roomReservations := Tally.raise s.roomReservations roomID
      ipCounts := Tally.raise s.ipCounts ip
      admissions := s.admissions ++ [{ roomID := roomID, ip := ip }] })

def consumeReservation (s : Broker) (a : Nat) (admission : Admission) : Broker :=
  releaseRoomReservation
    { s with admissions := s.admissions.set a { admission with used := true } } admission.roomID

/-- `attach`; a `failure` is what making the session throws, and the `catch` runs. -/
def attach (s : Broker) (a : Nat) (admission : Admission) (failure : Option GoString) :
    Except GoString Nat × Broker :=
  if admission.used then (.error (str "WebSocket admission was already consumed"), s)
  else
    let s := s.consumeReservation a admission
    let room := s.members admission.roomID
    match failure with
    | none =>
      (.ok s.sessions.length,
        { s.setRoom admission.roomID (some (room ++ [s.sessions.length])) with
          sessions := s.sessions ++ [{ roomID := admission.roomID, ip := admission.ip }] })
    | some err =>
      (.error err, (s.setRoom admission.roomID (some room)).releaseIP admission.ip)

def cancel (s : Broker) (a : Nat) (admission : Admission) : Broker :=
  if admission.used then s
  else (s.consumeReservation a admission).releaseIP admission.ip

def remove (s : Broker) (n : Nat) (roomID ip : GoString) : Broker :=
  let s :=
    match s.rooms roomID with
    | none => s
    | some room =>
      let rest := room.erase n
      s.setRoom roomID (if rest.isEmpty then none else some rest)
  s.releaseIP ip

def disconnect (s : Broker) (n : Nat) (code : Nat) (reason : GoString) (closeSocket : Bool) :
    Broker :=
  match s.sessions[n]? with
  | none => s
  | some session =>
    if session.closed then s
    else
      (s.setSession n (session.close (if closeSocket then some (code, reason) else none))).remove
        n session.roomID session.ip

end Broker

def Session.scheduleFlush (session : Session) (n : Nat) : Session × List Task :=
  if session.flushing then (session, []) else ({ session with flushing := true }, [.flush n])

namespace Broker

def enqueue (limits : Limits) (s : Broker) (n : Nat) (data : SocketData) : Broker × List Task :=
  match s.sessions[n]? with
  | none => (s, [])
  | some session =>
    if session.closed then (s, [])
    else
      let message := copySocketData data
      let bytes := socketDataBytes message
      if session.queue.length ≥ limits.maxQueueMessages ∨
          session.queuedBytes + bytes > limits.maxQueueBytes then
        (s.disconnect n 1009 (str "send queue limit exceeded") true, [])
      else
        let (session, tasks) := Session.scheduleFlush { session with
          queue := session.queue ++ [message]
          queuedBytes := session.queuedBytes + bytes
          enqueued := session.enqueued ++ [message] } n
        (s.setSession n session, tasks)

/-- The loop of `broadcast`, over the copy it makes of the room. -/
def enqueueAll (limits : Limits) (data : SocketData) : List Nat → Broker → Broker × List Task
  | [], s => (s, [])
  | n :: rest, s =>
    let (s, tasks) := s.enqueue limits n data
    let (s, more) := enqueueAll limits data rest s
    (s, tasks ++ more)

def broadcast (limits : Limits) (s : Broker) (roomID : GoString) (data : SocketData) :
    Broker × List Task :=
  enqueueAll limits data (s.members roomID) s

def receive (limits : Limits) (s : Broker) (n : Nat) (data : SocketData) : Broker × List Task :=
  match s.sessions[n]? with
  | none => (s, [])
  | some session =>
    if session.closed then (s, [])
    else
      let message := copySocketData data
      if socketDataBytes message > limits.maxMessageBytes then
        (s.disconnect n 1009 (str "message too large") true, [])
      else s.broadcast limits session.roomID message

end Broker

/-- The loop of `#flush` over the queue; the given `send` throws, if any, and the
message it was called with has left the queue. -/
def Session.drain : List SocketData → Option Nat → Session → Session × Bool
  | [], _, session => (session, false)
  | message :: rest, failing, session =>
    let shifted := { session with
      queue := rest
      queuedBytes := session.queuedBytes - socketDataBytes message }
    match failing with
    | some 0 => (shifted, true)
    | some (k + 1) => drain rest (some k) { shifted with sent := shifted.sent ++ [message] }
    | none => drain rest none { shifted with sent := shifted.sent ++ [message] }

namespace Broker

def finishFlush (s : Broker) (n : Nat) : Broker × List Task :=
  match s.sessions[n]? with
  | none => (s, [])
  | some session =>
    let session := { session with flushing := false }
    if session.closed = false ∧ session.queue ≠ [] then
      let (session, tasks) := session.scheduleFlush n
      (s.setSession n session, tasks)
    else (s.setSession n session, [])

def flush (s : Broker) (n : Nat) (failing : Option Nat) : Broker × List Task :=
  match s.sessions[n]? with
  | none => (s, [])
  | some session =>
    let (session, threw) :=
      if session.closed then (session, false) else session.drain session.queue failing
    let s := s.setSession n session
    let s := if threw then s.disconnect n 1011 (str "WebSocket send failed") true else s
    s.finishFlush n

end Broker

/-- `answer` is what the policy says, or that it throws; `failing` is the `send`
of a flush that throws. -/
structure Choice where
  answer : Option Bool := some true
  failing : Option Nat := none

def advance (limits : Limits) (choice : Choice) (s : Broker) :
    Task → Option (Broker × Task × List Task)
  | .checkOrigin roomID ip =>
    match choice.answer with
    | none => some (s, .rejected, [])
    | some false => some (s, .refused ⟨403, str "WebSocket origin denied"⟩, [])
    | some true => some (s, .authorize roomID ip, [])
  | .authorize roomID ip =>
    match choice.answer with
    | none => some (s, .rejected, [])
    | some false => some (s, .refused ⟨403, str "WebSocket room access denied"⟩, [])
    | some true =>
      let (task, s) := s.reserve limits roomID ip
      some (s, task, [])
  | .flush n =>
    let (s, tasks) := s.flush n choice.failing
    some (s, .flushed, tasks)
  | .refused _ => none
  | .accepted _ => none
  | .rejected => none
  | .flushed => none

inductive Call
  | admitRequest (roomID ip : GoString)
  | attach (a : Nat) (failure : Option GoString)
  | cancel (a : Nat)
  | receive (n : Nat) (data : SocketData)
  | disconnect (n : Nat) (code : Nat) (reason : GoString) (closeSocket : Bool)
  | enqueue (n : Nat) (data : SocketData)
  | broadcast (roomID : GoString) (data : SocketData)

def occur (limits : Limits) (call : Call) (s : Broker) : Option (Broker × List Task) :=
  match call with
  | .admitRequest roomID ip =>
    match validateRoomID roomID with
    | some reason => some (s, [.refused ⟨400, reason⟩])
    | none => some (s, [.checkOrigin roomID ip])
  | .attach a failure =>
    match s.admissions[a]? with
    | none => none
    | some admission => some ((s.attach a admission failure).2, [])
  | .cancel a =>
    match s.admissions[a]? with
    | none => none
    | some admission => some (s.cancel a admission, [])
  | .receive n data => some (s.receive limits n data)
  | .disconnect n code reason closeSocket => some (s.disconnect n code reason closeSocket, [])
  | .enqueue n data => some (s.enqueue limits n data)
  | .broadcast roomID data => some (s.broadcast limits roomID data)

abbrev Action := Interleaving.Action Choice Call

def program (limits : Limits) : Interleaving.Program Broker Task Choice Call where
  advance := advance limits
  event := occur limits

def run (limits : Limits) (actions : List Action) : Interleaving.Config Broker Task :=
  (program limits).run ⟨{}, []⟩ actions

end Telekit.Workers
