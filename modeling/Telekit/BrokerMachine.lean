import Telekit.Library.Interleaving
import Telekit.ServerState

/-! The WebSocket broker: `signaling/websocket/broker/broker.go`. A handler runs
`ServeHTTP` for one client, a writer its `writeLoop`. A room state is a pointer,
here its number, and so is a client, which has its number from the request on.
Every step holds at most one of the mutexes or is one atomic operation: the
registry of rooms and the counters change under `roomMu` and `countsMu`, a room
under its own mutex, and `broadcast` reads the registry without any.

The upgrade, what a client sends, whether the limiter lets it pass, the outcome
of a write, the order of a map and the case a `select` takes are choices of the
environment. The log of rooms and the lists of accepted and written messages
record what happened and are never read. -/

namespace Telekit.Broker

def defaultConnectionsPerRoom : Int := 256
def defaultConnectionsPerIP : Int := 32
def defaultClientQueueMessages : Nat := 64
def defaultClientQueueBytes : Int := 16 * 2 ^ 20

/-- The limits of a broker, which the options keep positive. -/
structure Config where
  connectionsPerRoom : Int := defaultConnectionsPerRoom
  connectionsPerIP : Int := defaultConnectionsPerIP
  queueMessages : Nat := defaultClientQueueMessages
  queueBytes : Int := defaultClientQueueBytes
  positive : 0 < connectionsPerRoom ∧ 0 < connectionsPerIP ∧ 0 < queueMessages ∧
    0 < queueBytes := by decide

namespace Config

def withConnectionLimits (config : Config) (perRoom perIP : Int) : Config := { config with
  connectionsPerRoom := if 0 < perRoom then perRoom else config.connectionsPerRoom
  connectionsPerIP := if 0 < perIP then perIP else config.connectionsPerIP
  positive := by
    have positive := config.positive
    refine ⟨?_, ?_, positive.2.2⟩
    · split_ifs <;> omega
    · split_ifs <;> omega }

def withClientQueueLimits (config : Config) (messages bytes : Int) : Config := { config with
  queueMessages := if 0 < messages then messages.toNat else config.queueMessages
  queueBytes := if 0 < bytes then bytes else config.queueBytes
  positive := by
    have positive := config.positive
    refine ⟨positive.1, positive.2.1, ?_, ?_⟩
    · split_ifs <;> omega
    · split_ifs <;> omega }

end Config

inductive Event
  | added (n : Nat) (id : GoString)
  | removed (n : Nat) (id : GoString)
  | snapshot (n : Nat) (id : GoString) (members : List Nat)
  | missed (n : Nat) (id : GoString)

structure Room where
  id : GoString
  closed : Bool := false
  clients : List Nat := []
  deriving DecidableEq

def Room.including (room : Room) (n : Nat) : Room :=
  { room with clients := if n ∈ room.clients then room.clients else room.clients ++ [n] }

def Room.without (room : Room) (n : Nat) : Room :=
  let clients := room.clients.filter fun m => m ≠ n
  { room with clients := clients, closed := room.closed || clients.isEmpty }

structure Rooms where
  registry : GoString → Option Nat := fun _ => none
  states : List Room := []
  log : List Event := []

namespace Rooms

def register (s : Rooms) (id : GoString) : Rooms := { s with
  registry := Function.update s.registry id (some s.states.length)
  states := s.states ++ [{ id := id }] }

def ensureRoom (s : Rooms) (id : GoString) : Except Failure Nat × Rooms :=
  match validateRoomID id with
  | .error err => (.error err, s)
  | .ok () =>
    match s.registry id with
    | some r => (.ok r, s)
    | none => (.ok s.states.length, s.register id)

def deregister (s : Rooms) (id : GoString) (r : Nat) : Rooms :=
  if s.registry id = some r then { s with registry := Function.update s.registry id none } else s

def replaceRoom (s : Rooms) (id : GoString) (r : Nat) : Rooms := s.deregister id r

def change (s : Rooms) (r : Nat) (room : Room) (event : Event) : Rooms :=
  { s with states := s.states.set r room, log := s.log ++ [event] }

def add (s : Rooms) (id : GoString) (r n : Nat) : Bool × Rooms :=
  match s.states[r]? with
  | none => (false, s)
  | some room =>
    if room.closed then (false, s) else (true, s.change r (room.including n) (.added n id))

def remove (s : Rooms) (id : GoString) (r n : Nat) : Bool × Rooms :=
  match s.states[r]? with
  | none => (false, s)
  | some room => ((room.without n).clients.isEmpty, s.change r (room.without n) (.removed n id))

def record (s : Rooms) (event : Event) : Rooms := { s with log := s.log ++ [event] }

def members (s : Rooms) (r : Nat) (order : List Nat) : List Nat :=
  match s.states[r]? with
  | none => []
  | some room => if order.isPerm room.clients then order else room.clients

end Rooms

structure Message where
  typ : Int
  data : Bytes

def Message.size (m : Message) : Int := m.data.length

structure Client where
  send : List Message := []
  queuedBytes : Int := 0
  done : Bool := false
  accepted : List Message := []
  written : List Message := []

structure Shared where
  rooms : Rooms := {}
  roomCounts : GoString → Option Int := fun _ => none
  ipCounts : GoString → Option Int := fun _ => none
  clients : List Client := []

namespace Shared

def reserve (config : Config) (s : Shared) (id ip : GoString) : Bool × Shared :=
  let roomCount := (s.roomCounts id).getD 0
  let ipCount := (s.ipCounts ip).getD 0
  if roomCount ≥ config.connectionsPerRoom ∨ ipCount ≥ config.connectionsPerIP then (false, s)
  else (true, { s with
    roomCounts := Function.update s.roomCounts id (some (roomCount + 1))
    ipCounts := Function.update s.ipCounts ip (some (ipCount + 1)) })

def lower (counts : GoString → Option Int) (key : GoString) : GoString → Option Int :=
  match counts key with
  | none => counts
  | some count => Function.update counts key (if count ≤ 1 then none else some (count - 1))

def release (s : Shared) (id ip : GoString) : Shared :=
  { s with ipCounts := lower s.ipCounts ip, roomCounts := lower s.roomCounts id }

def setRooms (s : Shared) (rooms : Rooms) : Shared := { s with rooms := rooms }

def update (s : Shared) (n : Nat) (f : Client → Client) : Shared :=
  { s with clients := s.clients.modify n f }

theorem update_length (s : Shared) (n : Nat) (f : Client → Client) :
    (s.update n f).clients.length = s.clients.length := by simp [update]

end Shared

namespace Client

def close (c : Client) : Client := { c with done := true }

def addBytes (c : Client) (delta : Int) : Client := { c with queuedBytes := c.queuedBytes + delta }

def push (c : Client) (m : Message) : Client :=
  { c with send := c.send ++ [m], accepted := c.accepted ++ [m] }

def pop (c : Client) : Client := { c with send := c.send.tail }

def write (c : Client) (m : Message) : Client := { c with written := c.written ++ [m] }

end Client

/-- Positions of `ServeHTTP` after its first checks. `add`, `replace` and the
positions of a joined client carry the room; the delivery of a broadcast goes
through `enqueue`, whose loop loads the counter, swaps it and sends. -/
inductive HandlerPos
  | reserve
  | upgrade
  | ensure (again : Bool)
  | add (again : Bool) (r : Nat)
  | replace (r : Nat)
  | reading (r : Nat)
  | lookup (r : Nat) (m : Message)
  | snapshot (r found : Nat) (m : Message)
  | enqueue (r : Nat) (m : Message) (rest : List Nat)
  | swap (r : Nat) (m : Message) (peer : Nat) (used : Int) (rest : List Nat)
  | send (r : Nat) (m : Message) (peer : Nat) (rest : List Nat)
  | restore (r : Nat) (m : Message) (peer : Nat) (rest : List Nat)
  | kick (r : Nat) (m : Message) (peer : Nat) (rest : List Nat)
  | remove (r : Nat)
  | deregister (r : Nat)
  | close
  | release
  | gone

inductive WriterPos
  | select
  | write (m : Message)
  | settle (m : Message) (ok : Bool)
  | closing
  | gone

inductive Thread
  | handler (n : Nat) (id ip : GoString) (pos : HandlerPos)
  | writer (n : Nat) (pos : WriterPos)

inductive Branch
  | done
  | message
  | tick
  deriving DecidableEq

/-- `ok` is the outcome of an upgrade, a write or a ping; `message` is what a
read delivers, unless it fails or the limiter refuses it. -/
structure Choice where
  ok : Bool := true
  message : Option Message := none
  order : List Nat := []
  branch : Branch := .message

def handlerStep (config : Config) (choice : Choice) (s : Shared) (n : Nat) (id ip : GoString) :
    HandlerPos → Option (Shared × HandlerPos × List Thread)
  | .reserve =>
    match s.reserve config id ip with
    | (true, s') => some (s', .upgrade, [])
    | (false, s') => some (s', .gone, [])
  | .upgrade => some (s, if choice.ok then .ensure false else .release, [])
  | .ensure again =>
    match s.rooms.ensureRoom id with
    | (.error _, rooms) => some (s.setRooms rooms, .release, [])
    | (.ok r, rooms) => some (s.setRooms rooms, .add again r, [])
  | .add again r =>
    match s.rooms.add id r n with
    | (true, rooms) => some (s.setRooms rooms, .reading r, [.writer n .select])
    | (false, rooms) => some (s.setRooms rooms, if again then .release else .replace r, [])
  | .replace r => some (s.setRooms (s.rooms.replaceRoom id r), .ensure true, [])
  | .reading r =>
    match choice.message with
    | none => some (s, .remove r, [])
    | some m => some (s, .lookup r m, [])
  | .lookup r m =>
    match s.rooms.registry id with
    | none => some (s.setRooms (s.rooms.record (.missed n id)), .reading r, [])
    | some found => some (s, .snapshot r found m, [])
  | .snapshot r found m =>
    let members := s.rooms.members found choice.order
    some (s.setRooms (s.rooms.record (.snapshot n id members)), .enqueue r m members, [])
  | .enqueue r _ [] => some (s, .reading r, [])
  | .enqueue r m (peer :: rest) =>
    match s.clients[peer]? with
    | none => some (s, .enqueue r m rest, [])
    | some c =>
      if m.size > config.queueBytes - c.queuedBytes then some (s, .kick r m peer rest, [])
      else some (s, .swap r m peer c.queuedBytes rest, [])
  | .swap r m peer used rest =>
    match s.clients[peer]? with
    | none => some (s, .enqueue r m rest, [])
    | some c =>
      if c.queuedBytes = used then
        some (s.update peer fun c => c.addBytes m.size, .send r m peer rest, [])
      else some (s, .enqueue r m (peer :: rest), [])
  | .send r m peer rest =>
    match s.clients[peer]? with
    | none => some (s, .enqueue r m rest, [])
    | some c =>
      -- the case of the closed client may be taken although the queue has room
      if c.send.length < config.queueMessages ∧ (c.done = false ∨ choice.branch ≠ .done) then
        some (s.update peer fun c => c.push m, .enqueue r m rest, [])
      else some (s, .restore r m peer rest, [])
  | .restore r m peer rest =>
    some (s.update peer fun c => c.addBytes (-m.size), .kick r m peer rest, [])
  | .kick r m peer rest => some (s.update peer Client.close, .enqueue r m rest, [])
  | .remove r =>
    match s.rooms.remove id r n with
    | (true, rooms) => some (s.setRooms rooms, .deregister r, [])
    | (false, rooms) => some (s.setRooms rooms, .close, [])
  | .deregister r => some (s.setRooms (s.rooms.deregister id r), .close, [])
  | .close => some (s.update n Client.close, .release, [])
  | .release => some (s.release id ip, .gone, [])
  | .gone => none

def writerStep (choice : Choice) (s : Shared) (n : Nat) : WriterPos → Option (Shared × WriterPos)
  | .select =>
    match s.clients[n]? with
    | none => none
    | some c =>
      match choice.branch with
      | .done => if c.done then some (s, .gone) else none
      | .message =>
        match c.send with
        | [] => none
        | m :: _ => some (s.update n Client.pop, .write m)
      | .tick => some (s, if choice.ok then .select else .closing)
  | .write m => some (s.update n fun c => c.write m, .settle m choice.ok)
  | .settle m ok =>
    some (s.update n fun c => c.addBytes (-m.size), if ok then .select else .closing)
  | .closing => some (s.update n Client.close, .gone)
  | .gone => none

def advance (config : Config) (choice : Choice) (s : Shared) :
    Thread → Option (Shared × Thread × List Thread)
  | .handler n id ip pos =>
    match handlerStep config choice s n id ip pos with
    | none => none
    | some (s', pos', spawned) => some (s', .handler n id ip pos', spawned)
  | .writer n pos =>
    match writerStep choice s n pos with
    | none => none
    | some (s', pos') => some (s', .writer n pos', [])

structure Request where
  path : GoString
  authorized : Bool
  ip : GoString

def trimSlashes (path : GoString) : GoString :=
  let slash : UInt8 → Bool := fun b => b = 47
  ((path.dropWhile slash).reverse.dropWhile slash).reverse

/-- `ServeHTTP` up to the reservation; a refused request leaves no trace. -/
def occur (request : Request) (s : Shared) : Option (Shared × List Thread) :=
  let id := trimSlashes request.path
  match validateRoomID id with
  | .error _ => none
  | .ok () =>
    if request.authorized then
      some ({ s with clients := s.clients ++ [{}] },
        [.handler s.clients.length id request.ip .reserve])
    else none

abbrev Action := Interleaving.Action Choice Request

def program (config : Config) : Interleaving.Program Shared Thread Choice Request where
  advance := advance config
  event := occur

def run (config : Config) (actions : List Action) : Interleaving.Config Shared Thread :=
  (program config).run ⟨{}, []⟩ actions

end Telekit.Broker
