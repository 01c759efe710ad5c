import Telekit.Library.Interleaving
import Telekit.ServerState

/-! The WebSocket adapter: `signaling/websocket/adapter.go`, `room.go` and `read.go`.
A `*roomConn` and a `*gorilla.Conn` are pointers, here their numbers. The registry
and `connected` change under `mu`, the connection of a room under its `writeMu`,
and every step holds at most one of them. `ensureRoom` dials outside the lock, and
the reader of a room dials again when its connection fails.

Whether a dial succeeds, what a read returns, the order in which `Disconnect` goes
through the map, and a ping or a write that fails and closes its connection are
choices of the environment. A read may return what was buffered before the
connection was closed. The log of deliveries is never read. -/

namespace Telekit.WebSocket

structure RoomConn where
  id : GoString
  conn : Option Nat
  done : Bool := false
  /-- `closeOnce` has run. -/
  closed : Bool := false
  deriving DecidableEq

/-- `conns` says of each connection ever dialled whether it is open. -/
structure Shared where
  connected : Bool := false
  rooms : GoString → Option Nat := fun _ => none
  roomConns : List RoomConn := []
  conns : List Bool := []
  delivered : List (Nat × Nat) := []

namespace Shared

def closeConn (s : Shared) (n : Nat) : Shared := { s with conns := s.conns.set n false }

def update (s : Shared) (r : Nat) (f : RoomConn → RoomConn) : Shared :=
  { s with roomConns := s.roomConns.modify r f }

def dial (s : Shared) : Shared := { s with conns := s.conns ++ [true] }

def conn (s : Shared) (r : Nat) : Option Nat := (s.roomConns[r]?).bind RoomConn.conn

def isClosed (s : Shared) (r : Nat) : Bool := (s.roomConns[r]?).any RoomConn.closed

def isDone (s : Shared) (r : Nat) : Bool := (s.roomConns[r]?).any RoomConn.done

def isRegistered (s : Shared) (r : Nat) : Bool :=
  match s.roomConns[r]? with
  | none => false
  | some room => s.rooms room.id = some r

def roomActive (s : Shared) (r : Nat) : Bool := s.connected && s.isRegistered r

def registered (s : Shared) : List Nat := (List.range s.roomConns.length).filter s.isRegistered

def publish (s : Shared) (id : GoString) (n : Nat) : Shared := { s with
  rooms := Function.update s.rooms id (some s.roomConns.length)
  roomConns := s.roomConns ++ [{ id := id, conn := some n }] }

def removeRoom (s : Shared) (r : Nat) : Shared :=
  match s.roomConns[r]? with
  | none => s
  | some room =>
    if s.rooms room.id = some r then { s with rooms := Function.update s.rooms room.id none } else s

def detach (s : Shared) : Shared := { s with rooms := fun _ => none, connected := false }

def clear (s : Shared) (r n : Nat) : Shared :=
  if s.conn r = some n then s.update r fun room => { room with conn := none } else s

def closeRoom (s : Shared) (r : Nat) : Shared :=
  let s :=
    match s.conn r with
    | none => s
    | some n => s.closeConn n
  s.update r fun room => { room with conn := none, closed := true }

def deliver (s : Shared) (r n : Nat) : Shared := { s with delivered := s.delivered ++ [(r, n)] }

end Shared

inductive EnsurePos
  | check
  | dial
  | publish (n : Nat)
  | discard (n : Nat) (result : Option Nat)
  | returned (result : Option Nat)
  deriving DecidableEq

/-- Positions of `readLoop` with its connection, from `active` to `wait` of the
`reconnectRoom` it calls. -/
inductive ReaderPos
  | read (n : Nat)
  | check (n : Nat)
  | drop (n : Nat)
  | clear (n : Nat)
  | active
  | dial
  | recheck (n : Nat)
  | discard (n : Nat)
  | assign (n : Nat)
  | wait
  | remove
  | gone
  deriving DecidableEq

/-- Positions of `Disconnect`, with the rooms it still has to close and all those it
has removed. -/
inductive DisconnectPos
  | swap
  | closing (rest removed : List Nat)
  | shut (r : Nat) (rest removed : List Nat)
  | returned (removed : List Nat)
  deriving DecidableEq

inductive Thread
  | ensure (id : GoString) (pos : EnsurePos)
  | reader (r : Nat) (pos : ReaderPos)
  | disconnect (pos : DisconnectPos)
  deriving DecidableEq

inductive ReadResult
  | message
  | ignored
  | failed
  deriving DecidableEq

structure Choice where
  dialled : Bool := true
  read : ReadResult := .message
  timer : Bool := true
  next : Nat := 0

def ensureStep (choice : Choice) (s : Shared) (id : GoString) :
    EnsurePos → Option (Shared × EnsurePos × List Thread)
  | .check =>
    if s.connected then
      match s.rooms id with
      | some r => some (s, .returned (some r), [])
      | none => some (s, .dial, [])
    else some (s, .returned none, [])
  | .dial =>
    if choice.dialled then some (s.dial, .publish s.conns.length, [])
    else some (s, .returned none, [])
  | .publish n =>
    if s.connected then
      match s.rooms id with
      | some r => some (s, .discard n (some r), [])
      | none =>
        some (s.publish id n, .returned (some s.roomConns.length),
          [.reader s.roomConns.length (.read n)])
    else some (s, .discard n none, [])
  | .discard n result => some (s.closeConn n, .returned result, [])
  | .returned _ => none

def readerStep (choice : Choice) (s : Shared) (r : Nat) : ReaderPos → Option (Shared × ReaderPos)
  | .read n =>
    match choice.read with
    | .message => some (s.deliver r n, .read n)
    | .ignored => some (s, .read n)
    | .failed => some (s, .check n)
  | .check n => some (s, if s.roomActive r then .drop n else .gone)
  | .drop n => some (s.closeConn n, .clear n)
  | .clear n => some (s.clear r n, .active)
  | .active => some (s, if s.roomActive r then .dial else .remove)
  | .dial => if choice.dialled then some (s.dial, .recheck s.conns.length) else some (s, .wait)
  | .recheck n => some (s, if s.roomActive r then .assign n else .discard n)
  | .discard n => some (s.closeConn n, .remove)
  | .assign n => some (s.update r fun room => { room with conn := some n }, .read n)
  | .wait =>
    if choice.timer then some (s, .active)
    else if s.isDone r then some (s, .remove)
    else none
  | .remove => some (s.removeRoom r, .gone)
  | .gone => none

def disconnectStep (choice : Choice) (s : Shared) : DisconnectPos → Option (Shared × DisconnectPos)
  | .swap => some (s.detach, .closing s.registered s.registered)
  | .closing [] removed => some (s, .returned removed)
  | .closing (first :: others) removed =>
    let rest := first :: others
    if choice.next ∈ rest then
      if s.isClosed choice.next then some (s, .closing (rest.erase choice.next) removed)
      else
        some (s.update choice.next fun room => { room with done := true },
          .shut choice.next (rest.erase choice.next) removed)
    else none
  | .shut r rest removed => some (s.closeRoom r, .closing rest removed)
  | .returned _ => none

def advance (choice : Choice) (s : Shared) : Thread → Option (Shared × Thread × List Thread)
  | .ensure id pos =>
    match ensureStep choice s id pos with
    | none => none
    | some (s', pos', spawned) => some (s', .ensure id pos', spawned)
  | .reader r pos =>
    match readerStep choice s r pos with
    | none => none
    | some (s', pos') => some (s', .reader r pos', [])
  | .disconnect pos =>
    match disconnectStep choice s pos with
    | none => none
    | some (s', pos') => some (s', .disconnect pos', [])

inductive Call
  | connect
  | disconnect
  | ensureRoom (id : GoString)
  | broken (n : Nat)

def occur (call : Call) (s : Shared) : Option (Shared × List Thread) :=
  match call with
  | .connect => some ({ s with connected := true }, [])
  | .disconnect => some (s, [.disconnect .swap])
  | .ensureRoom id =>
    match validateRoomID id with
    | .error _ => none
    | .ok () => some (s, [.ensure id .check])
  | .broken n => some (s.closeConn n, [])

abbrev Action := Interleaving.Action Choice Call

def program : Interleaving.Program Shared Thread Choice Call where
  advance := advance
  event := occur

def run (actions : List Action) : Interleaving.Config Shared Thread :=
  program.run ⟨{}, []⟩ actions

end Telekit.WebSocket
