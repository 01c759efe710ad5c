import Telekit.Library.Interleaving
import Telekit.ServerState

/-! The subscriptions of the MQTT adapter: `signaling/mqtt/utils.go`. A group of
handlers is a pointer, here its number; it knows the topic it was made for, so
ranging over `subs` is ranging over the groups that `subs` holds. A `ready`
channel is a number with a flag for closed. Everything under the mutex is one
step, and so is every atomic load.

The native operations belong to the imported client. A SUBSCRIBE or UNSUBSCRIBE
is in flight from its start until `waitToken` returns, and has then taken effect
or failed; it succeeds only on an open connection. Callbacks run as threads of
their own. `completed` holds the operations completed on the current connection;
with it, what calls returned and which handlers were given up are recorded and
never read. Counters are natural numbers. -/

namespace Telekit.Mqtt

def maxMessageTypeLength : Nat := 32

def validateMessageType (typ : GoString) : Except Failure Unit :=
  if typ.length = 0 ∨ typ.length > maxMessageTypeLength then
    fail "invalid signaling message type length: must be between 1 and 32 bytes"
  else if typ.all isIdentifierByte = false then
    .error (.text (str "invalid signaling message type " ++ quote typ))
  else .ok ()

def topic (baseTopic roomID typ : GoString) : GoString :=
  baseTopic ++ str "/" ++ roomID ++ str "/" ++ typ

/-- A `topicSubscriptions`, with its topic; handlers are their numbers. -/
structure Group where
  topic : GoString
  handlers : List Nat := []
  subscribed : Bool := false
  subscribing : Bool := false
  ready : Nat := 0
  deriving DecidableEq

inductive Kind
  | subscribe
  | unsubscribe
  deriving DecidableEq

structure Operation where
  topic : GoString
  kind : Kind
  ok : Bool
  deriving DecidableEq

structure Shared where
  isOpen : Bool := false
  generation : Nat := 0
  nextID : Nat := 0
  subs : GoString → Option Nat := fun _ => none
  groups : List Group := []
  channels : List Bool := []
  completed : List Operation := []
  returned : List (Nat × GoString) := []
  failed : List Nat := []
  unsubscribed : List Nat := []

namespace Shared

def setGroup (s : Shared) (g : Nat) (f : Group → Group) : Shared :=
  { s with groups := s.groups.modify g f }

def holds (s : Shared) (g : Nat) (group : Group) : Bool := decide (s.subs group.topic = some g)

def begin (s : Shared) (g : Nat) : Shared := { s with
  groups := s.groups.modify g fun group =>
    { group with subscribing := true, ready := s.channels.length }
  channels := s.channels ++ [false] }

def complete (s : Shared) (operation : Operation) : Shared :=
  { s with completed := s.completed ++ [operation] }

def finish (s : Shared) (g channel : Nat) (subscribed : Bool) : Shared := { s with
  groups := s.groups.modify g fun group =>
    { group with subscribed := subscribed, subscribing := false }
  channels := s.channels.set channel true }

def delete (s : Shared) (topic : GoString) : Shared :=
  { s with subs := Function.update s.subs topic none }

def join (s : Shared) (topic : GoString) (id : Nat) : Shared :=
  match s.subs topic with
  | some g => s.setGroup g fun group => { group with handlers := group.handlers ++ [id] }
  | none => { s with
      subs := Function.update s.subs topic (some s.groups.length)
      groups := s.groups ++ [{ topic := topic, handlers := [id] }] }

def holder (s : Shared) (id : Nat) : Option Nat :=
  (List.range s.groups.length).find? fun g =>
    s.groups[g]?.any fun group => s.holds g group && decide (id ∈ group.handlers)

def drop (s : Shared) (g id : Nat) : Shared :=
  s.setGroup g fun group => { group with handlers := group.handlers.filter fun h => h ≠ id }

def markSubscriptionsStale (s : Shared) : Shared := { s with
  groups := s.groups.mapIdx fun g group =>
    if s.holds g group then { group with subscribed := false } else group }

def occupied (s : Shared) : List Group :=
  (List.range s.groups.length).filterMap fun g =>
    s.groups[g]?.filter fun group => s.holds g group && !group.handlers.isEmpty

def subscriptionsReady (s : Shared) : Bool := s.occupied.all fun group => group.subscribed

def subscriptionTopics (s : Shared) (order : List GoString) : List GoString :=
  let topics := s.occupied.map fun group => group.topic
  if order.isPerm topics then order else topics

end Shared

structure Choice where
  ok : Bool := true
  order : List GoString := []

/-- Positions of `ensureSubscribed`: the look at the group, the wait for another
operation, the SUBSCRIBE in flight and the return from it. -/
inductive EnsurePos
  | check
  | wait (channel : Nat)
  | native (g channel generation : Nat)
  | settle (g channel generation : Nat) (ok : Bool)
  | done (ok : Bool)

def ensureStep (choice : Choice) (s : Shared) (topic : GoString) :
    EnsurePos → Option (Shared × EnsurePos)
  | .check =>
    match s.subs topic with
    | none => some (s, .done true)
    | some g =>
      match s.groups[g]? with
      | none => some (s, .done true)
      | some group =>
        if group.handlers = [] then some (s, .done true)
        else if group.subscribed then some (s, .done true)
        else if group.subscribing then some (s, .wait group.ready)
        else some (s.begin g, .native g s.channels.length s.generation)
  | .wait channel => if s.channels[channel]? = some true then some (s, .check) else none
  | .native g channel generation =>
    if choice.ok = true ∧ s.isOpen = false then none
    else some (s.complete ⟨topic, .subscribe, choice.ok⟩, .settle g channel generation choice.ok)
  | .settle g channel generation ok =>
    some (s.finish g channel (ok && decide (s.generation = generation)), .done ok)
  | .done _ => none

/-- Positions of `unsubscribe`: the handler is removed, and if it was the last
one the loop ends with the group gone or in use again. -/
inductive UnsubPos
  | remove
  | loop (topic : GoString) (g : Nat)
  | wait (topic : GoString) (g channel : Nat)
  | native (topic : GoString) (g channel : Nat)
  | settle (topic : GoString) (g channel : Nat) (ok : Bool)
  | done (ok : Bool)

def unsubStep (choice : Choice) (s : Shared) (id : Nat) :
    UnsubPos → Option (Shared × UnsubPos)
  | .remove =>
    match s.holder id with
    | none => some (s, .done true)
    | some g =>
      match s.groups[g]? with
      | none => some (s, .done true)
      | some group =>
        let topic := if (group.handlers.filter fun h => h ≠ id) = [] then group.topic else []
        some (s.drop g id, if topic = [] then .done true else .loop topic g)
  | .loop topic g =>
    match s.groups[g]? with
    | none => none
    | some group =>
      if s.subs topic ≠ some g ∨ group.handlers ≠ [] then some (s, .done true)
      else if group.subscribing then some (s, .wait topic g group.ready)
      else if group.subscribed = false ∨ s.isOpen = false then some (s.delete topic, .done true)
      else some (s.begin g, .native topic g s.channels.length)
  | .wait topic g channel =>
    if s.channels[channel]? = some true then some (s, .loop topic g) else none
  | .native topic g channel =>
    if choice.ok = true ∧ s.isOpen = false then none
    else some (s.complete ⟨topic, .unsubscribe, choice.ok⟩, .settle topic g channel choice.ok)
  | .settle topic g channel ok =>
    match s.groups[g]? with
    | none => none
    | some group =>
      if group.handlers = [] ∧ s.subs topic = some g then
        some ((s.finish g channel false).delete topic, .done ok)
      else some (s.finish g channel false, .done ok)
  | .done _ => none

inductive OnPos
  | opened
  | allot
  | join (id : Nat)
  | ensure (id : Nat) (pos : EnsurePos)
  | rollback (id : Nat) (pos : UnsubPos)
  | finished

def onStep (choice : Choice) (s : Shared) (topic : GoString) : OnPos → Option (Shared × OnPos)
  | .opened => some (s, if s.isOpen then .allot else .finished)
  | .allot => some ({ s with nextID := s.nextID + 1 }, .join (s.nextID + 1))
  | .join id => some (s.join topic id, .ensure id .check)
  | .ensure id (.done true) =>
    some ({ s with returned := s.returned ++ [(id, topic)] }, .finished)
  | .ensure id (.done false) => some (s, .rollback id .remove)
  | .ensure id pos =>
    (ensureStep choice s topic pos).map fun (s', pos') => (s', .ensure id pos')
  | .rollback id (.done _) => some ({ s with failed := s.failed ++ [id] }, .finished)
  | .rollback id pos =>
    (unsubStep choice s id pos).map fun (s', pos') => (s', .rollback id pos')
  | .finished => none

inductive LostPos
  | bump
  | stale
  | finished

/-- Positions of `handleConnected`, which knows its generation from the first
step on. Its loop restores topic after topic and checks at the end. -/
inductive ConnectedPos
  | bump
  | stale (generation : Nat)
  | check (generation : Nat)
  | checkOpen (generation : Nat)
  | topics (generation : Nat)
  | restore (generation : Nat) (all : Bool) (topic : GoString) (pos : EnsurePos)
      (rest : List GoString)
  | verify (generation : Nat) (all : Bool)
  | verifyOpen (generation : Nat)
  | ready (generation : Nat)
  | sleep (generation : Nat)
  | finished

def lostStep (s : Shared) : LostPos → Option (Shared × LostPos)
  | .bump => some ({ s with generation := s.generation + 1 }, .stale)
  | .stale => some (s.markSubscriptionsStale, .finished)
  | .finished => none

def restoreNext (generation : Nat) (all : Bool) : List GoString → ConnectedPos
  | [] => .verify generation all
  | topic :: rest => .restore generation all topic .check rest

def connectedStep (choice : Choice) (s : Shared) : ConnectedPos → Option (Shared × ConnectedPos)
  | .bump => some ({ s with generation := s.generation + 1 }, .stale (s.generation + 1))
  | .stale generation => some (s.markSubscriptionsStale, .check generation)
  | .check generation =>
    some (s, if s.generation ≠ generation then .finished else .checkOpen generation)
  | .checkOpen generation => some (s, if s.isOpen then .topics generation else .finished)
  | .topics generation => some (s, restoreNext generation true (s.subscriptionTopics choice.order))
  | .restore generation all _ (.done ok) rest => some (s, restoreNext generation (all && ok) rest)
  | .restore generation all topic pos rest =>
    (ensureStep choice s topic pos).map fun (s', pos') =>
      (s', .restore generation all topic pos' rest)
  | .verify generation all =>
    some (s, if all = true ∧ s.generation = generation then .verifyOpen generation
      else .sleep generation)
  | .verifyOpen generation =>
    some (s, if s.isOpen then .ready generation else .sleep generation)
  | .ready generation => some (s, if s.subscriptionsReady then .finished else .sleep generation)
  | .sleep generation => some (s, .check generation)
  | .finished => none

inductive Thread
  | on (topic : GoString) (pos : OnPos)
  | unsubscribe (id : Nat) (pos : UnsubPos)
  | lost (pos : LostPos)
  | connected (pos : ConnectedPos)

def advance (choice : Choice) (s : Shared) : Thread → Option (Shared × Thread × List Thread)
  | .on topic pos =>
    (onStep choice s topic pos).map fun (s', pos') => (s', .on topic pos', [])
  | .unsubscribe id pos =>
    (unsubStep choice s id pos).map fun (s', pos') => (s', .unsubscribe id pos', [])
  | .lost pos =>
    (lostStep s pos).map fun (s', pos') => (s', .lost pos', [])
  | .connected pos =>
    (connectedStep choice s pos).map fun (s', pos') => (s', .connected pos', [])

/-- Calls of the application and changes of the connection. A handler is given
up through the subscription that `Subscribe` returned. -/
inductive Call
  | subscribe (roomID typ : GoString)
  | unsubscribe (id : Nat)
  | connected
  | connectionLost
  | disconnect

def occur (baseTopic : GoString) (call : Call) (s : Shared) : Option (Shared × List Thread) :=
  match call with
  | .subscribe roomID typ =>
    match validateRoomID roomID, validateMessageType typ with
    | .ok (), .ok () => some (s, [.on (topic baseTopic roomID typ) .opened])
    | _, _ => none
  | .unsubscribe id =>
    if s.returned.any fun r => r.1 = id then
      some ({ s with unsubscribed := s.unsubscribed ++ [id] }, [.unsubscribe id .remove])
    else none
  | .connected =>
    if s.isOpen then none
    else some ({ s with isOpen := true, completed := [] }, [.connected .bump])
  | .connectionLost =>
    if s.isOpen then some ({ s with isOpen := false, completed := [] }, [.lost .bump]) else none
  | .disconnect => some ({ s with isOpen := false, completed := [] }, [])

abbrev Action := Interleaving.Action Choice Call

def program (baseTopic : GoString) : Interleaving.Program Shared Thread Choice Call where
  advance := advance
  event := occur baseTopic

def run (baseTopic : GoString) (isOpen : Bool) (actions : List Action) :
    Interleaving.Config Shared Thread :=
  (program baseTopic).run ⟨{ isOpen := isOpen }, []⟩ actions

end Telekit.Mqtt
