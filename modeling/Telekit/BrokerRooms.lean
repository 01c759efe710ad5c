import Mathlib.Data.List.Induction
import Telekit.BrokerMachine
import Telekit.Library.Trace

/-! Rooms of the broker never split. A room closes when its last client leaves
and never opens again, and only a closed room leaves the registry. So every open
room is the registered one of its ID, and since a closed room is empty, the
clients that joined an ID and did not leave it are together in that room. A
client that broadcasts is one of them, so the room cannot be replaced between
its lookup and its snapshot. -/

namespace Telekit.Broker

def Event.joins (n : Nat) (id : GoString) (was : Bool) : Event → Bool
  | .added m other => was || decide (m = n ∧ other = id)
  | .removed m other => was && !decide (m = n ∧ other = id)
  | .snapshot _ _ _ => was
  | .missed _ _ => was

def joined (log : List Event) (n : Nat) (id : GoString) : Bool :=
  log.foldl (fun was event => event.joins n id was) false

@[simp] theorem joined_concat (log : List Event) (event : Event) (n : Nat) (id : GoString) :
    joined (log ++ [event]) n id = event.joins n id (joined log n id) := by
  simp [joined]

/-- A broadcast comes from a joined client and reaches all of them. -/
def Faithful (before : List Event) : Event → Prop
  | .snapshot n id members =>
    joined before n id = true ∧ ∀ m, m ∈ members ↔ joined before m id = true
  | .missed _ _ => False
  | _ => True

theorem Room.including_id (room : Room) (n : Nat) : (room.including n).id = room.id := rfl

theorem Room.without_id (room : Room) (n : Nat) : (room.without n).id = room.id := rfl

namespace Rooms

structure Sound (s : Rooms) : Prop where
  registered : ∀ id r, s.registry id = some r → ∃ room, s.states[r]? = some room ∧ room.id = id
  current : ∀ (r : Nat) (room : Room), s.states[r]? = some room → room.closed = false →
    s.registry room.id = some r
  emptied : ∀ (r : Nat) (room : Room), s.states[r]? = some room → room.closed = true →
    room.clients = []
  members : ∀ n id, joined s.log n id = true ↔
    ∃ (r : Nat) (room : Room), s.states[r]? = some room ∧ room.id = id ∧ n ∈ room.clients
  snapshots : Trace.Always Faithful s.log

def MadeFor (s : Rooms) (id : GoString) (r : Nat) : Prop :=
  ∃ room, s.states[r]? = some room ∧ room.id = id

def Shut (s : Rooms) (r : Nat) : Prop :=
  ∃ room, s.states[r]? = some room ∧ room.closed = true

def Member (s : Rooms) (n : Nat) (id : GoString) (r : Nat) : Prop :=
  ∃ room, s.states[r]? = some room ∧ room.id = id ∧ n ∈ room.clients

structure Evolves (n : Nat) (s s' : Rooms) : Prop where
  rooms : ∀ (r : Nat) (room : Room), s.states[r]? = some room →
    ∃ room', s'.states[r]? = some room' ∧ room'.id = room.id ∧
      (room.closed = true → room' = room) ∧ ∀ m, m ≠ n → m ∈ room.clients → m ∈ room'.clients
  entered : ∀ id r, s'.registry id = some r → s.registry id = some r ∨ s.states.length ≤ r
  deleted : ∀ id r, s.registry id = some r → s'.registry id ≠ some r → s.Shut r

section Operations
variable {s s' : Rooms} {n : Nat} {id : GoString} {r : Nat} {room : Room}

theorem Evolves.refl (n : Nat) (s : Rooms) : Evolves n s s where
  rooms := fun _ room found => ⟨room, found, rfl, fun _ => rfl, fun _ _ member => member⟩
  entered := fun _ _ held => .inl held
  deleted := fun _ _ held lost => absurd held lost

theorem MadeFor.evolves (made : s.MadeFor id r) (evolves : Evolves n s s') : s'.MadeFor id r := by
  obtain ⟨room, found, same⟩ := made
  obtain ⟨room', found', same', _⟩ := evolves.rooms r room found
  exact ⟨room', found', same'.trans same⟩

theorem Shut.evolves (shut : s.Shut r) (evolves : Evolves n s s') : s'.Shut r := by
  obtain ⟨room, found, closed⟩ := shut
  obtain ⟨room', found', _, kept, _⟩ := evolves.rooms r room found
  rw [kept closed] at found'
  exact ⟨room, found', closed⟩

theorem Member.evolves {m : Nat} (member : s.Member m id r) (evolves : Evolves n s s')
    (other : m ≠ n) : s'.Member m id r := by
  obtain ⟨room, found, same, inside⟩ := member
  obtain ⟨room', found', same', _, kept⟩ := evolves.rooms r room found
  exact ⟨room', found', same'.trans same, kept m other inside⟩

theorem Sound.opened (sound : s.Sound) (found : s.states[r]? = some room)
    (inside : n ∈ room.clients) : room.closed = false := by
  cases closed : room.closed with
  | false => rfl
  | true =>
    rw [sound.emptied r room found closed] at inside
    cases inside

theorem Sound.home (sound : s.Sound) (member : s.Member n id r) : s.registry id = some r := by
  obtain ⟨room, found, rfl, inside⟩ := member
  exact sound.current r room found (sound.opened found inside)

theorem Sound.joined_iff (sound : s.Sound) : joined s.log n id = true ↔ ∃ r, s.Member n id r :=
  sound.members n id

theorem Sound.register (sound : s.Sound) (free : s.registry id = none) :
    (s.register id).Sound ∧ Evolves n s (s.register id) ∧
      (s.register id).MadeFor id s.states.length := by
  have old : ∀ (r : Nat) (room : Room), s.states[r]? = some room →
      (s.states ++ [{ id := id }])[r]? = some room := fun r room found => by
    rw [List.getElem?_append_left (List.getElem?_eq_some_iff.mp found).1, found]
  have split : ∀ (r : Nat) (room : Room), (s.states ++ [{ id := id }])[r]? = some room →
      s.states[r]? = some room ∨ (r = s.states.length ∧ room = { id := id }) := by
    intro r room found
    rw [List.getElem?_append] at found
    split_ifs at found with inside
    · exact .inl found
    · rw [List.getElem?_singleton] at found
      split_ifs at found with first
      exact .inr ⟨by omega, (Option.some.inj found).symm⟩
  refine ⟨⟨?_, ?_, ?_, ?_, sound.snapshots⟩, ⟨?_, ?_, ?_⟩, ?_⟩
  · intro other r held
    simp only [Rooms.register, Function.update_apply] at held
    split_ifs at held with same
    · rw [← Option.some.inj held, same]
      exact ⟨{ id := id }, by simp [Rooms.register], rfl⟩
    · obtain ⟨room, found, made⟩ := sound.registered other r held
      exact ⟨room, old r room found, made⟩
  · intro r room found isOpen
    simp only [Rooms.register, Function.update_apply]
    rcases split r room found with before | ⟨rfl, rfl⟩
    · have held := sound.current r room before isOpen
      split_ifs with same
      · rw [same, free] at held
        cases held
      · exact held
    · simp
  · intro r room found closed
    rcases split r room found with before | ⟨rfl, rfl⟩
    · exact sound.emptied r room before closed
    · rfl
  · intro m other
    rw [show (s.register id).log = s.log from rfl, sound.members]
    constructor
    · rintro ⟨r, room, found, rest⟩
      exact ⟨r, room, old r room found, rest⟩
    · rintro ⟨r, room, found, made, inside⟩
      rcases split r room found with before | ⟨rfl, rfl⟩
      · exact ⟨r, room, before, made, inside⟩
      · cases inside
  · intro r room found
    exact ⟨room, old r room found, rfl, fun _ => rfl, fun _ _ member => member⟩
  · intro other r held
    simp only [Rooms.register, Function.update_apply] at held
    split_ifs at held with same
    · exact .inr (Option.some.inj held).le
    · exact .inl held
  · intro other r held lost
    refine absurd ?_ lost
    simp only [Rooms.register, Function.update_apply]
    split_ifs with same
    · rw [same, free] at held
      cases held
    · exact held
  · exact ⟨{ id := id }, by simp [Rooms.register], rfl⟩

theorem Sound.deregister (sound : s.Sound) (n : Nat) (id : GoString) (shut : s.Shut r) :
    (s.deregister id r).Sound ∧ Evolves n s (s.deregister id r) := by
  unfold Rooms.deregister
  split_ifs with held
  swap
  · exact ⟨sound, .refl n s⟩
  obtain ⟨closedRoom, closedFound, closed⟩ := shut
  refine ⟨⟨?_, ?_, sound.emptied, sound.members, sound.snapshots⟩, ⟨?_, ?_, ?_⟩⟩
  · intro other q kept
    simp only [Function.update_apply] at kept
    split_ifs at kept
    exact sound.registered other q kept
  · intro q room found isOpen
    have current := sound.current q room found isOpen
    simp only [Function.update_apply]
    split_ifs with same
    · rw [same, held] at current
      cases current
      rw [closedFound] at found
      cases found
      rw [closed] at isOpen
      cases isOpen
    · exact current
  · intro q room found
    exact ⟨room, found, rfl, fun _ => rfl, fun _ _ member => member⟩
  · intro other q kept
    simp only [Function.update_apply] at kept
    split_ifs at kept
    exact .inl kept
  · intro other q was lost
    simp only [Function.update_apply] at lost
    split_ifs at lost with same
    · rw [same, held] at was
      cases was
      exact ⟨closedRoom, closedFound, closed⟩
    · exact absurd was lost

theorem change_getElem? (found : s.states[r]? = some room) (room' : Room) (event : Event)
    (q : Nat) : (s.change r room' event).states[q]? = if q = r then some room' else s.states[q]? := by
  have inside := (List.getElem?_eq_some_iff.mp found).1
  simp only [change, List.getElem?_set, inside, if_true, eq_comm]

theorem Evolves.change (found : s.states[r]? = some room) (isOpen : room.closed = false)
    {room' : Room} (same : room'.id = room.id)
    (others : ∀ m, m ≠ n → (m ∈ room'.clients ↔ m ∈ room.clients)) (event : Event) :
    Evolves n s (s.change r room' event) := by
  refine ⟨fun q old present => ?_, fun _ _ held => .inl held, fun _ _ held lost => absurd held lost⟩
  rw [change_getElem? found]
  split_ifs with here
  · rw [here, found] at present
    cases present
    refine ⟨room', rfl, same, fun closed => ?_, fun m other member => (others m other).mpr member⟩
    rw [isOpen] at closed
    cases closed
  · exact ⟨old, present, rfl, fun _ => rfl, fun _ _ member => member⟩

theorem Sound.change (sound : s.Sound) (found : s.states[r]? = some room)
    (isOpen : room.closed = false) {room' : Room} (same : room'.id = room.id)
    (others : ∀ m, m ≠ n → (m ∈ room'.clients ↔ m ∈ room.clients))
    (emptied : room'.closed = true → room'.clients = []) {event : Event}
    (effect : ∀ m id, event.joins m id (joined s.log m id) =
      if m = n ∧ id = room.id then decide (n ∈ room'.clients) else joined s.log m id)
    (faithful : Faithful s.log event) : (s.change r room' event).Sound := by
  have current := sound.current r room found isOpen
  refine ⟨?_, ?_, ?_, ?_, sound.snapshots.concat faithful⟩
  · intro other q held
    rw [change_getElem? found]
    obtain ⟨old, present, made⟩ := sound.registered other q held
    split_ifs with here
    · rw [here, found] at present
      cases present
      exact ⟨room', rfl, same.trans made⟩
    · exact ⟨old, present, made⟩
  · intro q new present isOpen'
    rw [change_getElem? found] at present
    split_ifs at present with here
    · cases present
      rw [same, here]
      exact current
    · exact sound.current q new present isOpen'
  · intro q new present closed
    rw [change_getElem? found] at present
    split_ifs at present with here
    · cases present
      exact emptied closed
    · exact sound.emptied q new present closed
  · intro m other
    simp only [change_getElem? found]
    rw [show (s.change r room' event).log = s.log ++ [event] from rfl, joined_concat, effect]
    split_ifs with own
    · obtain ⟨rfl, rfl⟩ := own
      rw [decide_eq_true_eq]
      constructor
      · intro inside
        exact ⟨r, room', by simp, same, inside⟩
      · rintro ⟨q, new, present, made, inside⟩
        split_ifs at present with here
        · cases present
          exact inside
        · have held := sound.current q new present (sound.opened present inside)
          rw [made, current] at held
          exact absurd (Option.some.inj held).symm here
    · rw [sound.members]
      constructor
      · rintro ⟨q, old, present, made, inside⟩
        by_cases here : q = r
        · rw [here, found] at present
          cases present
          have different : m ≠ n := fun equal => own ⟨equal, made.symm⟩
          exact ⟨r, room', by simp, same.trans made, (others m different).mpr inside⟩
        · exact ⟨q, old, by simp [here, present], made, inside⟩
      · rintro ⟨q, new, present, made, inside⟩
        split_ifs at present with here
        · cases present
          have different : m ≠ n := fun equal => own ⟨equal, (same.symm.trans made).symm⟩
          exact ⟨r, room, found, same.symm.trans made, (others m different).mp inside⟩
        · exact ⟨q, new, present, made, inside⟩

theorem Sound.insert (sound : s.Sound) (found : s.states[r]? = some room) (made : room.id = id)
    (isOpen : room.closed = false) :
    (s.change r (room.including n) (.added n id)).Sound ∧
      Evolves n s (s.change r (room.including n) (.added n id)) ∧
      (s.change r (room.including n) (.added n id)).Member n id r := by
  have inside : n ∈ (room.including n).clients := by
    simp only [Room.including]
    split_ifs with already
    · exact already
    · simp
  have others : ∀ m, m ≠ n → (m ∈ (room.including n).clients ↔ m ∈ room.clients) := by
    intro m different
    simp only [Room.including]
    split_ifs
    · rfl
    · simp [different]
  have effect : ∀ m other, (Event.added n id).joins m other (joined s.log m other) =
      if m = n ∧ other = room.id then decide (n ∈ (room.including n).clients)
      else joined s.log m other := by
    intro m other
    simp only [Event.joins, inside, decide_true, made, eq_comm]
    split_ifs with own
    · simp [own]
    · simp [own]
  have stays : (room.including n).closed = true → (room.including n).clients = [] := by
    intro closed
    rw [Room.including, isOpen] at closed
    cases closed
  refine ⟨sound.change found isOpen (room.including_id n) others stays effect trivial,
    .change found isOpen (room.including_id n) others _, room.including n, ?_, made, inside⟩
  rw [change_getElem? found, if_pos rfl]

theorem Sound.erase (sound : s.Sound) (found : s.states[r]? = some room) (made : room.id = id)
    (inside : n ∈ room.clients) :
    (s.change r (room.without n) (.removed n id)).Sound ∧
      Evolves n s (s.change r (room.without n) (.removed n id)) ∧
      ((room.without n).clients.isEmpty = true →
        (s.change r (room.without n) (.removed n id)).Shut r) := by
  have isOpen := sound.opened found inside
  have left : n ∉ (room.without n).clients := by simp [Room.without]
  have others : ∀ m, m ≠ n → (m ∈ (room.without n).clients ↔ m ∈ room.clients) := by
    intro m different
    simp [Room.without, different]
  have closes : (room.without n).closed = true ↔ (room.without n).clients = [] := by
    simp [Room.without, isOpen]
  have effect : ∀ m other, (Event.removed n id).joins m other (joined s.log m other) =
      if m = n ∧ other = room.id then decide (n ∈ (room.without n).clients)
      else joined s.log m other := by
    intro m other
    simp only [Event.joins, left, decide_false, made, eq_comm]
    split_ifs with own
    · simp [own]
    · simp [own]
  refine ⟨sound.change found isOpen (room.without_id n) others closes.mp effect trivial,
    .change found isOpen (room.without_id n) others _, fun empty => ⟨room.without n, ?_, ?_⟩⟩
  · rw [change_getElem? found, if_pos rfl]
  · exact closes.mpr (List.isEmpty_iff.mp empty)

theorem mem_members (found : s.states[r]? = some room) (order : List Nat) (m : Nat) :
    m ∈ s.members r order ↔ m ∈ room.clients := by
  simp only [Rooms.members, found]
  split_ifs with perm
  · exact (List.isPerm_iff.mp perm).mem_iff
  · rfl

theorem Sound.snapshot (sound : s.Sound) (member : s.Member n id r) (order : List Nat) :
    (s.record (.snapshot n id (s.members r order))).Sound := by
  have held := sound.home member
  obtain ⟨room, found, made, inside⟩ := member
  refine ⟨sound.registered, sound.current, sound.emptied, ?_, sound.snapshots.concat ⟨?_, ?_⟩⟩
  · intro m other
    rw [show (s.record _).log = s.log ++ [_] from rfl, joined_concat]
    exact sound.members m other
  · exact sound.joined_iff.mpr ⟨r, room, found, made, inside⟩
  · intro m
    rw [mem_members found, sound.joined_iff]
    constructor
    · intro present
      exact ⟨r, room, found, made, present⟩
    · rintro ⟨q, joinedRoom⟩
      have home := sound.home joinedRoom
      rw [held] at home
      cases home
      obtain ⟨room', found', _, present⟩ := joinedRoom
      rw [found] at found'
      cases found'
      exact present

theorem Evolves.record (n : Nat) (s : Rooms) (event : Event) : Evolves n s (s.record event) where
  rooms := fun _ room found => ⟨room, found, rfl, fun _ => rfl, fun _ _ member => member⟩
  entered := fun _ _ held => .inl held
  deleted := fun _ _ held lost => absurd held lost

end Operations
end Rooms

/-- What a handler knows about its room: the room of an `add` was made for its
ID, a room it gives up is closed, and in the reading loop it is a member. -/
def HandlerPos.Within (s : Rooms) (n : Nat) (id : GoString) : HandlerPos → Prop
  | .add _ r => s.MadeFor id r
  | .replace r | .deregister r => s.Shut r
  | .snapshot r found _ => s.Member n id r ∧ found = r
  | .reading r | .lookup r _ | .enqueue r _ _ | .swap r _ _ _ _ | .send r _ _ _
  | .restore r _ _ _ | .kick r _ _ _ | .remove r => s.Member n id r
  | .reserve | .upgrade | .ensure _ | .close | .release | .gone => True

def Thread.Within (s : Rooms) : Thread → Prop
  | .handler n id _ pos => pos.Within s n id
  | .writer _ _ => True

def Thread.owner : Thread → Option Nat
  | .handler n _ _ _ => some n
  | .writer _ _ => none

theorem HandlerPos.Within.evolves {s s' : Rooms} {m n : Nat} {id : GoString} {pos : HandlerPos}
    (within : pos.Within s m id) (evolves : Rooms.Evolves n s s') (other : m ≠ n) :
    pos.Within s' m id := by
  cases pos with
  | add again r => exact Rooms.MadeFor.evolves within evolves
  | replace | deregister => exact Rooms.Shut.evolves within evolves
  | snapshot r found msg => exact ⟨within.1.evolves evolves other, within.2⟩
  | reading | lookup | enqueue | swap | send | restore | kick | remove =>
    exact Rooms.Member.evolves within evolves other
  | reserve | upgrade | ensure | close | release | gone => trivial

structure HandlerKeeps (n : Nat) (id : GoString) (s s' : Shared) (pos' : HandlerPos)
    (spawned : List Thread) : Prop where
  sound : s'.rooms.Sound
  evolves : Rooms.Evolves n s.rooms s'.rooms
  within : pos'.Within s'.rooms n id
  clients : s'.clients.length = s.clients.length
  writers : ∀ t ∈ spawned, t.owner = none ∧ t.Within s'.rooms

section Step
variable {config : Config} {choice : Choice} {s s' : Shared} {n : Nat} {id ip : GoString}
  {pos' : HandlerPos} {spawned : List Thread}

theorem HandlerKeeps.quiet (sound : s.rooms.Sound) (rooms : s'.rooms = s.rooms)
    (clients : s'.clients.length = s.clients.length) (within : pos'.Within s.rooms n id) :
    HandlerKeeps n id s s' pos' [] := by
  refine ⟨?_, ?_, ?_, clients, by simp⟩
  · rw [rooms]
    exact sound
  · rw [rooms]
    exact .refl n s.rooms
  · rw [rooms]
    exact within

theorem ensure_keeps (sound : s.rooms.Sound) {again : Bool}
    (moved : handlerStep config choice s n id ip (.ensure again) = some (s', pos', spawned)) :
    HandlerKeeps n id s s' pos' spawned := by
  simp only [handlerStep, Rooms.ensureRoom] at moved
  cases valid : validateRoomID id with
  | error err =>
    simp only [valid] at moved
    cases moved
    exact .quiet sound rfl rfl trivial
  | ok =>
    cases held : s.rooms.registry id with
    | some r =>
      simp only [valid, held] at moved
      cases moved
      exact .quiet sound rfl rfl (sound.registered id r held)
    | none =>
      simp only [valid, held] at moved
      cases moved
      obtain ⟨kept, evolves, made⟩ := sound.register (n := n) held
      exact ⟨kept, evolves, made, rfl, by simp⟩

theorem add_keeps (sound : s.rooms.Sound) {again : Bool} {r : Nat} (made : s.rooms.MadeFor id r)
    (moved : handlerStep config choice s n id ip (.add again r) = some (s', pos', spawned)) :
    HandlerKeeps n id s s' pos' spawned := by
  obtain ⟨room, found, same⟩ := made
  simp only [handlerStep, Rooms.add, found] at moved
  cases closed : room.closed with
  | true =>
    simp only [closed, if_true] at moved
    cases moved
    refine .quiet sound rfl rfl ?_
    split_ifs
    · trivial
    · exact ⟨room, found, closed⟩
  | false =>
    simp only [closed, Bool.false_eq_true, if_false] at moved
    cases moved
    obtain ⟨kept, evolves, member⟩ := sound.insert (n := n) found same closed
    refine ⟨kept, evolves, member, rfl, fun t started => ?_⟩
    rw [List.mem_singleton.mp started]
    exact ⟨rfl, trivial⟩

theorem remove_keeps (sound : s.rooms.Sound) {r : Nat} (member : s.rooms.Member n id r)
    (moved : handlerStep config choice s n id ip (.remove r) = some (s', pos', spawned)) :
    HandlerKeeps n id s s' pos' spawned := by
  obtain ⟨room, found, same, inside⟩ := member
  obtain ⟨kept, evolves, shut⟩ := sound.erase found same inside
  simp only [handlerStep, Rooms.remove, found] at moved
  cases empty : (room.without n).clients.isEmpty with
  | true =>
    simp only [empty] at moved
    cases moved
    exact ⟨kept, evolves, shut empty, rfl, by simp⟩
  | false =>
    simp only [empty] at moved
    cases moved
    exact ⟨kept, evolves, trivial, rfl, by simp⟩

theorem reserve_quiet {reserved : Bool} (eq : s.reserve config id ip = (reserved, s')) :
    s'.rooms = s.rooms ∧ s'.clients = s.clients := by
  simp only [Shared.reserve] at eq
  split_ifs at eq <;> cases eq <;> exact ⟨rfl, rfl⟩

theorem handlerStep_keeps (sound : s.rooms.Sound) {pos : HandlerPos}
    (within : pos.Within s.rooms n id)
    (moved : handlerStep config choice s n id ip pos = some (s', pos', spawned)) :
    HandlerKeeps n id s s' pos' spawned := by
  cases pos with
  | ensure again => exact ensure_keeps sound moved
  | add again r => exact add_keeps sound within moved
  | remove r => exact remove_keeps sound within moved
  | reserve =>
    simp only [handlerStep] at moved
    split at moved
    next reserved =>
      cases moved
      obtain ⟨rooms, clients⟩ := reserve_quiet reserved
      exact .quiet sound rooms (by rw [clients]) trivial
    next refused =>
      cases moved
      obtain ⟨rooms, clients⟩ := reserve_quiet refused
      exact .quiet sound rooms (by rw [clients]) trivial
  | upgrade =>
    cases moved
    refine .quiet sound rfl rfl ?_
    split_ifs <;> trivial
  | replace | deregister =>
    cases moved
    obtain ⟨kept, evolves⟩ := sound.deregister n id within
    exact ⟨kept, evolves, trivial, rfl, by simp⟩
  | reading r =>
    simp only [handlerStep] at moved
    split at moved <;> cases moved <;> exact .quiet sound rfl rfl within
  | lookup r m =>
    have held := sound.home within
    simp only [handlerStep, held] at moved
    cases moved
    exact .quiet sound rfl rfl ⟨within, rfl⟩
  | snapshot r found m =>
    obtain ⟨member, rfl⟩ := within
    cases moved
    exact ⟨sound.snapshot member choice.order, .record n s.rooms _, member, rfl, by simp⟩
  | enqueue r m rest =>
    cases rest with
    | nil =>
      cases moved
      exact .quiet sound rfl rfl within
    | cons peer rest =>
      simp only [handlerStep] at moved
      split at moved
      · cases moved
        exact .quiet sound rfl rfl within
      · split_ifs at moved <;> cases moved <;> exact .quiet sound rfl rfl within
  | swap | send =>
    simp only [handlerStep] at moved
    split at moved
    · cases moved
      exact .quiet sound rfl rfl within
    · split_ifs at moved
      · cases moved
        exact .quiet sound rfl (s.update_length _ _) within
      · cases moved
        exact .quiet sound rfl rfl within
  | restore | kick =>
    cases moved
    exact .quiet sound rfl (s.update_length _ _) within
  | close =>
    cases moved
    exact .quiet sound rfl (s.update_length _ _) trivial
  | release =>
    cases moved
    exact .quiet sound rfl rfl trivial
  | gone => cases moved

theorem writerStep_quiet {pos pos' : WriterPos}
    (moved : writerStep choice s n pos = some (s', pos')) :
    s'.rooms = s.rooms ∧ s'.clients.length = s.clients.length := by
  cases pos with
  | select =>
    simp only [writerStep] at moved
    split at moved
    · cases moved
    · split at moved
      · split_ifs at moved
        cases moved
        exact ⟨rfl, rfl⟩
      · split at moved
        · cases moved
        · cases moved
          exact ⟨rfl, s.update_length _ _⟩
      · cases moved
        exact ⟨rfl, rfl⟩
  | write | settle | closing =>
    cases moved
    exact ⟨rfl, s.update_length _ _⟩
  | gone => cases moved

end Step

def owns (n : Nat) (t : Thread) : Int := if t.owner = some n then 1 else 0

theorem owns_nonneg (n : Nat) (t : Thread) : 0 ≤ owns n t := by
  unfold owns
  split_ifs <;> omega

structure Invariant (c : Interleaving.Config Shared Thread) : Prop where
  sound : c.shared.rooms.Sound
  within : ∀ t ∈ c.threads, t.Within c.shared.rooms
  distinct : ∀ n, Ledger.total (owns n) c.threads ≤ if n < c.shared.clients.length then 1 else 0

namespace Invariant
variable {config : Config} {c : Interleaving.Config Shared Thread}

theorem start : Invariant ⟨{}, []⟩ where
  sound := ⟨by simp, by simp, by simp, by simp [joined], Trace.always_nil _⟩
  within := by simp
  distinct := by simp

theorem other_owner (inv : Invariant c) {k l n : Nat} {t u : Thread} (ne : l ≠ k)
    (running : c.threads[k]? = some t) (mine : t.owner = some n) (other : c.threads[l]? = some u) :
    u.owner ≠ some n := by
  intro theirs
  have both := Ledger.add_le_total (fun a _ => owns_nonneg n a) ne other running
  have bound := inv.distinct n
  simp only [owns, mine, theirs, if_true] at both bound
  split_ifs at bound <;> omega

variable {s' : Shared}

theorem distinct_advance (inv : Invariant c) {k : Nat} {t : Thread}
    (running : c.threads[k]? = some t) (t' : Thread) (spawned : List Thread)
    (same : t'.owner = t.owner) (writers : ∀ u ∈ spawned, u.owner = none)
    (clients : s'.clients.length = c.shared.clients.length) (n : Nat) :
    Ledger.total (owns n) (c.threads.set k t' ++ spawned) ≤
      if n < s'.clients.length then 1 else 0 := by
  have none_new : Ledger.total (owns n) spawned = 0 :=
    Ledger.total_eq_zero fun u member => by simp [owns, writers u member]
  have unchanged : owns n t' = owns n t := by simp only [owns, same]
  have bound := inv.distinct n
  rw [Interleaving.total_advance _ running, none_new, unchanged, clients]
  omega

theorem handler (inv : Invariant c) {choice : Choice} {k n : Nat} {id ip : GoString}
    {pos pos' : HandlerPos} {spawned : List Thread}
    (running : c.threads[k]? = some (.handler n id ip pos))
    (moved : handlerStep config choice c.shared n id ip pos = some (s', pos', spawned)) :
    Invariant ⟨s', c.threads.set k (.handler n id ip pos') ++ spawned⟩ ∧
      Rooms.Evolves n c.shared.rooms s'.rooms := by
  have keeps := handlerStep_keeps inv.sound (inv.within _ (List.mem_of_getElem? running)) moved
  refine ⟨⟨keeps.sound, ?_, ?_⟩, keeps.evolves⟩
  · refine Interleaving.forall_advance (q := fun t => t.Within s'.rooms) inv.within ?_ ?_ ?_
    · intro l u ne other within
      cases u with
      | writer m pos => trivial
      | handler m id' ip' pos'' =>
        have different := inv.other_owner ne running rfl other
        exact HandlerPos.Within.evolves within keeps.evolves fun same =>
          different (congrArg some same)
    · exact keeps.within
    · exact fun t member => (keeps.writers t member).2
  · exact inv.distinct_advance running _ _ rfl
      (fun t member => (keeps.writers t member).1) keeps.clients

theorem writer (inv : Invariant c) {choice : Choice} {k n : Nat} {pos pos' : WriterPos}
    (running : c.threads[k]? = some (.writer n pos))
    (moved : writerStep choice c.shared n pos = some (s', pos')) :
    Invariant ⟨s', c.threads.set k (.writer n pos')⟩ := by
  obtain ⟨rooms, clients⟩ := writerStep_quiet moved
  have distinct := inv.distinct_advance running (.writer n pos') [] rfl (by simp) clients
  rw [List.append_nil] at distinct
  refine ⟨?_, ?_, distinct⟩
  · rw [rooms]
    exact inv.sound
  · intro t member
    rw [rooms]
    rcases List.mem_or_eq_of_mem_set member with old | rfl
    · exact inv.within t old
    · trivial

theorem request (inv : Invariant c) {request : Request} {spawned : List Thread}
    (happened : occur request c.shared = some (s', spawned)) :
    Invariant ⟨s', c.threads ++ spawned⟩ ∧ s'.rooms = c.shared.rooms := by
  simp only [occur] at happened
  split at happened
  · cases happened
  split_ifs at happened
  cases happened
  refine ⟨⟨inv.sound, ?_, fun n => ?_⟩, rfl⟩
  · intro t member
    rcases List.mem_append.mp member with old | new
    · exact inv.within t old
    · rw [List.mem_singleton.mp new]
      trivial
  · have bound := inv.distinct n
    simp only [Ledger.total_append, Ledger.total_cons, Ledger.total_nil, owns, Thread.owner,
      Option.some.injEq, List.length_append, List.length_singleton]
    split_ifs at bound ⊢ <;> omega

theorem takes (inv : Invariant c) {a : Action} {c' : Interleaving.Config Shared Thread}
    (taken : (program config).Takes c a c') :
    Invariant c' ∧ ∃ n, Rooms.Evolves n c.shared.rooms c'.shared.rooms := by
  cases taken with
  | stays => exact ⟨inv, 0, .refl 0 _⟩
  | @advances k choice t t' s' spawned running moved =>
    cases t with
    | handler n id ip pos =>
      simp only [program, advance] at moved
      split at moved
      · cases moved
      next step =>
        cases moved
        obtain ⟨kept, evolves⟩ := inv.handler running step
        exact ⟨kept, n, evolves⟩
    | writer n pos =>
      simp only [program, advance] at moved
      split at moved
      · cases moved
      next step =>
        cases moved
        refine ⟨?_, n, ?_⟩
        · rw [List.append_nil]
          exact inv.writer running step
        · rw [(writerStep_quiet step).1]
          exact .refl n _
  | occurs happened =>
    obtain ⟨kept, rooms⟩ := inv.request happened
    refine ⟨kept, 0, ?_⟩
    rw [rooms]
    exact .refl 0 _

end Invariant

section Run
variable (config : Config)

theorem run_invariant (actions : List Action) : Invariant (run config actions) := by
  have moves : ∀ c c', Invariant c → (program config).Moves c c' → Invariant c' := by
    intro c c' inv moves
    cases moves with
    | stays => exact inv
    | advances running moved => exact (inv.takes (a := .advance _ _) (.advances running moved)).1
    | occurs happened => exact (inv.takes (a := .event _) (.occurs happened)).1
  exact (program config).run_keeps Invariant moves Invariant.start actions

theorem run_concat (actions : List Action) (a : Action) :
    run config (actions ++ [a]) = (program config).step (run config actions) a := by
  rw [run, (program config).run_append]
  rfl

theorem run_closed (actions later : List Action) {r : Nat} {room : Room}
    (found : (run config actions).shared.rooms.states[r]? = some room)
    (closed : room.closed = true) :
    (run config (actions ++ later)).shared.rooms.states[r]? = some room ∧
      ∀ id, (run config (actions ++ later)).shared.rooms.registry id = some r →
        (run config actions).shared.rooms.registry id = some r := by
  induction later using List.reverseRecOn with
  | nil => simpa using found
  | append_singleton later a ih =>
    rw [← List.append_assoc, run_concat]
    obtain ⟨_, n, evolves⟩ := (run_invariant config (actions ++ later)).takes
      ((program config).step_takes _ a)
    obtain ⟨room', found', _, kept, _⟩ := evolves.rooms r room ih.1
    rw [kept closed] at found'
    refine ⟨found', fun id held => ?_⟩
    rcases evolves.entered id r held with before | new
    · exact ih.2 id before
    · have inside := (List.getElem?_eq_some_iff.mp ih.1).1
      omega

/-- In every run the clients joined to an ID are together in its registered room, every
broadcast finds all of them, and a room leaves the registry only closed and empty. -/
theorem rooms_never_split (actions : List Action) :
    (∀ n id, joined (run config actions).shared.rooms.log n id = true →
      ∃ r room, (run config actions).shared.rooms.registry id = some r ∧
        (run config actions).shared.rooms.states[r]? = some room ∧ n ∈ room.clients) ∧
    Trace.Always Faithful (run config actions).shared.rooms.log ∧
    (∀ (r : Nat) (room : Room), (run config actions).shared.rooms.states[r]? = some room →
      room.closed = true → room.clients = [] ∧ ∀ later,
        (run config (actions ++ later)).shared.rooms.states[r]? = some room ∧
        ∀ id, (run config (actions ++ later)).shared.rooms.registry id = some r →
          (run config actions).shared.rooms.registry id = some r) ∧
    ∀ a id r, (run config actions).shared.rooms.registry id = some r →
      (run config (actions ++ [a])).shared.rooms.registry id ≠ some r →
      ∃ room, (run config actions).shared.rooms.states[r]? = some room ∧
        room.closed = true ∧ room.clients = [] := by
  have inv := run_invariant config actions
  refine ⟨?_, inv.sound.snapshots, ?_, ?_⟩
  · intro n id member
    obtain ⟨r, inside⟩ := inv.sound.joined_iff.mp member
    have held := inv.sound.home inside
    obtain ⟨room, found, _, present⟩ := inside
    exact ⟨r, room, held, found, present⟩
  · intro r room found closed
    exact ⟨inv.sound.emptied r room found closed, fun later =>
      run_closed config actions later found closed⟩
  · intro a id r held lost
    rw [run_concat] at lost
    obtain ⟨_, n, evolves⟩ := inv.takes ((program config).step_takes _ a)
    obtain ⟨room, found, closed⟩ := evolves.deleted id r held lost
    exact ⟨room, found, closed, inv.sound.emptied r room found closed⟩

end Run

namespace Sample

def request : Action := .event ⟨str "/room/", true, str "192.0.2.1"⟩

def joins (k : Nat) : List Action := List.replicate 4 (.advance k {})

def message : Message := ⟨2, str "offer"⟩

def talking : List Action :=
  [request, request] ++ joins 0 ++ joins 1 ++
    [.advance 0 { message := some message }, .advance 0 {}, .advance 0 {}]

def leaving : List Action := [request] ++ joins 0 ++ [.advance 0 {}, .advance 0 {}]

end Sample

theorem rooms_never_split_sample :
    (∃ r room, (run {} Sample.talking).shared.rooms.registry (str "room") = some r ∧
      (run {} Sample.talking).shared.rooms.states[r]? = some room ∧ 1 ∈ room.clients) ∧
    (⟨str "room", true, []⟩ : Room).clients = [] ∧
    ∃ room, (run {} Sample.leaving).shared.rooms.states[0]? = some room ∧ room.closed = true ∧
      room.clients = [] :=
  ⟨(rooms_never_split {} Sample.talking).1 1 (str "room") (by decide +kernel),
    ((rooms_never_split {} Sample.leaving).2.2.1 0 ⟨str "room", true, []⟩ (by decide +kernel)
      rfl).1,
    (rooms_never_split {} Sample.leaving).2.2.2 (.advance 0 {}) (str "room") 0 (by decide +kernel)
      (by decide +kernel)⟩

end Telekit.Broker
