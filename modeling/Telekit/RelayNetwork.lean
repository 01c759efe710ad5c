import Telekit.RelayFrames

/-! The handlers and connections of the WebSocket relay, over the registry of `Relay`. A
handler answers its request, reads a message, looks up the target and writes the frame,
and between any two of these the others move; when it returns, its connection is closed
before its allocation is removed. `Close` marks the server and then closes the connections
that it found, one by one.

A connection whose client is gone takes writes that nobody receives. The answer is
written without `writeMu`; it is taken not to overlap the write of a frame. -/

namespace Telekit.Relay

/-- The answer to a request, with the address as `net.ParseIP` reads it. -/
structure AllocateResponse where
  type : GoString
  address : Option IP
  port : Int
  network : GoString
  error : GoString
  deriving DecidableEq

inductive Message
  | text (response : AllocateResponse)
  | binary (frame : Bytes)
  deriving DecidableEq

def Config.allocated (config : Config) (request : AllocateRequest) : AllocateResponse :=
  ⟨str "allocated", to16 config.relayAddress, config.relayPort.toNat, request.network, []⟩

inductive Stage
  | answering
  | reading
  | writing (target : Nat) (frame : Bytes)
  | returning
  deriving DecidableEq

/-- The connection of an allocation: `wire` holds what its client gets to read. -/
structure Conn where
  stage : Stage := .answering
  closed : Bool := false
  gone : Bool := false
  wire : List Message := []

namespace Conn

def isOpen (c : Conn) : Bool := !c.closed && !c.gone

def writeMessage (c : Conn) (message : Message) : Conn :=
  if c.isOpen then { c with wire := c.wire ++ [message] } else c

/-- The handler returns, and `alloc.close` is the first of its deferred calls. -/
def finish (c : Conn) : Conn := { c with stage := .returning, closed := true }

theorem writeMessage_wire (c : Conn) (message : Message) :
    (c.writeMessage message).wire = c.wire ++ if c.isOpen then [message] else [] := by
  unfold writeMessage
  split
  · rfl
  · exact (List.append_nil _).symm

theorem writeMessage_kept (c : Conn) (message : Message) :
    (c.writeMessage message).stage = c.stage ∧ (c.writeMessage message).closed = c.closed := by
  unfold writeMessage
  split <;> exact ⟨rfl, rfl⟩

end Conn

def Server.registered (s : Server) : List Nat :=
  s.live.filter fun i => s.pool[i]?.any fun a => s.allocations a.id = some i

/-- `closing` holds the connections that a call of `Close` still has to close. -/
structure Network where
  server : Server := {}
  conns : Nat → Conn := fun _ => {}
  closing : List Nat := []

namespace Network

/-- The steps of a request, of the handlers (`quit`: the answer or a read fails), of the
clients and of `Close`. -/
inductive Event
  | allocate (request : AllocateRequest) (authorize : Option Failure)
  | answer (i : Nat)
  | read (i : Nat) (message : Bytes)
  | write (i : Nat)
  | quit (i : Nat)
  | remove (i : Nat)
  | hangUp (i : Nat)
  | close
  | closeNext (i : Nat)

def update (n : Network) (i : Nat) (f : Conn → Conn) : Network :=
  { n with conns := Function.update n.conns i (f (n.conns i)) }

def answer (config : Config) (n : Network) (i : Nat) : Network :=
  match n.server.pool[i]? with
  | none => n
  | some request =>
    if i ∈ n.server.live ∧ (n.conns i).stage = .answering then
      if (n.conns i).closed then n.update i .finish
      else (n.update i (·.writeMessage (.text (config.allocated request)))).update i
        fun c => { c with stage := .reading }
    else n

def read (config : Config) (n : Network) (i : Nat) (message : Bytes) : Network :=
  if (n.conns i).stage = .reading then
    if (Server.receive config message).isSome then
      match n.server.relay config i message with
      | none => n
      | some (j, frame) => n.update i fun c => { c with stage := .writing j frame }
    else n.update i .finish
  else n

def write (n : Network) (i : Nat) : Network :=
  match (n.conns i).stage with
  | .writing j frame => (n.update j (·.writeMessage (.binary frame))).update i
      fun c => { c with stage := .reading }
  | _ => n

def step (config : Config) (n : Network) : Event → Network
  | .allocate request authorize =>
    { n with server := Relay.step config n.server (.allocate request authorize) }
  | .answer i => n.answer config i
  | .read i message => n.read config i message
  | .write i => n.write i
  | .quit i =>
    if i ∈ n.server.live ∧ ((n.conns i).stage = .answering ∨ (n.conns i).stage = .reading) then
      n.update i .finish
    else n
  | .remove i =>
    if (n.conns i).stage = .returning then
      { n with server := Relay.step config n.server (.leave i) }
    else n
  | .hangUp i =>
    if i < n.server.pool.length then n.update i fun c => { c with gone := true } else n
  | .close =>
    if n.server.closed then n
    else { n with server := Relay.step config n.server .close, closing := n.server.registered }
  | .closeNext i =>
    if i ∈ n.closing then
      { n.update i fun c => { c with closed := true } with closing := n.closing.erase i }
    else n

def run (config : Config) (n : Network) (events : List Event) : Network :=
  events.foldl (step config) n

theorem step_server (config : Config) (n : Network) (e : Event) :
    (n.step config e).server = n.server ∨
    (∃ request authorize, e = .allocate request authorize ∧
      (n.step config e).server = (n.server.allocate request authorize).2) ∨
    (∃ i, (n.conns i).stage = .returning ∧ (n.step config e).server = n.server.leave i) ∨
    (n.step config e).server = { n.server with closed := true } := by
  cases e with
  | allocate request authorize => exact .inr (.inl ⟨request, authorize, rfl, rfl⟩)
  | answer i =>
    refine .inl ?_
    simp only [step, answer]
    split
    · rfl
    · split_ifs <;> rfl
  | read i message =>
    refine .inl ?_
    simp only [step, read]
    split_ifs
    · split <;> rfl
    · rfl
    · rfl
  | write i =>
    refine .inl ?_
    simp only [step, write]
    split <;> rfl
  | quit | hangUp | closeNext =>
    refine .inl ?_
    simp only [step]
    split_ifs <;> rfl
  | remove i =>
    simp only [step]
    split_ifs with returning
    · exact .inr (.inr (.inl ⟨i, returning, rfl⟩))
    · exact .inl rfl
  | close =>
    simp only [step]
    split_ifs
    · exact .inl rfl
    · exact .inr (.inr (.inr rfl))

def written (config : Config) (n : Network) (j : Nat) : Event → List Message
  | .answer i =>
    match n.server.pool[i]? with
    | none => []
    | some request =>
      if i ∈ n.server.live ∧ (n.conns i).stage = .answering then
        if i = j ∧ (n.conns j).isOpen = true then [.text (config.allocated request)] else []
      else []
  | .write i =>
    match (n.conns i).stage with
    | .writing k frame => if k = j ∧ (n.conns j).isOpen = true then [.binary frame] else []
    | _ => []
  | _ => []

theorem update_wire (n : Network) (i j : Nat) {f : Conn → Conn}
    (kept : (f (n.conns i)).wire = (n.conns i).wire) :
    ((n.update i f).conns j).wire = (n.conns j).wire := by
  simp only [update, Function.update_apply]
  split_ifs with same
  · rw [kept, same]
  · rfl

theorem writeMessage_wire (n : Network) (i j : Nat) (message : Message) :
    ((n.update i (·.writeMessage message)).conns j).wire =
      (n.conns j).wire ++ if i = j ∧ (n.conns j).isOpen = true then [message] else [] := by
  simp only [update, Function.update_apply]
  by_cases same : j = i
  · subst same
    simp only [if_true, true_and, Conn.writeMessage_wire]
  · rw [if_neg same, if_neg fun both => same both.1.symm, List.append_nil]

theorem step_wire (config : Config) (n : Network) (e : Event) (j : Nat) :
    ((n.step config e).conns j).wire = (n.conns j).wire ++ n.written config j e := by
  cases e with
  | answer i =>
    simp only [step, answer, written]
    split
    · exact (List.append_nil _).symm
    · split_ifs with ready closed there there
      · rw [there.1] at closed
        simp [Conn.isOpen, closed] at there
      · rw [update_wire n i j (by rfl), List.append_nil]
      · rw [update_wire _ i j (by rfl), writeMessage_wire, if_pos there]
      · rw [update_wire _ i j (by rfl), writeMessage_wire, if_neg there]
      · exact (List.append_nil _).symm
  | write i =>
    simp only [step, write, written]
    split
    · rw [update_wire _ i j (by rfl), writeMessage_wire]
    · exact (List.append_nil _).symm
  | read i message =>
    simp only [step, read, written, List.append_nil]
    split_ifs
    · split
      · rfl
      · exact update_wire n i j (by rfl)
    · exact update_wire n i j (by rfl)
    · rfl
  | quit i =>
    simp only [step, written, List.append_nil]
    split_ifs
    · exact update_wire n i j (by rfl)
    · rfl
  | remove | close =>
    simp only [step, written, List.append_nil]
    split_ifs <;> rfl
  | hangUp i =>
    simp only [step, written, List.append_nil]
    split_ifs
    · exact update_wire n i j (by rfl)
    · rfl
  | closeNext i =>
    simp only [step, written, List.append_nil]
    split_ifs
    · exact update_wire n i j (f := fun c => { c with closed := true }) rfl
    · rfl
  | allocate request authorize => exact (List.append_nil _).symm

end Network

theorem Server.allocate_cases (s : Server) (request : AllocateRequest)
    (authorize : Option Failure) : (s.allocate request authorize).2 = s ∨
      s.closed = false ∧ s.allocations request.id = none ∧
        (s.allocate request authorize).2 = s.insert request := by
  unfold Server.allocate
  split_ifs
  · exact .inl rfl
  · cases authorize with
    | some err => exact .inl rfl
    | none =>
      simp only [Server.addAllocation]
      by_cases closed : s.closed = true
      · exact .inl (by rw [if_pos closed])
      rw [if_neg closed]
      by_cases used : (s.allocations request.id).isSome = true
      · exact .inl (by rw [if_pos used])
      rw [if_neg used]
      have free := Option.not_isSome_iff_eq_none.mp used
      split_ifs
      · exact .inl rfl
      · exact .inl rfl
      · exact .inr ⟨Bool.eq_false_iff.mpr closed, free, rfl⟩

theorem Server.leave_cases (s : Server) (i : Nat) : s.leave i = s ∨
    ∃ alloc, s.leave i = s.removeAllocation i alloc := by
  unfold Server.leave
  split_ifs
  · split
    · exact .inl rfl
    · exact .inr ⟨_, rfl⟩
  · exact .inl rfl

theorem relay_live {config : Config} {s : Server} (indexed : Indexed s) {i j : Nat}
    {message frame : Bytes} (relayed : s.relay config i message = some (j, frame)) :
    j ∈ s.live := by
  unfold Server.relay at relayed
  split_ifs at relayed
  obtain ⟨source, _, relayed⟩ := Option.bind_eq_some_iff.mp relayed
  obtain ⟨⟨destination, payload⟩, _, forwarded⟩ := Option.bind_eq_some_iff.mp relayed
  exact ((indexed.index _ j).mp (forward_frame forwarded).2.2).1

theorem Network.step_pool (config : Config) (n : Network) (e : Network.Event) :
    (n.step config e).server.pool = n.server.pool ∨ ∃ request authorize,
      e = .allocate request authorize ∧
        (n.step config e).server.pool = n.server.pool ++ [request] := by
  rcases n.step_server config e with same | ⟨request, authorize, named, allocated⟩ | ⟨i, _, left⟩ |
    marked
  · exact .inl (congrArg (·.pool) same)
  · rcases n.server.allocate_cases request authorize with same | ⟨_, _, inserted⟩
    · exact .inl (congrArg (·.pool) (allocated.trans same))
    · exact .inr ⟨request, authorize, named, congrArg (·.pool) (allocated.trans inserted)⟩
  · rcases n.server.leave_cases i with same | ⟨alloc, removed⟩
    · exact .inl (congrArg (·.pool) (left.trans same))
    · exact .inl (congrArg (·.pool) (left.trans removed))
  · exact .inl (congrArg (·.pool) marked)

structure Sound (n : Network) : Prop where
  indexed : Indexed n.server
  registered : ∀ i ∈ n.server.live, ∃ a, n.server.pool[i]? = some a ∧
    n.server.allocations a.id = some i
  departed : ∀ i < n.server.pool.length, i ∉ n.server.live → (n.conns i).closed = true
  returning : ∀ i, (n.conns i).stage = .returning → (n.conns i).closed = true
  targets : ∀ i j frame, (n.conns i).stage = .writing j frame → j < n.server.pool.length
  closing : n.server.closed = true → ∀ i < n.server.pool.length,
    i ∈ n.closing ∨ (n.conns i).closed = true

namespace Sound
variable {config : Config} {n : Network}

theorem empty : Sound {} :=
  ⟨.empty, by simp, by simp, by simp, by simp, by simp⟩

theorem update (sound : Sound n) (i : Nat) {f : Conn → Conn}
    (kept : (n.conns i).closed = true → (f (n.conns i)).closed = true)
    (returning : (f (n.conns i)).stage = .returning → (f (n.conns i)).closed = true)
    (targets : ∀ j frame, (f (n.conns i)).stage = .writing j frame →
      j < n.server.pool.length) : Sound (n.update i f) := by
  have closed (k : Nat) (before : (n.conns k).closed = true) :
      ((n.update i f).conns k).closed = true := by
    simp only [Network.update, Function.update_apply]
    split_ifs with same
    · exact kept (same ▸ before)
    · exact before
  refine ⟨sound.indexed, sound.registered,
    fun k inside left => closed k (sound.departed k inside left), fun k => ?_, fun k => ?_,
    fun ended k inside => (sound.closing ended k inside).imp_right (closed k)⟩
  · simp only [Network.update, Function.update_apply]
    split_ifs
    · exact returning
    · exact sound.returning k
  · simp only [Network.update, Function.update_apply]
    split_ifs
    · exact targets
    · exact sound.targets k

theorem finish (sound : Sound n) (i : Nat) : Sound (n.update i .finish) :=
  sound.update i (fun _ => rfl) (fun _ => rfl) (by simp [Conn.finish])

theorem writeMessage (sound : Sound n) (i : Nat) (message : Message) :
    Sound (n.update i (·.writeMessage message)) := by
  obtain ⟨stage, closed⟩ := (n.conns i).writeMessage_kept message
  refine sound.update i (fun before => by rw [closed, before]) ?_ ?_
  · rw [stage, closed]
    exact sound.returning i
  · rw [stage]
    exact sound.targets i

theorem reads (sound : Sound n) (i : Nat) :
    Sound (n.update i fun c => { c with stage := .reading }) :=
  sound.update i id (by simp) (by simp)

theorem answer (sound : Sound n) (i : Nat) : Sound (n.answer config i) := by
  unfold Network.answer
  split
  · exact sound
  · next request _ =>
    split_ifs
    · exact sound.finish i
    · exact (sound.writeMessage _ _).reads i
    · exact sound

theorem read (sound : Sound n) (i : Nat) (message : Bytes) : Sound (n.read config i message) := by
  unfold Network.read
  split_ifs
  · split
    · exact sound
    · next j frame relayed =>
      refine sound.update i id (by simp) fun k frame' writes => ?_
      cases writes
      exact sound.indexed.inside j (relay_live sound.indexed relayed)
  · exact sound.finish i
  · exact sound

theorem write (sound : Sound n) (i : Nat) : Sound (n.write i) := by
  unfold Network.write
  split
  · exact (sound.writeMessage _ _).reads i
  · exact sound

theorem allocate (sound : Sound n) (request : AllocateRequest) (authorize : Option Failure) :
    Sound { n with server := (n.server.allocate request authorize).2 } := by
  have indexed := sound.indexed.allocate request authorize
  rcases n.server.allocate_cases request authorize with same | ⟨open_, free, inserted⟩
  · rw [same]
    exact sound
  rw [inserted] at indexed ⊢
  refine ⟨indexed, fun i live => ?_, fun i inside left => ?_, sound.returning,
    fun i j frame writes => ?_, fun ended => ?_⟩
  · simp only [Server.insert, List.mem_append, List.mem_singleton] at live ⊢
    rcases live with old | rfl
    · obtain ⟨a, found, named⟩ := sound.registered i old
      refine ⟨a, List.getElem?_append_left (sound.indexed.inside i old) ▸ found, ?_⟩
      rw [Function.update_of_ne, named]
      rintro same
      rw [same, free] at named
      cases named
    · exact ⟨request, by simp, Function.update_self ..⟩
  · simp only [Server.insert, List.mem_append, List.mem_singleton, not_or, List.length_append,
      List.length_singleton] at inside left
    exact sound.departed i (by omega) left.1
  · have before := sound.targets i j frame writes
    simp only [Server.insert, List.length_append]
    omega
  · simp only [Server.insert, open_] at ended
    cases ended

theorem remove (sound : Sound n) {i : Nat} (returning : (n.conns i).stage = .returning) :
    Sound { n with server := n.server.leave i } := by
  have indexed := sound.indexed.leave i
  rcases n.server.leave_cases i with same | ⟨alloc, removed⟩
  · rw [same]
    exact sound
  rw [removed] at indexed ⊢
  refine ⟨indexed, fun j live => ?_, fun j inside left => ?_, sound.returning, sound.targets,
    sound.closing⟩
  · simp only [Server.removeAllocation, List.mem_filter, decide_eq_true_eq] at live
    obtain ⟨a, found, named⟩ := sound.registered j live.1
    refine ⟨a, found, ?_⟩
    simp only [Server.removeAllocation, named, Option.some.injEq, if_neg live.2]
  · by_cases same : j = i
    · exact same ▸ sound.returning i returning
    · refine sound.departed j inside fun live => left ?_
      simp [Server.removeAllocation, live, same]

theorem close (sound : Sound n) :
    Sound { n with server := { n.server with closed := true }, closing := n.server.registered } := by
  refine ⟨⟨sound.indexed.inside, sound.indexed.index⟩, sound.registered, sound.departed,
    sound.returning, sound.targets, fun _ i inside => ?_⟩
  by_cases live : i ∈ n.server.live
  · obtain ⟨a, found, named⟩ := sound.registered i live
    exact .inl (by simp [Server.registered, live, found, named])
  · exact .inr (sound.departed i inside live)

theorem closeNext (sound : Sound n) (i : Nat) :
    Sound { n.update i fun c => { c with closed := true } with closing := n.closing.erase i } := by
  have closes := sound.update i (f := fun c => { c with closed := true }) (fun _ => rfl)
    (fun _ => rfl) (sound.targets i)
  refine ⟨closes.indexed, closes.registered, closes.departed, closes.returning, closes.targets,
    fun ended j inside => ?_⟩
  by_cases same : j = i
  · subst same
    exact .inr (by simp [Network.update])
  · exact (closes.closing ended j inside).imp_left (List.mem_erase_of_ne same).mpr

theorem step (sound : Sound n) (e : Network.Event) : Sound (n.step config e) := by
  cases e with
  | allocate request authorize => exact sound.allocate request authorize
  | answer i => exact sound.answer i
  | read i message => exact sound.read i message
  | write i => exact sound.write i
  | quit i =>
    simp only [Network.step]
    split_ifs
    · exact sound.finish i
    · exact sound
  | remove i =>
    simp only [Network.step]
    split_ifs with returning
    · exact sound.remove returning
    · exact sound
  | hangUp i =>
    simp only [Network.step]
    split_ifs
    · exact sound.update i id (sound.returning i) (sound.targets i)
    · exact sound
  | close =>
    simp only [Network.step]
    split_ifs
    · exact sound
    · exact sound.close
  | closeNext i =>
    simp only [Network.step]
    split_ifs
    · exact sound.closeNext i
    · exact sound

theorem run (sound : Sound n) (events : List Network.Event) : Sound (n.run config events) :=
  List.foldlRecOn events (Network.step config) sound fun _ current e _ => current.step e

end Sound

/-- `Close` has returned: it has closed all there is, and nothing is added. -/
structure Closed (n : Network) : Prop extends Sound n where
  marked : n.server.closed = true
  finished : n.closing = []

namespace Closed
variable {config : Config} {n : Network} (c : Closed n)
include c

theorem conn (i : Nat) (inside : i < n.server.pool.length) : (n.conns i).closed = true :=
  (c.closing c.marked i inside).resolve_left (by simp [c.finished])

theorem step_marked (e : Network.Event) : (n.step config e).server.closed = true := by
  rcases n.step_server config e with same | ⟨request, authorize, _, allocated⟩ | ⟨i, _, left⟩ | marked
  · rw [same, c.marked]
  · rw [allocated]
    rcases n.server.allocate_cases request authorize with same | ⟨open_, _⟩
    · rw [same, c.marked]
    · rw [c.marked] at open_
      cases open_
  · rw [left]
    rcases n.server.leave_cases i with same | ⟨alloc, removed⟩
    · rw [same, c.marked]
    · rw [removed]
      exact c.marked
  · rw [marked]

theorem step_finished (e : Network.Event) : (n.step config e).closing = [] := by
  have none (i : Nat) : i ∉ n.closing := by simp [c.finished]
  cases e with
  | answer i =>
    simp only [Network.step, Network.answer]
    split
    · exact c.finished
    · split_ifs <;> exact c.finished
  | read i message =>
    simp only [Network.step, Network.read]
    split_ifs
    · split <;> exact c.finished
    · exact c.finished
    · exact c.finished
  | write i =>
    simp only [Network.step, Network.write]
    split <;> exact c.finished
  | close =>
    simp only [Network.step, c.marked, if_true]
    exact c.finished
  | closeNext i =>
    simp only [Network.step, if_neg (none i)]
    exact c.finished
  | allocate request authorize => exact c.finished
  | _ i =>
    simp only [Network.step]
    split_ifs <;> exact c.finished

theorem written_nil (e : Network.Event) (j : Nat) : n.written config j e = [] := by
  have shut (i : Nat) (inside : i < n.server.pool.length) : ¬ (n.conns i).isOpen = true := by
    simp [Conn.isOpen, c.conn i inside]
  cases e with
  | answer i =>
    simp only [Network.written]
    split
    · rfl
    · split_ifs with ready there
      · exact absurd there.2 (shut j (there.1 ▸ c.indexed.inside i ready.1))
      · rfl
      · rfl
  | write i =>
    simp only [Network.written]
    split
    · next k frame writes =>
      split_ifs with there
      · exact absurd there.2 (shut j (there.1 ▸ c.targets i k frame writes))
      · rfl
    · rfl
  | _ => rfl

theorem step (e : Network.Event) : Closed (n.step config e) :=
  ⟨c.toSound.step e, c.step_marked e, c.step_finished e⟩

theorem run (events : List Network.Event) (j : Nat) :
    ((n.run config events).conns j).wire = (n.conns j).wire := by
  induction events generalizing n with
  | nil => rfl
  | cons e events ih =>
    refine (ih (c.step e)).trans ?_
    rw [n.step_wire config e j, c.written_nil, List.append_nil]

end Closed
end Telekit.Relay
