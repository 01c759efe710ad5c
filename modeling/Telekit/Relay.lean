import Mathlib.Data.List.Basic
import Mathlib.Logic.Function.Basic
import Telekit.Library.Separated
import Telekit.Primitives

/-! The WebSocket relay: `relays/websocket/server.go` and the frames of
`protocol.go`. An allocation is a pointer, here its number; it is live from
`addAllocation` to the one `removeAllocation` of its handler. Both maps change
under the mutex, so an allocation, a removal and the lookup of a frame are one
step each. A request arrives decoded, with the answer of `Authorize` as an
input; a frame is followed to the allocation it is written to. Of `Close` the
registry sees that it refuses new requests.

The index of endpoints always holds the live allocations under the keys of
their sources. Forwarding and refusal are then exactly as isolated as keys tell
endpoints apart, which they do where path and session are free of the
separator. -/

namespace Telekit.Relay

abbrev IP := Bytes

def v4InV6Prefix : Bytes := List.replicate 10 0 ++ [0xff, 0xff]

def to4 (ip : IP) : Option IP :=
  if ip.length = 4 then some ip
  else if ip.length = 16 ∧ ip.take 12 = v4InV6Prefix then some (ip.drop 12)
  else none

def to16 (ip : IP) : Option IP :=
  if ip.length = 4 then some (v4InV6Prefix ++ ip) else if ip.length = 16 then some ip else none

/-- `net.IP.Equal`, for which an IPv4 address and its mapped form are one. -/
def ipEqual (ip x : IP) : Bool :=
  if ip.length = x.length then decide (ip = x)
  else if ip.length = 4 ∧ x.length = 16 then decide (x.take 12 = v4InV6Prefix ∧ ip = x.drop 12)
  else if ip.length = 16 ∧ x.length = 4 then decide (ip.take 12 = v4InV6Prefix ∧ ip.drop 12 = x)
  else false

structure UDPAddr where
  ip : IP
  port : Int
  deriving DecidableEq

def frameMagic : Bytes := str "TW" ++ [1]
def frameHeaderSize : Nat := 22
def maxRelayPacket : Nat := 65535 - frameHeaderSize

def frameOf (family : UInt8) (ip : IP) (port : Nat) (payload : Bytes) : Bytes :=
  frameMagic ++ [family] ++ BigEndian.encode 2 port ++ ip ++ List.replicate (16 - ip.length) 0 ++
    payload

def encodeFrame (dst : UDPAddr) (payload : Bytes) : Except Failure Bytes :=
  if payload.length > maxRelayPacket then
    .error (.text (str "relay packet is too large: " ++ str (toString payload.length)))
  else if dst.port < 0 ∨ dst.port > 65535 then fail "invalid relay destination"
  else
    match to4 dst.ip, to16 dst.ip with
    | some ip, _ => .ok (frameOf 4 ip dst.port.toNat payload)
    | none, some ip => .ok (frameOf 6 ip dst.port.toNat payload)
    | none, none => fail "invalid relay destination"

def decodeFrame (frame : Bytes) : Except Failure (UDPAddr × Bytes) :=
  if frame.length < frameHeaderSize ∨ frame.take 3 ≠ frameMagic then
    fail "invalid websocket relay frame"
  else
    let port : Int := BigEndian.decode ((frame.drop 4).take 2)
    let payload := frame.drop frameHeaderSize
    match (frame[3]? : Option UInt8) with
    | some 4 => .ok (⟨v4InV6Prefix ++ (frame.drop 6).take 4, port⟩, payload)
    | some 6 => .ok (⟨(frame.drop 6).take 16, port⟩, payload)
    | _ => fail "invalid websocket relay frame"

def defaultMaxMessage : Int := 65535

structure Config where
  relayAddress : IP
  relayPort : UInt16
  maxMessageSize : Int
  validAddress : to4 relayAddress ≠ none ∨ to16 relayAddress ≠ none
  validPort : relayPort ≠ 0

def Config.addr (config : Config) : UDPAddr := ⟨config.relayAddress, config.relayPort.toNat⟩

def Config.readLimit (config : Config) : Int :=
  if config.maxMessageSize ≤ 0 then defaultMaxMessage else config.maxMessageSize

structure Endpoint where
  path : GoString
  session : GoString
  id : GoString
  deriving DecidableEq

def endpointKey (e : Endpoint) : GoString := e.path ++ [0] ++ e.session ++ [0] ++ e.id

structure AllocateRequest where
  path : GoString
  session : GoString
  id : GoString
  network : GoString
  sourceID : GoString
  targetID : GoString
  deriving DecidableEq

def AllocateRequest.source (r : AllocateRequest) : Endpoint := ⟨r.path, r.session, r.sourceID⟩
def AllocateRequest.target (r : AllocateRequest) : Endpoint := ⟨r.path, r.session, r.targetID⟩

/-- `pool` holds every allocation made, by number, as the request it was made
for; its address is that of the configuration. -/
structure Server where
  pool : List AllocateRequest := []
  live : List Nat := []
  allocations : GoString → Option Nat := fun _ => none
  byEndpoint : GoString → Option Nat := fun _ => none
  closed : Bool := false

def alreadyAllocated : Failure := .text (str "source endpoint is already allocated")

namespace Server

def insert (s : Server) (request : AllocateRequest) : Server := { s with
  pool := s.pool ++ [request]
  live := s.live ++ [s.pool.length]
  allocations := Function.update s.allocations request.id (some s.pool.length)
  byEndpoint := Function.update s.byEndpoint (endpointKey request.source) (some s.pool.length) }

def addAllocation (s : Server) (request : AllocateRequest) : Except Failure Nat × Server :=
  if s.closed then (fail "use of closed network connection", s)
  else if (s.allocations request.id).isSome then (fail "relay allocation id is already in use", s)
  else if request.sourceID = [] ∨ request.targetID = [] then
    (fail "source and target endpoint IDs are required", s)
  else if (s.byEndpoint (endpointKey request.source)).isSome then (.error alreadyAllocated, s)
  else (.ok s.pool.length, s.insert request)

def allocate (s : Server) (request : AllocateRequest) (authorize : Option Failure) :
    Except Failure Nat × Server :=
  if request.session = [] ∨ request.id = [] then (fail "session and id are required", s)
  else
    match authorize with
    | some err => (.error err, s)
    | none => s.addAllocation request

def removeAllocation (s : Server) (i : Nat) (alloc : AllocateRequest) : Server := { s with
  live := s.live.filter fun j => j ≠ i
  allocations := fun id => if s.allocations id = some i then none else s.allocations id
  byEndpoint := Function.update s.byEndpoint (endpointKey alloc.source) none }

def forward (config : Config) (s : Server) (source : AllocateRequest) (destination : UDPAddr)
    (payload : Bytes) : Option (Nat × Bytes) :=
  if ipEqual destination.ip config.relayAddress = false ∨
      destination.port ≠ config.relayPort.toNat then none
  else
    match s.byEndpoint (endpointKey source.target) with
    | none => none
    | some j =>
      match s.pool[j]? with
      | none => none
      | some target =>
        if target.targetID ≠ source.sourceID then none
        else
          match encodeFrame config.addr payload with
          | .error _ => none
          | .ok frame => some (j, frame)

def receive (config : Config) (message : Bytes) : Option (UDPAddr × Bytes) :=
  if message.length > config.readLimit then none else (decodeFrame message).toOption

def relay (config : Config) (s : Server) (i : Nat) (message : Bytes) : Option (Nat × Bytes) :=
  if i ∈ s.live then
    s.pool[i]?.bind fun source =>
      (receive config message).bind fun (destination, payload) =>
        s.forward config source destination payload
  else none

def leave (s : Server) (i : Nat) : Server :=
  if i ∈ s.live then
    match s.pool[i]? with
    | none => s
    | some alloc => s.removeAllocation i alloc
  else s

end Server

/-- A request, a binary message to the handler of an allocation, the end of such
a handler, and the end of the server. -/
inductive Op
  | allocate (request : AllocateRequest) (authorize : Option Failure)
  | message (i : Nat) (message : Bytes)
  | leave (i : Nat)
  | close

/-- A message that cannot be read or is no frame ends its handler. -/
def step (config : Config) (s : Server) : Op → Server
  | .allocate request authorize => (s.allocate request authorize).2
  | .message i message => if (Server.receive config message).isSome then s else s.leave i
  | .leave i => s.leave i
  | .close => { s with closed := true }

def run (config : Config) (ops : List Op) : Server := ops.foldl (step config) {}

structure Indexed (s : Server) : Prop where
  inside : ∀ i ∈ s.live, i < s.pool.length
  index : ∀ key i, s.byEndpoint key = some i ↔
    i ∈ s.live ∧ ∃ a, s.pool[i]? = some a ∧ endpointKey a.source = key

namespace Indexed
variable {s : Server}

theorem empty : Indexed {} := ⟨by simp, by simp⟩

theorem source_free (indexed : Indexed s) {key : GoString} (free : s.byEndpoint key = none) {i : Nat}
    (live : i ∈ s.live) {a : AllocateRequest} (found : s.pool[i]? = some a) :
    endpointKey a.source ≠ key := by
  intro same
  have held := (indexed.index key i).mpr ⟨live, a, found, same⟩
  rw [free] at held
  cases held

theorem insert (indexed : Indexed s) {request : AllocateRequest}
    (free : s.byEndpoint (endpointKey request.source) = none) : Indexed (s.insert request) := by
  have pooled : ∀ i ∈ s.live, (s.pool ++ [request])[i]? = s.pool[i]? := fun i live =>
    List.getElem?_append_left (indexed.inside i live)
  refine ⟨?_, fun key i => ?_⟩
  · intro i live
    simp only [Server.insert, List.mem_append, List.mem_singleton, List.length_append,
      List.length_singleton] at live ⊢
    rcases live with old | rfl
    · exact Nat.lt_succ_of_lt (indexed.inside i old)
    · exact Nat.lt_succ_self _
  · simp only [Server.insert, List.mem_append, List.mem_singleton, Function.update_apply]
    split_ifs with same
    · constructor
      · intro new
        rw [← Option.some.inj new]
        exact ⟨.inr rfl, request, by simp, same.symm⟩
      · rintro ⟨old | rfl, a, found, key_a⟩
        · rw [pooled i old] at found
          exact absurd (key_a.trans same) (indexed.source_free free old found)
        · rfl
    · rw [indexed.index]
      constructor
      · rintro ⟨live, a, found, key_a⟩
        exact ⟨.inl live, a, by rw [pooled i live, found], key_a⟩
      · rintro ⟨old | rfl, a, found, key_a⟩
        · exact ⟨old, a, by rw [← pooled i old, found], key_a⟩
        · rw [List.getElem?_concat_length] at found
          rw [← Option.some.inj found] at key_a
          exact absurd key_a.symm same

theorem remove (indexed : Indexed s) {i : Nat} (live : i ∈ s.live) {alloc : AllocateRequest}
    (found : s.pool[i]? = some alloc) : Indexed (s.removeAllocation i alloc) := by
  have held := (indexed.index _ i).mpr ⟨live, alloc, found, rfl⟩
  refine ⟨fun j member => indexed.inside j (List.mem_of_mem_filter member), fun key j => ?_⟩
  simp only [Server.removeAllocation, List.mem_filter, decide_eq_true_eq, Function.update_apply]
  split_ifs with same
  · simp only [false_iff]
    rintro ⟨⟨other, ne⟩, a, found_a, key_a⟩
    have held_j := (indexed.index key j).mpr ⟨other, a, found_a, key_a⟩
    rw [same, held] at held_j
    exact ne (Option.some.inj held_j).symm
  · rw [indexed.index]
    constructor
    · rintro ⟨other, a, found_a, key_a⟩
      refine ⟨⟨other, ?_⟩, a, found_a, key_a⟩
      rintro rfl
      rw [found] at found_a
      rw [← Option.some.inj found_a] at key_a
      exact same key_a.symm
    · rintro ⟨⟨other, _⟩, a, found_a, key_a⟩
      exact ⟨other, a, found_a, key_a⟩

theorem allocate (indexed : Indexed s) (request : AllocateRequest) (authorize : Option Failure) :
    Indexed (s.allocate request authorize).2 := by
  unfold Server.allocate
  split_ifs
  · exact indexed
  · cases authorize with
    | some err => exact indexed
    | none =>
      simp only [Server.addAllocation]
      split_ifs with closed used missing held
      · exact indexed
      · exact indexed
      · exact indexed
      · exact indexed
      · exact indexed.insert (by simpa using held)

theorem leave (indexed : Indexed s) (i : Nat) : Indexed (s.leave i) := by
  unfold Server.leave
  split_ifs with live
  · split
    · exact indexed
    next found => exact indexed.remove live found
  · exact indexed

theorem step {config : Config} (indexed : Indexed s) (op : Op) : Indexed (step config s op) := by
  cases op with
  | allocate request authorize => exact indexed.allocate request authorize
  | message i message =>
    simp only [Relay.step]
    split_ifs
    · exact indexed
    · exact indexed.leave i
  | leave i => exact indexed.leave i
  | close => exact ⟨indexed.inside, indexed.index⟩

end Indexed

theorem run_indexed (config : Config) (ops : List Op) : Indexed (run config ops) := by
  have kept : ∀ s, Indexed s → Indexed (ops.foldl (step config) s) := by
    induction ops with
    | nil => exact fun s indexed => indexed
    | cons op ops ih => exact fun s indexed => ih _ (indexed.step op)
  exact kept {} .empty

def Server.Holds (s : Server) (key : GoString) (j : Nat) (b : AllocateRequest) : Prop :=
  j ∈ s.live ∧ s.pool[j]? = some b ∧ endpointKey b.source = key

theorem encodeFrame_addr (config : Config) (payload : Bytes) :
    (∃ frame, encodeFrame config.addr payload = .ok frame) ↔ payload.length ≤ maxRelayPacket := by
  have small : config.relayPort.toNat ≤ 65535 := Nat.le_of_lt_succ config.relayPort.toNat_lt
  unfold encodeFrame
  split_ifs with large invalid
  · simp only [exists_false, false_iff]
    omega
  · simp only [Config.addr] at invalid
    omega
  · simp only [Nat.le_of_not_lt large, iff_true]
    have valid := config.validAddress
    simp only [Config.addr]
    split
    · exact ⟨_, rfl⟩
    · exact ⟨_, rfl⟩
    next none4 none16 => simp [none4, none16] at valid

variable {s : Server}

/-- A packet to the relay reaches the live allocation under the key of its
target, if this one targets the sender. -/
theorem forward_iff {config : Config} (indexed : Indexed s) {source : AllocateRequest}
    {destination : UDPAddr} (address : ipEqual destination.ip config.relayAddress = true)
    (port : destination.port = config.relayPort.toNat) (payload : Bytes) (j : Nat) :
    (∃ frame, s.forward config source destination payload = some (j, frame)) ↔
      payload.length ≤ maxRelayPacket ∧
        ∃ b, s.Holds (endpointKey source.target) j b ∧ b.targetID = source.sourceID := by
  unfold Server.forward
  rw [if_neg (by simp [address, port])]
  constructor
  · rintro ⟨frame, sent⟩
    split at sent
    · cases sent
    next k held =>
      split at sent
      · cases sent
      next target found =>
        split_ifs at sent with other
        split at sent
        · cases sent
        next encoded =>
          obtain ⟨live, a, found_a, key_a⟩ := (indexed.index _ k).mp held
          rw [found] at found_a
          cases sent
          cases found_a
          exact ⟨(encodeFrame_addr config payload).mp ⟨_, encoded⟩, target,
            ⟨live, found, key_a⟩, not_not.mp other⟩
  · rintro ⟨fits, b, ⟨live, found, key_b⟩, targets⟩
    obtain ⟨frame, encoded⟩ := (encodeFrame_addr config payload).mpr fits
    have held := (indexed.index _ j).mpr ⟨live, b, found, key_b⟩
    exact ⟨frame, by simp [held, found, targets, encoded]⟩

theorem refused_held (indexed : Indexed s) {request : AllocateRequest}
    (refused : (s.allocate request none).1 = .error alreadyAllocated) :
    ∃ j b, s.Holds (endpointKey request.source) j b := by
  unfold Server.allocate Server.addAllocation at refused
  split_ifs at refused with missing closed used anonymous held
  · simp [fail, alreadyAllocated, str] at refused
  · simp [fail, alreadyAllocated, str] at refused
  · simp [fail, alreadyAllocated, str] at refused
  · simp [fail, alreadyAllocated, str] at refused
  · obtain ⟨j, found⟩ := Option.isSome_iff_exists.mp held
    obtain ⟨live, b, found_b, key_b⟩ := (indexed.index _ j).mp found
    exact ⟨j, b, live, found_b, key_b⟩

theorem endpointKey_inj {e e' : Endpoint} (path : 0 ∉ e.path) (path' : 0 ∉ e'.path)
    (session : 0 ∉ e.session) (session' : 0 ∉ e'.session)
    (same : endpointKey e = endpointKey e') : e = e' := by
  simp only [endpointKey, List.append_assoc, List.singleton_append] at same
  obtain ⟨paths, rest⟩ := Separated.first_inj path path' same
  obtain ⟨sessions, ids⟩ := Separated.first_inj session session' rest
  cases e
  cases e'
  simp_all

def Server.Partner (s : Server) (a : AllocateRequest) (j : Nat) : Prop :=
  j ∈ s.live ∧ ∃ b, s.pool[j]? = some b ∧ b.path = a.path ∧ b.session = a.session ∧
    b.sourceID = a.targetID ∧ b.targetID = a.sourceID

def Server.Occupied (s : Server) (request : AllocateRequest) : Prop :=
  ∃ j ∈ s.live, ∃ b, s.pool[j]? = some b ∧ b.path = request.path ∧
    b.session = request.session ∧ b.sourceID = request.sourceID

/-- Some live allocation of a kind has another source under the key of `e`. -/
def Server.confuses (s : Server) (e : Endpoint) (kind : AllocateRequest → Bool) : Bool :=
  s.live.any fun j => s.pool[j]?.any fun b =>
    kind b && decide (endpointKey b.source = endpointKey e ∧ b.source ≠ e)

theorem confuses_eq_false {e : Endpoint} {kind : AllocateRequest → Bool} :
    s.confuses e kind = false ↔
      ∀ j b, s.Holds (endpointKey e) j b → kind b = true → b.source = e := by
  simp only [Server.confuses, Server.Holds, List.any_eq_false, Option.any_eq_true, not_exists,
    not_and, Bool.and_eq_true, decide_eq_true_eq, not_not]
  grind

theorem confuses_unmarked {e : Endpoint} {kind : AllocateRequest → Bool}
    (pool : ∀ a ∈ s.pool, 0 ∉ a.path ∧ 0 ∉ a.session) (path : 0 ∉ e.path)
    (session : 0 ∉ e.session) : s.confuses e kind = false := by
  rw [confuses_eq_false]
  intro j b holds _
  have free := pool b (List.mem_of_getElem? holds.2.1)
  exact endpointKey_inj free.1 path free.2 session holds.2.2

theorem source_eq_target {a b : AllocateRequest} :
    b.source = a.target ↔ b.path = a.path ∧ b.session = a.session ∧ b.sourceID = a.targetID := by
  simp [AllocateRequest.source, AllocateRequest.target]

theorem source_eq_source {a b : AllocateRequest} :
    b.source = a.source ↔ b.path = a.path ∧ b.session = a.session ∧ b.sourceID = a.sourceID := by
  simp [AllocateRequest.source]

theorem forwarded_to_partner_iff {a : AllocateRequest} :
    (∀ j, (∃ b, s.Holds (endpointKey a.target) j b ∧ b.targetID = a.sourceID) ↔ s.Partner a j) ↔
      s.confuses a.target (fun b => decide (b.targetID = a.sourceID)) = false := by
  rw [confuses_eq_false]
  constructor
  · intro exact j b holds targets
    obtain ⟨_, c, found, path, session, source, _⟩ :=
      (exact j).mp ⟨b, holds, by simpa using targets⟩
    rw [holds.2.1] at found
    rw [Option.some.inj found]
    exact source_eq_target.mpr ⟨path, session, source⟩
  · intro clear j
    constructor
    · rintro ⟨b, holds, targets⟩
      obtain ⟨path, session, source⟩ :=
        source_eq_target.mp (clear j b holds (by simpa using targets))
      exact ⟨holds.1, b, holds.2.1, path, session, source, targets⟩
    · rintro ⟨live, b, found, path, session, source, targets⟩
      have same := source_eq_target.mpr ⟨path, session, source⟩
      exact ⟨b, ⟨live, found, by rw [same]⟩, targets⟩

theorem occupied_iff (indexed : Indexed s) {request : AllocateRequest} {j : Nat}
    {b : AllocateRequest} (holds : s.Holds (endpointKey request.source) j b) :
    s.Occupied request ↔ s.confuses request.source (fun _ => true) = false := by
  rw [confuses_eq_false]
  constructor
  · rintro ⟨k, live, c, found, path, session, source⟩ j' b' holds' _
    have same := source_eq_source.mpr ⟨path, session, source⟩
    have held := (indexed.index _ k).mpr ⟨live, c, found, by rw [same]⟩
    have held' := (indexed.index _ j').mpr ⟨holds'.1, b', holds'.2⟩
    rw [held] at held'
    cases held'
    have found' := holds'.2.1
    rw [found] at found'
    rw [← Option.some.inj found', same]
  · intro clear
    obtain ⟨path, session, source⟩ := source_eq_source.mp (clear j b holds rfl)
    exact ⟨j, holds.1, b, holds.2.1, path, session, source⟩

/-- After any operations, packets of a live allocation go exactly where they belong if and
only if no live allocation that targets their sender is confused with their target; and
likewise for the refusal of a source. -/
theorem relay_isolated_iff (config : Config) (ops : List Op) :
    (∀ i a message destination payload, i ∈ (run config ops).live →
      (run config ops).pool[i]? = some a →
      Server.receive config message = some (destination, payload) →
      ipEqual destination.ip config.relayAddress = true →
      destination.port = config.relayPort.toNat → payload.length ≤ maxRelayPacket →
      ((∀ j, (∃ frame, (run config ops).relay config i message = some (j, frame)) ↔
          (run config ops).Partner a j) ↔
        (run config ops).confuses a.target (fun b => decide (b.targetID = a.sourceID)) = false)) ∧
    ∀ request, ((run config ops).allocate request none).1 = .error alreadyAllocated →
      ((run config ops).Occupied request ↔
        (run config ops).confuses request.source (fun _ => true) = false) := by
  have indexed := run_indexed config ops
  generalize run config ops = s at indexed
  constructor
  · intro i a message destination payload live found received address port fits
    rw [← forwarded_to_partner_iff]
    refine forall_congr' fun j => ?_
    have relayed : s.relay config i message = s.forward config a destination payload := by
      simp [Server.relay, live, found, received]
    rw [relayed, forward_iff indexed address port]
    simp only [fits, true_and]
  · intro request refused
    obtain ⟨j, b, holds⟩ := refused_held indexed refused
    exact occupied_iff indexed holds

namespace Sample

def config : Config := ⟨[127, 0, 0, 1], 3478, 0, by decide, by decide⟩

def request (session id source target : GoString) : AllocateRequest :=
  ⟨str "/relay", session, id, str "udp4", source, target⟩

def paired : List Op :=
  [.allocate (request (str "s") (str "a") (str "1") (str "2")) none,
    .allocate (request (str "s") (str "b") (str "2") (str "1")) none]

def message : Bytes := frameOf 4 [127, 0, 0, 1] 3478 (str "ping")

/-- Two allocations of different sessions; the separator stands in the target of
the first and in the session of the second. -/
def crossed : List Op :=
  [.allocate (request (str "s") (str "a") (str "1") (str "t" ++ [0] ++ str "u")) none,
    .allocate (request (str "s" ++ [0] ++ str "t") (str "b") (str "u") (str "1")) none]

def refused : AllocateRequest :=
  request (str "s") (str "c") (str "t" ++ [0] ++ str "u") (str "1")

end Sample

theorem paired_relay_isolated :
    (∀ j, (∃ frame, (run Sample.config Sample.paired).relay Sample.config 0 Sample.message =
        some (j, frame)) ↔
      (run Sample.config Sample.paired).Partner
        (Sample.request (str "s") (str "a") (str "1") (str "2")) j) ∧
    (run Sample.config Sample.paired).Occupied
      (Sample.request (str "s") (str "c") (str "1") (str "3")) :=
  ⟨((relay_isolated_iff Sample.config Sample.paired).1 0 _ Sample.message
      ⟨v4InV6Prefix ++ [127, 0, 0, 1], 3478⟩ (str "ping") (by decide +kernel) (by decide +kernel)
      (by decide +kernel) (by decide +kernel) (by decide +kernel) (by decide +kernel)).mpr
      (by decide +kernel),
    ((relay_isolated_iff Sample.config Sample.paired).2 _ (by decide +kernel)).mpr
      (by decide +kernel)⟩

theorem separator_confuses_sessions :
    ((run Sample.config Sample.crossed).relay Sample.config 0 Sample.message).any
      (fun sent => sent.1 = 1) = true ∧
    ((run Sample.config Sample.crossed).pool.map fun a => a.session) =
      [str "s", str "s" ++ [0] ++ str "t"] ∧
    ((run Sample.config Sample.crossed).allocate Sample.refused none).1 = .error alreadyAllocated ∧
    (run Sample.config Sample.crossed).pool.all (fun a => a.source ≠ Sample.refused.source) := by
  decide +kernel

end Telekit.Relay
