import Mathlib.Logic.Function.Basic
import Telekit.DataChannel
import Telekit.Library.Lru

/-! The server of `peer/server`: its options as `NewServer` fills and checks
them, its connections, and the atomic operations on the shared state. A
`*Connection` is an index into the pool of all connections ever created, so
pointer comparison is equality of indices. ICE agents and transports are
numbers handed out by the libraries. Receive buffers and the byte budget are
the subject of the byte accounting module; addresses, callbacks other than
`OnNewClientJoin` and the queues kept for old callers are left out. -/

namespace Telekit

def maxRoomIDLength : Nat := 128

def validateRoomID (roomID : GoString) : Except Failure Unit :=
  if roomID.length = 0 ∨ roomID.length > maxRoomIDLength then
    fail "invalid room ID length: must be between 1 and 128 bytes"
  else if roomID.all isIdentifierByte = false then
    .error (.text (str "invalid room ID " ++ quote roomID ++
      str ": use letters, digits, underscore, or hyphen"))
  else .ok ()

theorem validateRoomID_ok {roomID : GoString} (ok : validateRoomID roomID = .ok ()) :
    roomID.length ≤ 128 := by
  unfold validateRoomID at ok
  obtain ⟨bounds, _⟩ := guard_ok.mp ok
  simp only [maxRoomIDLength] at bounds
  omega

def second : Int := 10 ^ 9

/-- The numeric options; durations are nanoseconds and zero means the default. -/
structure Options where
  lruSize : Int := 0
  replayProtection : Int := 0
  clockSkew : Int := 0
  maxFrameSize : Int := 0
  receiveBufferSize : Int := 0
  maxBufferedBytes : Int := 0
  maxPendingICE : Int := 0
  maxPendingICEBytes : Int := 0
  maxConnections : Int := 0
  maxPendingHandshakes : Int := 0
  handshakeTimeout : Int := 0
  heartbeatInterval : Int := 0
  heartbeatTimeout : Int := 0
  helloRateLimit : Rat := 0
  helloRateBurst : Int := 0
  deriving DecidableEq

namespace Options

def orDefault (value standard : Int) : Int := if value = 0 then standard else value

def fill (o : Options) : Options where
  lruSize := orDefault o.lruSize 100000
  replayProtection := orDefault o.replayProtection (300 * second)
  clockSkew := orDefault o.clockSkew (30 * second)
  maxFrameSize := orDefault o.maxFrameSize (4 * 2 ^ 20)
  receiveBufferSize := orDefault o.receiveBufferSize (8 * 2 ^ 20)
  maxBufferedBytes := orDefault o.maxBufferedBytes (256 * 2 ^ 20)
  maxPendingICE := orDefault o.maxPendingICE 128
  maxPendingICEBytes := orDefault o.maxPendingICEBytes (256 * 2 ^ 10)
  maxConnections := orDefault o.maxConnections 1024
  maxPendingHandshakes := orDefault o.maxPendingHandshakes 256
  handshakeTimeout := orDefault o.handshakeTimeout (30 * second)
  heartbeatInterval := orDefault o.heartbeatInterval (5 * second)
  heartbeatTimeout := orDefault o.heartbeatTimeout (15 * second)
  helloRateLimit := if o.helloRateLimit = 0 then 100 else o.helloRateLimit
  helloRateBurst := orDefault o.helloRateBurst 200

def Accepted (o : Options) : Prop :=
  1024 ≤ o.maxFrameSize ∧ o.maxFrameSize ≤ o.receiveBufferSize ∧
    o.receiveBufferSize ≤ o.maxBufferedBytes ∧ 1 ≤ o.maxPendingICE ∧ 1 ≤ o.maxPendingICEBytes ∧
    1 ≤ o.maxConnections ∧ 1 ≤ o.maxPendingHandshakes ∧
    o.maxPendingHandshakes ≤ o.maxConnections ∧ 0 < o.handshakeTimeout ∧
    0 < o.heartbeatInterval ∧ 0 < o.heartbeatTimeout ∧ 0 < o.helloRateLimit ∧
    1 ≤ o.helloRateBurst

instance (o : Options) : Decidable (Accepted o) := inferInstanceAs (Decidable (_ ∧ _))

theorem fill_accepted : ({} : Options).fill.Accepted := by decide

end Options

structure ICEDescription where
  usernameFragment : GoString
  password : GoString
  candidates : List GoString
  deriving DecidableEq

/-- A value `NewServer` returns: a validated room, a canonical identity key,
distinct named transports and accepted limits. Transports are their names. -/
structure Server (P : Primitives) where
  roomId : GoString
  identityKey : Bytes
  keyProvider : GoString → Except Failure Bytes
  transports : List GoString
  encryptionType : EncryptionType
  encryptionAAD : Bytes
  options : Options
  validRoom : validateRoomID roomId = .ok ()
  identitySize : identityKey.length = ed25519PrivateKeySize
  identityCanonical : P.ed25519NewKeyFromSeed (identityKey.take ed25519SeedSize) = identityKey
  transportNamed : ∀ name ∈ transports, name ≠ []
  transportsDistinct : transports.Nodup
  accepted : options.Accepted
  cacheSize : 0 < options.lruSize

namespace Server
variable {P : Primitives}

def publicKey (s : Server P) : Bytes := s.identityKey.drop ed25519SeedSize

def serverId (s : Server P) : GoString := hexEncodeToString (P.sha256 s.publicKey)

theorem publicKey_length (s : Server P) : s.publicKey.length = ed25519PublicKeySize := by
  simp [publicKey, s.identitySize, ed25519PrivateKeySize, ed25519SeedSize, ed25519PublicKeySize]

theorem serverIDFromPublicKey_publicKey (s : Server P) :
    serverIDFromPublicKey P s.publicKey = .ok s.serverId := by
  simp [serverIDFromPublicKey, s.publicKey_length, serverId]

/-- The transports `NewServer` ends up with: one, several, or reliable QUIC. -/
def transportList (transport : Option GoString) (transports : List GoString) :
    Except Failure (List GoString) :=
  match transport with
  | some name =>
    if transports.length ≠ 0 then fail "server transport and transports cannot both be set"
    else .ok [name]
  | none => .ok (if transports.length = 0 then [str "quic"] else transports)

def checkTransports (seen : List GoString) : List GoString → Except Failure Unit
  | [] => .ok ()
  | name :: names =>
    if name = [] then fail "unsupported server transport"
    else if name ∈ seen then fail "duplicate server transport"
    else checkTransports (name :: seen) names

theorem checkTransports_ok {seen names : List GoString} (ok : checkTransports seen names = .ok ()) :
    (∀ name ∈ names, name ≠ [] ∧ name ∉ seen) ∧ names.Nodup := by
  induction names generalizing seen with
  | nil => exact ⟨by simp, .nil⟩
  | cons name names ih =>
    obtain ⟨named, ok⟩ := guard_ok.mp ok
    obtain ⟨new, ok⟩ := guard_ok.mp ok
    obtain ⟨later, distinct⟩ := ih ok
    refine ⟨List.forall_mem_cons.mpr ⟨⟨named, new⟩, fun other member => ?_⟩,
      List.nodup_cons.mpr ⟨fun again => (later name again).2 List.mem_cons_self, distinct⟩⟩
    exact ⟨(later other member).1, fun earlier =>
      (later other member).2 (List.mem_cons_of_mem _ earlier)⟩

/-- `NewServer` with the room check of `NewAPI` before it. No encryption type
and empty associated data stand for the defaults. -/
def new (P : Primitives) (roomId : GoString) (identityKey : Bytes)
    (keyProvider : GoString → Except Failure Bytes) (transport : Option GoString)
    (transports : List GoString) (encryptionType : Option EncryptionType) (encryptionAAD : Bytes)
    (options : Options) : Except Failure (Server P) :=
  if roomId = [] then fail "room ID is not set"
  else
    match room : validateRoomID roomId with
    | .error err => .error err
    | .ok () =>
      if size : identityKey.length ≠ ed25519PrivateKeySize then
        fail "Ed25519 server identity key is required"
      else if canonical :
          P.ed25519NewKeyFromSeed (identityKey.take ed25519SeedSize) ≠ identityKey then
        fail "invalid Ed25519 server identity key"
      else
        match transportList transport transports with
        | .error err => .error err
        | .ok names =>
          match checked : checkTransports [] names with
          | .error err => .error err
          | .ok () =>
            if accepted : options.fill.Accepted then
              if cacheSize : 0 < options.fill.lruSize then .ok {
                roomId := roomId
                identityKey := identityKey
                keyProvider := keyProvider
                transports := names
                encryptionType := encryptionType.getD .chacha20Poly1305
                encryptionAAD :=
                  if encryptionAAD.length = 0 then str "telekit/v1" else encryptionAAD
                options := options.fill
                validRoom := room
                identitySize := by simpa using size
                identityCanonical := by simpa using canonical
                transportNamed := fun name member => ((checkTransports_ok checked).1 name member).1
                transportsDistinct := (checkTransports_ok checked).2
                accepted := accepted
                cacheSize := cacheSize }
              else fail "must provide a positive size"
            else fail "invalid server resource limits"

end Server

/-- The part of a connection that changes after the handshake. `closeEntered` and
`closeDone` are the state of `closeOnce`: its function has been started, and it
has returned. -/
structure Lifecycle where
  dataChannel : Option DataChannel := none
  transportConn : Option Nat := none
  iceAgent : Option Nat := none
  selectedTransport : GoString := []
  pendingICEOffer : Option ICEDescription := none
  established : Bool := false
  closed : Bool := false
  closeEntered : Bool := false
  closeDone : Bool := false
  pendingLease : Bool := false
  totalLease : Bool := false
  handshakeTimer : Bool := false
  signalSend : UInt64 := 0
  signalRecv : ReplayWindow := .empty
  deriving DecidableEq

structure Connection extends Lifecycle where
  sourceId : GoString
  codec : SignalingChannel
  handshakeCodec : Codec
  sessionSalt : Bytes
  clientNonce : Bytes
  serverNonce : Bytes
  clientEphemeralKey : Bytes
  serverEphemeralKey : Bytes
  deriving DecidableEq

structure ServerState (cache : Lru.Cache Bytes Int) where
  pool : List Connection
  connections : GoString → Option Nat
  nonceCache : cache.State
  totalConnections : Int
  pendingHandshakes : Int
  closed : Bool

namespace ServerState
variable {cache : Lru.Cache Bytes Int}

def start (cache : Lru.Cache Bytes Int) : ServerState cache :=
  ⟨[], fun _ => none, cache.empty, 0, 0, false⟩

def update (s : ServerState cache) (i : Nat) (f : Connection → Connection) : ServerState cache :=
  match s.pool[i]? with
  | none => s
  | some c => { s with pool := s.pool.set i (f c) }

def register (s : ServerState cache) (id : GoString) (i : Option Nat) : ServerState cache :=
  { s with connections := Function.update s.connections id i }

/-- `isCurrent`; the flag is read before and after the map. -/
def isCurrent (s : ServerState cache) (i : Nat) : Bool :=
  match s.pool[i]? with
  | none => false
  | some c => !c.closed && decide (s.connections c.sourceId = some i)

def setConnection (s : ServerState cache) (i : Nat) : Bool × ServerState cache :=
  match s.pool[i]? with
  | none => (false, s)
  | some c => if s.closed ∨ c.closed then (false, s) else (true, s.register c.sourceId (some i))

def removeCurrent (s : ServerState cache) (i : Nat) : ServerState cache :=
  match s.pool[i]? with
  | none => s
  | some c => if s.connections c.sourceId = some i then s.register c.sourceId none else s

def reserveCounter (counter limit : Int) : Option Int :=
  if counter ≥ limit then none else some (counter + 1)

def storeClosed (s : ServerState cache) (i : Nat) : ServerState cache :=
  s.update i fun c => { c with closed := true }

def enterClose (s : ServerState cache) (i : Nat) : ServerState cache :=
  s.update i fun c => { c with closeEntered := true, established := false }

def stopHandshakeTimer (s : ServerState cache) (i : Nat) : ServerState cache :=
  s.update i fun c => { c with handshakeTimer := false }

def swapPendingLease (s : ServerState cache) (i : Nat) : Bool × ServerState cache :=
  match s.pool[i]? with
  | none => (false, s)
  | some c => (c.pendingLease, s.update i fun c => { c with pendingLease := false })

def swapTotalLease (s : ServerState cache) (i : Nat) : Bool × ServerState cache :=
  match s.pool[i]? with
  | none => (false, s)
  | some c => (c.totalLease, s.update i fun c => { c with totalLease := false })

def dropPending (s : ServerState cache) : ServerState cache :=
  { s with pendingHandshakes := s.pendingHandshakes - 1 }

def dropTotal (s : ServerState cache) : ServerState cache :=
  { s with totalConnections := s.totalConnections - 1 }

def clearState (s : ServerState cache) (i : Nat) : ServerState cache :=
  s.update i fun c => { c with transportConn := none, dataChannel := none, iceAgent := none }

def leaveClose (s : ServerState cache) (i : Nat) : ServerState cache :=
  s.update i fun c => { c with closeDone := true }

def releaseLease (s : ServerState cache) (i : Nat) : ServerState cache :=
  let s := s.stopHandshakeTimer i
  let (pending, s) := s.swapPendingLease i
  let s := if pending then s.dropPending else s
  let (total, s) := s.swapTotalLease i
  if total then s.dropTotal else s

/-- `Connection.Close` without interruption. -/
def closeConnection (s : ServerState cache) (i : Nat) : ServerState cache :=
  match s.pool[i]? with
  | none => s
  | some c =>
    let s := s.storeClosed i
    if c.closeEntered then s
    else ((((s.enterClose i).removeCurrent i).releaseLease i).clearState i).leaveClose i

def startHandshakeTimer (s : ServerState cache) (i : Nat) : ServerState cache :=
  s.update i fun c => if c.closed then c else { c with handshakeTimer := true }

/-- `reserveConnection` without interruption: both counters or neither. -/
def reserveConnection {P : Primitives} (server : Server P) (s : ServerState cache) :
    Option (ServerState cache) :=
  match reserveCounter s.totalConnections server.options.maxConnections with
  | none => none
  | some total =>
    match reserveCounter s.pendingHandshakes server.options.maxPendingHandshakes with
    | none => none
    | some pending => some { s with totalConnections := total, pendingHandshakes := pending }

end ServerState

/-- What a connection keeps for its whole life. The handshake codec may have
moved on to a later nonce under the same key. -/
structure SameSession (a b : Connection) : Prop where
  sourceId : b.sourceId = a.sourceId
  sessionKey : b.codec.sessionKey = a.codec.sessionKey
  handshakeCodec : ∀ e : Codec, e.SameKey a.handshakeCodec → e.SameKey b.handshakeCodec
  sessionSalt : b.sessionSalt = a.sessionSalt
  clientNonce : b.clientNonce = a.clientNonce
  serverNonce : b.serverNonce = a.serverNonce
  clientEphemeralKey : b.clientEphemeralKey = a.clientEphemeralKey
  serverEphemeralKey : b.serverEphemeralKey = a.serverEphemeralKey

theorem SameSession.refl (a : Connection) : SameSession a a :=
  ⟨rfl, rfl, fun _ same => same, rfl, rfl, rfl, rfl, rfl⟩

theorem SameSession.trans {a b c : Connection} (ab : SameSession a b) (bc : SameSession b c) :
    SameSession a c where
  sourceId := bc.sourceId.trans ab.sourceId
  sessionKey := bc.sessionKey.trans ab.sessionKey
  handshakeCodec e same := bc.handshakeCodec e (ab.handshakeCodec e same)
  sessionSalt := bc.sessionSalt.trans ab.sessionSalt
  clientNonce := bc.clientNonce.trans ab.clientNonce
  serverNonce := bc.serverNonce.trans ab.serverNonce
  clientEphemeralKey := bc.clientEphemeralKey.trans ab.clientEphemeralKey
  serverEphemeralKey := bc.serverEphemeralKey.trans ab.serverEphemeralKey

theorem SameSession.lifecycle (a : Connection) (life : Lifecycle) :
    SameSession a { a with toLifecycle := life } :=
  ⟨rfl, rfl, fun _ same => same, rfl, rfl, rfl, rfl, rfl⟩

namespace ServerState
variable {cache : Lru.Cache Bytes Int}

structure Touches (s s' : ServerState cache) : Prop where
  length : s'.pool.length = s.pool.length
  session : ∀ (i : Nat) c', s'.pool[i]? = some c' → ∃ c, s.pool[i]? = some c ∧ SameSession c c'
  registry : ∀ id i, s'.connections id = some i → s.connections id = some i

namespace Touches

theorem of_same {s s' : ServerState cache} (pool : s'.pool = s.pool)
    (connections : s'.connections = s.connections) : Touches s s' where
  length := by rw [pool]
  session i c found := ⟨c, by rw [← pool]; exact found, .refl c⟩
  registry id i found := by rw [← connections]; exact found

theorem refl (s : ServerState cache) : Touches s s := of_same rfl rfl

theorem trans {s₁ s₂ s₃ : ServerState cache} (h₁ : Touches s₁ s₂) (h₂ : Touches s₂ s₃) :
    Touches s₁ s₃ where
  length := h₂.length.trans h₁.length
  session i c₃ found₃ := by
    obtain ⟨c₂, found₂, same₂⟩ := h₂.session i c₃ found₃
    obtain ⟨c₁, found₁, same₁⟩ := h₁.session i c₂ found₂
    exact ⟨c₁, found₁, same₁.trans same₂⟩
  registry id i found := h₁.registry id i (h₂.registry id i found)

theorem kept {s s' : ServerState cache} (h : Touches s s') {i : Nat} {c : Connection}
    (found : s.pool[i]? = some c) : ∃ c', s'.pool[i]? = some c' ∧ SameSession c c' := by
  obtain ⟨inside, _⟩ := List.getElem?_eq_some_iff.mp found
  have present := List.getElem?_eq_getElem (h.length ▸ inside)
  obtain ⟨c₀, found₀, same⟩ := h.session i _ present
  rw [found] at found₀
  cases found₀
  exact ⟨_, present, same⟩

end Touches

theorem Touches.clientNonces {s s' : ServerState cache} (h : Touches s s') :
    s'.pool.map (·.clientNonce) = s.pool.map (·.clientNonce) := by
  apply List.ext_getElem?
  intro i
  simp only [List.getElem?_map]
  cases found : s'.pool[i]? with
  | none =>
    have outside := List.getElem?_eq_none_iff.mp found
    rw [List.getElem?_eq_none (by rw [← h.length]; exact outside)]
  | some c' =>
    obtain ⟨c, before, same⟩ := h.session i c' found
    simp [before, same.clientNonce]

theorem update_touches (s : ServerState cache) (i : Nat) {f : Connection → Connection}
    (keeps : ∀ c, s.pool[i]? = some c → SameSession c (f c)) : Touches s (s.update i f) := by
  unfold update
  split
  · exact .refl s
  next c present =>
    refine ⟨by simp, fun j c' found => ?_, fun _ _ found => found⟩
    obtain ⟨inside, _⟩ := List.getElem?_eq_some_iff.mp present
    by_cases same : i = j
    · subst same
      simp only [List.getElem?_set, inside, if_true, Option.some.injEq] at found
      exact ⟨c, present, found ▸ keeps c present⟩
    · rw [List.getElem?_set_ne same] at found
      exact ⟨c', found, .refl c'⟩

theorem unregister_touches (s : ServerState cache) (id : GoString) :
    Touches s (s.register id none) := by
  refine ⟨rfl, fun i c found => ⟨c, found, .refl c⟩, fun other i found => ?_⟩
  by_cases same : other = id
  · simp [register, same] at found
  · simpa [register, Function.update_of_ne same] using found

theorem lifecycle_touches (s : ServerState cache) (i : Nat) (life : Connection → Lifecycle) :
    Touches s (s.update i fun c => { c with toLifecycle := life c }) :=
  s.update_touches i fun c _ => .lifecycle c _

section Close
variable (keeps : ServerState cache → Prop) {s : ServerState cache} (i : Nat)
  (lifecycle : ∀ s (life : Connection → Lifecycle), keeps s →
    keeps (s.update i fun c => { c with toLifecycle := life c }))
  (unregister : ∀ s id, keeps s → keeps (s.register id none))
  (counters : ∀ s total pending, keeps s →
    keeps { s with totalConnections := total, pendingHandshakes := pending })

include lifecycle counters in
theorem releaseLease_keeps (start : keeps s) : keeps (s.releaseLease i) := by
  have swapPending : ∀ s, keeps s → keeps (s.swapPendingLease i).2 := by
    intro s kept
    unfold swapPendingLease
    split
    · exact kept
    · exact lifecycle s _ kept
  have swapTotal : ∀ s, keeps s → keeps (s.swapTotalLease i).2 := by
    intro s kept
    unfold swapTotalLease
    split
    · exact kept
    · exact lifecycle s _ kept
  have timer : keeps (s.stopHandshakeTimer i) := lifecycle s _ start
  have stopped := swapPending _ timer
  unfold releaseLease
  simp only
  have dropped : keeps (if ((s.stopHandshakeTimer i).swapPendingLease i).1 = true
      then ((s.stopHandshakeTimer i).swapPendingLease i).2.dropPending
      else ((s.stopHandshakeTimer i).swapPendingLease i).2) := by
    split_ifs
    · exact counters _ _ _ stopped
    · exact stopped
  have swapped := swapTotal _ dropped
  generalize (if ((s.stopHandshakeTimer i).swapPendingLease i).1 = true
      then ((s.stopHandshakeTimer i).swapPendingLease i).2.dropPending
      else ((s.stopHandshakeTimer i).swapPendingLease i).2) = s₁ at swapped
  split_ifs
  · exact counters _ _ _ swapped
  · exact swapped

include lifecycle unregister counters in
theorem closeConnection_keeps (start : keeps s) : keeps (s.closeConnection i) := by
  have removed : ∀ s, keeps s → keeps (s.removeCurrent i) := by
    intro s kept
    unfold removeCurrent
    split
    · exact kept
    · split_ifs
      · exact unregister s _ kept
      · exact kept
  unfold closeConnection
  split
  · exact start
  · have stored : keeps (s.storeClosed i) := lifecycle s _ start
    have entered : keeps ((s.storeClosed i).enterClose i) := lifecycle _ _ stored
    split_ifs
    · exact stored
    · have released := releaseLease_keeps keeps i lifecycle counters (removed _ entered)
      exact lifecycle _ _ (lifecycle _ _ released)

end Close

theorem closeConnection_touches (s : ServerState cache) (i : Nat) :
    Touches s (s.closeConnection i) :=
  closeConnection_keeps (Touches s) i (fun s₁ life kept => kept.trans (s₁.lifecycle_touches i life))
    (fun s₁ id kept => kept.trans (s₁.unregister_touches id))
    (fun _ _ _ kept => kept.trans (.of_same rfl rfl)) (.refl s)

theorem startHandshakeTimer_touches (s : ServerState cache) (i : Nat) :
    Touches s (s.startHandshakeTimer i) := by
  refine s.update_touches i fun c _ => ?_
  split_ifs
  · exact .refl c
  · exact .lifecycle c _

theorem update_getElem? (s : ServerState cache) (i j : Nat) (f : Connection → Connection) :
    (s.update i f).pool[j]? = if i = j then s.pool[j]?.map f else s.pool[j]? := by
  unfold update
  split
  next absent =>
    split_ifs with same
    · rw [← same, absent, Option.map_none]
    · rfl
  next c present =>
    have inside := (List.getElem?_eq_some_iff.mp present).1
    rw [List.getElem?_set]
    split_ifs with same
    · rw [← same, present, Option.map_some]
    · rfl

@[simp] theorem update_connections (s : ServerState cache) (i : Nat) (f : Connection → Connection) :
    (s.update i f).connections = s.connections := by
  unfold update
  split <;> rfl

@[simp] theorem update_totalConnections (s : ServerState cache) (i : Nat)
    (f : Connection → Connection) : (s.update i f).totalConnections = s.totalConnections := by
  unfold update
  split <;> rfl

@[simp] theorem update_pendingHandshakes (s : ServerState cache) (i : Nat)
    (f : Connection → Connection) : (s.update i f).pendingHandshakes = s.pendingHandshakes := by
  unfold update
  split <;> rfl

@[simp] theorem swapPendingLease_snd (s : ServerState cache) (i : Nat) :
    (s.swapPendingLease i).2 = s.update i fun c => { c with pendingLease := false } := by
  unfold swapPendingLease update
  cases s.pool[i]? <;> rfl

@[simp] theorem swapTotalLease_snd (s : ServerState cache) (i : Nat) :
    (s.swapTotalLease i).2 = s.update i fun c => { c with totalLease := false } := by
  unfold swapTotalLease update
  cases s.pool[i]? <;> rfl

@[simp] theorem update_nonceCache (s : ServerState cache) (i : Nat) (f : Connection → Connection) :
    (s.update i f).nonceCache = s.nonceCache := by
  unfold update
  split <;> rfl

@[simp] theorem closeConnection_nonceCache (s : ServerState cache) (i : Nat) :
    (s.closeConnection i).nonceCache = s.nonceCache :=
  closeConnection_keeps (fun s' => s'.nonceCache = s.nonceCache) i
    (fun s₁ _ kept => (s₁.update_nonceCache i _).trans kept) (fun _ _ kept => kept)
    (fun _ _ _ kept => kept) rfl

@[simp] theorem setConnection_nonceCache (s : ServerState cache) (i : Nat) :
    (s.setConnection i).2.nonceCache = s.nonceCache := by
  unfold setConnection
  split
  · rfl
  · split_ifs <;> rfl

@[simp] theorem setConnection_pool (s : ServerState cache) (i : Nat) :
    (s.setConnection i).2.pool = s.pool := by
  unfold setConnection
  split
  · rfl
  · split_ifs <;> rfl

theorem reserveConnection_same {P : Primitives} {server : Server P} {s s' : ServerState cache}
    (reserved : s.reserveConnection server = some s') :
    s'.pool = s.pool ∧ s'.connections = s.connections ∧ s'.nonceCache = s.nonceCache := by
  unfold reserveConnection at reserved
  split at reserved
  · cases reserved
  · split at reserved
    · cases reserved
    · cases reserved
      exact ⟨rfl, rfl, rfl⟩

end ServerState
end Telekit
