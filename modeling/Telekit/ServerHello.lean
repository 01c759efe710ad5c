import Telekit.ServerState

/-! The hello handler of the server: `peer/server/hello.go`, `security.go` and
the handler that `Listen` subscribes. `handleClientHello` is cut into the pure
authentication of a packet, the decision what to do with an existing session,
and the creation of a connection. Random values, the answers of the rate
limiter, of `OnNewClientJoin` and of `Publish`, and the separate readings of the
clock (by the limiter, for the skew check, for the nonce lookup and for the
nonce entry) are inputs of a call. -/

namespace Telekit

structure Hello where
  sourceId : GoString
  key : Bytes
  nonce : Bytes
  clientEphemeralKey : Bytes
  timestamp : Int
  deriving DecidableEq

structure SessionRandom where
  sessionSalt : Random
  serverNonce : Random
  serverPrivateKey : Bytes
  helloCodec : Random
  signalingSend : Random
  signalingReceive : Random
  dataSend : Random
  dataReceive : Random

structure HelloInput where
  proofRandom : Random
  allowTime : Int
  skewTime : Int
  lookupTime : Int
  addTime : Int
  join : Bool
  published : Bool
  random : SessionRandom

def millisecond : Int := 10 ^ 6

def unixMilli (time : Int) : Int := time / millisecond

namespace Server
variable {P : Primitives} (server : Server P)

/-- `handleClientHello` up to the clock skew check; `none` is a message that is
not a ClientHello. -/
def authenticate (random : Random) (now : Int) (data : Bytes) : Except Failure (Option Hello) := do
  let header ← ({} : Codec).decodeMessageHeader P data
  if header.targetId = [] ∧ header.typ = .clientHello then
    if header.handshakeNonce.length ≠ handshakeNonceSize then fail "invalid client hello nonce"
    else if (validateClientID header.sourceId).isOk = false then
      .error (.text (str "rejected connection from " ++ header.sourceId ++
        str " due to server restrictions"))
    else
      let key ← server.keyProvider header.sourceId
      validateClientCredentials header.sourceId key
      let handshakeKey ← deriveClientHelloKey P key server.roomId header.sourceId server.serverId
        header.handshakeNonce
      let handshakeCodec ← Codec.new P server.encryptionType handshakeKey server.encryptionAAD random
      match handshakeCodec.decodeMessage P data with
      | .error err =>
        .error (.wrapped (str "invalid client proof from " ++ header.sourceId ++ str ": ") err)
      | .ok message =>
        let payload := message.payload.getD {}
        if payload.handshakeRoomID ≠ server.roomId ∨ payload.handshakeClientID ≠ header.sourceId then
          fail "client proof is not bound to room and client identity"
        else if newPublicKey payload.clientEphemeralKey = none then
          fail "invalid client X25519 public key"
        else if payload.clientNonce.length ≠ handshakeNonceSize then
          .error (.text (str "received invalid nonce from " ++ header.sourceId))
        else if header.handshakeNonce ≠ payload.clientNonce then
          fail "client hello nonce does not match authenticated payload"
        else
          match P.parseTime payload.timestamp with
          | none =>
            .error (.wrapped (str "invalid timestamp from " ++ header.sourceId ++ str ": ")
              .parseTime)
          | some timestamp =>
            if now - timestamp > server.options.clockSkew ∨
                now - timestamp < -server.options.clockSkew then
              .error (.text (str "timestamp from " ++ header.sourceId ++
                str " is outside allowed clock skew"))
            else .ok (some
              ⟨header.sourceId, key, payload.clientNonce, payload.clientEphemeralKey, timestamp⟩)
  else .ok none

/-- The rest of `handleClientHello` after `reserveConnection`. -/
def createConnection (hello : Hello) (random : SessionRandom) : Except Failure Connection := do
  let sessionSalt := random.sessionSalt.read handshakeNonceSize
  let serverNonce := random.serverNonce.read handshakeNonceSize
  let serverHelloKey ← deriveServerHelloKey P hello.key server.roomId hello.sourceId server.serverId
    hello.nonce serverNonce
  let serverHelloCodec ← Codec.new P server.encryptionType serverHelloKey server.encryptionAAD
    random.helloCodec
  let serverPublicKey := P.x25519PublicKey random.serverPrivateKey
  match P.x25519ECDH random.serverPrivateKey hello.clientEphemeralKey with
  | none => fail "invalid client X25519 public key"
  | some sharedSecret =>
    let sessionKey ← deriveSessionKey P hello.key sharedSecret sessionSalt server.roomId
      hello.sourceId server.serverId hello.nonce serverNonce hello.clientEphemeralKey serverPublicKey
    let codec ← SignalingChannel.new P server.encryptionType sessionKey server.encryptionAAD .server
      random.signalingSend random.signalingReceive
    let dataChannel ← DataChannel.new P server.encryptionType sessionKey server.encryptionAAD .server
      random.dataSend random.dataReceive
    return {
      sourceId := hello.sourceId
      codec := codec
      handshakeCodec := serverHelloCodec
      sessionSalt := sessionSalt
      clientNonce := hello.nonce
      serverNonce := serverNonce
      clientEphemeralKey := hello.clientEphemeralKey
      serverEphemeralKey := serverPublicKey
      dataChannel := some dataChannel
      pendingLease := true
      totalLease := true }

def serverHelloMessage (conn : Connection) (signature : Bytes) : Message where
  header := some {
    typ := .serverHello
    sourceId := server.serverId
    targetId := conn.sourceId
    handshakeNonce := conn.serverNonce }
  payload := some {
    sessionSalt := conn.sessionSalt
    clientNonce := conn.clientNonce
    serverNonce := conn.serverNonce
    clientEphemeralKey := conn.clientEphemeralKey
    serverEphemeralKey := conn.serverEphemeralKey
    signature := signature
    transports := server.transports }

def transcriptOf (conn : Connection) : Bytes :=
  serverHelloTranscript server.roomId conn.sourceId server.serverId conn.clientNonce conn.serverNonce
    conn.clientEphemeralKey conn.serverEphemeralKey conn.sessionSalt

/-- `sendServerHello` up to the publication: the packet, and the connection with
its handshake codec as the encoding leaves it. -/
def sendServerHello (conn : Connection) : Except Failure Bytes × Connection :=
  match signServerHello P server.identityKey server.roomId conn.sourceId server.serverId
      conn.clientNonce conn.serverNonce conn.clientEphemeralKey conn.serverEphemeralKey
      conn.sessionSalt with
  | .error err => (.error err, conn)
  | .ok signature =>
    let (result, codec) := conn.handshakeCodec.encodeMessage P
      (server.serverHelloMessage conn signature)
    (result, { conn with handshakeCodec := codec })

end Server

def Connection.reusable (existing : Connection) (hello : Hello) : Bool :=
  !existing.closed && existing.transportConn.isNone && existing.selectedTransport = [] &&
    existing.clientNonce = hello.nonce && existing.clientEphemeralKey = hello.clientEphemeralKey

namespace ServerState
variable {P : Primitives} (server : Server P) {cache : Lru.Cache Bytes Int}

def isNonceAvailable (s : ServerState cache) (nonce : Bytes) (lookupTime addTime : Int) :
    Bool × ServerState cache :=
  let (found, nonceCache) := cache.get s.nonceCache nonce
  let replayed := match found with
    | none => false
    | some t => decide (lookupTime - t * millisecond < server.options.replayProtection)
  if replayed then (false, { s with nonceCache := nonceCache })
  else (true, { s with nonceCache := cache.add nonceCache nonce (unixMilli addTime) })

def reuses (s : ServerState cache) (existing : Option Nat) (hello : Hello) : Bool :=
  ((existing.bind (s.pool[·]?)).map (·.reusable hello)).getD false

/-- A replay is refused before the existing session is touched. -/
def prepareClientHello (s : ServerState cache) (existing : Option Nat) (hello : Hello)
    (lookupTime addTime : Int) : Except Failure Bool × ServerState cache :=
  if s.reuses existing hello then (.ok true, s)
  else
    match s.isNonceAvailable server hello.nonce lookupTime addTime with
    | (false, s) => (.error .replayedClientHello, s)
    | (true, s) =>
      match existing with
      | none => (.ok false, s)
      | some i => (.ok false, s.closeConnection i)

def acceptClient (s : ServerState cache) (hello : Hello) (input : HelloInput) :
    Except Failure (Option Nat) × ServerState cache :=
  if input.join = false then
    (.error (.text (str "rejected connection from " ++ hello.sourceId ++
      str " due to server policy")), s)
  else
    match s.reserveConnection server with
    | none => (fail "server connection or pending-handshake limit reached", s)
    | some reserved =>
      match server.createConnection hello input.random with
      | .error err => (.error err, s)
      | .ok conn => (.ok (some s.pool.length), { reserved with pool := s.pool ++ [conn] })

def handleClientHello (s : ServerState cache) (input : HelloInput) (data : Bytes) :
    Except Failure (Option Nat) × ServerState cache :=
  match server.authenticate input.proofRandom input.skewTime data with
  | .error err => (.error err, s)
  | .ok none => (.ok none, s)
  | .ok (some hello) =>
    match s.prepareClientHello server (s.connections hello.sourceId) hello input.lookupTime
        input.addTime with
    | (.error _, s) =>
      (.error (.text (str "received replayed nonce from " ++ hello.sourceId)), s)
    | (.ok true, s) => (.ok (s.connections hello.sourceId), s)
    | (.ok false, s) => s.acceptClient server hello input

/-- The handler of `Listen` up to the answer: the connection to be answered is
registered and its timer runs. -/
def openSession (s : ServerState cache) (allowed : Bool) (input : HelloInput) (data : Bytes) :
    Option Nat × ServerState cache :=
  if allowed = false then (none, s)
  else
    match s.handleClientHello server input data with
    | (.error _, s) => (none, s)
    | (.ok none, s) => (none, s)
    | (.ok (some i), s) =>
      match s.setConnection i with
      | (false, s) => (none, s.closeConnection i)
      | (true, s) => (some i, s.startHandshakeTimer i)

/-- `sendServerHello` with the publication, and what the handler does when it
fails. -/
def answer (s : ServerState cache) (i : Nat) (published : Bool) :
    Option Bytes × ServerState cache :=
  match s.pool[i]? with
  | none => (none, s)
  | some conn =>
    match server.sendServerHello conn with
    | (.error _, conn) => (none, (s.update i fun _ => conn).closeConnection i)
    | (.ok packet, conn) =>
      let s := s.update i fun _ => conn
      if published then (some packet, s) else (none, s.closeConnection i)

def onHello (s : ServerState cache) (allowed : Bool) (input : HelloInput) (data : Bytes) :
    Option Bytes × ServerState cache :=
  match s.openSession server allowed input data with
  | (none, s) => (none, s)
  | (some i, s) => s.answer server i input.published

end ServerState

structure Server.Authentic {P : Primitives} (server : Server P) (random : Random) (now : Int)
    (data : Bytes) (hello : Hello) : Prop where
  header : ∃ header, ({} : Codec).decodeMessageHeader P data = .ok header ∧
    header.typ = .clientHello ∧ header.sourceId = hello.sourceId ∧
    header.handshakeNonce = hello.nonce
  key : server.keyProvider hello.sourceId = .ok hello.key
  proof : ∃ handshakeKey codec message,
    deriveClientHelloKey P hello.key server.roomId hello.sourceId server.serverId hello.nonce =
      .ok handshakeKey ∧
    Codec.new P server.encryptionType handshakeKey server.encryptionAAD random = .ok codec ∧
    codec.decodeMessage P data = .ok message ∧
    (message.payload.getD {}).handshakeRoomID = server.roomId ∧
    (message.payload.getD {}).handshakeClientID = hello.sourceId ∧
    (message.payload.getD {}).clientNonce = hello.nonce ∧
    (message.payload.getD {}).clientEphemeralKey = hello.clientEphemeralKey ∧
    P.parseTime (message.payload.getD {}).timestamp = some hello.timestamp
  skew : now - hello.timestamp ≤ server.options.clockSkew ∧
    -server.options.clockSkew ≤ now - hello.timestamp

variable {P : Primitives} {server : Server P} {hello : Hello}

theorem Server.authenticate_ok {random : Random} {now : Int} {data : Bytes}
    (ok : server.authenticate random now data = .ok (some hello)) :
    server.Authentic random now data hello := by
  simp only [authenticate, bind_ok] at ok
  obtain ⟨header, readable, ok⟩ := ok
  split_ifs at ok with addressed size valid
  · simp at ok
  · simp only [bind_ok] at ok
    obtain ⟨key, provided, _, _, handshakeKey, derived, codec, created, ok⟩ := ok
    split at ok
    · simp at ok
    next message decoded =>
      simp only [guard_ok, reject_ok] at ok
      obtain ⟨bound, _, _, same, ok⟩ := ok
      split at ok
      · simp at ok
      next timestamp parsed =>
        obtain ⟨skew, ok⟩ := reject_ok.mp ok
        have inside : now - timestamp ≤ server.options.clockSkew ∧
            -server.options.clockSkew ≤ now - timestamp := by omega
        simp only [Except.ok.injEq, Option.some.injEq] at ok
        subst ok
        simp only [ne_eq, not_or, not_not] at bound same
        rw [same] at derived
        exact ⟨⟨header, readable, addressed.2, rfl, same⟩, provided, ⟨handshakeKey, codec, message,
          derived, created, decoded, bound.1, bound.2, rfl, rfl, parsed⟩, inside⟩
  · simp at ok

theorem Server.authenticate_unique {random random' : Random} {now now' : Int} {data : Bytes}
    {hello' : Hello} (ok : server.authenticate random now data = .ok (some hello))
    (ok' : server.authenticate random' now' data = .ok (some hello')) : hello' = hello := by
  have first := authenticate_ok ok
  have second := authenticate_ok ok'
  obtain ⟨header, readable, _, source, nonce⟩ := first.header
  obtain ⟨header', readable', _, source', nonce'⟩ := second.header
  rw [readable] at readable'
  obtain rfl := Except.ok.inj readable'
  have sources : hello'.sourceId = hello.sourceId := source'.symm.trans source
  have nonces : hello'.nonce = hello.nonce := nonce'.symm.trans nonce
  have keys : hello'.key = hello.key := by
    have provided := second.key
    rw [sources, first.key] at provided
    exact (Except.ok.inj provided).symm
  obtain ⟨key, codec, message, derived, created, decoded, _, _, _, ephemeral, time⟩ := first.proof
  obtain ⟨key', codec', message', derived', created', decoded', _, _, _, ephemeral', time'⟩ :=
    second.proof
  rw [keys, sources, nonces, derived] at derived'
  obtain rfl := Except.ok.inj derived'
  rw [Codec.decodeMessage_same (Codec.new_sameKey created created'), decoded] at decoded'
  obtain rfl := Except.ok.inj decoded'
  rw [time] at time'
  cases hello
  cases hello'
  simp only at sources nonces keys ephemeral ephemeral' time'
  simp only [sources, keys, nonces, ← ephemeral, ← ephemeral', Option.some.inj time']

/-- How a connection came about: the keys it holds are those of its handshake. -/
structure Server.SessionOf {P : Primitives} (server : Server P) (conn : Connection)
    (key privateKey sharedSecret : Bytes) : Prop where
  provided : server.keyProvider conn.sourceId = .ok key
  ephemeral : conn.serverEphemeralKey = P.x25519PublicKey privateKey
  agreed : P.x25519ECDH privateKey conn.clientEphemeralKey = some sharedSecret
  helloCodec : ∃ helloKey random e,
    deriveServerHelloKey P key server.roomId conn.sourceId server.serverId conn.clientNonce
      conn.serverNonce = .ok helloKey ∧
    Codec.new P server.encryptionType helloKey server.encryptionAAD random = .ok e ∧
    e.SameKey conn.handshakeCodec
  sessionKey : deriveSessionKey P key sharedSecret conn.sessionSalt server.roomId conn.sourceId
    server.serverId conn.clientNonce conn.serverNonce conn.clientEphemeralKey
    conn.serverEphemeralKey = .ok conn.codec.sessionKey
  nonempty : conn.codec.sessionKey ≠ []

def Server.FromHello {P : Primitives} (server : Server P) (conn : Connection) : Prop :=
  ∃ key privateKey sharedSecret, server.SessionOf conn key privateKey sharedSecret

theorem Server.FromHello.keep {a b : Connection} (from_hello : server.FromHello a)
    (same : SameSession a b) : server.FromHello b := by
  obtain ⟨key, privateKey, sharedSecret, session⟩ := from_hello
  obtain ⟨helloKey, random, e, derived, created, keyed⟩ := session.helloCodec
  refine ⟨key, privateKey, sharedSecret, ?_, ?_, ?_, ⟨helloKey, random, e, ?_, created, ?_⟩, ?_, ?_⟩
  · rw [same.sourceId, session.provided]
  · rw [same.serverEphemeralKey, session.ephemeral]
  · rw [same.clientEphemeralKey, session.agreed]
  · rw [same.sourceId, same.clientNonce, same.serverNonce, derived]
  · exact same.handshakeCodec e keyed
  · rw [same.sourceId, same.sessionSalt, same.clientNonce, same.serverNonce,
      same.clientEphemeralKey, same.serverEphemeralKey, same.sessionKey, session.sessionKey]
  · rw [same.sessionKey]
    exact session.nonempty

theorem Server.createConnection_ok {random : SessionRandom} {conn : Connection}
    (ok : server.createConnection hello random = .ok conn)
    (provided : server.keyProvider hello.sourceId = .ok hello.key) :
    server.FromHello conn ∧ conn.sourceId = hello.sourceId ∧ conn.clientNonce = hello.nonce ∧
      conn.clientEphemeralKey = hello.clientEphemeralKey ∧ conn.closed = false := by
  simp only [createConnection, bind_ok] at ok
  obtain ⟨helloKey, derived, helloCodec, created, ok⟩ := ok
  split at ok
  · simp at ok
  next sharedSecret agreed =>
    simp only [bind_ok, pure_ok] at ok
    obtain ⟨sessionKey, session, codec, signaling, _, _, rfl⟩ := ok
    obtain ⟨same, nonempty, _, _⟩ := SignalingChannel.new_ok P signaling
    refine ⟨⟨hello.key, random.serverPrivateKey, sharedSecret, ?_⟩, rfl, rfl, rfl, rfl⟩
    exact ⟨provided, rfl, agreed, ⟨helloKey, random.helloCodec, helloCodec, derived, created,
      Codec.new_sameKey created created⟩, by rw [same]; exact session, by rw [same]; exact nonempty⟩

theorem Server.createConnection_receiveCodec {random : SessionRandom} {conn : Connection}
    (ok : server.createConnection hello random = .ok conn) :
    ∃ key, deriveSignalingKey P conn.codec.sessionKey .clientToServer = .ok key ∧
      Codec.new P server.encryptionType key server.encryptionAAD random.signalingReceive =
        .ok conn.codec.receiveCodec := by
  simp only [createConnection, bind_ok] at ok
  obtain ⟨_, _, _, _, ok⟩ := ok
  split at ok
  · simp at ok
  · simp only [bind_ok, pure_ok] at ok
    obtain ⟨_, _, codec, signaling, _, _, rfl⟩ := ok
    simp only [SignalingChannel.new, bind_ok, pure_ok] at signaling
    obtain ⟨_, _, key, derived, _, _, receiveCodec, created, rfl⟩ := signaling
    exact ⟨key, derived, created⟩

theorem Server.createConnection_lifecycle {random : SessionRandom} {conn : Connection}
    (ok : server.createConnection hello random = .ok conn) :
    ∃ dataChannel, conn.toLifecycle =
      { dataChannel := some dataChannel, pendingLease := true, totalLease := true } := by
  simp only [createConnection, bind_ok] at ok
  obtain ⟨_, _, _, _, ok⟩ := ok
  split at ok
  · simp at ok
  · simp only [bind_ok, pure_ok] at ok
    obtain ⟨_, _, _, _, dataChannel, _, rfl⟩ := ok
    exact ⟨dataChannel, rfl⟩

theorem Server.sendServerHello_snd (server : Server P) (conn : Connection) :
    ∃ codec, (server.sendServerHello conn).2 = { conn with handshakeCodec := codec } := by
  unfold sendServerHello
  split
  · exact ⟨conn.handshakeCodec, rfl⟩
  · exact ⟨_, rfl⟩

namespace ServerState
variable {P : Primitives} (server : Server P) {cache : Lru.Cache Bytes Int}

theorem isNonceAvailable_snd (s : ServerState cache) (nonce : Bytes) (lookupTime addTime : Int) :
    ∃ nonces, (s.isNonceAvailable server nonce lookupTime addTime).2 =
      { s with nonceCache := nonces } := by
  unfold isNonceAvailable
  simp only
  split_ifs <;> exact ⟨_, rfl⟩

inductive Handled (s : ServerState cache) (input : HelloInput) (data : Bytes) :
    Except Failure (Option Nat) → ServerState cache → Prop
  | refused {result : Except Failure (Option Nat)}
      (unauthentic : ∀ hello, server.authenticate input.proofRandom input.skewTime data ≠
        .ok (some hello))
      (nothing : ∀ i, result ≠ .ok (some i)) : Handled s input data result s
  | reused {hello : Hello} {i : Nat} {conn : Connection}
      (authentic : server.authenticate input.proofRandom input.skewTime data = .ok (some hello))
      (registered : s.connections hello.sourceId = some i) (found : s.pool[i]? = some conn)
      (reusable : conn.reusable hello = true)
      (reuse : s.reuses (s.connections hello.sourceId) hello = true) :
      Handled s input data (.ok (some i)) s
  | replayed {hello : Hello} {err : Failure} {s' : ServerState cache}
      (authentic : server.authenticate input.proofRandom input.skewTime data = .ok (some hello))
      (new : s.reuses (s.connections hello.sourceId) hello = false)
      (stale : s.isNonceAvailable server hello.nonce input.lookupTime input.addTime = (false, s')) :
      Handled s input data (.error err) s'
  | rejected {hello : Hello} {err : Failure} {s₁ s₂ : ServerState cache}
      (authentic : server.authenticate input.proofRandom input.skewTime data = .ok (some hello))
      (new : s.reuses (s.connections hello.sourceId) hello = false)
      (fresh : s.isNonceAvailable server hello.nonce input.lookupTime input.addTime = (true, s₁))
      (replaced : s₂ = (s.connections hello.sourceId).elim s₁ s₁.closeConnection) :
      Handled s input data (.error err) s₂
  | created {hello : Hello} {conn : Connection} {s₁ s₂ s₃ : ServerState cache}
      (authentic : server.authenticate input.proofRandom input.skewTime data = .ok (some hello))
      (new : s.reuses (s.connections hello.sourceId) hello = false)
      (fresh : s.isNonceAvailable server hello.nonce input.lookupTime input.addTime = (true, s₁))
      (replaced : s₂ = (s.connections hello.sourceId).elim s₁ s₁.closeConnection)
      (reserved : s₂.reserveConnection server = some s₃)
      (made : server.createConnection hello input.random = .ok conn) :
      Handled s input data (.ok (some s₂.pool.length)) { s₃ with pool := s₂.pool ++ [conn] }

theorem acceptClient_handled {s s₁ s₂ : ServerState cache} {input : HelloInput} {data : Bytes}
    (authentic : server.authenticate input.proofRandom input.skewTime data = .ok (some hello))
    (new : s.reuses (s.connections hello.sourceId) hello = false)
    (fresh : s.isNonceAvailable server hello.nonce input.lookupTime input.addTime = (true, s₁))
    (replaced : s₂ = (s.connections hello.sourceId).elim s₁ s₁.closeConnection) :
    Handled server s input data (s₂.acceptClient server hello input).1
      (s₂.acceptClient server hello input).2 := by
  unfold acceptClient
  split_ifs
  · exact .rejected authentic new fresh replaced
  · split
    · exact .rejected authentic new fresh replaced
    next reserved =>
      split
      · exact .rejected authentic new fresh replaced
      next made => exact .created authentic new fresh replaced reserved made

theorem handleClientHello_handled (s : ServerState cache) (input : HelloInput) (data : Bytes) :
    Handled server s input data (s.handleClientHello server input data).1
      (s.handleClientHello server input data).2 := by
  unfold handleClientHello
  split
  next err rejected => exact .refused (fun hello => by rw [rejected]; simp) (fun i => by simp)
  next other => exact .refused (fun hello => by rw [other]; simp) (fun i => by simp)
  next hello authentic =>
    unfold prepareClientHello
    split_ifs with reuse
    · cases registered : s.connections hello.sourceId with
      | none => simp [registered, reuses] at reuse
      | some i =>
        cases found : s.pool[i]? with
        | none => simp [registered, found, reuses] at reuse
        | some conn =>
          have reusable : conn.reusable hello = true := by
            simpa [registered, found, reuses] using reuse
          simp only [registered]
          exact .reused authentic registered found reusable reuse
    · have new : s.reuses (s.connections hello.sourceId) hello = false := by simpa using reuse
      cases available : s.isNonceAvailable server hello.nonce input.lookupTime input.addTime with
      | mk fresh s₁ =>
        cases fresh with
        | false => exact .replayed authentic new available
        | true =>
          cases registered : s.connections hello.sourceId with
          | none | some =>
            exact acceptClient_handled server authentic new available (by rw [registered]; rfl)

end ServerState
end Telekit
