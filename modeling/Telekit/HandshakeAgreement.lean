import Telekit.ClientHello
import Telekit.PlainPrimitives
import Telekit.ServerHello

/-! Agreement of the handshake. A run of the server is any sequence of hello
calls, answers and interference; a ghost log records every transcript its
identity key has signed. Any connection may be answered at any time, and
between two calls the lifecycle of any connection, the registry and the
counters may change in any way the other handlers could bring about. The
unforgeability of Ed25519 is assumed of the one signature the client checks:
what verifies under the pinned key is in the log. -/

namespace Telekit
namespace HandshakeRun

variable {P : Primitives} (server : Server P) {cache : Lru.Cache Bytes Int}

structure Run (cache : Lru.Cache Bytes Int) where
  state : ServerState cache
  signed : List Bytes

inductive Event
  | hello (allowed : Bool) (input : HelloInput) (data : Bytes)
  | answer (i : Nat) (published : Bool)
  | lifecycle (i : Nat) (life : Lifecycle)
  | signal (i : Nat) (message : Message)
  | unregister (id : GoString)
  | counters (total pending : Int)
  | shutdown

def signedFor (s : ServerState cache) (i : Nat) : List Bytes :=
  match s.pool[i]? with
  | none => []
  | some conn =>
    match signServerHello P server.identityKey server.roomId conn.sourceId server.serverId
        conn.clientNonce conn.serverNonce conn.clientEphemeralKey conn.serverEphemeralKey
        conn.sessionSalt with
    | .error _ => []
    | .ok _ => [server.transcriptOf conn]

def step (r : Run cache) : Event → Run cache
  | .hello allowed input data =>
    { r with state := (r.state.openSession server allowed input data).2 }
  | .answer i published =>
    ⟨(r.state.answer server i published).2, r.signed ++ signedFor server r.state i⟩
  | .lifecycle i life => { r with state := r.state.update i ({ · with toLifecycle := life }) }
  | .signal i message =>
    { r with state := r.state.update i fun c =>
        { c with codec := (c.codec.encodeMessage P message).2 } }
  | .unregister id => { r with state := r.state.register id none }
  | .counters total pending =>
    { r with state := { r.state with totalConnections := total, pendingHandshakes := pending } }
  | .shutdown => { r with state := { r.state with closed := true } }

def run (events : List Event) : Run cache :=
  events.foldl (step server) ⟨ServerState.start cache, []⟩

structure Sessions (s : ServerState cache) : Prop where
  fromHello : ∀ (i : Nat) conn, s.pool[i]? = some conn → server.FromHello conn
  registry : ∀ id i, s.connections id = some i →
    ∃ conn, s.pool[i]? = some conn ∧ conn.sourceId = id

def Keeps (s s' : ServerState cache) : Prop :=
  ∀ (i : Nat) conn, s.pool[i]? = some conn →
    ∃ conn', s'.pool[i]? = some conn' ∧ SameSession conn conn'

variable {server}

theorem Keeps.trans {s₁ s₂ s₃ : ServerState cache} (h₁ : Keeps s₁ s₂) (h₂ : Keeps s₂ s₃) :
    Keeps s₁ s₃ := by
  intro i conn found
  obtain ⟨conn₂, found₂, same₂⟩ := h₁ i conn found
  obtain ⟨conn₃, found₃, same₃⟩ := h₂ i conn₂ found₂
  exact ⟨conn₃, found₃, same₂.trans same₃⟩

variable {s : ServerState cache}

theorem Keeps.of_touches {s' : ServerState cache} (h : s.Touches s') : Keeps s s' :=
  fun _ _ found => h.kept found

theorem Sessions.touches {s' : ServerState cache} (sound : Sessions server s) (h : s.Touches s') :
    Sessions server s' where
  fromHello i conn' found := by
    obtain ⟨conn, before, same⟩ := h.session i conn' found
    exact (sound.fromHello i conn before).keep same
  registry id i registered := by
    obtain ⟨conn, found, named⟩ := sound.registry id i (h.registry id i registered)
    obtain ⟨conn', found', same⟩ := h.kept found
    exact ⟨conn', found', same.sourceId.trans named⟩

theorem isNonceAvailable_touches (server : Server P) (s : ServerState cache) (nonce : Bytes)
    (lookup add : Int) :
    s.Touches (s.isNonceAvailable server nonce lookup add).2 := by
  unfold ServerState.isNonceAvailable
  simp only
  split_ifs <;> exact .of_same rfl rfl

theorem replace_touches (s : ServerState cache) (existing : Option Nat) :
    s.Touches (existing.elim s s.closeConnection) := by
  cases existing with
  | none => exact .refl s
  | some i => exact s.closeConnection_touches i

variable {conn : Connection}

theorem created_sound {s₁ : ServerState cache} (sound : Sessions server s)
    (same : s₁.connections = s.connections) (session : server.FromHello conn) :
    Sessions server { s₁ with pool := s.pool ++ [conn] } ∧
      Keeps s { s₁ with pool := s.pool ++ [conn] } := by
  have kept : ∀ (i : Nat) c, s.pool[i]? = some c → (s.pool ++ [conn])[i]? = some c := by
    intro i c found
    obtain ⟨inside, _⟩ := List.getElem?_eq_some_iff.mp found
    rw [List.getElem?_append_left inside, found]
  refine ⟨⟨fun i c found => ?_, fun id i registered => ?_⟩, fun i c found =>
    ⟨c, kept i c found, .refl c⟩⟩
  · rcases List.mem_append.mp (List.mem_of_getElem? found) with old | new
    · obtain ⟨j, present⟩ := List.getElem?_of_mem old
      exact sound.fromHello j c present
    · rw [List.mem_singleton.mp new]
      exact session
  · obtain ⟨c, found, named⟩ := sound.registry id i (by rw [← same]; exact registered)
    exact ⟨c, kept i c found, named⟩

theorem handleClientHello_sound (sound : Sessions server s) (input : HelloInput) (data : Bytes) :
    Sessions server (s.handleClientHello server input data).2 ∧
      Keeps s (s.handleClientHello server input data).2 := by
  have handled := s.handleClientHello_handled server input data
  generalize s.handleClientHello server input data = outcome at handled
  obtain ⟨result, s'⟩ := outcome
  have touched {s' : ServerState cache} (h : s.Touches s') :
      Sessions server s' ∧ Keeps s s' := ⟨sound.touches h, .of_touches h⟩
  cases handled with
  | refused | reused => exact touched (.refl _)
  | @replayed hello _ _ _ _ stale =>
    have moved := isNonceAvailable_touches server s hello.nonce input.lookupTime
      input.addTime
    rw [stale] at moved
    exact touched moved
  | @rejected hello _ s₁ _ _ _ fresh replaced =>
    have moved := isNonceAvailable_touches server s hello.nonce input.lookupTime
      input.addTime
    rw [fresh] at moved
    rw [replaced]
    exact touched (moved.trans (replace_touches s₁ _))
  | @created hello conn s₁ s₂ s₃ authentic _ fresh replaced reserved made =>
    have moved := isNonceAvailable_touches server s hello.nonce input.lookupTime
      input.addTime
    rw [fresh] at moved
    have before : s.Touches s₂ := by
      rw [replaced]
      exact moved.trans (replace_touches s₁ _)
    have provided := (Server.authenticate_ok authentic).key
    obtain ⟨session, _⟩ := Server.createConnection_ok made provided
    obtain ⟨_, registry, _⟩ := ServerState.reserveConnection_same reserved
    obtain ⟨after, kept⟩ := created_sound (sound.touches before) registry session
    exact ⟨after, (Keeps.of_touches before).trans kept⟩

theorem setConnection_sound {s' : ServerState cache} {i : Nat} {accepted : Bool}
    (sound : Sessions server s) (set : s.setConnection i = (accepted, s')) :
    Sessions server s' ∧ Keeps s s' := by
  unfold ServerState.setConnection at set
  have unchanged : Sessions server s ∧ Keeps s s := ⟨sound, .of_touches (.refl s)⟩
  split at set
  · cases set
    exact unchanged
  next conn found =>
    split_ifs at set
    · cases set
      exact unchanged
    · cases set
      refine ⟨⟨sound.fromHello, fun id j registered => ?_⟩, fun j c present => ⟨c, present, .refl c⟩⟩
      by_cases same : id = conn.sourceId
      · subst same
        simp only [ServerState.register, Function.update_self, Option.some.injEq] at registered
        exact ⟨conn, registered ▸ found, rfl⟩
      · simp only [ServerState.register, Function.update_of_ne same] at registered
        exact sound.registry id j registered

theorem openSession_sound (sound : Sessions server s) (allowed : Bool) (input : HelloInput)
    (data : Bytes) :
    Sessions server (s.openSession server allowed input data).2 ∧
      Keeps s (s.openSession server allowed input data).2 := by
  unfold ServerState.openSession
  split_ifs
  · exact ⟨sound, .of_touches (.refl s)⟩
  · have handled := handleClientHello_sound sound input data
    generalize s.handleClientHello server input data = outcome at handled
    obtain ⟨result, s₁⟩ := outcome
    obtain ⟨after, kept⟩ := handled
    match result with
    | .error _ => exact ⟨after, kept⟩
    | .ok none => exact ⟨after, kept⟩
    | .ok (some i) =>
      simp only
      cases set : s₁.setConnection i with
      | mk accepted s₂ =>
        obtain ⟨registered, kept₂⟩ := setConnection_sound after set
        cases accepted with
        | false =>
          have closed := s₂.closeConnection_touches i
          exact ⟨registered.touches closed, kept.trans (kept₂.trans (.of_touches closed))⟩
        | true =>
          have timed := s₂.startHandshakeTimer_touches i
          exact ⟨registered.touches timed, kept.trans (kept₂.trans (.of_touches timed))⟩

theorem sendServerHello_same (server : Server P) (conn : Connection) :
    SameSession conn (server.sendServerHello conn).2 := by
  unfold Server.sendServerHello
  split
  · exact .refl conn
  · exact ⟨rfl, rfl, fun e same => Codec.encodeMessage_keeps same _, rfl, rfl, rfl, rfl, rfl⟩

theorem answer_touches (server : Server P) (s : ServerState cache) (i : Nat)
    (published : Bool) :
    s.Touches (s.answer server i published).2 := by
  unfold ServerState.answer
  split
  · exact .refl s
  next conn found =>
    have same := sendServerHello_same server conn
    have updated : s.Touches (s.update i fun _ => (server.sendServerHello conn).2) := by
      refine s.update_touches i fun c present => ?_
      rw [found] at present
      cases present
      exact same
    split
    next err conn' sent =>
      rw [sent] at updated
      exact updated.trans (ServerState.closeConnection_touches _ i)
    next packet conn' sent =>
      rw [sent] at updated
      cases published
      · exact updated.trans (ServerState.closeConnection_touches _ i)
      · exact updated

theorem transcriptOf_same {a b : Connection} (same : SameSession a b) :
    server.transcriptOf b = server.transcriptOf a := by
  simp only [Server.transcriptOf, same.sourceId, same.clientNonce, same.serverNonce,
    same.clientEphemeralKey, same.serverEphemeralKey, same.sessionSalt]

/-- The invariant of a run: the log holds transcripts of connections only. -/
structure Sound (server : Server P) (r : Run cache) : Prop where
  sessions : Sessions server r.state
  log : ∀ t ∈ r.signed, ∃ (i : Nat) (conn : Connection), r.state.pool[i]? = some conn ∧
    server.transcriptOf conn = t

theorem Sound.keep {r : Run cache} {s' : ServerState cache} (sound : Sound server r)
    (after : Sessions server s' ∧ Keeps r.state s') : Sound server { r with state := s' } where
  sessions := after.1
  log t signed := by
    obtain ⟨i, conn, found, named⟩ := sound.log t signed
    obtain ⟨conn', found', same⟩ := after.2 i conn found
    exact ⟨i, conn', found', (transcriptOf_same same).trans named⟩

theorem signedFor_mem {i : Nat} {t : Bytes} (signed : t ∈ signedFor server s i) :
    ∃ conn, s.pool[i]? = some conn ∧ server.transcriptOf conn = t := by
  unfold signedFor at signed
  split at signed
  · simp at signed
  next conn found =>
    split at signed
    · simp at signed
    · exact ⟨conn, found, (List.mem_singleton.mp signed).symm⟩

theorem step_sound {r : Run cache} (sound : Sound server r) (event : Event) :
    Sound server (step server r event) := by
  have touched {s' : ServerState cache} (h : r.state.Touches s') :
      Sound server { r with state := s' } :=
    sound.keep ⟨sound.sessions.touches h, .of_touches h⟩
  cases event with
  | hello allowed input data => exact sound.keep (openSession_sound sound.sessions allowed input data)
  | answer i published =>
    have kept := touched (answer_touches server r.state i published)
    refine ⟨kept.sessions, fun t signed => ?_⟩
    rcases List.mem_append.mp signed with before | now
    · exact kept.log t before
    · obtain ⟨conn, found, named⟩ := signedFor_mem now
      obtain ⟨conn', found', same⟩ := (answer_touches server r.state i published).kept found
      exact ⟨i, conn', found', (transcriptOf_same same).trans named⟩
  | lifecycle i life => exact touched (r.state.lifecycle_touches i fun _ => life)
  | signal i message =>
    exact touched (r.state.update_touches i fun c _ =>
      ⟨rfl, rfl, fun _ same => same, rfl, rfl, rfl, rfl, rfl⟩)
  | unregister id => exact touched (r.state.unregister_touches id)
  | counters | shutdown => exact touched (.of_same rfl rfl)

theorem run_sound (events : List Event) : Sound server (run server events : Run cache) := by
  have start : Sound server (⟨ServerState.start cache, []⟩ : Run cache) :=
    ⟨⟨fun i conn found => by simp [ServerState.start] at found,
      fun id i found => by simp [ServerState.start] at found⟩, fun t signed => by simp at signed⟩
  exact List.foldlRecOn events (step server) start fun _ sound event _ => step_sound sound event

section Client
variable {client : Client} {attempt : ClientHandshake}

theorem transcript_short (digest : P.Sha256Length) {room clientID : GoString}
    (validRoom : validateRoomID room = .ok ())
    {clientNonce serverNonce clientKey serverKey salt : Bytes}
    (valid : ValidSession room clientID server.serverId clientNonce serverNonce clientKey serverKey
      salt) :
    ∀ x ∈ [room, clientID, server.serverId, clientNonce, serverNonce, clientKey, serverKey, salt],
      x.length < 2 ^ 32 := by
  have roomShort := validateRoomID_ok validRoom
  have named : server.serverId.length = 64 := by
    rw [Server.serverId, hexEncodeToString_length, digest.digest]
  have source := valid.clientID.2
  simp only [List.forall_mem_cons, List.not_mem_nil, false_implies, implies_true, and_true, named,
    valid.clientNonce, valid.serverNonce, valid.clientEphemeralKey, valid.serverEphemeralKey,
    valid.salt]
  omega

theorem presented_agrees (x25519 : P.X25519Correct) (digest : P.Sha256Length)
    (pinned : client.serverPublicKey = server.publicKey)
    (shared : server.keyProvider client.clientId = .ok client.key)
    (pair : attempt.publicKey = P.x25519PublicKey attempt.privateKey) {data : Bytes}
    {random : ClientRandom} {o : Client.OpenedServerHello} {hs : ServerHandshake}
    (opened : client.openServerHello P data attempt random.helloCodec = .ok o)
    (accepted : client.acceptServerHello P o attempt random = .ok hs)
    (session : server.FromHello conn)
    (same : server.transcriptOf conn = client.presentedTranscript o) :
    server.roomId = client.roomId ∧ conn.sourceId = client.clientId ∧
      hs.serverID = server.serverId ∧ conn.clientNonce = attempt.nonce ∧
      conn.clientEphemeralKey = attempt.publicKey ∧ conn.serverNonce = o.payload.serverNonce ∧
      conn.serverEphemeralKey = o.payload.serverEphemeralKey ∧
      conn.sessionSalt = o.payload.sessionSalt ∧ hs.codec.sessionKey = conn.codec.sessionKey := by
  obtain ⟨named, nonce, key⟩ := Client.openServerHello_ok opened
  obtain ⟨_, serverID, _, sharedSecret, agreed, derived⟩ := Client.acceptServerHello_ok accepted
  obtain ⟨psk, privateKey, secret, session⟩ := session
  have expected : o.serverID = server.serverId := by
    rw [pinned, server.serverIDFromPublicKey_publicKey] at named
    exact (Except.ok.inj named).symm
  rw [Server.transcriptOf, Client.presentedTranscript, expected, nonce, key] at same
  rw [expected] at derived
  obtain ⟨room, source, _, clientNonce, serverNonce, clientKey, serverKey, salt⟩ :=
    serverHelloTranscript_inj same
      (transcript_short digest server.validRoom (deriveSessionKey_ok session.sessionKey))
      (transcript_short digest client.validRoom (deriveSessionKey_ok derived))
  have psks : psk = client.key := by
    have provided := session.provided
    rw [source, shared] at provided
    exact (Except.ok.inj provided).symm
  have secrets : secret = sharedSecret := by
    have ours := session.agreed
    rw [clientKey, pair, x25519.commutes, ← session.ephemeral, serverKey, agreed] at ours
    exact (Option.some.inj ours).symm
  have keys := session.sessionKey
  rw [psks, secrets, room, source, clientNonce, serverNonce, clientKey, serverKey, salt] at keys
  rw [keys] at derived
  exact ⟨room, source, serverID.trans expected, clientNonce, clientKey, serverNonce, serverKey, salt,
    (Except.ok.inj derived).symm⟩

structure Matching (server : Server P) (client : Client) : Prop where
  pinned : client.serverPublicKey = server.publicKey
  shared : server.keyProvider client.clientId = .ok client.key
  room : client.roomId = server.roomId
  typ : client.encryptionType = server.encryptionType
  aad : client.encryptionAAD = server.encryptionAAD

theorem Matching.serverID (matching : Matching server client) :
    serverIDFromPublicKey P client.serverPublicKey = .ok server.serverId := by
  rw [matching.pinned, server.serverIDFromPublicKey_publicKey]

theorem authenticate_built (aead : P.AeadCorrect) (expansion : P.AeadExpansion)
    (gob : P.GobRoundTrip) (matching : Matching server client)
    {nonceRandom codecRandom random : Random} {privateKey : Bytes} {now then_ : Int}
    (built : client.buildClientHello P nonceRandom privateKey codecRandom then_ = .ok attempt)
    {hello : Hello}
    (authentic : server.authenticate random now attempt.message = .ok (some hello)) :
    hello.sourceId = client.clientId ∧ hello.nonce = attempt.nonce ∧
      hello.clientEphemeralKey = attempt.publicKey := by
  obtain ⟨_, _, serverID, handshakeKey, codec, codec', named, derived, created, encoded⟩ :=
    Client.buildClientHello_ok built
  have checked := Server.authenticate_ok authentic
  obtain ⟨header, readable, _, source, nonce⟩ := checked.header
  have clear := Codec.decodeMessageHeader_encodeMessage (b := {}) expansion gob encoded rfl
    (gob.header_plain _ rfl) (Codec.decodeMessageHeader_small readable)
  rw [readable] at clear
  obtain rfl := Except.ok.inj clear
  obtain ⟨handshakeKey', opener, message, derived', created', decoded, _, _, _, key, _⟩ :=
    checked.proof
  have sent : hello.sourceId = client.clientId := source.symm
  have fresh : hello.nonce = attempt.nonce := nonce.symm
  have psk : hello.key = client.key := by
    have provided := checked.key
    rw [sent, matching.shared] at provided
    exact (Except.ok.inj provided).symm
  rw [matching.serverID] at named
  obtain rfl := Except.ok.inj named
  rw [psk, ← matching.room, sent, fresh, derived] at derived'
  obtain rfl := Except.ok.inj derived'
  rw [← matching.typ, ← matching.aad] at created'
  have inverse := Codec.decodeMessage_encodeMessage aead expansion gob encoded
    (Codec.new_sameKey created created') (gob.header_plain _ rfl) (gob.payload_plain _ rfl)
    (Codec.decodeMessageHeader_small readable)
  rw [decoded] at inverse
  obtain rfl := Except.ok.inj inverse
  exact ⟨sent, fresh, key.symm⟩

theorem openServerHello_sent (aead : P.AeadCorrect) (expansion : P.AeadExpansion)
    (gob : P.GobRoundTrip) (matching : Matching server client)
    {key privateKey sharedSecret : Bytes}
    (session : server.SessionOf conn key privateKey sharedSecret)
    (source : conn.sourceId = client.clientId) (nonce : conn.clientNonce = attempt.nonce)
    (ephemeral : conn.clientEphemeralKey = attempt.publicKey) {signature packet : Bytes}
    {codec' : Codec}
    (encoded : conn.handshakeCodec.encodeMessage P (server.serverHelloMessage conn signature) =
      (.ok packet, codec')) (small : packet.length ≤ maxSignalingPacketSize) (random : Random) :
    client.openServerHello P packet attempt random =
      .ok ⟨server.serverId, ((server.serverHelloMessage conn signature).payload.getD {})⟩ := by
  have valid := deriveSessionKey_ok session.sessionKey
  have clear := Codec.decodeMessageHeader_encodeMessage (b := {}) expansion gob encoded rfl
    (gob.header_plain _ rfl) small
  obtain ⟨helloKey, random', e, derived, created, keyed⟩ := session.helloCodec
  have psk : key = client.key := by
    have provided := session.provided
    rw [source, matching.shared] at provided
    exact (Except.ok.inj provided).symm
  rw [psk, source, nonce, ← matching.room] at derived
  rw [← matching.typ, ← matching.aad] at created
  obtain ⟨short, known, _⟩ := Codec.new_ok created
  obtain ⟨opener, opening⟩ := Codec.new_of_known (P := P) known helloKey short random
  have decoded := Codec.decodeMessage_encodeMessage aead expansion gob encoded
    (keyed.symm.trans (Codec.new_sameKey created opening)) (gob.header_plain _ rfl)
    (gob.payload_plain _ rfl) small
  simp only [Client.openServerHello, bind_ok, guard_ok, pure_ok]
  refine ⟨_, clear, _, matching.serverID, ?_, ?_, helloKey, derived, opener, opening, _, decoded, ?_⟩
  · simp [Server.serverHelloMessage, source]
  · simp [Server.serverHelloMessage, valid.serverNonce, handshakeNonceSize]
  · simp [Server.serverHelloMessage, source, nonce, ephemeral, valid.serverID, valid.salt,
      valid.serverNonce, handshakeNonceSize]

theorem acceptServerHello_sent (x25519 : P.X25519Correct) (ed25519 : P.Ed25519Correct)
    (matching : Matching server client)
    (pair : attempt.publicKey = P.x25519PublicKey attempt.privateKey)
    {key privateKey sharedSecret : Bytes}
    (session : server.SessionOf conn key privateKey sharedSecret)
    (source : conn.sourceId = client.clientId) (nonce : conn.clientNonce = attempt.nonce)
    (ephemeral : conn.clientEphemeralKey = attempt.publicKey) {signature : Bytes}
    (signed : signServerHello P server.identityKey server.roomId conn.sourceId server.serverId
      conn.clientNonce conn.serverNonce conn.clientEphemeralKey conn.serverEphemeralKey
      conn.sessionSalt = .ok signature) (random : ClientRandom) :
    ∃ hs, client.acceptServerHello P
        ⟨server.serverId, (server.serverHelloMessage conn signature).payload.getD {}⟩ attempt random =
          .ok hs ∧
      hs.codec.sessionKey = conn.codec.sessionKey ∧ hs.transports = server.transports := by
  have valid := deriveSessionKey_ok session.sessionKey
  have verified := signServerHello_verifies ed25519 server.identitySize server.identityCanonical signed
  have psk : key = client.key := by
    have provided := session.provided
    rw [source, matching.shared] at provided
    exact (Except.ok.inj provided).symm
  have agreed : P.x25519ECDH attempt.privateKey conn.serverEphemeralKey = some sharedSecret := by
    rw [session.ephemeral, x25519.commutes, ← pair, ← ephemeral]
    exact session.agreed
  obtain ⟨_, random', e, _, created, _⟩ := session.helloCodec
  rw [← matching.typ, ← matching.aad] at created
  obtain ⟨short, known, _⟩ := Codec.new_ok created
  obtain ⟨codec, signaling⟩ := SignalingChannel.new_of_known P known session.nonempty short .client
    random.signalingSend random.signalingReceive
  obtain ⟨channel, data⟩ := DataChannel.new_of_known (P := P) known session.nonempty short .client
    random.dataSend random.dataReceive
  have derived := session.sessionKey
  rw [psk, source, nonce, ephemeral, ← matching.room] at derived
  rw [source, ← matching.room] at verified
  refine ⟨⟨server.serverId, codec, channel, server.transports⟩, ?_,
    (SignalingChannel.new_ok P signaling).1, rfl⟩
  have public_ : client.serverPublicKey = server.identityKey.drop ed25519SeedSize := matching.pinned
  simp only [Client.acceptServerHello, Server.serverHelloMessage, Option.getD_some, newPublicKey,
    valid.serverEphemeralKey, if_true, public_, verified, Bool.true_eq_false, if_false, agreed,
    bind_ok, pure_ok]
  exact ⟨_, derived, _, signaling, _, data, rfl⟩

/-- The connection `handleClientHello` returns is one for the hello it was given,
whether it is new or sent again. -/
theorem handleClientHello_returns {s' : ServerState cache} (sound : Sessions server s)
    {input : HelloInput} {data : Bytes} {i : Nat}
    (ok : s.handleClientHello server input data = (.ok (some i), s'))
    (found : s'.pool[i]? = some conn) :
    ∃ hello, server.authenticate input.proofRandom input.skewTime data = .ok (some hello) ∧
      conn.sourceId = hello.sourceId ∧ conn.clientNonce = hello.nonce ∧
      conn.clientEphemeralKey = hello.clientEphemeralKey := by
  have handled := s.handleClientHello_handled server input data
  rw [ok] at handled
  generalize outcome : (Except.ok (some i) : Except Failure (Option Nat)) = result at handled
  cases handled with
  | refused _ nothing => exact absurd outcome.symm (nothing i)
  | replayed | rejected => cases outcome
  | @reused hello _ existing authentic registered present reusable =>
    cases outcome
    rw [found] at present
    cases present
    obtain ⟨conn', found', named⟩ := sound.registry hello.sourceId i registered
    rw [found] at found'
    cases found'
    simp only [Connection.reusable, Bool.and_eq_true, decide_eq_true_eq] at reusable
    exact ⟨hello, authentic, named, reusable.1.2, reusable.2⟩
  | @created hello new s₁ s₂ s₃ authentic _ fresh replaced reserved made =>
    cases outcome
    simp only [List.getElem?_concat_length, Option.some.injEq] at found
    subst found
    obtain ⟨_, source, nonce, key, _⟩ :=
      Server.createConnection_ok made (Server.authenticate_ok authentic).key
    exact ⟨hello, authentic, source, nonce, key⟩

end Client
end HandshakeRun

namespace Plain

def serverOffering (transports : List GoString) (named : ∀ name ∈ transports, name ≠ [])
    (distinct : transports.Nodup) : Server primitives where
  roomId := str "room"
  identityKey := newKeyFromSeed (List.replicate 32 5)
  keyProvider id := if id = str "station" then .ok (List.replicate 32 1) else .error .keyProvider
  transports := transports
  encryptionType := .chacha20Poly1305
  encryptionAAD := str "telekit/v1"
  options := ({} : Options).fill
  validRoom := by decide +kernel
  identitySize := by decide +kernel
  identityCanonical := by decide +kernel
  transportNamed := named
  transportsDistinct := distinct
  accepted := Options.fill_accepted
  cacheSize := by decide

def server : Server primitives := serverOffering [str "quic"] (by decide) (by decide)

def client : Client where
  roomId := str "room"
  clientId := str "station"
  key := List.replicate 32 1
  serverPublicKey := server.publicKey
  encryptionType := .chacha20Poly1305
  encryptionAAD := str "telekit/v1"
  transport := str "quic"
  validRoom := by decide +kernel
  validKey := by decide +kernel

def attempt : ClientHandshake :=
  match client.buildClientHello primitives UInt8.ofNat (List.replicate 32 3) UInt8.ofNat 5000 with
  | .ok attempt => attempt
  | .error _ => ⟨[], [], [], []⟩

theorem attempt_built : client.buildClientHello primitives UInt8.ofNat (List.replicate 32 3)
    UInt8.ofNat 5000 = .ok attempt := by
  have succeeds : (client.buildClientHello primitives UInt8.ofNat (List.replicate 32 3) UInt8.ofNat
      5000).isOk = true := by decide +kernel
  unfold attempt
  split
  next built => exact built
  next failed => rw [failed] at succeeds; cases succeeds

def sessionRandom : SessionRandom :=
  ⟨UInt8.ofNat, UInt8.ofNat, List.replicate 32 4, UInt8.ofNat, UInt8.ofNat, UInt8.ofNat, UInt8.ofNat,
    UInt8.ofNat⟩

def helloInput (now : Int) : HelloInput := ⟨UInt8.ofNat, now, now, now, now, true, true, sessionRandom⟩

def clientRandom : ClientRandom :=
  ⟨UInt8.ofNat, UInt8.ofNat, UInt8.ofNat, UInt8.ofNat, UInt8.ofNat⟩

abbrev nonces : Lru.Cache Bytes Int := Lru.listCache Bytes Int 100000

def packet : Bytes :=
  ((ServerState.start nonces).onHello server true (helloInput 6000) attempt.message).1.getD []

end Plain

namespace HandshakeRun
variable {P : Primitives} {cache : Lru.Cache Bytes Int}

/-- Whatever the signaling service delivers, an accepted ServerHello was signed
by the pinned server for this attempt and both sides hold one session key; and
every answer within the packet size limit to an accepted attempt is accepted. -/
theorem handshake_agreement (x25519 : P.X25519Correct) (ed25519 : P.Ed25519Correct)
    (digest : P.Sha256Length) (aead : P.AeadCorrect) (expansion : P.AeadExpansion)
    (gob : P.GobRoundTrip) (server : Server P) (client : Client)
    (pinned : client.serverPublicKey = server.publicKey)
    (shared : server.keyProvider client.clientId = .ok client.key)
    {nonceRandom codecRandom : Random} {privateKey : Bytes} {now : Int} {attempt : ClientHandshake}
    (built : client.buildClientHello P nonceRandom privateKey codecRandom now = .ok attempt)
    (events : List Event) (r : Run cache) (reached : run server events = r) :
    (∀ data random hs,
      (∀ o, client.openServerHello P data attempt random.helloCodec = .ok o →
        P.ed25519Verify client.serverPublicKey (client.presentedTranscript o) o.payload.signature =
          true → client.presentedTranscript o ∈ r.signed) →
      client.handleServerHello P data attempt random = .ok hs →
      ∃ o, ∃ i : Nat, ∃ conn, client.openServerHello P data attempt random.helloCodec = .ok o ∧
        r.state.pool[i]? = some conn ∧ server.transcriptOf conn ∈ r.signed ∧
        server.roomId = client.roomId ∧ conn.sourceId = client.clientId ∧
        hs.serverID = server.serverId ∧ conn.clientNonce = attempt.nonce ∧
        conn.clientEphemeralKey = attempt.publicKey ∧ conn.serverNonce = o.payload.serverNonce ∧
        conn.serverEphemeralKey = o.payload.serverEphemeralKey ∧
        conn.sessionSalt = o.payload.sessionSalt ∧
        hs.codec.sessionKey = conn.codec.sessionKey) ∧
    (client.roomId = server.roomId → client.encryptionType = server.encryptionType →
      client.encryptionAAD = server.encryptionAAD →
      ∀ input i s' conn packet conn',
        r.state.handleClientHello server input attempt.message = (.ok (some i), s') →
        s'.pool[i]? = some conn → server.sendServerHello conn = (.ok packet, conn') →
        packet.length ≤ maxSignalingPacketSize → ∀ random,
        ∃ hs, client.handleServerHello P packet attempt random = .ok hs ∧
          hs.codec.sessionKey = conn.codec.sessionKey ∧ hs.transports = server.transports) := by
  have sound : Sound server r := reached ▸ run_sound events
  obtain ⟨mine, public_, _⟩ := Client.buildClientHello_ok built
  have pair : attempt.publicKey = P.x25519PublicKey attempt.privateKey := by rw [public_, mine]
  constructor
  · intro data random hs unforged ok
    simp only [Client.handleServerHello, bind_ok] at ok
    obtain ⟨o, opened, accepted⟩ := ok
    obtain ⟨verified, _⟩ := Client.acceptServerHello_ok accepted
    have logged := unforged o opened (verifyServerHello_true verified).2
    obtain ⟨i, conn, found, same⟩ := sound.log _ logged
    exact ⟨o, i, conn, opened, found, same ▸ logged, presented_agrees x25519 digest pinned shared pair
      opened accepted (sound.sessions.fromHello i conn found) same⟩
  · intro room typ aad input i s' conn packet conn' ok found sent small random
    have matching : Matching server client := ⟨pinned, shared, room, typ, aad⟩
    obtain ⟨hello, authentic, source, nonce, key⟩ := handleClientHello_returns sound.sessions ok found
    obtain ⟨helloSource, helloNonce, helloKey⟩ :=
      authenticate_built aead expansion gob matching built authentic
    have after := (handleClientHello_sound sound.sessions input attempt.message).1
    rw [ok] at after
    obtain ⟨psk, serverKey, secret, session⟩ := after.fromHello i conn found
    unfold Server.sendServerHello at sent
    split at sent
    · simp at sent
    next signature signed =>
      simp only [Prod.mk.injEq] at sent
      have opened := openServerHello_sent aead expansion gob matching session
        (source.trans helloSource) (nonce.trans helloNonce) (key.trans helloKey)
        (Prod.ext sent.1 rfl) small random.helloCodec
      obtain ⟨hs, accepted, keys, transports⟩ := acceptServerHello_sent x25519 ed25519 matching pair
        session (source.trans helloSource) (nonce.trans helloNonce) (key.trans helloKey) signed random
      refine ⟨hs, ?_, keys, transports⟩
      rw [Client.handleServerHello, opened]
      exact accepted


def fits {P : Primitives} (server : Server P) (conn : Connection) : Bool :=
  match server.sendServerHello conn with
  | (.ok packet, _) => decide (packet.length ≤ maxSignalingPacketSize)
  | (.error _, _) => false

variable {conn : Connection}

theorem fits_sent {P : Primitives} {server : Server P} (small : fits server conn = true) :
    ∃ packet conn', server.sendServerHello conn = (.ok packet, conn') ∧
      packet.length ≤ maxSignalingPacketSize := by
  unfold fits at small
  split at small
  next packet conn' sent => exact ⟨packet, conn', sent, by simpa using small⟩
  · simp at small

def sampleEvents : List Event :=
  [.hello true (Plain.helloInput 6000) Plain.attempt.message, .answer 0 true]

theorem handshake_agreement_sample : ∃ r : Run Plain.nonces, run Plain.server sampleEvents = r ∧
    (∃ hs conn, Plain.client.handleServerHello Plain.primitives Plain.packet Plain.attempt
        Plain.clientRandom = .ok hs ∧ conn ∈ r.state.pool ∧
      hs.codec.sessionKey = conn.codec.sessionKey) ∧
    ∃ s' conn packet conn' hs, r.state.handleClientHello Plain.server (Plain.helloInput 7000)
        Plain.attempt.message = (.ok (some 0), s') ∧ s'.pool[0]? = some conn ∧
      Plain.server.sendServerHello conn = (.ok packet, conn') ∧
      Plain.client.handleServerHello Plain.primitives packet Plain.attempt Plain.clientRandom =
        .ok hs ∧ hs.codec.sessionKey = conn.codec.sessionKey ∧ hs.transports = [str "quic"] := by
  obtain ⟨agree, complete⟩ := handshake_agreement Plain.x25519Correct Plain.ed25519Correct
    Plain.sha256Length Plain.aeadCorrect Plain.aeadExpansion Plain.gobRoundTrip Plain.server
    Plain.client rfl rfl Plain.attempt_built sampleEvents
    (run Plain.server sampleEvents : Run Plain.nonces) rfl
  refine ⟨_, rfl, ?_, ?_⟩
  · have evaluated : (Plain.client.handleServerHello Plain.primitives Plain.packet Plain.attempt
        Plain.clientRandom).isOk = true ∧
        ((Plain.client.openServerHello Plain.primitives Plain.packet Plain.attempt
          Plain.clientRandom.helloCodec).toOption.all fun o =>
            decide (Plain.client.presentedTranscript o ∈
              (run Plain.server sampleEvents : Run Plain.nonces).signed)) = true := by
      decide +kernel
    obtain ⟨accepted, logged⟩ := evaluated
    cases result : Plain.client.handleServerHello Plain.primitives Plain.packet Plain.attempt
      Plain.clientRandom with
    | error err => rw [result] at accepted; cases accepted
    | ok hs =>
      obtain ⟨o, i, conn, _, found, _, _, _, _, _, _, _, _, _, keys⟩ :=
        agree Plain.packet Plain.clientRandom hs
          (fun o opened _ => by rw [opened] at logged; simpa [Except.toOption] using logged) result
      exact ⟨hs, conn, rfl, List.mem_of_getElem? found, keys⟩
  · have evaluated : ((run Plain.server sampleEvents : Run Plain.nonces).state.handleClientHello
        Plain.server (Plain.helloInput 7000) Plain.attempt.message).1 = .ok (some 0) ∧
        (((run Plain.server sampleEvents : Run Plain.nonces).state.handleClientHello
          Plain.server (Plain.helloInput 7000) Plain.attempt.message).2.pool[0]?.any
            (fits Plain.server)) = true := by
      decide +kernel
    obtain ⟨again, small⟩ := evaluated
    cases outcome : (run Plain.server sampleEvents : Run Plain.nonces).state.handleClientHello
      Plain.server (Plain.helloInput 7000) Plain.attempt.message with
    | mk answer s' =>
      rw [outcome] at again small
      obtain rfl : answer = .ok (some 0) := again
      obtain ⟨conn, found, small⟩ := (Option.any_eq_true _ _).mp small
      obtain ⟨packet, conn', sent, small⟩ := fits_sent small
      obtain ⟨hs, accepted, keys, transports⟩ := complete rfl rfl rfl (Plain.helloInput 7000) 0 s'
        conn packet conn' outcome found sent small Plain.clientRandom
      exact ⟨s', conn, packet, conn', hs, rfl, found, sent, accepted, keys, transports⟩

def longName : GoString := List.replicate (maxSignalingPacketSize + 1) 97

def longServer : Server Plain.primitives :=
  Plain.serverOffering [longName] (by simp [longName]) (by simp)

theorem signServerHello_session {P : Primitives} {server : Server P}
    (session : server.FromHello conn) :
    ∃ signature, signServerHello P server.identityKey server.roomId conn.sourceId server.serverId
      conn.clientNonce conn.serverNonce conn.clientEphemeralKey conn.serverEphemeralKey
      conn.sessionSalt = .ok signature := by
  obtain ⟨key, privateKey, secret, session⟩ := session
  have valid := deriveSessionKey_ok session.sessionKey
  have transcript := validateServerHelloTranscript_ok.mpr
    ⟨⟨valid.roomID, valid.clientID.1, valid.serverID⟩, ⟨valid.clientNonce, valid.serverNonce⟩,
      ⟨valid.clientEphemeralKey, valid.serverEphemeralKey⟩, valid.salt⟩
  unfold signServerHello
  rw [if_neg (by simp [server.identitySize]), if_neg (by simp [server.identityCanonical]),
    transcript]
  exact ⟨_, rfl⟩

theorem sendServerHello_fresh {server : Server Plain.primitives} (session : server.FromHello conn)
    {kit : EncryptionKit} (present : conn.handshakeCodec.encryptionKit = some kit)
    (size : kit.typ.nonceSize = kit.nonce.prefixBytes.length + nonceCounterSize)
    (fresh : kit.nonce.counter = 0) :
    ∃ packet conn', server.sendServerHello conn = (.ok packet, conn') := by
  obtain ⟨signature, signed⟩ := signServerHello_session session
  have header : conn.handshakeCodec.encodeHeaderChunk Plain.primitives
      (Plain.primitives.encodeHeader ((server.serverHelloMessage conn signature).header.getD {}))
      (server.serverHelloMessage conn signature).encrypt = (.ok _, conn.handshakeCodec) := rfl
  cases payload : conn.handshakeCodec.encodeWithEncryption Plain.primitives
      (Plain.primitives.encodePayload ((server.serverHelloMessage conn signature).payload.getD {}))
      aadDomainPayload
      (Plain.primitives.encodeHeader ((server.serverHelloMessage conn signature).header.getD {})) with
  | mk result codec =>
    cases result with
    | error err =>
      have exhausted := Codec.encodeWithEncryption_exhausted present size
        (Plain.gobRoundTrip.encodePayload_ne_nil (Plain.gobRoundTrip.payload_plain _ rfl)) payload
      rw [fresh] at exhausted
      exact absurd exhausted (by decide)
    | ok chunk =>
      simp only [Server.sendServerHello, signed, Codec.encodeMessage, header, payload]
      exact ⟨_, _, rfl⟩

theorem transport_le_packet {server : Server Plain.primitives} {conn' : Connection} {packet : Bytes}
    (sent : server.sendServerHello conn = (.ok packet, conn')) {name : GoString}
    (offered : name ∈ server.transports) : name.length ≤ packet.length := by
  unfold Server.sendServerHello at sent
  split at sent
  · simp at sent
  next signature signed =>
    simp only [Prod.mk.injEq] at sent
    obtain ⟨header, payload, codec, _, encrypted, packed⟩ :=
      Codec.encodeMessage_ok (Prod.ext sent.1 rfl)
    have inPacket : payload.length ≤ packet.length :=
      Plain.gobRoundTrip.chunk_length _ _ packed payload (by simp)
    have inChunk := (Codec.encodeWithEncryption_length Plain.aeadExpansion encrypted).2.1
    have inPayload : (Plain.encodeList server.transports).length ≤ (Plain.primitives.encodePayload
        ((server.serverHelloMessage conn signature).payload.getD {})).length :=
      Plain.entry_length (by simp [Server.serverHelloMessage])
    have inList := Plain.entry_length offered
    omega

/-- An answer that carries such a name is refused by the client it is meant for. -/
theorem long_answer_refused : ∃ (s' : ServerState Plain.nonces) (conn conn' : Connection)
    (packet : Bytes),
    Plain.client.serverPublicKey = longServer.publicKey ∧
    longServer.keyProvider Plain.client.clientId = .ok Plain.client.key ∧
    Plain.client.roomId = longServer.roomId ∧
    Plain.client.encryptionType = longServer.encryptionType ∧
    Plain.client.encryptionAAD = longServer.encryptionAAD ∧
    Plain.client.buildClientHello Plain.primitives UInt8.ofNat (List.replicate 32 3) UInt8.ofNat 5000 =
      .ok Plain.attempt ∧
    (ServerState.start Plain.nonces).handleClientHello longServer (Plain.helloInput 6000)
      Plain.attempt.message = (.ok (some 0), s') ∧
    s'.pool[0]? = some conn ∧ longServer.sendServerHello conn = (.ok packet, conn') ∧
    ∀ random, Plain.client.handleServerHello Plain.primitives packet Plain.attempt random =
      fail "signaling packet exceeds 16777216 bytes" := by
  have evaluated : ((ServerState.start Plain.nonces).handleClientHello longServer
      (Plain.helloInput 6000) Plain.attempt.message).1 = .ok (some 0) ∧
      (((ServerState.start Plain.nonces).handleClientHello longServer
        (Plain.helloInput 6000) Plain.attempt.message).2.pool[0]?.any
          fun (conn : Connection) =>
          conn.handshakeCodec.encryptionKit.any fun kit =>
            decide (kit.typ.nonceSize = kit.nonce.prefixBytes.length + nonceCounterSize ∧
              kit.nonce.counter = 0)) = true := by
    decide +kernel
  obtain ⟨accepted, unused⟩ := evaluated
  have sound : Sound longServer (run longServer [] : Run Plain.nonces) := run_sound []
  have sessions : Sessions longServer (ServerState.start Plain.nonces) := sound.sessions
  have after := (handleClientHello_sound sessions (Plain.helloInput 6000) Plain.attempt.message).1
  cases outcome : (ServerState.start Plain.nonces).handleClientHello longServer
    (Plain.helloInput 6000) Plain.attempt.message with
  | mk answer s' =>
    rw [outcome] at accepted unused after
    obtain rfl : answer = .ok (some 0) := accepted
    obtain ⟨conn, found, unused⟩ := (Option.any_eq_true _ _).mp unused
    obtain ⟨kit, present, fresh⟩ := (Option.any_eq_true _ _).mp unused
    obtain ⟨size, fresh⟩ := of_decide_eq_true fresh
    obtain ⟨packet, conn', sent⟩ :=
      sendServerHello_fresh (after.fromHello 0 conn found) present size fresh
    have long : maxSignalingPacketSize + 1 ≤ packet.length := by
      have contained := transport_le_packet sent (List.mem_singleton.mpr rfl)
      rwa [longName, List.length_replicate] at contained
    refine ⟨s', conn, conn', packet, rfl, rfl, rfl, rfl, rfl, Plain.attempt_built, rfl, found, sent,
      fun random => ?_⟩
    have refused : Codec.decodeDataChunks Plain.primitives packet =
        fail "signaling packet exceeds 16777216 bytes" := by
      rw [Codec.decodeDataChunks, if_neg (by omega), if_pos (by omega)]
    rw [Client.handleServerHello, Client.openServerHello, Codec.decodeMessageHeader, refused]
    rfl

end HandshakeRun
end Telekit
