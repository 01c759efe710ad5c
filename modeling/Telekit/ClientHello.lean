import Telekit.ServerState

/-! The client's half of the handshake, `peer/client/hello.go`. -/

namespace Telekit

def validatePreSharedKey (clientID : GoString) (key serverPublicKey : Bytes) :
    Except Failure Unit := do
  validateClientCredentials clientID key
  if serverPublicKey.length ≠ ed25519PublicKeySize then
    fail "server public key must be 32 bytes"

structure Client where
  roomId : GoString
  clientId : GoString
  key : Bytes
  serverPublicKey : Bytes
  encryptionType : EncryptionType
  encryptionAAD : Bytes
  transport : GoString
  validRoom : validateRoomID roomId = .ok ()
  validKey : validatePreSharedKey clientId key serverPublicKey = .ok ()

structure ClientHandshake where
  nonce : Bytes
  privateKey : Bytes
  publicKey : Bytes
  message : Bytes
  deriving DecidableEq

structure ServerHandshake where
  serverID : GoString
  codec : SignalingChannel
  dataChannel : DataChannel
  transports : List GoString
  deriving DecidableEq

structure ClientRandom where
  helloCodec : Random
  signalingSend : Random
  signalingReceive : Random
  dataSend : Random
  dataReceive : Random

namespace Client
variable (P : Primitives) (c : Client)

def clientHelloMessage (nonce publicKey : Bytes) (now : Int) : Message where
  header := some { typ := .clientHello, sourceId := c.clientId, handshakeNonce := nonce }
  payload := some {
    clientNonce := nonce
    clientEphemeralKey := publicKey
    handshakeRoomID := c.roomId
    handshakeClientID := c.clientId
    timestamp := P.formatTime now }

def buildClientHello (nonceRandom : Random) (privateKey : Bytes) (codecRandom : Random)
    (now : Int) : Except Failure ClientHandshake := do
  let nonce := nonceRandom.read handshakeNonceSize
  let publicKey := P.x25519PublicKey privateKey
  let serverID ← serverIDFromPublicKey P c.serverPublicKey
  let handshakeKey ← deriveClientHelloKey P c.key c.roomId c.clientId serverID nonce
  let handshakeCodec ← Codec.new P c.encryptionType handshakeKey c.encryptionAAD codecRandom
  let dataBytes ← (handshakeCodec.encodeMessage P (c.clientHelloMessage P nonce publicKey now)).1
  return ⟨nonce, privateKey, publicKey, dataBytes⟩

/-- The authenticated content of a ServerHello: `handleServerHello` before the
signature is checked. -/
structure OpenedServerHello where
  serverID : GoString
  payload : Payload
  deriving DecidableEq

def openServerHello (data : Bytes) (attempt : ClientHandshake) (random : Random) :
    Except Failure OpenedServerHello := do
  let header ← ({} : Codec).decodeMessageHeader P data
  let expectedServerID ← serverIDFromPublicKey P c.serverPublicKey
  if header.sourceId ≠ expectedServerID ∨ header.targetId ≠ c.clientId ∨
      header.typ ≠ .serverHello then fail "unexpected server hello"
  else if header.handshakeNonce.length ≠ handshakeNonceSize then fail "invalid server hello nonce"
  else
    let handshakeKey ← deriveServerHelloKey P c.key c.roomId c.clientId expectedServerID
      attempt.nonce header.handshakeNonce
    let handshakeCodec ← Codec.new P c.encryptionType handshakeKey c.encryptionAAD random
    let msg ← handshakeCodec.decodeMessage P data
    let header := msg.header.getD {}
    let payload := msg.payload.getD {}
    if header.sourceId = [] ∨ header.targetId ≠ c.clientId ∨ header.typ ≠ .serverHello then
      fail "unexpected server hello"
    else if header.sourceId ≠ expectedServerID then
      fail "server identity does not match pinned public key"
    else if payload.sessionSalt.length ≠ handshakeNonceSize ∨
        payload.serverNonce.length ≠ handshakeNonceSize then fail "invalid server handshake values"
    else if header.handshakeNonce ≠ payload.serverNonce then
      fail "server hello nonce does not match authenticated payload"
    else if payload.clientNonce ≠ attempt.nonce then
      fail "server hello is not bound to the current client hello"
    else if payload.clientEphemeralKey ≠ attempt.publicKey then
      fail "server hello is not bound to the current client key"
    else return ⟨header.sourceId, payload⟩

/-- The message whose signature the client checks. -/
def presentedTranscript (o : OpenedServerHello) : Bytes :=
  serverHelloTranscript c.roomId c.clientId o.serverID o.payload.clientNonce o.payload.serverNonce
    o.payload.clientEphemeralKey o.payload.serverEphemeralKey o.payload.sessionSalt

/-- `handleServerHello` from the signature check on. -/
def acceptServerHello (o : OpenedServerHello) (attempt : ClientHandshake) (random : ClientRandom) :
    Except Failure ServerHandshake :=
  if verifyServerHello P c.serverPublicKey c.roomId c.clientId o.serverID o.payload.clientNonce
      o.payload.serverNonce o.payload.clientEphemeralKey o.payload.serverEphemeralKey
      o.payload.sessionSalt o.payload.signature = false then
    fail "invalid server identity signature"
  else
    match newPublicKey o.payload.serverEphemeralKey with
    | none => fail "invalid server X25519 public key"
    | some serverPublicKey =>
      match P.x25519ECDH attempt.privateKey serverPublicKey with
      | none => fail "invalid server X25519 public key"
      | some sharedSecret => do
        let sessionKey ← deriveSessionKey P c.key sharedSecret o.payload.sessionSalt c.roomId
          c.clientId o.serverID attempt.nonce o.payload.serverNonce attempt.publicKey
          o.payload.serverEphemeralKey
        let sessionCodec ← SignalingChannel.new P c.encryptionType sessionKey c.encryptionAAD .client
          random.signalingSend random.signalingReceive
        let dataChannel ← DataChannel.new P c.encryptionType sessionKey c.encryptionAAD .client
          random.dataSend random.dataReceive
        return ⟨o.serverID, sessionCodec, dataChannel, o.payload.transports⟩

def handleServerHello (data : Bytes) (attempt : ClientHandshake) (random : ClientRandom) :
    Except Failure ServerHandshake := do
  let o ← c.openServerHello P data attempt random.helloCodec
  c.acceptServerHello P o attempt random

variable {P c}

theorem buildClientHello_ok {nonceRandom codecRandom : Random} {privateKey : Bytes} {now : Int}
    {attempt : ClientHandshake}
    (ok : c.buildClientHello P nonceRandom privateKey codecRandom now = .ok attempt) :
    attempt.privateKey = privateKey ∧ attempt.publicKey = P.x25519PublicKey privateKey ∧
    ∃ serverID handshakeKey codec codec', serverIDFromPublicKey P c.serverPublicKey = .ok serverID ∧
      deriveClientHelloKey P c.key c.roomId c.clientId serverID attempt.nonce = .ok handshakeKey ∧
      Codec.new P c.encryptionType handshakeKey c.encryptionAAD codecRandom = .ok codec ∧
      codec.encodeMessage P (c.clientHelloMessage P attempt.nonce attempt.publicKey now) =
        (.ok attempt.message, codec') := by
  simp only [buildClientHello, bind_ok, pure_ok] at ok
  obtain ⟨serverID, named, handshakeKey, derived, codec, created, data, encoded, rfl⟩ := ok
  exact ⟨rfl, rfl, serverID, handshakeKey, codec, _, named, derived, created,
    Prod.ext encoded rfl⟩

theorem openServerHello_ok {data : Bytes} {attempt : ClientHandshake} {random : Random}
    {o : OpenedServerHello} (ok : c.openServerHello P data attempt random = .ok o) :
    serverIDFromPublicKey P c.serverPublicKey = .ok o.serverID ∧
      o.payload.clientNonce = attempt.nonce ∧ o.payload.clientEphemeralKey = attempt.publicKey := by
  simp only [openServerHello, bind_ok, guard_ok, pure_ok] at ok
  obtain ⟨_, _, expected, named, _, _, _, _, _, _, msg, _, _, source, _, _, nonce, key, rfl⟩ := ok
  simp only [ne_eq, not_not] at source nonce key
  exact ⟨by rw [named, source], nonce, key⟩

theorem acceptServerHello_ok {o : OpenedServerHello} {attempt : ClientHandshake}
    {random : ClientRandom} {hs : ServerHandshake}
    (ok : c.acceptServerHello P o attempt random = .ok hs) :
    verifyServerHello P c.serverPublicKey c.roomId c.clientId o.serverID o.payload.clientNonce
      o.payload.serverNonce o.payload.clientEphemeralKey o.payload.serverEphemeralKey
      o.payload.sessionSalt o.payload.signature = true ∧
    hs.serverID = o.serverID ∧ hs.transports = o.payload.transports ∧
    ∃ sharedSecret, P.x25519ECDH attempt.privateKey o.payload.serverEphemeralKey =
        some sharedSecret ∧
      deriveSessionKey P c.key sharedSecret o.payload.sessionSalt c.roomId c.clientId o.serverID
        attempt.nonce o.payload.serverNonce attempt.publicKey o.payload.serverEphemeralKey =
        .ok hs.codec.sessionKey := by
  unfold acceptServerHello at ok
  obtain ⟨verified, ok⟩ := guard_ok.mp ok
  split at ok
  · simp at ok
  next serverPublicKey valid =>
    simp only [newPublicKey, Option.ite_none_right_eq_some, Option.some.injEq] at valid
    obtain ⟨_, rfl⟩ := valid
    split at ok
    · simp at ok
    next sharedSecret agreed =>
      simp only [bind_ok, pure_ok] at ok
      obtain ⟨sessionKey, derived, codec, created, _, _, rfl⟩ := ok
      obtain ⟨same, _⟩ := SignalingChannel.new_ok P created
      exact ⟨by simpa using verified, rfl, rfl, sharedSecret, agreed, by rw [same]; exact derived⟩

end Client
end Telekit
