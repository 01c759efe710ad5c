import Telekit.Codec

/-! Key derivation and the signed transcript: `peer/handshake.go`, `peer/psk.go`,
and the two channels that split a session key by direction,
`peer/signaling_channel.go` (the data channel has its own module). -/

namespace Telekit

def handshakeNonceSize : Nat := 32
def handshakeKeySize : Nat := 32
def minPreSharedKeySize : Nat := 32
def maxClientIDLength : Nat := 128
def ed25519PublicKeySize : Nat := 32
def ed25519PrivateKeySize : Nat := 64
def ed25519SignatureSize : Nat := 64
def ed25519SeedSize : Nat := 32

def isIdentifierByte (b : UInt8) : Bool :=
  (65 ≤ b && b ≤ 90) || (97 ≤ b && b ≤ 122) || (48 ≤ b && b ≤ 57) || b = 95 || b = 45

def validateClientID (clientID : GoString) : Except Failure Unit :=
  if clientID.length = 0 ∨ clientID.length > maxClientIDLength then
    fail "client ID must be between 1 and 128 bytes"
  else if clientID.all isIdentifierByte = false then
    fail "client ID must use letters, digits, underscore, or hyphen"
  else .ok ()

variable {clientID : GoString}

theorem validateClientID_ok (ok : validateClientID clientID = .ok ()) :
    clientID ≠ [] ∧ clientID.length ≤ 128 := by
  unfold validateClientID at ok
  obtain ⟨bounds, _⟩ := guard_ok.mp ok
  simp only [maxClientIDLength, not_or, Nat.not_lt] at bounds
  exact ⟨fun empty => bounds.1 (by simp [empty]), bounds.2⟩

def validateClientCredentials (clientID : GoString) (key : Bytes) : Except Failure Unit := do
  validateClientID clientID
  if key.length < minPreSharedKeySize then fail "pre-shared key must be at least 32 bytes"

theorem validateClientCredentials_ok {key : Bytes}
    (ok : validateClientCredentials clientID key = .ok ()) :
    validateClientID clientID = .ok () ∧ minPreSharedKeySize ≤ key.length := by
  simp only [validateClientCredentials, bind_ok, guard_ok, pure_ok] at ok
  obtain ⟨_, valid, long, _⟩ := ok
  exact ⟨valid, by omega⟩

def encodeHandshakeFields (fields : List Bytes) : Bytes := BigEndian.fields fields

def validateHandshakeKeyContext (masterKey : Bytes) (roomID clientID serverID : GoString)
    (clientNonce : Bytes) : Except Failure Unit := do
  validateClientCredentials clientID masterKey
  if roomID = [] ∨ serverID = [] then fail "room ID and server ID must not be empty"
  else if clientNonce.length ≠ handshakeNonceSize then fail "client nonce must be 32 bytes"

def validateServerHelloTranscript (roomID clientID serverID : GoString)
    (clientNonce serverNonce clientEphemeralKey serverEphemeralKey sessionSalt : Bytes) :
    Except Failure Unit :=
  if roomID = [] ∨ clientID = [] ∨ serverID = [] then
    fail "handshake identities must not be empty"
  else if clientNonce.length ≠ handshakeNonceSize ∨ serverNonce.length ≠ handshakeNonceSize then
    fail "handshake nonces must be 32 bytes"
  else if clientEphemeralKey.length ≠ handshakeKeySize ∨
      serverEphemeralKey.length ≠ handshakeKeySize then
    fail "X25519 public keys must be 32 bytes"
  else if sessionSalt.length ≠ handshakeNonceSize then fail "session salt must be 32 bytes"
  else .ok ()

def serverHelloTranscript (roomID clientID serverID : GoString)
    (clientNonce serverNonce clientEphemeralKey serverEphemeralKey sessionSalt : Bytes) : Bytes :=
  encodeHandshakeFields [str "telekit/server-hello/v3", roomID, clientID, serverID, clientNonce,
    serverNonce, clientEphemeralKey, serverEphemeralKey, sessionSalt]

/-- `ecdh.X25519().NewPublicKey` accepts exactly the strings of 32 bytes. -/
def newPublicKey (key : Bytes) : Option Bytes :=
  if key.length = 32 then some key else none

def hexDigit (n : Nat) : UInt8 := UInt8.ofNat (if n < 10 then 48 + n else 87 + n)

def hexEncodeToString (bytes : Bytes) : GoString :=
  bytes.flatMap fun b => [hexDigit (b.toNat / 16), hexDigit (b.toNat % 16)]

variable (P : Primitives)

def serverIDFromPublicKey (publicKey : Bytes) : Except Failure GoString :=
  if publicKey.length ≠ ed25519PublicKeySize then fail "invalid Ed25519 public key"
  else .ok (hexEncodeToString (P.sha256 publicKey))

def deriveHandshakeKey (masterKey salt info : Bytes) : Bytes :=
  P.hkdfSha256 masterKey salt info handshakeKeySize

def deriveClientHelloKey (masterKey : Bytes) (roomID clientID serverID : GoString)
    (clientNonce : Bytes) : Except Failure Bytes := do
  validateHandshakeKeyContext masterKey roomID clientID serverID clientNonce
  let info := encodeHandshakeFields [str "telekit/client-hello-key/v1", roomID, clientID, serverID,
    clientNonce, str "client-to-server"]
  return deriveHandshakeKey P masterKey clientNonce info

def deriveServerHelloKey (masterKey : Bytes) (roomID clientID serverID : GoString)
    (clientNonce serverNonce : Bytes) : Except Failure Bytes := do
  validateHandshakeKeyContext masterKey roomID clientID serverID clientNonce
  if serverNonce.length ≠ handshakeNonceSize then fail "server nonce must be 32 bytes"
  else
    let info := encodeHandshakeFields [str "telekit/server-hello-key/v1", roomID, clientID,
      serverID, clientNonce, serverNonce, str "server-to-client"]
    return deriveHandshakeKey P masterKey serverNonce info

def deriveSessionKey (masterKey sharedSecret salt : Bytes) (roomID clientID serverID : GoString)
    (clientNonce serverNonce clientEphemeralKey serverEphemeralKey : Bytes) :
    Except Failure Bytes := do
  validateClientCredentials clientID masterKey
  if roomID = [] ∨ serverID = [] then fail "room ID and server ID must not be empty"
  else if salt.length ≠ handshakeNonceSize then fail "session salt must be 32 bytes"
  else if clientNonce.length ≠ handshakeNonceSize ∨ serverNonce.length ≠ handshakeNonceSize then
    fail "handshake nonces must be 32 bytes"
  else if sharedSecret.length ≠ handshakeKeySize then fail "X25519 shared secret must be 32 bytes"
  else if clientEphemeralKey.length ≠ handshakeKeySize ∨
      serverEphemeralKey.length ≠ handshakeKeySize then
    fail "X25519 public keys must be 32 bytes"
  else
    let keyMaterial := encodeHandshakeFields [masterKey, sharedSecret]
    let info := encodeHandshakeFields [str "telekit/session/v3", roomID, clientID, serverID,
      clientNonce, serverNonce, clientEphemeralKey, serverEphemeralKey]
    return P.hkdfSha256 keyMaterial salt info 32

def signServerHello (privateKey : Bytes) (roomID clientID serverID : GoString)
    (clientNonce serverNonce clientEphemeralKey serverEphemeralKey sessionSalt : Bytes) :
    Except Failure Bytes :=
  if privateKey.length ≠ ed25519PrivateKeySize then fail "invalid Ed25519 private key"
  else if P.ed25519NewKeyFromSeed (privateKey.take ed25519SeedSize) ≠ privateKey then
    fail "invalid Ed25519 private key"
  else do
    validateServerHelloTranscript roomID clientID serverID clientNonce serverNonce
      clientEphemeralKey serverEphemeralKey sessionSalt
    return P.ed25519Sign privateKey (serverHelloTranscript roomID clientID serverID clientNonce
      serverNonce clientEphemeralKey serverEphemeralKey sessionSalt)

def verifyServerHello (publicKey : Bytes) (roomID clientID serverID : GoString)
    (clientNonce serverNonce clientEphemeralKey serverEphemeralKey sessionSalt signature : Bytes) :
    Bool :=
  if publicKey.length ≠ ed25519PublicKeySize ∨ signature.length ≠ ed25519SignatureSize then false
  else
    match validateServerHelloTranscript roomID clientID serverID clientNonce serverNonce
        clientEphemeralKey serverEphemeralKey sessionSalt with
    | .error _ => false
    | .ok () => P.ed25519Verify publicKey (serverHelloTranscript roomID clientID serverID
        clientNonce serverNonce clientEphemeralKey serverEphemeralKey sessionSalt) signature

inductive DataRole
  | client
  | server
  deriving DecidableEq

inductive Direction
  | clientToServer
  | serverToClient
  deriving DecidableEq

def Direction.toByte : Direction → UInt8
  | .clientToServer => 1
  | .serverToClient => 2

def DataRole.sendDirection : DataRole → Direction
  | .client => .clientToServer
  | .server => .serverToClient

def DataRole.receiveDirection : DataRole → Direction
  | .client => .serverToClient
  | .server => .clientToServer

def DataRole.peer : DataRole → DataRole
  | .client => .server
  | .server => .client

theorem DataRole.peer_sendDirection (role : DataRole) :
    role.peer.sendDirection = role.receiveDirection := by
  cases role <;> rfl

def deriveDirectionKey (label : String) (sessionKey : Bytes) (direction : Direction) :
    Except Failure Bytes :=
  if sessionKey.length = 0 then fail "session key is empty"
  else .ok (P.hkdfSha256 sessionKey [] (encodeHandshakeFields [str label, [direction.toByte]]) 32)

def deriveSignalingKey := deriveDirectionKey P "telekit/signaling/v1"

structure SignalingChannel where
  sendCodec : Codec
  receiveCodec : Codec
  sessionKey : Bytes
  deriving DecidableEq

section Derivation
variable {P}

/-- What the checks of `DeriveSessionKey` establish of the fields both sides sign. -/
structure ValidSession (roomID clientID serverID : GoString)
    (clientNonce serverNonce clientEphemeralKey serverEphemeralKey salt : Bytes) : Prop where
  roomID : roomID ≠ []
  clientID : clientID ≠ [] ∧ clientID.length ≤ 128
  serverID : serverID ≠ []
  clientNonce : clientNonce.length = 32
  serverNonce : serverNonce.length = 32
  clientEphemeralKey : clientEphemeralKey.length = 32
  serverEphemeralKey : serverEphemeralKey.length = 32
  salt : salt.length = 32

variable {clientEphemeralKey serverEphemeralKey : Bytes}

theorem deriveSessionKey_ok {masterKey sharedSecret salt : Bytes}
    {roomID serverID : GoString}
    {clientNonce serverNonce key : Bytes}
    (ok : deriveSessionKey P masterKey sharedSecret salt roomID clientID serverID clientNonce
      serverNonce clientEphemeralKey serverEphemeralKey = .ok key) :
    ValidSession roomID clientID serverID clientNonce serverNonce clientEphemeralKey
      serverEphemeralKey salt := by
  simp only [deriveSessionKey, bind_ok, guard_ok, pure_ok] at ok
  simp only [not_or, not_not, ne_eq, handshakeNonceSize, handshakeKeySize] at ok
  obtain ⟨_, credentials, ⟨room, server⟩, size, nonces, _, keys, _⟩ := ok
  exact ⟨room, validateClientID_ok (validateClientCredentials_ok credentials).1, server, nonces.1,
    nonces.2, keys.1, keys.2, size⟩

theorem validateServerHelloTranscript_ok {roomID serverID : GoString}
    {clientNonce serverNonce sessionSalt : Bytes} :
    validateServerHelloTranscript roomID clientID serverID clientNonce serverNonce
      clientEphemeralKey serverEphemeralKey sessionSalt = .ok () ↔
    (roomID ≠ [] ∧ clientID ≠ [] ∧ serverID ≠ []) ∧
      (clientNonce.length = 32 ∧ serverNonce.length = 32) ∧
      (clientEphemeralKey.length = 32 ∧ serverEphemeralKey.length = 32) ∧
      sessionSalt.length = 32 := by
  simp only [validateServerHelloTranscript, guard_ok]
  simp only [not_or, not_not, ne_eq, handshakeNonceSize, handshakeKeySize, and_true]

theorem verifyServerHello_true {publicKey : Bytes} {roomID serverID : GoString}
    {clientNonce serverNonce sessionSalt signature : Bytes}
    (ok : verifyServerHello P publicKey roomID clientID serverID clientNonce serverNonce
      clientEphemeralKey serverEphemeralKey sessionSalt signature = true) :
    validateServerHelloTranscript roomID clientID serverID clientNonce serverNonce
      clientEphemeralKey serverEphemeralKey sessionSalt = .ok () ∧
    P.ed25519Verify publicKey (serverHelloTranscript roomID clientID serverID clientNonce
      serverNonce clientEphemeralKey serverEphemeralKey sessionSalt) signature = true := by
  unfold verifyServerHello at ok
  split_ifs at ok
  split at ok
  · simp at ok
  next valid => exact ⟨valid, ok⟩

theorem signServerHello_verifies (correct : P.Ed25519Correct) {privateKey : Bytes}
    (size : privateKey.length = ed25519PrivateKeySize)
    (canonical : P.ed25519NewKeyFromSeed (privateKey.take ed25519SeedSize) = privateKey)
    {roomID serverID : GoString}
    {clientNonce serverNonce sessionSalt signature : Bytes}
    (ok : signServerHello P privateKey roomID clientID serverID clientNonce serverNonce
      clientEphemeralKey serverEphemeralKey sessionSalt = .ok signature) :
    verifyServerHello P (privateKey.drop ed25519SeedSize) roomID clientID serverID clientNonce
      serverNonce clientEphemeralKey serverEphemeralKey sessionSalt signature = true := by
  simp only [signServerHello, guard_ok, bind_ok, pure_ok] at ok
  obtain ⟨_, _, _, valid, rfl⟩ := ok
  have signed := correct.verifies (privateKey.take ed25519SeedSize)
    (serverHelloTranscript roomID clientID serverID clientNonce serverNonce clientEphemeralKey
      serverEphemeralKey sessionSalt)
  rw [canonical] at signed
  unfold verifyServerHello
  rw [if_neg, valid]
  · exact signed
  · simp [correct.signature_length, size, ed25519PrivateKeySize, ed25519PublicKeySize,
      ed25519SeedSize, ed25519SignatureSize]

theorem hexEncodeToString_length (bytes : Bytes) :
    (hexEncodeToString bytes).length = 2 * bytes.length := by
  induction bytes with
  | nil => rfl
  | cons b bytes ih =>
    simp only [hexEncodeToString, List.flatMap_cons, List.length_append, List.length_cons,
      List.length_nil] at ih ⊢
    omega

theorem serverHelloTranscript_inj {r r' c c' s s' n n' m m' e e' f f' t t' : Bytes}
    (equal : serverHelloTranscript r c s n m e f t = serverHelloTranscript r' c' s' n' m' e' f' t')
    (left : ∀ x ∈ [r, c, s, n, m, e, f, t], x.length < 2 ^ 32)
    (right : ∀ x ∈ [r', c', s', n', m', e', f', t'], x.length < 2 ^ 32) :
    r = r' ∧ c = c' ∧ s = s' ∧ n = n' ∧ m = m' ∧ e = e' ∧ f = f' ∧ t = t' := by
  have label : (str "telekit/server-hello/v3").length < 2 ^ 32 := by decide
  have lists := BigEndian.fields_inj (List.forall_mem_cons.mpr ⟨label, left⟩)
    (List.forall_mem_cons.mpr ⟨label, right⟩) equal
  simpa using lists

end Derivation

theorem deriveDirectionKey_ok {label : String} {sessionKey key : Bytes} {direction : Direction}
    (ok : deriveDirectionKey P label sessionKey direction = .ok key) : sessionKey ≠ [] := by
  intro empty
  simp [deriveDirectionKey, empty] at ok

theorem deriveDirectionKey_of_ne {label : String} {sessionKey : Bytes} (direction : Direction)
    (nonempty : sessionKey ≠ []) :
    ∃ key, deriveDirectionKey P label sessionKey direction = .ok key := by
  unfold deriveDirectionKey
  rw [if_neg (by simpa using nonempty)]
  exact ⟨_, rfl⟩

namespace SignalingChannel

def new (encryptionType : EncryptionType) (sessionKey additionalData : Bytes) (role : DataRole)
    (sendRandom receiveRandom : Random) : Except Failure SignalingChannel := do
  let sendKey ← deriveSignalingKey P sessionKey role.sendDirection
  let receiveKey ← deriveSignalingKey P sessionKey role.receiveDirection
  let sendCodec ← Codec.new P encryptionType sendKey additionalData sendRandom
  let receiveCodec ← Codec.new P encryptionType receiveKey additionalData receiveRandom
  return ⟨sendCodec, receiveCodec, sessionKey⟩

theorem new_ok {typ : EncryptionType} {sessionKey aad : Bytes} {role : DataRole} {r₁ r₂ : Random}
    {c : SignalingChannel} (ok : new P typ sessionKey aad role r₁ r₂ = .ok c) :
    c.sessionKey = sessionKey ∧ sessionKey ≠ [] ∧ typ.known = true ∧ aad.length ≤ 64 := by
  simp only [new, bind_ok, pure_ok] at ok
  obtain ⟨_, derived, _, _, _, created, _, _, rfl⟩ := ok
  obtain ⟨short, known, _⟩ := Codec.new_ok created
  exact ⟨rfl, deriveDirectionKey_ok P derived, known, short⟩

theorem new_of_known {typ : EncryptionType} (known : typ.known = true) {sessionKey aad : Bytes}
    (nonempty : sessionKey ≠ []) (short : aad.length ≤ 64) (role : DataRole) (r₁ r₂ : Random) :
    ∃ c, new P typ sessionKey aad role r₁ r₂ = .ok c := by
  obtain ⟨sendKey, hs⟩ := deriveDirectionKey_of_ne P role.sendDirection nonempty
  obtain ⟨receiveKey, hr⟩ := deriveDirectionKey_of_ne P role.receiveDirection nonempty
  obtain ⟨send, hsc⟩ := Codec.new_of_known known sendKey short r₁
  obtain ⟨receive, hrc⟩ := Codec.new_of_known known receiveKey short r₂
  exact ⟨⟨send, receive, sessionKey⟩, by
    simp only [new, bind_ok, pure_ok]
    exact ⟨_, hs, _, hr, _, hsc, _, hrc, rfl⟩⟩

def encodeMessage (c : SignalingChannel) (m : Message) : Except Failure Bytes × SignalingChannel :=
  let (result, codec) := c.sendCodec.encodeMessage P m
  (result, { c with sendCodec := codec })

def decodeMessage (c : SignalingChannel) (data : Bytes) : Except Failure Message :=
  c.receiveCodec.decodeMessage P data

end SignalingChannel
end Telekit
