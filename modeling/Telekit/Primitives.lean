import Telekit.Library.BigEndian

/-! Values shared by every module, and the operations the repository imports
from elsewhere: HKDF, the AEAD ciphers, SHA-256, Ed25519, X25519 and gob.
A Go string is a byte string, so identifiers and labels are lists of bytes.
The imported operations are parameters. What the code relies on is stated as
separate properties, and a theorem names those it uses. -/

namespace Telekit

export BigEndian (Bytes)

abbrev GoString := Bytes

/-- One name for what decides membership in a list of byte strings. -/
instance bytesLawfulBEq : LawfulBEq Bytes := inferInstance

def str (text : String) : GoString := text.toList.map fun c => UInt8.ofNat c.toNat

/-- The verb `%q` on text; characters that are not printable are kept. -/
def quote (text : GoString) : GoString :=
  str "\"" ++ text.flatMap (fun b => if b = 34 ∨ b = 92 then [92, b] else [b]) ++ str "\""

/-- What `crypto/rand` delivers to one read; it never fails. -/
abbrev Random := Nat → UInt8

def Random.read (random : Random) (size : Nat) : Bytes := (List.range size).map random

@[simp] theorem Random.read_length (random : Random) (size : Nat) :
    (random.read size).length = size := by simp [Random.read]

/-- An error value: a fixed or formatted text, a wrapped cause, one of the
values compared by identity, or what an imported package reports. -/
inductive Failure
  | text (message : GoString)
  | wrapped (message : GoString) (cause : Failure)
  | dataFrameReplay
  | unexpectedDataFrameType
  | replayedClientHello
  | closedPipe
  | receiveBufferFull
  | endOfFile
  | deadlineExceeded
  | shortWrite
  | transport
  | aead
  | gob
  | parseTime
  | keyProvider
  deriving DecidableEq

def fail {α : Type} (message : String) : Except Failure α := .error (.text (str message))

theorem bind_ok {α β : Type} {x : Except Failure α} {f : α → Except Failure β} {r : β} :
    (x >>= f) = .ok r ↔ ∃ a, x = .ok a ∧ f a = .ok r := by
  cases x with
  | error | ok => simp [bind, Except.bind]

@[simp] theorem fail_ne_ok {α : Type} (message : String) (a : α) : fail message ≠ .ok a := by
  simp [fail]

theorem guard_ok {α : Type} {p : Prop} [Decidable p] {message : String} {x : Except Failure α}
    {a : α} : (if p then fail message else x) = .ok a ↔ ¬ p ∧ x = .ok a := by
  by_cases h : p <;> simp [h]

theorem reject_ok {α : Type} {p : Prop} [Decidable p] {err : Failure} {x : Except Failure α}
    {a : α} : (if p then .error err else x) = .ok a ↔ ¬ p ∧ x = .ok a := by
  by_cases h : p <;> simp [h]

theorem pure_ok {α : Type} {a b : α} : (pure a : Except Failure α) = .ok b ↔ a = b := by
  simp [pure, Except.pure]

inductive EncryptionType
  | aes256Gcm
  | ascon128a
  | camellia256
  | chacha20Poly1305
  | xchacha20Poly1305
  | other (name : GoString)
  deriving DecidableEq

inductive MessageType
  | clientHello
  | serverHello
  | offer
  | answer
  | ice
  | transportSelect
  | iceOffer
  | iceAnswer
  | disconnect
  | other (name : GoString)
  deriving DecidableEq

inductive AnyValue
  | nil
  | value (typ : GoString) (content : Bytes)
  deriving DecidableEq

structure Header where
  typ : MessageType := .other []
  sourceId : GoString := []
  targetId : GoString := []
  sequence : UInt64 := 0
  handshakeNonce : Bytes := []
  metadata : List (GoString × AnyValue) := []
  deriving DecidableEq

structure SessionDescription where
  typ : Int64
  sdp : GoString
  deriving DecidableEq

/-- Gob does not tell a pointer to a zero value from none. -/
structure ICECandidateInit where
  candidate : GoString
  sdpMid : GoString
  sdpMLineIndex : UInt16
  usernameFragment : GoString
  deriving DecidableEq

structure Payload where
  sdp : Option SessionDescription := none
  ice : Option ICECandidateInit := none
  sessionSalt : Bytes := []
  clientNonce : Bytes := []
  serverNonce : Bytes := []
  clientEphemeralKey : Bytes := []
  serverEphemeralKey : Bytes := []
  signature : Bytes := []
  handshakeRoomID : GoString := []
  handshakeClientID : GoString := []
  timestamp : Bytes := []
  transports : List GoString := []
  transport : GoString := []
  iceUsername : GoString := []
  icePassword : GoString := []
  iceCandidates : List GoString := []
  data : AnyValue := .nil
  deriving DecidableEq

structure Message where
  header : Option Header
  payload : Option Payload
  encrypt : Bool := false
  deriving DecidableEq

/-- `gobHeader` and `gobPayload` give what the gob encoder leaves in its buffer,
and whether it reported no error. -/
structure Primitives where
  hkdfSha256 : (secret salt info : Bytes) → (length : Nat) → Bytes
  hkdfSha512 : (secret : Bytes) → (length : Nat) → Bytes
  aeadSeal : EncryptionType → (key nonce plaintext aad : Bytes) → Bytes
  aeadOpen : EncryptionType → (key nonce ciphertext aad : Bytes) → Option Bytes
  sha256 : Bytes → Bytes
  ed25519NewKeyFromSeed : (seed : Bytes) → Bytes
  ed25519Sign : (privateKey message : Bytes) → Bytes
  ed25519Verify : (publicKey message signature : Bytes) → Bool
  x25519PublicKey : (privateKey : Bytes) → Bytes
  x25519ECDH : (privateKey publicKey : Bytes) → Option Bytes
  gobHeader : Header → Bytes × Bool
  decodeHeader : Bytes → Option Header
  gobPayload : Payload → Bytes × Bool
  decodePayload : Bytes → Option Payload
  encodeChunks : List Bytes → Option Bytes
  decodeChunks : Bytes → Option (List Bytes)
  parseTime : Bytes → Option Int
  formatTime : Int → Bytes

namespace Primitives
variable (P : Primitives)

/-- `Header.Marshal`, which drops the error of the encoder. -/
def encodeHeader (h : Header) : Bytes := (P.gobHeader h).1

def encodePayload (p : Payload) : Bytes := (P.gobPayload p).1

structure AeadCorrect : Prop where
  inverts : ∀ typ key nonce plaintext aad,
    P.aeadOpen typ key nonce (P.aeadSeal typ key nonce plaintext aad) aad = some plaintext

/-- Nonce and tag together add at most 40 bytes; no nonce is longer than 24. -/
structure AeadExpansion : Prop where
  plaintext_le : ∀ typ key nonce plaintext aad,
    plaintext.length ≤ (P.aeadSeal typ key nonce plaintext aad).length
  bound : ∀ typ key nonce plaintext aad, nonce.length ≤ 24 →
    nonce.length + (P.aeadSeal typ key nonce plaintext aad).length ≤ plaintext.length + 40

structure Sha256Length : Prop where
  digest : ∀ bytes, (P.sha256 bytes).length = 32

structure X25519Correct : Prop where
  commutes : ∀ a b, P.x25519ECDH a (P.x25519PublicKey b) = P.x25519ECDH b (P.x25519PublicKey a)
  publicKey_length : ∀ a, (P.x25519PublicKey a).length = 32
  shared_length : ∀ a b secret, P.x25519ECDH a b = some secret → secret.length = 32

structure Ed25519Correct : Prop where
  verifies : ∀ seed message,
    P.ed25519Verify ((P.ed25519NewKeyFromSeed seed).drop 32) message
      (P.ed25519Sign (P.ed25519NewKeyFromSeed seed) message) = true
  signature_length : ∀ key message, (P.ed25519Sign key message).length = 64

/-- What the encoder took comes back. It takes every header without metadata and
every payload without data, and what it leaves when it fails does not decode. -/
structure GobRoundTrip : Prop where
  header : ∀ h, (P.gobHeader h).2 = true → P.decodeHeader (P.encodeHeader h) = some h
  payload : ∀ p, (P.gobPayload p).2 = true → P.decodePayload (P.encodePayload p) = some p
  header_plain : ∀ h, h.metadata = [] → (P.gobHeader h).2 = true
  payload_plain : ∀ p, p.data = .nil → (P.gobPayload p).2 = true
  header_failed : ∀ h, (P.gobHeader h).2 = false → P.decodeHeader (P.encodeHeader h) = none
  payload_failed : ∀ p, (P.gobPayload p).2 = false → P.decodePayload (P.encodePayload p) = none
  chunks : ∀ cs data, P.encodeChunks cs = some data → P.decodeChunks data = some cs
  chunk_length : ∀ cs data, P.encodeChunks cs = some data → ∀ c ∈ cs, c.length ≤ data.length
  header_empty : P.decodeHeader [] = none
  payload_empty : P.decodePayload [] = none
  chunks_empty : P.decodeChunks [] = none

variable {P}

theorem GobRoundTrip.encodeHeader_ne_nil (gob : P.GobRoundTrip) {h : Header}
    (taken : (P.gobHeader h).2 = true) : P.encodeHeader h ≠ [] := by
  intro empty
  have decoded := gob.header h taken
  rw [empty, gob.header_empty] at decoded
  exact absurd decoded (by simp)

theorem GobRoundTrip.encodePayload_ne_nil (gob : P.GobRoundTrip) {p : Payload}
    (taken : (P.gobPayload p).2 = true) : P.encodePayload p ≠ [] := by
  intro empty
  have decoded := gob.payload p taken
  rw [empty, gob.payload_empty] at decoded
  exact absurd decoded (by simp)

end Primitives
end Telekit
