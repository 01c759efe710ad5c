import Telekit.Handshake

/-! One concrete choice of the imported operations for which every assumed
property holds at once. The ciphers append a checksum, the key agreement is
multiplication modulo `256 ^ 32`, and gob is a self-delimiting byte code.
Nothing here is secure; it only makes the model run. -/

namespace Telekit.Plain

def checksum (bytes : Bytes) : Nat :=
  bytes.foldl (fun sum b => (sum * 257 + b.toNat + 1) % 1000003) 7

def expand (seed size : Nat) : Bytes := (List.range size).map fun i => UInt8.ofNat (seed + 31 * i)

@[simp] theorem expand_length (seed size : Nat) : (expand seed size).length = size := by
  simp [expand]

def tag (key nonce plaintext aad : Bytes) : Bytes :=
  expand (checksum (BigEndian.fields [key, nonce, plaintext, aad])) 16

def openBox (key nonce ciphertext aad : Bytes) : Option Bytes :=
  let plaintext := ciphertext.take (ciphertext.length - 16)
  if ciphertext.drop (ciphertext.length - 16) = tag key nonce plaintext aad then some plaintext
  else none

def encodeText (text : Bytes) : Bytes := text.flatMap (fun b => [1, b]) ++ [0]

def decodeText : Bytes → Option (Bytes × Bytes)
  | 0 :: rest => some ([], rest)
  | 1 :: b :: rest =>
    match decodeText rest with
    | some (text, rest) => some (b :: text, rest)
    | none => none
  | _ => none

theorem decodeText_encodeText (text rest : Bytes) :
    decodeText (encodeText text ++ rest) = some (text, rest) := by
  induction text with
  | nil => rfl
  | cons b text ih =>
    simp only [encodeText, List.flatMap_cons, List.append_assoc, List.cons_append,
      List.nil_append] at ih ⊢
    simp [decodeText, ih]

theorem encodeText_length (text : Bytes) : (encodeText text).length = 2 * text.length + 1 := by
  induction text with
  | nil => rfl
  | cons b text ih => simp [encodeText] at ih ⊢; omega

def encodeList (entries : List Bytes) : Bytes := entries.flatMap (fun x => 1 :: encodeText x) ++ [0]

def decodeEntries : (fuel : Nat) → Bytes → Option (List Bytes)
  | _, [0] => some []
  | fuel + 1, 1 :: rest =>
    match decodeText rest with
    | some (entry, rest) => (decodeEntries fuel rest).map (entry :: ·)
    | none => none
  | _, _ => none

def decodeList (bytes : Bytes) : Option (List Bytes) := decodeEntries bytes.length bytes

theorem encodeList_cons (x : Bytes) (entries : List Bytes) :
    encodeList (x :: entries) = 1 :: (encodeText x ++ encodeList entries) := by
  simp [encodeList]

theorem decodeEntries_encodeList (entries : List Bytes) (fuel : Nat)
    (enough : entries.length ≤ fuel) : decodeEntries fuel (encodeList entries) = some entries := by
  induction entries generalizing fuel with
  | nil => cases fuel <;> rfl
  | cons x entries ih =>
    obtain ⟨fuel, rfl⟩ : ∃ n, fuel = n + 1 := ⟨fuel - 1, by simp at enough; omega⟩
    rw [encodeList_cons]
    simp only [decodeEntries, decodeText_encodeText,
      ih fuel (by simp at enough; omega), Option.map_some]

theorem encodeList_length (entries : List Bytes) : entries.length ≤ (encodeList entries).length := by
  induction entries with
  | nil => simp [encodeList]
  | cons x entries ih => rw [encodeList_cons]; simp; omega

theorem decodeList_encodeList (entries : List Bytes) :
    decodeList (encodeList entries) = some entries :=
  decodeEntries_encodeList entries _ (encodeList_length entries)

theorem entry_length {entries : List Bytes} {x : Bytes} (h : x ∈ entries) :
    x.length ≤ (encodeList entries).length := by
  induction entries with
  | nil => simp at h
  | cons y entries ih =>
    rw [encodeList_cons]
    rcases List.mem_cons.mp h with rfl | rest
    · simp [encodeText_length]; omega
    · have := ih rest
      simp
      omega

def encodeType : MessageType → Bytes
  | .clientHello => [1]
  | .serverHello => [2]
  | .offer => [3]
  | .answer => [4]
  | .ice => [5]
  | .transportSelect => [6]
  | .iceOffer => [7]
  | .iceAnswer => [8]
  | .disconnect => [9]
  | .other name => 0 :: name

def decodeType : Bytes → Option MessageType
  | [1] => some .clientHello
  | [2] => some .serverHello
  | [3] => some .offer
  | [4] => some .answer
  | [5] => some .ice
  | [6] => some .transportSelect
  | [7] => some .iceOffer
  | [8] => some .iceAnswer
  | [9] => some .disconnect
  | 0 :: name => some (.other name)
  | _ => none

theorem decodeType_encodeType (t : MessageType) : decodeType (encodeType t) = some t := by
  cases t <;> rfl

/-- The only registered type is the one of strings. -/
def registered : AnyValue → Bool
  | .nil => true
  | .value typ _ => typ = str "string"

def encodeAny : AnyValue → Bytes
  | .nil => encodeList []
  | .value typ content => encodeList [typ, content]

def decodeAny (data : Bytes) : Option AnyValue :=
  match decodeList data with
  | some [] => some .nil
  | some [typ, content] => some (.value typ content)
  | _ => none

theorem decodeAny_encodeAny (v : AnyValue) : decodeAny (encodeAny v) = some v := by
  cases v <;> simp only [encodeAny, decodeAny, decodeList_encodeList]

def encodeMetadata (metadata : List (GoString × AnyValue)) : Bytes :=
  encodeList (metadata.map fun entry => encodeList [entry.1, encodeAny entry.2])

def decodeEntry (data : Bytes) : Option (GoString × AnyValue) :=
  match decodeList data with
  | some [key, value] => (decodeAny value).map fun value => (key, value)
  | _ => none

def decodeMetadata (data : Bytes) : Option (List (GoString × AnyValue)) :=
  match decodeList data with
  | some entries => entries.mapM decodeEntry
  | none => none

theorem decodeMetadata_encodeMetadata (metadata : List (GoString × AnyValue)) :
    decodeMetadata (encodeMetadata metadata) = some metadata := by
  simp only [decodeMetadata, encodeMetadata, decodeList_encodeList]
  induction metadata with
  | nil => rfl
  | cons entry metadata ih =>
    rw [List.map_cons, List.mapM_cons, ih]
    simp [decodeEntry, decodeList_encodeList, decodeAny_encodeAny]

/-- What the encoder has written before it meets a value it cannot encode. -/
def typeDescription : Bytes := [2]

def encodeHeader (h : Header) : Bytes :=
  encodeList [encodeType h.typ, h.sourceId, h.targetId, BigEndian.encode 8 h.sequence.toNat,
    h.handshakeNonce, encodeMetadata h.metadata]

def gobHeader (h : Header) : Bytes × Bool :=
  if h.metadata.all fun entry => registered entry.2 then (encodeHeader h, true)
  else (typeDescription, false)

def decodeHeader (data : Bytes) : Option Header :=
  match decodeList data with
  | some [typ, sourceId, targetId, sequence, handshakeNonce, metadata] =>
    match decodeType typ, decodeMetadata metadata with
    | some typ, some metadata =>
      some ⟨typ, sourceId, targetId, UInt64.ofNat (BigEndian.decode sequence), handshakeNonce,
        metadata⟩
    | _, _ => none
  | _ => none

def encodeSdp : Option SessionDescription → Bytes
  | none => encodeList []
  | some d => encodeList [BigEndian.encode 8 d.typ.toUInt64.toNat, d.sdp]

def decodeSdp (data : Bytes) : Option (Option SessionDescription) :=
  match decodeList data with
  | some [] => some none
  | some [typ, sdp] => some (some ⟨(UInt64.ofNat (BigEndian.decode typ)).toInt64, sdp⟩)
  | _ => none

theorem decodeSdp_encodeSdp (d : Option SessionDescription) :
    decodeSdp (encodeSdp d) = some d := by
  cases d with
  | none => rfl
  | some d =>
    have typ : BigEndian.decode (BigEndian.encode 8 d.typ.toUInt64.toNat) = d.typ.toUInt64.toNat :=
      BigEndian.decode_encode_of_lt (by simpa using d.typ.toUInt64.toNat_lt)
    simp only [decodeSdp, encodeSdp, decodeList_encodeList, typ, UInt64.ofNat_toNat,
      Int64.toInt64_toUInt64]

def encodeIce : Option ICECandidateInit → Bytes
  | none => encodeList []
  | some c => encodeList [c.candidate, c.sdpMid, BigEndian.encode 2 c.sdpMLineIndex.toNat,
      c.usernameFragment]

def decodeIce (data : Bytes) : Option (Option ICECandidateInit) :=
  match decodeList data with
  | some [] => some none
  | some [candidate, sdpMid, sdpMLineIndex, usernameFragment] =>
    some (some ⟨candidate, sdpMid, UInt16.ofNat (BigEndian.decode sdpMLineIndex),
      usernameFragment⟩)
  | _ => none

theorem decodeIce_encodeIce (c : Option ICECandidateInit) :
    decodeIce (encodeIce c) = some c := by
  cases c with
  | none => rfl
  | some c =>
    have index : BigEndian.decode (BigEndian.encode 2 c.sdpMLineIndex.toNat) =
        c.sdpMLineIndex.toNat :=
      BigEndian.decode_encode_of_lt (by simpa using c.sdpMLineIndex.toNat_lt)
    simp only [decodeIce, encodeIce, decodeList_encodeList, index, UInt16.ofNat_toNat]

def encodePayload (p : Payload) : Bytes :=
  encodeList [encodeSdp p.sdp, encodeIce p.ice, p.sessionSalt, p.clientNonce, p.serverNonce,
    p.clientEphemeralKey, p.serverEphemeralKey, p.signature, p.handshakeRoomID,
    p.handshakeClientID, p.timestamp, encodeList p.transports, p.transport, p.iceUsername,
    p.icePassword, encodeList p.iceCandidates, encodeAny p.data]

def gobPayload (p : Payload) : Bytes × Bool :=
  if registered p.data then (encodePayload p, true) else (typeDescription, false)

def decodePayload (data : Bytes) : Option Payload :=
  match decodeList data with
  | some [sdp, ice, sessionSalt, clientNonce, serverNonce, clientEphemeralKey, serverEphemeralKey,
      signature, handshakeRoomID, handshakeClientID, timestamp, transports, transport, iceUsername,
      icePassword, iceCandidates, data] =>
    match decodeSdp sdp, decodeIce ice, decodeList transports, decodeList iceCandidates,
      decodeAny data with
    | some sdp, some ice, some transports, some iceCandidates, some data =>
      some ⟨sdp, ice, sessionSalt, clientNonce, serverNonce, clientEphemeralKey,
        serverEphemeralKey, signature, handshakeRoomID, handshakeClientID, timestamp, transports,
        transport, iceUsername, icePassword, iceCandidates, data⟩
    | _, _, _, _, _ => none
  | _ => none

def formatTime (t : Int) : Bytes :=
  match t with
  | .ofNat n => 43 :: BigEndian.encode 12 n
  | .negSucc n => 45 :: BigEndian.encode 12 n

def parseTime : Bytes → Option Int
  | 43 :: digits => some (.ofNat (BigEndian.decode digits))
  | 45 :: digits => some (.negSucc (BigEndian.decode digits))
  | _ => none

def newKeyFromSeed (seed : Bytes) : Bytes := seed ++ expand (checksum seed) 32

def sign (publicKey message : Bytes) : Bytes :=
  expand (checksum (BigEndian.fields [publicKey, message])) 64

def primitives : Primitives where
  hkdfSha256 secret salt info := expand (checksum (BigEndian.fields [secret, salt, info]))
  hkdfSha512 secret := expand (checksum secret)
  aeadSeal _ key nonce plaintext aad := plaintext ++ tag key nonce plaintext aad
  aeadOpen _ := openBox
  sha256 bytes := expand (checksum bytes) 32
  ed25519NewKeyFromSeed := newKeyFromSeed
  ed25519Sign privateKey message := sign (privateKey.drop 32) message
  ed25519Verify publicKey message signature := decide (signature = sign publicKey message)
  x25519PublicKey privateKey := BigEndian.encode 32 (9 * BigEndian.decode privateKey)
  x25519ECDH privateKey publicKey :=
    some (BigEndian.encode 32 (BigEndian.decode privateKey * BigEndian.decode publicKey))
  gobHeader := gobHeader
  decodeHeader := decodeHeader
  gobPayload := gobPayload
  decodePayload := decodePayload
  encodeChunks chunks := some (encodeList chunks)
  decodeChunks := decodeList
  parseTime := parseTime
  formatTime := formatTime

theorem aeadCorrect : primitives.AeadCorrect := by
  refine ⟨fun typ key nonce plaintext aad => ?_⟩
  have size : (plaintext ++ tag key nonce plaintext aad).length - 16 = plaintext.length := by
    simp [tag]
  simp only [primitives, openBox, size, List.take_left, List.drop_left, if_true]

theorem aeadExpansion : primitives.AeadExpansion := by
  refine ⟨fun typ key nonce plaintext aad => ?_, fun typ key nonce plaintext aad short => ?_⟩
  · simp [primitives, tag]
  · simp only [primitives, tag, List.length_append, expand_length]
    omega

theorem sha256Length : primitives.Sha256Length :=
  ⟨fun _ => expand_length _ 32⟩

theorem x25519Correct : primitives.X25519Correct := by
  refine ⟨fun a b => ?_, fun a => BigEndian.encode_length 32 _, fun a b secret shared => ?_⟩
  · simp only [primitives, BigEndian.decode_encode]
    rw [← BigEndian.encode_mod 32 (BigEndian.decode a * _),
      ← BigEndian.encode_mod 32 (BigEndian.decode b * _), Nat.mul_mod_mod, Nat.mul_mod_mod,
      Nat.mul_left_comm, Nat.mul_left_comm (BigEndian.decode b), Nat.mul_comm (BigEndian.decode a)]
  · cases shared
    exact BigEndian.encode_length 32 _

theorem ed25519Correct : primitives.Ed25519Correct := by
  refine ⟨fun seed message => ?_, fun key message => expand_length _ 64⟩
  simp [primitives]

theorem decodeHeader_encodeHeader (h : Header) : decodeHeader (encodeHeader h) = some h := by
  have sequence : BigEndian.decode (BigEndian.encode 8 h.sequence.toNat) = h.sequence.toNat :=
    BigEndian.decode_encode_of_lt (by simpa using h.sequence.toNat_lt)
  simp only [decodeHeader, encodeHeader, decodeList_encodeList, decodeType_encodeType,
    decodeMetadata_encodeMetadata, sequence, UInt64.ofNat_toNat]

theorem decodePayload_encodePayload (p : Payload) : decodePayload (encodePayload p) = some p := by
  simp only [decodePayload, encodePayload, decodeList_encodeList, decodeAny_encodeAny,
    decodeSdp_encodeSdp, decodeIce_encodeIce]

theorem gobHeader_plain {h : Header} (plain : h.metadata = []) :
    gobHeader h = (encodeHeader h, true) := by
  simp [gobHeader, plain]

theorem gobPayload_plain {p : Payload} (plain : p.data = .nil) :
    gobPayload p = (encodePayload p, true) := by
  simp [gobPayload, plain, registered]

theorem gobRoundTrip : primitives.GobRoundTrip where
  header h taken := by
    simp only [primitives, Primitives.encodeHeader, gobHeader] at taken ⊢
    split_ifs at taken ⊢
    exact decodeHeader_encodeHeader h
  payload p taken := by
    simp only [primitives, Primitives.encodePayload, gobPayload] at taken ⊢
    split_ifs at taken ⊢
    exact decodePayload_encodePayload p
  header_plain h plain := by simp [primitives, gobHeader_plain plain]
  payload_plain p plain := by simp [primitives, gobPayload_plain plain]
  header_failed h failed := by
    simp only [primitives, Primitives.encodeHeader, gobHeader] at failed ⊢
    split_ifs at failed ⊢
    rfl
  payload_failed p failed := by
    simp only [primitives, Primitives.encodePayload, gobPayload] at failed ⊢
    split_ifs at failed ⊢
    rfl
  chunks cs data packed := by
    cases packed
    exact decodeList_encodeList cs
  chunk_length cs data packed c member := by
    cases packed
    exact entry_length member
  header_empty := rfl
  payload_empty := rfl
  chunks_empty := rfl

end Telekit.Plain
