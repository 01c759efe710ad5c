import Telekit.PlainPrimitives

/-! Messages through a keyed codec: `UpdateSecret`, what the decoder accepts, and
when `DecodeMessage` gives back what `EncodeMessage` was given. `Marshal` drops
the error of the gob encoder, so `EncodeMessage` also returns a packet for a
message it could not serialise; the round trip holds for exactly the others. -/

namespace Telekit.Codec
variable (P : Primitives)

/-- The key in use is kept with its nonce source when it is set again. -/
def updateSecret (e : Codec) (encryptionType : EncryptionType) (secret : Bytes) (random : Random) :
    Except Failure Codec :=
  if e.typ = encryptionType ∧ e.secret = secret then .ok e
  else
    match createEncryptKit P encryptionType secret random with
    | .error err => .error err
    | .ok kit => .ok { e with encryptionKit := some kit, secret := secret, typ := encryptionType }

structure Holds (typ : EncryptionType) (secret aad : Bytes) (e : Codec) : Prop where
  heldTyp : e.typ = typ
  heldSecret : e.secret = secret
  kit : ∃ source, e.encryptionKit = some ⟨typ, P.hkdfSha512 secret typ.keySize, source⟩
  additionalData : e.additionalData = aad
  dataAAD : e.dataAAD = buildAdditionalData aad aadDomainData []
  headerAAD : e.headerAAD = buildAdditionalData aad aadDomainHeader []

variable {P} {typ typ' : EncryptionType} {secret secret' aad : Bytes} {e e' : Codec}

theorem new_holds {random : Random} (created : new P typ secret aad random = .ok e) :
    e.Holds P typ secret aad := by
  obtain ⟨_, _, rfl⟩ := new_ok created
  exact ⟨rfl, rfl, ⟨_, rfl⟩, rfl, rfl, rfl⟩

theorem Holds.updateSecret {random : Random} (holds : e.Holds P typ secret aad)
    (updated : e.updateSecret P typ' secret' random = .ok e') : e'.Holds P typ' secret' aad := by
  unfold Codec.updateSecret at updated
  split_ifs at updated with same
  · cases updated
    obtain rfl := holds.heldTyp.symm.trans same.1
    obtain rfl := holds.heldSecret.symm.trans same.2
    exact holds
  · split at updated
    · cases updated
    next kit created =>
      obtain ⟨_, kitTyp, key, _⟩ := createEncryptKit_ok P created
      cases updated
      refine ⟨rfl, rfl, ⟨kit.nonce, ?_⟩, holds.additionalData, holds.dataAAD, holds.headerAAD⟩
      rw [← key, ← kitTyp]

theorem Holds.sameKey {a b : Codec} (ha : a.Holds P typ secret aad)
    (hb : b.Holds P typ secret aad) : SameKey a b := by
  obtain ⟨sa, ka⟩ := ha.kit
  obtain ⟨sb, kb⟩ := hb.kit
  refine ⟨⟨_, _, ka, kb, rfl, rfl⟩, ?_, ?_, ?_⟩
  · rw [ha.additionalData, hb.additionalData]
  · rw [ha.dataAAD, hb.dataAAD]
  · rw [ha.headerAAD, hb.headerAAD]

theorem decodeDataChunks_ok {data headerChunk payloadChunk : Bytes} {flag : UInt8}
    (ok : decodeDataChunks P data = .ok (headerChunk, payloadChunk, flag)) :
    P.decodeChunks data = some [headerChunk, payloadChunk, [flag]] := by
  simp only [decodeDataChunks, guard_ok] at ok
  obtain ⟨_, _, ok⟩ := ok
  split at ok
  · cases ok
  next header payload encryptFlag chunks =>
    rw [guard_ok] at ok
    have split := ok.2
    split_ifs at split with partly globally
    · cases split
      rw [chunks, partly]
    · cases split
      rw [chunks, globally]
    · exact absurd split (fail_ne_ok _ _)
  · cases ok

theorem decodeMessage_ok {data : Bytes} {m : Message} (ok : e.decodeMessage P data = .ok m) :
    ∃ headerChunk payloadChunk flag headerBytes payloadBytes header payload,
      decodeDataChunks P data = .ok (headerChunk, payloadChunk, flag) ∧
      e.plainHeader P headerChunk flag = .ok headerBytes ∧
      P.decodeHeader headerBytes = some header ∧
      e.decodeWithDecryption P payloadChunk aadDomainPayload headerBytes
        maxSignalingPacketSize = .ok payloadBytes ∧
      P.decodePayload payloadBytes = some payload ∧
      m = ⟨some header, some payload, decide (flag = encryptGlobally)⟩ := by
  simp only [decodeMessage, bind_ok] at ok
  obtain ⟨⟨headerChunk, payloadChunk, flag⟩, split, headerBytes, plain, ok⟩ := ok
  split at ok
  · cases ok
  next header named =>
    rw [bind_ok] at ok
    obtain ⟨payloadBytes, opened, ok⟩ := ok
    split at ok
    · cases ok
    next payload carried =>
      cases ok
      exact ⟨_, _, _, _, _, _, _, split, plain, named, opened, carried, rfl⟩

section RoundTrip
variable {a a' b : Codec} {m : Message} {data : Bytes}

theorem plainHeader_encodeHeaderChunk (correct : P.AeadCorrect) (expansion : P.AeadExpansion)
    {plain headerChunk : Bytes} {encrypt : Bool}
    (header : a.encodeHeaderChunk P plain encrypt = (.ok headerChunk, a')) (same : SameKey a b)
    (small : headerChunk.length ≤ maxSignalingPacketSize) :
    b.plainHeader P headerChunk (encryptFlag encrypt) = .ok plain ∧ SameKey a' b := by
  cases encrypt with
  | true =>
    simp only [encodeHeaderChunk, if_true] at header
    have contained := (encodeWithEncryption_length expansion header).2.1
    refine ⟨?_, (encodeWithEncryption_sameKey header).symm.trans same⟩
    rw [plainHeader, if_pos (by decide)]
    exact decodeWithDecryption_encode correct expansion header same (by omega)
  | false =>
    simp only [encodeHeaderChunk, Bool.false_eq_true, if_false, Prod.mk.injEq,
      Except.ok.injEq] at header
    obtain ⟨rfl, rfl⟩ := header
    exact ⟨by rw [plainHeader, if_neg (by decide)], same⟩

/-- Whatever the decoder returns for an encoded packet, it decoded the bytes the
encoder serialised. -/
theorem decodeMessage_encoded (correct : P.AeadCorrect) (expansion : P.AeadExpansion)
    (gob : P.GobRoundTrip) (encoded : a.encodeMessage P m = (.ok data, a')) (same : SameKey a b)
    (small : data.length ≤ maxSignalingPacketSize) {m' : Message}
    (decoded : b.decodeMessage P data = .ok m') :
    P.decodeHeader (P.encodeHeader (m.header.getD {})) ≠ none ∧
      P.decodePayload (P.encodePayload (m.payload.getD {})) ≠ none := by
  obtain ⟨headerChunk, payloadChunk, a₁, header, payload, packed⟩ := encodeMessage_ok encoded
  obtain ⟨headerChunk', payloadChunk', flag, headerBytes, payloadBytes, _, _, split, plain, named,
    opened, carried, _⟩ := decodeMessage_ok decoded
  have chunks := decodeDataChunks_ok split
  rw [gob.chunks _ _ packed] at chunks
  cases chunks
  have headerSize := gob.chunk_length _ _ packed headerChunk (by simp)
  have payloadSize := gob.chunk_length _ _ packed payloadChunk (by simp)
  obtain ⟨plain', same'⟩ :=
    plainHeader_encodeHeaderChunk correct expansion header same (by omega)
  rw [plain'] at plain
  cases plain
  have contained := (encodeWithEncryption_length expansion payload).2.1
  have opened' : b.decodeWithDecryption P payloadChunk aadDomainPayload
      (P.encodeHeader (m.header.getD {})) maxSignalingPacketSize =
        .ok (P.encodePayload (m.payload.getD {})) :=
    decodeWithDecryption_encode correct expansion payload same' (by omega)
  rw [opened'] at opened
  cases opened
  exact ⟨by rw [named]; simp, by rw [carried]; simp⟩

/-- A message comes back, and its clear header is readable without a key, exactly
when gob took its header and its payload. -/
theorem message_round_trip_iff (correct : P.AeadCorrect) (expansion : P.AeadExpansion)
    (gob : P.GobRoundTrip) (sender : a.Holds P typ secret aad)
    (receiver : b.Holds P typ secret aad) (encoded : a.encodeMessage P m = (.ok data, a'))
    (small : data.length ≤ maxSignalingPacketSize) :
    (b.decodeMessage P data =
        .ok ⟨some (m.header.getD {}), some (m.payload.getD {}), m.encrypt⟩ ∧
      (m.encrypt = false → ∀ keyless : Codec, keyless.encryptionKit = none →
        keyless.decodeMessageHeader P data = .ok (m.header.getD {}))) ↔
      (P.gobHeader (m.header.getD {})).2 = true ∧ (P.gobPayload (m.payload.getD {})).2 = true := by
  have same := sender.sameKey receiver
  constructor
  · rintro ⟨decoded, _⟩
    obtain ⟨header, payload⟩ :=
      decodeMessage_encoded correct expansion gob encoded same small decoded
    constructor
    · by_contra failed
      exact header (gob.header_failed _ (by simpa using failed))
    · by_contra failed
      exact payload (gob.payload_failed _ (by simpa using failed))
  · rintro ⟨header, payload⟩
    refine ⟨decodeMessage_encodeMessage correct expansion gob encoded same header payload small, ?_⟩
    intro clear keyless _
    exact decodeMessageHeader_encodeMessage expansion gob encoded clear header small

end RoundTrip

namespace Sample

def codec : Codec where
  secret := str "secret"
  typ := .chacha20Poly1305
  encryptionKit := some ⟨.chacha20Poly1305, Plain.primitives.hkdfSha512 (str "secret") 32,
    ⟨Random.read UInt8.ofNat 4, 0⟩⟩
  additionalData := str "telekit/v1"
  dataAAD := buildAdditionalData (str "telekit/v1") aadDomainData []
  headerAAD := buildAdditionalData (str "telekit/v1") aadDomainHeader []

theorem codec_holds :
    codec.Holds Plain.primitives .chacha20Poly1305 (str "secret") (str "telekit/v1") :=
  ⟨rfl, rfl, ⟨_, rfl⟩, rfl, rfl, rfl⟩

def message : Message where
  header := some { typ := .iceOffer, metadata := [(str "key", .value (str "string") [7])] }
  payload := none
  encrypt := true

def unserialised : Message where
  header := none
  payload := some { data := .value (str "main.Reading") [1] }

end Sample

theorem message_round_trip_sample : ∃ data,
    (Sample.codec.encodeMessage Plain.primitives Sample.message).1 = .ok data ∧
    Sample.codec.decodeMessage Plain.primitives data =
      .ok ⟨Sample.message.header, some {}, true⟩ := by
  have evaluated : ((Sample.codec.encodeMessage Plain.primitives Sample.message).1.toOption.any
      fun data => data.length ≤ 1000) = true ∧
      (Plain.primitives.gobHeader (Sample.message.header.getD {})).2 = true ∧
      (Plain.primitives.gobPayload (Sample.message.payload.getD {})).2 = true := by
    decide +kernel
  obtain ⟨encoded, taken⟩ := evaluated
  cases result : Sample.codec.encodeMessage Plain.primitives Sample.message with
  | mk packet codec' =>
    rw [result] at encoded
    cases packet with
    | error err => simp [Except.toOption] at encoded
    | ok data =>
      have small : data.length ≤ maxSignalingPacketSize := by
        have short : data.length ≤ 1000 := by simpa [Except.toOption] using encoded
        exact short.trans (by decide)
      have trip := message_round_trip_iff Plain.aeadCorrect Plain.aeadExpansion Plain.gobRoundTrip
        Sample.codec_holds Sample.codec_holds result small
      exact ⟨data, rfl, (trip.mpr taken).1⟩

/-- The packet made for a message gob refused is itself refused. -/
theorem unserialised_message_lost : ∃ data,
    (Sample.codec.encodeMessage Plain.primitives Sample.unserialised).1 = .ok data ∧
    data.length ≤ maxSignalingPacketSize ∧
    Sample.codec.Holds Plain.primitives .chacha20Poly1305 (str "secret") (str "telekit/v1") ∧
    Sample.codec.decodeMessage Plain.primitives data = .error .gob := by
  have evaluated : ((Sample.codec.encodeMessage Plain.primitives Sample.unserialised).1.toOption.any
      fun data => decide (data.length ≤ maxSignalingPacketSize) &&
        decide (Sample.codec.decodeMessage Plain.primitives data = .error .gob)) = true := by
    decide +kernel
  cases result : (Sample.codec.encodeMessage Plain.primitives Sample.unserialised).1 with
  | error err => simp [result, Except.toOption] at evaluated
  | ok data =>
    simp only [result, Except.toOption, Option.any_some, Bool.and_eq_true, decide_eq_true_eq]
      at evaluated
    exact ⟨data, rfl, evaluated.1, Sample.codec_holds, evaluated.2⟩

end Telekit.Codec
