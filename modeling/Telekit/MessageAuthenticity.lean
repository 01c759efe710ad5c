import Telekit.CodecMachine

/-! Where a decoded message comes from. The packet given to `DecodeMessage` is
arbitrary. The cipher is ideal: a payload chunk opens under the cipher type, the
secret and the associated data of a codec only if an encryption of the run under
the same three made it. The associated data of a payload carries the domain byte
and the serialised header, so it tells payloads from headers and data, and one
header from another; the encryption flag has no part in the argument. -/

namespace Telekit

theorem Codec.buildAdditionalData_eq {aad aad' context context' : Bytes} {domain domain' : UInt8}
    (short : aad.length ≤ 64) (short' : aad'.length ≤ 64)
    (equal : buildAdditionalData aad domain context = buildAdditionalData aad' domain' context') :
    aad = aad' ∧ domain = domain' ∧ context = context' := by
  simp only [buildAdditionalData, List.append_assoc, List.cons_append, List.nil_append,
    List.cons.injEq, true_and] at equal
  obtain ⟨sameDomain, rest⟩ := equal
  have tail := (List.append_inj rest rfl).2
  simp only [List.cons.injEq] at tail
  have sameLength : aad.length = aad'.length := by
    have bytes := congrArg UInt8.toNat tail.1
    simp only [UInt8.toNat_ofNat'] at bytes
    omega
  obtain ⟨sameAad, last⟩ := List.append_inj tail.2 sameLength
  refine ⟨sameAad, sameDomain, (List.append_inj last ?_).2⟩
  rw [BigEndian.encode_length, BigEndian.encode_length]

namespace CodecMachine
variable (P : Primitives)

def Encryption.ciphertext (e : Encryption) : Bytes :=
  e.nonce ++ P.aeadSeal e.typ (P.hkdfSha512 e.secret e.typ.keySize) e.nonce e.plaintext e.aad

/-- An encryption of the log under the cipher type and secret of the codec made
the chunk from the plaintext under the associated data. -/
def Made (s : Shared) (o : CodecObject) (chunk aad plaintext : Bytes) : Prop :=
  ∃ e ∈ s.log, e.typ = o.codec.typ ∧ e.secret = o.codec.secret ∧ e.aad = aad ∧
    e.plaintext = plaintext ∧ e.ciphertext P = chunk

/-- The payload chunk of a packet opens for the codec only if it was made. -/
def Ideal (s : Shared) (o : CodecObject) (data : Bytes) : Prop :=
  ∀ chunks ∈ (Codec.decodeDataChunks P data).toOption,
    ∀ headerBytes ∈ ((s.view o).plainHeader P chunks.1 chunks.2.2).toOption,
      ∀ plaintext ∈ ((s.view o).decodeWithDecryption P chunks.2.1 aadDomainPayload headerBytes
          maxSignalingPacketSize).toOption,
        Made P s o chunks.2.1 (o.codec.additionalDataFor aadDomainPayload headerBytes) plaintext

instance (s : Shared) (o : CodecObject) (chunk aad plaintext : Bytes) :
    Decidable (Made P s o chunk aad plaintext) :=
  inferInstanceAs (Decidable (∃ e ∈ s.log, e.typ = o.codec.typ ∧ e.secret = o.codec.secret ∧
    e.aad = aad ∧ e.plaintext = plaintext ∧ e.ciphertext P = chunk))

instance (s : Shared) (o : CodecObject) (data : Bytes) : Decidable (Ideal P s o data) :=
  inferInstanceAs (Decidable (∀ chunks ∈ (Codec.decodeDataChunks P data).toOption,
    ∀ headerBytes ∈ ((s.view o).plainHeader P chunks.1 chunks.2.2).toOption,
      ∀ plaintext ∈ ((s.view o).decodeWithDecryption P chunks.2.1 aadDomainPayload headerBytes
          maxSignalingPacketSize).toOption,
        Made P s o chunks.2.1 (o.codec.additionalDataFor aadDomainPayload headerBytes) plaintext))

variable {P}

theorem additionalDataFor_payload (codec : Codec) (context : Bytes) :
    codec.additionalDataFor aadDomainPayload context =
      Codec.buildAdditionalData codec.additionalData aadDomainPayload context := by
  simp [Codec.additionalDataFor, aadDomainPayload, aadDomainData, aadDomainHeader]

theorem CodecObject.WellFormed.additionalDataFor {s : Shared} {i : Nat} {o : CodecObject}
    (formed : o.WellFormed s i) (domain : UInt8) (context : Bytes) :
    o.codec.additionalDataFor domain context =
      Codec.buildAdditionalData o.codec.additionalData domain context ∨
      o.codec.additionalDataFor domain context = [] := by
  unfold Codec.additionalDataFor
  split_ifs with data header
  · obtain ⟨empty, rfl⟩ := data
    rw [List.length_eq_zero_iff.mp empty]
    exact formed.dataAAD
  · obtain ⟨empty, rfl⟩ := header
    rw [List.length_eq_zero_iff.mp empty]
    exact formed.headerAAD
  · exact .inl rfl

theorem Encryption.Recorded.payload {s : Shared} {e : Encryption} {aad context : Bytes}
    (pool : Pool P s) (recorded : e.Recorded P s) (short : aad.length ≤ 64)
    (bound : e.aad = Codec.buildAdditionalData aad aadDomainPayload context) :
    ∃ o message, s.codecs[e.codec]? = some o ∧ o.codec.additionalData = aad ∧
      e.request = .payload message ∧ P.encodeHeader (message.header.getD {}) = context := by
  obtain ⟨o, present, made⟩ := recorded.aad
  have formed := pool.codecs _ _ present
  rcases formed.additionalDataFor e.request.domain (e.request.context P) with built | empty
  · rw [made, built] at bound
    obtain ⟨sameAad, sameDomain, sameContext⟩ :=
      Codec.buildAdditionalData_eq formed.short short bound
    cases asked : e.request with
    | data bytes frame => simp [asked, Request.domain, aadDomainData, aadDomainPayload] at sameDomain
    | header message =>
      simp [asked, Request.domain, aadDomainHeader, aadDomainPayload] at sameDomain
    | payload message =>
      rw [asked] at sameContext
      exact ⟨o, message, present, sameAad, rfl, sameContext⟩
  · rw [made, empty] at bound
    simp [Codec.buildAdditionalData] at bound

theorem decodeHeader_given (gob : P.GobRoundTrip) {h header : Header}
    (decoded : P.decodeHeader (P.encodeHeader h) = some header) : header = h := by
  cases taken : (P.gobHeader h).2 with
  | true =>
    rw [gob.header h taken] at decoded
    exact (Option.some.inj decoded).symm
  | false =>
    rw [gob.header_failed h taken] at decoded
    cases decoded

theorem decodePayload_given (gob : P.GobRoundTrip) {p payload : Payload}
    (decoded : P.decodePayload (P.encodePayload p) = some payload) : payload = p := by
  cases taken : (P.gobPayload p).2 with
  | true =>
    rw [gob.payload p taken] at decoded
    exact (Option.some.inj decoded).symm
  | false =>
    rw [gob.payload_failed p taken] at decoded
    cases decoded

/-- A message that a codec decodes was given, header and payload, to one call of
`EncodeMessage` on a codec with the same additional data, which encrypted the
payload under the same cipher type and secret. -/
theorem decodeMessage_authentic (gob : P.GobRoundTrip)
    (actions : List (Interleaving.Action Unit Call)) {i : Nat} {o : CodecObject}
    (present : (run P actions).shared.codecs[i]? = some o) {data : Bytes} {m : Message}
    (ideal : Ideal P (run P actions).shared o data)
    (decoded : ((run P actions).shared.view o).decodeMessage P data = .ok m) :
    ∃ e ∈ (run P actions).shared.log, ∃ sender message,
      e.request = .payload message ∧ (e.codec, message) ∈ (run P actions).shared.calls ∧
      (run P actions).shared.codecs[e.codec]? = some sender ∧
      e.typ = o.codec.typ ∧ e.secret = o.codec.secret ∧
      sender.codec.additionalData = o.codec.additionalData ∧
      m.header = some (message.header.getD {}) ∧ m.payload = some (message.payload.getD {}) := by
  have inv := run_invariant (P := P) actions
  obtain ⟨headerChunk, payloadChunk, flag, headerBytes, payloadBytes, header, payload, split, plain,
    named, opened, carried, rfl⟩ := Codec.decodeMessage_ok decoded
  obtain ⟨e, logged, typ, secret, aad, plaintext, _⟩ :=
    ideal _ (by rw [split]; rfl) headerBytes (by rw [plain]; rfl) payloadBytes (by rw [opened]; rfl)
  rw [additionalDataFor_payload] at aad
  have recorded := inv.log e logged
  obtain ⟨sender, message, member, sameAad, asked, sameHeader⟩ :=
    recorded.payload inv.pool (inv.pool.codecs i o present).short aad
  have samePayload : P.encodePayload (message.payload.getD {}) = payloadBytes := by
    rw [← plaintext, recorded.plaintext, asked]
    rfl
  rw [← sameHeader] at named
  rw [← samePayload] at carried
  refine ⟨e, logged, sender, message, asked, recorded.asked message (by rw [asked]; rfl), member, typ,
    secret, sameAad, ?_, ?_⟩
  · rw [decodeHeader_given gob named]
  · rw [decodePayload_given gob carried]

namespace Sample

def actions : List (Interleaving.Action Unit Call) :=
  [.event (.newCodec .chacha20Poly1305 (str "secret") (str "telekit/v1") UInt8.ofNat),
    .event (.encodeMessage 0 Codec.Sample.message), .event (.encrypt 0 [1, 2] []),
    .advance 0 (), .advance 0 (), .advance 0 (), .advance 0 (), .advance 0 (), .advance 0 (),
    .advance 1 (), .advance 1 (), .advance 1 ()]

/-- The packet of the message with the flag of an unencrypted header and the
header in the clear. -/
def repacked : Bytes :=
  let encoded := (Codec.Sample.codec.encodeMessage Plain.primitives Codec.Sample.message).1
  match encoded.toOption.bind Plain.primitives.decodeChunks with
  | some [_, payloadChunk, _] =>
    (Plain.primitives.encodeChunks [Plain.primitives.encodeHeader
      (Codec.Sample.message.header.getD {}), payloadChunk, [encryptPartialy]]).getD []
  | _ => []

end Sample

theorem decodeMessage_authentic_sample :
    ∃ o e, (run Plain.primitives Sample.actions).shared.codecs[0]? = some o ∧
      e ∈ (run Plain.primitives Sample.actions).shared.log ∧
      (((run Plain.primitives Sample.actions).shared.view o).decodeMessage Plain.primitives
        Sample.repacked).toOption.isSome ∧ e.typ = o.codec.typ := by
  have evaluated : ((run Plain.primitives Sample.actions).shared.codecs[0]?.any fun o =>
      decide (Ideal Plain.primitives (run Plain.primitives Sample.actions).shared o
        Sample.repacked) &&
      (((run Plain.primitives Sample.actions).shared.view o).decodeMessage Plain.primitives
        Sample.repacked).toOption.isSome) = true := by decide +kernel
  obtain ⟨o, present, facts⟩ := (Option.any_eq_true _ _).mp evaluated
  rw [Bool.and_eq_true, decide_eq_true_eq] at facts
  obtain ⟨ideal, accepted⟩ := facts
  cases decoded : ((run Plain.primitives Sample.actions).shared.view o).decodeMessage
      Plain.primitives Sample.repacked with
  | error err => simp [decoded, Except.toOption] at accepted
  | ok m =>
    obtain ⟨e, logged, _, _, _, _, _, typ, _⟩ :=
      decodeMessage_authentic Plain.gobRoundTrip Sample.actions present ideal decoded
    exact ⟨o, e, present, logged, by rw [decoded]; rfl, typ⟩

end CodecMachine
end Telekit
