import Telekit.Encryption

/-! The message codec of `peer/codec.go` and `peer/marshal.go`. Encrypting
advances the nonce source, so an encoder returns its result together with the
codec as the call leaves it, also when it fails. Pointers are never nil here:
a nil `*Message` or `*Codec` is not a value of the model. -/

namespace Telekit

def encryptPartialy : UInt8 := 0x00
def encryptGlobally : UInt8 := 0x01
def maxSignalingPacketSize : Nat := 16 * 2 ^ 20
def aadDomainData : UInt8 := 1
def aadDomainHeader : UInt8 := 2
def aadDomainPayload : UInt8 := 3

/-- The default value is the codec `&peer.Codec{}` without a key. -/
structure Codec where
  secret : Bytes := []
  typ : EncryptionType := .other []
  encryptionKit : Option EncryptionKit := none
  additionalData : Bytes := []
  dataAAD : Bytes := []
  headerAAD : Bytes := []
  deriving DecidableEq

namespace Codec

def buildAdditionalData (aad : Bytes) (domain : UInt8) (context : Bytes) : Bytes :=
  [0x02, 0x00, domain] ++ List.replicate 15 0 ++ [UInt8.ofNat aad.length] ++ aad ++
    BigEndian.encode 4 context.length ++ context

def additionalDataFor (e : Codec) (domain : UInt8) (context : Bytes) : Bytes :=
  if context.length = 0 ∧ domain = aadDomainData then e.dataAAD
  else if context.length = 0 ∧ domain = aadDomainHeader then e.headerAAD
  else buildAdditionalData e.additionalData domain context

variable (P : Primitives)

def new (encryptionType : EncryptionType) (secret additionalData : Bytes) (random : Random) :
    Except Failure Codec :=
  if additionalData.length > 64 then
    .error (.text (str "additional data is too long: " ++ str (toString additionalData.length) ++
      str ", maximum is 64"))
  else
    match createEncryptKit P encryptionType secret random with
    | .error err => .error err
    | .ok kit => .ok {
        secret := secret
        typ := encryptionType
        encryptionKit := some kit
        additionalData := additionalData
        dataAAD := buildAdditionalData additionalData aadDomainData []
        headerAAD := buildAdditionalData additionalData aadDomainHeader [] }

def encodeWithEncryption (e : Codec) (data : Bytes) (domain : UInt8) (context : Bytes) :
    Except Failure Bytes × Codec :=
  if data.length = 0 then (fail "message data is empty", e)
  else
    match e.encryptionKit with
    | none => (fail "encryption kit is not set", e)
    | some kit =>
      match kit.encrypt P data (e.additionalDataFor domain context) with
      | .error err => (.error err, e)
      | .ok (dataBytes, kit') => (.ok dataBytes, { e with encryptionKit := some kit' })

def decodeWithDecryption (e : Codec) (data : Bytes) (domain : UInt8) (context : Bytes)
    (maxDecodedSize : Int) : Except Failure Bytes :=
  if data.length = 0 then fail "data is empty"
  else
    match e.encryptionKit with
    | none => fail "encryption kit is not set"
    | some kit =>
      match kit.decrypt P data (e.additionalDataFor domain context) with
      | .error err => .error err
      | .ok dataBytes =>
        if maxDecodedSize > 0 ∧ (dataBytes.length : Int) > maxDecodedSize then
          .error (.text (str "decrypted data exceeds " ++ str (toString maxDecodedSize) ++
            str " bytes"))
        else .ok dataBytes

def encodeHeaderChunk (e : Codec) (plainHeaderBytes : Bytes) (encrypt : Bool) :
    Except Failure Bytes × Codec :=
  if encrypt then e.encodeWithEncryption P plainHeaderBytes aadDomainHeader []
  else (.ok plainHeaderBytes, e)

def encryptFlag (encrypt : Bool) : UInt8 := if encrypt then encryptGlobally else encryptPartialy

/-- A nil header or payload is encoded as the empty one. -/
def encodeMessage (e : Codec) (m : Message) : Except Failure Bytes × Codec :=
  match e.encodeHeaderChunk P (P.encodeHeader (m.header.getD {})) m.encrypt with
  | (.error err, e) => (.error err, e)
  | (.ok headerBytes, e) =>
    match e.encodeWithEncryption P (P.encodePayload (m.payload.getD {})) aadDomainPayload
        (P.encodeHeader (m.header.getD {})) with
    | (.error err, e) => (.error err, e)
    | (.ok payloadBytes, e) =>
      match P.encodeChunks [headerBytes, payloadBytes, [encryptFlag m.encrypt]] with
      | none => (.error .gob, e)
      | some data => (.ok data, e)

/-- The checks `DecodeMessageHeader` and `DecodeMessage` share, up to and with
`validateDataChunks`: header chunk, payload chunk and encryption flag. -/
def decodeDataChunks (data : Bytes) : Except Failure (Bytes × Bytes × UInt8) :=
  if data.length = 0 then fail "data is empty"
  else if data.length > maxSignalingPacketSize then
    fail "signaling packet exceeds 16777216 bytes"
  else
    match P.decodeChunks data with
    | none => .error .gob
    | some [headerBytes, payloadBytes, flag] =>
      if headerBytes.length = 0 ∨ payloadBytes.length = 0 then
        fail "message contains an empty header or payload"
      else if flag = [encryptPartialy] then .ok (headerBytes, payloadBytes, encryptPartialy)
      else if flag = [encryptGlobally] then .ok (headerBytes, payloadBytes, encryptGlobally)
      else fail "message contains an invalid encryption flag"
    | some chunks =>
      .error (.text (str "invalid message length, expected 3, got " ++
        str (toString chunks.length)))

def plainHeader (e : Codec) (headerBytes : Bytes) (flag : UInt8) : Except Failure Bytes :=
  if flag = encryptGlobally then
    e.decodeWithDecryption P headerBytes aadDomainHeader [] maxSignalingPacketSize
  else .ok headerBytes

def decodeMessageHeader (e : Codec) (data : Bytes) : Except Failure Header := do
  let (headerChunk, _, flag) ← decodeDataChunks P data
  let headerBytes ← e.plainHeader P headerChunk flag
  match P.decodeHeader headerBytes with
  | none => .error .gob
  | some header => .ok header

def decodeMessage (e : Codec) (data : Bytes) : Except Failure Message := do
  let (headerChunk, payloadChunk, flag) ← decodeDataChunks P data
  let headerBytes ← e.plainHeader P headerChunk flag
  match P.decodeHeader headerBytes with
  | none => .error .gob
  | some header =>
    let payloadBytes ← e.decodeWithDecryption P payloadChunk aadDomainPayload headerBytes
      maxSignalingPacketSize
    match P.decodePayload payloadBytes with
    | none => .error .gob
    | some payload => .ok ⟨some header, some payload, decide (flag = encryptGlobally)⟩

/-- Two codecs that encrypt under the same key and the same associated data;
their nonce sources may differ. -/
structure SameKey (a b : Codec) : Prop where
  kit : ∃ ka kb, a.encryptionKit = some ka ∧ b.encryptionKit = some kb ∧
    kb.typ = ka.typ ∧ kb.key = ka.key
  additionalData : b.additionalData = a.additionalData
  dataAAD : b.dataAAD = a.dataAAD
  headerAAD : b.headerAAD = a.headerAAD

theorem SameKey.additionalDataFor {a b : Codec} (same : SameKey a b) (domain : UInt8)
    (context : Bytes) : b.additionalDataFor domain context = a.additionalDataFor domain context := by
  simp only [Codec.additionalDataFor, same.additionalData, same.dataAAD, same.headerAAD]

variable {P}

variable {e : Codec}

theorem new_ok {typ : EncryptionType} {secret aad : Bytes} {random : Random}
    (ok : new P typ secret aad random = .ok e) :
    aad.length ≤ 64 ∧ typ.known = true ∧ e = {
      secret := secret
      typ := typ
      encryptionKit :=
        some ⟨typ, P.hkdfSha512 secret typ.keySize, ⟨random.read (typ.nonceSize - 8), 0⟩⟩
      additionalData := aad
      dataAAD := buildAdditionalData aad aadDomainData []
      headerAAD := buildAdditionalData aad aadDomainHeader [] } := by
  unfold new at ok
  split_ifs at ok with long
  split at ok
  · cases ok
  next kit created =>
    obtain ⟨known, _⟩ := createEncryptKit_ok P created
    rw [createEncryptKit_known P known] at created
    cases created
    cases ok
    exact ⟨by omega, known, rfl⟩

theorem new_of_known {typ : EncryptionType} (known : typ.known = true) (secret : Bytes)
    {aad : Bytes} (short : aad.length ≤ 64) (random : Random) :
    ∃ e, new P typ secret aad random = .ok e := by
  unfold new
  rw [if_neg (by omega), createEncryptKit_known P known]
  exact ⟨_, rfl⟩

theorem new_sameKey {typ : EncryptionType} {secret aad : Bytes} {r₁ r₂ : Random} {a b : Codec}
    (ha : new P typ secret aad r₁ = .ok a) (hb : new P typ secret aad r₂ = .ok b) :
    SameKey a b := by
  obtain ⟨_, _, rfl⟩ := new_ok ha
  obtain ⟨_, _, rfl⟩ := new_ok hb
  exact ⟨⟨_, _, rfl, rfl, rfl, rfl⟩, rfl, rfl, rfl⟩

theorem SameKey.symm {a b : Codec} (same : SameKey a b) : SameKey b a := by
  obtain ⟨⟨ka, kb, ha, hb, typ, key⟩, additional, data, header⟩ := same
  exact ⟨⟨kb, ka, hb, ha, typ.symm, key.symm⟩, additional.symm, data.symm, header.symm⟩

theorem SameKey.trans {a b c : Codec} (ab : SameKey a b) (bc : SameKey b c) : SameKey a c := by
  obtain ⟨⟨ka, kb, ha, hb, typ, key⟩, additional, data, header⟩ := ab
  obtain ⟨⟨kb', kc, hb', hc, typ', key'⟩, additional', data', header'⟩ := bc
  rw [hb] at hb'
  cases hb'
  exact ⟨⟨ka, kc, ha, hc, typ'.trans typ, key'.trans key⟩, additional'.trans additional,
    data'.trans data, header'.trans header⟩

variable {data : Bytes} {domain : UInt8}

theorem encodeWithEncryption_ok {e' : Codec} {ciphertext context : Bytes}
    (ok : e.encodeWithEncryption P data domain context = (.ok ciphertext, e')) :
    ∃ kit kit', e.encryptionKit = some kit ∧
      kit.encrypt P data (e.additionalDataFor domain context) = .ok (ciphertext, kit') ∧
      e' = { e with encryptionKit := some kit' } := by
  unfold encodeWithEncryption at ok
  split_ifs at ok with empty
  · simp at ok
  · split at ok
    · simp at ok
    next kit present =>
      split at ok
      · simp at ok
      next dataBytes kit' encrypted =>
        simp only [Prod.mk.injEq, Except.ok.injEq] at ok
        obtain ⟨rfl, rfl⟩ := ok
        exact ⟨kit, kit', present, encrypted, rfl⟩

theorem encodeWithEncryption_error {e' : Codec} {context : Bytes} {err : Failure}
    (failed : e.encodeWithEncryption P data domain context = (.error err, e')) : e' = e := by
  unfold encodeWithEncryption at failed
  split_ifs at failed
  · simp_all
  · split at failed
    · simp_all
    · split at failed <;> simp_all

theorem encodeWithEncryption_exhausted {e' : Codec} {kit : EncryptionKit} {context : Bytes}
    {err : Failure} (present : e.encryptionKit = some kit)
    (size : kit.typ.nonceSize = kit.nonce.prefixBytes.length + nonceCounterSize)
    (some_data : data ≠ [])
    (failed : e.encodeWithEncryption P data domain context = (.error err, e')) :
    kit.nonce.counter.toNat = 2 ^ 64 - 1 := by
  unfold encodeWithEncryption at failed
  rw [if_neg (by simpa using some_data), present] at failed
  simp only [EncryptionKit.encrypt] at failed
  cases drawn : kit.nonce.next kit.typ.nonceSize with
  | error err' => exact NonceSource.next_error size drawn
  | ok pair => simp [drawn] at failed

theorem encodeWithEncryption_sameKey {e' : Codec} {ciphertext context : Bytes}
    (ok : e.encodeWithEncryption P data domain context = (.ok ciphertext, e')) : SameKey e e' := by
  obtain ⟨kit, kit', present, encrypted, rfl⟩ := encodeWithEncryption_ok ok
  obtain ⟨typ, key⟩ := EncryptionKit.encrypt_kit P encrypted
  exact ⟨⟨kit, kit', present, rfl, typ, key⟩, rfl, rfl, rfl⟩

theorem encodeWithEncryption_keeps {x : Codec} (same : SameKey x e) (data context : Bytes)
    (domain : UInt8) : SameKey x (e.encodeWithEncryption P data domain context).2 := by
  cases result : e.encodeWithEncryption P data domain context with
  | mk r e' =>
    cases r with
    | error err => rw [encodeWithEncryption_error result]; exact same
    | ok ciphertext => exact same.trans (encodeWithEncryption_sameKey result)

theorem encodeMessage_keeps {x : Codec} (same : SameKey x e) (m : Message) :
    SameKey x (e.encodeMessage P m).2 := by
  have header : SameKey x
      (e.encodeHeaderChunk P (P.encodeHeader (m.header.getD {})) m.encrypt).2 := by
    unfold encodeHeaderChunk
    split_ifs
    · exact encodeWithEncryption_keeps same _ _ _
    · exact same
  unfold encodeMessage
  split
  next e₁ encoded => rw [encoded] at header; exact header
  next headerBytes e₁ encoded =>
    rw [encoded] at header
    have payload := encodeWithEncryption_keeps (P := P) header
      (P.encodePayload (m.payload.getD {})) (P.encodeHeader (m.header.getD {})) aadDomainPayload
    split
    next encrypted => rw [encrypted] at payload; exact payload
    next encrypted =>
      rw [encrypted] at payload
      split <;> exact payload

theorem encodeWithEncryption_length (expansion : P.AeadExpansion) {e' : Codec}
    {ciphertext context : Bytes}
    (ok : e.encodeWithEncryption P data domain context = (.ok ciphertext, e')) :
    0 < ciphertext.length ∧ data.length ≤ ciphertext.length ∧
      ciphertext.length ≤ data.length + 40 := by
  obtain ⟨kit, kit', _, encrypted, _⟩ := encodeWithEncryption_ok ok
  exact EncryptionKit.encrypt_length P expansion encrypted

theorem decodeWithDecryption_encode (correct : P.AeadCorrect) (expansion : P.AeadExpansion)
    {a a' b : Codec} {ciphertext context : Bytes} {limit : Int}
    (ok : a.encodeWithEncryption P data domain context = (.ok ciphertext, a')) (same : SameKey a b)
    (small : (data.length : Int) ≤ limit) :
    b.decodeWithDecryption P ciphertext domain context limit = .ok data := by
  obtain ⟨nonempty, _⟩ := encodeWithEncryption_length expansion ok
  obtain ⟨kit, kit', present, encrypted, _⟩ := encodeWithEncryption_ok ok
  obtain ⟨ka, kb, ha, hb, typ, key⟩ := same.kit
  rw [present] at ha
  cases ha
  have opened := EncryptionKit.decrypt_encrypt P correct encrypted typ key
  unfold decodeWithDecryption
  rw [if_neg (by omega), hb]
  simp only [same.additionalDataFor, opened]
  rw [if_neg (by omega)]

theorem decodeWithDecryption_ok {context plaintext : Bytes} {limit : Int}
    (ok : e.decodeWithDecryption P data domain context limit = .ok plaintext) :
    ∃ kit, e.encryptionKit = some kit ∧
      kit.decrypt P data (e.additionalDataFor domain context) = .ok plaintext ∧
      ¬ (limit > 0 ∧ (plaintext.length : Int) > limit) := by
  unfold decodeWithDecryption at ok
  split_ifs at ok with empty
  · simp at ok
  · split at ok
    · simp at ok
    next kit present =>
      split at ok
      · simp at ok
      next dataBytes opened =>
        split_ifs at ok with large
        cases ok
        exact ⟨kit, present, opened, large⟩

theorem decodeWithDecryption_same {a b : Codec} (same : SameKey a b) (data context : Bytes)
    (domain : UInt8) (limit : Int) :
    b.decodeWithDecryption P data domain context limit =
      a.decodeWithDecryption P data domain context limit := by
  obtain ⟨ka, kb, ha, hb, typ, key⟩ := same.kit
  simp only [decodeWithDecryption, ha, hb, EncryptionKit.decrypt, typ, key, same.additionalDataFor]

theorem decodeMessage_same {a b : Codec} (same : SameKey a b) (data : Bytes) :
    b.decodeMessage P data = a.decodeMessage P data := by
  simp only [decodeMessage, plainHeader, decodeWithDecryption_same same]

theorem encodeMessage_ok {e' : Codec} {m : Message} (ok : e.encodeMessage P m = (.ok data, e')) :
    ∃ headerChunk payloadChunk e₁,
      e.encodeHeaderChunk P (P.encodeHeader (m.header.getD {})) m.encrypt =
        (.ok headerChunk, e₁) ∧
      e₁.encodeWithEncryption P (P.encodePayload (m.payload.getD {})) aadDomainPayload
        (P.encodeHeader (m.header.getD {})) = (.ok payloadChunk, e') ∧
      P.encodeChunks [headerChunk, payloadChunk, [encryptFlag m.encrypt]] = some data := by
  unfold encodeMessage at ok
  split at ok
  · simp at ok
  next headerChunk e₁ header =>
    split at ok
    · simp at ok
    next payloadChunk e₂ payload =>
      split at ok
      · simp at ok
      next packed =>
        simp only [Prod.mk.injEq, Except.ok.injEq] at ok
        obtain ⟨rfl, rfl⟩ := ok
        exact ⟨headerChunk, payloadChunk, e₁, header, payload, packed⟩

theorem decodeDataChunks_encode (gob : P.GobRoundTrip) {header payload : Bytes} {encrypt : Bool}
    (packed : P.encodeChunks [header, payload, [encryptFlag encrypt]] = some data)
    (hh : 0 < header.length) (hp : 0 < payload.length)
    (small : data.length ≤ maxSignalingPacketSize) :
    decodeDataChunks P data = .ok (header, payload, encryptFlag encrypt) := by
  have contained := gob.chunk_length _ _ packed header (by simp)
  unfold decodeDataChunks
  rw [if_neg (by omega), if_neg (by omega), gob.chunks _ _ packed]
  simp only
  rw [if_neg (by omega)]
  cases encrypt <;> simp [encryptFlag, encryptGlobally, encryptPartialy]

theorem decodeDataChunks_small {chunks : Bytes × Bytes × UInt8}
    (ok : decodeDataChunks P data = .ok chunks) : data.length ≤ maxSignalingPacketSize := by
  simp only [decodeDataChunks, guard_ok] at ok
  omega

theorem decodeMessageHeader_small {h : Header} (ok : e.decodeMessageHeader P data = .ok h) :
    data.length ≤ maxSignalingPacketSize := by
  simp only [decodeMessageHeader, bind_ok] at ok
  obtain ⟨_, split, _⟩ := ok
  exact decodeDataChunks_small split

/-- `DecodeMessage` inverts `EncodeMessage` for a codec with the same key, on
packets within the size limit. -/
theorem decodeMessage_encodeMessage (correct : P.AeadCorrect) (expansion : P.AeadExpansion)
    (gob : P.GobRoundTrip) {a a' b : Codec} {m : Message}
    (ok : a.encodeMessage P m = (.ok data, a')) (same : SameKey a b)
    (headerTaken : (P.gobHeader (m.header.getD {})).2 = true)
    (payloadTaken : (P.gobPayload (m.payload.getD {})).2 = true)
    (small : data.length ≤ maxSignalingPacketSize) :
    b.decodeMessage P data =
      .ok ⟨some (m.header.getD {}), some (m.payload.getD {}), m.encrypt⟩ := by
  obtain ⟨headerChunk, payloadChunk, a₁, header, payload, packed⟩ := encodeMessage_ok ok
  have headerSize := gob.chunk_length _ _ packed headerChunk (by simp)
  have payloadSize := gob.chunk_length _ _ packed payloadChunk (by simp)
  have payloadLength := encodeWithEncryption_length expansion payload
  have plainNonempty : 0 < (P.encodeHeader (m.header.getD {})).length :=
    List.length_pos_iff.mpr (gob.encodeHeader_ne_nil headerTaken)
  have split : 0 < headerChunk.length ∧ SameKey a₁ b ∧
      b.plainHeader P headerChunk (encryptFlag m.encrypt) =
        .ok (P.encodeHeader (m.header.getD {})) := by
    cases h : m.encrypt with
    | true =>
      simp only [h, encodeHeaderChunk, if_true] at header
      have headerLength := encodeWithEncryption_length expansion header
      refine ⟨headerLength.1, (encodeWithEncryption_sameKey header).symm.trans same, ?_⟩
      rw [plainHeader, if_pos (by decide)]
      exact decodeWithDecryption_encode correct expansion header same (by omega)
    | false =>
      simp only [h, encodeHeaderChunk, Bool.false_eq_true, if_false, Prod.mk.injEq,
        Except.ok.injEq] at header
      obtain ⟨rfl, rfl⟩ := header
      refine ⟨plainNonempty, same, ?_⟩
      rw [plainHeader, if_neg (by decide)]
  obtain ⟨nonempty, sameSession, plain⟩ := split
  have chunks := decodeDataChunks_encode gob packed nonempty payloadLength.1 small
  have opened : b.decodeWithDecryption P payloadChunk aadDomainPayload
      (P.encodeHeader (m.header.getD {})) maxSignalingPacketSize =
        .ok (P.encodePayload (m.payload.getD {})) :=
    decodeWithDecryption_encode correct expansion payload sameSession (by omega)
  simp only [decodeMessage, chunks, bind, Except.bind, plain, gob.header _ headerTaken, opened,
    gob.payload _ payloadTaken]
  cases m.encrypt <;> rfl

theorem decodeMessageHeader_encodeMessage (expansion : P.AeadExpansion) (gob : P.GobRoundTrip)
    {a a' b : Codec} {m : Message} (ok : a.encodeMessage P m = (.ok data, a'))
    (clear : m.encrypt = false) (headerTaken : (P.gobHeader (m.header.getD {})).2 = true)
    (small : data.length ≤ maxSignalingPacketSize) :
    b.decodeMessageHeader P data = .ok (m.header.getD {}) := by
  obtain ⟨headerChunk, payloadChunk, a₁, header, payload, packed⟩ := encodeMessage_ok ok
  have payloadLength := encodeWithEncryption_length expansion payload
  simp only [clear, encodeHeaderChunk, Bool.false_eq_true, if_false, Prod.mk.injEq,
    Except.ok.injEq] at header packed
  obtain ⟨rfl, rfl⟩ := header
  have nonempty : 0 < (P.encodeHeader (m.header.getD {})).length :=
    List.length_pos_iff.mpr (gob.encodeHeader_ne_nil headerTaken)
  have chunks := decodeDataChunks_encode gob packed nonempty payloadLength.1 small
  have plain : b.plainHeader P (P.encodeHeader (m.header.getD {})) (encryptFlag false) =
      .ok (P.encodeHeader (m.header.getD {})) := by
    rw [plainHeader, if_neg (by decide)]
  simp only [decodeMessageHeader, chunks, bind, Except.bind, plain, gob.header _ headerTaken]

end Codec
end Telekit
