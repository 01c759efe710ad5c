import Telekit.Handshake
import Telekit.ReplayWindow

/-! The data channel of `peer/data_channel.go`: one codec, one sequence counter
and one key for each direction. The compare-and-swap loop of `sealFrame` is one
step of the counter, and a sequence number is spent even when the encryption
after it fails. -/

namespace Telekit

def dataFrameSequenceSize : Nat := 8

inductive DataFrameType
  | application
  | heartbeat
  deriving DecidableEq

def DataFrameType.toByte : DataFrameType → UInt8
  | .application => 1
  | .heartbeat => 2

def DataFrameType.ofByte (b : UInt8) : Option DataFrameType :=
  if b = 1 then some .application else if b = 2 then some .heartbeat else none

theorem DataFrameType.ofByte_toByte (t : DataFrameType) : ofByte t.toByte = some t := by
  cases t <;> rfl

variable {t : DataFrameType}

theorem DataFrameType.toByte_of_ofByte {b : UInt8} (h : ofByte b = some t) : t.toByte = b := by
  unfold ofByte at h
  split_ifs at h with one two
  · cases h
    exact one.symm
  · cases h
    exact two.symm

structure DataChannel where
  sendCodec : Codec
  receiveCodec : Codec
  sendDirection : Direction
  receiveDirection : Direction
  sendSequence : UInt64 := 0
  receiveWindow : ReplayWindow := .empty
  deriving DecidableEq

def dataFrameContext (direction : Direction) (sequence : UInt64) : Bytes :=
  direction.toByte :: BigEndian.encode dataFrameSequenceSize sequence.toNat

theorem dataFrameContext_length (direction : Direction) (sequence : UInt64) :
    (dataFrameContext direction sequence).length = 9 := by
  simp [dataFrameContext, dataFrameSequenceSize]

theorem dataFrameContext_inj {d d' : Direction} {s s' : UInt64}
    (equal : dataFrameContext d s = dataFrameContext d' s') : d = d' ∧ s = s' := by
  simp only [dataFrameContext, List.cons.injEq] at equal
  have direction : d = d' := by
    revert equal
    cases d <;> cases d' <;> simp [Direction.toByte]
  have sequence : s.toNat = s'.toNat := BigEndian.encode_inj (by simpa [dataFrameSequenceSize]
    using s.toNat_lt) (by simpa [dataFrameSequenceSize] using s'.toNat_lt) equal.2
  exact ⟨direction, UInt64.toNat_inj.mp sequence⟩

namespace DataChannel
variable (P : Primitives)

def deriveDataKey := deriveDirectionKey P "telekit/data/v1"

def new (encryptionType : EncryptionType) (sessionKey additionalData : Bytes) (role : DataRole)
    (sendRandom receiveRandom : Random) : Except Failure DataChannel := do
  let sendKey ← deriveDataKey P sessionKey role.sendDirection
  let receiveKey ← deriveDataKey P sessionKey role.receiveDirection
  let sendCodec ← Codec.new P encryptionType sendKey additionalData sendRandom
  let receiveCodec ← Codec.new P encryptionType receiveKey additionalData receiveRandom
  return {
    sendCodec := sendCodec
    receiveCodec := receiveCodec
    sendDirection := role.sendDirection
    receiveDirection := role.receiveDirection }

def sealFrame (c : DataChannel) (frameType : DataFrameType) (plaintext : Bytes) :
    Except Failure (UInt64 × Bytes) × DataChannel :=
  if c.sendSequence.toNat = 2 ^ 64 - 1 then (fail "data frame sequence exhausted", c)
  else
    let sequence := c.sendSequence + 1
    match c.sendCodec.encodeWithEncryption P (frameType.toByte :: plaintext) aadDomainData
        (dataFrameContext c.sendDirection sequence) with
    | (.error err, codec) => (.error err, { c with sendSequence := sequence, sendCodec := codec })
    | (.ok ciphertext, codec) =>
      (.ok (sequence, ciphertext), { c with sendSequence := sequence, sendCodec := codec })

def sealApplication (c : DataChannel) (plaintext : Bytes) := c.sealFrame P .application plaintext

def sealHeartbeat (c : DataChannel) := c.sealFrame P .heartbeat []

/-- The frame is authenticated and checked before the window is consulted. -/
def openFrame (c : DataChannel) (sequence : UInt64) (ciphertext : Bytes) (maxDecodedSize : Int) :
    Except Failure (DataFrameType × Bytes) × DataChannel :=
  if sequence = 0 then (fail "data frame sequence is zero", c)
  else
    match c.receiveCodec.decodeWithDecryption P ciphertext aadDomainData
        (dataFrameContext c.receiveDirection sequence) maxDecodedSize with
    | .error err => (.error err, c)
    | .ok [] => (.error .unexpectedDataFrameType, c)
    | .ok (typeByte :: plaintext) =>
      match DataFrameType.ofByte typeByte with
      | none => (.error .unexpectedDataFrameType, c)
      | some frameType =>
        if frameType = .heartbeat ∧ plaintext.length ≠ 0 then (.error .unexpectedDataFrameType, c)
        else
          let (accepted, window) := c.receiveWindow.accept sequence
          let c' := { c with receiveWindow := window }
          if accepted then (.ok (frameType, plaintext), c') else (.error .dataFrameReplay, c')

variable {P}

theorem deriveDataKey_ok {sessionKey key : Bytes} {direction : Direction}
    (ok : deriveDataKey P sessionKey direction = .ok key) :
    sessionKey ≠ [] ∧ key = P.hkdfSha256 sessionKey []
      (encodeHandshakeFields [str "telekit/data/v1", [direction.toByte]]) 32 := by
  unfold deriveDataKey deriveDirectionKey at ok
  split_ifs at ok with empty
  · simp at ok
  · cases ok
    exact ⟨fun h => empty (by simp [h]), rfl⟩

theorem new_ok {typ : EncryptionType} {sessionKey aad : Bytes} {role : DataRole} {r₁ r₂ : Random}
    {c : DataChannel} (ok : new P typ sessionKey aad role r₁ r₂ = .ok c) :
    ∃ sendKey receiveKey, deriveDataKey P sessionKey role.sendDirection = .ok sendKey ∧
      deriveDataKey P sessionKey role.receiveDirection = .ok receiveKey ∧
      Codec.new P typ sendKey aad r₁ = .ok c.sendCodec ∧
      Codec.new P typ receiveKey aad r₂ = .ok c.receiveCodec ∧
      c.sendDirection = role.sendDirection ∧ c.receiveDirection = role.receiveDirection ∧
      c.sendSequence = 0 ∧ c.receiveWindow = .empty := by
  simp only [new, bind_ok] at ok
  obtain ⟨sendKey, hs, receiveKey, hr, sendCodec, hsc, receiveCodec, hrc, done⟩ := ok
  cases done
  exact ⟨sendKey, receiveKey, hs, hr, hsc, hrc, rfl, rfl, rfl, rfl⟩

theorem new_of_known {typ : EncryptionType} (known : typ.known = true) {sessionKey aad : Bytes}
    (nonempty : sessionKey ≠ []) (short : aad.length ≤ 64) (role : DataRole) (r₁ r₂ : Random) :
    ∃ c, new P typ sessionKey aad role r₁ r₂ = .ok c := by
  obtain ⟨sendKey, hs⟩ := deriveDirectionKey_of_ne P role.sendDirection nonempty
  obtain ⟨receiveKey, hr⟩ := deriveDirectionKey_of_ne P role.receiveDirection nonempty
  obtain ⟨send, hsc⟩ := Codec.new_of_known known sendKey short r₁
  obtain ⟨receive, hrc⟩ := Codec.new_of_known known receiveKey short r₂
  exact ⟨_, by
    simp only [new, bind_ok, pure_ok]
    exact ⟨_, hs, _, hr, _, hsc, _, hrc, rfl⟩⟩

theorem next_toNat {n : UInt64} (h : n.toNat ≠ 2 ^ 64 - 1) : (n + 1).toNat = n.toNat + 1 := by
  have bound := n.toNat_lt
  rw [UInt64.toNat_add]
  have one : (1 : UInt64).toNat = 1 := rfl
  rw [one, Nat.mod_eq_of_lt (by omega)]

variable {plaintext ciphertext : Bytes} {sequence : UInt64}

theorem sealFrame_ok {c c' : DataChannel}
    (ok : c.sealFrame P t plaintext = (.ok (sequence, ciphertext), c')) :
    c.sendSequence.toNat ≠ 2 ^ 64 - 1 ∧ sequence = c.sendSequence + 1 ∧
      ∃ codec, c.sendCodec.encodeWithEncryption P (t.toByte :: plaintext) aadDomainData
        (dataFrameContext c.sendDirection sequence) = (.ok ciphertext, codec) ∧
        c' = { c with sendSequence := sequence, sendCodec := codec } := by
  unfold sealFrame at ok
  split_ifs at ok with exhausted
  · simp at ok
  · simp only at ok
    split at ok
    · simp at ok
    next codec encoded =>
      simp only [Prod.mk.injEq, Except.ok.injEq] at ok
      obtain ⟨⟨rfl, rfl⟩, rfl⟩ := ok
      exact ⟨exhausted, rfl, codec, encoded, rfl⟩

theorem sealFrame_error {c c' : DataChannel} {err : Failure}
    (failed : c.sealFrame P t plaintext = (.error err, c')) :
    c' = c ∨ (c.sendSequence.toNat ≠ 2 ^ 64 - 1 ∧
      c' = { c with sendSequence := c.sendSequence + 1 }) := by
  unfold sealFrame at failed
  split_ifs at failed with exhausted
  · simp only [Prod.mk.injEq] at failed
    exact Or.inl failed.2.symm
  · simp only at failed
    split at failed
    next codec encoded =>
      simp only [Prod.mk.injEq] at failed
      rw [Codec.encodeWithEncryption_error encoded] at failed
      exact Or.inr ⟨exhausted, failed.2.symm⟩
    · simp at failed

variable {limit : Int}

theorem openFrame_ok {c c' : DataChannel}
    (ok : c.openFrame P sequence ciphertext limit = (.ok (t, plaintext), c')) :
    sequence ≠ 0 ∧
      c.receiveCodec.decodeWithDecryption P ciphertext aadDomainData
        (dataFrameContext c.receiveDirection sequence) limit = .ok (t.toByte :: plaintext) ∧
      (c.receiveWindow.accept sequence).1 = true ∧
      c' = { c with receiveWindow := (c.receiveWindow.accept sequence).2 } := by
  unfold openFrame at ok
  split_ifs at ok with zero
  · simp at ok
  · split at ok
    · simp at ok
    · simp at ok
    next typeByte rest decoded =>
      split at ok
      · simp at ok
      next frameType known =>
        split_ifs at ok with malformed
        · simp at ok
        · simp only at ok
          split_ifs at ok with accepted
          · simp only [Prod.mk.injEq, Except.ok.injEq] at ok
            obtain ⟨⟨rfl, rfl⟩, rfl⟩ := ok
            rw [DataFrameType.toByte_of_ofByte known]
            exact ⟨zero, decoded, accepted, rfl⟩
          · simp at ok

/-- A call that returns an error leaves the channel, and so its replay window,
as it was. -/
theorem openFrame_error {c c' : DataChannel} {err : Failure}
    (failed : c.openFrame P sequence ciphertext limit = (.error err, c')) : c' = c := by
  unfold openFrame at failed
  split_ifs at failed with zero
  · simp_all
  · split at failed
    · simp_all
    · simp_all
    · split at failed
      · simp_all
      · split_ifs at failed with malformed
        · simp_all
        · simp only at failed
          split_ifs at failed with accepted
          · simp at failed
          · simp only [Prod.mk.injEq] at failed
            rw [← failed.2, ReplayWindow.accept_false (by simpa using accepted)]

theorem openFrame_window {r : DataChannel}
    (decoded : r.receiveCodec.decodeWithDecryption P ciphertext aadDomainData
      (dataFrameContext r.receiveDirection sequence) limit = .ok (t.toByte :: plaintext))
    (beat : t = .heartbeat → plaintext = []) (nonzero : sequence ≠ 0) :
    r.openFrame P sequence ciphertext limit =
      (if (r.receiveWindow.accept sequence).1 then .ok (t, plaintext) else .error .dataFrameReplay,
        { r with receiveWindow := (r.receiveWindow.accept sequence).2 }) := by
  have wellFormed : ¬ (t = .heartbeat ∧ plaintext.length ≠ 0) := by
    rintro ⟨heartbeat, nonempty⟩
    simp [beat heartbeat] at nonempty
  unfold openFrame
  rw [if_neg nonzero, decoded]
  simp only [DataFrameType.ofByte_toByte, wellFormed, if_false]
  split_ifs
  · rfl
  · rfl

theorem openFrame_decoded {r : DataChannel}
    (decoded : r.receiveCodec.decodeWithDecryption P ciphertext aadDomainData
      (dataFrameContext r.receiveDirection sequence) limit = .ok (t.toByte :: plaintext))
    (beat : t = .heartbeat → plaintext = []) (nonzero : sequence ≠ 0)
    (accepted : (r.receiveWindow.accept sequence).1 = true) :
    r.openFrame P sequence ciphertext limit =
      (.ok (t, plaintext), { r with receiveWindow := (r.receiveWindow.accept sequence).2 }) := by
  rw [openFrame_window decoded beat nonzero, if_pos accepted]

theorem openFrame_replayed {r : DataChannel}
    (decoded : r.receiveCodec.decodeWithDecryption P ciphertext aadDomainData
      (dataFrameContext r.receiveDirection sequence) limit = .ok (t.toByte :: plaintext))
    (beat : t = .heartbeat → plaintext = []) (nonzero : sequence ≠ 0)
    (refused : (r.receiveWindow.accept sequence).1 = false) :
    r.openFrame P sequence ciphertext limit = (.error .dataFrameReplay, r) := by
  rw [openFrame_window decoded beat nonzero, if_neg (by simp [refused]),
    ReplayWindow.accept_false refused]

end DataChannel
end Telekit
