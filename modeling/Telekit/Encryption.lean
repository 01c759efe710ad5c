import Telekit.Primitives

/-! The cipher implementations of `utils/encryption`. Each derives its key from
the secret, draws a random nonce prefix once, and puts the nonce in front of the
ciphertext; the five files differ only in the cipher and in its key and nonce
sizes. The random bytes are an argument, so nothing is assumed about them. -/

namespace Telekit

def nonceCounterSize : Nat := 8

structure NonceSource where
  prefixBytes : Bytes
  counter : UInt64
  deriving DecidableEq

namespace NonceSource

def new (size : Nat) (random : Random) : Except Failure NonceSource :=
  if size ≤ nonceCounterSize then fail "nonce size is too small"
  else .ok ⟨random.read (size - nonceCounterSize), 0⟩

/-- The compare-and-swap loop of `next` takes the counter from its current
value to the next one; the last value is never left. -/
def next (s : NonceSource) (size : Nat) : Except Failure (Bytes × NonceSource) :=
  if size ≠ s.prefixBytes.length + nonceCounterSize then fail "invalid nonce size"
  else if s.counter.toNat = 2 ^ 64 - 1 then fail "nonce counter exhausted"
  else
    let counter := s.counter + 1
    .ok (s.prefixBytes ++ BigEndian.encode 8 counter.toNat, { s with counter := counter })

theorem next_length {s s' : NonceSource} {size : Nat} {nonce : Bytes}
    (ok : s.next size = .ok (nonce, s')) : nonce.length = size := by
  unfold next at ok
  split_ifs at ok with wrong exhausted
  · simp at ok
  · simp at ok
  · simp only [Except.ok.injEq, Prod.mk.injEq] at ok
    rw [← ok.1, List.length_append, BigEndian.encode_length]
    simp only [nonceCounterSize] at wrong
    omega

theorem next_prefixBytes {s s' : NonceSource} {size : Nat} {nonce : Bytes}
    (ok : s.next size = .ok (nonce, s')) : s'.prefixBytes = s.prefixBytes := by
  unfold next at ok
  split_ifs at ok with wrong exhausted
  · simp at ok
  · simp at ok
  · cases ok
    rfl

theorem next_error {s : NonceSource} {size : Nat} {err : Failure}
    (right : size = s.prefixBytes.length + nonceCounterSize) (failed : s.next size = .error err) :
    s.counter.toNat = 2 ^ 64 - 1 := by
  unfold next at failed
  rw [if_neg (by simpa using right)] at failed
  split_ifs at failed with exhausted
  exact exhausted

end NonceSource

namespace EncryptionType

def keySize : EncryptionType → Nat
  | .ascon128a => 16
  | _ => 32

def nonceSize : EncryptionType → Nat
  | .ascon128a => 16
  | .xchacha20Poly1305 => 24
  | _ => 12

end EncryptionType

structure EncryptionKit where
  typ : EncryptionType
  key : Bytes
  nonce : NonceSource
  deriving DecidableEq

namespace EncryptionKit
variable (P : Primitives)

def encrypt (kit : EncryptionKit) (plaintext aad : Bytes) : Except Failure (Bytes × EncryptionKit) :=
  match kit.nonce.next kit.typ.nonceSize with
  | .error err => .error err
  | .ok (nonce, source) =>
    .ok (nonce ++ P.aeadSeal kit.typ kit.key nonce plaintext aad, { kit with nonce := source })

def decrypt (kit : EncryptionKit) (data aad : Bytes) : Except Failure Bytes :=
  if data.length < kit.typ.nonceSize then fail "ciphertext too short"
  else
    match P.aeadOpen kit.typ kit.key (data.take kit.typ.nonceSize)
        (data.drop kit.typ.nonceSize) aad with
    | none => .error .aead
    | some plaintext => .ok plaintext

theorem encrypt_kit {kit kit' : EncryptionKit} {plaintext aad data : Bytes}
    (ok : kit.encrypt P plaintext aad = .ok (data, kit')) :
    kit'.typ = kit.typ ∧ kit'.key = kit.key := by
  unfold encrypt at ok
  split at ok
  · cases ok
  · cases ok
    exact ⟨rfl, rfl⟩

theorem encrypt_nonce {kit kit' : EncryptionKit} {plaintext aad data : Bytes}
    (ok : kit.encrypt P plaintext aad = .ok (data, kit')) :
    kit'.typ = kit.typ ∧ kit'.nonce.prefixBytes = kit.nonce.prefixBytes := by
  unfold encrypt at ok
  split at ok
  · cases ok
  next drawn =>
    cases ok
    exact ⟨rfl, NonceSource.next_prefixBytes drawn⟩

/-- Any instance with the same cipher and key inverts the encryption, whatever
its own nonce source. -/
theorem decrypt_encrypt (correct : P.AeadCorrect) {kit kit' other : EncryptionKit}
    {plaintext aad data : Bytes} (ok : kit.encrypt P plaintext aad = .ok (data, kit'))
    (typ : other.typ = kit.typ) (key : other.key = kit.key) :
    other.decrypt P data aad = .ok plaintext := by
  unfold encrypt at ok
  split at ok
  · cases ok
  next nonce source drawn =>
    cases ok
    have size := NonceSource.next_length drawn
    have long : ¬ (nonce ++ P.aeadSeal kit.typ kit.key nonce plaintext aad).length <
        kit.typ.nonceSize := by
      rw [List.length_append, size]
      omega
    unfold decrypt
    rw [typ, key, if_neg long, ← size, List.take_left, List.drop_left, correct.inverts]

theorem nonceSize_le (typ : EncryptionType) : 12 ≤ typ.nonceSize ∧ typ.nonceSize ≤ 24 := by
  cases typ <;> simp [EncryptionType.nonceSize]

theorem encrypt_length (expansion : P.AeadExpansion) {kit kit' : EncryptionKit}
    {plaintext aad data : Bytes} (ok : kit.encrypt P plaintext aad = .ok (data, kit')) :
    0 < data.length ∧ plaintext.length ≤ data.length ∧
      data.length ≤ plaintext.length + 40 := by
  unfold encrypt at ok
  split at ok
  · cases ok
  next nonce source drawn =>
    cases ok
    have size := NonceSource.next_length drawn
    have contained := expansion.plaintext_le kit.typ kit.key nonce plaintext aad
    have bounds := nonceSize_le kit.typ
    have tagged := expansion.bound kit.typ kit.key nonce plaintext aad (by omega)
    rw [List.length_append]
    omega

end EncryptionKit

def createEncryptKit (P : Primitives) (encryptionType : EncryptionType) (secret : Bytes)
    (random : Random) : Except Failure EncryptionKit :=
  match encryptionType with
  | .other name => .error (.text (str "unknown encryption type: " ++ name))
  | typ =>
    match NonceSource.new typ.nonceSize random with
    | .error err => .error err
    | .ok source => .ok ⟨typ, P.hkdfSha512 secret typ.keySize, source⟩

def EncryptionType.known : EncryptionType → Bool
  | .other _ => false
  | _ => true

theorem createEncryptKit_known (P : Primitives) {typ : EncryptionType} (known : typ.known = true)
    (secret : Bytes) (random : Random) :
    createEncryptKit P typ secret random =
      .ok ⟨typ, P.hkdfSha512 secret typ.keySize, ⟨random.read (typ.nonceSize - 8), 0⟩⟩ := by
  cases typ with
  | other name => simp [EncryptionType.known] at known
  | _ => rfl

theorem createEncryptKit_ok (P : Primitives) {typ : EncryptionType} {secret : Bytes} {random : Random}
    {kit : EncryptionKit} (ok : createEncryptKit P typ secret random = .ok kit) :
    typ.known = true ∧ kit.typ = typ ∧ kit.key = P.hkdfSha512 secret typ.keySize ∧
      kit.nonce.prefixBytes = random.read (typ.nonceSize - 8) ∧ kit.nonce.counter = 0 := by
  by_cases known : typ.known = true
  · rw [createEncryptKit_known P known] at ok
    cases ok
    exact ⟨known, rfl, rfl, rfl, rfl⟩
  · cases typ with
    | other name => simp [createEncryptKit] at ok
    | _ => simp [EncryptionType.known] at known

end Telekit
