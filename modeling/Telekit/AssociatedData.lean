import Telekit.MessageAuthenticity

/-! The associated data of a codec. `NewCodec` builds it once for the two domains that
are used without a context, and nothing that happens to a codec later changes what it
was built from: `UpdateSecret` replaces the key, an encryption moves the nonce source. -/

namespace Telekit.Codec
variable (P : Primitives)

inductive Use
  | updateSecret (encryptionType : EncryptionType) (secret : Bytes) (random : Random)
  | encrypt (data : Bytes) (domain : UInt8) (context : Bytes)

/-- A refused `UpdateSecret` leaves the codec as it is. -/
def use (e : Codec) : Use → Codec
  | .updateSecret encryptionType secret random =>
    match e.updateSecret P encryptionType secret random with
    | .error _ => e
    | .ok e => e
  | .encrypt data domain context => (e.encodeWithEncryption P data domain context).2

def uses (e : Codec) (calls : List Use) : Codec := calls.foldl (use P) e

variable {P} {typ typ' : EncryptionType} {secret secret' aad aad' : Bytes} {e e' : Codec}

theorem Holds.use (holds : e.Holds P typ secret aad) (call : Use) :
    ∃ typ' secret', (e.use P call).Holds P typ' secret' aad := by
  cases call with
  | updateSecret encryptionType secret' random =>
    simp only [Codec.use]
    cases updated : e.updateSecret P encryptionType secret' random with
    | error err => exact ⟨typ, secret, holds⟩
    | ok e' => exact ⟨encryptionType, secret', holds.updateSecret updated⟩
  | encrypt data domain context =>
    refine ⟨typ, secret, ?_⟩
    simp only [Codec.use]
    cases result : e.encodeWithEncryption P data domain context with
    | mk r e' =>
      cases r with
      | error err =>
        rw [encodeWithEncryption_error result]
        exact holds
      | ok ciphertext =>
        obtain ⟨kit, kit', present, encrypted, rfl⟩ := encodeWithEncryption_ok result
        obtain ⟨source, held⟩ := holds.kit
        rw [present] at held
        cases held
        obtain ⟨sameTyp, sameKey⟩ := EncryptionKit.encrypt_kit P encrypted
        refine ⟨holds.heldTyp, holds.heldSecret, ⟨kit'.nonce, ?_⟩, holds.additionalData,
          holds.dataAAD, holds.headerAAD⟩
        cases kit'
        cases sameTyp
        cases sameKey
        rfl

theorem Holds.uses (holds : e.Holds P typ secret aad) (calls : List Use) :
    ∃ typ' secret', (e.uses P calls).Holds P typ' secret' aad := by
  induction calls generalizing e typ secret with
  | nil => exact ⟨typ, secret, holds⟩
  | cons call calls ih =>
    obtain ⟨_, _, next⟩ := holds.use call
    exact ih next

theorem Holds.additionalDataFor (holds : e.Holds P typ secret aad) (domain : UInt8)
    (context : Bytes) :
    e.additionalDataFor domain context = buildAdditionalData aad domain context := by
  unfold Codec.additionalDataFor
  split_ifs with data header
  · rw [holds.dataAAD, List.eq_nil_of_length_eq_zero data.1, data.2]
  · rw [holds.headerAAD, List.eq_nil_of_length_eq_zero header.1, header.2]
  · rw [holds.additionalData]

/-- The associated data of codecs from `NewCodec`, after any calls, is the one that is
built from the additional data given to `NewCodec`, and it is equal only for equal
additional data, domains and contexts. -/
theorem additionalData_unambiguous {random random' : Random}
    (made : new P typ secret aad random = .ok e)
    (made' : new P typ' secret' aad' random' = .ok e') (calls calls' : List Use) :
    (e.uses P calls).additionalData = aad ∧
    (∀ domain context, (e.uses P calls).additionalDataFor domain context =
      buildAdditionalData (e.uses P calls).additionalData domain context) ∧
    ∀ domain domain' context context',
      (e.uses P calls).additionalDataFor domain context =
        (e'.uses P calls').additionalDataFor domain' context' ↔
      (e.uses P calls).additionalData = (e'.uses P calls').additionalData ∧ domain = domain' ∧
        context = context' := by
  obtain ⟨_, _, holds⟩ := (new_holds made).uses calls
  obtain ⟨_, _, holds'⟩ := (new_holds made').uses calls'
  rw [holds.additionalData, holds'.additionalData]
  refine ⟨rfl, holds.additionalDataFor, fun domain domain' context context' => ?_⟩
  rw [holds.additionalDataFor, holds'.additionalDataFor]
  constructor
  · exact buildAdditionalData_eq (new_ok made).1 (new_ok made').1
  · rintro ⟨rfl, rfl, rfl⟩
    rfl

theorem additionalData_unambiguous_sample :
    ∃ e e' : Codec, new Plain.primitives .chacha20Poly1305 [1] [7] UInt8.ofNat = .ok e ∧
      new Plain.primitives .aes256Gcm [2] [7, 7] UInt8.ofNat = .ok e' ∧
      e.additionalDataFor aadDomainData [] ≠ e'.additionalDataFor aadDomainData [] := by
  obtain ⟨e, made⟩ := new_of_known (P := Plain.primitives)
    (show EncryptionType.known .chacha20Poly1305 = true from rfl) [1]
    (show [(7 : UInt8)].length ≤ 64 by decide) UInt8.ofNat
  obtain ⟨e', made'⟩ := new_of_known (P := Plain.primitives)
    (show EncryptionType.known .aes256Gcm = true from rfl) [2]
    (show [(7 : UInt8), 7].length ≤ 64 by decide) UInt8.ofNat
  refine ⟨e, e', made, made', fun equal => ?_⟩
  have parts := ((additionalData_unambiguous made made' [] []).2.2 _ _ _ _).mp equal
  rw [(additionalData_unambiguous made made' [] []).1,
    (additionalData_unambiguous made' made [] []).1] at parts
  cases parts.1

end Telekit.Codec
