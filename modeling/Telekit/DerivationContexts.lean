import Telekit.DataChannel

/-! The contexts of the key derivations. Five derivations and one signed transcript
build their context as a list of fields, each behind its length, under a label of
their own. A derivation is what it is called with; its inputs are the key material,
the salt and the info string that go into HKDF. -/

namespace Telekit

inductive Derivation
  | clientHello (masterKey : Bytes) (roomID clientID serverID : GoString) (clientNonce : Bytes)
  | serverHello (masterKey : Bytes) (roomID clientID serverID : GoString)
      (clientNonce serverNonce : Bytes)
  | session (masterKey sharedSecret salt : Bytes) (roomID clientID serverID : GoString)
      (clientNonce serverNonce clientEphemeralKey serverEphemeralKey : Bytes)
  | data (sessionKey : Bytes) (direction : Direction)
  | signaling (sessionKey : Bytes) (direction : Direction)

namespace Derivation

def derive (P : Primitives) : Derivation → Except Failure Bytes
  | clientHello masterKey roomID clientID serverID clientNonce =>
    deriveClientHelloKey P masterKey roomID clientID serverID clientNonce
  | serverHello masterKey roomID clientID serverID clientNonce serverNonce =>
    deriveServerHelloKey P masterKey roomID clientID serverID clientNonce serverNonce
  | session masterKey sharedSecret salt roomID clientID serverID clientNonce serverNonce
      clientEphemeralKey serverEphemeralKey =>
    deriveSessionKey P masterKey sharedSecret salt roomID clientID serverID clientNonce serverNonce
      clientEphemeralKey serverEphemeralKey
  | data sessionKey direction => DataChannel.deriveDataKey P sessionKey direction
  | signaling sessionKey direction => deriveSignalingKey P sessionKey direction

def keyMaterial : Derivation → Bytes
  | clientHello masterKey _ _ _ _ | serverHello masterKey _ _ _ _ _ => masterKey
  | session masterKey sharedSecret _ _ _ _ _ _ _ _ => encodeHandshakeFields [masterKey, sharedSecret]
  | data sessionKey _ | signaling sessionKey _ => sessionKey

def salt : Derivation → Bytes
  | clientHello _ _ _ _ clientNonce => clientNonce
  | serverHello _ _ _ _ _ serverNonce => serverNonce
  | session _ _ salt _ _ _ _ _ _ _ => salt
  | data _ _ | signaling _ _ => []

end Derivation

inductive Context
  | clientHello (roomID clientID serverID : GoString) (clientNonce : Bytes)
  | serverHello (roomID clientID serverID : GoString) (clientNonce serverNonce : Bytes)
  | session (roomID clientID serverID : GoString)
      (clientNonce serverNonce clientEphemeralKey serverEphemeralKey : Bytes)
  | data (direction : Direction)
  | signaling (direction : Direction)
  | transcript (roomID clientID serverID : GoString)
      (clientNonce serverNonce clientEphemeralKey serverEphemeralKey sessionSalt : Bytes)

inductive ContextKind
  | clientHello
  | serverHello
  | session
  | data
  | signaling
  | transcript
  deriving DecidableEq

def ContextKind.label : ContextKind → GoString
  | clientHello => str "telekit/client-hello-key/v1"
  | serverHello => str "telekit/server-hello-key/v1"
  | session => str "telekit/session/v3"
  | data => str "telekit/data/v1"
  | signaling => str "telekit/signaling/v1"
  | transcript => str "telekit/server-hello/v3"

theorem ContextKind.label_inj {k k' : ContextKind} (equal : k.label = k'.label) : k = k' := by
  revert equal
  cases k <;> cases k' <;> decide

namespace Context

def kind : Context → ContextKind
  | clientHello _ _ _ _ => .clientHello
  | serverHello _ _ _ _ _ => .serverHello
  | session _ _ _ _ _ _ _ => .session
  | data _ => .data
  | signaling _ => .signaling
  | transcript _ _ _ _ _ _ _ _ => .transcript

def body : Context → List Bytes
  | clientHello roomID clientID serverID clientNonce =>
    [roomID, clientID, serverID, clientNonce, str "client-to-server"]
  | serverHello roomID clientID serverID clientNonce serverNonce =>
    [roomID, clientID, serverID, clientNonce, serverNonce, str "server-to-client"]
  | session roomID clientID serverID clientNonce serverNonce clientEphemeralKey serverEphemeralKey =>
    [roomID, clientID, serverID, clientNonce, serverNonce, clientEphemeralKey, serverEphemeralKey]
  | data direction | signaling direction => [[direction.toByte]]
  | transcript roomID clientID serverID clientNonce serverNonce clientEphemeralKey
      serverEphemeralKey sessionSalt =>
    [roomID, clientID, serverID, clientNonce, serverNonce, clientEphemeralKey, serverEphemeralKey,
      sessionSalt]

def fields (context : Context) : List Bytes := context.kind.label :: context.body

def info (context : Context) : Bytes := encodeHandshakeFields context.fields

end Context

def Short (values : List Bytes) : Prop := ∀ value ∈ values, value.length < 2 ^ 32

namespace Derivation

def context : Derivation → Context
  | clientHello _ roomID clientID serverID clientNonce =>
    .clientHello roomID clientID serverID clientNonce
  | serverHello _ roomID clientID serverID clientNonce serverNonce =>
    .serverHello roomID clientID serverID clientNonce serverNonce
  | session _ _ _ roomID clientID serverID clientNonce serverNonce clientEphemeralKey
      serverEphemeralKey =>
    .session roomID clientID serverID clientNonce serverNonce clientEphemeralKey serverEphemeralKey
  | data _ direction => .data direction
  | signaling _ direction => .signaling direction

def values : Derivation → List Bytes
  | session masterKey sharedSecret salt roomID clientID serverID clientNonce serverNonce
      clientEphemeralKey serverEphemeralKey =>
    masterKey :: sharedSecret :: (session masterKey sharedSecret salt roomID clientID serverID
      clientNonce serverNonce clientEphemeralKey serverEphemeralKey).context.fields
  | d => d.context.fields

end Derivation

theorem encodeHandshakeFields_inj {xs ys : List Bytes} (left : Short xs) (right : Short ys)
    (equal : encodeHandshakeFields xs = encodeHandshakeFields ys) : xs = ys :=
  BigEndian.fields_inj left right equal

theorem Direction.toByte_inj {d d' : Direction} (equal : d.toByte = d'.toByte) : d = d' := by
  cases d <;> cases d' <;> first | rfl | cases equal

/-- The fields determine the context: the label its kind, and the rest what is in it. -/
theorem Context.fields_inj {a b : Context} (equal : a.fields = b.fields) : a = b := by
  obtain ⟨labels, bodies⟩ := List.cons.inj equal
  have kinds := ContextKind.label_inj labels
  cases a with
  | data d =>
    cases b with
    | data d' =>
      have bytes : d.toByte = d'.toByte := by simpa [Context.body] using bodies
      rw [Direction.toByte_inj bytes]
    | _ => cases kinds
  | signaling d =>
    cases b with
    | signaling d' =>
      have bytes : d.toByte = d'.toByte := by simpa [Context.body] using bodies
      rw [Direction.toByte_inj bytes]
    | _ => cases kinds
  | _ =>
    cases b <;> cases kinds
    simpa [Context.body] using bodies

theorem Context.info_inj {a b : Context} (left : Short a.fields) (right : Short b.fields)
    (equal : a.info = b.info) : a = b :=
  Context.fields_inj (encodeHandshakeFields_inj left right equal)

namespace Derivation

theorem values_context {d : Derivation} (short : Short d.values) : Short d.context.fields := by
  cases d with
  | session => exact fun value member => short value (by simp [values, member])
  | _ => exact short

theorem derive_ok {P : Primitives} {d : Derivation} {key : Bytes} (ok : d.derive P = .ok key) :
    key = P.hkdfSha256 d.keyMaterial d.salt d.context.info 32 := by
  cases d with
  | clientHello =>
    simp only [derive, deriveClientHelloKey, bind_ok, pure_ok] at ok
    obtain ⟨_, _, rfl⟩ := ok
    rfl
  | serverHello =>
    simp only [derive, deriveServerHelloKey, bind_ok, guard_ok, pure_ok] at ok
    obtain ⟨_, _, _, rfl⟩ := ok
    rfl
  | session =>
    simp only [derive, deriveSessionKey, bind_ok, guard_ok, pure_ok] at ok
    obtain ⟨_, _, _, _, _, _, _, rfl⟩ := ok
    rfl
  | data =>
    obtain ⟨_, same⟩ := DataChannel.deriveDataKey_ok ok
    exact same
  | signaling =>
    simp only [derive, deriveSignalingKey, deriveDirectionKey, guard_ok] at ok
    obtain ⟨_, same⟩ := ok
    cases same
    rfl

theorem inputs_inj {d d' : Derivation} (left : Short d.values) (right : Short d'.values)
    (material : d.keyMaterial = d'.keyMaterial) (salts : d.salt = d'.salt)
    (infos : d.context.info = d'.context.info) : d = d' := by
  have contexts := Context.info_inj (values_context left) (values_context right) infos
  cases d with
  | session masterKey sharedSecret salt =>
    cases d' with
    | session masterKey' sharedSecret' salt' =>
      have keys : [masterKey, sharedSecret] = [masterKey', sharedSecret'] :=
        encodeHandshakeFields_inj
          (fun value member => left value (by simp [values] at member ⊢; tauto))
          (fun value member => right value (by simp [values] at member ⊢; tauto)) material
      cases contexts
      cases keys
      cases salts
      rfl
    | _ => cases contexts
  | _ =>
    cases d' <;> cases contexts
    cases material
    rfl

end Derivation

/-- The encoding of field lists is injective; every derived key is HKDF of its inputs, and
these determine every parameter of the derivation, as the transcript determines its own;
and contexts of different kinds never have the same info string. -/
theorem derivation_contexts_separated :
    (∀ xs ys : List Bytes, Short xs → Short ys →
      (encodeHandshakeFields xs = encodeHandshakeFields ys ↔ xs = ys)) ∧
    (∀ (P : Primitives) (d : Derivation) (key : Bytes), d.derive P = .ok key →
      key = P.hkdfSha256 d.keyMaterial d.salt d.context.info 32) ∧
    (∀ d d' : Derivation, Short d.values → Short d'.values → d.keyMaterial = d'.keyMaterial →
      d.salt = d'.salt → d.context.info = d'.context.info → d = d') ∧
    (∀ r c s n m e f t : Bytes,
      (Context.transcript r c s n m e f t).info = serverHelloTranscript r c s n m e f t) ∧
    (∀ r r' c c' s s' n n' m m' e e' f f' t t' : Bytes, Short [r, c, s, n, m, e, f, t] →
      Short [r', c', s', n', m', e', f', t'] →
      serverHelloTranscript r c s n m e f t = serverHelloTranscript r' c' s' n' m' e' f' t' →
      r = r' ∧ c = c' ∧ s = s' ∧ n = n' ∧ m = m' ∧ e = e' ∧ f = f' ∧ t = t') ∧
    ∀ a b : Context, Short a.fields → Short b.fields → a.kind ≠ b.kind → a.info ≠ b.info := by
  refine ⟨fun xs ys left right => ⟨encodeHandshakeFields_inj left right, fun same => by rw [same]⟩,
    fun P d key ok => Derivation.derive_ok ok, fun d d' => Derivation.inputs_inj,
    fun _ _ _ _ _ _ _ _ => rfl,
    fun r r' c c' s s' n n' m m' e e' f f' t t' left right equal =>
      serverHelloTranscript_inj equal left right, fun a b left right different equal => ?_⟩
  exact different (congrArg Context.kind (Context.info_inj left right equal))

theorem derivation_contexts_separated_sample :
    (Context.data .clientToServer).info ≠ (Context.signaling .clientToServer).info ∧
      encodeHandshakeFields [[1], [2]] ≠ encodeHandshakeFields [[1, 2]] := by
  obtain ⟨lists, _, _, _, _, kinds⟩ := derivation_contexts_separated
  refine ⟨kinds _ _
    (by simp [Short, Context.fields, Context.kind, ContextKind.label, Context.body, str])
    (by simp [Short, Context.fields, Context.kind, ContextKind.label, Context.body, str]) (by decide),
    fun equal => ?_⟩
  have same := (lists [[1], [2]] [[1, 2]] (by simp [Short]) (by simp [Short])).mp equal
  cases same

end Telekit
