import Mathlib.Logic.Function.Basic
import Telekit.DataChannel
import Telekit.PlainPrimitives

/-! Two data channels of one session under arbitrary calls. A run records what
each end encrypted, which frames it sealed and which frames its `OpenFrame`
returned. The ciphertexts given to `OpenFrame` are arbitrary; the cipher is
ideal in the sense that a ciphertext opens only if it was recorded under the
same key and associated data. The associated data carries direction and
sequence, so it alone identifies the frame. -/

namespace Telekit

theorem DataRole.sendDirection_inj {a b : DataRole} (equal : a.sendDirection = b.sendDirection) :
    a = b := by
  revert equal
  cases a <;> cases b <;> simp [sendDirection]

variable {aad : Bytes}

theorem Codec.buildAdditionalData_inj {c c' : Bytes} {domain : UInt8} (size : c.length = c'.length)
    (equal : buildAdditionalData aad domain c = buildAdditionalData aad domain c') : c = c' := by
  simp only [buildAdditionalData, size] at equal
  exact List.append_cancel_left equal

namespace DataSession
variable (P : Primitives)

structure Encryption where
  typ : EncryptionType
  key : Bytes
  aad : Bytes
  plaintext : Bytes
  ciphertext : Bytes
  deriving DecidableEq

structure Frame where
  role : DataRole
  sequence : UInt64
  frameType : DataFrameType
  plaintext : Bytes
  deriving DecidableEq

def Frame.id (f : Frame) : DataRole × UInt64 := (f.role, f.sequence)

inductive Call
  | sealApplication (role : DataRole) (plaintext : Bytes)
  | sealHeartbeat (role : DataRole)
  | openFrame (role : DataRole) (sequence : UInt64) (ciphertext : Bytes) (maxDecodedSize : Int)

structure Session where
  channel : DataRole → DataChannel
  encryptions : List Encryption := []
  sealed : List Frame := []
  opened : List Frame := []

def start (client server : DataChannel) : Session where
  channel
    | .client => client
    | .server => server

def Session.setChannel (s : Session) (role : DataRole) (c : DataChannel) : Session :=
  { s with channel := Function.update s.channel role c }

def encryptionOf (codec : Codec) (context plaintext ciphertext : Bytes) : List Encryption :=
  match codec.encryptionKit with
  | none => []
  | some kit =>
    [⟨kit.typ, kit.key, codec.additionalDataFor aadDomainData context, plaintext, ciphertext⟩]

def sealStep (s : Session) (role : DataRole) (frameType : DataFrameType) (plaintext : Bytes) :
    Session :=
  match (s.channel role).sealFrame P frameType plaintext with
  | (.error _, c) => s.setChannel role c
  | (.ok (sequence, ciphertext), c) =>
    { s.setChannel role c with
      encryptions := encryptionOf (s.channel role).sendCodec
        (dataFrameContext (s.channel role).sendDirection sequence)
        (frameType.toByte :: plaintext) ciphertext ++ s.encryptions
      sealed := ⟨role, sequence, frameType, plaintext⟩ :: s.sealed }

def openStep (s : Session) (role : DataRole) (sequence : UInt64) (ciphertext : Bytes)
    (maxDecodedSize : Int) : Session :=
  match (s.channel role).openFrame P sequence ciphertext maxDecodedSize with
  | (.error _, c) => s.setChannel role c
  | (.ok (frameType, plaintext), c) =>
    { s.setChannel role c with opened := ⟨role, sequence, frameType, plaintext⟩ :: s.opened }

def step (s : Session) : Call → Session
  | .sealApplication role plaintext => sealStep P s role .application plaintext
  | .sealHeartbeat role => sealStep P s role .heartbeat []
  | .openFrame role sequence ciphertext limit => openStep P s role sequence ciphertext limit

def run (s : Session) (calls : List Call) : Session := calls.foldl (step P) s

/-- The ciphertext of an `OpenFrame` call opens under the receive key only if
that key encrypted it before, with the same associated data. -/
def IdealCall (s : Session) : Call → Prop
  | .openFrame role sequence ciphertext _ =>
    let aad := (s.channel role).receiveCodec.additionalDataFor aadDomainData
      (dataFrameContext (s.channel role).receiveDirection sequence)
    ∀ kit ∈ (s.channel role).receiveCodec.encryptionKit,
      ∀ plaintext ∈ (kit.decrypt P ciphertext aad).toOption,
        (⟨kit.typ, kit.key, aad, plaintext, ciphertext⟩ : Encryption) ∈ s.encryptions
  | _ => True

def IdealRun (s : Session) : List Call → Prop
  | [] => True
  | call :: rest => IdealCall P s call ∧ IdealRun (step P s call) rest

instance (s : Session) : (call : Call) → Decidable (IdealCall P s call)
  | .sealApplication _ _ => inferInstanceAs (Decidable True)
  | .sealHeartbeat _ => inferInstanceAs (Decidable True)
  | .openFrame role sequence ciphertext _ =>
    inferInstanceAs (Decidable (∀ kit ∈ (s.channel role).receiveCodec.encryptionKit,
      ∀ plaintext ∈ (kit.decrypt P ciphertext
          ((s.channel role).receiveCodec.additionalDataFor aadDomainData
            (dataFrameContext (s.channel role).receiveDirection sequence))).toOption,
        (⟨kit.typ, kit.key, _, plaintext, ciphertext⟩ : Encryption) ∈ s.encryptions))

instance (s : Session) : (calls : List Call) → Decidable (IdealRun P s calls)
  | [] => inferInstanceAs (Decidable True)
  | call :: rest =>
    have := instDecidableIdealRun (step P s call) rest
    inferInstanceAs (Decidable (IdealCall P s call ∧ IdealRun P (step P s call) rest))

def Matches (opened sealed : Frame) : Prop :=
  sealed.role = opened.role.peer ∧ sealed.sequence = opened.sequence ∧
    sealed.frameType = opened.frameType ∧ sealed.plaintext = opened.plaintext

def history (opened : List Frame) (role : DataRole) : List UInt64 :=
  (opened.filter fun f => f.role = role).map Frame.sequence

structure Shape (aad : Bytes) (role : DataRole) (c : DataChannel) : Prop where
  sendData : c.sendCodec.additionalData = aad
  receiveData : c.receiveCodec.additionalData = aad
  sendDirection : c.sendDirection = role.sendDirection
  receiveDirection : c.receiveDirection = role.receiveDirection

structure Invariant (aad : Bytes) (s : Session) : Prop where
  shape : ∀ role, Shape aad role (s.channel role)
  logged : ∀ e ∈ s.encryptions, ∃ g ∈ s.sealed,
    e.aad = Codec.buildAdditionalData aad aadDomainData
      (dataFrameContext g.role.sendDirection g.sequence) ∧
    e.plaintext = g.frameType.toByte :: g.plaintext
  sent : ∀ g ∈ s.sealed, g.sequence.toNat ≤ (s.channel g.role).sendSequence.toNat
  sealedOnce : (s.sealed.map Frame.id).Nodup
  matched : ∀ f ∈ s.opened, ∃ g ∈ s.sealed, Matches f g
  openedOnce : (s.opened.map Frame.id).Nodup
  tracks : ∀ role, ReplayWindow.Tracks (s.channel role).receiveWindow (history s.opened role)

variable {P}

theorem additionalDataFor_context (codec : Codec) (direction : Direction) (sequence : UInt64) :
    codec.additionalDataFor aadDomainData (dataFrameContext direction sequence) =
      Codec.buildAdditionalData codec.additionalData aadDomainData
        (dataFrameContext direction sequence) := by
  simp [Codec.additionalDataFor, dataFrameContext_length]

theorem new_shape {typ : EncryptionType} {sessionKey : Bytes} {role : DataRole} {r₁ r₂ : Random}
    {c : DataChannel} (ok : DataChannel.new P typ sessionKey aad role r₁ r₂ = .ok c) :
    Shape aad role c := by
  obtain ⟨_, _, _, _, sendCodec, receiveCodec, hs, hr, _, _⟩ := DataChannel.new_ok ok
  obtain ⟨_, _, send⟩ := Codec.new_ok sendCodec
  obtain ⟨_, _, receive⟩ := Codec.new_ok receiveCodec
  exact ⟨by rw [send], by rw [receive], hs, hr⟩

theorem start_invariant {typ : EncryptionType} {sessionKey : Bytes} {r₁ r₂ r₃ r₄ : Random}
    {client server : DataChannel}
    (hc : DataChannel.new P typ sessionKey aad .client r₁ r₂ = .ok client)
    (hs : DataChannel.new P typ sessionKey aad .server r₃ r₄ = .ok server) :
    Invariant aad (start client server) where
  shape
    | .client => new_shape hc
    | .server => new_shape hs
  logged := by simp [start]
  sent := by simp [start]
  sealedOnce := by simp [start]
  matched := by simp [start]
  openedOnce := by simp [start]
  tracks
    | .client => by
      obtain ⟨_, _, _, _, _, _, _, _, _, window⟩ := DataChannel.new_ok hc
      simpa [start, history, window] using ReplayWindow.tracks_empty
    | .server => by
      obtain ⟨_, _, _, _, _, _, _, _, _, window⟩ := DataChannel.new_ok hs
      simpa [start, history, window] using ReplayWindow.tracks_empty

variable {s : Session}

theorem Invariant.setChannel (inv : Invariant aad s) (role : DataRole) {c : DataChannel}
    (shape : Shape aad role c)
    (forward : (s.channel role).sendSequence.toNat ≤ c.sendSequence.toNat)
    (window : c.receiveWindow = (s.channel role).receiveWindow) :
    Invariant aad (s.setChannel role c) where
  shape other := by
    by_cases same : other = role
    · rw [same]
      simpa [Session.setChannel] using shape
    · simpa [Session.setChannel, same] using inv.shape other
  logged := inv.logged
  sent g member := by
    have before := inv.sent g member
    by_cases same : g.role = role
    · simp only [Session.setChannel, same, Function.update_self] at before ⊢
      omega
    · simpa [Session.setChannel, same] using before
  sealedOnce := inv.sealedOnce
  matched := inv.matched
  openedOnce := inv.openedOnce
  tracks other := by
    by_cases same : other = role
    · rw [same]
      simpa [Session.setChannel, window] using inv.tracks role
    · simpa [Session.setChannel, same] using inv.tracks other

theorem sealStep_invariant (inv : Invariant aad s) (role : DataRole) (frameType : DataFrameType)
    (plaintext : Bytes) : Invariant aad (sealStep P s role frameType plaintext) := by
  unfold sealStep
  split
  next err c result =>
    rcases DataChannel.sealFrame_error result with same | ⟨more, spent⟩
    · exact inv.setChannel role (same ▸ inv.shape role) (by rw [same]) (by rw [same])
    · have next := DataChannel.next_toNat more
      exact inv.setChannel role (spent ▸ ⟨(inv.shape role).1, (inv.shape role).2,
        (inv.shape role).3, (inv.shape role).4⟩) (by rw [spent]; simp only; omega) (by rw [spent])
  next sequence ciphertext c result =>
    obtain ⟨more, rfl, codec, encoded, rfl⟩ := DataChannel.sealFrame_ok result
    obtain ⟨kit, kit', present, _, rfl⟩ := Codec.encodeWithEncryption_ok encoded
    have next := DataChannel.next_toNat more
    have shape := inv.shape role
    have moved := inv.setChannel role
      (c := { s.channel role with
        sendSequence := (s.channel role).sendSequence + 1
        sendCodec := { (s.channel role).sendCodec with encryptionKit := some kit' } })
      ⟨shape.1, shape.2, shape.3, shape.4⟩ (by simp only; omega) rfl
    have fresh : (role, (s.channel role).sendSequence + 1) ∉ s.sealed.map Frame.id := by
      intro old
      obtain ⟨g, member, id⟩ := List.mem_map.mp old
      simp only [Frame.id, Prod.mk.injEq] at id
      have bound := inv.sent g member
      rw [id.1, id.2] at bound
      omega
    refine ⟨moved.shape, ?_, ?_, ?_, ?_, moved.openedOnce, moved.tracks⟩
    · intro e member
      rcases List.mem_append.mp member with new | old
      · simp only [encryptionOf, present, List.mem_singleton] at new
        refine ⟨_, List.mem_cons_self, ?_, ?_⟩
        · rw [new, additionalDataFor_context, shape.sendData, shape.sendDirection]
        · rw [new]
      · obtain ⟨g, hg, rest⟩ := inv.logged e old
        exact ⟨g, List.mem_cons_of_mem _ hg, rest⟩
    · intro g member
      rcases List.mem_cons.mp member with rfl | old
      · simp [Session.setChannel]
      · exact moved.sent g old
    · exact List.nodup_cons.mpr ⟨fresh, inv.sealedOnce⟩
    · intro f member
      obtain ⟨g, hg, rest⟩ := inv.matched f member
      exact ⟨g, List.mem_cons_of_mem _ hg, rest⟩

theorem opened_was_sealed (inv : Invariant aad s) {role : DataRole} {sequence : UInt64}
    {ciphertext plaintext : Bytes} {limit : Int} {t : DataFrameType} {c : DataChannel}
    (ideal : IdealCall P s (.openFrame role sequence ciphertext limit))
    (ok : (s.channel role).openFrame P sequence ciphertext limit = (.ok (t, plaintext), c)) :
    ∃ g ∈ s.sealed, Matches ⟨role, sequence, t, plaintext⟩ g := by
  obtain ⟨_, decoded, _, _⟩ := DataChannel.openFrame_ok ok
  obtain ⟨kit, present, opened, _⟩ := Codec.decodeWithDecryption_ok decoded
  obtain ⟨g, member, context, content⟩ := inv.logged _
    (ideal kit present _ (by rw [opened]; rfl))
  have shape := inv.shape role
  simp only [additionalDataFor_context, shape.receiveData, shape.receiveDirection] at context
  have equal := Codec.buildAdditionalData_inj (by simp only [dataFrameContext_length]) context
  obtain ⟨direction, number⟩ := dataFrameContext_inj equal
  simp only [List.cons.injEq] at content
  refine ⟨g, member, ?_, number.symm, ?_, content.2.symm⟩
  · apply DataRole.sendDirection_inj
    rw [DataRole.peer_sendDirection, direction]
  · have known := DataFrameType.ofByte_toByte t
    rw [content.1, DataFrameType.ofByte_toByte] at known
    exact Option.some.inj known

theorem openStep_invariant (inv : Invariant aad s) {role : DataRole} {sequence : UInt64}
    {ciphertext : Bytes} {limit : Int}
    (ideal : IdealCall P s (.openFrame role sequence ciphertext limit)) :
    Invariant aad (openStep P s role sequence ciphertext limit) := by
  unfold openStep
  split
  next err c result =>
    have same := DataChannel.openFrame_error result
    exact inv.setChannel role (same ▸ inv.shape role) (by rw [same]) (by rw [same])
  next t plaintext c result =>
    have wasSealed := opened_was_sealed inv ideal result
    obtain ⟨_, _, accepted, rfl⟩ := DataChannel.openFrame_ok result
    obtain ⟨fresh, tracks⟩ := ReplayWindow.accept_true (inv.tracks role) accepted
    have shape := inv.shape role
    refine ⟨?_, inv.logged, ?_, inv.sealedOnce, ?_, ?_, ?_⟩
    · intro other
      by_cases same : other = role
      · rw [same]
        simpa [Session.setChannel] using
          (⟨shape.1, shape.2, shape.3, shape.4⟩ : Shape aad role { s.channel role with
            receiveWindow := ((s.channel role).receiveWindow.accept sequence).2 })
      · simpa [Session.setChannel, same] using inv.shape other
    · intro g member
      have before := inv.sent g member
      by_cases same : g.role = role
      · simpa [Session.setChannel, same] using before
      · simpa [Session.setChannel, same] using before
    · intro f member
      rcases List.mem_cons.mp member with rfl | old
      · exact wasSealed
      · exact inv.matched f old
    · refine List.nodup_cons.mpr ⟨?_, inv.openedOnce⟩
      intro old
      obtain ⟨f, member, id⟩ := List.mem_map.mp old
      simp only [Frame.id, Prod.mk.injEq] at id
      apply fresh.2.1
      exact List.mem_map.mpr ⟨f, List.mem_filter.mpr ⟨member, by simp [id.1]⟩, id.2⟩
    · intro other
      by_cases same : other = role
      · rw [same]
        simpa [Session.setChannel, history] using tracks
      · have different : ¬ role = other := fun h => same h.symm
        simpa [Session.setChannel, same, history, different] using inv.tracks other

theorem step_invariant (inv : Invariant aad s) {call : Call} (ideal : IdealCall P s call) :
    Invariant aad (step P s call) := by
  cases call with
  | sealApplication role plaintext => exact sealStep_invariant inv role .application plaintext
  | sealHeartbeat role => exact sealStep_invariant inv role .heartbeat []
  | openFrame role sequence ciphertext limit => exact openStep_invariant inv ideal

theorem run_invariant (inv : Invariant aad s) {calls : List Call} (ideal : IdealRun P s calls) :
    Invariant aad (run P s calls) := by
  induction calls generalizing s with
  | nil => exact inv
  | cons call rest ih => exact ih (step_invariant inv ideal.1) ideal.2

/-- In every run of the two channels of one session, `OpenFrame` returns only
what the opposite end sealed under that sequence number, no frame is returned
twice, and a call that fails leaves the replay window as it was. -/
theorem openFrame_returns_sealed_once {typ : EncryptionType} {sessionKey aad : Bytes}
    {r₁ r₂ r₃ r₄ : Random} {client server : DataChannel}
    (hc : DataChannel.new P typ sessionKey aad .client r₁ r₂ = .ok client)
    (hs : DataChannel.new P typ sessionKey aad .server r₃ r₄ = .ok server)
    (calls : List Call) (ideal : IdealRun P (start client server) calls) :
    (∀ f ∈ (run P (start client server) calls).opened,
      ∃ g ∈ (run P (start client server) calls).sealed, Matches f g) ∧
    ((run P (start client server) calls).sealed.map Frame.id).Nodup ∧
    ((run P (start client server) calls).opened.map Frame.id).Nodup ∧
    ∀ role sequence ciphertext limit err c,
      ((run P (start client server) calls).channel role).openFrame P sequence ciphertext limit =
        (.error err, c) →
      c.receiveWindow = ((run P (start client server) calls).channel role).receiveWindow := by
  have inv := run_invariant (start_invariant hc hs) ideal
  refine ⟨inv.matched, inv.sealedOnce, inv.openedOnce, ?_⟩
  intro role sequence ciphertext limit err c failed
  rw [DataChannel.openFrame_error failed]

/-- One frame from the client, delivered to the server under a wrong sequence
number, correctly, and once more, and then reflected to the client. -/
def tamperedCalls : List Call :=
  let frame : Bytes := [0, 1, 2, 3, 0, 0, 0, 0, 0, 0, 0, 1, 1, 104, 105, 112, 143, 174, 205, 236,
    11, 42, 73, 104, 135, 166, 197, 228, 3, 34, 65]
  [.sealApplication .client [104, 105], .openFrame .server 2 frame 64,
    .openFrame .server 1 frame 64, .openFrame .server 1 frame 64, .openFrame .client 1 frame 64]

theorem openFrame_returns_tampered_once : ∃ client server,
    DataChannel.new Plain.primitives .chacha20Poly1305 [7] [] .client UInt8.ofNat UInt8.ofNat =
      .ok client ∧
    DataChannel.new Plain.primitives .chacha20Poly1305 [7] [] .server UInt8.ofNat UInt8.ofNat =
      .ok server ∧
    IdealRun Plain.primitives (start client server) tamperedCalls ∧
    (run Plain.primitives (start client server) tamperedCalls).opened =
      [⟨.server, 1, .application, [104, 105]⟩] ∧
    ∀ f ∈ (run Plain.primitives (start client server) tamperedCalls).opened,
      ∃ g ∈ (run Plain.primitives (start client server) tamperedCalls).sealed, Matches f g := by
  have hc : DataChannel.new Plain.primitives .chacha20Poly1305 [7] [] .client UInt8.ofNat
      UInt8.ofNat = .ok _ := rfl
  have hs : DataChannel.new Plain.primitives .chacha20Poly1305 [7] [] .server UInt8.ofNat
      UInt8.ofNat = .ok _ := rfl
  refine ⟨_, _, hc, hs, by decide +kernel, by decide +kernel, ?_⟩
  exact (openFrame_returns_sealed_once hc hs tamperedCalls (by decide +kernel)).1

end DataSession
end Telekit
