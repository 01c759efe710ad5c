import Telekit.HandshakeAgreement

/-! What a refused ClientHello does to the sessions of the server.
`prepareClientHello` closes the session it is about to replace as soon as the
nonce is fresh; the policy of the application, the limits and the derivation of
the keys come after that. A refusal there leaves the client without the session
it had. -/

namespace Telekit

def Connection.shut (c : Connection) : Connection :=
  if c.closeEntered then { c with closed := true }
  else { c with
    closed := true
    closeEntered := true
    established := false
    handshakeTimer := false
    pendingLease := false
    totalLease := false
    transportConn := none
    dataChannel := none
    iceAgent := none
    closeDone := true }

def Connection.releases (c : Connection) : Bool :=
  !c.closeEntered && (c.pendingLease || c.totalLease)

namespace ServerState
variable {cache : Lru.Cache Bytes Int} {s : ServerState cache} {i : Nat} {c : Connection}

@[simp] theorem removeCurrent_pool (s : ServerState cache) (i : Nat) :
    (s.removeCurrent i).pool = s.pool := by
  unfold removeCurrent
  split
  · rfl
  · split_ifs <;> rfl

@[simp] theorem removeCurrent_counters (s : ServerState cache) (i : Nat) :
    (s.removeCurrent i).totalConnections = s.totalConnections ∧
      (s.removeCurrent i).pendingHandshakes = s.pendingHandshakes := by
  unfold removeCurrent
  split
  · exact ⟨rfl, rfl⟩
  · split_ifs <;> exact ⟨rfl, rfl⟩

theorem releaseLease_eq (present : s.pool[i]? = some c) :
    s.releaseLease i = { s.update i fun c =>
        { c with handshakeTimer := false, pendingLease := false, totalLease := false } with
      pendingHandshakes := s.pendingHandshakes - (if c.pendingLease then 1 else 0)
      totalConnections := s.totalConnections - (if c.totalLease then 1 else 0) } := by
  have inside := (List.getElem?_eq_some_iff.mp present).1
  unfold releaseLease stopHandshakeTimer swapPendingLease swapTotalLease dropPending dropTotal
  simp only [update, present, List.getElem?_set, inside, if_true, List.set_set]
  cases c.pendingLease <;> cases c.totalLease <;> simp [inside, List.set_set]

theorem entered_getElem? (present : s.pool[i]? = some c) :
    (((s.storeClosed i).enterClose i).removeCurrent i).pool[i]? =
      some { c with closed := true, closeEntered := true, established := false } := by
  simp [storeClosed, enterClose, update_getElem?, present]

theorem closeConnection_pool (present : s.pool[i]? = some c) (j : Nat) :
    (s.closeConnection i).pool[j]? = if i = j then some c.shut else s.pool[j]? := by
  unfold closeConnection Connection.shut
  rw [present]
  cases entered : c.closeEntered with
  | true =>
    simp only [entered, if_true]
    rw [storeClosed, update_getElem?]
    split_ifs with same
    · rw [← same, present, Option.map_some, entered]
    · rfl
  | false =>
    simp only [entered, Bool.false_eq_true, if_false]
    rw [releaseLease_eq (entered_getElem? present)]
    simp only [leaveClose, clearState, update_getElem?, removeCurrent_pool, storeClosed, enterClose]
    split_ifs with same
    · rw [← same, present]
      rfl
    · rfl

theorem closeConnection_counters (present : s.pool[i]? = some c) :
    (s.closeConnection i).pendingHandshakes =
        s.pendingHandshakes - (if !c.closeEntered && c.pendingLease then 1 else 0) ∧
      (s.closeConnection i).totalConnections =
        s.totalConnections - (if !c.closeEntered && c.totalLease then 1 else 0) := by
  unfold closeConnection
  rw [present]
  cases entered : c.closeEntered with
  | true => simp [storeClosed, entered]
  | false =>
    simp only [entered, Bool.false_eq_true, if_false]
    rw [releaseLease_eq (entered_getElem? present)]
    simp [leaveClose, clearState, storeClosed, enterClose]

theorem removeCurrent_registry {id : GoString} {k : Nat} (registered : s.connections id = some k)
    (other : k ≠ i) : (s.removeCurrent i).connections id = some k := by
  unfold removeCurrent
  split
  · exact registered
  next c present =>
    split_ifs with current
    · have named : id ≠ c.sourceId := by
        intro same
        rw [same, current] at registered
        exact other (Option.some.inj registered).symm
      simpa [register, Function.update_of_ne named] using registered
    · exact registered

theorem closeConnection_registry {id : GoString} {k : Nat} (registered : s.connections id = some k)
    (other : k ≠ i) : (s.closeConnection i).connections id = some k := by
  unfold closeConnection
  split
  · exact registered
  next c present =>
    cases entered : c.closeEntered with
    | true =>
      simp only [if_true, storeClosed, update_connections]
      exact registered
    | false =>
      simp only [Bool.false_eq_true, if_false]
      rw [releaseLease_eq (entered_getElem? present)]
      simp only [leaveClose, clearState, update_connections]
      refine removeCurrent_registry ?_ other
      simpa [storeClosed, enterClose] using registered

/-- Every open session keeps its place in the map and its leases, and the
counters are as before. -/
structure Intact (s s' : ServerState cache) : Prop where
  sessions : ∀ (id : GoString) (i : Nat) (c : Connection), s.connections id = some i →
    s.pool[i]? = some c → c.closed = false → s'.connections id = some i ∧
      ∃ c', s'.pool[i]? = some c' ∧ c'.closed = false ∧ c'.pendingLease = c.pendingLease ∧
        c'.totalLease = c.totalLease
  pending : s'.pendingHandshakes = s.pendingHandshakes
  total : s'.totalConnections = s.totalConnections

theorem intact_nonces (s : ServerState cache) (nonces : cache.State) :
    Intact s { s with nonceCache := nonces } :=
  ⟨fun _ _ c registered present isOpen => ⟨registered, c, present, isOpen, rfl, rfl⟩, rfl, rfl⟩

theorem closeConnection_intact_iff (present : s.pool[i]? = some c) {id : GoString}
    (registered : s.connections id = some i) :
    Intact s (s.closeConnection i) ↔ c.closed = true ∧ c.releases = false := by
  obtain ⟨pending, total⟩ := closeConnection_counters present
  constructor
  · intro intact
    refine ⟨?_, ?_⟩
    · by_contra isOpen
      obtain ⟨_, c', found, still, _⟩ :=
        intact.sessions id i c registered present (by simpa using isOpen)
      rw [closeConnection_pool present, if_pos rfl] at found
      cases found
      unfold Connection.shut at still
      split_ifs at still
    · have samePending := intact.pending
      have sameTotal := intact.total
      rw [pending] at samePending
      rw [total] at sameTotal
      split_ifs at samePending with pendingHeld
      · omega
      · split_ifs at sameTotal with totalHeld
        · omega
        · rw [Connection.releases, Bool.and_or_distrib_left, Bool.eq_false_of_not_eq_true pendingHeld,
            Bool.eq_false_of_not_eq_true totalHeld]
          rfl
  · rintro ⟨shut, held⟩
    unfold Connection.releases at held
    refine ⟨fun id' k c' registered' present' isOpen => ?_, ?_, ?_⟩
    · have other : k ≠ i := by
        intro same
        rw [same, present] at present'
        cases present'
        rw [shut] at isOpen
        cases isOpen
      refine ⟨closeConnection_registry registered' other, c', ?_, isOpen, rfl, rfl⟩
      rw [closeConnection_pool present, if_neg (Ne.symm other)]
      exact present'
    · rw [pending]
      cases entered : c.closeEntered <;> cases lease : c.pendingLease <;> simp_all
    · rw [total]
      cases entered : c.closeEntered <;> cases lease : c.totalLease <;> simp_all

section Hello
variable {P : Primitives} (server : Server P)

def nonceReplayed (s : ServerState cache) (nonce : Bytes) (lookupTime : Int) : Bool :=
  (cache.get s.nonceCache nonce).1.any fun t =>
    decide (lookupTime - t * millisecond < server.options.replayProtection)

theorem isNonceAvailable_fst (s : ServerState cache) (nonce : Bytes) (lookupTime addTime : Int) :
    (s.isNonceAvailable server nonce lookupTime addTime).1 =
      !s.nonceReplayed server nonce lookupTime := by
  unfold isNonceAvailable nonceReplayed
  cases cache.get s.nonceCache nonce with
  | mk found nonceCache =>
    cases found with
    | none => rfl
    | some t =>
      simp only [Option.any_some]
      split_ifs with replayed
      · simp [replayed]
      · simp [replayed]

/-- An authentic hello with a fresh nonce finds an open session of its client, or
one that has not given back its leases. -/
def Replaces (s : ServerState cache) (input : HelloInput) (data : Bytes) : Prop :=
  ∃ hello i c, server.authenticate input.proofRandom input.skewTime data = .ok (some hello) ∧
    s.connections hello.sourceId = some i ∧ s.pool[i]? = some c ∧
    (c.closed = false ∨ c.releases = true) ∧
    s.nonceReplayed server hello.nonce input.lookupTime = false

variable {server}

theorem replaced_intact_iff {s : ServerState cache} {hello : Hello} {nonces : cache.State} :
    Intact s ((s.connections hello.sourceId).elim { s with nonceCache := nonces }
        (closeConnection { s with nonceCache := nonces })) ↔
      ∀ i, s.connections hello.sourceId = some i → ∀ c, s.pool[i]? = some c →
        c.closed = true ∧ c.releases = false := by
  cases registered : s.connections hello.sourceId with
  | none => simpa using intact_nonces s nonces
  | some i =>
    simp only [Option.elim_some, Option.some.injEq, forall_eq']
    cases present : s.pool[i]? with
    | none =>
      have same : closeConnection { s with nonceCache := nonces } i =
          { s with nonceCache := nonces } := by
        simp [closeConnection, present]
      simpa [same, present] using intact_nonces s nonces
    | some c =>
      simp only [Option.some.injEq, forall_eq']
      have closing := closeConnection_intact_iff (s := { s with nonceCache := nonces }) present
        registered
      rw [← closing]
      exact ⟨fun intact => ⟨intact.sessions, intact.pending, intact.total⟩,
        fun intact => ⟨intact.sessions, intact.pending, intact.total⟩⟩

theorem Handled.intact_iff {s s' : ServerState cache} {input : HelloInput} {data : Bytes}
    {result : Except Failure (Option Nat)} (handled : Handled server s input data result s')
    {err : Failure} (failed : result = .error err) :
    Intact s s' ↔ ¬ s.Replaces server input data := by
  cases handled with
  | reused | created => cases failed
  | refused unauthentic nothing =>
    refine ⟨fun _ => ?_, fun _ => intact_nonces _ _⟩
    rintro ⟨hello, _, _, authentic, _⟩
    exact unauthentic hello authentic
  | @replayed hello _ _ authentic new stale =>
    obtain ⟨nonces, after⟩ :=
      s.isNonceAvailable_snd server hello.nonce input.lookupTime input.addTime
    have seen := s.isNonceAvailable_fst server hello.nonce input.lookupTime input.addTime
    rw [stale] at after seen
    have kept : Intact s s' := by
      rw [show s' = { s with nonceCache := nonces } from after]
      exact intact_nonces s nonces
    refine ⟨fun _ => ?_, fun _ => kept⟩
    rintro ⟨hello', _, _, authentic', _, _, _, fresh⟩
    rw [authentic] at authentic'
    cases authentic'
    rw [fresh] at seen
    cases seen
  | @rejected hello _ s₁ _ authentic new fresh replaced =>
    obtain ⟨nonces, after⟩ :=
      s.isNonceAvailable_snd server hello.nonce input.lookupTime input.addTime
    have unseen := s.isNonceAvailable_fst server hello.nonce input.lookupTime input.addTime
    rw [fresh] at after unseen
    simp only at after
    rw [replaced, after, replaced_intact_iff]
    constructor
    · rintro spared ⟨hello', i, c, authentic', registered, present, found, _⟩
      rw [authentic] at authentic'
      cases authentic'
      obtain ⟨shut, held⟩ := spared i registered c present
      simp [shut, held] at found
    · intro spared i registered c present
      by_contra found
      refine spared ⟨hello, i, c, authentic, registered, present, ?_, by simpa using unseen.symm⟩
      by_contra neither
      simp only [not_or, Bool.not_eq_false, Bool.not_eq_true] at neither
      exact found neither

/-- A refused hello leaves every session intact unless it has got so far as to
replace one. -/
theorem rejected_hello_intact_iff {s s' : ServerState cache} {input : HelloInput} {data : Bytes}
    {err : Failure} (rejected : s.handleClientHello server input data = (.error err, s')) :
    Intact s s' ↔ ¬ s.Replaces server input data := by
  have handled := s.handleClientHello_handled server input data
  rw [rejected] at handled
  exact handled.intact_iff rfl

end Hello

namespace Sample

def secondHello : Bytes :=
  match Plain.client.buildClientHello Plain.primitives (fun n => UInt8.ofNat (n + 1))
      (List.replicate 32 6) UInt8.ofNat 5000 with
  | .ok attempt => attempt.message
  | .error _ => []

def serving : ServerState Plain.nonces :=
  ((ServerState.start Plain.nonces).onHello Plain.server true (Plain.helloInput 6000)
    Plain.attempt.message).2

def refusing : HelloInput := { Plain.helloInput 7000 with join := false }

end Sample

theorem rejected_hello_intact_sample : ∃ s' err,
    Sample.serving.handleClientHello Plain.server (Plain.helloInput (10 ^ 18)) Sample.secondHello =
      (.error err, s') ∧ Sample.serving.connections (str "station") = some 0 ∧
      Intact Sample.serving s' := by
  have evaluated : (Plain.server.authenticate (Plain.helloInput (10 ^ 18)).proofRandom
      (Plain.helloInput (10 ^ 18)).skewTime Sample.secondHello).isOk = false ∧
      (Sample.serving.handleClientHello Plain.server (Plain.helloInput (10 ^ 18))
        Sample.secondHello).1.isOk = false ∧
      Sample.serving.connections (str "station") = some 0 := by decide +kernel
  obtain ⟨refused, failed, registered⟩ := evaluated
  cases result : Sample.serving.handleClientHello Plain.server (Plain.helloInput (10 ^ 18))
      Sample.secondHello with
  | mk outcome s' =>
    rw [result] at failed
    cases outcome with
    | ok value => cases failed
    | error err =>
      refine ⟨s', err, rfl, registered, (rejected_hello_intact_iff result).mpr ?_⟩
      rintro ⟨hello, _, _, authentic, _⟩
      rw [authentic] at refused
      cases refused

/-- A hello that the application refuses has ended the session of its client. -/
theorem refused_hello_ends_session : ∃ s' err c c',
    Sample.serving.handleClientHello Plain.server Sample.refusing Sample.secondHello =
      (.error err, s') ∧ Sample.serving.connections (str "station") = some 0 ∧
    Sample.serving.pool[0]? = some c ∧ c.closed = false ∧ c.totalLease = true ∧
    s'.connections (str "station") = none ∧ s'.pool[0]? = some c' ∧ c'.closed = true ∧
    c'.totalLease = false ∧ s'.totalConnections = Sample.serving.totalConnections - 1 := by
  have evaluated : (Sample.serving.handleClientHello Plain.server Sample.refusing
        Sample.secondHello).1.isOk = false ∧
      Sample.serving.connections (str "station") = some 0 ∧
      (Sample.serving.pool[0]?.any fun (c : Connection) => !c.closed && c.totalLease) = true ∧
      (Sample.serving.handleClientHello Plain.server Sample.refusing
        Sample.secondHello).2.connections (str "station") = none ∧
      ((Sample.serving.handleClientHello Plain.server Sample.refusing
        Sample.secondHello).2.pool[0]?.any fun (c : Connection) =>
          c.closed && !c.totalLease) = true ∧
      (Sample.serving.handleClientHello Plain.server Sample.refusing
        Sample.secondHello).2.totalConnections = Sample.serving.totalConnections - 1 := by
    decide +kernel
  generalize Sample.serving.handleClientHello Plain.server Sample.refusing Sample.secondHello =
    result at evaluated
  obtain ⟨failed, registered, before, removed, after, total⟩ := evaluated
  obtain ⟨c, present, held⟩ := (Option.any_eq_true _ _).mp before
  obtain ⟨c', present', shut⟩ := (Option.any_eq_true _ _).mp after
  simp only [Bool.and_eq_true, Bool.not_eq_true'] at held shut
  cases result with
  | mk outcome s' =>
    cases outcome with
    | ok value => cases failed
    | error err =>
      exact ⟨s', err, c, c', rfl, registered, present, held.1, held.2, removed, present', shut.1,
        shut.2, total⟩

end ServerState
end Telekit
