import Mathlib.Data.List.Pairwise
import Telekit.ClientSteps
import Telekit.NegotiationOwnership
import Telekit.ServerDisclosure

/-! What the parties disclose, and when. For the server `ServerDisclosure` has the
history that every disclosure rests on. The client is followed here: its steps are
projected to the handshakes it has in hand and to its log. A handshake comes into
its channel only when `handleServerHello` accepts a packet for the attempt, and
only an attempt that took one from the channel gets as far as a publication. -/

namespace Telekit
namespace ClientMachine
open Interleaving

structure Sessions where
  hello : Nat → Option ClientHandshake
  handshakeCh : Nat → Option ServerHandshake
  log : List SessionEvent

def Shared.sessions (s : Shared) : Sessions := ⟨s.hello, s.handshakeCh, s.log⟩

def Negotiation.handshake? : Negotiation → Option ServerHandshake
  | .build | .publishHello | .waitHello => none
  | .setSession handshake | .checkTransport handshake | .publishSelect handshake
  | .newAgent handshake | .installAgent handshake | .gather handshake
  | .publishOffer handshake _ | .waitAnswer handshake | .dial handshake
  | .setTransport handshake => some handshake

def Thread.session? : Thread → Option (Nat × ServerHandshake)
  | .connect _ id (.negotiate pos) => pos.handshake?.map (id, ·)
  | _ => none

/-- What a step of a thread does to the sessions: the sessions and what the thread
has in hand, before and after. -/
inductive Proceeds (a : Sessions) (held : Option (Nat × ServerHandshake)) :
    Sessions → Option (Nat × ServerHandshake) → Prop
  | rests {after : Option (Nat × ServerHandshake)} (kept : after = none ∨ after = held) :
      Proceeds a held a after
  | starts (id : Nat) (hello : ClientHandshake) :
      Proceeds a held
        { a with
          hello := Function.update a.hello id (some hello)
          log := a.log ++ [.started id hello] } none
  | takes {id : Nat} {handshake : ServerHandshake} (waiting : a.handshakeCh id = some handshake) :
      Proceeds a held { a with handshakeCh := Function.update a.handshakeCh id none }
        (some (id, handshake))
  | calls {id : Nat} {handshake : ServerHandshake} (what : Publication)
      {after : Option (Nat × ServerHandshake)} (holds : held = some (id, handshake))
      (kept : after = none ∨ after = held) :
      Proceeds a held { a with log := a.log ++ [.called id what] } after

section Steps
variable {P : Primitives} {client : Client} {s s' : Shared} {t t' : Thread} {spawned : List Thread}
  {caller : Caller} {id : Nat}

theorem Caller.resume_session (caller : Caller) (id : Nat) (ok : Bool) :
    (caller.resume id ok).session? = none := by
  cases caller with
  | user => rfl
  | loop generation origin => cases ok <;> rfl

theorem After.resume_session (after : After) (ok : Bool) : (after.resume ok).session? = none := by
  cases after with
  | reconnect => cases ok <;> rfl
  | _ => rfl

theorem NegotiateSteps.proceeds {pos : Negotiation} (steps : NegotiateSteps s caller id pos s' t') :
    Proceeds s.sessions (Thread.connect caller id (.negotiate pos)).session? s'.sessions
      t'.session? := by
  cases steps with
  | builds hello => exact .starts id hello
  | takes waiting => exact .takes waiting
  | selects codec sequence goes | offers description codec sequence goes =>
    refine .calls _ rfl ?_
    rcases goes with rfl | rfl
    · exact .inr rfl
    · exact .inl rfl
  | givesUp | greets | refusesAgent | installs | refusesTransport => exact .rests (.inl rfl)
  | _ => exact .rests (.inr rfl)

theorem ConnectSteps.proceeds {pos : ConnectPos}
    (steps : ConnectSteps s caller id pos s' t' spawned) :
    Proceeds s.sessions (Thread.connect caller id pos).session? s'.sessions t'.session? ∧
      ∀ u ∈ spawned, u.session? = none := by
  cases steps with
  | negotiates steps => exact ⟨steps.proceeds, by simp⟩
  | leaves ok => exact ⟨.rests (.inl (caller.resume_session id ok)), by simp⟩
  | _ => exact ⟨.rests (.inl rfl), by simp [Thread.session?]⟩

theorem Steps.proceeds (steps : Steps P client s t s' t' spawned) :
    Proceeds s.sessions t.session? s'.sessions t'.session? ∧ ∀ u ∈ spawned, u.session? = none := by
  cases steps with
  | refused caller => exact ⟨.rests (.inl (caller.resume_session 0 false)), by simp⟩
  | connect steps => exact steps.proceeds
  | disconnect steps =>
    cases steps with
    | closes => exact ⟨.rests (.inl (After.resume_session _ _)), by simp⟩
    | _ => exact ⟨.rests (.inl rfl), by simp⟩
  | monitors goes =>
    refine ⟨.rests (.inl ?_), by simp⟩
    rcases goes with rfl | rfl | rfl <;> rfl
  | finish steps =>
    cases steps with
    | decides generation goes =>
      refine ⟨.rests (.inl rfl), ?_⟩
      rcases goes with rfl | rfl <;> simp [Thread.session?]
    | _ => exact ⟨.rests (.inl rfl), by simp⟩
  | loops goes =>
    refine ⟨.rests (.inl ?_), by simp⟩
    rcases goes with rfl | ⟨_, rfl⟩ | rfl <;> rfl
  | answer steps =>
    cases steps with
    | accepts goes => exact ⟨.rests (.inl (by rcases goes with rfl | rfl <;> rfl)), by simp⟩
    | _ => exact ⟨.rests (.inl rfl), by simp⟩
  | _ => exact ⟨.rests (.inl rfl), by simp⟩

end Steps

section Runs
variable (P : Primitives) (client : Client) (options : ClientOptions)

def Accepted (log : List SessionEvent) (id : Nat) (handshake : ServerHandshake) : Prop :=
  ∃ hello data random, .started id hello ∈ log ∧ .accepted id data random handshake ∈ log ∧
    client.handleServerHello P data hello random = .ok handshake

def Reasoned (before : List SessionEvent) (event : SessionEvent) : Prop :=
  ∀ id what, event = .called id what → ∃ handshake, Accepted P client before id handshake

structure Authenticated (a : Sessions) : Prop where
  hello : ∀ id hello, a.hello id = some hello → .started id hello ∈ a.log
  waiting : ∀ id handshake, a.handshakeCh id = some handshake →
    Accepted P client a.log id handshake
  called : Trace.Always (Reasoned P client) a.log

def Holds (log : List SessionEvent) (held : Option (Nat × ServerHandshake)) : Prop :=
  ∀ id handshake, held = some (id, handshake) → Accepted P client log id handshake

variable {P client options} {a a' : Sessions} {held held' : Option (Nat × ServerHandshake)}

theorem Accepted.mono {log log' : List SessionEvent} (grows : log ⊆ log') {id : Nat}
    {handshake : ServerHandshake} (accepted : Accepted P client log id handshake) :
    Accepted P client log' id handshake := by
  obtain ⟨hello, data, random, started, logged, ok⟩ := accepted
  exact ⟨hello, data, random, grows started, grows logged, ok⟩

theorem Proceeds.log (proceeds : Proceeds a held a' held') : a.log ⊆ a'.log := by
  cases proceeds <;> simp

theorem Proceeds.authenticated (proceeds : Proceeds a held a' held')
    (authenticated : Authenticated P client a) (holds : Holds P client a.log held) :
    Authenticated P client a' ∧ Holds P client a'.log held' := by
  have keeps {after : Option (Nat × ServerHandshake)} (kept : after = none ∨ after = held) :
      Holds P client a.log after := by
    rcases kept with rfl | rfl
    · intro id handshake none_held
      cases none_held
    · exact holds
  cases proceeds with
  | rests kept => exact ⟨authenticated, keeps kept⟩
  | starts id hello =>
    refine ⟨⟨fun j other found => ?_, fun j handshake found => ?_, ?_⟩, fun j handshake held => ?_⟩
    · simp only [Function.update_apply] at found
      split_ifs at found with same
      · cases found
        simp [same]
      · exact List.mem_append_left _ (authenticated.hello j other found)
    · exact (authenticated.waiting j handshake found).mono (List.subset_append_left ..)
    · exact authenticated.called.concat fun _ _ started => by cases started
    · cases held
  | takes waiting =>
    refine ⟨⟨authenticated.hello, fun j handshake found => ?_, authenticated.called⟩,
      fun j handshake held => ?_⟩
    · simp only [Function.update_apply] at found
      split_ifs at found
      exact authenticated.waiting j handshake found
    · cases held
      exact authenticated.waiting _ _ waiting
  | @calls id handshake what after held kept =>
    have grows : a.log ⊆ a.log ++ [.called id what] := List.subset_append_left ..
    refine ⟨⟨fun j hello found => grows (authenticated.hello j hello found),
      fun j handshake found => (authenticated.waiting j handshake found).mono grows, ?_⟩,
      fun j handshake held => (keeps kept j handshake held).mono grows⟩
    refine authenticated.called.concat fun id _ called => ?_
    cases called
    exact ⟨_, holds _ _ held⟩

theorem Occurs.authenticated {s s' : Shared} {spawned : List Thread}
    (occurs : Occurs P client s s' spawned) (authenticated : Authenticated P client s.sessions) :
    Authenticated P client s'.sessions ∧ s.log ⊆ s'.log ∧ ∀ u ∈ spawned, u.session? = none := by
  cases occurs with
  | @hello id hello data random handshake known accepted =>
    have grows : s.log ⊆ s.log ++ [.accepted id data random handshake] :=
      List.subset_append_left ..
    refine ⟨⟨fun j hello found => grows (authenticated.hello j hello found),
      fun j other found => ?_, authenticated.called.concat fun _ _ other => by cases other⟩, grows,
      by simp⟩
    simp only [Shared.sessions, Shared.record, Function.update_apply] at found
    split_ifs at found with same
    · cases found
      subst same
      exact ⟨hello, data, random, grows (authenticated.hello j hello known),
        List.mem_append_right _ (List.mem_singleton_self _), accepted⟩
    · exact (authenticated.waiting j other found).mono grows
  | _ => exact ⟨authenticated, List.Subset.refl _, by simp [Thread.session?]⟩

def Attested (P : Primitives) (client : Client) (k : Config Shared Thread) : Prop :=
  Authenticated P client k.shared.sessions ∧
    ∀ t ∈ k.threads, Holds P client k.shared.log t.session?

theorem holds_none (log : List SessionEvent) {t : Thread} (empty : t.session? = none) :
    Holds P client log t.session? := by
  intro id handshake held
  rw [empty] at held
  cases held

theorem Attested.moves {k k' : Config Shared Thread} (attested : Attested P client k)
    (moves : (program P client options).Moves k k') : Attested P client k' := by
  obtain ⟨authenticated, hold⟩ := attested
  cases moves with
  | stays => exact ⟨authenticated, hold⟩
  | @advances n choice t t' s spawned running moved =>
    obtain ⟨proceeds, empty⟩ := (advance_steps moved).proceeds
    obtain ⟨after, own⟩ := proceeds.authenticated authenticated
      (hold t (List.mem_of_getElem? running))
    refine ⟨after, forall_advance hold (fun _ u _ _ held => ?_) own fun u member =>
      holds_none _ (empty u member)⟩
    exact fun id handshake found => (held id handshake found).mono proceeds.log
  | occurs happened =>
    obtain ⟨after, grows, empty⟩ := (occur_occurs happened).authenticated authenticated
    refine ⟨after, List.forall_mem_append.mpr ⟨fun t member id handshake found => ?_, fun u new =>
      holds_none _ (empty u new)⟩⟩
    exact (hold t member id handshake found).mono grows

variable (P client options) in
theorem run_attested (actions : List Action) :
    Attested P client (run P client options actions) := by
  refine (program P client options).run_keeps (Attested P client) (fun _ _ => .moves) ?_ actions
  refine ⟨⟨fun _ _ found => ?_, fun _ _ found => ?_, Trace.always_nil _⟩, fun t member => ?_⟩
  · cases found
  · cases found
  · cases member

end Runs

/-- Attempt `id` has accepted a ServerHello for its own nonce and key, with a
signature that the pinned key verifies. -/
def SignedHello (P : Primitives) (client : Client) (log : List SessionEvent) (id : Nat) : Prop :=
  ∃ hello data random handshake opened,
    .started id hello ∈ log ∧ .accepted id data random handshake ∈ log ∧
    client.handleServerHello P data hello random = .ok handshake ∧
    client.openServerHello P data hello random.helloCodec = .ok opened ∧
    opened.payload.clientNonce = hello.nonce ∧
    opened.payload.clientEphemeralKey = hello.publicKey ∧
    P.ed25519Verify client.serverPublicKey (client.presentedTranscript opened)
      opened.payload.signature = true

theorem Accepted.signedHello {P : Primitives} {client : Client} {log : List SessionEvent} {id : Nat}
    {handshake : ServerHandshake} (accepted : Accepted P client log id handshake) :
    SignedHello P client log id := by
  obtain ⟨hello, data, random, started, logged, ok⟩ := accepted
  have handled := ok
  simp only [Client.handleServerHello, bind_ok] at handled
  obtain ⟨opened, readable, verified⟩ := handled
  obtain ⟨_, nonce, key⟩ := Client.openServerHello_ok readable
  exact ⟨hello, data, random, handshake, opened, started, logged, ok, readable, nonce, key,
    (verifyServerHello_true (Client.acceptServerHello_ok verified).1).2⟩

end ClientMachine

namespace ServerMachine
variable {P : Primitives} (server : Server P)

/-- Connection `i` was created by a ClientHello that decrypts under the client's
key, and a TransportSelect for a transport of the server and an ICEOffer, which
decrypt under the client's signaling key and are numbered apart, were received. -/
def Entitled (trace : List Event) (i : Nat) : Prop :=
  ∃ input data hello conn, .created i input data hello ∈ trace ∧
    server.Authentic input.proofRandom input.skewTime data hello ∧
    server.createConnection hello input.random = .ok conn ∧
    (∃ key, deriveSignalingKey P conn.codec.sessionKey .clientToServer = .ok key ∧
      Codec.new P server.encryptionType key server.encryptionAAD input.random.signalingReceive =
        .ok conn.codec.receiveCodec) ∧
    ∃ select selected offer offered,
      .received i select selected ∈ trace ∧ .received i offer offered ∈ trace ∧
      conn.codec.receiveCodec.decodeMessage P select = .ok selected ∧
      conn.codec.receiveCodec.decodeMessage P offer = .ok offered ∧
      selected.typ = .transportSelect ∧ offered.typ = .iceOffer ∧
      (selected.payload.getD {}).transport ∈ server.transports ∧
      selected.sequence ≠ 0 ∧ offered.sequence ≠ 0 ∧ selected.sequence ≠ offered.sequence

theorem sequence_mem {trace : List Event} {i : Nat} {data : Bytes} {message : Message}
    (received : .received i data message ∈ trace) : message.sequence ∈ sequences trace i :=
  List.mem_filterMap.mpr ⟨_, received, by simp [Event.sequenceFor]⟩

theorem sequence_apart {trace : List Event} {i : Nat} (distinct : (sequences trace i).Nodup)
    {data data' : Bytes} {message message' : Message} (received : .received i data message ∈ trace)
    (received' : .received i data' message' ∈ trace) (apart : message ≠ message') :
    message.sequence ≠ message'.sequence := by
  have pairs := List.pairwise_filterMap.mp distinct
  have : Std.Symm fun a b => ∀ m, Event.sequenceFor i a = some m →
      ∀ n, Event.sequenceFor i b = some n → m ≠ n :=
    ⟨fun a b differ m first n second => (differ n second m first).symm⟩
  refine pairs.forall received received' ?_ _ (by simp [Event.sequenceFor]) _
    (by simp [Event.sequenceFor])
  rintro ⟨⟩
  exact apart rfl

theorem Justified.entitled {server : Server P} {trace : List Event} {i : Nat}
    (justified : Justified server trace i) : Entitled server trace i := by
  obtain ⟨receiveCodec, ⟨input, data, hello, conn, created, authentic, made, rfl⟩, decodes⟩ :=
    justified.messages
  obtain ⟨select, selected, received, select_typ, known⟩ := justified.selected
  obtain ⟨offer, offered, received', offer_typ⟩ := justified.offered
  obtain ⟨distinct, nonzero⟩ := justified.numbered
  refine ⟨input, data, hello, conn, created, Server.authenticate_ok authentic, made,
    Server.createConnection_receiveCodec made, select, selected, offer, offered, received, received',
    decodes _ _ received, decodes _ _ received', select_typ, offer_typ, known, ?_, ?_, ?_⟩
  · rintro zero
    exact nonzero (zero ▸ sequence_mem received)
  · rintro zero
    exact nonzero (zero ▸ sequence_mem received')
  · refine sequence_apart distinct received received' ?_
    rintro rfl
    rw [select_typ] at offer_typ
    cases offer_typ

end ServerMachine

/-- In every run, with any packets delivered: the client publishes its transport or its
offer only after it accepted a signed ServerHello, and the server makes an agent, gathers
candidates or answers only for an authenticated client. -/
theorem disclosed_after_authentication (P : Primitives) :
    (∀ client options actions before id what after,
      (ClientMachine.run P client options actions).shared.log =
        before ++ .called id what :: after → ClientMachine.SignedHello P client before id) ∧
    ∀ (server : Server P) cache actions before i what after,
      (ServerMachine.run server cache actions).shared.trace =
        before ++ .disclosed i what :: after → ServerMachine.Entitled server before i := by
  refine ⟨fun client options actions before id what after split => ?_,
    fun server cache actions before i what after split => ?_⟩
  · obtain ⟨attested, _⟩ := ClientMachine.run_attested P client options actions
    obtain ⟨handshake, accepted⟩ := attested.called before _ after split id what rfl
    exact accepted.signedHello
  · have history := (ServerMachine.run_history server cache actions).1
    exact (history.disclosed before i what after split).entitled

def ClientMachine.SessionEvent.call? : SessionEvent → Option (Nat × Publication)
  | .called id what => some (id, what)
  | _ => none

def ServerMachine.Event.disclosure? : Event → Option (Nat × Disclosure)
  | .disclosed i what => some (i, what)
  | _ => none

def ClientMachine.Sample.offering : List Action :=
  .event .connect :: goes 0 9 ++ .event (.deliverHello 0 Plain.packet Plain.clientRandom) ::
    goes 0 8

theorem disclosed_after_authentication_sample :
    ClientMachine.SignedHello Plain.primitives Plain.client
      ((ClientMachine.run Plain.primitives Plain.client ClientMachine.Sample.options
        ClientMachine.Sample.offering).shared.log.take 3) 0 ∧
    ServerMachine.Entitled Plain.server
      ((ServerMachine.run Plain.server Plain.nonces
        ServerMachine.Sample.finished).shared.trace.take 3) 0 := by
  have evaluated : ((ClientMachine.run Plain.primitives Plain.client ClientMachine.Sample.options
      ClientMachine.Sample.offering).shared.log[3]?.bind
      ClientMachine.SessionEvent.call?) = some (0, .iceOffer) ∧
      ((ServerMachine.run Plain.server Plain.nonces
        ServerMachine.Sample.finished).shared.trace[3]?.bind
        ServerMachine.Event.disclosure?) =
          some (0, .agent) := by
    decide +kernel
  obtain ⟨called, disclosed⟩ := evaluated
  obtain ⟨clients, servers⟩ := disclosed_after_authentication Plain.primitives
  constructor
  · obtain ⟨event, found, call⟩ := Option.bind_eq_some_iff.mp called
    cases event with
    | called id what =>
      cases call
      exact clients _ _ _ _ _ _ _ (Trace.split_at found)
    | started | accepted => cases call
  · obtain ⟨event, found, disclosure⟩ := Option.bind_eq_some_iff.mp disclosed
    cases event with
    | disclosed i what =>
      cases disclosure
      exact servers _ _ _ _ _ _ _ (Trace.split_at found)
    | created | received | closeReturned => cases disclosure

end Telekit
