import Telekit.ClientSteps
import Telekit.HandshakeAgreement

/-! The protocol behind the connection of the client. Of a thread only its stage
matters: how far a call of `connectWithContext`, `disconnect` or `finishTransport`
has come, and what it has in hand. A transition is what a step does to the core of
the client together with the stage of the thread that takes it; what the
environment and the other fields decide is left open. Every step of the client is
a transition of the protocol, so invariants are proved of transitions. -/

namespace Telekit.ClientMachine
open Interleaving

/-- Where an attempt is. `preparing` begins when the receive buffer is clean,
`negotiating` when the agent is installed; `installing` is the call of
`setTransportConn`, and `flagging` the last step before it returns. -/
inductive AttemptStage
  | opening
  | renewing
  | resetting (b : Nat)
  | preparing
  | negotiating
  | installing
  | installed
  | flagging
  | leaving (ok : Bool)

inductive DisconnectStage
  | flagging
  | loading
  | wiping (b : Nat)
  | clearing
  | closing (conn agent : Option Nat)

inductive FinishStage
  | detaching
  | flagging
  | loading
  | wiping (b : Nat)
  | closing

inductive Stage
  | idle
  | calling (caller : Caller)
  | attempt (caller : Caller) (id : Nat) (stage : AttemptStage)
  | checking (id : Nat)
  | disconnect (closes : Bool) (after : After) (stage : DisconnectStage)
  | finish (g : Nat) (agent : Option Nat) (stage : FinishStage)
  | writing (g b : Nat) (raw : Bytes)
  | returning (b : Nat)

def Negotiation.stage : Negotiation → AttemptStage
  | .build | .publishHello | .waitHello | .setSession _ | .checkTransport _ | .publishSelect _
  | .newAgent _ | .installAgent _ => .preparing
  | .gather _ | .publishOffer _ _ | .waitAnswer _ | .dial _ => .negotiating
  | .setTransport _ => .installing

def ConnectPos.stage : ConnectPos → AttemptStage
  | .resetSession | .resetSend | .resetRecv | .checkBuffer => .opening
  | .newBuffer => .renewing
  | .resetBuffer b => .resetting b
  | .negotiate pos => pos.stage
  | .loadBuffer _ | .spawn _ _ => .installed
  | .setConnected => .flagging
  | .leave ok => .leaving ok

def DisconnectPos.stage : DisconnectPos → DisconnectStage
  | .bump | .isConnected | .publish | .flag => .flagging
  | .loadBuffer => .loading
  | .buffer b => .wiping b
  | .clear => .clearing
  | .close conn agent => .closing conn agent

def FinishPos.stage (g : Nat) (agent : Option Nat) : FinishPos → Stage
  | .detach => .finish g agent .detaching
  | .flag => .finish g agent .flagging
  | .loadBuffer => .finish g agent .loading
  | .reset b => .finish g agent (.wiping b)
  | .close => .finish g agent .closing
  | .bump | .decide _ => .idle

def Thread.stage : Thread → Stage
  | .connecting caller => .calling caller
  | .connect caller id pos => .attempt caller id pos.stage
  | .checking _ id => .checking id
  | .disconnect closes after pos => .disconnect closes after pos.stage
  | .finish g agent pos => pos.stage g agent
  | .reader g b _ (.writeBuffer raw) => .writing g b raw
  | .readFrom b => .returning b
  | _ => .idle

def Caller.stage (id : Nat) (ok : Bool) : Caller → Stage
  | .user => .idle
  | .loop _ _ => if ok then .checking id else .idle

def After.stage : After → Stage
  | .failed caller id => .attempt caller id (.leaving false)
  | _ => .idle

namespace Core

def begin (s : Core) : Core := { s with connecting := true, attempts := s.attempts + 1 }

def leave (s : Core) : Core := { s with connecting := false }

def flag (s : Core) (connected : Bool) : Core := { s with connected := connected }

def equip (s : Core) (id : Nat) : Core := { s with iceAgent := some id }

def wipe (s : Core) (closes : Bool) (b : Nat) : Core :=
  if closes then s.closeBuffer b else s.resetBuffer b

def deliver (s : Core) (b : Nat) (buffer : Buffer) (data : Bytes) (origins : List Origin) : Core :=
  { s with buffers := s.buffers.set b buffer }.emit (.returned b data origins)

def isOpen (s : Core) (b : Nat) : Bool := s.buffers[b]?.any (!·.closed)

theorem closeAll_none (s : Core) : s.closeAll none none = s := by
  simp [closeAll]

theorem detach_eq (s : Core) : ∃ trace, s.detach =
    { s with transportConn := none, dataChannel := none, iceAgent := none, trace := trace } := by
  unfold detach
  split <;> exact ⟨_, rfl⟩

@[simp] theorem detach_transportConn (s : Core) : s.detach.transportConn = none := by
  obtain ⟨_, same⟩ := s.detach_eq
  rw [same]

@[simp] theorem detach_dataChannel (s : Core) : s.detach.dataChannel = none := by
  obtain ⟨_, same⟩ := s.detach_eq
  rw [same]

@[simp] theorem detach_iceAgent (s : Core) : s.detach.iceAgent = none := by
  obtain ⟨_, same⟩ := s.detach_eq
  rw [same]

@[simp] theorem detach_connected (s : Core) : s.detach.connected = s.connected := by
  obtain ⟨_, same⟩ := s.detach_eq
  rw [same]

@[simp] theorem detach_connecting (s : Core) : s.detach.connecting = s.connecting := by
  obtain ⟨_, same⟩ := s.detach_eq
  rw [same]

@[simp] theorem detach_attempts (s : Core) : s.detach.attempts = s.attempts := by
  obtain ⟨_, same⟩ := s.detach_eq
  rw [same]

@[simp] theorem detach_recvBuf (s : Core) : s.detach.recvBuf = s.recvBuf := by
  obtain ⟨_, same⟩ := s.detach_eq
  rw [same]

@[simp] theorem detach_buffers (s : Core) : s.detach.buffers = s.buffers := by
  obtain ⟨_, same⟩ := s.detach_eq
  rw [same]

theorem wipe_eq (s : Core) (closes : Bool) (b : Nat) : ∃ f trace, s.wipe closes b =
    { s with buffers := s.buffers.modify b f, trace := trace } := by
  cases closes <;> exact ⟨_, _, rfl⟩

theorem writeBuffer_snd (s : Core) (b g : Nat) (raw : Bytes) :
    ∃ buffers, (s.writeBuffer b g raw).2 = { s with buffers := buffers } ∧
      buffers.length = s.buffers.length := by
  unfold writeBuffer
  split
  · exact ⟨_, rfl, rfl⟩
  · split
    · exact ⟨_, rfl, rfl⟩
    · exact ⟨_, rfl, List.length_set⟩

end Core

/-- What a thread can do to the connection. -/
inductive Transition (s : Core) : Stage → Core → Stage → Prop
  | stays (v : Stage) : Transition s v s v
  | calls (caller : Caller) : Transition s .idle s (.calling caller)
  | refused (caller : Caller) : Transition s (.calling caller) s .idle
  | begins (caller : Caller) (unconnected : s.connected = false) (free : s.connecting = false) :
      Transition s (.calling caller) s.begin (.attempt caller s.attempts .opening)
  | renews (caller : Caller) (id : Nat) (closed : s.isOpen s.recvBuf = false) :
      Transition s (.attempt caller id .opening) s (.attempt caller id .renewing)
  | reuses (caller : Caller) (id : Nat) :
      Transition s (.attempt caller id .opening) s (.attempt caller id (.resetting s.recvBuf))
  | stores (caller : Caller) (id : Nat) (limit : Int) :
      Transition s (.attempt caller id .renewing)
        (s.storeBuffer { toRecvBuffer := .newWithLimit limit }) (.attempt caller id .preparing)
  | resets (caller : Caller) (id b : Nat) :
      Transition s (.attempt caller id (.resetting b)) (s.resetBuffer b)
        (.attempt caller id .preparing)
  | equips (caller : Caller) (id : Nat) (vacant : s.iceAgent = none)
      (detached : s.transportConn = none) :
      Transition s (.attempt caller id .preparing) (s.equip id) (.attempt caller id .negotiating)
  | dials (caller : Caller) (id : Nat) :
      Transition s (.attempt caller id .negotiating) s (.attempt caller id .installing)
  | installs (caller : Caller) (id : Nat) (own : s.iceAgent = some id)
      (detached : s.transportConn = none) :
      Transition s (.attempt caller id .installing) (s.install id) (.attempt caller id .installed)
  | givesUp (caller : Caller) (id : Nat) {stage : AttemptStage}
      (early : stage = .preparing ∨ stage = .negotiating ∨ stage = .installing)
      {conn agent : Option Nat} (conns : conn = none ∨ conn = some id)
      (agents : agent = none ∨ agent = some id) :
      Transition s (.attempt caller id stage) (s.closeAll conn agent)
        (.disconnect (!caller.preserves) (.failed caller id) .flagging)
  | attaches (caller : Caller) (id : Nat) :
      Transition s (.attempt caller id .installed) s (.attempt caller id .flagging)
  | connects (caller : Caller) (id : Nat) :
      Transition s (.attempt caller id .flagging) (s.flag true) (.attempt caller id (.leaving true))
  | leaves (caller : Caller) (id : Nat) (ok : Bool) :
      Transition s (.attempt caller id (.leaving ok)) s.leave (caller.stage id ok)
  | passes (id : Nat) : Transition s (.checking id) s .idle
  | drops (id : Nat) :
      Transition s (.checking id) s (.disconnect true (.checked id) .flagging)
  | disconnects {after : After} (user : after = .user ∨ after = .reconnect) :
      Transition s .idle s (.disconnect true after .flagging)
  | lowers (closes : Bool) (after : After) :
      Transition s (.disconnect closes after .flagging) (s.flag false)
        (.disconnect closes after .loading)
  | loads (closes : Bool) (after : After) :
      Transition s (.disconnect closes after .loading) s
        (.disconnect closes after (.wiping s.recvBuf))
  | wipes (closes : Bool) (after : After) (b : Nat) :
      Transition s (.disconnect closes after (.wiping b)) (s.wipe closes b)
        (.disconnect closes after .clearing)
  | clears (closes : Bool) (after : After) :
      Transition s (.disconnect closes after .clearing) s.detach
        (.disconnect closes after (.closing s.transportConn s.iceAgent))
  | closes (closes : Bool) (after : After) (conn agent : Option Nat) :
      Transition s (.disconnect closes after (.closing conn agent)) (s.closeAll conn agent)
        after.stage
  | fails (g : Nat) : Transition s .idle s (.finish g none .detaching)
  | overtaken (g : Nat) (agent : Option Nat) :
      Transition s (.finish g agent .detaching) s .idle
  | detaches (g : Nat) (agent : Option Nat) (current : s.transportConn = some g) :
      Transition s (.finish g agent .detaching) s.detach (.finish g s.iceAgent .flagging)
  | finishLowers (g : Nat) (agent : Option Nat) :
      Transition s (.finish g agent .flagging) (s.flag false) (.finish g agent .loading)
  | finishLoads (g : Nat) (agent : Option Nat) :
      Transition s (.finish g agent .loading) s (.finish g agent (.wiping s.recvBuf))
  | finishResets (g : Nat) (agent : Option Nat) (b : Nat) :
      Transition s (.finish g agent (.wiping b)) (s.resetBuffer b) (.finish g agent .closing)
  | finishCloses (g : Nat) (agent : Option Nat) :
      Transition s (.finish g agent .closing) (s.closeAll (some g) agent) .idle
  | opens (g b : Nat) (raw : Bytes) : Transition s .idle s (.writing g b raw)
  | writes (g b : Nat) (raw : Bytes) :
      Transition s (.writing g b raw) (s.writeBuffer b g raw).2 .idle
  | reads (b : Nat) : Transition s .idle s (.returning b)
  | abandons (b : Nat) : Transition s (.returning b) s .idle
  | returns {b size : Nat} {now : Int} {buffer buffer' : Buffer} {data : Bytes}
      {origins : List Origin} (found : s.buffers[b]? = some buffer)
      (read : buffer.read size now = some (.ok (data, origins), buffer')) :
      Transition s (.returning b) (s.deliver b buffer' data origins) .idle

section Steps
variable {P : Primitives} {client : Client} {s s' : Shared} {t t' : Thread} {spawned : List Thread}
  {caller : Caller} {id : Nat}

theorem givesUp_transition (pos : Negotiation) :
    Transition s.toCore (.attempt caller id pos.stage) s.toCore (giveUp caller id).stage := by
  have early : pos.stage = .preparing ∨ pos.stage = .negotiating ∨ pos.stage = .installing := by
    cases pos <;> simp [Negotiation.stage]
  have step := Transition.givesUp (s := s.toCore) caller id early (.inl rfl) (.inl rfl)
  rwa [Core.closeAll_none] at step

theorem NegotiateSteps.transition {pos : Negotiation}
    (steps : NegotiateSteps s caller id pos s' t') :
    Transition s.toCore (.attempt caller id pos.stage) s'.toCore t'.stage := by
  cases steps with
  | givesUp => exact givesUp_transition pos
  | selects codec sequence goes =>
    rcases goes with rfl | rfl
    · exact .stays _
    · exact givesUp_transition (.publishSelect _)
  | offers description codec sequence goes =>
    rcases goes with rfl | rfl
    · exact .stays _
    · exact givesUp_transition (.publishOffer _ description)
  | equips handshake wanted vacant detached => exact .equips caller id vacant detached
  | refusesAgent => exact .givesUp caller id (.inl rfl) (.inl rfl) (.inr rfl)
  | dials => exact .dials caller id
  | installs handshake wanted own detached => exact .installs caller id own detached
  | refusesTransport => exact .givesUp caller id (.inr (.inr rfl)) (.inr rfl) (.inl rfl)
  | _ => exact .stays _

theorem Caller.resume_stage (caller : Caller) (id : Nat) (ok : Bool) :
    (caller.resume id ok).stage = caller.stage id ok := by
  cases caller with
  | user => rfl
  | loop generation origin => cases ok <;> rfl

theorem After.resume_stage (after : After) (ok : Bool) : (after.resume ok).stage = after.stage := by
  cases after with
  | reconnect => cases ok <;> rfl
  | _ => rfl

theorem ConnectSteps.transition {pos : ConnectPos}
    (steps : ConnectSteps s caller id pos s' t' spawned) :
    Transition s.toCore (.attempt caller id pos.stage) s'.toCore t'.stage ∧
      ∀ u ∈ spawned, u.stage = .idle := by
  cases steps with
  | resetsSession | resetsSend | resetsRecv | loads => exact ⟨.stays _, by simp⟩
  | reuses => exact ⟨.reuses caller id, by simp⟩
  | renews closed => exact ⟨.renews caller id closed, by simp⟩
  | stores limit => exact ⟨.stores caller id limit, by simp⟩
  | resets b => exact ⟨.resets caller id b, by simp⟩
  | negotiates steps => exact ⟨steps.transition, by simp⟩
  | spawns handshake b l =>
    refine ⟨.attaches caller id, ?_⟩
    simp only [List.forall_mem_cons, ReadLoop.start]
    refine ⟨?_, rfl, by simp⟩
    split_ifs <;> rfl
  | connects => exact ⟨.connects caller id, by simp⟩
  | leaves ok =>
    rw [caller.resume_stage id ok]
    exact ⟨.leaves caller id ok, by simp⟩

theorem DisconnectSteps.transition {closes : Bool} {after : After} {pos : DisconnectPos}
    (steps : DisconnectSteps s closes after pos s' t') :
    Transition s.toCore (.disconnect closes after pos.stage) s'.toCore t'.stage := by
  cases steps with
  | bumps | publishes => exact .stays _
  | checks goes => rcases goes with rfl | rfl <;> exact .stays _
  | lowers => exact .lowers closes after
  | loads => exact .loads closes after
  | wipes b => exact .wipes closes after b
  | clears => exact .clears closes after
  | closes conn agent ok =>
    rw [after.resume_stage]
    exact .closes closes after conn agent

theorem FinishSteps.transition {g : Nat} {agent : Option Nat} {pos : FinishPos}
    (steps : FinishSteps s g agent pos s' t' spawned) :
    Transition s.toCore (pos.stage g agent) s'.toCore t'.stage ∧
      ∀ u ∈ spawned, u.stage = .idle := by
  cases steps with
  | detaches current => exact ⟨.detaches g agent current, by simp⟩
  | overtaken => exact ⟨.overtaken g agent, by simp⟩
  | lowers => exact ⟨.finishLowers g agent, by simp⟩
  | loads => exact ⟨.finishLoads g agent, by simp⟩
  | resets b => exact ⟨.finishResets g agent b, by simp⟩
  | closes => exact ⟨.finishCloses g agent, by simp⟩
  | bumps => exact ⟨.stays _, by simp⟩
  | decides generation goes =>
    refine ⟨.stays _, ?_⟩
    rcases goes with rfl | rfl <;> simp [Thread.stage]

theorem AnswerSteps.quiet {pos : AnswerPos} (steps : AnswerSteps P client s id pos s' t') :
    s'.toCore = s.toCore ∧ t'.stage = .idle := by
  cases steps with
  | accepts goes => rcases goes with rfl | rfl <;> exact ⟨rfl, rfl⟩
  | _ => exact ⟨rfl, rfl⟩

theorem wrote_stage {l : ReadLoop} {g b : Nat} {channel : DataChannel} {raw : Bytes}
    (result : Except Failure Unit) :
    (Thread.reader g b channel (l.wrote result (.writeBuffer raw))).stage = .idle := by
  cases result with
  | error err => rfl
  | ok =>
    simp only [ReadLoop.wrote, ReadLoop.start]
    split_ifs <;> rfl

/-- Every step of the client is a transition of the protocol, and the threads it
starts are idle. -/
theorem Steps.transition (steps : Steps P client s t s' t' spawned) :
    Transition s.toCore t.stage s'.toCore t'.stage ∧ ∀ u ∈ spawned, u.stage = .idle := by
  cases steps with
  | connectCall => exact ⟨.calls .user, by simp⟩
  | disconnectCall reconnect user => exact ⟨.disconnects user, by simp⟩
  | refused caller =>
    rw [caller.resume_stage 0 false]
    refine ⟨?_, by simp⟩
    cases caller <;> exact .refused _
  | begins caller unconnected free => exact ⟨.begins caller unconnected free, by simp⟩
  | connect steps => exact steps.transition
  | disconnect steps => exact ⟨steps.transition, by simp⟩
  | fails g => exact ⟨.fails g, by simp⟩
  | @receives g b channel channel' pc pc' other =>
    refine ⟨?_, by simp⟩
    have idle : (Thread.reader g b channel pc).stage = .idle := by
      cases pc with
      | writeBuffer raw => exact absurd rfl (other raw)
      | _ => rfl
    rw [idle]
    cases pc' with
    | writeBuffer raw => exact .opens g b raw
    | _ => exact .stays _
  | writes g b channel raw l result =>
    rw [wrote_stage]
    exact ⟨.writes g b raw, by simp⟩
  | @monitors g current t' goes =>
    refine ⟨?_, by simp⟩
    rcases goes with rfl | rfl | rfl
    · exact .stays _
    · exact .stays _
    · exact .fails g
  | finish steps => exact steps.transition
  | loops goes =>
    refine ⟨?_, by simp⟩
    rcases goes with rfl | ⟨_, rfl⟩ | rfl
    · exact .stays _
    · exact .stays _
    · exact .calls _
  | drops generation id => exact ⟨.drops id, by simp⟩
  | passes generation id => exact ⟨.passes id, by simp⟩
  | answer steps =>
    rw [steps.quiet.1, steps.quiet.2]
    exact ⟨.stays _, by simp⟩
  | read => exact ⟨.reads _, by simp⟩
  | abandons b => exact ⟨.abandons b, by simp⟩
  | returns found read => exact ⟨.returns found read, by simp⟩

theorem Occurs.idle (occurs : Occurs P client s s' spawned) :
    s'.toCore = s.toCore ∧ ∀ u ∈ spawned, u.stage = .idle := by
  cases occurs <;> exact ⟨rfl, by simp [Thread.stage]⟩

end Steps

inductive Moved (s : Core) (stages : List Stage) : Action → Core → List Stage → Prop
  | rests {a : Action} {spawned : List Stage} (idle : ∀ u ∈ spawned, u = .idle) :
      Moved s stages a s (stages ++ spawned)
  | moves {n : Nat} {choice : Choice} {v v' : Stage} {s' : Core} {spawned : List Stage}
      (running : stages[n]? = some v) (step : Transition s v s' v')
      (idle : ∀ u ∈ spawned, u = .idle) :
      Moved s stages (.advance n choice) s' (stages.set n v' ++ spawned)

def stages (k : Config Shared Thread) : List Stage := k.threads.map Thread.stage

theorem takes_moved {P : Primitives} {client : Client} {options : ClientOptions}
    {k k' : Config Shared Thread} {a : Action}
    (takes : (program P client options).Takes k a k') :
    Moved k.shared.toCore (stages k) a k'.shared.toCore (stages k') := by
  cases takes with
  | stays =>
    have rests : Moved k.shared.toCore (stages k) a k.shared.toCore (stages k ++ []) :=
      .rests (by simp)
    rwa [List.append_nil] at rests
  | advances running moved =>
    obtain ⟨step, idle⟩ := (advance_steps moved).transition
    simp only [stages, List.map_append, List.map_set]
    exact .moves (by simp [running]) step (by simpa using idle)
  | occurs happened =>
    obtain ⟨core, idle⟩ := (occur_occurs happened).idle
    simp only [stages, List.map_append, core]
    exact .rests (by simpa using idle)

namespace Sample

def handshake : Option ServerHandshake :=
  (Plain.client.handleServerHello Plain.primitives Plain.packet Plain.attempt
    Plain.clientRandom).toOption

def answerOf (session : Option ServerHandshake) : Bytes :=
  let codec : Codec := (session.map (·.codec.receiveCodec)).getD {}
  ((codec.encodeMessage Plain.primitives {
    header := some {
      typ := .iceAnswer
      sourceId := Plain.server.serverId
      targetId := str "station"
      sequence := 1 }
    payload := some { iceUsername := str "u", icePassword := str "p", iceCandidates := [str "c"] }
    }).1.toOption).getD []

def answer : Bytes := answerOf handshake

/-- Thread `n` makes attempt `id`, whose answer is handled by thread `m`; `first`
steps lead to the ClientHello, and `last` steps follow the answer. -/
def attempt (n id m first last : Nat) : List Action :=
  goes n first ++ .event (.deliverHello id Plain.packet Plain.clientRandom) :: goes n 8 ++
    .event (.deliverAnswer id answer) :: goes m 3 ++ goes n last

def fails (n : Nat) : Action := .advance n { ok := false }

end Sample

end Telekit.ClientMachine
