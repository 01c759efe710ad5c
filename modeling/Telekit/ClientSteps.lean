import Telekit.ClientMachine

/-! What one step of the running client can do. For each step function of
`ClientMachine` a relation lists its branches: the position and the condition under
which a branch is taken, what it does to the shared state, and where the thread goes
on. The connection, the signals and the sessions of the client are each followed
through these relations. -/

namespace Telekit.ClientMachine
variable {P : Primitives} {client : Client} {options : ClientOptions} {choice : Choice}
  {s s' : Shared} {t t' : Thread} {spawned : List Thread}

section Attempt
variable (s : Shared) (caller : Caller) (id : Nat)

inductive NegotiateSteps : Negotiation → Shared → Thread → Prop
  | givesUp (pos) : NegotiateSteps pos s (giveUp caller id)
  | builds (hello) :
      NegotiateSteps .build
        ({ s with hello := Function.update s.hello id (some hello) }.record (.started id hello))
        (.connect caller id (.negotiate .publishHello))
  | greets : NegotiateSteps .publishHello s (.connect caller id (.negotiate .waitHello))
  | takes {handshake} (waiting : s.handshakeCh id = some handshake) :
      NegotiateSteps .waitHello { s with handshakeCh := Function.update s.handshakeCh id none }
        (.connect caller id (.negotiate (.setSession handshake)))
  | setsSession (handshake) :
      NegotiateSteps (.setSession handshake)
        { s with codec := some handshake.codec, serverId := handshake.serverID }
        (.connect caller id (.negotiate (.checkTransport handshake)))
  | joins (handshake) :
      NegotiateSteps (.checkTransport handshake)
        { s with answerSub := Function.update s.answerSub id (some handshake) }
        (.connect caller id (.negotiate (.publishSelect handshake)))
  | selects {handshake} (codec sequence) {t'}
      (goes : t' = .connect caller id (.negotiate (.newAgent handshake)) ∨ t' = giveUp caller id) :
      NegotiateSteps (.publishSelect handshake)
        ({ s with codec := codec, signalSend := sequence }.record (.called id .transportSelect)) t'
  | makesAgent (handshake) :
      NegotiateSteps (.newAgent handshake) s
        (.connect caller id (.negotiate (.installAgent handshake)))
  | equips (handshake) (wanted : s.manualDisconnect = false) (vacant : s.iceAgent = none)
      (detached : s.transportConn = none) :
      NegotiateSteps (.installAgent handshake) (s.on fun core => { core with iceAgent := some id })
        (.connect caller id (.negotiate (.gather handshake)))
  | refusesAgent (handshake) :
      NegotiateSteps (.installAgent handshake) (s.on (·.closeAll none (some id))) (giveUp caller id)
  | gathers (handshake description) :
      NegotiateSteps (.gather handshake) s
        (.connect caller id (.negotiate (.publishOffer handshake description)))
  | offers {handshake} (description codec sequence) {t'}
      (goes : t' = .connect caller id (.negotiate (.waitAnswer handshake)) ∨ t' = giveUp caller id) :
      NegotiateSteps (.publishOffer handshake description)
        ({ s with codec := codec, signalSend := sequence }.record (.called id .iceOffer)) t'
  | answered (handshake) :
      NegotiateSteps (.waitAnswer handshake)
        { s with answers := Function.update s.answers id none }
        (.connect caller id (.negotiate (.dial handshake)))
  | dials (handshake) :
      NegotiateSteps (.dial handshake) s
        (.connect caller id (.negotiate (.setTransport handshake)))
  | installs (handshake) (wanted : s.manualDisconnect = false) (own : s.iceAgent = some id)
      (detached : s.transportConn = none) :
      NegotiateSteps (.setTransport handshake) (s.on (·.install id))
        (.connect caller id (.loadBuffer handshake))
  | refusesTransport (handshake) :
      NegotiateSteps (.setTransport handshake) (s.on (·.closeAll (some id) none))
        (giveUp caller id)

variable {s caller id}

theorem NegotiateSteps.goesOn_or_givesUp {pos next : Negotiation}
    (step : NegotiateSteps s caller id pos s (.connect caller id (.negotiate next))) (goesOn : Prop)
    [Decidable goesOn] : NegotiateSteps s caller id pos s
      (if goesOn then .connect caller id (.negotiate next) else giveUp caller id) := by
  split_ifs
  · exact step
  · exact .givesUp pos

theorem negotiateStep_steps {pos : Negotiation}
    (moved : negotiateStep P client options choice s caller id pos = some (s', t')) :
    NegotiateSteps s caller id pos s' t' := by
  cases pos with
  | build =>
    simp only [negotiateStep] at moved
    split at moved <;> cases moved
    · exact .givesUp _
    · exact .builds _
  | publishHello =>
    cases moved
    exact .goesOn_or_givesUp .greets _
  | waitHello =>
    simp only [negotiateStep] at moved
    split_ifs at moved
    · split at moved <;> cases moved
      next waiting => exact .takes waiting
    · cases moved
      exact .givesUp _
  | setSession handshake =>
    cases moved
    exact .setsSession handshake
  | checkTransport handshake =>
    simp only [negotiateStep] at moved
    split_ifs at moved <;> cases moved
    · exact .joins handshake
    · exact .givesUp _
  | publishSelect handshake =>
    simp only [negotiateStep, Option.some.injEq, Prod.mk.injEq] at moved
    obtain ⟨rfl, rfl⟩ := moved
    obtain ⟨codec, sequence, same⟩ := publish_snd (P := P) s
      (client.sessionMessage .transportSelect { transport := client.transport })
    rw [publishTransportSelect, same]
    exact .selects codec sequence (ite_eq_or_eq _ _ _)
  | newAgent handshake =>
    cases moved
    exact .goesOn_or_givesUp (.makesAgent handshake) _
  | installAgent handshake =>
    simp only [negotiateStep] at moved
    split_ifs at moved with free <;> cases moved
    · exact .equips handshake free.1 free.2.1 free.2.2
    · exact .refusesAgent handshake
  | gather handshake =>
    cases moved
    exact .goesOn_or_givesUp (.gathers handshake _) _
  | publishOffer handshake description =>
    simp only [negotiateStep, Option.some.injEq, Prod.mk.injEq] at moved
    obtain ⟨rfl, rfl⟩ := moved
    obtain ⟨codec, sequence, same⟩ := publishICEOffer_snd (P := P) s description
    rw [same]
    exact .offers description codec sequence (ite_eq_or_eq _ _ _)
  | waitAnswer handshake =>
    simp only [negotiateStep] at moved
    split_ifs at moved
    · split at moved <;> cases moved
      exact .answered handshake
    · cases moved
      exact .givesUp _
  | dial handshake =>
    cases moved
    exact .goesOn_or_givesUp (.dials handshake) _
  | setTransport handshake =>
    simp only [negotiateStep] at moved
    split_ifs at moved with free <;> cases moved
    · exact .installs handshake free.1 free.2.1 free.2.2
    · exact .refusesTransport handshake

variable (s caller id)

inductive ConnectSteps : ConnectPos → Shared → Thread → List Thread → Prop
  | resetsSession : ConnectSteps .resetSession { s with serverId := [], codec := none }
      (.connect caller id .resetSend) []
  | resetsSend :
      ConnectSteps .resetSend { s with signalSend := 0 } (.connect caller id .resetRecv) []
  | resetsRecv : ConnectSteps .resetRecv { s with signalRecv := s.signalRecv.reset }
      (.connect caller id .checkBuffer) []
  | reuses : ConnectSteps .checkBuffer s (.connect caller id (.resetBuffer s.recvBuf)) []
  | renews (closed : s.buffers[s.recvBuf]?.any (!·.closed) = false) :
      ConnectSteps .checkBuffer s (.connect caller id .newBuffer) []
  | stores (limit) :
      ConnectSteps .newBuffer (s.on (·.storeBuffer { toRecvBuffer := .newWithLimit limit }))
        (.connect caller id (.negotiate .build)) []
  | resets (b) :
      ConnectSteps (.resetBuffer b) (s.on (·.resetBuffer b))
        (.connect caller id (.negotiate .build)) []
  | negotiates {pos s' t'} (steps : NegotiateSteps s caller id pos s' t') :
      ConnectSteps (.negotiate pos) s' t' []
  | loads (handshake) :
      ConnectSteps (.loadBuffer handshake) s (.connect caller id (.spawn handshake s.recvBuf)) []
  | spawns (handshake b) (l : ReadLoop) :
      ConnectSteps (.spawn handshake b) s (.connect caller id .setConnected)
        [.reader id b handshake.dataChannel l.start, .monitor id false]
  | connects : ConnectSteps .setConnected (s.on fun core => { core with connected := true })
      (.connect caller id (.leave true)) []
  | leaves (ok) :
      ConnectSteps (.leave ok) (s.on fun core => { core with connecting := false })
        (caller.resume id ok) []

variable {s caller id}

theorem connectStep_steps {pos : ConnectPos}
    (moved : connectStep P client options choice s caller id pos = some (s', t', spawned)) :
    ConnectSteps s caller id pos s' t' spawned := by
  cases pos with
  | checkBuffer =>
    cases moved
    split_ifs with reusable
    · exact .reuses
    · exact .renews (by simpa using reusable)
  | negotiate pos =>
    obtain ⟨step, rfl⟩ := alone_eq moved
    exact .negotiates (negotiateStep_steps step)
  | _ => cases moved; constructor

end Attempt

section Disconnect
variable (s : Shared) (closes : Bool) (after : After)

inductive DisconnectSteps : DisconnectPos → Shared → Thread → Prop
  | bumps (generation) :
      DisconnectSteps .bump { s with reconnectGeneration := generation }
        (.disconnect closes after .isConnected)
  | checks {pos} (goes : pos = .publish ∨ pos = .flag) :
      DisconnectSteps .isConnected s (.disconnect closes after pos)
  | publishes (codec sequence) :
      DisconnectSteps .publish { s with codec := codec, signalSend := sequence }
        (.disconnect closes after .flag)
  | lowers : DisconnectSteps .flag (s.on fun core => { core with connected := false })
      (.disconnect closes after .loadBuffer)
  | loads : DisconnectSteps .loadBuffer s (.disconnect closes after (.buffer s.recvBuf))
  | wipes (b) :
      DisconnectSteps (.buffer b)
        (s.on fun core => if closes then core.closeBuffer b else core.resetBuffer b)
        (.disconnect closes after .clear)
  | clears : DisconnectSteps .clear { s.on (·.detach) with codec := none, serverId := [] }
      (.disconnect closes after (.close s.transportConn s.iceAgent))
  | closes (conn agent ok) :
      DisconnectSteps (.close conn agent) (s.on (·.closeAll conn agent)) (after.resume ok)

variable {s closes after}

theorem disconnectStep_steps {pos : DisconnectPos}
    (moved : disconnectStep P client choice s closes after pos = some (s', t')) :
    DisconnectSteps s closes after pos s' t' := by
  cases pos with
  | isConnected =>
    cases moved
    exact .checks (ite_eq_or_eq _ _ _)
  | publish =>
    simp only [disconnectStep, Option.some.injEq, Prod.mk.injEq] at moved
    obtain ⟨rfl, rfl⟩ := moved
    obtain ⟨codec, sequence, same⟩ := publish_snd (P := P) s (client.sessionMessage .disconnect {})
    rw [publishDisconnect, same]
    exact .publishes codec sequence
  | _ => cases moved; constructor

end Disconnect

section Finish
variable (s : Shared) (g : Nat) (agent : Option Nat)

inductive FinishSteps : FinishPos → Shared → Thread → List Thread → Prop
  | detaches (current : s.transportConn = some g) :
      FinishSteps .detach (s.on (·.detach)) (.finish g s.iceAgent .flag) []
  | overtaken : FinishSteps .detach s .finished []
  | lowers : FinishSteps .flag (s.on fun core => { core with connected := false })
      (.finish g agent .loadBuffer) []
  | loads : FinishSteps .loadBuffer s (.finish g agent (.reset s.recvBuf)) []
  | resets (b) : FinishSteps (.reset b) (s.on (·.resetBuffer b)) (.finish g agent .close) []
  | closes : FinishSteps .close (s.on (·.closeAll (some g) agent)) (.finish g agent .bump) []
  | bumps (generation) :
      FinishSteps .bump { s with reconnectGeneration := generation }
        (.finish g agent (.decide generation)) []
  | decides (generation) {spawned} (goes : spawned = [] ∨ spawned = [.loop generation g .manual]) :
      FinishSteps (.decide generation) s .finished spawned

variable {s g agent}

theorem finishStep_steps {pos : FinishPos}
    (moved : finishStep s g agent pos = some (s', t', spawned)) :
    FinishSteps s g agent pos s' t' spawned := by
  cases pos with
  | detach =>
    simp only [finishStep] at moved
    split_ifs at moved with current <;> cases moved
    · simp only [Core.isCurrentTransport, Bool.and_eq_true, decide_eq_true_eq] at current
      exact .detaches current.1
    · exact .overtaken
  | decide generation =>
    cases moved
    exact .decides generation (ite_eq_or_eq _ _ _)
  | _ => cases moved; constructor

end Finish

/-- The handler of attempt `id` has decoded `message` with the codec of its session. -/
def Authentic (P : Primitives) (client : Client) (subs : Nat → Option ServerHandshake) (id : Nat)
    (message : Message) : Prop :=
  ∃ handshake data, subs id = some handshake ∧ handshake.codec.decodeMessage P data = .ok message ∧
    (message.header.getD {}).sourceId = handshake.serverID ∧
    (message.header.getD {}).targetId = client.clientId

section Answer
variable (P client) (s : Shared) (id : Nat)

inductive AnswerSteps : AnswerPos → Shared → Thread → Prop
  | ends (pos) (decided : ∀ message, pos ≠ .accept message) : AnswerSteps pos s .finished
  | decodes (data) {message} (authentic : Authentic P client s.answerSub id message) :
      AnswerSteps (.decode data) s (.answer id (.accept message))
  | accepts {message t'} (goes : t' = .answer id (.send message) ∨ t' = .finished) :
      AnswerSteps (.accept message)
        { s with signalRecv := (s.signalRecv.accept (message.header.getD {}).sequence).2 } t'
  | sends (message answer) :
      AnswerSteps (.send message)
        { s with answers := Function.update s.answers id (some answer) } .finished

variable {P client s id}

theorem answerStep_steps {pos : AnswerPos}
    (moved : answerStep P client options s id pos = some (s', t')) :
    AnswerSteps P client s id pos s' t' := by
  cases pos with
  | decode data =>
    simp only [answerStep] at moved
    split at moved
    · cases moved
    next handshake subscribed =>
      split at moved
      · cases moved
        exact .ends _ (by simp)
      next message decoded =>
        split_ifs at moved with own <;> cases moved
        · exact .decodes data ⟨handshake, data, subscribed, decoded, own⟩
        · exact .ends _ (by simp)
  | accept message =>
    simp only [answerStep, Option.some.injEq, Prod.mk.injEq] at moved
    obtain ⟨rfl, rfl⟩ := moved
    exact .accepts (ite_eq_or_eq _ _ _)
  | send message =>
    simp only [answerStep] at moved
    split at moved
    · cases moved
      exact .ends _ (by simp)
    · split_ifs at moved <;> cases moved
      · exact .sends message _
      · exact .ends _ (by simp)

end Answer

section Steps
variable (P client) (s : Shared)

inductive Steps : Thread → Shared → Thread → List Thread → Prop
  | connectCall :
      Steps .connectCall { s with manualDisconnect := false } (.connecting .user) []
  | disconnectCall (reconnect) {after} (user : after = .user ∨ after = .reconnect) :
      Steps (.disconnectCall reconnect) { s with manualDisconnect := true }
        (.disconnect true after .bump) []
  | refused (caller) : Steps (.connecting caller) s (caller.resume 0 false) []
  | begins (caller) (unconnected : s.connected = false) (free : s.connecting = false) :
      Steps (.connecting caller)
        (s.on fun core => { core with connecting := true, attempts := core.attempts + 1 })
        (.connect caller s.attempts .resetSession) []
  | connect {caller id pos s' t' spawned} (steps : ConnectSteps s caller id pos s' t' spawned) :
      Steps (.connect caller id pos) s' t' spawned
  | disconnect {closes after pos s' t'} (steps : DisconnectSteps s closes after pos s' t') :
      Steps (.disconnect closes after pos) s' t' []
  | fails (g b channel) : Steps (.reader g b channel .finished) s (.finish g none .detach) []
  | receives {g b channel channel' pc pc'} (other : ∀ raw, pc ≠ .writeBuffer raw) :
      Steps (.reader g b channel pc) s (.reader g b channel' pc') []
  | writes (g b channel raw) (l : ReadLoop) (result) :
      Steps (.reader g b channel (.writeBuffer raw))
        { s with toCore := (s.writeBuffer b g raw).2 }
        (.reader g b channel (l.wrote result (.writeBuffer raw))) []
  | monitors {g current t'}
      (goes : t' = .monitor g (!current) ∨ t' = .finished ∨ t' = .finish g none .detach) :
      Steps (.monitor g current) s t' []
  | finish {g agent pos s' t' spawned} (steps : FinishSteps s g agent pos s' t' spawned) :
      Steps (.finish g agent pos) s' t' spawned
  | loops {generation origin pos t'}
      (goes : t' = .finished ∨ (∃ pos', t' = .loop generation origin pos') ∨
        t' = .connecting (.loop generation origin)) :
      Steps (.loop generation origin pos) s t' []
  | drops (generation id) :
      Steps (.checking generation id) s (.disconnect true (.checked id) .isConnected) []
  | passes (generation id) : Steps (.checking generation id) s .finished []
  | answer {id pos s' t'} (steps : AnswerSteps P client s id pos s' t') :
      Steps (.answer id pos) s' t' []
  | read : Steps .read s (.readFrom s.recvBuf) []
  | abandons (b) : Steps (.readFrom b) s .finished []
  | returns {b : Nat} {buffer : Buffer} {size now buffer' data origins}
      (found : s.buffers[b]? = some buffer)
      (read : buffer.read size now = some (.ok (data, origins), buffer')) :
      Steps (.readFrom b) (s.on fun core =>
        { core with buffers := core.buffers.set b buffer' }.emit (.returned b data origins))
        .finished []

variable {P client s}

theorem readerStep_steps {g b : Nat} {channel : DataChannel} {pc : ReadPc} :
    Steps P client s (.reader g b channel pc) (readerStep P options choice s g b channel pc).1
      (readerStep P options choice s g b channel pc).2 [] := by
  cases pc with
  | writeBuffer raw => exact .writes g b channel raw _ _
  | finished => exact .fails g b channel
  | _ => exact .receives nofun

theorem loopStep_goes {generation : UInt64} {origin : Nat} (pos : LoopPos) :
    loopStep s generation origin pos = .finished ∨
      (∃ pos', loopStep s generation origin pos = .loop generation origin pos') ∨
      loopStep s generation origin pos = .connecting (.loop generation origin) := by
  cases pos <;> simp only [loopStep] <;> split_ifs <;> simp

theorem advance_steps (moved : advance P client options choice s t = some (s', t', spawned)) :
    Steps P client s t s' t' spawned := by
  cases t with
  | finished => cases moved
  | connectCall | read => cases moved; constructor
  | disconnectCall reconnect =>
    cases moved
    exact .disconnectCall reconnect (ite_eq_or_eq _ _ _).symm
  | connecting caller =>
    simp only [advance] at moved
    split_ifs at moved with busy <;> cases moved
    · exact .refused caller
    · simp only [not_or, Bool.not_eq_true] at busy
      exact .begins caller busy.1 busy.2
  | connect caller id pos => exact .connect (connectStep_steps moved)
  | disconnect closes after pos =>
    obtain ⟨step, rfl⟩ := alone_eq moved
    exact .disconnect (disconnectStep_steps step)
  | reader g b channel pc =>
    cases moved
    exact readerStep_steps
  | monitor g current =>
    cases current <;> cases moved <;> refine .monitors ?_ <;> split_ifs <;> simp
  | finish g agent pos => exact .finish (finishStep_steps moved)
  | loop generation origin pos =>
    cases moved
    exact .loops (loopStep_goes pos)
  | checking generation id =>
    cases moved
    split_ifs
    · exact .drops generation id
    · exact .passes generation id
  | answer id pos =>
    obtain ⟨step, rfl⟩ := alone_eq moved
    exact .answer (answerStep_steps step)
  | readFrom b =>
    simp only [advance] at moved
    split at moved
    · cases moved
    next buffer found =>
      split at moved <;> cases moved
      · exact .abandons b
      next read => exact .returns found read

variable (P client s)

inductive Occurs : Shared → List Thread → Prop
  | connect : Occurs s [.connectCall]
  | disconnect (reconnect) : Occurs s [.disconnectCall reconnect]
  | read : Occurs s [.read]
  | hello {id hello data random handshake} (known : s.hello id = some hello)
      (accepted : client.handleServerHello P data hello random = .ok handshake) :
      Occurs ({ s with handshakeCh := Function.update s.handshakeCh id (some handshake) }.record
        (.accepted id data random handshake)) []
  | answer (id data) : Occurs s [.answer id (.decode data)]

variable {P client s}

theorem occur_occurs {call : Call} (happened : occur P client s call = some (s', spawned)) :
    Occurs P client s s' spawned := by
  cases call with
  | deliverHello id data random =>
    obtain ⟨_, delivered, same⟩ := Option.map_eq_some_iff.mp happened
    cases same
    simp only [deliverHello] at delivered
    split at delivered
    · cases delivered
    next hello known =>
      split at delivered
      · cases delivered
      next handshake accepted =>
        split_ifs at delivered
        cases delivered
        exact .hello known accepted
  | deliverAnswer id data =>
    simp only [occur] at happened
    split_ifs at happened
    cases happened
    exact .answer id data
  | connect | disconnect | reconnect | read => cases happened; constructor

end Steps

end Telekit.ClientMachine
