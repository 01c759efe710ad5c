import Telekit.ServerMachine

/-! What one step of the running server can do. For each kind of thread a relation
lists the branches of its step function: the position and the condition under which
a branch is taken, what it does to the shared state, and where the thread goes on.
The step functions are taken apart here only; leases, registry, disclosures and
negotiations are then followed through these relations, so that a change of one
handler is a change of its relation and of the cases that mention it. -/

namespace Telekit

theorem ServerState.reserveCounter_some {counter limit counter' : Int}
    (reserved : reserveCounter counter limit = some counter') :
    counter' = counter + 1 ∧ counter' ≤ limit := by
  unfold reserveCounter at reserved
  split_ifs at reserved with full
  cases reserved
  omega

section Updates
variable {cache : Lru.Cache Bytes Int} (s : ServerState cache) {i : Nat}

theorem ServerState.swapPendingLease_fst :
    (s.swapPendingLease i).1 = s.pool[i]?.any (·.pendingLease) := by
  unfold swapPendingLease
  cases s.pool[i]? <;> rfl

theorem ServerState.swapTotalLease_fst :
    (s.swapTotalLease i).1 = s.pool[i]?.any (·.totalLease) := by
  unfold swapTotalLease
  cases s.pool[i]? <;> rfl

end Updates

namespace ServerMachine
variable {cache : Lru.Cache Bytes Int}

theorem Shared.on_update_const (s : Shared cache) {i : Nat} {c : Connection}
    (found : s.pool[i]? = some c) (f : Connection → Connection) :
    s.on (·.update i fun _ => f c) = s.on (·.update i f) := by
  simp only [on, ServerState.update, found]

section Close
variable (s : Shared cache) (i : Nat)

inductive CloseSteps : ClosePos → Shared cache → Option ClosePos → Prop
  | stores {c} (found : s.pool[i]? = some c) :
      CloseSteps .store (s.on (·.storeClosed i)) (some .once)
  | enters {c} (found : s.pool[i]? = some c) (first : c.closeEntered = false) :
      CloseSteps .once (s.on (·.enterClose i)) (some .remove)
  | waits {c} (found : s.pool[i]? = some c) (done : c.closeDone = true) :
      CloseSteps .once (s.log (.closeReturned i)) none
  | removes (unlocked : s.connectionsMu = none) :
      CloseSteps .remove (s.on (·.removeCurrent i)) (some .stopTimer)
  | stopsTimer : CloseSteps .stopTimer (s.on (·.stopHandshakeTimer i)) (some .swapPending)
  | takesPending (leased : s.pool[i]?.any (·.pendingLease) = true) :
      CloseSteps .swapPending (s.on (·.update i fun c => { c with pendingLease := false }))
        (some .dropPending)
  | leavesPending (released : ¬ s.pool[i]?.any (·.pendingLease)) :
      CloseSteps .swapPending (s.on (·.update i fun c => { c with pendingLease := false }))
        (some .swapTotal)
  | dropsPending : CloseSteps .dropPending (s.on (·.dropPending)) (some .swapTotal)
  | takesTotal (leased : s.pool[i]?.any (·.totalLease) = true) :
      CloseSteps .swapTotal (s.on (·.update i fun c => { c with totalLease := false }))
        (some .dropTotal)
  | leavesTotal (released : ¬ s.pool[i]?.any (·.totalLease)) :
      CloseSteps .swapTotal (s.on (·.update i fun c => { c with totalLease := false }))
        (some .clear)
  | dropsTotal : CloseSteps .dropTotal (s.on (·.dropTotal)) (some .clear)
  | clears : CloseSteps .clear (s.on (·.clearState i))
      (some (.leave (s.pool[i]?.bind (·.transportConn)) (s.pool[i]?.bind (·.iceAgent))))
  | leaves (transport agent) :
      CloseSteps (.leave transport agent)
      (((s.closeTaken transport agent).on (·.leaveClose i)).log (.closeReturned i)) none

end Close

theorem closeStep_steps {s s' : Shared cache} {i : Nat} {pos : ClosePos} {after : Option ClosePos}
    (moved : closeStep s i pos = some (s', after)) : CloseSteps s i pos s' after := by
  cases pos with
  | store =>
    simp only [closeStep] at moved
    split at moved <;> cases moved
    next c found => exact .stores found
  | once =>
    simp only [closeStep] at moved
    split at moved
    · cases moved
    next c found =>
      split_ifs at moved with first done <;> cases moved
      · exact .enters found first
      · exact .waits found done
  | remove =>
    simp only [closeStep] at moved
    split_ifs at moved with locked
    cases moved
    exact .removes (by simpa using locked)
  | swapPending =>
    simp only [closeStep, ServerState.swapPendingLease_snd, ServerState.swapPendingLease_fst]
      at moved
    split_ifs at moved with leased <;> cases moved
    · exact .takesPending leased
    · exact .leavesPending leased
  | swapTotal =>
    simp only [closeStep, ServerState.swapTotalLease_snd, ServerState.swapTotalLease_fst] at moved
    split_ifs at moved with leased <;> cases moved
    · exact .takesTotal leased
    · exact .leavesTotal leased
  | stopTimer | dropPending | dropTotal | clear | leave => cases moved; constructor

section Handlers
variable {P : Primitives} (server : Server P) (choice : Choice) (s : Shared cache) (i : Nat)
  (locals : Locals) (input : HelloInput) (data : Bytes)

inductive HelloSteps : HelloPos → Shared cache → Thread → Prop
  | authenticates {hello}
      (authentic : server.authenticate input.proofRandom input.skewTime data = .ok (some hello)) :
      HelloSteps .lookup s
        (.hello input data (.prepare (s.connections hello.sourceId) hello))
  | rejects (rejected : ∀ hello,
        server.authenticate input.proofRandom input.skewTime data ≠ .ok (some hello)) :
      HelloSteps .lookup s .finished
  | isNew (hello) : HelloSteps (.prepare none hello) s (.hello input data (.nonce none hello))
  | reuses {i : Nat} {hello} (reusable : s.reuses (some i) hello = true) :
      HelloSteps (.prepare (some i) hello) s (.hello input data (.setCheck i))
  | replaces {i : Nat} {hello} (other : ¬ s.reuses (some i) hello) :
      HelloSteps (.prepare (some i) hello) s
        (.hello input data (.nonce (some i) hello))
  | replayed {existing hello} (nonces)
      (seen : (s.isNonceAvailable server hello.nonce input.lookupTime input.addTime).1 = false) :
      HelloSteps (.nonce existing hello)
        (s.on fun state => { state with nonceCache := nonces }) .finished
  | admits {hello} (nonces)
      (unseen : (s.isNonceAvailable server hello.nonce input.lookupTime input.addTime).1 = true) :
      HelloSteps (.nonce none hello)
        (s.on fun state => { state with nonceCache := nonces })
        (.hello input data (.reserveTotal hello))
  | evicts {i : Nat} {hello} (nonces)
      (unseen : (s.isNonceAvailable server hello.nonce input.lookupTime input.addTime).1 = true) :
      HelloSteps (.nonce (some i) hello)
        (s.on fun state => { state with nonceCache := nonces })
        (.closing i .store (some (input, data, hello)))
  | unjoined (hello) (alone : input.join = false) : HelloSteps (.reserveTotal hello) s .finished
  | full (hello)
      (none : ServerState.reserveCounter s.totalConnections server.options.maxConnections = none) :
      HelloSteps (.reserveTotal hello) s .finished
  | reservesTotal (hello) (room : s.totalConnections + 1 ≤ server.options.maxConnections) :
      HelloSteps (.reserveTotal hello)
        (s.on fun state => { state with totalConnections := s.totalConnections + 1 })
        (.hello input data (.reservePending hello))
  | crowded (hello)
      (none : ServerState.reserveCounter s.pendingHandshakes
        server.options.maxPendingHandshakes = none) :
      HelloSteps (.reservePending hello) s (.hello input data .undoTotal)
  | reservesPending (hello) (room : s.pendingHandshakes + 1 ≤ server.options.maxPendingHandshakes) :
      HelloSteps (.reservePending hello)
        (s.on fun state => { state with pendingHandshakes := s.pendingHandshakes + 1 })
        (.hello input data (.create hello))
  | undoesTotal : HelloSteps .undoTotal (s.on (·.dropTotal)) .finished
  | fails {hello err} (failed : server.createConnection hello input.random = .error err) :
      HelloSteps (.create hello) s (.hello input data .undoPending)
  | creates {hello conn} (made : server.createConnection hello input.random = .ok conn) :
      HelloSteps (.create hello)
        ((s.on fun state => { state with pool := state.pool ++ [conn] }).log
          (.created s.pool.length input data hello)) (.hello input data (.setCheck s.pool.length))
  | undoesPending : HelloSteps .undoPending (s.on (·.dropPending)) (.hello input data .undoTotal)
  | refuses {i : Nat} {c} (found : s.pool[i]? = some c) (shut : s.closed = true ∨ c.closed = true) :
      HelloSteps (.setCheck i) s (.closing i .store none)
  | checks {i : Nat} {c} (found : s.pool[i]? = some c) (unlocked : s.connectionsMu = none)
      (serving : s.closed = false) (opened : c.closed = false) :
      HelloSteps (.setCheck i) { s with connectionsMu := some i }
        (.hello input data (.setAct i))
  | sets {i : Nat} {c} (found : s.pool[i]? = some c) :
      HelloSteps (.setAct i)
        { s.on (·.register c.sourceId (some i)) with connectionsMu := none }
        (.hello input data (.startTimer i))
  | startsTimer (i : Nat) : HelloSteps (.startTimer i) (s.on (·.startHandshakeTimer i))
        (.hello input data (.send i))
  | sends (i : Nat) (codec) (published : input.published = true) :
      HelloSteps (.send i)
        (s.on (·.update i fun c => { c with handshakeCodec := codec })) .finished
  | unsent (i : Nat) (codec) :
      HelloSteps (.send i)
        (s.on (·.update i fun c => { c with handshakeCodec := codec })) (.closing i .store none)

variable {server} in
theorem helloStep_steps {s s' : Shared cache} {input : HelloInput} {data : Bytes} {pos : HelloPos}
    {t' : Thread} (moved : helloStep server s input data pos = some (s', t')) :
    HelloSteps server s input data pos s' t' := by
  cases pos with
  | lookup =>
    simp only [helloStep] at moved
    split at moved <;> cases moved
    next hello authentic => exact .authenticates authentic
    next rejected => exact .rejects rejected
  | prepare existing hello =>
    cases existing with
    | none =>
      cases moved
      exact .isNew hello
    | some i =>
      simp only [helloStep] at moved
      split_ifs at moved with reusable <;> cases moved
      · exact .reuses reusable
      · exact .replaces reusable
  | nonce existing hello =>
    obtain ⟨nonces, same⟩ :=
      s.isNonceAvailable_snd server hello.nonce input.lookupTime input.addTime
    simp only [helloStep] at moved
    split at moved <;> rename_i state available <;> rw [available] at same <;> cases same <;>
      cases moved
    · exact .replayed nonces (by rw [available])
    · cases existing with
      | none => exact .admits nonces (by rw [available])
      | some i => exact .evicts nonces (by rw [available])
  | reserveTotal hello =>
    simp only [helloStep] at moved
    split_ifs at moved with alone
    · cases moved
      exact .unjoined hello alone
    · split at moved <;> cases moved
      next none => exact .full hello none
      next total reserved =>
        obtain ⟨rfl, room⟩ := ServerState.reserveCounter_some reserved
        exact .reservesTotal hello room
  | reservePending hello =>
    simp only [helloStep] at moved
    split at moved <;> cases moved
    next none => exact .crowded hello none
    next pending reserved =>
      obtain ⟨rfl, room⟩ := ServerState.reserveCounter_some reserved
      exact .reservesPending hello room
  | create hello =>
    simp only [helloStep] at moved
    split at moved <;> cases moved
    next err failed => exact .fails failed
    next conn made => exact .creates made
  | setCheck i =>
    simp only [helloStep] at moved
    split_ifs at moved with locked
    split at moved
    · cases moved
    next c found =>
      split_ifs at moved with shut <;> cases moved
      · exact .refuses found shut
      · simp only [not_or, Bool.not_eq_true] at shut
        exact .checks found (by simpa using locked) shut.1 shut.2
  | setAct i =>
    simp only [helloStep] at moved
    split at moved <;> cases moved
    next c found => exact .sets found
  | send i =>
    simp only [helloStep] at moved
    split at moved <;> cases moved
    next conn found =>
      obtain ⟨codec, sent⟩ := server.sendServerHello_snd conn
      rw [sent, s.on_update_const found fun c => { c with handshakeCodec := codec }]
      split_ifs with delivered
      · exact .sends i codec delivered.2
      · exact .unsent i codec
  | undoTotal | undoPending | startTimer => cases moved; constructor

inductive Dispatches (data : Bytes) (i : Nat) (message : Message) : Thread → Prop
  | disconnects (typ : (message.header.getD {}).typ = .disconnect) :
      Dispatches data i message (.closing i .store none)
  | selects (typ : (message.header.getD {}).typ = .transportSelect)
      (known : (message.payload.getD {}).transport ∈ server.transports) : Dispatches data i message
        (.offer data (.storeSelected i (message.payload.getD {}).transport))
  | offers (typ : (message.header.getD {}).typ = .iceOffer) (offer) :
      Dispatches data i message (.offer data (.keepOffer i offer))
  | ignores : Dispatches data i message .finished

theorem dispatch_dispatches (data : Bytes) (i : Nat) (message : Message) :
    Dispatches server data i message (dispatch server data i message) := by
  unfold dispatch
  simp only
  split
  next typ => exact .disconnects typ
  next typ =>
    split_ifs with known
    · exact .selects typ known
    · exact .ignores
  next typ =>
    split_ifs
    · exact .ignores
    · exact .offers typ _
    · exact .ignores
  · exact .ignores

inductive OfferSteps : OfferPos → Shared cache → Thread → List Thread → Prop
  | ignores : OfferSteps .lookup s .finished []
  | finds {header} {i : Nat} (decoded : ({} : Codec).decodeMessageHeader P data = .ok header)
      (addressed : header.targetId = server.serverId)
      (registered : s.connections header.sourceId = some i) :
      OfferSteps .lookup s (.offer data (.accept i)) []
  | refuses (i : Nat) : OfferSteps (.accept i) s .finished []
  | receives {i : Nat} {c message} (found : s.pool[i]? = some c)
      (decoded : c.codec.decodeMessage P data = .ok message) {window}
      (fresh : c.signalRecv.accept (message.header.getD {}).sequence = (true, window)) {t'}
      (goes : t' = .offer data (.current i message) ∨ message.payload = none ∧ t' = .finished) :
      OfferSteps (.accept i)
        ((s.on (·.update i fun c => { c with signalRecv := window })).log
          (.received i data message)) t' []
  | judges {i : Nat} {message} (current : s.isCurrent i = true) :
      OfferSteps (.current i message) s (dispatch server data i message) []
  | drops {i : Nat} {message} (gone : s.isCurrent i = false) :
      OfferSteps (.current i message) s .finished []
  | selects (i : Nat) (name) :
      OfferSteps (.storeSelected i name)
        (s.on (·.update i fun c =>
          if c.closed = false ∧ c.selectedTransport = [] then { c with selectedTransport := name }
          else c)) (.offer data (.takePending i)) []
  | takes {i : Nat} {c offer} (found : s.pool[i]? = some c) (opened : c.closed = false)
      (kept : c.pendingICEOffer = some offer) :
      OfferSteps (.takePending i)
        ((s.on (·.update i fun c => { c with pendingICEOffer := none })).note (.started i offer))
        .finished [.ice i { remote := offer } .setup]
  | skips {i : Nat} {c} (found : s.pool[i]? = some c)
      (nothing : c.closed = true ∨ c.pendingICEOffer = none) :
      OfferSteps (.takePending i) s .finished []
  | misses {i : Nat} {c offer} (found : s.pool[i]? = some c) (closed : c.closed = true) :
      OfferSteps (.keepOffer i offer) s .finished []
  | starts {i : Nat} {c offer} (found : s.pool[i]? = some c) (opened : c.closed = false)
      (chosen : c.selectedTransport ≠ []) :
      OfferSteps (.keepOffer i offer) (s.note (.started i offer)) .finished
        [.ice i { remote := offer } .setup]
  | keeps {i : Nat} {c offer} (found : s.pool[i]? = some c) (opened : c.closed = false)
      (unchosen : c.selectedTransport = []) :
      OfferSteps (.keepOffer i offer)
        (s.on (·.update i fun c => { c with pendingICEOffer := some offer })) .finished []

variable {server} in
theorem offerStep_steps {s s' : Shared cache} {data : Bytes} {pos : OfferPos} {t' : Thread}
    {spawned : List Thread} (moved : offerStep server s data pos = some (s', t', spawned)) :
    OfferSteps server s data pos s' t' spawned := by
  cases pos with
  | lookup =>
    simp only [offerStep] at moved
    split at moved
    · cases moved
      exact .ignores
    next header decoded =>
      split_ifs at moved with foreign
      · cases moved
        exact .ignores
      · split at moved <;> cases moved
        · exact .ignores
        next i registered => exact .finds decoded (not_not.mp foreign) registered
  | accept i =>
    simp only [offerStep] at moved
    split at moved
    · cases moved
    next c found =>
      split at moved
      · cases moved
        exact .refuses i
      next message decoded =>
        split at moved <;> cases moved
        · exact .refuses i
        next window fresh =>
          refine .receives found decoded fresh ?_
          split_ifs with empty
          · exact .inr ⟨empty, rfl⟩
          · exact .inl rfl
  | current i message =>
    simp only [offerStep] at moved
    split_ifs at moved with current <;> cases moved
    · exact .judges current
    · exact .drops (Bool.eq_false_iff.mpr current)
  | storeSelected i name =>
    cases moved
    exact .selects i name
  | takePending i =>
    simp only [offerStep] at moved
    split at moved
    · cases moved
    next c found =>
      split at moved <;> cases moved
      next offer opened kept => exact .takes found opened kept
      next nothing =>
        refine .skips found ?_
        cases closed : c.closed with
        | true => exact .inl rfl
        | false =>
          cases kept : c.pendingICEOffer with
          | none => exact .inr rfl
          | some offer => exact (nothing offer closed kept).elim
  | keepOffer i offer =>
    simp only [offerStep] at moved
    split at moved
    · cases moved
    next c found =>
      split_ifs at moved with closed chosen <;> cases moved
      · exact .misses found closed
      · exact .starts found (Bool.eq_false_iff.mpr closed) chosen
      · exact .keeps found (Bool.eq_false_iff.mpr closed) (not_not.mp chosen)

/-- Where `handleICEOffer` turns to when it leaves the shared state alone. -/
inductive ICETurns : ICEPos → Thread → Prop
  | names {c} (found : s.pool[i]? = some c) (free : s.available i = true)
      (chosen : c.selectedTransport ≠ []) :
      ICETurns .setup
        (.ice i { locals with selectedName := c.selectedTransport } .setupCurrent)
  | notReady {c} (found : s.pool[i]? = some c)
      (busy : ¬(s.available i = true ∧ c.selectedTransport ≠ [])) : ICETurns .setup .finished
  | stillCurrent (current : s.isCurrent i = true) : ICETurns .setupCurrent (.ice i locals .newAgent)
  | replaced (gone : ¬ s.isCurrent i) : ICETurns .setupCurrent .finished
  | relays (ok : choice.ok = true) : ICETurns .relay (.ice i locals .gather)
  | noRelay (failed : ¬ choice.ok) : ICETurns .relay (.closing i .store none)
  | ungathered (owned : s.ownsICEAgent i locals.agent = true) :
      ICETurns .gatherFailed (.closing i .store none)
  | gathers (owned : s.ownsICEAgent i locals.agent = true) (fits : (validateICEDescriptionLimits
        locals.description server.options.maxPendingICE
        server.options.maxPendingICEBytes).isOk = true) : ICETurns .gathered (.ice i locals .answer)
  | oversized (owned : s.ownsICEAgent i locals.agent = true) :
      ICETurns .gathered (.closing i .store none)
  | answers (owned : s.ownsICEAgent i locals.agent = true) :
      ICETurns .answer (.ice i locals .publish)
  | unanswered (lost : ¬ s.ownsICEAgent i locals.agent) : ICETurns .answer .finished
  | accepted (ok : choice.ok = true) : ICETurns .acceptICE (.ice i locals .owned)
  | unaccepted (failed : ¬ choice.ok) : ICETurns .acceptICE (.closing i .store none)
  | owns (owned : s.ownsICEAgent i locals.agent = true)
      (known : locals.selectedName ∈ server.transports) : ICETurns .owned (.ice i locals .dial)
  | lost (lost : s.ownsICEAgent i locals.agent = false) : ICETurns .owned .finished
  | unknown (unknown : locals.selectedName ∉ server.transports) :
      ICETurns .owned (.closing i .store none)
  | undialled (failed : ¬ choice.ok) : ICETurns .dial (.closing i .store none)
  | reads : ICETurns .transportState
      (.ice i { locals with channel := s.pool[i]?.any (·.dataChannel.isSome) } .establish)
  | establishes (awaited : s.awaitsEstablished i locals.agent locals.transport = true) :
      ICETurns .establish (.ice i locals .storeEstablished)
  | unestablished (gone : ¬ s.awaitsEstablished i locals.agent locals.transport) :
      ICETurns .establish (.closing i .store none)
  | proceeds (current : s.isCurrentTransport i locals.transport locals.channel = true) :
      ICETurns .current (.ice i locals .deliver)
  | outdated (gone : ¬ s.isCurrentTransport i locals.transport locals.channel) :
      ICETurns .current (.closing i .store none)
  | delivers (ok : choice.ok = true) : ICETurns .deliver .finished
  | undelivered (failed : ¬ choice.ok) : ICETurns .deliver (.closing i .store none)

inductive ICESteps : ICEPos → Shared cache → Thread → Prop
  | turns {pos t'} (turn : ICETurns server choice s i locals pos t') : ICESteps pos s t'
  | makesAgent (ok : choice.ok = true) :
      ICESteps .newAgent ((s.makeAgent i).log (.disclosed i .agent))
        (.ice i { locals with agent := s.agents.length } .install)
  | noAgent (failed : ¬ choice.ok) :
      ICESteps .newAgent (s.log (.disclosed i .agent)) (.closing i .store none)
  | installsAgent (free : s.available i = true) (current : s.isCurrent i = true) : ICESteps .install
        ((s.on (·.update i fun c => { c with iceAgent := some locals.agent })).note
          (.agentInstalled i locals.agent)) (.ice i locals .relay)
  | refusesAgent (late : ¬(s.available i = true ∧ s.isCurrent i = true)) :
      ICESteps .install (s.closeAgent locals.agent) .finished
  | gathers {locals' pos}
      (goes : locals' = { locals with description := choice.description } ∧ pos = .gathered ∨
        locals' = locals ∧ pos = .gatherFailed) :
      ICESteps .gather (s.log (.disclosed i .gathering)) (.ice i locals' pos)
  | discards {pos} (at_ : pos = .gatherFailed ∨ pos = .gathered)
      (lost : ¬ s.ownsICEAgent i locals.agent) :
      ICESteps pos (s.closeAgent locals.agent) .finished
  | publishes (sequence codec) {t'}
      (goes : t' = .ice i locals .acceptICE ∨ t' = .closing i .store none) :
      ICESteps .publish
        ((s.on (·.update i fun c =>
          { c with signalSend := sequence, codec := { c.codec with sendCodec := codec } })).log
          (.disclosed i .answer)) t'
  | unpublished (sequence codec) :
      ICESteps .publish
        (s.on (·.update i fun c =>
          { c with signalSend := sequence, codec := { c.codec with sendCodec := codec } }))
        (.closing i .store none)
  | dials (ok : choice.ok = true) : ICESteps .dial
        (s.makeTransport ⟨i, locals.agent, locals.selectedName, false⟩)
        (.ice i { locals with transport := s.transports.length } .installTransport)
  | installsTransport (awaited : s.awaitsTransport i locals.agent = true) :
      ICESteps .installTransport
        ((s.on (·.update i fun c => { c with transportConn := some locals.transport })).note
          (.transportInstalled i locals.transport)) (.ice i locals .transportState)
  | rejectsTransport (gone : ¬ s.awaitsTransport i locals.agent) :
      ICESteps .installTransport (s.closeTransport locals.transport) .finished
  | establishes : ICESteps .storeEstablished
      (s.on (·.update i fun c => { c with established := true })) (.ice i locals .swapPending)
  | takesPending (leased : s.pool[i]?.any (·.pendingLease) = true) : ICESteps .swapPending
        (s.on (·.update i fun c => { c with pendingLease := false })) (.ice i locals .dropPending)
  | leavesPending (released : ¬ s.pool[i]?.any (·.pendingLease)) : ICESteps .swapPending
        (s.on (·.update i fun c => { c with pendingLease := false })) (.ice i locals .stopTimer)
  | dropsPending : ICESteps .dropPending (s.on (·.dropPending)) (.ice i locals .stopTimer)
  | stopsTimer : ICESteps .stopTimer (s.on (·.stopHandshakeTimer i))
      (.ice i locals .current)

variable {server} in
theorem iceStep_steps {choice : Choice} {s s' : Shared cache} {i : Nat} {locals : Locals}
    {pos : ICEPos} {t' : Thread} (moved : iceStep server choice s i locals pos = some (s', t')) :
    ICESteps server choice s i locals pos s' t' := by
  cases pos with
  | setup =>
    simp only [iceStep] at moved
    split at moved
    · cases moved
    next c found =>
      split_ifs at moved with ready <;> cases moved
      · exact .turns (.names found ready.1 ready.2)
      · exact .turns (.notReady found ready)
  | setupCurrent =>
    simp only [iceStep] at moved
    split_ifs at moved with current <;> cases moved
    · exact .turns (.stillCurrent current)
    · exact .turns (.replaced current)
  | newAgent =>
    simp only [iceStep] at moved
    split_ifs at moved with ok <;> cases moved
    · exact .makesAgent ok
    · exact .noAgent ok
  | install =>
    simp only [iceStep] at moved
    split_ifs at moved with free <;> cases moved
    · exact .installsAgent free.1 free.2
    · exact .refusesAgent free
  | relay =>
    simp only [iceStep] at moved
    split_ifs at moved with ok <;> cases moved
    · exact .turns (.relays ok)
    · exact .turns (.noRelay ok)
  | gather =>
    simp only [iceStep] at moved
    split_ifs at moved <;> cases moved
    · exact .gathers (.inl ⟨rfl, rfl⟩)
    · exact .gathers (.inr ⟨rfl, rfl⟩)
  | gatherFailed =>
    simp only [iceStep] at moved
    split_ifs at moved with owned <;> cases moved
    · exact .turns (.ungathered owned)
    · exact .discards (.inl rfl) owned
  | gathered =>
    simp only [iceStep] at moved
    split_ifs at moved with lost fits <;> cases moved
    · exact .discards (.inr rfl) (by simp [lost])
    · exact .turns (.gathers (Bool.not_eq_false _ ▸ lost) fits)
    · exact .turns (.oversized (Bool.not_eq_false _ ▸ lost))
  | answer =>
    simp only [iceStep] at moved
    split_ifs at moved with owned <;> cases moved
    · exact .turns (.answers owned)
    · exact .turns (.unanswered owned)
  | publish =>
    simp only [iceStep] at moved
    split at moved
    · cases moved
    next c found =>
      obtain ⟨sequence, codec, sent⟩ := server.sendICEAnswer_snd c locals.description
      rw [sent, s.on_update_const found fun c =>
        { c with signalSend := sequence, codec := { c.codec with sendCodec := codec } }] at moved
      split_ifs at moved <;> cases moved
      · exact .publishes sequence codec (.inl rfl)
      · exact .publishes sequence codec (.inr rfl)
      · exact .unpublished sequence codec
  | acceptICE =>
    simp only [iceStep] at moved
    split_ifs at moved with ok <;> cases moved
    · exact .turns (.accepted ok)
    · exact .turns (.unaccepted ok)
  | owned =>
    simp only [iceStep] at moved
    split_ifs at moved with lost known <;> cases moved
    · exact .turns (.lost lost)
    · exact .turns (.owns (Bool.not_eq_false _ ▸ lost) known)
    · exact .turns (.unknown known)
  | dial =>
    simp only [iceStep] at moved
    split_ifs at moved with ok <;> cases moved
    · exact .dials ok
    · exact .turns (.undialled ok)
  | installTransport =>
    simp only [iceStep] at moved
    split_ifs at moved with awaited <;> cases moved
    · exact .installsTransport awaited
    · exact .rejectsTransport awaited
  | establish =>
    simp only [iceStep] at moved
    split_ifs at moved with awaited <;> cases moved
    · exact .turns (.establishes awaited)
    · exact .turns (.unestablished awaited)
  | swapPending =>
    simp only [iceStep, ServerState.swapPendingLease_snd, ServerState.swapPendingLease_fst] at moved
    split_ifs at moved with leased <;> cases moved
    · exact .takesPending leased
    · exact .leavesPending leased
  | current =>
    simp only [iceStep] at moved
    split_ifs at moved with current <;> cases moved
    · exact .turns (.proceeds current)
    · exact .turns (.outdated current)
  | deliver =>
    simp only [iceStep] at moved
    split_ifs at moved with ok <;> cases moved
    · exact .turns (.delivers ok)
    · exact .turns (.undelivered ok)
  | transportState =>
    cases moved
    exact .turns .reads
  | storeEstablished | dropPending | stopTimer => cases moved; constructor

inductive Steps : Thread → Shared cache → Thread → List Thread → Prop
  | hello {input data pos s' t'} (steps : HelloSteps server s input data pos s' t') :
      Steps (.hello input data pos) s' t' []
  | closing {i : Nat} {pos next s' after} (steps : CloseSteps s i pos s' after) :
      Steps (.closing i pos next) s' (.resume i next after) []
  | fires {i : Nat} (pending : s.pool[i]?.any (·.pendingLease) = true) :
      Steps (.timer i) s (.closing i .store none) []
  | lapses {i : Nat} (released : ¬ s.pool[i]?.any (·.pendingLease)) :
      Steps (.timer i) s .finished []
  | offer {data pos s' t' spawned} (steps : OfferSteps server s data pos s' t' spawned) :
      Steps (.offer data pos) s' t' spawned
  | ice {i : Nat} {locals pos s' t'} (steps : ICESteps server choice s i locals pos s' t') :
      Steps (.ice i locals pos) s' t' []

variable {server} in
theorem advance_steps {choice : Choice} {s s' : Shared cache} {t t' : Thread}
    {spawned : List Thread} (moved : advance server choice s t = some (s', t', spawned)) :
    Steps server choice s t s' t' spawned := by
  cases t with
  | finished => cases moved
  | hello input data pos =>
    simp only [advance, Option.map_eq_some_iff] at moved
    obtain ⟨⟨s₁, t₁⟩, stepped, same⟩ := moved
    cases same
    exact .hello (helloStep_steps stepped)
  | closing i pos next =>
    simp only [advance, Option.map_eq_some_iff] at moved
    obtain ⟨⟨s₁, after⟩, stepped, same⟩ := moved
    cases same
    exact .closing (closeStep_steps stepped)
  | timer i =>
    simp only [advance] at moved
    split_ifs at moved with pending <;> cases moved
    · exact .fires pending
    · exact .lapses pending
  | offer data pos => exact .offer (offerStep_steps moved)
  | ice i locals pos =>
    simp only [advance, Option.map_eq_some_iff] at moved
    obtain ⟨⟨s₁, t₁⟩, stepped, same⟩ := moved
    cases same
    exact .ice (iceStep_steps stepped)

end Handlers

inductive Occurs (s : Shared cache) : Shared cache → List Thread → Prop
  | hello (input data) : Occurs s s [.hello input data .lookup]
  | offer (data) : Occurs s s [.offer data .lookup]
  | close {i : Nat} (inside : i < s.pool.length) : Occurs s s [.closing i .store none]
  | timer {i : Nat} (running : s.pool[i]?.any (·.handshakeTimer) = true) : Occurs s s [.timer i]
  | shutdown : Occurs s (s.on fun state => { state with closed := true }) []
  | clear (unlocked : s.connectionsMu = none) :
      Occurs s (s.on fun state => { state with connections := fun _ => none }) []

theorem occur_occurs {s s' : Shared cache} {call : Call} {spawned : List Thread}
    (happened : occur s call = some (s', spawned)) : Occurs s s' spawned := by
  cases call with
  | hello | offer | shutdown => cases happened; constructor
  | close i =>
    simp only [occur] at happened
    split_ifs at happened with inside
    cases happened
    exact .close inside
  | timer i =>
    simp only [occur] at happened
    split_ifs at happened with running
    cases happened
    exact .timer running
  | clear =>
    simp only [occur] at happened
    split_ifs at happened with locked
    cases happened
    exact .clear (by simpa using locked)

end ServerMachine
end Telekit
