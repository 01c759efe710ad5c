import Telekit.ServerSteps

/-! The negotiation of a server's connections, without leases, registry and
packets. Of a connection only its standing matters, of a thread the role it
plays: what it is about to do to a connection, and which agent or data transport
is in its hands. A transition is what a step does to the world together with the
role of the thread that takes it. Every step of the running server is a
transition, so what holds of negotiations is proved of transitions. -/

namespace Telekit

structure Standing where
  sourceId : GoString
  receiveCodec : Codec
  closed : Bool := false
  closeEntered : Bool := false
  closeDone : Bool := false
  selectedTransport : GoString := []
  pendingICEOffer : Option ICEDescription := none
  iceAgent : Option Nat := none
  transportConn : Option Nat := none

def Connection.standing (c : Connection) : Standing :=
  ⟨c.sourceId, c.codec.receiveCodec, c.closed, c.closeEntered, c.closeDone, c.selectedTransport,
    c.pendingICEOffer, c.iceAgent, c.transportConn⟩

namespace Standing

def choose (name : GoString) (st : Standing) : Standing :=
  if st.closed = false ∧ st.selectedTransport = [] then { st with selectedTransport := name }
  else st

def stow (offer : Option ICEDescription) (st : Standing) : Standing :=
  { st with pendingICEOffer := offer }

def carry (agent : Nat) (st : Standing) : Standing := { st with iceAgent := some agent }

def attach (transport : Nat) (st : Standing) : Standing :=
  { st with transportConn := some transport }

def shut (st : Standing) : Standing := { st with closed := true }

def enter (st : Standing) : Standing := { st with closeEntered := true }

def clear (st : Standing) : Standing := { st with iceAgent := none, transportConn := none }

def finish (st : Standing) : Standing := { st with closeDone := true }

end Standing

namespace ServerMachine

structure World where
  standings : List Standing := []
  agents : List Agent := []
  transports : List DataTransport := []
  negotiations : List Negotiation := []
  receipts : List (Nat × Message) := []

namespace World
variable (w : World)

def modify (i : Nat) (f : Standing → Standing) : World :=
  { w with standings := w.standings.modify i f }

def create (sourceId : GoString) (codec : Codec) : World :=
  { w with standings := w.standings ++ [{ sourceId := sourceId, receiveCodec := codec }] }

def note (negotiation : Negotiation) : World :=
  { w with negotiations := w.negotiations ++ [negotiation] }

def slot (field : Standing → Option Nat) (i : Nat) : Option Nat := w.standings[i]?.bind field

def closeAgent (agent : Nat) : World :=
  { w with agents := w.agents.modify agent fun a => { a with closed := true } }

def closeTransport (transport : Nat) : World :=
  { w with transports := w.transports.modify transport fun t => { t with closed := true } }

def closeTaken (transport agent : Option Nat) : World :=
  let w := transport.elim w w.closeTransport
  agent.elim w w.closeAgent

end World

/-- What a thread holds of a connection: `Close` past the flag and what it has taken, a
handler with an accepted message, and `handleICEOffer` with a name, an agent or a data
transport. -/
inductive Role
  | idle
  | closing (i : Nat)
  | inside (i : Nat)
  | leaving (i : Nat) (transport agent : Option Nat)
  | judging (i : Nat) (message : Message)
  | selecting (i : Nat) (name : GoString)
  | taking (i : Nat)
  | offering (i : Nat) (offer : ICEDescription)
  | begins (i : Nat)
  | named (i : Nat) (name : GoString)
  | made (i : Nat) (name : GoString) (agent : Nat)
  | owns (i : Nat) (name : GoString) (agent : Nat)
  | dialled (i : Nat) (name : GoString) (agent transport : Nat)
  | settled (i : Nat)

def ICEPos.role (i : Nat) (locals : Locals) : ICEPos → Role
  | .setup => .begins i
  | .setupCurrent | .newAgent => .named i locals.selectedName
  | .install => .made i locals.selectedName locals.agent
  | .relay | .gather | .gatherFailed | .gathered | .answer | .publish | .acceptICE | .owned
  | .dial => .owns i locals.selectedName locals.agent
  | .installTransport => .dialled i locals.selectedName locals.agent locals.transport
  | _ => .settled i

def ClosePos.role (i : Nat) : ClosePos → Role
  | .store => .idle
  | .once => .closing i
  | .leave transport agent => .leaving i transport agent
  | _ => .inside i

def OfferPos.role : OfferPos → Role
  | .current i message => .judging i message
  | .storeSelected i name => .selecting i name
  | .takePending i => .taking i
  | .keepOffer i offer => .offering i offer
  | _ => .idle

def Thread.role : Thread → Role
  | .closing i pos _ => pos.role i
  | .offer _ pos => pos.role
  | .ice i locals pos => pos.role i locals
  | _ => .idle

/-- `handleICEOffer` may return here without closing anything. -/
def Role.returns : Role → Bool
  | .begins _ | .named _ _ | .owns _ _ _ | .settled _ => true
  | _ => false

section Transitions
variable {P : Primitives} (server : Server P)

def judge (i : Nat) (message : Message) : Role := (dispatch server [] i message).role

theorem judge_cases (i : Nat) (message : Message) :
    judge server i message = .idle ∨
      ((message.header.getD {}).typ = .transportSelect ∧
        ∃ name, judge server i message = .selecting i name) ∨
      ((message.header.getD {}).typ = .iceOffer ∧
        ∃ offer, judge server i message = .offering i offer) := by
  unfold judge
  generalize leads : dispatch server [] i message = t
  have dispatches := dispatch_dispatches server [] i message
  rw [leads] at dispatches
  cases dispatches with
  | disconnects | ignores => exact .inl rfl
  | selects typ known => exact .inr (.inl ⟨typ, _, rfl⟩)
  | offers typ offer => exact .inr (.inr ⟨typ, offer, rfl⟩)

/-- What a thread can do to the negotiations; `current` tells which connections
are registered and open. -/
inductive Transition (current : Nat → Bool) (w : World) : Role → World → Role → List Role → Prop
  | keeps (v : Role) : Transition current w v w v []
  | returns (v : Role) (returns : v.returns = true) : Transition current w v w .idle []
  | creates (sourceId : GoString) (codec : Codec) :
      Transition current w .idle (w.create sourceId codec) .idle []
  | stores {i : Nat} {st : Standing} (found : w.standings[i]? = some st) :
      Transition current w .idle (w.modify i Standing.shut) (.closing i) []
  | enters {i : Nat} {st : Standing} (found : w.standings[i]? = some st)
      (first : st.closeEntered = false) :
      Transition current w (.closing i) (w.modify i Standing.enter) (.inside i) []
  | waits {i : Nat} {st : Standing} (found : w.standings[i]? = some st)
      (done : st.closeDone = true) : Transition current w (.closing i) w .idle []
  | clears (i : Nat) :
      Transition current w (.inside i) (w.modify i Standing.clear)
        (.leaving i (w.slot Standing.transportConn i) (w.slot Standing.iceAgent i)) []
  | leaves (i : Nat) (transport agent : Option Nat) :
      Transition current w (.leaving i transport agent)
        ((w.closeTaken transport agent).modify i Standing.finish) .idle []
  | receives {i : Nat} {message : Message} {v : Role}
      (goes : v = .judging i message ∨ message.payload = none ∧ v = .idle) :
      Transition current w .idle { w with receipts := w.receipts ++ [(i, message)] } v []
  | judges {i : Nat} {message : Message} (open_ : current i = true) :
      Transition current w (.judging i message) w (judge server i message) []
  | drops {i : Nat} {message : Message} (gone : current i = false) :
      Transition current w (.judging i message) w .idle []
  | selects (i : Nat) (name : GoString) :
      Transition current w (.selecting i name) (w.modify i (Standing.choose name)) (.taking i) []
  | takes {i : Nat} {st : Standing} {offer : ICEDescription} (found : w.standings[i]? = some st)
      (opened : st.closed = false) (kept : st.pendingICEOffer = some offer) :
      Transition current w (.taking i)
        ((w.modify i (Standing.stow none)).note (.started i offer)) .idle [.begins i]
  | skips {i : Nat} {st : Standing} (found : w.standings[i]? = some st)
      (nothing : st.closed = true ∨ st.pendingICEOffer = none) :
      Transition current w (.taking i) w .idle []
  | stows {i : Nat} {st : Standing} {offer : ICEDescription} (found : w.standings[i]? = some st)
      (opened : st.closed = false) (unchosen : st.selectedTransport = []) :
      Transition current w (.offering i offer)
        (w.modify i (Standing.stow (some offer))) .idle []
  | starts {i : Nat} {st : Standing} {offer : ICEDescription} (found : w.standings[i]? = some st)
      (opened : st.closed = false) (chosen : st.selectedTransport ≠ []) :
      Transition current w (.offering i offer) (w.note (.started i offer)) .idle [.begins i]
  | misses {i : Nat} {st : Standing} {offer : ICEDescription} (found : w.standings[i]? = some st)
      (closed : st.closed = true) : Transition current w (.offering i offer) w .idle []
  | names {i : Nat} {st : Standing} (found : w.standings[i]? = some st)
      (chosen : st.selectedTransport ≠ []) :
      Transition current w (.begins i) w (.named i st.selectedTransport) []
  | makes (i : Nat) (name : GoString) :
      Transition current w (.named i name) { w with agents := w.agents ++ [{ owner := i }] }
        (.made i name w.agents.length) []
  | installs {i : Nat} {name : GoString} {agent : Nat} {st : Standing}
      (found : w.standings[i]? = some st) (opened : st.closed = false)
      (vacant : st.iceAgent = none) :
      Transition current w (.made i name agent)
        ((w.modify i (Standing.carry agent)).note (.agentInstalled i agent))
        (.owns i name agent) []
  | refuses (i : Nat) (name : GoString) (agent : Nat) :
      Transition current w (.made i name agent) (w.closeAgent agent) .idle []
  | discards (i : Nat) (name : GoString) (agent : Nat) :
      Transition current w (.owns i name agent) (w.closeAgent agent) .idle []
  | dials (i : Nat) (name : GoString) (agent : Nat) :
      Transition current w (.owns i name agent)
        { w with transports := w.transports ++ [⟨i, agent, name, false⟩] }
        (.dialled i name agent w.transports.length) []
  | attaches {i : Nat} {name : GoString} {agent transport : Nat} {st : Standing}
      (found : w.standings[i]? = some st) (opened : st.closed = false)
      (owned : st.iceAgent = some agent) (vacant : st.transportConn = none) :
      Transition current w (.dialled i name agent transport)
        ((w.modify i (Standing.attach transport)).note (.transportInstalled i transport))
        (.settled i) []
  | rejects (i : Nat) (name : GoString) (agent transport : Nat) :
      Transition current w (.dialled i name agent transport) (w.closeTransport transport) .idle []

end Transitions

section Refinement
variable {P : Primitives} {server : Server P} {cache : Lru.Cache Bytes Int}
  {s s' : Shared cache} {t t' : Thread}

def Event.receipt : Event → Option (Nat × Message)
  | .received i _ message => some (i, message)
  | _ => none

def Shared.world (s : Shared cache) : World where
  standings := s.pool.map Connection.standing
  agents := s.agents
  transports := s.transports
  negotiations := s.negotiations
  receipts := s.trace.filterMap Event.receipt

variable {i : Nat}

theorem world_found {c : Connection} (found : s.pool[i]? = some c) :
    s.world.standings[i]? = some c.standing := by
  simp [Shared.world, found]

theorem world_log (s : Shared cache) {event : Event} (silent : event.receipt = none) :
    (s.log event).world = s.world := by
  simp [Shared.world, Shared.log, silent]

theorem world_note (s : Shared cache) (negotiation : Negotiation) :
    (s.note negotiation).world = s.world.note negotiation := rfl

theorem world_update (s : Shared cache) (i : Nat) {f : Connection → Connection}
    {g : Standing → Standing} (same : ∀ c : Connection, s.pool[i]? = some c →
      (f c).standing = g c.standing) :
    (s.on (·.update i f)).world = s.world.modify i g := by
  have standings : (s.update i f).pool.map Connection.standing =
      (s.pool.map Connection.standing).modify i g := by
    apply List.ext_getElem?
    intro j
    simp only [List.getElem?_map, List.getElem?_modify, ServerState.update_getElem?]
    by_cases ij : i = j
    · subst ij
      cases found : s.pool[i]? with
      | none => simp
      | some c => simp [same c found]
    · simp [ij]
  simp only [Shared.world, World.modify, Shared.on, standings]

theorem world_update_same (s : Shared cache) (i : Nat) {f : Connection → Connection}
    (same : ∀ c : Connection, s.pool[i]? = some c → (f c).standing = c.standing) :
    (s.on (·.update i f)).world = s.world := by
  rw [world_update s i (g := id) same, World.modify, List.modify_id]

theorem world_closeTaken (s : Shared cache) (transport agent : Option Nat) :
    (s.closeTaken transport agent).world = s.world.closeTaken transport agent := by
  cases transport <;> cases agent <;> rfl

theorem Transition.still {current : Nat → Bool} {w w' : World} {v v' : Role} (world : w' = w)
    (role : v' = v) : Transition server current w v w' v' [] := by
  rw [world, role]
  exact .keeps v

theorem Transition.quits {current : Nat → Bool} {w w' : World} {v : Role} (world : w' = w)
    (returns : v.returns = true) : Transition server current w v w' .idle [] := by
  rw [world]
  exact .returns v returns

theorem dispatch_role (data : Bytes) (i : Nat) (message : Message) :
    (dispatch server data i message).role = judge server i message := by
  unfold judge dispatch
  simp only
  split
  · rfl
  · split_ifs <;> rfl
  · split_ifs <;> rfl
  · rfl

theorem world_slot (s : Shared cache) (i : Nat) {field : Connection → Option Nat}
    {slot : Standing → Option Nat} (same : ∀ c : Connection, field c = slot c.standing) :
    s.pool[i]?.bind (fun c => field c) = s.world.slot slot i := by
  cases found : s.pool[i]? <;> simp [World.slot, Shared.world, found, same]

theorem world_removeCurrent (s : Shared cache) (i : Nat) :
    (s.on (·.removeCurrent i)).world = s.world := by
  simp only [Shared.world, Shared.on, ServerState.removeCurrent]
  split
  · rfl
  · split_ifs <;> rfl

theorem CloseSteps.transition {pos : ClosePos} {next : Option (HelloInput × Bytes × Hello)}
    {after : Option ClosePos} (steps : CloseSteps s i pos s' after) :
    Transition server s.isCurrent s.world (pos.role i) s'.world (Thread.resume i next after).role
      [] := by
  have updated {f : Connection → Connection} (same : ∀ c, (f c).standing = c.standing) :
      (s.on (·.update i f)).world = s.world := world_update_same s i fun c _ => same c
  have resumed : (Thread.resume i next none).role = .idle := by
    cases next <;> rfl
  cases steps with
  | stores found =>
    rw [show (s.on (·.storeClosed i)).world = s.world.modify i Standing.shut from
      world_update s i fun _ _ => rfl]
    exact .stores (world_found found)
  | enters found first =>
    rw [show (s.on (·.enterClose i)).world = s.world.modify i Standing.enter from
      world_update s i fun _ _ => rfl]
    exact .enters (world_found found) first
  | waits found done =>
    rw [world_log s rfl, resumed]
    exact .waits (world_found found) done
  | removes => exact .still (world_removeCurrent s i) rfl
  | stopsTimer | takesPending | leavesPending | takesTotal | leavesTotal =>
    exact .still (updated fun _ => rfl) rfl
  | dropsPending | dropsTotal => exact .still rfl rfl
  | clears =>
    have agent : s.pool[i]?.bind (·.iceAgent) = s.world.slot Standing.iceAgent i :=
      world_slot s i fun _ => rfl
    have transport : s.pool[i]?.bind (·.transportConn) = s.world.slot Standing.transportConn i :=
      world_slot s i fun _ => rfl
    rw [show (s.on (·.clearState i)).world = s.world.modify i Standing.clear from
      world_update s i fun _ _ => rfl, agent, transport]
    exact .clears i
  | leaves transport agent =>
    rw [world_log _ rfl, resumed, show ((s.closeTaken transport agent).on (·.leaveClose i)).world =
      (s.closeTaken transport agent).world.modify i Standing.finish from
        world_update _ i fun _ _ => rfl, world_closeTaken]
    exact .leaves i transport agent

theorem HelloSteps.transition {input : HelloInput} {data : Bytes} {pos : HelloPos}
    (steps : HelloSteps server s input data pos s' t') :
    Transition server s.isCurrent s.world .idle s'.world t'.role [] := by
  cases steps with
  | @creates hello conn made =>
    obtain ⟨_, life⟩ := server.createConnection_lifecycle made
    have fresh : conn.standing =
        { sourceId := conn.sourceId, receiveCodec := conn.codec.receiveCodec } := by
      simp [Connection.standing, life]
    rw [world_log _ rfl, show (s.on fun state => { state with pool := state.pool ++ [conn] }).world =
      s.world.create conn.sourceId conn.codec.receiveCodec by
        simp [Shared.world, Shared.on, World.create, fresh]]
    exact .creates ..
  | startsTimer i =>
    refine .still (world_update_same s i fun c _ => ?_) rfl
    split_ifs <;> rfl
  | sends i | unsent i => exact .still (world_update_same s i fun _ _ => rfl) rfl
  | _ => exact .keeps _

theorem OfferSteps.transition {data : Bytes} {pos : OfferPos} {spawned : List Thread}
    (steps : OfferSteps server s data pos s' t' spawned) :
    Transition server s.isCurrent s.world pos.role s'.world t'.role
      (spawned.map Thread.role) := by
  cases steps with
  | ignores | finds | refuses => exact .keeps _
  | @receives i c message found decoded window fresh t' goes =>
    have world : ((s.on (·.update i fun c => { c with signalRecv := window })).log
        (.received i data message)).world =
        { s.world with receipts := s.world.receipts ++ [(i, message)] } := by
      rw [← world_update_same s i (f := fun c => { c with signalRecv := window })
        fun _ _ => rfl]
      simp [Shared.world, Shared.log, Event.receipt]
    rw [world]
    refine .receives ?_
    rcases goes with rfl | ⟨empty, rfl⟩
    · exact .inl rfl
    · exact .inr ⟨empty, rfl⟩
  | judges current =>
    rw [dispatch_role]
    exact .judges current
  | drops gone => exact .drops gone
  | selects i name =>
    rw [world_update s i (g := Standing.choose name) fun c _ => by
      unfold Standing.choose Connection.standing
      split_ifs <;> rfl]
    exact .selects i name
  | @takes i c offer found opened kept =>
    rw [world_note, world_update s i (g := Standing.stow none) fun _ _ => rfl]
    exact .takes (world_found found) opened kept
  | skips found nothing => exact .skips (world_found found) nothing
  | misses found closed => exact .misses (world_found found) closed
  | starts found opened chosen => exact .starts (world_found found) opened chosen
  | @keeps i c offer found opened unchosen =>
    rw [world_update s i (g := Standing.stow (some offer)) fun _ _ => rfl]
    exact .stows (world_found found) opened unchosen

theorem available_found (available : s.available i = true) :
    ∃ st, s.world.standings[i]? = some st ∧ st.closed = false ∧ st.iceAgent = none := by
  cases found : s.pool[i]? with
  | none => simp [Shared.available, found] at available
  | some c =>
    simp only [Shared.available, found, Option.any_some, Bool.and_eq_true, Bool.not_eq_true',
      Option.isNone_iff_eq_none] at available
    exact ⟨_, world_found found, available.1.1, available.1.2⟩

theorem awaitsTransport_found {agent : Nat} (awaits : s.awaitsTransport i agent = true) :
    ∃ st, s.world.standings[i]? = some st ∧ st.closed = false ∧ st.iceAgent = some agent ∧
      st.transportConn = none := by
  cases found : s.pool[i]? with
  | none => simp [Shared.awaitsTransport, found] at awaits
  | some c =>
    simp only [Shared.awaitsTransport, found, Option.any_some, Bool.and_eq_true,
      Bool.not_eq_true', Option.isNone_iff_eq_none, decide_eq_true_eq] at awaits
    exact ⟨_, world_found found, awaits.1.1.1.1, awaits.1.1.1.2, awaits.1.1.2⟩

theorem ICETurns.transition {choice : Choice} {locals : Locals} {pos : ICEPos}
    (turn : ICETurns server choice s i locals pos t') :
    Transition server s.isCurrent s.world (pos.role i locals) s.world t'.role [] := by
  cases turn with
  | names found free chosen => exact .names (world_found found) chosen
  | stillCurrent | relays | gathers | answers | accepted | owns | reads | establishes | proceeds =>
    exact .keeps _
  | _ => exact .returns _ rfl

theorem ICESteps.transition {choice : Choice} {locals : Locals} {pos : ICEPos}
    (steps : ICESteps server choice s i locals pos s' t') :
    Transition server s.isCurrent s.world (pos.role i locals) s'.world t'.role [] := by
  have updated {f : Connection → Connection} (same : ∀ c, (f c).standing = c.standing) :
      (s.on (·.update i f)).world = s.world := world_update_same s i fun c _ => same c
  cases steps with
  | turns turn => exact turn.transition
  | makesAgent =>
    rw [world_log _ rfl]
    exact .makes i locals.selectedName
  | noAgent => exact .quits (world_log _ rfl) rfl
  | installsAgent free current =>
    obtain ⟨st, found, opened, vacant⟩ := available_found free
    rw [world_note, world_update s i (g := Standing.carry locals.agent) fun _ _ => rfl]
    exact .installs found opened vacant
  | refusesAgent => exact .refuses i locals.selectedName locals.agent
  | gathers goes =>
    rw [world_log _ rfl]
    rcases goes with ⟨rfl, rfl⟩ | ⟨rfl, rfl⟩ <;> exact .keeps _
  | discards at_ =>
    rcases at_ with rfl | rfl <;> exact .discards i locals.selectedName locals.agent
  | publishes sequence codec goes =>
    rw [world_log _ rfl]
    rcases goes with rfl | rfl
    · exact .still (updated fun _ => rfl) rfl
    · exact .quits (updated fun _ => rfl) rfl
  | unpublished => exact .quits (updated fun _ => rfl) rfl
  | dials => exact .dials i locals.selectedName locals.agent
  | installsTransport awaited =>
    obtain ⟨st, found, opened, owned, vacant⟩ := awaitsTransport_found awaited
    rw [world_note, world_update s i (g := Standing.attach locals.transport) fun _ _ => rfl]
    exact .attaches found opened owned vacant
  | rejectsTransport => exact .rejects i locals.selectedName locals.agent locals.transport
  | establishes | takesPending | leavesPending | stopsTimer =>
    exact .still (updated fun _ => rfl) rfl
  | dropsPending => exact .keeps _

theorem Steps.transition {choice : Choice} {spawned : List Thread}
    (steps : Steps server choice s t s' t' spawned) :
    Transition server s.isCurrent s.world t.role s'.world t'.role (spawned.map Thread.role) := by
  cases steps with
  | hello steps => exact steps.transition
  | closing steps => exact steps.transition
  | fires | lapses => exact .keeps _
  | offer steps => exact steps.transition
  | ice steps => exact steps.transition

theorem Occurs.idle {spawned : List Thread} (occurs : Occurs s s' spawned) :
    s'.world = s.world ∧ ∀ u ∈ spawned, u.role = .idle := by
  cases occurs <;> exact ⟨rfl, by simp [Thread.role, OfferPos.role, ClosePos.role]⟩

end Refinement

end ServerMachine
end Telekit
