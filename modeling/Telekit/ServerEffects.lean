import Telekit.ServerSteps

/-! What one step of the running server does to leases and registry. The counters
of the server are the leases of its connections plus what the threads hold between
two atomic operations; a call of `Close` has, at each position, established what
the operations before it are for, and no other thread undoes it. -/

namespace Telekit

structure Connection.Evolves (a b : Connection) : Prop where
  sourceId : b.sourceId = a.sourceId
  closed : a.closed = true → b.closed = true
  closeDone : a.closeDone = true → b.closeDone = true
  pendingLease : a.pendingLease = false → b.pendingLease = false
  totalLease : a.totalLease = false → b.totalLease = false
  transportConn : a.closed = true → a.transportConn = none → b.transportConn = none
  dataChannel : a.closed = true → a.dataChannel = none → b.dataChannel = none
  iceAgent : a.closed = true → a.iceAgent = none → b.iceAgent = none

structure Connection.Quiet (a b : Connection) : Prop extends Connection.Evolves a b where
  samePending : b.pendingLease = a.pendingLease
  sameTotal : b.totalLease = a.totalLease
  sameDone : b.closeDone = a.closeDone

theorem Connection.Evolves.refl (a : Connection) : a.Evolves a :=
  ⟨rfl, id, id, id, id, fun _ => id, fun _ => id, fun _ => id⟩

theorem Connection.Quiet.refl (a : Connection) : a.Quiet a := ⟨.refl a, rfl, rfl, rfl⟩

theorem Connection.Quiet.others (c : Connection) (selectedTransport : GoString)
    (pendingICEOffer : Option ICEDescription) (established closeEntered handshakeTimer : Bool)
    (signalSend : UInt64) (signalRecv : ReplayWindow) (codec : SignalingChannel)
    (handshakeCodec : Codec) :
    c.Quiet { c with
      selectedTransport := selectedTransport
      pendingICEOffer := pendingICEOffer
      established := established
      closeEntered := closeEntered
      handshakeTimer := handshakeTimer
      signalSend := signalSend
      signalRecv := signalRecv
      codec := codec
      handshakeCodec := handshakeCodec } :=
  ⟨⟨rfl, id, id, id, id, fun _ => id, fun _ => id, fun _ => id⟩, rfl, rfl, rfl⟩

namespace ServerMachine
open Interleaving

variable {cache : Lru.Cache Bytes Int}

def lease (held : Bool) : Int := if held then 1 else 0

namespace Shared

def totalGap (s : Shared cache) : Int :=
  s.totalConnections - Ledger.total (fun c : Connection => lease c.totalLease) s.pool

def pendingGap (s : Shared cache) : Int :=
  s.pendingHandshakes - Ledger.total (fun c : Connection => lease c.pendingLease) s.pool

def Nested (s : Shared cache) : Prop :=
  ∀ (i : Nat) c, s.pool[i]? = some c → c.pendingLease = true → c.totalLease = true

/-- What `Close` has established about connection `i` after `rank` of its stages:
the flag, the registry, the pending lease, the total lease, the transport. -/
def Torn (s : Shared cache) (i rank : Nat) : Prop :=
  0 < rank → ∃ c, s.pool[i]? = some c ∧ c.closed = true ∧
    (1 < rank → s.connections c.sourceId ≠ some i ∧ s.connectionsMu ≠ some i) ∧
    (2 < rank → c.pendingLease = false) ∧ (3 < rank → c.totalLease = false) ∧
    (4 < rank → c.transportConn = none ∧ c.dataChannel = none ∧ c.iceAgent = none)

def Released (s : Shared cache) : Prop :=
  ∀ (i : Nat) c, s.pool[i]? = some c → c.closeDone = true → s.Torn i 5

def Returned (s : Shared cache) : Prop :=
  ∀ i, .closeReturned i ∈ s.trace → ∃ c, s.pool[i]? = some c ∧ c.closeDone = true

/-- What no step takes back: a closed connection that is not registered and not
about to be registered stays so. -/
structure Evolves (s s' : Shared cache) : Prop where
  conns : ∀ (i : Nat) c, s.pool[i]? = some c → ∃ c', s'.pool[i]? = some c' ∧ c.Evolves c'
  absent : ∀ (i : Nat) c, s.pool[i]? = some c → c.closed = true →
    s.connections c.sourceId ≠ some i → s.connectionsMu ≠ some i →
    s'.connections c.sourceId ≠ some i ∧ s'.connectionsMu ≠ some i

theorem Torn.keep {s s' : Shared cache} {i rank : Nat} (torn : s.Torn i rank)
    (evolves : s.Evolves s') : s'.Torn i rank := by
  intro started
  obtain ⟨c, found, closed, absent, pending, total, cleared⟩ := torn started
  obtain ⟨c', found', step⟩ := evolves.conns i c found
  refine ⟨c', found', step.closed closed, fun r => ?_, fun r => step.pendingLease (pending r),
    fun r => step.totalLease (total r), fun r => ?_⟩
  · rw [step.sourceId]
    exact evolves.absent i c found closed (absent r).1 (absent r).2
  · obtain ⟨transport, channel, agent⟩ := cleared r
    exact ⟨step.transportConn closed transport, step.dataChannel closed channel,
      step.iceAgent closed agent⟩

theorem Returned.keep {s s' : Shared cache} (returned : s.Returned) (evolves : s.Evolves s')
    (new : ∀ i, .closeReturned i ∈ s'.trace → .closeReturned i ∈ s.trace ∨
      ∃ c, s'.pool[i]? = some c ∧ c.closeDone = true) : s'.Returned := by
  intro i logged
  rcases new i logged with old | done
  · obtain ⟨c, found, done⟩ := returned i old
    obtain ⟨c', found', step⟩ := evolves.conns i c found
    exact ⟨c', found', step.closeDone done⟩
  · exact done

structure Quiet (s s' : Shared cache) : Prop where
  length : s'.pool.length = s.pool.length
  conns : ∀ (i : Nat) c, s.pool[i]? = some c → ∃ c', s'.pool[i]? = some c' ∧ c.Quiet c'
  connections : s'.connections = s.connections
  connectionsMu : s'.connectionsMu = s.connectionsMu
  totalConnections : s'.totalConnections = s.totalConnections
  pendingHandshakes : s'.pendingHandshakes = s.pendingHandshakes

namespace Quiet

theorem of_pool {s s' : Shared cache} (pool : s'.pool = s.pool)
    (connections : s'.connections = s.connections)
    (connectionsMu : s'.connectionsMu = s.connectionsMu)
    (totalConnections : s'.totalConnections = s.totalConnections)
    (pendingHandshakes : s'.pendingHandshakes = s.pendingHandshakes) : s.Quiet s' where
  length := by rw [pool]
  conns i c found := ⟨c, by rw [pool]; exact found, .refl c⟩
  connections := connections
  connectionsMu := connectionsMu
  totalConnections := totalConnections
  pendingHandshakes := pendingHandshakes

theorem refl (s : Shared cache) : s.Quiet s := of_pool rfl rfl rfl rfl rfl

theorem log {s s' : Shared cache} (quiet : s.Quiet s') (event : Event) : s.Quiet (s'.log event) :=
  ⟨quiet.length, quiet.conns, quiet.connections, quiet.connectionsMu, quiet.totalConnections,
    quiet.pendingHandshakes⟩

theorem note {s s' : Shared cache} (quiet : s.Quiet s') (negotiation : Negotiation) :
    s.Quiet (s'.note negotiation) :=
  ⟨quiet.length, quiet.conns, quiet.connections, quiet.connectionsMu, quiet.totalConnections,
    quiet.pendingHandshakes⟩

theorem backward {s s' : Shared cache} (quiet : s.Quiet s') {i : Nat} {c' : Connection}
    (found : s'.pool[i]? = some c') : ∃ c, s.pool[i]? = some c ∧ c.Quiet c' := by
  obtain ⟨inside, _⟩ := List.getElem?_eq_some_iff.mp found
  have present := List.getElem?_eq_getElem (quiet.length ▸ inside)
  obtain ⟨c₁, found₁, step⟩ := quiet.conns i _ present
  rw [found] at found₁
  exact ⟨_, present, Option.some.inj found₁ ▸ step⟩

theorem total {s s' : Shared cache} (quiet : s.Quiet s') (f : Connection → Int)
    (same : ∀ a b : Connection, a.Quiet b → f b = f a) :
    Ledger.total f s'.pool = Ledger.total f s.pool := by
  unfold Ledger.total
  congr 1
  apply List.ext_getElem?
  intro i
  simp only [List.getElem?_map]
  cases found : s'.pool[i]? with
  | none =>
    have outside := List.getElem?_eq_none_iff.mp found
    rw [List.getElem?_eq_none (by rw [← quiet.length]; exact outside)]
  | some c' =>
    obtain ⟨c, before, step⟩ := quiet.backward found
    rw [before, Option.map_some, Option.map_some, same c c' step]

theorem evolves {s s' : Shared cache} (quiet : s.Quiet s') : s.Evolves s' where
  conns i c found := by
    obtain ⟨c', found', step⟩ := quiet.conns i c found
    exact ⟨c', found', step.toEvolves⟩
  absent i c _ _ unregistered unclaimed := by
    rw [quiet.connections, quiet.connectionsMu]
    exact ⟨unregistered, unclaimed⟩

theorem totalGap {s s' : Shared cache} (quiet : s.Quiet s') : s'.totalGap = s.totalGap := by
  unfold Shared.totalGap
  rw [quiet.total _ fun a b step => by rw [step.sameTotal], quiet.totalConnections]

theorem pendingGap {s s' : Shared cache} (quiet : s.Quiet s') : s'.pendingGap = s.pendingGap := by
  unfold Shared.pendingGap
  rw [quiet.total _ fun a b step => by rw [step.samePending], quiet.pendingHandshakes]

theorem nested {s s' : Shared cache} (quiet : s.Quiet s') (nested : s.Nested) : s'.Nested := by
  intro i c' found pending
  obtain ⟨c, before, step⟩ := quiet.backward found
  rw [step.sameTotal]
  exact nested i c before (by rw [← step.samePending]; exact pending)

theorem released {s s' : Shared cache} (quiet : s.Quiet s') (released : s.Released) :
    s'.Released := by
  intro i c' found done
  obtain ⟨c, before, step⟩ := quiet.backward found
  exact (released i c before (by rw [← step.sameDone]; exact done)).keep quiet.evolves

end Quiet

theorem update_evolves (s : Shared cache) (i : Nat) {f : Connection → Connection}
    (step : ∀ c : Connection, s.pool[i]? = some c → c.Evolves (f c)) :
    s.Evolves (s.on (·.update i f)) := by
  refine ⟨fun j c found => ?_, fun j c _ _ unregistered unclaimed => ?_⟩
  · simp only [on, ServerState.update_getElem?]
    split_ifs with same
    · rw [found]
      exact ⟨f c, rfl, step c (same ▸ found)⟩
    · exact ⟨c, found, .refl c⟩
  · simp only [on, ServerState.update_connections]
    exact ⟨unregistered, unclaimed⟩

theorem update_quiet (s : Shared cache) (i : Nat) {f : Connection → Connection}
    (step : ∀ c : Connection, s.pool[i]? = some c → c.Quiet (f c)) :
    s.Quiet (s.on (·.update i f)) := by
  refine ⟨?_, fun j c found => ?_, by simp [on], rfl, by simp [on], by simp [on]⟩
  · simp only [on, ServerState.update]
    split <;> simp
  · simp only [on, ServerState.update_getElem?]
    split_ifs with same
    · rw [found]
      exact ⟨f c, rfl, step c (same ▸ found)⟩
    · exact ⟨c, found, .refl c⟩

theorem update_total (s : Shared cache) {i : Nat} {c : Connection} (found : s.pool[i]? = some c)
    (g : Connection → Int) (f : Connection → Connection) :
    Ledger.total g (s.update i f).pool = Ledger.total g s.pool - g c + g (f c) := by
  simp only [ServerState.update, found]
  exact Ledger.total_set g found (f c)

end Shared

def Thread.heldTotal : Thread → Int
  | .hello _ _ (.reservePending _) => 1
  | .hello _ _ .undoTotal => 1
  | .hello _ _ (.create _) => 1
  | .hello _ _ .undoPending => 1
  | .closing _ .dropTotal _ => 1
  | _ => 0

def Thread.heldPending : Thread → Int
  | .hello _ _ (.create _) => 1
  | .hello _ _ .undoPending => 1
  | .closing _ .dropPending _ => 1
  | .ice _ _ .dropPending => 1
  | _ => 0

theorem Thread.heldTotal_nonneg (t : Thread) : 0 ≤ t.heldTotal := by
  unfold heldTotal
  split <;> decide

theorem Thread.heldPending_nonneg (t : Thread) : 0 ≤ t.heldPending := by
  unfold heldPending
  split <;> decide

def Thread.registers : Thread → Option Nat
  | .hello _ _ (.setAct i) => some i
  | _ => none

def ClosePos.rank : ClosePos → Nat
  | .store => 0
  | .once => 1
  | .remove => 1
  | .stopTimer => 2
  | .swapPending => 2
  | .dropPending => 3
  | .swapTotal => 3
  | .dropTotal => 4
  | .clear => 4
  | .leave _ _ => 5

def Thread.Torn (s : Shared cache) : Thread → Prop
  | .closing i pos _ => s.Torn i pos.rank
  | _ => True

/-- A thread between two operations that belong together. -/
def Thread.free : Thread → Bool
  | .hello _ _ (.reservePending _) => false
  | .hello _ _ .undoTotal => false
  | .hello _ _ (.create _) => false
  | .hello _ _ .undoPending => false
  | .hello _ _ (.setAct _) => false
  | .closing _ .store _ => true
  | .closing _ _ _ => false
  | .ice _ _ .dropPending => false
  | _ => true

structure Thread.Free (s : Shared cache) (t : Thread) : Prop where
  heldTotal : t.heldTotal = 0
  heldPending : t.heldPending = 0
  registers : t.registers = none
  torn : t.Torn s

theorem Thread.free_spec {t : Thread} (free : t.free = true) (s : Shared cache) : t.Free s := by
  cases t with
  | finished | timer | offer => exact ⟨rfl, rfl, rfl, trivial⟩
  | hello input data pos =>
    cases pos <;> first | exact ⟨rfl, rfl, rfl, trivial⟩ | exact absurd free Bool.false_ne_true
  | closing i pos next =>
    cases pos with
    | store => exact ⟨rfl, rfl, rfl, fun started => absurd started (by decide)⟩
    | _ => exact absurd free Bool.false_ne_true
  | ice i locals pos =>
    cases pos <;> first | exact ⟨rfl, rfl, rfl, trivial⟩ | exact absurd free Bool.false_ne_true

structure Effect {P : Primitives} (server : Server P) (s s' : Shared cache) (t t' : Thread) :
    Prop where
  evolves : s.Evolves s'
  total : s'.totalGap - t'.heldTotal = s.totalGap - t.heldTotal
  pending : s'.pendingGap - t'.heldPending = s.pendingGap - t.heldPending
  totalBound : s'.totalConnections ≤ s.totalConnections ∨
    s'.totalConnections ≤ server.options.maxConnections
  pendingBound : s'.pendingHandshakes ≤ s.pendingHandshakes ∨
    s'.pendingHandshakes ≤ server.options.maxPendingHandshakes
  lock : Lock s.connectionsMu s'.connectionsMu t.registers t'.registers
  nested : s.Nested → s'.Nested
  released : s.Released → s'.Released
  returned : s.Returned → s'.Returned
  torn : t'.Torn s'

section Effects
variable {P : Primitives} {server : Server P} {s s' : Shared cache} {t t' : Thread}

theorem Shared.Quiet.effect (quiet : s.Quiet s') (total : t'.heldTotal = t.heldTotal)
    (pending : t'.heldPending = t.heldPending) (before : t.registers = none)
    (after : t'.registers = none) (torn : t'.Torn s')
    (logged : ∀ i, .closeReturned i ∈ s'.trace → .closeReturned i ∈ s.trace ∨
      ∃ c, s'.pool[i]? = some c ∧ c.closeDone = true) : Effect server s s' t t' where
  evolves := quiet.evolves
  total := by rw [quiet.totalGap, total]
  pending := by rw [quiet.pendingGap, pending]
  totalBound := .inl (by rw [quiet.totalConnections])
  pendingBound := .inl (by rw [quiet.pendingHandshakes])
  lock := by rw [before, after, quiet.connectionsMu]; exact .keeps
  nested := quiet.nested
  released := quiet.released
  returned returned := returned.keep quiet.evolves logged
  torn := torn

theorem Shared.Quiet.free (quiet : s.Quiet s') (before : t.free = true) (after : t'.free = true)
    (logged : ∀ i, .closeReturned i ∈ s'.trace → .closeReturned i ∈ s.trace) :
    Effect server s s' t t' := by
  have held := t.free_spec before s
  have holds := t'.free_spec after s'
  exact quiet.effect (holds.heldTotal.trans held.heldTotal.symm)
    (holds.heldPending.trans held.heldPending.symm) held.registers holds.registers holds.torn
    fun i found => .inl (logged i found)

theorem Shared.Evolves.effect (evolves : s.Evolves s') (pool : s'.pool = s.pool)
    (totalConnections : s'.totalConnections = s.totalConnections)
    (pendingHandshakes : s'.pendingHandshakes = s.pendingHandshakes) (trace : s'.trace = s.trace)
    (total : t'.heldTotal = t.heldTotal) (pending : t'.heldPending = t.heldPending)
    (lock : Lock s.connectionsMu s'.connectionsMu t.registers t'.registers) (torn : t'.Torn s') :
    Effect server s s' t t' where
  evolves := evolves
  total := by simp only [Shared.totalGap, pool, totalConnections, total]
  pending := by simp only [Shared.pendingGap, pool, pendingHandshakes, pending]
  totalBound := .inl (by rw [totalConnections])
  pendingBound := .inl (by rw [pendingHandshakes])
  lock := lock
  nested nested := by simpa only [Shared.Nested, pool] using nested
  released released i c found done :=
    (released i c (by rw [← pool]; exact found) done).keep evolves
  returned returned := returned.keep evolves fun i logged => .inl (by rw [← trace]; exact logged)
  torn := torn

theorem counters_effect {total pending : Int}
    (totalGap : total - s.totalConnections = t'.heldTotal - t.heldTotal)
    (pendingGap : pending - s.pendingHandshakes = t'.heldPending - t.heldPending)
    (totalBound : total ≤ s.totalConnections ∨ total ≤ server.options.maxConnections)
    (pendingBound : pending ≤ s.pendingHandshakes ∨
      pending ≤ server.options.maxPendingHandshakes)
    (before : t.registers = none) (after : t'.registers = none)
    (torn : t.Torn s → t'.Torn (s.on fun state =>
      { state with totalConnections := total, pendingHandshakes := pending }))
    (held : t.Torn s) :
    Effect server s (s.on fun state =>
      { state with totalConnections := total, pendingHandshakes := pending }) t t' where
  evolves := ⟨fun i c found => ⟨c, found, .refl c⟩, fun _ _ _ _ a b => ⟨a, b⟩⟩
  total := by
    simp only [Shared.totalGap, Shared.on]
    omega
  pending := by
    simp only [Shared.pendingGap, Shared.on]
    omega
  totalBound := totalBound
  pendingBound := pendingBound
  lock := by rw [before, after]; exact .keeps
  nested nested := nested
  released released := released
  returned returned := returned
  torn := torn held

variable {i : Nat} {c : Connection}

theorem update_effect (found : s.pool[i]? = some c)
    {f : Connection → Connection} {s' : Shared cache}
    (state : s'.toServerState = s.update i f) (mutex : s'.connectionsMu = s.connectionsMu)
    (step : c.Evolves (f c))
    (total : t'.heldTotal - t.heldTotal = lease c.totalLease - lease (f c).totalLease)
    (pending : t'.heldPending - t.heldPending = lease c.pendingLease - lease (f c).pendingLease)
    (before : t.registers = none) (after : t'.registers = none)
    (nested : (c.pendingLease = true → c.totalLease = true) → (f c).pendingLease = true →
      (f c).totalLease = true)
    (done : (f c).closeDone = true → c.closeDone = true ∨ s'.Torn i 5)
    (logged : ∀ j, .closeReturned j ∈ s'.trace → .closeReturned j ∈ s.trace ∨
      ∃ c, s'.pool[j]? = some c ∧ c.closeDone = true) (torn : t'.Torn s') :
    Effect server s s' t t' := by
  have pool (j : Nat) : s'.pool[j]? = if i = j then s.pool[j]?.map f else s.pool[j]? := by
    rw [state, ServerState.update_getElem?]
  have evolves : s.Evolves s' := by
    have moved := s.update_evolves i (f := f) fun c' found' => by
      rw [found] at found'
      cases found'
      exact step
    refine ⟨by rw [state]; exact moved.conns, fun j c' found' closed unregistered unclaimed => ?_⟩
    rw [state, mutex]
    exact moved.absent j c' found' closed unregistered unclaimed
  refine ⟨evolves, ?_, ?_, ?_, ?_, ?_, fun nests j c' found' => ?_, fun released j c' found' => ?_,
    fun returned => returned.keep evolves logged, torn⟩
  · simp only [Shared.totalGap, state, ServerState.update_totalConnections,
      s.update_total found]
    omega
  · simp only [Shared.pendingGap, state, ServerState.update_pendingHandshakes,
      s.update_total found]
    omega
  · exact .inl (by rw [state, ServerState.update_totalConnections])
  · exact .inl (by rw [state, ServerState.update_pendingHandshakes])
  · rw [before, after, mutex]
    exact .keeps
  · rw [pool j] at found'
    split_ifs at found' with same
    · subst same
      rw [found] at found'
      cases found'
      exact nested (nests i c found)
    · exact nests j c' found'
  · rw [pool j] at found'
    intro closed
    split_ifs at found' with same
    · subst same
      rw [found] at found'
      cases found'
      rcases done closed with old | complete
      · exact (released i c found old).keep evolves
      · exact complete
    · exact (released j c' found' closed).keep evolves

theorem removeCurrent_connections (s : ServerState cache) (found : s.pool[i]? = some c)
    (id : GoString) :
    (s.removeCurrent i).connections id =
      if s.connections id = some i ∧ id = c.sourceId then none else s.connections id := by
  by_cases registered : s.connections c.sourceId = some i
  · simp only [ServerState.removeCurrent, found, registered, if_true, ServerState.register,
      Function.update_apply]
    by_cases same : id = c.sourceId
    · simp [same, registered]
    · simp [same]
  · simp only [ServerState.removeCurrent, found, registered, if_false]
    by_cases same : id = c.sourceId
    · simp [same, registered]
    · simp [same]

theorem removeCurrent_keeps (s : ServerState cache) (i : Nat) :
    (s.removeCurrent i).pool = s.pool ∧
      (s.removeCurrent i).totalConnections = s.totalConnections ∧
      (s.removeCurrent i).pendingHandshakes = s.pendingHandshakes := by
  unfold ServerState.removeCurrent
  split
  · exact ⟨rfl, rfl, rfl⟩
  · split_ifs <;> exact ⟨rfl, rfl, rfl⟩

theorem removeCurrent_evolves (s : Shared cache) (found : s.pool[i]? = some c) :
    s.Evolves (s.on (·.removeCurrent i)) := by
  refine ⟨fun j c' found' => ⟨c', ?_, .refl c'⟩,
    fun j c' _ _ unregistered unclaimed => ⟨?_, unclaimed⟩⟩
  · simp only [Shared.on, (removeCurrent_keeps s.toServerState i).1, found']
  · simp only [Shared.on, removeCurrent_connections _ found]
    split_ifs
    · simp
    · exact unregistered

theorem Shared.Quiet.closing (quiet : s.Quiet s') {pos after : ClosePos}
    {next : Option (HelloInput × Bytes × Hello)}
    (total : (Thread.closing i after next).heldTotal = (Thread.closing i pos next).heldTotal)
    (pending : (Thread.closing i after next).heldPending = (Thread.closing i pos next).heldPending)
    (torn : s'.Torn i after.rank) (trace : s'.trace = s.trace) :
    Effect server s s' (.closing i pos next) (.closing i after next) :=
  quiet.effect total pending rfl rfl torn fun _ logged => .inl (by rw [← trace]; exact logged)

theorem Shared.torn_update {rank : Nat} (found : s.pool[i]? = some c)
    {f : Connection → Connection} (closed : (f c).closed = true)
    (sourceId : (f c).sourceId = c.sourceId)
    (absent : 1 < rank → s.connections c.sourceId ≠ some i ∧ s.connectionsMu ≠ some i)
    (pending : 2 < rank → (f c).pendingLease = false)
    (total : 3 < rank → (f c).totalLease = false)
    (cleared : 4 < rank → (f c).transportConn = none ∧ (f c).dataChannel = none ∧
      (f c).iceAgent = none) : (s.on (·.update i f)).Torn i rank := by
  refine fun _ => ⟨f c, ?_, closed, ?_, pending, total, cleared⟩
  · simp only [Shared.on, ServerState.update_getElem?, found, if_true, Option.map_some]
  · simpa only [Shared.on, ServerState.update_connections, sourceId] using absent

theorem storeClosed_effect (found : s.pool[i]? = some c)
    (next : Option (HelloInput × Bytes × Hello)) :
    Effect server s (s.on (·.storeClosed i)) (.closing i .store next) (.closing i .once next) := by
  have quiet := s.update_quiet i (f := fun c => { c with closed := true }) fun c _ =>
    ⟨⟨rfl, fun _ => rfl, id, id, id, fun _ => id, fun _ => id, fun _ => id⟩, rfl, rfl, rfl⟩
  exact quiet.closing rfl rfl (Shared.torn_update found rfl rfl (by simp [ClosePos.rank])
    (by simp [ClosePos.rank]) (by simp [ClosePos.rank]) (by simp [ClosePos.rank])) rfl

theorem removeCurrent_effect (torn : s.Torn i 1) (unlocked : s.connectionsMu = none)
    (next : Option (HelloInput × Bytes × Hello)) :
    Effect server s (s.on (·.removeCurrent i)) (.closing i .remove next)
      (.closing i .stopTimer next) := by
  obtain ⟨c, found, closed, _⟩ := torn (by decide)
  obtain ⟨pool, total, pending⟩ := removeCurrent_keeps s.toServerState i
  have absent : (s.removeCurrent i).connections c.sourceId ≠ some i := by
    rw [removeCurrent_connections _ found]
    simp
  have free : s.connectionsMu ≠ some i := by
    rw [unlocked]
    simp
  refine (removeCurrent_evolves s found).effect pool total pending rfl rfl rfl .keeps fun _ =>
    ⟨c, ?_, closed, fun _ => ⟨absent, free⟩, by simp [ClosePos.rank], by simp [ClosePos.rank],
      by simp [ClosePos.rank]⟩
  simp only [Shared.on, pool, found]

theorem swapPendingLease_effect (found : s.pool[i]? = some c) (total : t'.heldTotal = t.heldTotal)
    (pending : t'.heldPending = t.heldPending + lease c.pendingLease) (before : t.registers = none)
    (after : t'.registers = none)
    (torn : t'.Torn (s.on (·.update i fun c => { c with pendingLease := false }))) :
    Effect server s (s.on (·.update i fun c => { c with pendingLease := false })) t t' := by
  refine update_effect found rfl rfl ⟨rfl, id, id, fun _ => rfl, id, fun _ => id, fun _ => id,
    fun _ => id⟩ ?_ ?_ before after ?_ .inl (fun _ => .inl) torn
  · simp [total]
  · simp [pending, lease]
  · simp

theorem swapTotalLease_effect (found : s.pool[i]? = some c) (released : c.pendingLease = false)
    (total : t'.heldTotal = t.heldTotal + lease c.totalLease)
    (pending : t'.heldPending = t.heldPending) (before : t.registers = none)
    (after : t'.registers = none)
    (torn : t'.Torn (s.on (·.update i fun c => { c with totalLease := false }))) :
    Effect server s (s.on (·.update i fun c => { c with totalLease := false })) t t' := by
  refine update_effect found rfl rfl ⟨rfl, id, id, id, fun _ => rfl, fun _ => id, fun _ => id,
    fun _ => id⟩ ?_ ?_ before after ?_ .inl (fun _ => .inl) torn
  · simp [total, lease]
  · simp [pending]
  · simp [released]

theorem leaveClose_effect (torn : s.Torn i 5) (transport agent : Option Nat)
    (next : Option (HelloInput × Bytes × Hello)) :
    Effect server s (((s.closeTaken transport agent).on (·.leaveClose i)).log (.closeReturned i))
      (.closing i (.leave transport agent) next) (.resume i next none) := by
  obtain ⟨c, found, closed, absent, pending, total, cleared⟩ := torn (by decide)
  have resumed : (Thread.resume i next none).free = true := by
    cases next <;> rfl
  have free := Thread.free_spec resumed
    (((s.closeTaken transport agent).on (·.leaveClose i)).log (.closeReturned i))
  have complete : ((s.closeTaken transport agent).on (·.leaveClose i)).Torn i 5 := by
    refine Shared.torn_update (c := c) ?_ closed rfl ?_ pending total cleared
    · rw [Shared.closeTaken_toServerState, found]
    · rw [Shared.closeTaken_toServerState, Shared.closeTaken_connectionsMu]
      exact absent
  have done : (((s.closeTaken transport agent).on (·.leaveClose i)).log
      (.closeReturned i)).pool[i]? = some { c with closeDone := true } := by
    simp only [Shared.log, Shared.on, ServerState.leaveClose, Shared.closeTaken_toServerState,
      ServerState.update_getElem?, found, if_true, Option.map_some]
  have state : (((s.closeTaken transport agent).on (·.leaveClose i)).log
      (.closeReturned i)).toServerState = s.update i fun c => { c with closeDone := true } := by
    simp only [Shared.log, Shared.on, ServerState.leaveClose, Shared.closeTaken_toServerState]
  refine update_effect found state (s.closeTaken_connectionsMu transport agent)
    ⟨rfl, id, fun _ => rfl, id, id, fun _ => id, fun _ => id, fun _ => id⟩ ?_ ?_ rfl
    free.registers id (fun _ => .inr complete) (fun j logged => ?_) free.torn
  · rw [free.heldTotal]
    simp [Thread.heldTotal]
  · rw [free.heldPending]
    simp [Thread.heldPending]
  · simp only [Shared.log, Shared.on, Shared.closeTaken_trace, List.mem_append,
      List.mem_singleton, Event.closeReturned.injEq] at logged
    rcases logged with old | rfl
    · exact .inl old
    · exact .inr ⟨_, done, rfl⟩

theorem swapPendingLease_quiet (released : ¬ s.pool[i]?.any (·.pendingLease)) :
    s.Quiet (s.on (·.update i fun c => { c with pendingLease := false })) := by
  refine s.update_quiet i fun c found => ?_
  rw [found, Option.any_some, Bool.not_eq_true] at released
  exact ⟨⟨rfl, id, id, fun _ => rfl, id, fun _ => id, fun _ => id, fun _ => id⟩,
    released.symm, rfl, rfl⟩

theorem swapTotalLease_quiet (released : ¬ s.pool[i]?.any (·.totalLease)) :
    s.Quiet (s.on (·.update i fun c => { c with totalLease := false })) := by
  refine s.update_quiet i fun c found => ?_
  rw [found, Option.any_some, Bool.not_eq_true] at released
  exact ⟨⟨rfl, id, id, id, fun _ => rfl, fun _ => id, fun _ => id, fun _ => id⟩,
    rfl, released.symm, rfl⟩

theorem waits_effect (found : s.pool[i]? = some c) (done : c.closeDone = true)
    (next : Option (HelloInput × Bytes × Hello)) :
    Effect server s (s.log (.closeReturned i)) (.closing i .once next) (.resume i next none) := by
  have resumed : (Thread.resume i next none).free = true := by
    cases next <;> rfl
  have free := Thread.free_spec resumed (s.log (.closeReturned i))
  refine ((Shared.Quiet.refl s).log _).effect free.heldTotal free.heldPending rfl
    free.registers free.torn fun j logged => ?_
  simp only [Shared.log, List.mem_append, List.mem_singleton, Event.closeReturned.injEq] at logged
  rcases logged with old | rfl
  · exact .inl old
  · exact .inr ⟨c, found, done⟩

theorem CloseSteps.effect {pos : ClosePos} {next : Option (HelloInput × Bytes × Hello)}
    (torn : s.Torn i pos.rank) {after : Option ClosePos} (steps : CloseSteps s i pos s' after) :
    Effect server s s' (.closing i pos next) (.resume i next after) := by
  cases steps with
  | stores found => exact storeClosed_effect found next
  | enters found first =>
    have quiet := s.update_quiet i
      (f := fun c => { c with closeEntered := true, established := false }) fun c _ => .others c ..
    exact quiet.closing rfl rfl (torn.keep quiet.evolves) rfl
  | waits found done => exact waits_effect found done next
  | removes unlocked => exact removeCurrent_effect torn unlocked next
  | stopsTimer =>
    have quiet := s.update_quiet i (f := fun c => { c with handshakeTimer := false }) fun c _ =>
      .others c ..
    exact quiet.closing rfl rfl (torn.keep quiet.evolves) rfl
  | takesPending leased =>
    obtain ⟨c, found, closed, absent, _⟩ := torn (by decide)
    rw [found, Option.any_some] at leased
    exact swapPendingLease_effect found rfl (by rw [leased]; rfl) rfl rfl
      (Shared.torn_update found closed rfl (fun _ => absent (by decide)) (fun _ => rfl)
        (by simp [ClosePos.rank]) (by simp [ClosePos.rank]))
  | leavesPending released =>
    obtain ⟨c, found, closed, absent, _⟩ := torn (by decide)
    exact (swapPendingLease_quiet released).closing rfl rfl
      (Shared.torn_update found closed rfl (fun _ => absent (by decide)) (fun _ => rfl)
        (by simp [ClosePos.rank]) (by simp [ClosePos.rank])) rfl
  | dropsPending =>
    refine counters_effect ?_ ?_ (.inl le_rfl) (.inl (by omega)) rfl rfl id torn
    · simp [Thread.resume, Thread.heldTotal]
    · simp [Thread.resume, Thread.heldPending]
  | takesTotal leased =>
    obtain ⟨c, found, closed, absent, pending, _⟩ := torn (by decide)
    rw [found, Option.any_some] at leased
    exact swapTotalLease_effect found (pending (by decide)) (by rw [leased]; rfl) rfl rfl rfl
      (Shared.torn_update found closed rfl (fun _ => absent (by decide))
        (fun _ => pending (by decide)) (fun _ => rfl) (by simp [ClosePos.rank]))
  | leavesTotal released =>
    obtain ⟨c, found, closed, absent, pending, _⟩ := torn (by decide)
    exact (swapTotalLease_quiet released).closing rfl rfl
      (Shared.torn_update found closed rfl (fun _ => absent (by decide))
        (fun _ => pending (by decide)) (fun _ => rfl) (by simp [ClosePos.rank])) rfl
  | dropsTotal =>
    refine counters_effect ?_ ?_ (.inl (by omega)) (.inl le_rfl) rfl rfl id torn
    · simp [Thread.resume, Thread.heldTotal]
    · simp [Thread.resume, Thread.heldPending]
  | clears =>
    obtain ⟨c, found, closed, absent, pending, total, _⟩ := torn (by decide)
    have quiet := s.update_quiet i
      (f := fun c => { c with transportConn := none, dataChannel := none, iceAgent := none })
      fun c _ => ⟨⟨rfl, id, id, id, id, fun _ _ => rfl, fun _ _ => rfl, fun _ _ => rfl⟩, rfl, rfl, rfl⟩
    exact quiet.closing rfl rfl (Shared.torn_update found closed rfl (fun _ => absent (by decide))
      (fun _ => pending (by decide)) (fun _ => total (by decide)) fun _ => ⟨rfl, rfl, rfl⟩) rfl
  | leaves transport agent => exact leaveClose_effect torn transport agent next

variable {data : Bytes} {input : HelloInput}

/-- The reservations of the thread become the leases of the connection. -/
theorem create_effect {hello : Hello} {conn : Connection}
    (made : server.createConnection hello input.random = .ok conn) (event : Event)
    (silent : ∀ i, event ≠ .closeReturned i) :
    Effect server s ((s.on fun state => { state with pool := state.pool ++ [conn] }).log event)
      (.hello input data (.create hello)) (.hello input data (.setCheck s.pool.length)) := by
  obtain ⟨_, life⟩ := server.createConnection_lifecycle made
  have pending : conn.pendingLease = true := by rw [life]
  have total : conn.totalLease = true := by rw [life]
  have running : conn.closeDone = false := by rw [life]
  have old {i : Nat} {c : Connection} (found : s.pool[i]? = some c) :
      (s.pool ++ [conn])[i]? = some c := by
    rw [List.getElem?_append_left (List.getElem?_eq_some_iff.mp found).1, found]
  have either {i : Nat} {c : Connection} (found : (s.pool ++ [conn])[i]? = some c) :
      s.pool[i]? = some c ∨ c = conn := by
    by_cases inside : i < s.pool.length
    · exact .inl (by rwa [List.getElem?_append_left inside] at found)
    · rw [List.getElem?_append_right (by omega)] at found
      exact .inr (by simpa using List.mem_of_getElem? found)
  have evolves : s.Evolves
      ((s.on fun state => { state with pool := state.pool ++ [conn] }).log event) :=
    ⟨fun i c found => ⟨c, old found, .refl c⟩, fun _ _ _ _ a b => ⟨a, b⟩⟩
  refine ⟨evolves, ?_, ?_, .inl le_rfl, .inl le_rfl, .keeps, fun nested i c found => ?_,
    fun released i c found done => ?_, fun returned => returned.keep evolves fun i logged => ?_,
    trivial⟩
  · simp only [Shared.totalGap, Shared.log, Shared.on, Ledger.total_append, Ledger.total_cons,
      Ledger.total_nil, total, lease, Thread.heldTotal]
    simp
    omega
  · simp only [Shared.pendingGap, Shared.log, Shared.on, Ledger.total_append, Ledger.total_cons,
      Ledger.total_nil, pending, lease, Thread.heldPending]
    simp
    omega
  · rcases either found with before | rfl
    · exact nested i c before
    · exact fun _ => total
  · rcases either found with before | rfl
    · exact (released i c before done).keep evolves
    · rw [running] at done
      cases done
  · simp only [Shared.log, Shared.on, List.mem_append, List.mem_singleton] at logged
    exact .inl (logged.resolve_right fun same => silent i same.symm)

theorem setCheck_effect (found : s.pool[i]? = some c) (opened : c.closed = false)
    (unlocked : s.connectionsMu = none) :
    Effect server s { s with connectionsMu := some i } (.hello input data (.setCheck i))
      (.hello input data (.setAct i)) := by
  have evolves : s.Evolves { s with connectionsMu := some i } := by
    refine ⟨fun j c' found' => ⟨c', found', .refl c'⟩,
      fun j c' found' closed unregistered _ => ⟨unregistered, fun same => ?_⟩⟩
    obtain rfl : i = j := Option.some.inj same
    rw [found] at found'
    cases found'
    rw [opened] at closed
    cases closed
  refine evolves.effect rfl rfl rfl rfl rfl rfl ?_ trivial
  rw [unlocked]
  exact .takes

theorem setAct_effect (id : GoString) (locked : s.connectionsMu = some i) :
    Effect server s { s.on (·.register id (some i)) with connectionsMu := none }
      (.hello input data (.setAct i)) (.hello input data (.startTimer i)) := by
  have evolves : s.Evolves { s.on (·.register id (some i)) with connectionsMu := none } := by
    refine ⟨fun j c found => ⟨c, found, .refl c⟩,
      fun j c _ _ unregistered unclaimed => ⟨?_, by simp⟩⟩
    have other : i ≠ j := fun same => unclaimed (by rw [locked, same])
    simp only [Shared.on, ServerState.register, Function.update_apply]
    split_ifs
    · simp [other]
    · exact unregistered
  refine evolves.effect rfl rfl rfl rfl rfl rfl ?_ trivial
  rw [locked]
  exact .releases

theorem startHandshakeTimer_quiet (s : Shared cache) (i : Nat) :
    s.Quiet (s.on (·.startHandshakeTimer i)) := by
  refine s.update_quiet i fun c _ => ?_
  split_ifs
  · exact .refl c
  · exact .others c ..

theorem HelloSteps.effect {pos : HelloPos}
    (claimed : ∀ i, (Thread.hello input data pos).registers = some i → s.connectionsMu = some i)
    (steps : HelloSteps server s input data pos s' t') :
    Effect server s s' (.hello input data pos) t' := by
  cases steps with
  | authenticates | rejects | isNew | reuses | replaces | unjoined | full | refuses =>
    exact (Shared.Quiet.refl s).free rfl rfl fun _ => id
  | replayed | admits | evicts =>
    refine Shared.Quiet.free ?_ rfl rfl fun _ => id
    exact .of_pool rfl rfl rfl rfl rfl
  | reservesTotal hello room =>
    refine counters_effect ?_ ?_ (.inr room) (.inl le_rfl) rfl rfl id trivial
    · simp [Thread.heldTotal]
    · simp [Thread.heldPending]
  | crowded | fails =>
    exact (Shared.Quiet.refl s).effect rfl rfl rfl rfl trivial fun _ => .inl
  | reservesPending hello room =>
    refine counters_effect ?_ ?_ (.inl le_rfl) (.inr room) rfl rfl id trivial
    · simp [Thread.heldTotal]
    · simp [Thread.heldPending]
  | undoesTotal =>
    refine counters_effect ?_ ?_ (.inl (by omega)) (.inl le_rfl) rfl rfl id trivial
    · simp [Thread.heldTotal]
    · simp [Thread.heldPending]
  | creates made => exact create_effect made _ fun _ => by simp
  | undoesPending =>
    refine counters_effect ?_ ?_ (.inl le_rfl) (.inl (by omega)) rfl rfl id trivial
    · simp [Thread.heldTotal]
    · simp [Thread.heldPending]
  | checks found unlocked serving opened => exact setCheck_effect found opened unlocked
  | sets found => exact setAct_effect _ (claimed _ rfl)
  | startsTimer i => exact (startHandshakeTimer_quiet s i).free rfl rfl fun _ => id
  | sends i | unsent i =>
    have quiet := s.update_quiet i (f := fun c => { c with handshakeCodec := ‹Codec› })
      fun c _ => .others c ..
    exact quiet.free rfl rfl fun _ => id

theorem Dispatches.free {message : Message} (dispatches : Dispatches server data i message t') :
    t'.free = true := by
  cases dispatches <;> rfl

theorem OfferSteps.effect {pos : OfferPos} {spawned : List Thread}
    (steps : OfferSteps server s data pos s' t' spawned) :
    Effect server s s' (.offer data pos) t' ∧ ∀ u ∈ spawned, u.free = true := by
  have stays {u : Thread} (free : u.free = true) : Effect server s s (.offer data pos) u :=
    (Shared.Quiet.refl s).free rfl free fun _ => id
  cases steps with
  | ignores | finds | refuses | drops | skips | misses => exact ⟨stays rfl, by simp⟩
  | @receives i c message found decoded window fresh t' goes =>
    have quiet := s.update_quiet i (f := fun c => { c with signalRecv := window })
      fun c _ => .others c ..
    refine ⟨(quiet.log _).free rfl ?_ fun j logged => ?_, by simp⟩
    · rcases goes with rfl | ⟨_, rfl⟩ <;> rfl
    · simpa [Shared.log, Shared.on] using logged
  | judges current => exact ⟨stays (dispatch_dispatches ..).free, by simp⟩
  | selects i name =>
    have quiet (c : Connection) : c.Quiet (if c.closed = false ∧ c.selectedTransport = [] then
        { c with selectedTransport := name } else c) := by
      split_ifs
      · exact .others c ..
      · exact .refl c
    exact ⟨(s.update_quiet i fun c _ => quiet c).free rfl rfl fun _ => id, by simp⟩
  | @takes i =>
    have quiet := s.update_quiet i (f := fun c => { c with pendingICEOffer := none })
      fun c _ => .others c ..
    exact ⟨(quiet.note _).free rfl rfl fun _ => id, by simp [Thread.free]⟩
  | starts =>
    exact ⟨((Shared.Quiet.refl s).note _).free rfl rfl fun _ => id, by simp [Thread.free]⟩
  | keeps =>
    refine ⟨Shared.Quiet.free ?_ rfl rfl fun _ => id, by simp⟩
    exact s.update_quiet _ fun c _ => .others c ..

theorem installICEAgent_quiet (s : Shared cache) (agent : Nat) (available : s.available i = true) :
    s.Quiet (s.on (·.update i fun c => { c with iceAgent := some agent })) := by
  refine s.update_quiet i fun c found => ?_
  simp only [Shared.available, found, Option.any_some, Bool.and_eq_true, Bool.not_eq_true']
    at available
  exact ⟨⟨rfl, id, id, id, id, fun _ => id, fun _ => id,
    fun closed => absurd closed (by simp [available.1.1])⟩, rfl, rfl, rfl⟩

theorem installTransport_quiet (s : Shared cache) {agent : Nat} (transport : Nat)
    (awaits : s.awaitsTransport i agent = true) :
    s.Quiet (s.on (·.update i fun c => { c with transportConn := some transport })) := by
  refine s.update_quiet i fun c found => ?_
  simp only [Shared.awaitsTransport, found, Option.any_some, Bool.and_eq_true, Bool.not_eq_true']
    at awaits
  exact ⟨⟨rfl, id, id, id, id, fun closed => absurd closed (by simp [awaits.1.1.1.1]),
    fun _ => id, fun _ => id⟩, rfl, rfl, rfl⟩

theorem ICETurns.free {choice : Choice} {locals : Locals} {pos : ICEPos}
    (turn : ICETurns server choice s i locals pos t') :
    (Thread.ice i locals pos).free = true ∧ t'.free = true := by
  cases turn <;> exact ⟨rfl, rfl⟩

/-- `markEstablished` gives the pending lease back, the rest of `handleICEOffer`
leaves leases and registry alone. -/
theorem ICESteps.effect {choice : Choice} {locals : Locals} {pos : ICEPos}
    (steps : ICESteps server choice s i locals pos s' t') :
    Effect server s s' (.ice i locals pos) t' := by
  have drops {s₁ : Shared cache} {u : Thread} (quiet : s.Quiet s₁) (trace : s₁.trace = s.trace)
      (before : (Thread.ice i locals pos).free = true) (free : u.free = true) :
      Effect server s s₁ (.ice i locals pos) u :=
    quiet.free before free fun j logged => by rwa [← trace]
  have logs {s₁ : Shared cache} {u : Thread} {what : Disclosure} (quiet : s.Quiet s₁)
      (trace : s₁.trace = s.trace) (before : (Thread.ice i locals pos).free = true)
      (free : u.free = true) :
      Effect server s (s₁.log (.disclosed i what)) (.ice i locals pos) u :=
    (quiet.log _).free before free fun j logged => by simpa [Shared.log, trace] using logged
  have updates {f : Connection → Connection} (same : ∀ c : Connection, c.Quiet (f c)) :
      s.Quiet (s.on (·.update i f)) := s.update_quiet i fun c _ => same c
  cases steps with
  | turns turn => exact drops (.refl s) rfl turn.free.1 turn.free.2
  | makesAgent => exact logs (.of_pool rfl rfl rfl rfl rfl) rfl rfl rfl
  | noAgent => exact logs (.refl s) rfl rfl rfl
  | installsAgent free =>
    exact ((installICEAgent_quiet s locals.agent free).note _).free rfl rfl fun _ => id
  | refusesAgent | dials | rejectsTransport =>
    exact drops (.of_pool rfl rfl rfl rfl rfl) rfl rfl rfl
  | gathers goes =>
    refine logs (.refl s) rfl rfl ?_
    rcases goes with ⟨_, rfl⟩ | ⟨_, rfl⟩ <;> rfl
  | discards at_ =>
    refine drops (.of_pool rfl rfl rfl rfl rfl) rfl ?_ rfl
    rcases at_ with rfl | rfl <;> rfl
  | publishes sequence codec goes =>
    refine logs (updates fun c => .others c ..) rfl rfl ?_
    rcases goes with rfl | rfl <;> rfl
  | unpublished | establishes | stopsTimer =>
    exact drops (updates fun c => .others c ..) rfl rfl rfl
  | installsTransport awaited =>
    exact ((installTransport_quiet s locals.transport awaited).note _).free rfl rfl fun _ => id
  | takesPending leased =>
    obtain ⟨c, found, held⟩ := (Option.any_eq_true _ _).mp leased
    exact swapPendingLease_effect found rfl (by rw [held]; rfl) rfl rfl trivial
  | leavesPending released => exact drops (swapPendingLease_quiet released) rfl rfl rfl
  | dropsPending =>
    refine counters_effect ?_ ?_ (.inl le_rfl) (.inl (by omega)) rfl rfl id trivial
    · simp [Thread.heldTotal]
    · simp [Thread.heldPending]

theorem Steps.effect {choice : Choice} {spawned : List Thread} (torn : t.Torn s)
    (claimed : ∀ i, t.registers = some i → s.connectionsMu = some i)
    (steps : Steps server choice s t s' t' spawned) :
    Effect server s s' t t' ∧ ∀ u ∈ spawned, u.free = true := by
  cases steps with
  | hello steps => exact ⟨steps.effect claimed, by simp⟩
  | closing steps => exact ⟨steps.effect torn, by simp⟩
  | fires | lapses => exact ⟨(Shared.Quiet.refl s).free rfl rfl fun _ => id, by simp⟩
  | offer steps => exact steps.effect
  | ice steps => exact ⟨steps.effect, by simp⟩

theorem Occurs.effect {spawned : List Thread} (occurs : Occurs s s' spawned) :
    Effect server s s' .finished .finished ∧ ∀ u ∈ spawned, u.free = true := by
  have stays : Effect server s s .finished .finished :=
    (Shared.Quiet.refl s).free rfl rfl fun _ => id
  cases occurs with
  | hello | offer | close | timer => exact ⟨stays, by simp [Thread.free]⟩
  | shutdown =>
    refine ⟨Shared.Quiet.free ?_ rfl rfl fun _ => id, by simp⟩
    exact .of_pool rfl rfl rfl rfl rfl
  | clear =>
    have evolves : s.Evolves (s.on fun state => { state with connections := fun _ => none }) :=
      ⟨fun i c found => ⟨c, found, .refl c⟩,
        fun _ _ _ _ _ unclaimed => ⟨by simp [Shared.on], unclaimed⟩⟩
    exact ⟨evolves.effect rfl rfl rfl rfl rfl rfl .keeps trivial, by simp⟩

end Effects

end ServerMachine
end Telekit
