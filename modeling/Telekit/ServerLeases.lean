import Telekit.HandshakeAgreement
import Telekit.ServerEffects

/-! Leases and registry of the running server, in every configuration it reaches:
the limits hold, the counters count leases, and a closed connection is gone. -/

namespace Telekit.ServerMachine
open Interleaving

variable {cache : Lru.Cache Bytes Int}

theorem Thread.Torn.keep {s s' : Shared cache} {t : Thread} (torn : t.Torn s)
    (evolves : s.Evolves s') : t.Torn s' := by
  cases t with
  | closing i pos next => exact Shared.Torn.keep torn evolves
  | _ => trivial

structure Invariant {P : Primitives} (server : Server P) (c : Config (Shared cache) Thread) :
    Prop where
  total : c.shared.totalGap = Ledger.total Thread.heldTotal c.threads
  pending : c.shared.pendingGap = Ledger.total Thread.heldPending c.threads
  totalBound : c.shared.totalConnections ≤ server.options.maxConnections
  pendingBound : c.shared.pendingHandshakes ≤ server.options.maxPendingHandshakes
  exclusive : Exclusive Thread.registers c.shared.connectionsMu c.threads
  nested : c.shared.Nested
  released : c.shared.Released
  returned : c.shared.Returned
  torn : ∀ t ∈ c.threads, t.Torn c.shared

section Invariant
variable {P : Primitives} {server : Server P} {c c' : Config (Shared cache) Thread}

theorem free_total {spawned : List Thread} (free : ∀ u ∈ spawned, u.free = true)
    (s : Shared cache) : Ledger.total Thread.heldTotal spawned = 0 ∧
      Ledger.total Thread.heldPending spawned = 0 :=
  ⟨Ledger.total_eq_zero fun u member => (u.free_spec (free u member) s).heldTotal,
    Ledger.total_eq_zero fun u member => (u.free_spec (free u member) s).heldPending⟩

theorem Invariant.step (holds : Invariant server c) {t t' : Thread} {s' : Shared cache}
    {threads : List Thread} (effect : Effect server c.shared s' t t')
    (total : Ledger.total Thread.heldTotal threads =
      Ledger.total Thread.heldTotal c.threads - t.heldTotal + t'.heldTotal)
    (pending : Ledger.total Thread.heldPending threads =
      Ledger.total Thread.heldPending c.threads - t.heldPending + t'.heldPending)
    (exclusive : Exclusive Thread.registers s'.connectionsMu threads)
    (torn : ∀ u ∈ threads, u.Torn s') : Invariant server ⟨s', threads⟩ where
  total := by
    have before := holds.total
    have moved := effect.total
    simp only
    omega
  pending := by
    have before := holds.pending
    have moved := effect.pending
    simp only
    omega
  totalBound := by
    rcases effect.totalBound with less | less
    · exact less.trans holds.totalBound
    · exact less
  pendingBound := by
    rcases effect.pendingBound with less | less
    · exact less.trans holds.pendingBound
    · exact less
  exclusive := exclusive
  nested := effect.nested holds.nested
  released := effect.released holds.released
  returned := effect.returned holds.returned
  torn := torn

theorem Invariant.moves (holds : Invariant server c) (moved : (program server).Moves c c') :
    Invariant server c' := by
  cases moved with
  | stays => exact holds
  | @advances n choice t t' s' spawned running moved =>
    have member := List.mem_of_getElem? running
    obtain ⟨effect, free⟩ := (advance_steps moved).effect (holds.torn _ member)
      fun i claims => holds.exclusive.claimed _ member i claims
    obtain ⟨noTotal, noPending⟩ := free_total free s'
    refine holds.step effect ?_ ?_ ?_ ?_
    · rw [total_advance _ running, noTotal, add_zero]
    · rw [total_advance _ running, noPending, add_zero]
    · apply (holds.exclusive.advance running effect.lock).enter
      exact fun u new => (u.free_spec (free u new) s').registers
    · exact forall_advance holds.torn (fun _ u _ _ torn => torn.keep effect.evolves) effect.torn
        fun u new => (u.free_spec (free u new) s').torn
  | @occurs call s' spawned happened =>
    obtain ⟨effect, free⟩ : Effect server c.shared s' .finished .finished ∧ _ :=
      (occur_occurs happened).effect
    obtain ⟨noTotal, noPending⟩ := free_total free s'
    refine holds.step effect ?_ ?_ ?_ fun u member => ?_
    · rw [Ledger.total_append, noTotal]
      omega
    · rw [Ledger.total_append, noPending]
      omega
    · rw [effect.lock.unclaimed]
      exact holds.exclusive.enter fun u new => (u.free_spec (free u new) s').registers
    · rcases List.mem_append.mp member with old | new
      · exact (holds.torn u old).keep effect.evolves
      · exact (u.free_spec (free u new) s').torn

theorem Invariant.evolves (holds : Invariant server c) (moved : (program server).Moves c c') :
    c.shared.Evolves c'.shared := by
  cases moved with
  | stays => exact (Shared.Quiet.refl _).evolves
  | advances running moved =>
    have member := List.mem_of_getElem? running
    exact ((advance_steps moved).effect (holds.torn _ member)
      fun i claims => holds.exclusive.claimed _ member i claims).1.evolves
  | @occurs call s' spawned happened =>
    have effect : Effect server c.shared s' .finished .finished := (occur_occurs happened).effect.1
    exact effect.evolves

theorem run_invariant (server : Server P) (cache : Lru.Cache Bytes Int)
    (actions : List Action) : Invariant server (run server cache actions) := by
  refine (program server).run_keeps (Invariant server) (fun _ _ => Invariant.moves) ?_ actions
  have accepted := server.accepted
  simp only [Options.Accepted] at accepted
  refine ⟨rfl, rfl, ?_, ?_, ⟨by simp, rfl⟩, ?_, ?_, ?_, by simp⟩
  · simp only [Shared.start, ServerState.start]
    omega
  · simp only [Shared.start, ServerState.start]
    omega
  · simp [Shared.Nested, Shared.start, ServerState.start]
  · simp [Shared.Released, Shared.start, ServerState.start]
  · simp [Shared.Returned, Shared.start]

end Invariant

theorem total_lease (f : Connection → Bool) (pool : List Connection) :
    Ledger.total (fun c => lease (f c)) pool = pool.countP f := by
  induction pool with
  | nil => rfl
  | cons c pool ih =>
    rw [Ledger.total_cons, ih, List.countP_cons]
    cases f c <;> simp [lease]
    omega

/-- A hello call, `markEstablished`, a timer or `Close` in progress. -/
def Thread.halfDone : Thread → Bool
  | .hello _ _ _ => true
  | .closing _ _ _ => true
  | .timer _ => true
  | .ice _ _ .establish => true
  | .ice _ _ .storeEstablished => true
  | .ice _ _ .swapPending => true
  | .ice _ _ .dropPending => true
  | .ice _ _ .stopTimer => true
  | _ => false

theorem Thread.held_of_not_halfDone {t : Thread} (idle : t.halfDone = false) :
    t.heldTotal = 0 ∧ t.heldPending = 0 := by
  cases t with
  | finished | offer => exact ⟨rfl, rfl⟩
  | hello | closing | timer => cases idle
  | ice i locals pos => cases pos <;> first | exact ⟨rfl, rfl⟩ | cases idle

theorem Invariant.counters {P : Primitives} {server : Server P} {c : Config (Shared cache) Thread}
    (holds : Invariant server c) (idle : ∀ t ∈ c.threads, t.halfDone = false) :
    c.shared.totalConnections = c.shared.pool.countP (·.totalLease) ∧
      c.shared.pendingHandshakes = c.shared.pool.countP (·.pendingLease) := by
  have total := holds.total
  have pending := holds.pending
  rw [Ledger.total_eq_zero fun t member => (Thread.held_of_not_halfDone (idle t member)).1] at total
  rw [Ledger.total_eq_zero fun t member => (Thread.held_of_not_halfDone (idle t member)).2]
    at pending
  simp only [Shared.totalGap, total_lease] at total
  simp only [Shared.pendingGap, total_lease] at pending
  omega

def Shared.Gone (s : Shared cache) (i : Nat) : Prop :=
  ∃ c, s.pool[i]? = some c ∧ s.connections c.sourceId ≠ some i ∧ c.totalLease = false ∧
    c.pendingLease = false ∧ c.transportConn = none ∧ c.dataChannel = none ∧ c.iceAgent = none

theorem Invariant.gone {P : Primitives} {server : Server P} {c : Config (Shared cache) Thread}
    (holds : Invariant server c) {i : Nat}
    (done : ∃ conn, c.shared.pool[i]? = some conn ∧ conn.closeDone = true) : c.shared.Gone i := by
  obtain ⟨conn, found, closed⟩ := done
  obtain ⟨conn', found', _, absent, pending, total, cleared⟩ :=
    holds.released i conn found closed (by decide)
  exact ⟨conn', found', (absent (by decide)).1, total (by decide), pending (by decide),
    cleared (by decide)⟩

theorem run_done {P : Primitives} {server : Server P} {c : Config (Shared cache) Thread}
    (holds : Invariant server c) {i : Nat}
    (done : ∃ conn, c.shared.pool[i]? = some conn ∧ conn.closeDone = true)
    (later : List Action) : ((program server).run c later).shared.Gone i := by
  have kept := (program server).run_keeps (fun c => Invariant server c ∧
    ∃ conn, c.shared.pool[i]? = some conn ∧ conn.closeDone = true)
    (fun c c' ⟨holds, conn, found, closed⟩ moved => by
      obtain ⟨conn', found', step⟩ := (holds.evolves moved).conns i conn found
      exact ⟨holds.moves moved, conn', found', step.closeDone closed⟩) ⟨holds, done⟩ later
  exact kept.1.gone kept.2

theorem removeCurrent_others (s : ServerState cache) {i j : Nat} (other : j ≠ i) {id : GoString}
    (registered : s.connections id = some j) : (s.removeCurrent i).connections id = some j := by
  cases found : s.pool[i]? with
  | none => simp only [ServerState.removeCurrent, found, registered]
  | some c =>
    rw [removeCurrent_connections s found, registered]
    simp [other]

/-- In every interleaving: the counters stay within their limits; they count the
leases whenever no call is half done; a connection whose `Close` has returned is
gone and stays gone; and its removal removes no other connection. -/
theorem leases_and_registry {P : Primitives} (server : Server P) (cache : Lru.Cache Bytes Int)
    (actions : List Action) :
    let c := run server cache actions
    (0 ≤ c.shared.totalConnections ∧
      c.shared.totalConnections ≤ server.options.maxConnections ∧
      0 ≤ c.shared.pendingHandshakes ∧
      c.shared.pendingHandshakes ≤ server.options.maxPendingHandshakes) ∧
    ((∀ t ∈ c.threads, t.halfDone = false) →
      c.shared.totalConnections = c.shared.pool.countP (·.totalLease) ∧
      c.shared.pendingHandshakes = c.shared.pool.countP (·.pendingLease) ∧
      ∀ conn ∈ c.shared.pool, conn.pendingLease = true → conn.totalLease = true) ∧
    (∀ i, .closeReturned i ∈ c.shared.trace → ∀ later,
      (run server cache (actions ++ later)).shared.Gone i) ∧
    ∀ n i next choice, c.threads[n]? = some (.closing i .remove next) → ∀ id j, j ≠ i →
      c.shared.connections id = some j →
      ((program server).step c (.advance n choice)).shared.connections id = some j := by
  have holds := run_invariant server cache actions
  generalize reached : run server cache actions = c at holds
  have total := holds.total
  have pending := holds.pending
  simp only [Shared.totalGap, total_lease] at total
  simp only [Shared.pendingGap, total_lease] at pending
  refine ⟨⟨?_, holds.totalBound, ?_, holds.pendingBound⟩,
    fun idle => ⟨(holds.counters idle).1, (holds.counters idle).2, ?_⟩,
    fun i returned later => ?_, fun n i next choice running id j other registered => ?_⟩
  · have held := Ledger.total_nonneg fun t (_ : t ∈ c.threads) => t.heldTotal_nonneg
    omega
  · have held := Ledger.total_nonneg fun t (_ : t ∈ c.threads) => t.heldPending_nonneg
    omega
  · intro conn member
    obtain ⟨i, found⟩ := List.mem_iff_getElem?.mp member
    exact holds.nested i conn found
  · simp only [run, Program.run_append]
    rw [show (program server).run ⟨Shared.start cache, []⟩ actions = c from reached]
    exact run_done holds (holds.returned i returned) later
  · simp only [Program.step, running, program, advance, closeStep]
    split_ifs
    · exact registered
    · exact removeCurrent_others c.shared.toServerState other registered

namespace Sample

def later : Bytes :=
  ((Plain.client.buildClientHello Plain.primitives (fun n => UInt8.ofNat (n + 1))
    (List.replicate 32 3) UInt8.ofNat 5000).toOption.map (·.message)).getD []

def advances (n count : Nat) : List Action :=
  List.replicate count (.advance n { ok := true })

/-- Two hellos of one client that both find no session, and then a `Close` of the
first connection up to its removal. -/
def replaced : List Action :=
  [.event (.hello (Plain.helloInput 6000) Plain.attempt.message),
    .event (.hello (Plain.helloInput 6000) later)] ++ advances 0 1 ++ advances 1 1 ++
  advances 0 9 ++ advances 1 9 ++ [.event (.close 0)] ++ advances 2 2

def removes : Thread → Bool
  | .closing 0 .remove none => true
  | _ => false

def returns : Event → Bool
  | .closeReturned 0 => true
  | _ => false

end Sample

open Sample in
theorem leases_and_registry_sample :
    ∃ c c' : Config (Shared Plain.nonces) Thread,
      run Plain.server Plain.nonces replaced = c ∧
      run Plain.server Plain.nonces (replaced ++ advances 2 8) = c' ∧
      ((program Plain.server).step c (.advance 2 { ok := true })).shared.connections
        (str "station") = some 1 ∧ c'.shared.pool.countP (·.totalLease) = 1 ∧ c'.shared.Gone 0 := by
  have evaluated :
      (run Plain.server Plain.nonces replaced).shared.connections (str "station") = some 1 ∧
      (run Plain.server Plain.nonces replaced).threads[2]?.any removes = true ∧
      (run Plain.server Plain.nonces (replaced ++ advances 2 8)).shared.totalConnections = 1 ∧
      (run Plain.server Plain.nonces (replaced ++ advances 2 8)).threads.all
        (fun t => !t.halfDone) = true ∧
      (run Plain.server Plain.nonces (replaced ++ advances 2 8)).shared.trace.any returns = true := by
    decide +kernel
  have first := leases_and_registry Plain.server Plain.nonces replaced
  have second := leases_and_registry Plain.server Plain.nonces (replaced ++ advances 2 8)
  have stays := fun i returned => (second.2.2.1 i returned [])
  simp only [List.append_nil] at stays
  generalize run Plain.server Plain.nonces replaced = c at *
  generalize run Plain.server Plain.nonces (replaced ++ advances 2 8) = c' at *
  obtain ⟨registered, running, counter, idle, returned⟩ := evaluated
  obtain ⟨t, found, closing⟩ := (Option.any_eq_true ..).mp running
  obtain ⟨event, logged, returns⟩ := List.any_eq_true.mp returned
  refine ⟨c, c', rfl, rfl, ?_, ?_, ?_⟩
  · unfold removes at closing
    split at closing
    · exact first.2.2.2 2 0 none _ found (str "station") 1 (by decide) registered
    · cases closing
  · have counts := (second.2.1 fun t member => by simpa using List.all_eq_true.mp idle t member).1
    rw [counter] at counts
    exact_mod_cast counts.symm
  · unfold Sample.returns at returns
    split at returns
    · exact stays 0 logged
    · cases returns

end Telekit.ServerMachine
