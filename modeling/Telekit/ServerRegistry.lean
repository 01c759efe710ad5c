import Telekit.ServerEffects

/-! Who registers connections. Of a thread only its stage matters: a hello handler that
has not begun, that has looked up the client, that is closing the session it found,
that is about to make one, or that has one to register; and a call of `Close` that has
not set the flag yet.
Every step of the running server is a walk from one stage to another, and the map of
connections changes in two of them only. -/

namespace Telekit

theorem Server.createConnection_sourceId {P : Primitives} {server : Server P} {hello : Hello}
    {random : SessionRandom} {conn : Connection}
    (ok : server.createConnection hello random = .ok conn) :
    conn.sourceId = hello.sourceId := by
  simp only [createConnection, bind_ok] at ok
  obtain ⟨_, _, _, _, ok⟩ := ok
  split at ok
  · simp at ok
  · simp only [bind_ok, pure_ok] at ok
    obtain ⟨_, _, _, _, _, _, rfl⟩ := ok
    rfl

namespace ServerMachine

inductive Stage
  | idle
  | waits
  | looked (id : GoString) (existing : Option Nat)
  | replaces (id : GoString) (i : Nat) (flagged : Bool)
  | makes (id : GoString)
  | checks (i : Nat)
  | sets (i : Nat)
  | closes (i : Nat)
  deriving DecidableEq

def HelloPos.stage : HelloPos → Stage
  | .lookup => .waits
  | .prepare existing hello | .nonce existing hello => .looked hello.sourceId existing
  | .reserveTotal hello | .reservePending hello | .create hello => .makes hello.sourceId
  | .setCheck i => .checks i
  | .setAct i => .sets i
  | _ => .idle

def ClosePos.flagged : ClosePos → Bool
  | .store => false
  | _ => true

def Thread.stage : Thread → Stage
  | .hello _ _ pos => pos.stage
  | .closing i pos (some (_, _, authentic)) => .replaces authentic.sourceId i pos.flagged
  | .closing i .store none => .closes i
  | _ => .idle

variable {cache : Lru.Cache Bytes Int}

def Shared.Closed (s : Shared cache) (i : Nat) : Prop :=
  ∃ c, s.pool[i]? = some c ∧ c.closed = true

structure Shared.Frame (s s' : Shared cache) : Prop where
  length : s'.pool.length = s.pool.length
  connections : s'.connections = s.connections
  shut : s'.closed = s.closed

inductive Goes (s : Shared cache) : Stage → Stage → Prop
  | keeps (v : Stage) : Goes s v v
  | looks (id : GoString) : Goes s .waits (.looked id (s.connections id))
  | drops : Goes s .waits .idle
  | rejects (id : GoString) (existing : Option Nat) : Goes s (.looked id existing) .idle
  | reuses (id : GoString) (i : Nat) : Goes s (.looked id (some i)) (.checks i)
  | evicts (id : GoString) (i : Nat) : Goes s (.looked id (some i)) (.replaces id i false)
  | proceeds (id : GoString) : Goes s (.looked id none) (.makes id)
  | returns (id : GoString) (i : Nat) : Goes s (.replaces id i true) (.makes id)
  | fails (id : GoString) : Goes s (.makes id) .idle
  | passes {i : Nat} (opened : s.closed = false) : Goes s (.checks i) (.sets i)
  | refuses (i : Nat) : Goes s (.checks i) (.closes i)
  | begins (i : Nat) : Goes s .idle (.closes i)

inductive Walks (s s' : Shared cache) : Stage → Stage → Prop
  | goes {v v' : Stage} (frame : s.Frame s') (goes : Goes s v v') : Walks s s' v v'
  | flags {id : GoString} {i : Nat} (frame : s.Frame s') (closed : s'.Closed i) :
      Walks s s' (.replaces id i false) (.replaces id i true)
  | closes {i : Nat} (frame : s.Frame s') (closed : s'.Closed i) : Walks s s' (.closes i) .idle
  | removes {v : Stage} {i : Nat} (length : s'.pool.length = s.pool.length)
      (shut : s'.closed = s.closed) (closed : s'.Closed i)
      (removed : ∀ id, s'.connections id = s.connections id ∨
        s.connections id = some i ∧ s'.connections id = none) : Walks s s' v v
  | creates {id : GoString} {c : Connection} (pool : s'.pool = s.pool ++ [c])
      (own : c.sourceId = id) (connections : s'.connections = s.connections)
      (shut : s'.closed = s.closed) : Walks s s' (.makes id) (.checks s.pool.length)
  | sets {i : Nat} {c : Connection} (found : s.pool[i]? = some c) (pool : s'.pool = s.pool)
      (connections : s'.connections = Function.update s.connections c.sourceId (some i))
      (shut : s'.closed = s.closed) : Walks s s' (.sets i) .idle

section Frames
variable (s : Shared cache)

theorem Shared.Frame.refl : s.Frame s := ⟨rfl, rfl, rfl⟩

variable {s} in
theorem Shared.Frame.trans {s' s'' : Shared cache} (first : s.Frame s') (second : s'.Frame s'') :
    s.Frame s'' :=
  ⟨second.length.trans first.length, second.connections.trans first.connections,
    second.shut.trans first.shut⟩

variable {s} in
theorem Shared.Frame.beside {s' s'' : Shared cache} (frame : s.Frame s')
    (same : s''.toServerState = s'.toServerState) : s.Frame s'' :=
  ⟨by rw [same, frame.length], by rw [same, frame.connections], by rw [same, frame.shut]⟩

theorem Shared.frame_update (i : Nat) (f : Connection → Connection) :
    s.Frame (s.on (·.update i f)) := by
  refine ⟨?_, ?_, ?_⟩ <;> simp only [on, ServerState.update] <;> split <;> simp

end Frames

section Refinement
variable {P : Primitives} {server : Server P} {s s' : Shared cache} {t t' : Thread}

theorem Walks.still (frame : s.Frame s') {v v' : Stage} (same : v' = v) : Walks s s' v v' := by
  rw [same]
  exact .goes frame (.keeps v)

theorem closing_idle (i : Nat) {pos : ClosePos} (flagged : pos.flagged = true) :
    (Thread.closing i pos none).stage = .idle := by
  cases pos with
  | store => cases flagged
  | _ => rfl

theorem closing_stage (i : Nat) (next : Option (HelloInput × Bytes × Hello)) {pos after : ClosePos}
    (before : pos.flagged = true) (later : after.flagged = true) :
    (Thread.closing i after next).stage = (Thread.closing i pos next).stage := by
  cases next with
  | none => rw [closing_idle i before, closing_idle i later]
  | some call => simp only [Thread.stage, before, later]

theorem Walks.returned (frame : s.Frame s') (i : Nat) (next : Option (HelloInput × Bytes × Hello))
    {pos : ClosePos} (flagged : pos.flagged = true) :
    Walks s s' (Thread.closing i pos next).stage (Thread.resume i next none).stage := by
  cases next with
  | none =>
    rw [closing_idle i flagged]
    exact .still frame rfl
  | some call =>
    simp only [Thread.stage, flagged]
    exact .goes frame (.returns ..)

variable {i : Nat}

theorem storeClosed_closed {c : Connection} (found : s.pool[i]? = some c) :
    (s.on (·.storeClosed i)).Closed i := by
  refine ⟨{ c with closed := true }, ?_, rfl⟩
  simp only [Shared.on, ServerState.storeClosed, ServerState.update_getElem?, if_true, found,
    Option.map_some]

theorem removeCurrent_walks (torn : s.Torn i 1) (v : Stage) :
    Walks s (s.on (·.removeCurrent i)) v v := by
  obtain ⟨c, found, closed, _⟩ := torn (by decide)
  have pool := (removeCurrent_keeps s.toServerState i).1
  refine .removes (i := i) ?_ ?_ ⟨c, ?_, closed⟩ fun id => ?_
  · simp only [Shared.on, pool]
  · simp only [Shared.on, ServerState.removeCurrent, found]
    split_ifs <;> rfl
  · simp only [Shared.on, pool, found]
  · simp only [Shared.on, removeCurrent_connections _ found]
    split_ifs with own
    · exact .inr ⟨own.1, rfl⟩
    · exact .inl rfl

theorem CloseSteps.walks {pos : ClosePos} {next : Option (HelloInput × Bytes × Hello)}
    {after : Option ClosePos} (torn : s.Torn i pos.rank) (steps : CloseSteps s i pos s' after) :
    Walks s s' (Thread.closing i pos next).stage (Thread.resume i next after).stage := by
  cases steps with
  | stores found =>
    have frame : s.Frame (s.on (·.storeClosed i)) := s.frame_update i _
    cases next with
    | none => exact .closes frame (storeClosed_closed found)
    | some call => exact .flags frame (storeClosed_closed found)
  | waits =>
    exact Walks.returned (show s.Frame (s.log _) from ⟨rfl, rfl, rfl⟩) i next
      (show ClosePos.once.flagged = true from rfl)
  | removes =>
    rw [show (Thread.resume i next (some .stopTimer)).stage = (Thread.closing i .remove next).stage
      from closing_stage i next rfl rfl]
    exact removeCurrent_walks torn _
  | enters | stopsTimer | takesPending | leavesPending | takesTotal | leavesTotal | clears =>
    exact .still (s.frame_update i _) (closing_stage i next rfl rfl)
  | dropsPending | dropsTotal =>
    refine .still ?_ (closing_stage i next rfl rfl)
    exact ⟨rfl, rfl, rfl⟩
  | leaves transport agent =>
    have frame : s.Frame ((s.closeTaken transport agent).on (·.leaveClose i)) :=
      ((Shared.Frame.refl s).beside (s.closeTaken_toServerState transport agent)).trans
        (Shared.frame_update _ i _)
    exact Walks.returned (frame.beside (by rfl)) i next
      (show (ClosePos.leave transport agent).flagged = true from rfl)

theorem HelloSteps.walks {input : HelloInput} {data : Bytes} {pos : HelloPos}
    (steps : HelloSteps server s input data pos s' t') : Walks s s' pos.stage t'.stage := by
  have frame := Shared.Frame.refl s
  cases steps with
  | authenticates => exact .goes frame (.looks _)
  | rejects => exact .goes frame .drops
  | reuses => exact .goes frame (.reuses _ _)
  | replayed => exact .goes ⟨rfl, rfl, rfl⟩ (.rejects _ _)
  | admits => exact .goes ⟨rfl, rfl, rfl⟩ (.proceeds _)
  | evicts => exact .goes ⟨rfl, rfl, rfl⟩ (.evicts _ _)
  | unjoined | full | crowded | fails => exact .goes frame (.fails _)
  | isNew | replaces => exact .still frame rfl
  | reservesTotal | reservesPending | undoesTotal | undoesPending =>
    refine .still ?_ rfl
    exact ⟨rfl, rfl, rfl⟩
  | creates made => exact .creates rfl (server.createConnection_sourceId made) rfl rfl
  | refuses => exact .goes frame (.refuses _)
  | checks found unlocked serving => exact .goes ⟨rfl, rfl, rfl⟩ (.passes serving)
  | sets found => exact .sets found rfl rfl rfl
  | startsTimer i | sends i => exact .still (s.frame_update i _) rfl
  | unsent i => exact .goes (s.frame_update i _) (.begins i)

theorem Walks.outside (frame : s.Frame s') {u : Thread}
    (next : u.stage = .idle ∨ u.stage = .closes i) : Walks s s' .idle u.stage := by
  rcases next with idle | closes
  · exact .still frame idle
  · rw [closes]
    exact .goes frame (.begins i)

theorem Dispatches.stage {data : Bytes} {message : Message}
    (dispatches : Dispatches server data i message t') :
    t'.stage = .idle ∨ t'.stage = .closes i := by
  cases dispatches with
  | disconnects => exact .inr rfl
  | _ => exact .inl rfl

theorem OfferSteps.walks {data : Bytes} {pos : OfferPos} {spawned : List Thread}
    (steps : OfferSteps server s data pos s' t' spawned) :
    Walks s s' .idle t'.stage ∧ ∀ u ∈ spawned, u.stage = .idle := by
  have frame := Shared.Frame.refl s
  cases steps with
  | ignores | finds | refuses | drops | skips | misses => exact ⟨.still frame rfl, by simp⟩
  | @receives i c message found decoded window fresh t' goes =>
    have update := s.frame_update i fun c => { c with signalRecv := window }
    refine ⟨.still (update.beside (by rfl)) ?_, by simp⟩
    rcases goes with rfl | ⟨_, rfl⟩ <;> rfl
  | judges => exact ⟨.outside frame (dispatch_dispatches ..).stage, by simp⟩
  | selects i | keeps => exact ⟨.still (s.frame_update _ _) rfl, by simp⟩
  | takes =>
    refine ⟨.still (Shared.Frame.beside (s.frame_update _ _) (by rfl)) rfl, ?_⟩
    simp [Thread.stage]
  | starts =>
    refine ⟨.still (frame.beside (by rfl)) rfl, ?_⟩
    simp [Thread.stage]

theorem ICETurns.stage {choice : Choice} {locals : Locals} {pos : ICEPos}
    (turn : ICETurns server choice s i locals pos t') :
    t'.stage = .idle ∨ t'.stage = .closes i := by
  cases turn <;> first | exact .inl rfl | exact .inr rfl

theorem ICESteps.walks {choice : Choice} {locals : Locals} {pos : ICEPos}
    (steps : ICESteps server choice s i locals pos s' t') : Walks s s' .idle t'.stage := by
  have beside {s₁ : Shared cache} (same : s₁.toServerState = s.toServerState) : s.Frame s₁ :=
    (Shared.Frame.refl s).beside same
  have updated (f : Connection → Connection) {s₁ : Shared cache}
      (same : s₁.toServerState = s.update i f) : s.Frame s₁ :=
    Shared.Frame.beside (s.frame_update i f) same
  cases steps with
  | turns turn => exact .outside (.refl s) turn.stage
  | makesAgent | gathers | refusesAgent | discards | dials | rejectsTransport =>
    exact .still (beside (by rfl)) rfl
  | noAgent => exact .outside (i := i) (beside (by rfl)) (.inr rfl)
  | publishes sequence codec goes =>
    refine .outside (i := i) (updated _ rfl) ?_
    rcases goes with rfl | rfl
    · exact .inl rfl
    · exact .inr rfl
  | unpublished => exact .outside (i := i) (updated _ rfl) (.inr rfl)
  | installsAgent | installsTransport | establishes | takesPending | leavesPending | stopsTimer =>
    exact .still (updated _ rfl) rfl
  | dropsPending =>
    refine .still ?_ rfl
    exact ⟨rfl, rfl, rfl⟩

theorem Steps.walks {choice : Choice} {spawned : List Thread} (torn : t.Torn s)
    (steps : Steps server choice s t s' t' spawned) :
    Walks s s' t.stage t'.stage ∧ ∀ u ∈ spawned, u.stage = .idle := by
  cases steps with
  | hello steps => exact ⟨steps.walks, by simp⟩
  | closing steps => exact ⟨steps.walks torn, by simp⟩
  | fires => exact ⟨.goes (.refl s) (.begins _), by simp⟩
  | lapses => exact ⟨.still (.refl s) rfl, by simp⟩
  | offer steps => exact steps.walks
  | ice steps => exact ⟨steps.walks, by simp⟩

end Refinement

/-! What the stages are worth. -/

/-- The stages of a hello handler, which runs under `helloMu`. -/
def Stage.handles : Stage → Bool
  | .looked _ _ | .replaces _ _ _ | .makes _ | .checks _ | .sets _ => true
  | _ => false

def Stage.holds (i : Nat) : Stage → Prop
  | .checks j | .sets j | .closes j => j = i
  | _ => False

def Shared.Registered (s : Shared cache) (i : Nat) : Prop :=
  ∃ c, s.pool[i]? = some c ∧ s.connections c.sourceId = some i

def Shared.Keyed (s : Shared cache) : Prop :=
  ∀ id i, s.connections id = some i → ∃ c, s.pool[i]? = some c ∧ c.sourceId = id

/-- What a handler knows about the entry of its client, as long as no other handler
registers: it is the one it found, or its own, or one that is closed. -/
def Stage.Informed (s : Shared cache) : Stage → Prop
  | .looked id existing => (∀ j, s.connections id = some j → existing = some j) ∧
      ∀ i, existing = some i → ∃ c, s.pool[i]? = some c ∧ c.sourceId = id
  | .replaces id i flagged => (∀ j, s.connections id = some j → j = i) ∧
      (flagged = true → s.Closed i)
  | .makes id => ∀ j, s.connections id = some j → s.Closed j
  | .checks i | .sets i => ∃ c, s.pool[i]? = some c ∧
      ∀ j, s.connections c.sourceId = some j → j = i ∨ s.Closed j
  | _ => True

section Registry
variable {s s' : Shared cache} {v v' x : Stage}

variable {i : Nat}

theorem Shared.Closed.mono (closed : s.Closed i) (evolves : s.Evolves s') : s'.Closed i := by
  obtain ⟨c, found, flag⟩ := closed
  obtain ⟨c', found', step⟩ := evolves.conns i c found
  exact ⟨c', found', step.closed flag⟩

theorem Shared.Evolves.sourced (evolves : s.Evolves s') {id : GoString}
    (known : ∃ c, s.pool[i]? = some c ∧ c.sourceId = id) :
    ∃ c, s'.pool[i]? = some c ∧ c.sourceId = id := by
  obtain ⟨c, found, own⟩ := known
  obtain ⟨c', found', step⟩ := evolves.conns i c found
  exact ⟨c', found', step.sourceId.trans own⟩

theorem Walks.shrinks (walks : Walks s s' v v') (reads : ∀ i, v ≠ .sets i) {id : GoString} {j : Nat}
    (entry : s'.connections id = some j) : s.connections id = some j := by
  cases walks with
  | goes frame | flags frame | closes frame => rwa [frame.connections] at entry
  | removes _ _ _ removed =>
    rcases removed id with same | ⟨_, none⟩
    · rwa [same] at entry
    · rw [none] at entry
      cases entry
  | creates _ _ connections => rwa [connections] at entry
  | sets => exact absurd rfl (reads _)

theorem Stage.Informed.mono (informed : x.Informed s) (evolves : s.Evolves s')
    (shrinks : ∀ id j, s'.connections id = some j → s.connections id = some j) : x.Informed s' := by
  have own {i : Nat} (known : ∃ c, s.pool[i]? = some c ∧
      ∀ j, s.connections c.sourceId = some j → j = i ∨ s.Closed j) :
      ∃ c, s'.pool[i]? = some c ∧
        ∀ j, s'.connections c.sourceId = some j → j = i ∨ s'.Closed j := by
    obtain ⟨c, found, entries⟩ := known
    obtain ⟨c', found', step⟩ := evolves.conns i c found
    refine ⟨c', found', fun j entry => ?_⟩
    rw [step.sourceId] at entry
    exact (entries j (shrinks _ j entry)).imp_right fun closed => closed.mono evolves
  cases x with
  | idle | waits | closes => trivial
  | looked id existing =>
    exact ⟨fun j entry => informed.1 j (shrinks id j entry),
      fun i same => evolves.sourced (informed.2 i same)⟩
  | replaces id i flagged =>
    exact ⟨fun j entry => informed.1 j (shrinks id j entry),
      fun flag => (informed.2 flag).mono evolves⟩
  | makes id => exact fun j entry => (informed j (shrinks id j entry)).mono evolves
  | checks | sets => exact own informed

theorem Goes.informed (goes : Goes s v v') (keyed : s.Keyed) (informed : v.Informed s) :
    v'.Informed s := by
  cases goes with
  | keeps | passes => exact informed
  | looks id => exact ⟨fun j entry => entry, fun i same => keyed id i same⟩
  | reuses id i =>
    obtain ⟨c, found, own⟩ := informed.2 i rfl
    refine ⟨c, found, fun j entry => .inl ?_⟩
    rw [own] at entry
    exact (Option.some.inj (informed.1 j entry)).symm
  | evicts id i =>
    exact ⟨fun j entry => (Option.some.inj (informed.1 j entry)).symm, fun flag => by cases flag⟩
  | proceeds id => exact fun j entry => by cases informed.1 j entry
  | returns id i =>
    intro j entry
    rw [informed.1 j entry]
    exact informed.2 rfl
  | drops | rejects | fails | refuses | begins => trivial

theorem Walks.informed (walks : Walks s s' v v') (evolves : s.Evolves s') (keyed : s.Keyed)
    (informed : v.Informed s) : v'.Informed s' := by
  cases walks with
  | goes frame goes =>
    exact (goes.informed keyed informed).mono evolves fun id j entry => by
      rwa [frame.connections] at entry
  | flags frame closed =>
    exact ⟨fun j entry => informed.1 j (by rwa [frame.connections] at entry), fun _ => closed⟩
  | closes | sets => trivial
  | removes length shut closed removed =>
    refine informed.mono evolves fun id j entry => ?_
    exact (Walks.removes (v := .idle) length shut closed removed).shrinks (by simp) entry
  | @creates id c pool own connections =>
    refine ⟨c, by rw [pool]; simp, fun j entry => .inr ?_⟩
    rw [own, connections] at entry
    exact Shared.Closed.mono (informed j entry) evolves

theorem Walks.keyed (walks : Walks s s' v v') (evolves : s.Evolves s') (keyed : s.Keyed) :
    s'.Keyed := by
  intro id i entry
  have kept (before : s.connections id = some i) : ∃ c, s'.pool[i]? = some c ∧ c.sourceId = id :=
    evolves.sourced (keyed id i before)
  cases walks with
  | @sets j c found pool connections =>
    rw [connections, Function.update_apply] at entry
    split_ifs at entry with same
    · cases entry
      exact ⟨c, by rw [pool, found], same.symm⟩
    · exact kept entry
  | goes frame | flags frame | closes frame => exact kept (by rwa [frame.connections] at entry)
  | removes _ _ _ removed =>
    rcases removed id with same | ⟨_, none⟩
    · exact kept (by rwa [same] at entry)
    · rw [none] at entry
      cases entry
  | creates _ _ connections => exact kept (by rwa [connections] at entry)

theorem Walks.registered (walks : Walks s s' v v') (evolves : s.Evolves s')
    (informed : v.Informed s) (registered : s.Registered i) : s'.Closed i ∨ s'.Registered i := by
  obtain ⟨c, found, entry⟩ := registered
  obtain ⟨c', found', step⟩ := evolves.conns i c found
  have kept (same : s'.connections c.sourceId = s.connections c.sourceId) : s'.Registered i :=
    ⟨c', found', by rw [step.sourceId, same, entry]⟩
  cases walks with
  | goes frame | flags frame | closes frame => exact .inr (kept (by rw [frame.connections]))
  | @removes _ j _ _ closed removed =>
    rcases removed c.sourceId with same | ⟨other, _⟩
    · exact .inr (kept same)
    · rw [entry] at other
      cases other
      exact .inl closed
  | creates _ _ connections => exact .inr (kept (by rw [connections]))
  | @sets j d own pool connections =>
    by_cases same : c.sourceId = d.sourceId
    · obtain ⟨d', own', entries⟩ := informed
      rw [own] at own'
      cases own'
      rcases entries i (by rw [← same, entry]) with rfl | closed
      · refine .inr ⟨c', found', ?_⟩
        rw [connections, step.sourceId, same, Function.update_self]
      · exact .inl (closed.mono evolves)
    · refine .inr (kept ?_)
      rw [connections, Function.update_of_ne same]

theorem Walks.holds (walks : Walks s s' v v') (holds : v.holds i) :
    v'.holds i ∨ s'.Closed i ∨ v = .sets i ∧ s'.Registered i := by
  cases walks with
  | goes frame goes =>
    cases goes with
    | keeps | passes | refuses => exact .inl holds
    | looks | drops | rejects | reuses | evicts | proceeds | returns | fails | begins =>
      exact holds.elim
  | flags | creates => exact holds.elim
  | closes frame closed =>
    cases holds
    exact .inr (.inl closed)
  | removes => exact .inl holds
  | @sets j c found pool connections =>
    cases holds
    refine .inr (.inr ⟨rfl, c, ?_, ?_⟩)
    · rw [pool, found]
    · rw [connections, Function.update_self]

theorem Walks.made (walks : Walks s s' v v') (new : s.pool.length ≤ i)
    (inside : i < s'.pool.length) : v'.holds i := by
  cases walks with
  | goes frame | flags frame | closes frame =>
    rw [frame.length] at inside
    omega
  | removes length =>
    rw [length] at inside
    omega
  | creates pool =>
    rw [pool, List.length_append, List.length_singleton] at inside
    exact show s.pool.length = i by omega
  | sets _ pool =>
    rw [pool] at inside
    omega

theorem Walks.shut (walks : Walks s s' v v') : s'.closed = s.closed := by
  cases walks with
  | goes frame | flags frame | closes frame => exact frame.shut
  | removes _ shut | creates _ _ _ shut | sets _ _ _ shut => exact shut

theorem Walks.handles (walks : Walks s s' v v') (handles : v'.handles = true) :
    v.handles = true ∨ v = .waits := by
  cases walks with
  | goes frame goes =>
    cases goes with
    | keeps => exact .inl handles
    | looks => exact .inr rfl
    | reuses | evicts | proceeds | returns | passes => exact .inl rfl
    | drops | rejects | fails | refuses | begins => cases handles
  | removes => exact .inl handles
  | flags | creates => exact .inl rfl
  | closes | sets => cases handles

theorem Walks.refused (walks : Walks s s' v v') (shut : s.closed = true)
    (reads : ∀ i, v ≠ .sets i) (i : Nat) : v' ≠ .sets i := by
  rintro rfl
  cases walks with
  | goes frame goes =>
    cases goes with
    | keeps => exact reads i rfl
    | passes opened =>
      rw [shut] at opened
      cases opened
  | removes => exact reads i rfl

end Registry

end ServerMachine
end Telekit
