import Telekit.Library.Trace
import Telekit.ServerSteps

/-! When the running server discloses ICE data. Disclosure depends on a small part
of each connection, its signaling view, and on what the trace says was received.
The history of a view is described here without the threads: connections are
created by authentic hellos, messages are received under the key of the
connection with fresh numbers, and a transport or an offer is recorded only with
a message that carried it. Every step of the server is then a change of this
history, or leaves it alone. -/

namespace Telekit

structure Signaling where
  receiveCodec : Codec
  selectedTransport : GoString
  pendingICEOffer : Option ICEDescription
  signalRecv : ReplayWindow

def Connection.signaling (c : Connection) : Signaling :=
  ⟨c.codec.receiveCodec, c.selectedTransport, c.pendingICEOffer, c.signalRecv⟩

def Message.sequence (m : Message) : UInt64 := (m.header.getD {}).sequence

def Message.typ (m : Message) : MessageType := (m.header.getD {}).typ

namespace ServerMachine
open Interleaving

variable {P : Primitives} (server : Server P)

def Selected (trace : List Event) (i : Nat) : Prop :=
  ∃ data message, .received i data message ∈ trace ∧ message.typ = .transportSelect ∧
    (message.payload.getD {}).transport ∈ server.transports

def Offered (trace : List Event) (i : Nat) : Prop :=
  ∃ data message, .received i data message ∈ trace ∧ message.typ = .iceOffer

def Created (trace : List Event) (i : Nat) (receiveCodec : Codec) : Prop :=
  ∃ input data hello conn, .created i input data hello ∈ trace ∧
    server.authenticate input.proofRandom input.skewTime data = .ok (some hello) ∧
    server.createConnection hello input.random = .ok conn ∧ conn.codec.receiveCodec = receiveCodec

def Event.sequenceFor (i : Nat) : Event → Option UInt64
  | .received j _ message => if j = i then some message.sequence else none
  | _ => none

def sequences (trace : List Event) (i : Nat) : List UInt64 := trace.filterMap (Event.sequenceFor i)

structure Justified (trace : List Event) (i : Nat) : Prop where
  messages : ∃ receiveCodec, Created server trace i receiveCodec ∧
    ∀ data message, .received i data message ∈ trace →
      receiveCodec.decodeMessage P data = .ok message
  numbered : (sequences trace i).Nodup ∧ 0 ∉ sequences trace i
  selected : Selected server trace i
  offered : Offered trace i

/-- The history of a server: its connections as views, and its trace. -/
structure History (view : List Signaling) (trace : List Event) : Prop where
  created : ∀ (i : Nat) v, view[i]? = some v → Created server trace i v.receiveCodec
  received : ∀ i data message, .received i data message ∈ trace →
    ∃ v, view[i]? = some v ∧ v.receiveCodec.decodeMessage P data = .ok message
  tracks : ∀ (i : Nat) v, view[i]? = some v →
    v.signalRecv.Tracks (sequences trace i).reverse
  numbered : ∀ i, (sequences trace i).Nodup ∧ 0 ∉ sequences trace i
  selected : ∀ (i : Nat) v, view[i]? = some v → v.selectedTransport ≠ [] →
    Selected server trace i
  offered : ∀ (i : Nat) v, view[i]? = some v → v.pendingICEOffer ≠ none → Offered trace i
  disclosed : ∀ before i what after, trace = before ++ .disclosed i what :: after →
    Justified server before i

variable {i : Nat} {trace : List Event}

theorem Selected.mono {trace' : List Event} (selected : Selected server trace i)
    (grows : trace ⊆ trace') : Selected server trace' i := by
  obtain ⟨data, message, received, rest⟩ := selected
  exact ⟨data, message, grows received, rest⟩

theorem Offered.mono {trace' : List Event} (offered : Offered trace i) (grows : trace ⊆ trace') :
    Offered trace' i := by
  obtain ⟨data, message, received, rest⟩ := offered
  exact ⟨data, message, grows received, rest⟩

theorem Created.mono {trace' : List Event} {codec : Codec} (created : Created server trace i codec)
    (grows : trace ⊆ trace') : Created server trace' i codec := by
  obtain ⟨input, data, hello, conn, logged, rest⟩ := created
  exact ⟨input, data, hello, conn, grows logged, rest⟩

section History
variable {server} {view : List Signaling} {trace : List Event}

/-- An event that is not a received message changes nothing, if it discloses
nothing or is justified. -/
theorem History.log (history : History server view trace) (event : Event)
    (silent : ∀ i, event.sequenceFor i = none)
    (justified : ∀ i what, event = .disclosed i what → Justified server trace i) :
    History server view (trace ++ [event]) := by
  have grows : trace ⊆ trace ++ [event] := List.subset_append_left _ _
  have same (i : Nat) : sequences (trace ++ [event]) i = sequences trace i := by
    simp [sequences, silent]
  refine ⟨fun i v found => (history.created i v found).mono server grows,
    fun i data message logged => ?_, fun i v found => ?_, fun i => ?_,
    fun i v found chosen => (history.selected i v found chosen).mono server grows,
    fun i v found kept => (history.offered i v found kept).mono grows,
    fun before i what after split => ?_⟩
  · rcases List.mem_append.mp logged with old | new
    · exact history.received i data message old
    · have numbered := silent i
      rw [← List.mem_singleton.mp new] at numbered
      simp [Event.sequenceFor] at numbered
  · rw [same]
    exact history.tracks i v found
  · rw [same]
    exact history.numbered i
  · rcases Trace.split_last split with ⟨rfl, last⟩ | ⟨rest, shape⟩
    · exact justified i what last
    · exact history.disclosed before i what rest shape

theorem History.disclose (history : History server view trace) (what : Disclosure)
    (selected : Selected server trace i) (offered : Offered trace i) :
    History server view (trace ++ [.disclosed i what]) := by
  refine history.log _ (fun _ => rfl) fun j what' same => ?_
  obtain ⟨rfl, _⟩ : i = j ∧ what = what' := by simpa using same
  obtain ⟨_, _, received, _⟩ := id offered
  obtain ⟨v, found, _⟩ := history.received i _ _ received
  refine ⟨⟨v.receiveCodec, history.created i v found, fun data message logged => ?_⟩,
    history.numbered i, selected, offered⟩
  obtain ⟨v', found', decoded⟩ := history.received i data message logged
  rw [found] at found'
  cases found'
  exact decoded

theorem History.create (history : History server view trace) {input : HelloInput} {data : Bytes}
    {hello : Hello} {conn : Connection}
    (authentic : server.authenticate input.proofRandom input.skewTime data = .ok (some hello))
    (made : server.createConnection hello input.random = .ok conn) :
    History server (view ++ [conn.signaling])
      (trace ++ [.created view.length input data hello]) := by
  obtain ⟨_, life⟩ := server.createConnection_lifecycle made
  have silent : sequences trace view.length = [] := by
    unfold sequences
    rw [List.filterMap_eq_nil_iff]
    intro event logged
    cases event with
    | received i data message =>
      obtain ⟨v, found, _⟩ := history.received i data message logged
      have inside := (List.getElem?_eq_some_iff.mp found).1
      simp only [Event.sequenceFor, ite_eq_right_iff]
      omega
    | _ => rfl
  have logged := history.log (.created view.length input data hello) (fun _ => rfl)
    fun i what same => by cases same
  have same (i : Nat) : sequences (trace ++ [.created view.length input data hello]) i =
      sequences trace i := by simp [sequences, Event.sequenceFor]
  have entry {i : Nat} {v : Signaling} (found : (view ++ [conn.signaling])[i]? = some v) :
      view[i]? = some v ∨ i = view.length ∧ v = conn.signaling := by
    by_cases inside : i < view.length
    · exact .inl (by rwa [List.getElem?_append_left inside] at found)
    · have outside := (List.getElem?_eq_some_iff.mp found).1
      rw [List.length_append, List.length_singleton] at outside
      obtain rfl : i = view.length := by omega
      exact .inr ⟨rfl, by simpa using found.symm⟩
  refine ⟨fun i v found => ?_, fun i data' message received => ?_, fun i v found => ?_,
    logged.numbered, fun i v found chosen => ?_, fun i v found kept => ?_, logged.disclosed⟩
  · rcases entry found with old | ⟨rfl, rfl⟩
    · exact logged.created i v old
    · exact ⟨input, data, hello, conn, by simp, authentic, made, rfl⟩
  · obtain ⟨v, found, decoded⟩ := logged.received i data' message received
    refine ⟨v, ?_, decoded⟩
    rw [List.getElem?_append_left (List.getElem?_eq_some_iff.mp found).1, found]
  · rcases entry found with old | ⟨rfl, rfl⟩
    · exact logged.tracks i v old
    · rw [same, silent]
      simp only [Connection.signaling, life]
      exact ReplayWindow.tracks_empty
  · rcases entry found with old | ⟨rfl, rfl⟩
    · exact logged.selected i v old chosen
    · simp [Connection.signaling, life] at chosen
  · rcases entry found with old | ⟨rfl, rfl⟩
    · exact logged.offered i v old kept
    · simp [Connection.signaling, life] at kept

theorem History.set (history : History server view trace) {v v' : Signaling}
    (found : view[i]? = some v) (codec : v'.receiveCodec = v.receiveCodec)
    (tracks : v'.signalRecv.Tracks (sequences trace i).reverse)
    (selected : v'.selectedTransport ≠ [] → Selected server trace i)
    (offered : v'.pendingICEOffer ≠ none → Offered trace i) :
    History server (view.set i v') trace := by
  have inside := (List.getElem?_eq_some_iff.mp found).1
  have entry {j : Nat} {w : Signaling} (there : (view.set i v')[j]? = some w) :
      i = j ∧ w = v' ∨ view[j]? = some w := by
    rw [List.getElem?_set] at there
    split_ifs at there with same
    · exact .inl ⟨same, (Option.some.inj there).symm⟩
    · exact .inr there
  refine ⟨fun j w there => ?_, fun j data message received => ?_, fun j w there => ?_,
    history.numbered, fun j w there chosen => ?_, fun j w there kept => ?_, history.disclosed⟩
  · rcases entry there with ⟨rfl, rfl⟩ | old
    · rw [codec]
      exact history.created i v found
    · exact history.created j w old
  · obtain ⟨w, there, decoded⟩ := history.received j data message received
    by_cases same : i = j
    · subst same
      rw [found] at there
      cases there
      exact ⟨v', List.getElem?_set_self inside, by rw [codec]; exact decoded⟩
    · exact ⟨w, by rw [List.getElem?_set_ne same, there], decoded⟩
  · rcases entry there with ⟨rfl, rfl⟩ | old
    · exact tracks
    · exact history.tracks j w old
  · rcases entry there with ⟨rfl, rfl⟩ | old
    · exact selected chosen
    · exact history.selected j w old chosen
  · rcases entry there with ⟨rfl, rfl⟩ | old
    · exact offered kept
    · exact history.offered j w old kept

theorem History.receive (history : History server view trace) {v : Signaling}
    (found : view[i]? = some v) {data : Bytes} {message : Message}
    (decoded : v.receiveCodec.decodeMessage P data = .ok message)
    (fresh : (v.signalRecv.accept message.sequence).1 = true) :
    History server
      (view.set i { v with signalRecv := (v.signalRecv.accept message.sequence).2 })
      (trace ++ [.received i data message]) := by
  obtain ⟨new, tracks⟩ := ReplayWindow.accept_true (history.tracks i v found) fresh
  have grows : trace ⊆ trace ++ [.received i data message] := List.subset_append_left _ _
  have own : sequences (trace ++ [.received i data message]) i =
      sequences trace i ++ [message.sequence] := by
    simp [sequences, Event.sequenceFor]
  have other {j : Nat} (ne : i ≠ j) :
      sequences (trace ++ [.received i data message]) j = sequences trace j := by
    simp [sequences, Event.sequenceFor, ne]
  have inside := (List.getElem?_eq_some_iff.mp found).1
  have entry {j : Nat} {w : Signaling}
      (there : (view.set i { v with signalRecv := (v.signalRecv.accept message.sequence).2 })[j]? =
        some w) : ∃ u, view[j]? = some u ∧ w.receiveCodec = u.receiveCodec ∧
        w.selectedTransport = u.selectedTransport ∧ w.pendingICEOffer = u.pendingICEOffer ∧
        (i ≠ j → w = u) ∧ (i = j → w.signalRecv = (v.signalRecv.accept message.sequence).2) := by
    rw [List.getElem?_set] at there
    split_ifs at there with same
    · subst same
      cases there
      exact ⟨v, found, rfl, rfl, rfl, fun ne => absurd rfl ne, fun _ => rfl⟩
    · exact ⟨w, there, rfl, rfl, rfl, fun _ => rfl, fun eq => absurd eq same⟩
  refine ⟨fun j w there => ?_, fun j data' message' received => ?_, fun j w there => ?_,
    fun j => ?_, fun j w there chosen => ?_, fun j w there kept => ?_,
    fun before j what after split => ?_⟩
  · obtain ⟨u, old, codec, _⟩ := entry there
    rw [codec]
    exact (history.created j u old).mono server grows
  · obtain ⟨u, old, decoded'⟩ : ∃ u, view[j]? = some u ∧
        u.receiveCodec.decodeMessage P data' = .ok message' := by
      rcases List.mem_append.mp received with before | now
      · exact history.received j data' message' before
      · cases List.mem_singleton.mp now
        exact ⟨v, found, decoded⟩
    by_cases same : i = j
    · subst same
      rw [found] at old
      cases old
      exact ⟨_, List.getElem?_set_self inside, decoded'⟩
    · exact ⟨u, by rw [List.getElem?_set_ne same, old], decoded'⟩
  · obtain ⟨u, old, _, _, _, kept, moved⟩ := entry there
    by_cases same : i = j
    · subst same
      rw [moved rfl, own, List.reverse_append]
      exact tracks
    · rw [kept same, other same]
      exact history.tracks j u old
  · by_cases same : i = j
    · subst same
      rw [own]
      obtain ⟨nodup, nonzero⟩ := history.numbered i
      have unseen : message.sequence ∉ sequences trace i := by simpa using new.2.1
      refine ⟨List.nodup_append.mpr ⟨nodup, by simp, ?_⟩, ?_⟩
      · intro a member b last
        rw [List.mem_singleton.mp last]
        exact fun same => unseen (same ▸ member)
      · simp only [List.mem_append, List.mem_singleton, not_or]
        exact ⟨nonzero, fun zero => new.1 zero.symm⟩
    · rw [other same]
      exact history.numbered j
  · obtain ⟨u, old, _, selected, _⟩ := entry there
    exact (history.selected j u old (by rw [← selected]; exact chosen)).mono server grows
  · obtain ⟨u, old, _, _, offered, _⟩ := entry there
    exact (history.offered j u old (by rw [← offered]; exact kept)).mono grows
  · rcases Trace.split_last split with ⟨_, last⟩ | ⟨rest, shape⟩
    · cases last
    · exact history.disclosed before j what rest shape

end History

section Steps
variable {server} {cache : Lru.Cache Bytes Int} {s s' : Shared cache} {t t' : Thread}

def Shared.view (s : Shared cache) : List Signaling := s.pool.map Connection.signaling

theorem view_getElem? {c : Connection} (found : s.pool[i]? = some c) :
    s.view[i]? = some c.signaling := by
  simp [Shared.view, found]

theorem view_update {c : Connection} (found : s.pool[i]? = some c) (f : Connection → Connection) :
    (s.on (·.update i f)).view = s.view.set i (f c).signaling := by
  simp only [Shared.view, Shared.on, ServerState.update, found, List.map_set]

theorem view_update_same (s : Shared cache) (i : Nat) {f : Connection → Connection}
    (same : ∀ c : Connection, s.pool[i]? = some c → (f c).signaling = c.signaling) :
    (s.on (·.update i f)).view = s.view := by
  cases found : s.pool[i]? with
  | none => simp only [Shared.view, Shared.on, ServerState.update, found]
  | some c =>
    obtain ⟨inside, entry⟩ := List.getElem?_eq_some_iff.mp (view_getElem? found)
    rw [view_update found, same c found, ← entry, List.set_getElem_self]

def HelloPos.hello? : HelloPos → Option Hello
  | .prepare _ hello => some hello
  | .nonce _ hello => some hello
  | .reserveTotal hello => some hello
  | .reservePending hello => some hello
  | .create hello => some hello
  | _ => none

variable (server) in
def Thread.Knows (trace : List Event) : Thread → Prop
  | .hello input data pos => ∀ hello, pos.hello? = some hello →
    server.authenticate input.proofRandom input.skewTime data = .ok (some hello)
  | .closing _ _ next => ∀ input data hello, next = some (input, data, hello) →
    server.authenticate input.proofRandom input.skewTime data = .ok (some hello)
  | .offer data (.current i message) => .received i data message ∈ trace
  | .offer _ (.storeSelected i _) => Selected server trace i
  | .offer _ (.takePending i) => Selected server trace i
  | .offer _ (.keepOffer i _) => Offered trace i
  | .ice i _ _ => Selected server trace i ∧ Offered trace i
  | _ => True

theorem Thread.Knows.mono {trace' : List Event} (knows : t.Knows server trace)
    (grows : trace ⊆ trace') : t.Knows server trace' := by
  cases t with
  | offer data pos =>
    cases pos with
    | current i message => exact grows knows
    | storeSelected | takePending => exact Selected.mono server knows grows
    | keepOffer i offer => exact Offered.mono knows grows
    | _ => trivial
  | ice i locals pos => exact ⟨knows.1.mono server grows, knows.2.mono grows⟩
  | hello | closing => exact knows
  | _ => trivial

variable (server) in
structure Follows (s s' : Shared cache) (t' : Thread) (spawned : List Thread) : Prop where
  history : History server s'.view s'.trace
  grows : s.trace ⊆ s'.trace
  knows : t'.Knows server s'.trace
  started : ∀ u ∈ spawned, u.Knows server s'.trace

theorem Follows.quiet (history : History server s.view s.trace) (view : s'.view = s.view)
    (trace : s'.trace = s.trace) (knows : t'.Knows server s.trace) : Follows server s s' t' [] where
  history := by rw [view, trace]; exact history
  grows := by rw [trace]; exact List.Subset.refl _
  knows := by rw [trace]; exact knows
  started := by simp

variable {spawned : List Thread}

theorem Follows.note (follows : Follows server s s' t' spawned) (negotiation : Negotiation) :
    Follows server s (s'.note negotiation) t' spawned :=
  ⟨follows.history, follows.grows, follows.knows, follows.started⟩

theorem CloseSteps.view {pos : ClosePos} {after : Option ClosePos}
    (steps : CloseSteps s i pos s' after) :
    s'.view = s.view ∧ (s'.trace = s.trace ∨ s'.trace = s.trace ++ [.closeReturned i]) := by
  have updated {f : Connection → Connection} (same : ∀ c, (f c).signaling = c.signaling) :
      (s.on (·.update i f)).view = s.view := view_update_same s i fun c _ => same c
  cases steps with
  | waits => exact ⟨rfl, .inr rfl⟩
  | removes =>
    refine ⟨?_, .inl rfl⟩
    simp only [Shared.view, Shared.on, ServerState.removeCurrent]
    split
    · rfl
    · split_ifs <;> rfl
  | dropsPending | dropsTotal => exact ⟨rfl, .inl rfl⟩
  | leaves transport agent =>
    refine ⟨?_, .inr ?_⟩
    · simp only [Shared.view, Shared.log, Shared.on, Shared.closeTaken_toServerState]
      exact updated fun _ => rfl
    · simp only [Shared.log, Shared.on, Shared.closeTaken_trace]
  | _ => exact ⟨updated fun _ => rfl, .inl rfl⟩

theorem CloseSteps.follows (history : History server s.view s.trace) {pos : ClosePos}
    {next : Option (HelloInput × Bytes × Hello)}
    (knows : (Thread.closing i pos next).Knows server s.trace) {after : Option ClosePos}
    (steps : CloseSteps s i pos s' after) : Follows server s s' (.resume i next after) [] := by
  obtain ⟨view, trace⟩ := steps.view
  have resumed (trace : List Event) : (Thread.resume i next after).Knows server trace := by
    cases after with
    | some pos => exact knows
    | none =>
      cases next with
      | none => trivial
      | some call =>
        intro hello same
        cases same
        exact knows _ _ _ rfl
  rcases trace with same | logged
  · exact .quiet history view same (resumed _)
  · refine ⟨?_, ?_, resumed _, by simp⟩
    · rw [view, logged]
      exact history.log _ (fun _ => rfl) fun _ _ same => by cases same
    · rw [logged]
      exact List.subset_append_left _ _

theorem Thread.knows_closing (i : Nat) (trace : List Event) :
    (Thread.closing i .store none).Knows server trace := by
  intro _ _ _ same
  cases same

theorem HelloSteps.follows (history : History server s.view s.trace) {input : HelloInput}
    {data : Bytes} {pos : HelloPos} (knows : (Thread.hello input data pos).Knows server s.trace)
    (steps : HelloSteps server s input data pos s' t') : Follows server s s' t' [] := by
  have unbound {pos' : HelloPos} (none : pos'.hello? = none) {trace : List Event} :
      (Thread.hello input data pos').Knows server trace := by
    intro hello same
    rw [none] at same
    cases same
  cases steps with
  | authenticates authentic =>
    refine .quiet history rfl rfl fun hello same => ?_
    cases same
    exact authentic
  | rejects | replayed | unjoined | full | undoesTotal => exact .quiet history rfl rfl trivial
  | isNew | replaces | admits | reservesTotal | reservesPending =>
    exact .quiet history rfl rfl knows
  | reuses | crowded | fails | undoesPending | checks | sets =>
    exact .quiet history rfl rfl (unbound rfl)
  | evicts =>
    refine .quiet history rfl rfl ?_
    intro _ _ _ same
    cases same
    exact knows _ rfl
  | @creates hello conn made =>
    have created := history.create (knows hello rfl) made
    refine ⟨?_, List.subset_append_left _ _, unbound rfl, by simp⟩
    simpa [Shared.view, Shared.log, Shared.on] using created
  | refuses => exact .quiet history rfl rfl (Thread.knows_closing _ _)
  | startsTimer i =>
    refine .quiet history (view_update_same s i fun c _ => ?_) rfl (unbound rfl)
    split_ifs <;> rfl
  | sends i => exact .quiet history (view_update_same s i fun _ _ => rfl) rfl trivial
  | unsent i =>
    exact .quiet history (view_update_same s i fun _ _ => rfl) rfl (Thread.knows_closing _ _)

theorem Dispatches.knows {data : Bytes} {message : Message}
    (dispatches : Dispatches server data i message t')
    (received : .received i data message ∈ trace) : t'.Knows server trace := by
  cases dispatches with
  | disconnects => exact Thread.knows_closing _ _
  | selects typ known => exact ⟨data, message, received, typ, known⟩
  | offers typ => exact ⟨data, message, received, typ⟩
  | ignores => trivial

theorem Follows.update (history : History server s.view s.trace) {c : Connection}
    (found : s.pool[i]? = some c) {f : Connection → Connection}
    (codec : (f c).codec.receiveCodec = c.codec.receiveCodec)
    (window : (f c).signalRecv = c.signalRecv)
    (selected : (f c).selectedTransport ≠ [] → Selected server s.trace i)
    (offered : (f c).pendingICEOffer ≠ none → Offered s.trace i) (knows : t'.Knows server s.trace)
    (started : ∀ u ∈ spawned, u.Knows server s.trace) :
    Follows server s (s.on (·.update i f)) t' spawned where
  history := by
    rw [view_update found]
    refine history.set (view_getElem? found) codec ?_ selected offered
    rw [show (f c).signaling.signalRecv = c.signaling.signalRecv from window]
    exact history.tracks i _ (view_getElem? found)
  grows := List.Subset.refl _
  knows := knows
  started := started

theorem OfferSteps.follows (history : History server s.view s.trace) {data : Bytes} {pos : OfferPos}
    (knows : (Thread.offer data pos).Knows server s.trace)
    (steps : OfferSteps server s data pos s' t' spawned) : Follows server s s' t' spawned := by
  cases steps with
  | ignores | finds | refuses | drops | skips | misses => exact .quiet history rfl rfl trivial
  | @receives i c message found decoded window fresh t' goes =>
    have accepted : c.signalRecv.accept message.sequence = (true, window) := fresh
    have received := history.receive (view_getElem? found) decoded
      (show (c.signaling.signalRecv.accept message.sequence).1 = true from by
        rw [show c.signaling.signalRecv = c.signalRecv from rfl, accepted])
    refine ⟨?_, List.subset_append_left _ _, ?_, by simp⟩
    · rw [show ((s.on (·.update i fun c => { c with signalRecv := window })).log
          (.received i data message)).view = _ from view_update found _]
      rw [show window = (c.signalRecv.accept message.sequence).2 by rw [accepted]]
      exact received
    · rcases goes with rfl | ⟨_, rfl⟩
      · simp [Thread.Knows, Shared.log]
      · trivial
  | judges current => exact .quiet history rfl rfl ((dispatch_dispatches ..).knows knows)
  | selects i name =>
    cases found : s.pool[i]? with
    | none =>
      refine .quiet history (view_update_same s i fun c same => ?_) rfl knows
      rw [found] at same
      cases same
    | some c =>
      have kept := history.offered i _ (view_getElem? found)
      refine .update history found ?_ ?_ (fun _ => knows) ?_ knows (by simp)
      · split_ifs <;> rfl
      · split_ifs <;> rfl
      · split_ifs <;> exact kept
  | takes found opened kept =>
    have offered := history.offered _ _ (view_getElem? found)
      (by simp [Connection.signaling, kept])
    apply Follows.note
    exact .update history found rfl rfl (fun _ => knows) (fun none => absurd rfl none) trivial
      (by simpa using ⟨knows, offered⟩)
  | starts found opened chosen =>
    have selected := history.selected _ _ (view_getElem? found) chosen
    apply Follows.note
    exact ⟨history, List.Subset.refl _, trivial, by simpa using ⟨selected, knows⟩⟩
  | keeps found =>
    exact .update history found rfl rfl (history.selected _ _ (view_getElem? found))
      (fun _ => knows) trivial (by simp)

theorem Follows.discloses (history : History server s.view s.trace)
    (selected : Selected server s.trace i) (offered : Offered s.trace i) (what : Disclosure)
    (view : s'.view = s.view) (trace : s'.trace = s.trace) (knows : t'.Knows server s.trace) :
    Follows server s (s'.log (.disclosed i what)) t' [] := by
  have grows : s.trace ⊆ (s'.log (.disclosed i what)).trace := by
    rw [← trace]
    exact List.subset_append_left _ _
  refine ⟨?_, grows, knows.mono grows, by simp⟩
  rw [show (s'.log (.disclosed i what)).view = s'.view from rfl, view,
    show (s'.log (.disclosed i what)).trace = s'.trace ++ [.disclosed i what] from rfl, trace]
  exact history.disclose what selected offered

theorem ICETurns.knows {choice : Choice} {locals : Locals} {pos : ICEPos}
    (turn : ICETurns server choice s i locals pos t')
    (knows : (Thread.ice i locals pos).Knows server trace) : t'.Knows server trace := by
  cases turn with
  | names | stillCurrent | relays | gathers | answers | accepted | owns | reads | establishes
  | proceeds => exact knows
  | notReady | replaced | unanswered | lost | delivers => trivial
  | _ => exact Thread.knows_closing _ _

/-- `handleICEOffer` discloses three times, always with what it was started on. -/
theorem ICESteps.follows (history : History server s.view s.trace) {choice : Choice}
    {locals : Locals} {pos : ICEPos} (knows : (Thread.ice i locals pos).Knows server s.trace)
    (steps : ICESteps server choice s i locals pos s' t') : Follows server s s' t' [] := by
  have goes {locals : Locals} {pos : ICEPos} : (Thread.ice i locals pos).Knows server s.trace := knows
  have updated {f : Connection → Connection} (same : ∀ c, (f c).signaling = c.signaling) :
      (s.on (·.update i f)).view = s.view := view_update_same s i fun c _ => same c
  cases steps with
  | turns turn => exact .quiet history rfl rfl (turn.knows knows)
  | makesAgent => exact .discloses history knows.1 knows.2 .agent rfl rfl goes
  | noAgent => exact .discloses history knows.1 knows.2 .agent rfl rfl (Thread.knows_closing _ _)
  | gathers => exact .discloses history knows.1 knows.2 .gathering rfl rfl goes
  | publishes sequence codec leads =>
    refine .discloses history knows.1 knows.2 .answer (updated fun _ => rfl) rfl ?_
    rcases leads with rfl | rfl
    · exact goes
    · exact Thread.knows_closing _ _
  | unpublished => exact .quiet history (updated fun _ => rfl) rfl (Thread.knows_closing _ _)
  | installsAgent | installsTransport =>
    apply Follows.note
    exact .quiet history (updated fun _ => rfl) rfl goes
  | refusesAgent | discards | rejectsTransport => exact .quiet history rfl rfl trivial
  | establishes | takesPending | leavesPending | stopsTimer =>
    exact .quiet history (updated fun _ => rfl) rfl goes
  | dials | dropsPending => exact .quiet history rfl rfl goes

theorem Steps.follows (history : History server s.view s.trace) {choice : Choice}
    (knows : t.Knows server s.trace) (steps : Steps server choice s t s' t' spawned) :
    Follows server s s' t' spawned := by
  cases steps with
  | hello steps => exact steps.follows history knows
  | closing steps => exact steps.follows history knows
  | fires => exact .quiet history rfl rfl (Thread.knows_closing _ _)
  | lapses => exact .quiet history rfl rfl trivial
  | offer steps => exact steps.follows history knows
  | ice steps => exact steps.follows history knows

theorem Occurs.follows (history : History server s.view s.trace) (occurs : Occurs s s' spawned) :
    Follows server s s' .finished spawned := by
  have starts {u : Thread} (knows : u.Knows server s.trace) : Follows server s s .finished [u] :=
    ⟨history, List.Subset.refl _, trivial, by simpa using knows⟩
  cases occurs with
  | hello => exact starts fun _ same => by cases same
  | offer | timer => exact starts trivial
  | close => exact starts (Thread.knows_closing _ _)
  | shutdown | clear => exact .quiet history rfl rfl trivial

end Steps

def Justifies {cache : Lru.Cache Bytes Int} (c : Config (Shared cache) Thread) : Prop :=
  History server c.shared.view c.shared.trace ∧ ∀ t ∈ c.threads, t.Knows server c.shared.trace

theorem Justifies.moves {cache : Lru.Cache Bytes Int} {c c' : Config (Shared cache) Thread}
    (kept : Justifies server c) (moved : (program server).Moves c c') : Justifies server c' := by
  obtain ⟨history, knows⟩ := kept
  cases moved with
  | stays => exact ⟨history, knows⟩
  | advances running moved =>
    have step := (advance_steps moved).follows history (knows _ (List.mem_of_getElem? running))
    exact ⟨step.history, forall_advance knows (fun _ u _ _ known => known.mono step.grows)
      step.knows step.started⟩
  | occurs happened =>
    have step := (occur_occurs happened).follows history
    refine ⟨step.history, fun u member => ?_⟩
    rcases List.mem_append.mp member with old | new
    · exact (knows u old).mono step.grows
    · exact step.started u new

theorem Justifies.start (cache : Lru.Cache Bytes Int) :
    Justifies server ⟨Shared.start cache, []⟩ := by
  refine ⟨⟨?_, ?_, ?_, ?_, ?_, ?_, ?_⟩, by simp⟩ <;>
    simp [Shared.view, Shared.start, ServerState.start, sequences]

theorem run_history (cache : Lru.Cache Bytes Int) (actions : List Action) :
    Justifies server (run server cache actions) :=
  (program server).run_keeps (Justifies server) (fun _ _ kept moved => kept.moves server moved)
    (.start server cache) actions

end ServerMachine
end Telekit
