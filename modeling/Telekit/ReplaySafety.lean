import Mathlib.Algebra.Order.Field.Rat
import Mathlib.Data.List.Induction
import Mathlib.Data.List.Nodup
import Mathlib.Tactic.Linarith
import Telekit.HandshakeAgreement

/-! Replayed ClientHello packets. A history is a run of the server together
with the calls the limiter has admitted: what each packet says and whether the
nonce check has been made and passed. The clock never runs backwards, the
limiter admits at most `burst + rate * T` calls in any time `T`, and packets
with one nonce are copies of one packet. Nothing bounds how long a single call
takes, so the skew check and the nonce lookup of a call may see different
times; how far these may lie apart is a condition of its own. -/

namespace Telekit.ReplaySafety
open HandshakeRun

variable {P : Primitives} (server : Server P) {cache : Lru.Cache Bytes Int}

structure Call where
  input : HelloInput
  data : Bytes
  hello : Option Hello
  accepted : Bool

def helloOf (input : HelloInput) (data : Bytes) : Option Hello :=
  match server.authenticate input.proofRandom input.skewTime data with
  | .ok hello => hello
  | .error _ => none

def acceptsNonce (s : ServerState cache) (input : HelloInput) (hello : Hello) : Bool :=
  !s.reuses (s.connections hello.sourceId) hello &&
    (s.isNonceAvailable server hello.nonce input.lookupTime input.addTime).1

def callsOf (s : ServerState cache) : Event → List Call
  | .hello true input data => [⟨input, data, helloOf server input data,
      (helloOf server input data).any (acceptsNonce server s input)⟩]
  | _ => []

structure History (cache : Lru.Cache Bytes Int) where
  state : ServerState cache
  calls : List Call

def record (h : History cache) (event : Event) : History cache :=
  ⟨(step server ⟨h.state, []⟩ event).state, h.calls ++ callsOf server h.state event⟩

def history (events : List Event) : History cache :=
  events.foldl (record server) ⟨ServerState.start cache, []⟩

theorem step_state (r : Run cache) (signed : List Bytes) (event : Event) :
    (step server ⟨r.state, signed⟩ event).state = (step server r event).state := by
  cases event <;> rfl

theorem history_state (events : List Event) :
    (history server events : History cache).state = (run server events).state := by
  induction events using List.reverseRecOn with
  | nil => rfl
  | append_singleton events event ih =>
    simp only [history, run, List.foldl_append, List.foldl_cons, List.foldl_nil] at ih ⊢
    rw [← step_state server _ []]
    simp only [record, ih]

theorem history_snoc (events : List Event) (event : Event) :
    (history server (events ++ [event]) : History cache) =
      record server (history server events) event := by
  simp [history, List.foldl_append]

def admitted (events : List Event) : List (HelloInput × Bytes) :=
  events.filterMap fun
    | .hello true input data => some (input, data)
    | _ => none

theorem history_admitted (events : List Event) :
    (history server events : History cache).calls.map (fun c => (c.input, c.data)) =
      admitted events := by
  induction events using List.reverseRecOn with
  | nil => rfl
  | append_singleton events event ih =>
    rw [history_snoc, record, List.map_append, ih, admitted, admitted, List.filterMap_append]
    congr 1
    cases event with
    | hello allowed input data => cases allowed <;> rfl
    | _ => rfl

structure Clock (inputs : List HelloInput) : Prop where
  within : ∀ input ∈ inputs, input.allowTime ≤ input.skewTime ∧
    input.skewTime ≤ input.lookupTime ∧ input.lookupTime ≤ input.addTime
  between : inputs.Pairwise fun a b => a.addTime ≤ b.allowTime

/-- What the limiter promises: in any stretch of admitted calls there are no
more than the burst and what the rate gives over its duration. -/
def Limited (burst : Int) (rate : Rat) (inputs : List HelloInput) : Prop :=
  ∀ before first middle last after, inputs = before ++ first :: (middle ++ last :: after) →
    (middle.length + 2 : Rat) ≤
      burst + rate * ((last.allowTime - first.allowTime : Int) : Rat) / (second : Rat)

def Copies (packets : List (HelloInput × Bytes)) : Prop :=
  ∀ p ∈ packets, ∀ q ∈ packets, ∀ h h', helloOf server p.1 p.2 = some h →
    helloOf server q.1 q.2 = some h' → h.nonce = h'.nonce → p.2 = q.2

/-- No call lets more than 239.999 seconds pass between its skew check and its
nonce lookup. -/
def Prompt (inputs : List HelloInput) : Prop :=
  ∀ input ∈ inputs, input.lookupTime - input.skewTime ≤ 239999 * millisecond

/-- The options of the theorem have the values `NewServer` fills in. -/
structure DefaultOptions : Prop where
  replayProtection : server.options.replayProtection = ({} : Options).fill.replayProtection
  clockSkew : server.options.clockSkew = ({} : Options).fill.clockSkew
  lruSize : server.options.lruSize = ({} : Options).fill.lruSize
  helloRateLimit : server.options.helloRateLimit = ({} : Options).fill.helloRateLimit
  helloRateBurst : server.options.helloRateBurst = ({} : Options).fill.helloRateBurst

structure Conditions (packets : List (HelloInput × Bytes)) : Prop where
  clock : Clock (packets.map Prod.fst)
  limited : Limited server.options.helloRateBurst server.options.helloRateLimit
    (packets.map Prod.fst)
  copies : Copies server packets

variable {server}

theorem Conditions.left {xs ys : List (HelloInput × Bytes)} (h : Conditions server (xs ++ ys)) :
    Conditions server xs where
  clock := by
    have clock := h.clock
    rw [List.map_append] at clock
    exact ⟨fun input member => clock.within input (List.mem_append_left _ member),
      (List.pairwise_append.mp clock.between).1⟩
  limited before first middle last after split := by
    apply h.limited before first middle last (after ++ ys.map Prod.fst)
    rw [List.map_append, split]
    simp
  copies p hp q hq := h.copies p (List.mem_append_left _ hp) q (List.mem_append_left _ hq)

variable {input : HelloInput} {hello : Hello} {data : Bytes}

theorem helloOf_some :
    helloOf server input data = some hello ↔
      server.authenticate input.proofRandom input.skewTime data = .ok (some hello) := by
  unfold helloOf
  split
  next result found => simp [found]
  next err failed => simp [failed]

theorem few_between (default : DefaultOptions server) {xs ys : List (HelloInput × Bytes)}
    {p q : HelloInput × Bytes} (conditions : Conditions server (xs ++ p :: (ys ++ [q])))
    (near : q.1.skewTime - p.1.skewTime ≤ 60 * second) : ys.length ≤ 6199 := by
  cases ys with
  | nil => simp
  | cons y ys =>
    have limited := conditions.limited (xs.map Prod.fst ++ [p.1]) y.1 (ys.map Prod.fst) q.1 []
      (by simp)
    obtain ⟨within, between⟩ := conditions.clock
    simp only [List.map_append, List.map_cons, List.map_nil, List.cons_append] at within between
    have ordered : p.1.addTime ≤ y.1.allowTime :=
      (List.pairwise_cons.mp (List.pairwise_append.mp between).2.1).1 y.1 (by simp)
    have early := within p.1 (by simp)
    have late := within q.1 (by simp)
    have duration : q.1.allowTime - y.1.allowTime ≤ 60 * second := by omega
    rw [default.helloRateBurst, default.helloRateLimit] at limited
    have burst : ({} : Options).fill.helloRateBurst = 200 := rfl
    have rate : ({} : Options).fill.helloRateLimit = 100 := by decide
    rw [burst, rate, List.length_map] at limited
    have spent : (100 : Rat) * ((q.1.allowTime - y.1.allowTime : Int) : Rat) / (second : Rat) ≤
        6000 := by
      rw [div_le_iff₀ (by norm_num [second])]
      have cast : ((q.1.allowTime - y.1.allowTime : Int) : Rat) ≤ ((60 * second : Int) : Rat) :=
        Int.cast_le.mpr duration
      push_cast at cast ⊢
      linarith
    have total : (ys.length : Rat) + 2 ≤ 6200 := by
      push_cast at limited spent
      linarith
    have count : ys.length + 2 ≤ 6200 := by exact_mod_cast total
    simp only [List.length_cons]
    omega

theorem still_protected {timestamp firstSkew firstAdd skew lookup : Int}
    (lower : -(30 * second) ≤ firstSkew - timestamp) (added : firstSkew ≤ firstAdd)
    (upper : skew - timestamp ≤ 30 * second) (prompt : lookup - skew ≤ 239999 * millisecond) :
    lookup - unixMilli firstAdd * millisecond < 300 * second := by
  simp only [unixMilli, millisecond, second] at *
  omega

def acceptedNonces (calls : List Call) : List Bytes :=
  calls.filterMap fun c => if c.accepted then c.hello.map (·.nonce) else none

/-- The invariant of a history. An accepted nonce is in the cache as long as
fewer calls have followed than could have pushed it out, no nonce is accepted
twice, and connections are made for accepted nonces only. -/
structure Recorded (server : Server P) (evicts : Lru.Evicts cache 100000) (h : History cache) :
    Prop where
  authentic : ∀ c ∈ h.calls, c.hello = helloOf server c.input c.data
  held : ∀ xs c ys, h.calls = xs ++ c :: ys → c.accepted = true →
    ∃ hello, c.hello = some hello ∧ (2 * ys.length + 1 < 100000 →
      Lru.Holds hello.nonce (unixMilli c.input.addTime) (2 * ys.length)
        (evicts.view h.state.nonceCache))
  once : (acceptedNonces h.calls).Nodup
  created : (h.state.pool.map (·.clientNonce)).Sublist (acceptedNonces h.calls)

theorem nonce_taken (default : DefaultOptions server) {evicts : Lru.Evicts cache 100000}
    {h : History cache} (recorded : Recorded server evicts h)
    (conditions : Conditions server
      (h.calls.map (fun c => (c.input, c.data)) ++ [(input, data)]))
    (prompt : input.lookupTime - input.skewTime ≤ 239999 * millisecond)
    (now : helloOf server input data = some hello)
    (before : hello.nonce ∈ acceptedNonces h.calls) :
    (h.state.isNonceAvailable server hello.nonce input.lookupTime input.addTime).1 = false := by
  simp only [acceptedNonces, List.mem_filterMap, Option.ite_none_right_eq_some,
    Option.map_eq_some_iff] at before
  obtain ⟨c, member, accepted, first, known, nonce⟩ := before
  obtain ⟨xs, ys, split⟩ := List.append_of_mem member
  have reading := (recorded.authentic c member).symm.trans known
  have copy : c.data = data := by
    refine conditions.copies (c.input, c.data) ?_ (input, data) (by simp) first hello reading now nonce
    exact List.mem_append_left _ (List.mem_map.mpr ⟨c, member, rfl⟩)
  rw [helloOf_some] at reading now
  rw [copy] at reading
  obtain rfl := Server.authenticate_unique reading now
  have lower := (Server.authenticate_ok reading).skew
  have upper := (Server.authenticate_ok now).skew
  have skew : server.options.clockSkew = 30 * second := default.clockSkew
  rw [skew] at lower upper
  rw [split, List.map_append, List.map_cons, List.append_assoc, List.cons_append] at conditions
  have few := few_between default conditions (by simp only; omega)
  rw [List.length_map] at few
  obtain ⟨hello', same, held⟩ := recorded.held xs c ys split accepted
  rw [known] at same
  obtain rfl := Option.some.inj same
  have found := (held (by omega)).lookup
  have added := (conditions.clock.within c.input (by simp)).2
  have fresh := still_protected lower.2 (added.1.trans added.2) upper.1 prompt
  have protection : server.options.replayProtection = 300 * second := default.replayProtection
  simp only [ServerState.isNonceAvailable, evicts.get_value, found, protection, fresh,
    decide_true, if_true]

structure SameNonces (s s' : ServerState cache) : Prop where
  nonceCache : s'.nonceCache = s.nonceCache
  clientNonces : s'.pool.map (·.clientNonce) = s.pool.map (·.clientNonce)

variable {s : ServerState cache}

theorem SameNonces.of_touches {s' : ServerState cache} (touched : s.Touches s')
    (same : s'.nonceCache = s.nonceCache) : SameNonces s s' := ⟨same, touched.clientNonces⟩

theorem SameNonces.trans {s₁ s₂ s₃ : ServerState cache} (h₁ : SameNonces s₁ s₂)
    (h₂ : SameNonces s₂ s₃) : SameNonces s₁ s₃ :=
  ⟨h₂.nonceCache.trans h₁.nonceCache, h₂.clientNonces.trans h₁.clientNonces⟩

theorem closeConnection_nonces (s : ServerState cache) (i : Nat) :
    SameNonces s (s.closeConnection i) :=
  .of_touches (s.closeConnection_touches i) (s.closeConnection_nonceCache i)

theorem openSession_nonces (server : Server P) (s : ServerState cache) (input : HelloInput)
    (data : Bytes) :
    SameNonces (s.handleClientHello server input data).2
      (s.openSession server true input data).2 := by
  unfold ServerState.openSession
  simp only [Bool.true_eq_false, if_false]
  generalize s.handleClientHello server input data = outcome
  obtain ⟨result, s₁⟩ := outcome
  match result with
  | .error _ => exact ⟨rfl, rfl⟩
  | .ok none => exact ⟨rfl, rfl⟩
  | .ok (some i) =>
    have set : SameNonces s₁ (s₁.setConnection i).2 := ⟨by simp, by simp⟩
    simp only
    cases answer : s₁.setConnection i with
    | mk accepted s₂ =>
      rw [answer] at set
      cases accepted with
      | false => exact set.trans (closeConnection_nonces s₂ i)
      | true =>
        exact set.trans (.of_touches (s₂.startHandshakeTimer_touches i) (s₂.update_nonceCache i _))

theorem answer_nonces (server : Server P) (s : ServerState cache) (i : Nat) (published : Bool) :
    SameNonces s (s.answer server i published).2 := by
  refine .of_touches (answer_touches server s i published) ?_
  unfold ServerState.answer
  split
  · rfl
  · split
    · simp
    · simp only
      split_ifs <;> simp

theorem isNonceAvailable_pool (server : Server P) (s : ServerState cache) (nonce : Bytes)
    (lookup add : Int) :
    (s.isNonceAvailable server nonce lookup add).2.pool = s.pool := by
  unfold ServerState.isNonceAvailable
  simp only
  split_ifs <;> rfl

inductive Effect (server : Server P) (s : ServerState cache) (input : HelloInput) :
    Option Hello → ServerState cache → Prop
  | none {hello : Option Hello} {s' : ServerState cache} (same : SameNonces s s')
      (rejected : ∀ h ∈ hello, acceptsNonce server s input h = false) : Effect server s input hello s'
  | looked {hello : Hello} {s' : ServerState cache}
      (taken : (s.isNonceAvailable server hello.nonce input.lookupTime input.addTime).1 = false)
      (same : SameNonces (s.isNonceAvailable server hello.nonce input.lookupTime input.addTime).2
        s') : Effect server s input (some hello) s'
  | accepted {hello : Hello} {s' : ServerState cache} (created : List Bytes)
      (accepts : acceptsNonce server s input hello = true)
      (nonceCache : s'.nonceCache =
        (s.isNonceAvailable server hello.nonce input.lookupTime input.addTime).2.nonceCache)
      (clientNonces : s'.pool.map (·.clientNonce) = s.pool.map (·.clientNonce) ++ created)
      (at_most : created = [] ∨ created = [hello.nonce]) : Effect server s input (some hello) s'

theorem handleClientHello_effect (server : Server P) (s : ServerState cache) (input : HelloInput)
    (data : Bytes) :
    Effect server s input (helloOf server input data) (s.handleClientHello server input data).2 := by
  have handled := s.handleClientHello_handled server input data
  generalize s.handleClientHello server input data = outcome at handled
  obtain ⟨result, s'⟩ := outcome
  have replaced_nonces {s₁ : ServerState cache} (existing : Option Nat) :
      SameNonces s₁ (existing.elim s₁ s₁.closeConnection) := by
    cases existing with
    | none => exact ⟨rfl, rfl⟩
    | some i => exact closeConnection_nonces s₁ i
  cases handled with
  | refused unauthentic =>
    refine .none ⟨rfl, rfl⟩ fun h member => ?_
    exact absurd (helloOf_some.mp member) (unauthentic h)
  | reused authentic registered found reusable reuse =>
    rw [helloOf_some.mpr authentic]
    refine .none ⟨rfl, rfl⟩ fun h member => ?_
    obtain rfl := Option.some.inj member
    simp [acceptsNonce, reuse]
  | replayed authentic new stale =>
    rw [helloOf_some.mpr authentic]
    exact .looked (by rw [stale]) (by rw [stale]; exact ⟨rfl, rfl⟩)
  | @rejected hello _ s₁ s₂ authentic new fresh replaced =>
    rw [helloOf_some.mpr authentic, replaced]
    have pool := isNonceAvailable_pool server s hello.nonce input.lookupTime
      input.addTime
    rw [fresh] at pool
    refine .accepted [] (by simp [acceptsNonce, new, fresh]) ?_ ?_ (.inl rfl)
    · rw [fresh]
      exact (replaced_nonces _).nonceCache
    · rw [(replaced_nonces _).clientNonces, pool, List.append_nil]
  | @created hello conn s₁ s₂ s₃ authentic new fresh replaced reserved made =>
    rw [helloOf_some.mpr authentic]
    have pool := isNonceAvailable_pool server s hello.nonce input.lookupTime
      input.addTime
    rw [fresh] at pool
    obtain ⟨_, _, nonce, _, _⟩ :=
      Server.createConnection_ok made (Server.authenticate_ok authentic).key
    refine .accepted [hello.nonce] (by simp [acceptsNonce, new, fresh]) ?_ ?_ (.inr rfl)
    · rw [fresh, (ServerState.reserveConnection_same reserved).2.2, replaced]
      exact (replaced_nonces _).nonceCache
    · rw [List.map_append, List.map_singleton, nonce, replaced, (replaced_nonces _).clientNonces, pool]

theorem acceptedNonces_snoc (calls : List Call) (c : Call) :
    acceptedNonces (calls ++ [c]) = acceptedNonces calls ++ acceptedNonces [c] := by
  simp [acceptedNonces, List.filterMap_append]

/-- An older entry survives a call: unchanged, moved back by at most two, or
moved to the front by its own copy. -/
theorem held_after {evicts : Lru.Evicts cache 100000} {s' : ServerState cache}
    {hello : Option Hello} (effect : Effect server s input hello s')
    {nonce : Bytes} {stored : Int} {r : Nat} (room : r + 2 < 100000)
    (taken : ∀ h ∈ hello, h.nonce = nonce →
      (s.isNonceAvailable server h.nonce input.lookupTime input.addTime).1 = false)
    (held : Lru.Holds nonce stored r (evicts.view s.nonceCache)) :
    Lru.Holds nonce stored (r + 2) (evicts.view s'.nonceCache) := by
  have looked (h : Hello)
      (refused : (s.isNonceAvailable server h.nonce input.lookupTime input.addTime).1 = false) :
      Lru.Holds nonce stored (r + 2) (evicts.view
        (s.isNonceAvailable server h.nonce input.lookupTime input.addTime).2.nonceCache) := by
    unfold ServerState.isNonceAvailable at refused ⊢
    simp only at refused ⊢
    split_ifs at refused ⊢ with replayed
    simp only [evicts.get_view]
    by_cases same : h.nonce = nonce
    · rw [same]
      exact held.promote_self.mono (by omega)
    · exact (held.promote_other same).mono (by omega)
  cases effect with
  | none same => rw [same.nonceCache]; exact held.mono (by omega)
  | @looked h _ refused same => rw [same.nonceCache]; exact looked h refused
  | @accepted h _ _ accepts nonceCache =>
    rw [nonceCache]
    have available : (s.isNonceAvailable server h.nonce input.lookupTime input.addTime).1 = true := by
      simp only [acceptsNonce, Bool.and_eq_true] at accepts
      exact accepts.2
    have different : h.nonce ≠ nonce := by
      intro same
      rw [taken h rfl same] at available
      cases available
    unfold ServerState.isNonceAvailable at available ⊢
    simp only at available ⊢
    split_ifs at available ⊢ with replayed
    simp only [evicts.add_view, evicts.get_view]
    exact (held.promote_other different).insert_other different (by omega)

theorem held_now {evicts : Lru.Evicts cache 100000}
    (accepts : acceptsNonce server s input hello = true) :
    Lru.Holds hello.nonce (unixMilli input.addTime) 0 (evicts.view
      (s.isNonceAvailable server hello.nonce input.lookupTime input.addTime).2.nonceCache) := by
  simp only [acceptsNonce, Bool.and_eq_true] at accepts
  have available := accepts.2
  unfold ServerState.isNonceAvailable at available ⊢
  simp only at available ⊢
  split_ifs at available ⊢ with replayed
  simp only [evicts.add_view]
  exact Lru.Holds.insert_self _ _ (by decide) _

theorem Effect.andThen {s₁ s₂ : ServerState cache} {hello : Option Hello}
    (effect : Effect server s input hello s₁) (same : SameNonces s₁ s₂) :
    Effect server s input hello s₂ := by
  cases effect with
  | none before rejected => exact .none (before.trans same) rejected
  | looked taken before => exact .looked taken (before.trans same)
  | accepted created accepts nonceCache clientNonces at_most =>
    exact .accepted created accepts (same.nonceCache.trans nonceCache)
      (same.clientNonces.trans clientNonces) at_most

theorem acceptsNonce_available (accepts : acceptsNonce server s input hello = true) :
    (s.isNonceAvailable server hello.nonce input.lookupTime input.addTime).1 = true := by
  simp only [acceptsNonce, Bool.and_eq_true] at accepts
  exact accepts.2

section Call
variable {evicts : Lru.Evicts cache 100000} {h : History cache} {c : Call} {s' : ServerState cache}

theorem held_snoc (recorded : Recorded server evicts h)
    (effect : Effect server h.state c.input c.hello s')
    (decided : c.accepted = c.hello.any (acceptsNonce server h.state c.input))
    (taken : ∀ hello ∈ c.hello, hello.nonce ∈ acceptedNonces h.calls →
      (h.state.isNonceAvailable server hello.nonce c.input.lookupTime c.input.addTime).1 = false)
    (xs : List Call) (d : Call) (ys : List Call) (split : h.calls ++ [c] = xs ++ d :: ys)
    (accepted : d.accepted = true) :
    ∃ hello, d.hello = some hello ∧ (2 * ys.length + 1 < 100000 →
      Lru.Holds hello.nonce (unixMilli d.input.addTime) (2 * ys.length)
        (evicts.view s'.nonceCache)) := by
  rcases List.eq_nil_or_concat ys with rfl | ⟨zs, last, rfl⟩
  · obtain ⟨rfl, same⟩ := List.append_inj' split rfl
    obtain rfl : c = d := by simpa using same
    rw [decided, Option.any_eq_true] at accepted
    obtain ⟨hello, known, accepts⟩ := accepted
    refine ⟨hello, known, fun _ => ?_⟩
    rw [known] at effect
    cases effect with
    | none _ rejected => rw [rejected hello rfl] at accepts; cases accepts
    | looked refused => rw [acceptsNonce_available accepts] at refused; cases refused
    | accepted _ accepts nonceCache =>
      rw [nonceCache]
      exact held_now accepts
  · rw [List.concat_eq_append, ← List.cons_append, ← List.append_assoc] at split
    obtain ⟨before, same⟩ := List.append_inj' split rfl
    obtain ⟨hello, known, held⟩ := recorded.held xs d zs before accepted
    refine ⟨hello, known, fun room => ?_⟩
    rw [List.concat_eq_append, List.length_append, List.length_singleton] at room ⊢
    have deep : 2 * zs.length + 2 < 100000 := by omega
    refine held_after effect deep (fun now member same => taken now member ?_) (held (by omega))
    simp only [acceptedNonces, before, List.mem_filterMap]
    exact ⟨d, by simp, by simp [accepted, known, same]⟩

theorem recorded_snoc (recorded : Recorded server evicts h)
    (authentic : c.hello = helloOf server c.input c.data)
    (effect : Effect server h.state c.input c.hello s')
    (decided : c.accepted = c.hello.any (acceptsNonce server h.state c.input))
    (taken : ∀ hello ∈ c.hello, hello.nonce ∈ acceptedNonces h.calls →
      (h.state.isNonceAvailable server hello.nonce c.input.lookupTime c.input.addTime).1 = false) :
    Recorded server evicts ⟨s', h.calls ++ [c]⟩ where
  authentic d member := by
    rcases List.mem_append.mp member with old | new
    · exact recorded.authentic d old
    · rw [List.mem_singleton.mp new]
      exact authentic
  held := held_snoc recorded effect decided taken
  once := by
    rw [acceptedNonces_snoc]
    cases accepted : c.accepted with
    | false => simpa [acceptedNonces, accepted] using recorded.once
    | true =>
      rw [decided, Option.any_eq_true] at accepted
      obtain ⟨hello, known, accepts⟩ := accepted
      have new : hello.nonce ∉ acceptedNonces h.calls := by
        intro old
        have refused := taken hello known old
        rw [acceptsNonce_available accepts] at refused
        cases refused
      have single : acceptedNonces [c] = [hello.nonce] := by
        simp [acceptedNonces, decided, known, accepts]
      rw [single]
      exact List.nodup_append.mpr ⟨recorded.once, by simp,
        fun a old b only same => new (by rw [← List.mem_singleton.mp only, ← same]; exact old)⟩
  created := by
    rw [acceptedNonces_snoc]
    have kept (same : s'.pool.map (·.clientNonce) = h.state.pool.map (·.clientNonce)) :
        (s'.pool.map (·.clientNonce)).Sublist (acceptedNonces h.calls ++ acceptedNonces [c]) := by
      rw [same]
      exact recorded.created.trans (List.sublist_append_left _ _)
    generalize known : c.hello = hello at effect
    cases effect with
    | none same => exact kept same.clientNonces
    | looked _ same => exact kept (by rw [same.clientNonces, isNonceAvailable_pool])
    | @accepted hello _ created accepts _ clientNonces at_most =>
      have single : acceptedNonces [c] = [hello.nonce] := by
        simp [acceptedNonces, decided, known, accepts]
      rcases at_most with rfl | rfl
      · exact kept (clientNonces.trans (List.append_nil _))
      · rw [clientNonces, single]
        exact recorded.created.append (List.Sublist.refl _)

theorem recorded_same (recorded : Recorded server evicts h) (same : SameNonces h.state s') :
    Recorded server evicts ⟨s', h.calls⟩ where
  authentic := recorded.authentic
  held xs d ys split accepted := by
    rw [same.nonceCache]
    exact recorded.held xs d ys split accepted
  once := recorded.once
  created := by
    rw [same.clientNonces]
    exact recorded.created

end Call

theorem step_nonces (server : Server P) (s : ServerState cache) (event : Event)
    (none : admitted [event] = []) :
    SameNonces s (step server ⟨s, []⟩ event).state ∧ callsOf server s event = [] := by
  cases event with
  | hello allowed input data =>
    cases allowed with
    | true => simp [admitted] at none
    | false => exact ⟨⟨rfl, rfl⟩, rfl⟩
  | answer i published => exact ⟨answer_nonces server s i published, rfl⟩
  | lifecycle i life =>
    exact ⟨.of_touches (s.lifecycle_touches i fun _ => life) (s.update_nonceCache i _), rfl⟩
  | signal i message =>
    refine ⟨.of_touches (s.update_touches i fun c _ => ?_) (s.update_nonceCache i _), rfl⟩
    exact ⟨rfl, rfl, fun _ same => same, rfl, rfl, rfl, rfl, rfl⟩
  | unregister | counters | shutdown => exact ⟨⟨rfl, rfl⟩, rfl⟩

theorem admitted_append (xs ys : List Event) : admitted (xs ++ ys) = admitted xs ++ admitted ys := by
  simp [admitted, List.filterMap_append]

theorem admitted_cases (event : Event) : admitted [event] = [] ∨
    ∃ input data, event = .hello true input data := by
  cases event with
  | hello allowed input data =>
    cases allowed
    · exact .inl rfl
    · exact .inr ⟨input, data, rfl⟩
  | _ => exact .inl rfl

theorem history_recorded (default : DefaultOptions server) (evicts : Lru.Evicts cache 100000)
    (events : List Event) (conditions : Conditions server (admitted events))
    (prompt : Prompt ((admitted events).map Prod.fst)) :
    Recorded server evicts (history server events) := by
  induction events using List.reverseRecOn with
  | nil =>
    exact ⟨by simp [history], by simp [history], by simp [history, acceptedNonces],
      by simp [history, ServerState.start]⟩
  | append_singleton events event ih =>
    rw [admitted_append] at conditions prompt
    have recorded := ih conditions.left fun input member =>
      prompt input (by rw [List.map_append]; exact List.mem_append_left _ member)
    have calls : (history server events : History cache).calls.map (fun c => (c.input, c.data)) =
        admitted events := history_admitted server events
    rw [history_snoc]
    generalize (history server events : History cache) = h at recorded calls
    rcases admitted_cases event with none | ⟨input, data, rfl⟩
    · obtain ⟨same, noCalls⟩ := step_nonces server h.state event none
      rw [record, noCalls, List.append_nil]
      exact recorded_same recorded same
    · have single : admitted [.hello true input data] = [(input, data)] := rfl
      rw [single, ← calls] at conditions
      rw [single] at prompt
      have effect := (handleClientHello_effect server h.state input data).andThen
        (openSession_nonces server h.state input data)
      exact recorded_snoc recorded rfl effect rfl fun hello now before =>
        nonce_taken default recorded conditions (prompt input (by simp)) now before

def Used (server : Server P) (cache : Lru.Cache Bytes Int) (before : List Event) (data : Bytes)
    (hello : Hello) : Prop :=
  ∃ earlier input later, before = earlier ++ .hello true input data :: later ∧
    helloOf server input data = some hello ∧
    acceptsNonce server (run server earlier : Run cache).state input hello = true

theorem calls_append (server : Server P) (cache : Lru.Cache Bytes Int) (xs ys : List Event) :
    ∃ more, (history server (xs ++ ys) : History cache).calls =
      (history server xs : History cache).calls ++ more := by
  induction ys using List.reverseRecOn with
  | nil => exact ⟨[], by simp⟩
  | append_singleton ys y ih =>
    obtain ⟨more, earlier⟩ := ih
    rw [← List.append_assoc, history_snoc, record, earlier]
    exact ⟨more ++ callsOf server (history server (xs ++ ys) : History cache).state y, by simp⟩

theorem Used.mem {before : List Event} (used : Used server cache before data hello) :
    hello.nonce ∈ acceptedNonces (history server before : History cache).calls := by
  obtain ⟨earlier, input, later, rfl, known, accepts⟩ := used
  obtain ⟨more, calls⟩ := calls_append server cache (earlier ++ [.hello true input data]) later
  rw [List.append_assoc, List.singleton_append] at calls
  rw [calls, history_snoc, record]
  rw [← history_state] at accepts
  simp [acceptedNonces, callsOf, known, accepts]

/-- A call has returned a connection that is still waiting for its transport,
and has changed nothing. -/
def ReturnsPending (s : ServerState cache) (hello : Hello)
    (outcome : Except Failure (Option Nat) × ServerState cache) : Prop :=
  ∃ (i : Nat) (conn : Connection), outcome = (.ok (some i), s) ∧ s.pool[i]? = some conn ∧
    conn.clientNonce = hello.nonce ∧ conn.closed = false ∧ conn.transportConn = none ∧
    conn.selectedTransport = []

/-- A call has returned no connection and has changed no more than the nonce
cache. -/
def RejectsUnchanged (s : ServerState cache)
    (outcome : Except Failure (Option Nat) × ServerState cache) : Prop :=
  (∀ i, outcome.1 ≠ .ok (some i)) ∧ outcome.2.pool = s.pool ∧
    outcome.2.connections = s.connections ∧ outcome.2.totalConnections = s.totalConnections ∧
    outcome.2.pendingHandshakes = s.pendingHandshakes

theorem handleClientHello_taken (taken : helloOf server input data = some hello →
      (s.isNonceAvailable server hello.nonce input.lookupTime input.addTime).1 = false)
    (only : ∀ h, helloOf server input data = some h → h = hello) :
    ReturnsPending s hello (s.handleClientHello server input data) ∨
      RejectsUnchanged s (s.handleClientHello server input data) := by
  have handled := s.handleClientHello_handled server input data
  generalize s.handleClientHello server input data = outcome at handled
  obtain ⟨result, s'⟩ := outcome
  have impossible {h : Hello} {s₁ : ServerState cache}
      (authentic : server.authenticate input.proofRandom input.skewTime data = .ok (some h))
      (fresh : s.isNonceAvailable server h.nonce input.lookupTime input.addTime = (true, s₁)) :
      False := by
    have known := helloOf_some.mpr authentic
    obtain rfl := only h known
    rw [fresh] at taken
    cases taken known
  cases handled with
  | refused _ nothing => exact .inr ⟨nothing, rfl, rfl, rfl, rfl⟩
  | @reused h i conn authentic _ found reusable =>
    obtain rfl := only h (helloOf_some.mpr authentic)
    simp only [Connection.reusable, Bool.and_eq_true, decide_eq_true_eq, Bool.not_eq_true',
      Option.isNone_iff_eq_none] at reusable
    exact .inl ⟨i, conn, rfl, found, reusable.1.2, reusable.1.1.1.1, reusable.1.1.1.2,
      reusable.1.1.2⟩
  | @replayed h err s' authentic new stale =>
    refine .inr ⟨fun i => by simp, ?_⟩
    unfold ServerState.isNonceAvailable at stale
    simp only at stale
    split_ifs at stale
    · cases stale
      exact ⟨rfl, rfl, rfl, rfl⟩
    · cases stale
  | rejected authentic new fresh => exact (impossible authentic fresh).elim
  | created authentic new fresh => exact (impossible authentic fresh).elim

/-- With the default options and lookups within 239.999 seconds of the skew check, no two
connections share a nonce, and a copy of an accepted packet returns the pending connection
or is rejected without a trace outside the cache. -/
theorem replays_harmless (default : DefaultOptions server)
    (evicts : Lru.Evicts cache server.options.lruSize.toNat) (events : List Event)
    (conditions : Conditions server (admitted events))
    (prompt : Prompt ((admitted events).map Prod.fst)) :
    (∀ (i j : Nat) (a b : Connection), (run server events : Run cache).state.pool[i]? = some a →
      (run server events : Run cache).state.pool[j]? = some b → a.clientNonce = b.clientNonce →
      i = j) ∧
    ∀ before input data after hello, events = before ++ .hello true input data :: after →
      Used server cache before data hello →
      ReturnsPending (run server before : Run cache).state hello
          ((run server before : Run cache).state.handleClientHello server input data) ∨
        RejectsUnchanged (run server before : Run cache).state
          ((run server before : Run cache).state.handleClientHello server input data) := by
  have size : server.options.lruSize.toNat = 100000 := by rw [default.lruSize]; rfl
  rw [size] at evicts
  constructor
  · intro i j a b foundA foundB same
    have recorded := history_recorded default evicts events conditions prompt
    have distinct := recorded.once.sublist recorded.created
    rw [history_state] at distinct
    have inside := (List.getElem?_eq_some_iff.mp foundA).1
    refine (List.getElem?_inj (by simpa using inside) distinct).mp ?_
    simp [foundA, foundB, same]
  · intro before input data after hello split used
    rw [split, List.append_cons, admitted_append, admitted_append] at conditions prompt
    have earlier := conditions.left
    have recorded := history_recorded default evicts before earlier.left fun input member =>
      prompt input (by rw [List.map_append, List.map_append]
                       exact List.mem_append_left _ (List.mem_append_left _ member))
    have calls : (history server before : History cache).calls.map (fun c => (c.input, c.data)) =
        admitted before := history_admitted server before
    rw [← calls] at earlier
    rw [← history_state]
    refine handleClientHello_taken (fun now => ?_) fun h now => ?_
    · exact nonce_taken default recorded earlier (prompt input (by simp [admitted])) now used.mem
    · obtain ⟨_, first, _, _, known, _⟩ := used
      exact Server.authenticate_unique (helloOf_some.mp known) (helloOf_some.mp now)

theorem limited_of_short {burst : Int} {rate : Rat} (nonneg : 0 ≤ rate) {inputs : List HelloInput}
    (clock : Clock inputs) (short : (inputs.length : Int) ≤ burst) : Limited burst rate inputs := by
  intro before first middle last after split
  obtain ⟨within, between⟩ := clock
  rw [split] at within between short
  have ordered : first.addTime ≤ last.allowTime :=
    (List.pairwise_cons.mp (List.pairwise_append.mp between).2.1).1 last (by simp)
  have start := within first (by simp)
  have duration : (0 : Rat) ≤ ((last.allowTime - first.allowTime : Int) : Rat) :=
    Int.cast_nonneg (by omega)
  have spent : 0 ≤ rate * ((last.allowTime - first.allowTime : Int) : Rat) / (second : Rat) :=
    div_nonneg (mul_nonneg nonneg duration) (by norm_num [second])
  have count : ((middle.length + 2 : Int) : Rat) ≤ burst := by
    refine Int.cast_le.mpr ?_
    simp only [List.length_append, List.length_cons] at short
    omega
  push_cast at count
  linarith

theorem default_server : DefaultOptions Plain.server := ⟨rfl, rfl, rfl, rfl, rfl⟩

theorem two_calls {first last : HelloInput} (clock : Clock [first, last]) :
    Conditions Plain.server
      [(first, Plain.attempt.message), (last, Plain.attempt.message)] where
  clock := clock
  limited := limited_of_short (by decide) clock
    (by simpa using (by decide : (2 : Int) ≤ Plain.server.options.helloRateBurst))
  copies p hp q hq h h' _ _ _ := by
    have same : ∀ x ∈ [(first, Plain.attempt.message), (last, Plain.attempt.message)],
        x.2 = Plain.attempt.message := by simp
    rw [same p hp, same q hq]

def active : Lifecycle :=
  { transportConn := some 1, iceAgent := some 1, selectedTransport := str "quic",
    established := true, totalLease := true }

def opened : List Event :=
  [.hello true (Plain.helloInput 6000) Plain.attempt.message, .lifecycle 0 active]

def replayed (input : HelloInput) : List Event :=
  opened ++ [.hello true input Plain.attempt.message]

theorem replays_harmless_sample : ∃ hello,
    Conditions Plain.server (admitted (replayed (Plain.helloInput 7000))) ∧
    Prompt ((admitted (replayed (Plain.helloInput 7000))).map Prod.fst) ∧
    Used Plain.server Plain.nonces opened Plain.attempt.message hello ∧
    (ReturnsPending (run Plain.server opened : Run Plain.nonces).state hello
        ((run Plain.server opened : Run Plain.nonces).state.handleClientHello Plain.server
          (Plain.helloInput 7000) Plain.attempt.message) ∨
      RejectsUnchanged (run Plain.server opened : Run Plain.nonces).state
        ((run Plain.server opened : Run Plain.nonces).state.handleClientHello Plain.server
          (Plain.helloInput 7000) Plain.attempt.message)) := by
  have conditions : Conditions Plain.server (admitted (replayed (Plain.helloInput 7000))) :=
    two_calls ⟨by decide, by decide⟩
  have prompt : Prompt ((admitted (replayed (Plain.helloInput 7000))).map Prod.fst) := by
    unfold Prompt
    decide
  have evaluated : (helloOf Plain.server (Plain.helloInput 6000) Plain.attempt.message).any
      (acceptsNonce Plain.server (ServerState.start Plain.nonces) (Plain.helloInput 6000)) = true := by
    decide +kernel
  obtain ⟨hello, known, accepts⟩ := (Option.any_eq_true _ _).mp evaluated
  have used : Used Plain.server Plain.nonces opened Plain.attempt.message hello :=
    ⟨[], Plain.helloInput 6000, [.lifecycle 0 active], rfl, known, accepts⟩
  exact ⟨hello, conditions, prompt, used,
    (replays_harmless default_server (Lru.listCache_evicts Bytes Int 100000) _ conditions prompt).2
      opened (Plain.helloInput 7000) Plain.attempt.message [] hello rfl used⟩

def stalledInput : HelloInput :=
  { Plain.helloInput 7000 with lookupTime := 301 * second, addTime := 301 * second }

/-- In that call a copy of the ClientHello of an established session passes the
nonce check: the session is closed and a second connection takes its nonce. -/
theorem stalled_replay_closes : DefaultOptions Plain.server ∧
    Nonempty (Lru.Evicts Plain.nonces Plain.server.options.lruSize.toNat) ∧
    Conditions Plain.server (admitted (replayed stalledInput)) ∧
    (∃ a : Connection, (run Plain.server opened : Run Plain.nonces).state.pool[0]? = some a ∧
      a.established = true ∧ a.closed = false) ∧
    ∃ a b : Connection,
      (run Plain.server (replayed stalledInput) : Run Plain.nonces).state.pool[0]? = some a ∧
      (run Plain.server (replayed stalledInput) : Run Plain.nonces).state.pool[1]? = some b ∧
      a.closed = true ∧ a.clientNonce = b.clientNonce := by
  have evaluated : ((run Plain.server opened : Run Plain.nonces).state.pool[0]?.any
      fun (a : Connection) => decide (a.established = true ∧ a.closed = false)) = true ∧
      ((run Plain.server (replayed stalledInput) : Run Plain.nonces).state.pool[0]?.any
        fun (a : Connection) =>
        (run Plain.server (replayed stalledInput) : Run Plain.nonces).state.pool[1]?.any
        fun (b : Connection) => decide (a.closed = true ∧ a.clientNonce = b.clientNonce)) = true := by
    decide +kernel
  obtain ⟨before, after⟩ := evaluated
  obtain ⟨first, found, live⟩ := (Option.any_eq_true _ _).mp before
  obtain ⟨a, foundA, rest⟩ := (Option.any_eq_true _ _).mp after
  obtain ⟨b, foundB, same⟩ := (Option.any_eq_true _ _).mp rest
  exact ⟨default_server, ⟨Lru.listCache_evicts Bytes Int 100000⟩, two_calls ⟨by decide, by decide⟩,
    ⟨first, found, of_decide_eq_true live⟩, a, b, foundA, foundB, of_decide_eq_true same⟩

end Telekit.ReplaySafety
