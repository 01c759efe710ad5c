import Mathlib.Data.List.Induction
import Telekit.NegotiationOwnership
import Telekit.ServerDisclosure

/-! How the choice of a transport and the ICE offer of a client meet. Each comes in
a message of its own, in any order and any number of times. Whichever is handled
last starts the negotiation: the choice if it finds an offer stored, the offer if
it finds a transport chosen. The course of both is a pair of phases; every step of
the server moves one of them, or both at the moment they meet. -/

namespace Telekit.ServerMachine

section Messages
variable {P : Primitives} (server : Server P)

structure Selects (message : Message) (name : GoString) : Prop where
  typ : message.typ = .transportSelect
  payload : message.payload ≠ none
  carries : (message.payload.getD {}).transport = name
  known : name ∈ server.transports

structure Offers (message : Message) (remote : ICEDescription) : Prop where
  typ : message.typ = .iceOffer
  payload : message.payload ≠ none
  carries : (⟨(message.payload.getD {}).iceUsername, (message.payload.getD {}).icePassword,
    (message.payload.getD {}).iceCandidates⟩ : ICEDescription) = remote
  complete : remote.usernameFragment ≠ [] ∧ remote.password ≠ [] ∧ remote.candidates ≠ []
  limits : (validateICEDescriptionLimits remote server.options.maxPendingICE
    server.options.maxPendingICEBytes).isOk = true

variable {server}

theorem Selects.judge {message : Message} {name : GoString} (selects : Selects server message name)
    (i : Nat) : judge server i message = .selecting i name := by
  have typ : (message.header.getD {}).typ = .transportSelect := selects.typ
  simp only [ServerMachine.judge, dispatch, typ, selects.carries, selects.known, if_true]
  rfl

theorem Offers.judge {message : Message} {remote : ICEDescription}
    (offers : Offers server message remote) (i : Nat) :
    judge server i message = .offering i remote := by
  have typ : (message.header.getD {}).typ = .iceOffer := offers.typ
  obtain ⟨username, password, candidates⟩ := offers.complete
  have limits := offers.limits
  have same := offers.carries
  subst same
  simp only at username password candidates
  simp only [ServerMachine.judge, dispatch, typ, username, password, candidates, limits, or_self,
    if_false, if_true]
  rfl

theorem judge_other {message : Message} (select : message.typ ≠ .transportSelect)
    (offer : message.typ ≠ .iceOffer) (i : Nat) : judge server i message = .idle := by
  rcases judge_cases server i message with same | ⟨typ, _⟩ | ⟨typ, _⟩
  · exact same
  · exact absurd typ select
  · exact absurd typ offer

end Messages

/-- A handler at work for a connection: on the way to choose a transport, to look
for a stored offer, or with an offer. -/
inductive Token
  | choosing
  | taking
  | offering
  deriving DecidableEq

def Role.token (i : Nat) : Role → Option Token
  | .judging j message =>
    if j = i then
      match message.typ with
      | .transportSelect => some .choosing
      | .iceOffer => some .offering
      | _ => none
    else none
  | .selecting j _ => if j = i then some .choosing else none
  | .taking j => if j = i then some .taking else none
  | .offering j _ => if j = i then some .offering else none
  | _ => none

/-- The course of the choice: its message has not come, was accepted, the
transport is chosen, and a stored offer was looked for. -/
inductive ChoicePhase
  | awaited
  | accepted
  | chosen
  | settled
  deriving DecidableEq

inductive OfferPhase
  | awaited
  | accepted
  | stored
  | started
  deriving DecidableEq

def ChoicePhase.selected (name : GoString) : ChoicePhase → GoString
  | .awaited | .accepted => []
  | .chosen | .settled => name

def OfferPhase.pending (remote : ICEDescription) : OfferPhase → Option ICEDescription
  | .stored => some remote
  | _ => none

def OfferPhase.starts (remote : ICEDescription) : OfferPhase → List ICEDescription
  | .started => [remote]
  | _ => []

def atWork (σ : ChoicePhase) (ω : OfferPhase) : Token → Int
  | .choosing => if σ = .accepted then 1 else 0
  | .taking => if σ = .chosen then 1 else 0
  | .offering => if ω = .accepted then 1 else 0

/-- A stored offer will be looked for, and nothing starts before the choice. -/
def Agree : ChoicePhase → OfferPhase → Bool
  | .settled, .stored => false
  | .awaited, .started | .accepted, .started => false
  | _, _ => true

def startsOf (negotiations : List Negotiation) (i : Nat) : List ICEDescription :=
  negotiations.filterMap fun
    | .started j remote => if j = i then some remote else none
    | _ => none

def holding (i : Nat) (token : Token) (v : Role) : Int := if v.token i = some token then 1 else 0

theorem holding_nonneg (i : Nat) (token : Token) (v : Role) : 0 ≤ holding i token v := by
  unfold holding
  split_ifs <;> decide

structure Client where
  select : Message
  offer : Message
  name : GoString
  remote : ICEDescription

variable {P : Primitives} {server : Server P} {client : Client} {i : Nat}

theorem token_other {message : Message} (select : message.typ ≠ .transportSelect)
    (offer : message.typ ≠ .iceOffer) : (Role.judging i message).token i = none := by
  simp [Role.token]

def Role.Proper (client : Client) (i : Nat) : Role → Prop
  | .judging j message => j = i → (message.typ = .transportSelect → message = client.select) ∧
    (message.typ = .iceOffer → message = client.offer)
  | .selecting j name => j = i → name = client.name
  | .offering j remote => j = i → remote = client.remote
  | _ => True

structure Meets (client : Client) (i : Nat) (w : World) (roles : List Role) (σ : ChoicePhase)
    (ω : OfferPhase) : Prop where
  standing : ∃ st, w.standings[i]? = some st ∧
    st.selectedTransport = σ.selected client.name ∧ st.pendingICEOffer = ω.pending client.remote
  select : (i, client.select) ∈ w.receipts ↔ σ ≠ .awaited
  offer : (i, client.offer) ∈ w.receipts ↔ ω ≠ .awaited
  tokens : ∀ token, Ledger.total (holding i token) roles = atWork σ ω token
  starts : startsOf w.negotiations i = ω.starts client.remote
  proper : ∀ v ∈ roles, v.Proper client i
  agree : Agree σ ω = true

@[simp] theorem World.modify_receipts (w : World) (i : Nat) (f : Standing → Standing) :
    (w.modify i f).receipts = w.receipts := rfl

@[simp] theorem World.note_receipts (w : World) (negotiation : Negotiation) :
    (w.note negotiation).receipts = w.receipts := rfl

section Steps
variable {current : Nat → Bool} {w w' : World} {v v' : Role} {others spawned : List Role} {n : Nat}
  {σ : ChoicePhase} {ω : OfferPhase}

theorem total_holding (running : others[n]? = some v)
    (bare : ∀ u ∈ spawned, u.token i = none ∧ u.Proper client i) (token : Token) :
    Ledger.total (holding i token) (others.set n v' ++ spawned) =
      Ledger.total (holding i token) others - holding i token v + holding i token v' :=
  Interleaving.total_step running fun u member => by simp [holding, (bare u member).1]

theorem proper_set (proper : ∀ u ∈ others, u.Proper client i) (own : v'.Proper client i)
    (bare : ∀ u ∈ spawned, u.token i = none ∧ u.Proper client i) :
    ∀ u ∈ others.set n v' ++ spawned, u.Proper client i := by
  intro u member
  rcases List.mem_append.mp member with old | new
  · exact Ledger.forall_set proper own u old
  · exact (bare u new).2

structure Untouched (i : Nat) (w w' : World) : Prop where
  standing : ∀ st, w.standings[i]? = some st → ∃ st', w'.standings[i]? = some st' ∧
    st'.selectedTransport = st.selectedTransport ∧ st'.pendingICEOffer = st.pendingICEOffer
  receipts : ∀ message, (i, message) ∈ w'.receipts ↔ (i, message) ∈ w.receipts
  starts : startsOf w'.negotiations i = startsOf w.negotiations i

theorem Untouched.same (standings : w'.standings = w.standings)
    (receipts : w'.receipts = w.receipts) (negotiations : w'.negotiations = w.negotiations) :
    Untouched i w w' :=
  ⟨fun st found => ⟨st, by rw [standings, found], rfl, rfl⟩, fun _ => by rw [receipts],
    by rw [negotiations]⟩

theorem Untouched.refl (w : World) : Untouched i w w := .same rfl rfl rfl

theorem Untouched.modify {j : Nat} {f : Standing → Standing}
    (same : ∀ st, i = j → (f st).selectedTransport = st.selectedTransport ∧
      (f st).pendingICEOffer = st.pendingICEOffer) : Untouched i w (w.modify j f) := by
  refine ⟨fun st found => ⟨_, World.modify_found f found, ?_⟩, fun _ => .rfl, rfl⟩
  split_ifs with own
  · exact same st own.symm
  · exact ⟨rfl, rfl⟩

theorem Meets.rest (meets : Meets client i w others σ ω) (running : others[n]? = some v)
    (untouched : Untouched i w w') (token : v'.token i = v.token i)
    (proper : v.Proper client i → v'.Proper client i)
    (bare : ∀ u ∈ spawned, u.token i = none ∧ u.Proper client i) :
    Meets client i w' (others.set n v' ++ spawned) σ ω := by
  obtain ⟨st, found, selected, pending⟩ := meets.standing
  obtain ⟨st', found', sameSelected, samePending⟩ := untouched.standing st found
  refine ⟨⟨st', found', sameSelected.trans selected, samePending.trans pending⟩,
    (untouched.receipts _).trans meets.select, (untouched.receipts _).trans meets.offer,
    fun k => ?_, untouched.starts.trans meets.starts,
    proper_set meets.proper (proper (meets.proper v (List.mem_of_getElem? running))) bare,
    meets.agree⟩
  rw [total_holding running bare, meets.tokens k, holding, holding, token]
  omega

theorem Meets.phase (meets : Meets client i w others σ ω) (running : others[n]? = some v)
    {token : Token} (has : v.token i = some token) : atWork σ ω token = 1 := by
  have least := Ledger.le_total (fun u _ => holding_nonneg i token u) (List.mem_of_getElem? running)
  rw [meets.tokens token] at least
  simp only [holding, has, if_true] at least
  cases token <;> simp only [atWork] at least ⊢ <;> split_ifs at least ⊢ <;> omega

theorem Meets.choosing (meets : Meets client i w others σ ω) (running : others[n]? = some v)
    (has : v.token i = some .choosing) : σ = .accepted := by
  by_contra other
  have one := meets.phase running has
  simp [atWork, other] at one

theorem Meets.taking (meets : Meets client i w others σ ω) (running : others[n]? = some v)
    (has : v.token i = some .taking) : σ = .chosen := by
  by_contra other
  have one := meets.phase running has
  simp [atWork, other] at one

theorem Meets.offering (meets : Meets client i w others σ ω) (running : others[n]? = some v)
    (has : v.token i = some .offering) : ω = .accepted := by
  by_contra other
  have one := meets.phase running has
  simp [atWork, other] at one

theorem judge_elsewhere {j : Nat} (other : j ≠ i) (message : Message) :
    (judge server j message).token i = none ∧ (judge server j message).Proper client i := by
  rcases judge_cases server j message with same | ⟨_, _, same⟩ | ⟨_, _, same⟩ <;> rw [same]
  · exact ⟨rfl, trivial⟩
  · exact ⟨if_neg other, fun own => absurd own other⟩
  · exact ⟨if_neg other, fun own => absurd own other⟩

theorem Meets.advance {σ' : ChoicePhase} {ω' : OfferPhase} (meets : Meets client i w others σ ω)
    (running : others[n]? = some v)
    (standing : ∃ st, w'.standings[i]? = some st ∧
      st.selectedTransport = σ'.selected client.name ∧
      st.pendingICEOffer = ω'.pending client.remote)
    (select : (i, client.select) ∈ w'.receipts ↔ σ' ≠ .awaited)
    (offer : (i, client.offer) ∈ w'.receipts ↔ ω' ≠ .awaited)
    (tokens : ∀ token, atWork σ ω token - holding i token v + holding i token v' =
      atWork σ' ω' token)
    (starts : startsOf w'.negotiations i = ω'.starts client.remote)
    (proper : v'.Proper client i)
    (bare : ∀ u ∈ spawned, u.token i = none ∧ u.Proper client i) (agree : Agree σ' ω' = true) :
    Meets client i w' (others.set n v' ++ spawned) σ' ω' := by
  refine ⟨standing, select, offer, fun k => ?_, starts, proper_set meets.proper proper bare, agree⟩
  rw [total_holding running bare, meets.tokens k]
  exact tokens k

structure Client.Valid (server : Server P) (client : Client) : Prop where
  selects : Selects server client.select client.name
  offers : Offers server client.offer client.remote

theorem Client.Valid.distinct (valid : client.Valid server) : client.select ≠ client.offer := by
  intro same
  have typ := valid.selects.typ
  rw [same, valid.offers.typ] at typ
  cases typ

theorem Client.Valid.named (valid : client.Valid server) : client.name ≠ [] :=
  server.transportNamed _ valid.selects.known

def Client.Sorts (client : Client) (message : Message) : Prop :=
  (message.typ = .transportSelect → message = client.select) ∧
    (message.typ = .iceOffer → message = client.offer)

theorem Meets.receives (valid : client.Valid server) (meets : Meets client i w others σ ω)
    (running : others[n]? = some .idle) {message : Message} (fresh : (i, message) ∉ w.receipts)
    (sorts : client.Sorts message)
    (goes : v' = .judging i message ∨ message.payload = none ∧ v' = .idle) :
    ∃ σ' ω', Meets client i { w with receipts := w.receipts ++ [(i, message)] }
      (others.set n v' ++ []) σ' ω' := by
  have bare : ∀ u ∈ ([] : List Role), u.token i = none ∧ u.Proper client i := by simp
  by_cases select : message = client.select
  · subst select
    obtain rfl : v' = .judging i client.select :=
      goes.resolve_right fun empty => valid.selects.payload empty.1
    have awaited : σ = .awaited := by
      by_contra later
      exact fresh (meets.select.mpr later)
    subst awaited
    refine ⟨.accepted, ω, meets.advance running meets.standing ?_ ?_ ?_ meets.starts
      (fun _ => sorts) bare ?_⟩
    · simp
    · rw [← meets.offer]
      simp [Ne.symm valid.distinct]
    · intro token
      cases token <;> simp [atWork, holding, Role.token, valid.selects.typ]
    · have agree := meets.agree
      cases ω <;> first | rfl | cases agree
  by_cases offer : message = client.offer
  · subst offer
    obtain rfl : v' = .judging i client.offer :=
      goes.resolve_right fun empty => valid.offers.payload empty.1
    have awaited : ω = .awaited := by
      by_contra later
      exact fresh (meets.offer.mpr later)
    subst awaited
    refine ⟨σ, .accepted, meets.advance running meets.standing ?_ ?_ ?_ meets.starts
      (fun _ => sorts) bare ?_⟩
    · rw [← meets.select]
      simp [valid.distinct]
    · simp
    · intro token
      cases token <;> simp [atWork, holding, Role.token, valid.offers.typ]
    · cases σ <;> rfl
  · have other : message.typ ≠ .transportSelect ∧ message.typ ≠ .iceOffer :=
      ⟨fun typ => select (sorts.1 typ), fun typ => offer (sorts.2 typ)⟩
    have token : v'.token i = none := by
      rcases goes with rfl | ⟨_, rfl⟩
      · exact token_other other.1 other.2
      · rfl
    refine ⟨σ, ω, meets.advance running meets.standing ?_ ?_ ?_ meets.starts ?_ bare
      meets.agree⟩
    · rw [← meets.select]
      simp [Ne.symm select]
    · rw [← meets.offer]
      simp [Ne.symm offer]
    · intro k
      rw [holding, holding, token]
      exact Int.sub_add_cancel _ _
    · rcases goes with rfl | ⟨_, rfl⟩
      · exact fun _ => sorts
      · trivial

theorem Meets.judges (valid : client.Valid server) (meets : Meets client i w others σ ω)
    {message : Message} (running : others[n]? = some (.judging i message)) :
    Meets client i w (others.set n (judge server i message) ++ []) σ ω := by
  have sorts := meets.proper _ (List.mem_of_getElem? running) rfl
  have bare : ∀ u ∈ ([] : List Role), u.token i = none ∧ u.Proper client i := by simp
  by_cases select : message.typ = .transportSelect
  · obtain rfl := sorts.1 select
    rw [valid.selects.judge]
    refine meets.rest running (.refl w) ?_ (fun _ _ => rfl) bare
    simp [Role.token, valid.selects.typ]
  by_cases offer : message.typ = .iceOffer
  · obtain rfl := sorts.2 offer
    rw [valid.offers.judge]
    refine meets.rest running (.refl w) ?_ (fun _ _ => rfl) bare
    simp [Role.token, valid.offers.typ]
  · rw [judge_other select offer]
    exact meets.rest running (.refl w) (token_other select offer).symm (fun _ => trivial) bare

theorem Meets.selects (meets : Meets client i w others σ ω) {name : GoString}
    (running : others[n]? = some (.selecting i name))
    (unclosed : ∀ st, w.standings[i]? = some st → st.closed = false) :
    ∃ σ' ω', Meets client i (w.modify i (Standing.choose name))
      (others.set n (.taking i) ++ []) σ' ω' := by
  obtain rfl : name = client.name := meets.proper _ (List.mem_of_getElem? running) rfl
  obtain rfl := meets.choosing running (if_pos rfl)
  obtain ⟨st, found, selected, pending⟩ := meets.standing
  have chosen : Standing.choose client.name st = { st with selectedTransport := client.name } :=
    if_pos ⟨unclosed st found, selected⟩
  refine ⟨.chosen, ω, meets.advance running ⟨_, World.modify_found _ found, ?_⟩ ?_ meets.offer ?_
    meets.starts trivial (by simp) ?_⟩
  · rw [if_pos rfl, chosen]
    exact ⟨rfl, pending⟩
  · simpa using meets.select
  · intro token
    cases token <;> simp [atWork, holding, Role.token]
  · cases ω <;> rfl

variable {st : Standing}

theorem Meets.fields (meets : Meets client i w others σ ω) (found : w.standings[i]? = some st) :
    st.selectedTransport = σ.selected client.name ∧
      st.pendingICEOffer = ω.pending client.remote := by
  obtain ⟨st', found', fields⟩ := meets.standing
  rw [found] at found'
  cases found'
  exact fields

theorem Meets.takes (meets : Meets client i w others σ ω) {remote : ICEDescription}
    (running : others[n]? = some (.taking i)) (found : w.standings[i]? = some st)
    (kept : st.pendingICEOffer = some remote) :
    ∃ σ' ω', Meets client i ((w.modify i (Standing.stow none)).note (.started i remote))
      (others.set n .idle ++ [.begins i]) σ' ω' := by
  obtain rfl := meets.taking running (if_pos rfl)
  obtain ⟨selected, pending⟩ := meets.fields found
  rw [kept] at pending
  obtain ⟨rfl, rfl⟩ : ω = .stored ∧ remote = client.remote := by
    cases ω with
    | stored => exact ⟨rfl, Option.some.inj pending⟩
    | _ => cases pending
  have present : ((w.modify i (Standing.stow none)).note (.started i client.remote)).standings[i]? =
      some (Standing.stow none st) := by
    rw [World.note, World.modify_found _ found, if_pos rfl]
  refine ⟨.settled, .started, meets.advance running ⟨_, present, selected, rfl⟩ ?_ ?_ ?_ ?_ trivial
    (by simp [Role.token, Role.Proper]) rfl⟩
  · simpa using meets.select
  · simpa using meets.offer
  · intro token
    cases token <;> simp [atWork, holding, Role.token]
  · have none := meets.starts
    simp only [startsOf, World.note, World.modify_negotiations, List.filterMap_append] at none ⊢
    rw [none]
    simp [OfferPhase.starts]

theorem Meets.skips (meets : Meets client i w others σ ω) (running : others[n]? = some (.taking i))
    (found : w.standings[i]? = some st) (nothing : st.pendingICEOffer = none) :
    ∃ σ' ω', Meets client i w (others.set n .idle ++ []) σ' ω' := by
  obtain rfl := meets.taking running (if_pos rfl)
  obtain ⟨selected, pending⟩ := meets.fields found
  refine ⟨.settled, ω, meets.advance running ⟨st, found, selected, pending⟩ ?_ meets.offer ?_
    meets.starts trivial (by simp) ?_⟩
  · simpa using meets.select
  · intro token
    cases token <;> simp [atWork, holding, Role.token]
  · rw [nothing] at pending
    cases ω <;> first | rfl | cases pending

theorem Meets.stows (valid : client.Valid server) (meets : Meets client i w others σ ω)
    {remote : ICEDescription} (running : others[n]? = some (.offering i remote))
    (found : w.standings[i]? = some st) (unchosen : st.selectedTransport = []) :
    ∃ σ' ω', Meets client i (w.modify i (Standing.stow (some remote)))
      (others.set n .idle ++ []) σ' ω' := by
  obtain rfl : remote = client.remote := meets.proper _ (List.mem_of_getElem? running) rfl
  obtain rfl := meets.offering running (if_pos rfl)
  obtain ⟨selected, pending⟩ := meets.fields found
  refine ⟨σ, .stored, meets.advance running ⟨_, World.modify_found _ found, ?_⟩ meets.select ?_ ?_
    ?_ trivial (by simp) ?_⟩
  · rw [if_pos rfl]
    exact ⟨selected, rfl⟩
  · simpa using meets.offer
  · intro token
    cases token <;> simp [atWork, holding, Role.token]
  · exact meets.starts
  · rw [unchosen] at selected
    cases σ with
    | settled => exact absurd selected.symm valid.named
    | _ => rfl

theorem Meets.begins (meets : Meets client i w others σ ω) {remote : ICEDescription}
    (running : others[n]? = some (.offering i remote)) (found : w.standings[i]? = some st)
    (chosen : st.selectedTransport ≠ []) :
    ∃ σ' ω', Meets client i (w.note (.started i remote))
      (others.set n .idle ++ [.begins i]) σ' ω' := by
  obtain rfl : remote = client.remote := meets.proper _ (List.mem_of_getElem? running) rfl
  obtain rfl := meets.offering running (if_pos rfl)
  obtain ⟨selected, pending⟩ := meets.fields found
  refine ⟨σ, .started, meets.advance running ⟨st, found, selected, pending⟩ meets.select ?_ ?_ ?_
    trivial (by simp [Role.token, Role.Proper]) ?_⟩
  · simpa using meets.offer
  · intro token
    cases token <;> simp [atWork, holding, Role.token]
  · have none := meets.starts
    simp only [startsOf, World.note, List.filterMap_append] at none ⊢
    rw [none]
    simp [OfferPhase.starts]
  · rw [selected] at chosen
    cases σ with
    | awaited | accepted => exact absurd rfl chosen
    | _ => rfl

/-- Every step of the server moves the phases of an open connection, or leaves
them alone. -/
theorem Meets.transition (valid : client.Valid server) (meets : Meets client i w others σ ω)
    (running : others[n]? = some v) (opened : current i = true)
    (unclosed : ∀ st, w.standings[i]? = some st → st.closed = false)
    (fresh : ∀ message, w'.receipts = w.receipts ++ [(i, message)] → (i, message) ∉ w.receipts)
    (sorts : ∀ message, (i, message) ∈ w'.receipts → client.Sorts message)
    (moved : Transition server current w v w' v' spawned) :
    ∃ σ' ω', Meets client i w' (others.set n v' ++ spawned) σ' ω' := by
  have bare : ∀ u ∈ ([] : List Role), u.token i = none ∧ u.Proper client i := by simp
  -- Most steps are about other fields, or about another connection.
  have rests {v' : Role} {w' : World} (untouched : Untouched i w w')
      (token : v'.token i = v.token i) (proper : v.Proper client i → v'.Proper client i) :
      ∃ σ' ω', Meets client i w' (others.set n v' ++ []) σ' ω' :=
    ⟨σ, ω, meets.rest running untouched token proper bare⟩
  cases moved with
  | keeps => exact rests (.refl w) rfl id
  | returns v returns =>
    refine rests (.refl w) ?_ fun _ => trivial
    cases v <;> first | rfl | cases returns
  | creates sourceId codec =>
    refine rests ⟨fun st found => ⟨st, ?_, rfl, rfl⟩, fun _ => .rfl, rfl⟩ rfl fun _ => trivial
    unfold World.create
    rw [List.getElem?_append_left (List.getElem?_eq_some_iff.mp found).1, found]
  | stores | enters | clears => exact rests (.modify fun _ _ => ⟨rfl, rfl⟩) rfl fun _ => trivial
  | waits | names => exact rests (.refl w) rfl fun _ => trivial
  | leaves j transport agent =>
    refine rests ?_ rfl fun _ => trivial
    have standings : (w.closeTaken transport agent).standings = w.standings := by
      cases transport <;> cases agent <;> rfl
    refine ⟨fun st found => ⟨_, World.modify_found _ (standings ▸ found), ?_⟩, fun m => ?_, ?_⟩
    · split_ifs <;> exact ⟨rfl, rfl⟩
    · cases transport <;> cases agent <;> exact .rfl
    · cases transport <;> cases agent <;> rfl
  | @receives j message v' goes =>
    by_cases own : j = i
    · subst own
      exact meets.receives valid running (fresh message rfl) (sorts message (by simp)) goes
    · refine rests ⟨fun st found => ⟨st, found, rfl, rfl⟩, fun m => ?_, rfl⟩ ?_ fun _ => ?_
      · simp [Ne.symm own]
      · rcases goes with rfl | ⟨_, rfl⟩
        · exact if_neg own
        · rfl
      · rcases goes with rfl | ⟨_, rfl⟩
        · exact fun same => absurd same own
        · trivial
  | @judges j message present =>
    by_cases own : j = i
    · subst own
      exact ⟨σ, ω, meets.judges valid running⟩
    · obtain ⟨token, proper⟩ : (judge server j message).token i = none ∧
          (judge server j message).Proper client i := judge_elsewhere own message
      exact rests (.refl w) (token.trans (if_neg own).symm) fun _ => proper
  | @drops j message gone =>
    have own : j ≠ i := by
      rintro rfl
      rw [opened] at gone
      cases gone
    exact rests (.refl w) (if_neg own).symm fun _ => trivial
  | selects j name =>
    by_cases own : j = i
    · subst own
      exact meets.selects running unclosed
    · refine rests (.modify fun _ same => absurd same.symm own) ?_ fun _ => trivial
      simp [Role.token, own]
  | @takes j st remote found unclosed kept =>
    by_cases own : j = i
    · subst own
      exact meets.takes running found kept
    · refine ⟨σ, ω, meets.rest running ⟨fun st found => ?_, fun _ => .rfl, ?_⟩ ?_ (fun _ => trivial)
        (by simp [Role.token, Role.Proper])⟩
      · refine ⟨st, ?_, rfl, rfl⟩
        rw [World.note, World.modify_found _ found, if_neg own]
      · simp [startsOf, World.note, own]
      · simp [Role.token, own]
  | @skips j st found nothing =>
    by_cases own : j = i
    · subst own
      refine meets.skips running found (nothing.resolve_left fun closed => ?_)
      rw [unclosed st found] at closed
      cases closed
    · exact rests (.refl w) (if_neg own).symm fun _ => trivial
  | @stows j st remote found open_ unchosen =>
    by_cases own : j = i
    · subst own
      exact meets.stows valid running found unchosen
    · refine rests (.modify fun _ same => absurd same.symm own) ?_ fun _ => trivial
      simp [Role.token, own]
  | @starts j st remote found open_ chosen =>
    by_cases own : j = i
    · subst own
      exact meets.begins running found chosen
    · refine ⟨σ, ω, meets.rest running ⟨fun st found => ⟨st, found, rfl, rfl⟩, fun _ => .rfl, ?_⟩
        ?_ (fun _ => trivial) (by simp [Role.token, Role.Proper])⟩
      · simp [startsOf, World.note, own]
      · simp [Role.token, own]
  | @misses j st remote found closed =>
    have own : j ≠ i := by
      rintro rfl
      rw [unclosed st found] at closed
      cases closed
    exact rests (.refl w) (if_neg own).symm fun _ => trivial
  | makes | refuses | discards | dials | rejects =>
    exact rests (.same rfl rfl rfl) rfl fun _ => trivial
  | @installs j name agent st found unclosed vacant =>
    have touched : Untouched i w (w.modify j (Standing.carry agent)) :=
      .modify fun _ _ => ⟨rfl, rfl⟩
    refine rests ⟨touched.standing, fun _ => .rfl, ?_⟩ rfl fun _ => trivial
    simp [startsOf, World.note]
  | @attaches j name agent transport st found unclosed owned vacant =>
    have touched : Untouched i w (w.modify j (Standing.attach transport)) :=
      .modify fun _ _ => ⟨rfl, rfl⟩
    refine rests ⟨touched.standing, fun _ => .rfl, ?_⟩ rfl fun _ => trivial
    simp [startsOf, World.note]

end Steps

section Run
open Interleaving
variable {cache : Lru.Cache Bytes Int}

theorem mem_receipts {s : Shared cache} {message : Message} :
    (i, message) ∈ s.world.receipts ↔ ∃ data, .received i data message ∈ s.trace := by
  simp only [Shared.world, List.mem_filterMap]
  constructor
  · rintro ⟨event, member, receipt⟩
    cases event with
    | received j data m =>
      obtain ⟨rfl, rfl⟩ : j = i ∧ m = message := by simpa [Event.receipt] using receipt
      exact ⟨data, member⟩
    | _ => cases receipt
  · rintro ⟨data, member⟩
    exact ⟨_, member, rfl⟩

theorem sequences_receipts (s : Shared cache) (i : Nat) : sequences s.trace i =
    s.world.receipts.filterMap fun r => if r.1 = i then some r.2.sequence else none := by
  unfold sequences Shared.world
  rw [List.filterMap_filterMap]
  congr 1
  funext event
  cases event <;> rfl

theorem receipt_fresh {s s' : Shared cache} (history : History server s'.view s'.trace)
    {message : Message} (received : s'.world.receipts = s.world.receipts ++ [(i, message)]) :
    (i, message) ∉ s.world.receipts := by
  intro old
  have nodup := (history.numbered i).1
  rw [sequences_receipts, received, List.filterMap_append, List.nodup_append] at nodup
  refine nodup.2.2 message.sequence ?_ message.sequence (by simp) rfl
  exact List.mem_filterMap.mpr ⟨_, old, by simp⟩

theorem isCurrent_found {s : Shared cache} (current : s.isCurrent i = true) :
    ∃ c, s.pool[i]? = some c ∧ c.closed = false ∧ s.connections c.sourceId = some i := by
  unfold ServerState.isCurrent at current
  split at current
  · cases current
  next c found =>
    simp only [Bool.and_eq_true, Bool.not_eq_true', decide_eq_true_eq] at current
    exact ⟨c, found, current⟩

theorem Transition.session {current : Nat → Bool} {w w' : World} {v v' : Role}
    {spawned : List Role} (moved : Transition server current w v w' v' spawned) {st : Standing}
    (found : w.standings[i]? = some st) : ∃ st', w'.standings[i]? = some st' ∧
      st'.sourceId = st.sourceId ∧ st'.receiveCodec = st.receiveCodec := by
  have modified {w : World} {j : Nat} {f : Standing → Standing} (found : w.standings[i]? = some st)
      (same : ∀ st, (f st).sourceId = st.sourceId ∧ (f st).receiveCodec = st.receiveCodec) :
      ∃ st', (w.modify j f).standings[i]? = some st' ∧
        st'.sourceId = st.sourceId ∧ st'.receiveCodec = st.receiveCodec := by
    refine ⟨_, World.modify_found f found, ?_⟩
    split_ifs
    · exact same st
    · exact ⟨rfl, rfl⟩
  cases moved with
  | creates sourceId codec =>
    refine ⟨st, ?_, rfl, rfl⟩
    unfold World.create
    rw [List.getElem?_append_left (List.getElem?_eq_some_iff.mp found).1, found]
  | stores | enters | clears | takes | stows | installs | attaches =>
    exact modified found fun _ => ⟨rfl, rfl⟩
  | selects j name =>
    refine modified found fun st => ?_
    unfold Standing.choose
    split_ifs <;> exact ⟨rfl, rfl⟩
  | leaves j transport agent =>
    have present : (w.closeTaken transport agent).standings[i]? = some st := by
      rw [← found]
      cases transport <;> cases agent <;> rfl
    exact modified present fun _ => ⟨rfl, rfl⟩
  | _ => exact ⟨st, found, rfl, rfl⟩

theorem Transition.started {current : Nat → Bool} {w w' : World} {v v' : Role}
    {spawned : List Role} (moved : Transition server current w v w' v' spawned)
    {remote : ICEDescription} (member : .started i remote ∈ w'.negotiations) :
    .started i remote ∈ w.negotiations ∨ .begins i ∈ spawned := by
  cases moved with
  | takes =>
    simp only [World.note, World.modify_negotiations, List.mem_append, List.mem_singleton,
      Negotiation.started.injEq] at member
    exact member.imp_right fun same => by simp [same.1]
  | starts =>
    simp only [World.note, List.mem_append, List.mem_singleton, Negotiation.started.injEq] at member
    exact member.imp_right fun same => by simp [same.1]
  | installs | attaches =>
    left
    simpa [World.note] using member
  | leaves j transport agent =>
    left
    cases transport <;> cases agent <;> exact member
  | _ => exact .inl member

theorem role_begins {t : Thread} (role : t.role = .begins i) :
    ∃ locals, t = .ice i locals .setup := by
  cases t with
  | closing j pos next => cases pos <;> cases role
  | offer data pos => cases pos <;> cases role
  | ice j locals pos =>
    cases pos with
    | setup =>
      cases role
      exact ⟨locals, rfl⟩
    | _ => cases role
  | _ => cases role

variable (server) in
theorem run_started (cache : Lru.Cache Bytes Int) (actions : List Action) {i : Nat}
    {remote : ICEDescription}
    (member : .started i remote ∈ (run server cache actions).shared.negotiations) :
    Selected server (run server cache actions).shared.trace i := by
  have kept := (program server).run_keeps (fun c => Justifies server c ∧
    ∀ remote, .started i remote ∈ c.shared.negotiations → Selected server c.shared.trace i) ?_
    ⟨.start server cache, by simp [Shared.start]⟩ actions
  · exact kept.2 remote member
  · intro c c' kept moved
    obtain ⟨justifies, noted⟩ := kept
    have next := justifies.moves server moved
    refine ⟨next, fun remote member => ?_⟩
    cases moved with
    | stays => exact noted remote member
    | advances running moved =>
      have step := (advance_steps moved).follows justifies.1
        (justifies.2 _ (List.mem_of_getElem? running))
      rcases (advance_steps moved).transition.started member with old | new
      · exact (noted remote old).mono server step.grows
      · obtain ⟨t, spawned, role⟩ := List.mem_map.mp new
        obtain ⟨locals, rfl⟩ := role_begins role
        exact (step.started _ spawned).1
    | occurs happened =>
      have step := (occur_occurs happened).follows justifies.1
      have same : .started i remote ∈ c.shared.world.negotiations := by
        rw [← (occur_occurs happened).idle.1]
        exact member
      exact (noted remote same).mono server step.grows

theorem idle_of_silent {t : Thread} {trace : List Event} (knows : t.Knows server trace)
    (nothing : ∀ data message, .received i data message ∉ trace) :
    t.role.token i = none ∧ t.role.Proper client i := by
  cases t with
  | closing j pos next => cases pos <;> exact ⟨rfl, trivial⟩
  | ice j locals pos => cases pos <;> exact ⟨rfl, trivial⟩
  | offer data pos =>
    cases pos with
    | current j message =>
      have other : j ≠ i := by
        rintro rfl
        exact nothing data message knows
      exact ⟨if_neg other, fun same => absurd same other⟩
    | storeSelected j name =>
      have other : j ≠ i := by
        rintro rfl
        obtain ⟨_, _, received, _⟩ := knows
        exact nothing _ _ received
      exact ⟨if_neg other, fun same => absurd same other⟩
    | takePending j =>
      have other : j ≠ i := by
        rintro rfl
        obtain ⟨_, _, received, _⟩ := knows
        exact nothing _ _ received
      exact ⟨if_neg other, trivial⟩
    | keepOffer j remote =>
      have other : j ≠ i := by
        rintro rfl
        obtain ⟨_, _, received, _⟩ := knows
        exact nothing _ _ received
      exact ⟨if_neg other, fun same => absurd same other⟩
    | _ => exact ⟨rfl, trivial⟩
  | _ => exact ⟨rfl, trivial⟩

variable {before : List Action}

theorem Meets.start (opened : (run server cache before).shared.isCurrent i = true)
    (nothing : ∀ data message, .received i data message ∉ (run server cache before).shared.trace) :
    Meets client i (run server cache before).shared.world
      (roles (run server cache before).threads) .awaited .awaited := by
  obtain ⟨c, found, _⟩ := isCurrent_found opened
  obtain ⟨history, knows⟩ := run_history server cache before
  have silent (message : Message) : (i, message) ∉ (run server cache before).shared.world.receipts :=
    fun received => by
      obtain ⟨data, logged⟩ := mem_receipts.mp received
      exact nothing data message logged
  have unselected : ¬ Selected server (run server cache before).shared.trace i := by
    rintro ⟨_, _, received, _⟩
    exact nothing _ _ received
  refine ⟨⟨_, world_found found, ?_, ?_⟩, by simp [silent], by simp [silent], fun token => ?_, ?_,
    fun v member => ?_, rfl⟩
  · by_contra chosen
    exact unselected (history.selected i _ (view_getElem? found) chosen)
  · by_contra kept
    obtain ⟨_, _, received, _⟩ := history.offered i _ (view_getElem? found) kept
    exact nothing _ _ received
  · rw [Ledger.total_eq_zero fun v member => ?_]
    · cases token <;> rfl
    · obtain ⟨t, inside, rfl⟩ := List.mem_map.mp member
      have idle : t.role.token i = none ∧ t.role.Proper client i :=
        idle_of_silent (knows t inside) nothing
      simp [holding, idle.1]
  · refine List.filterMap_eq_nil_iff.mpr fun event member => ?_
    cases event with
    | started j remote =>
      have other : j ≠ i := by
        rintro rfl
        exact unselected (run_started server cache before member)
      exact if_neg other
    | _ => rfl
  · obtain ⟨t, inside, rfl⟩ := List.mem_map.mp member
    exact (idle_of_silent (knows t inside) nothing).2

theorem Meets.enter {w : World} {others new : List Role} {σ : ChoicePhase} {ω : OfferPhase}
    (meets : Meets client i w others σ ω) (idle : ∀ u ∈ new, u = .idle) :
    Meets client i w (others ++ new) σ ω := by
  refine ⟨meets.standing, meets.select, meets.offer, fun token => ?_, meets.starts,
    fun v member => ?_, meets.agree⟩
  · have none : Ledger.total (holding i token) new = 0 :=
      Ledger.total_eq_zero fun u member => by simp [holding, idle u member, Role.token]
    rw [Ledger.total_append, none, meets.tokens]
    omega
  · rcases List.mem_append.mp member with old | added
    · exact meets.proper v old
    · rw [idle v added]
      trivial

theorem trace_grows {c c' : Config (Shared cache) Thread} (justifies : Justifies server c)
    (moved : (program server).Moves c c') : c.shared.trace ⊆ c'.shared.trace := by
  cases moved with
  | stays => exact List.Subset.refl _
  | advances running moved =>
    exact ((advance_steps moved).follows justifies.1
      (justifies.2 _ (List.mem_of_getElem? running))).grows
  | occurs happened => exact ((occur_occurs happened).follows justifies.1).grows

def attends (i : Nat) (c : Config (Shared cache) Thread) (_ : Action) : Bool :=
  c.shared.isCurrent i

theorem run_concat (before : List Action) (a : Action) :
    run server cache (before ++ [a]) = (program server).step (run server cache before) a := by
  rw [run, (program server).run_append]
  rfl

theorem run_meets (valid : client.Valid server) {after : List Action}
    (opened : (run server cache before).shared.isCurrent i = true)
    (nothing : ∀ data message, .received i data message ∉ (run server cache before).shared.trace)
    (attended : (program server).along (attends i) (run server cache before) after = true)
    (sorts : ∀ data message,
      .received i data message ∈ (run server cache (before ++ after)).shared.trace →
      client.Sorts message) :
    ∃ σ ω, Meets client i (run server cache (before ++ after)).shared.world
      (roles (run server cache (before ++ after)).threads) σ ω := by
  induction after using List.reverseRecOn with
  | nil =>
    rw [List.append_nil]
    exact ⟨.awaited, .awaited, .start opened nothing⟩
  | append_singleton after a ih =>
    rw [Program.along_append, Bool.and_eq_true] at attended
    have justifies := run_history server cache (before ++ after)
    have taken := (program server).step_takes (run server cache (before ++ after)) a
    have history := (justifies.moves server taken.moves).1
    rw [← List.append_assoc, run_concat] at sorts ⊢
    obtain ⟨σ, ω, meets⟩ := ih attended.1 fun data message logged =>
      sorts data message (trace_grows justifies taken.moves logged)
    have current : (run server cache (before ++ after)).shared.isCurrent i = true := by
      have last := attended.2
      rw [Program.along, Bool.and_eq_true] at last
      rw [run, (program server).run_append]
      exact last.1
    obtain ⟨c, found, unclosed, _⟩ := isCurrent_found current
    generalize run server cache (before ++ after) = k at *
    generalize (program server).step k a = k' at *
    cases taken with
    | stays => exact ⟨σ, ω, meets⟩
    | advances running moved =>
      simp only [roles, List.map_append, List.map_set]
      refine meets.transition valid (by simp [running]) current (fun st present => ?_)
        (fun message received => receipt_fresh history received) (fun message received => ?_)
        (advance_steps moved).transition
      · rw [world_found found] at present
        cases present
        exact unclosed
      · obtain ⟨data, logged⟩ := mem_receipts.mp received
        exact sorts data message logged
    | occurs happened =>
      obtain ⟨world, idle⟩ := (occur_occurs happened).idle
      simp only [roles, List.map_append, world]
      exact ⟨σ, ω, meets.enter (by simpa using idle)⟩

variable {c : Connection}

theorem run_session (found : (run server cache before).shared.pool[i]? = some c)
    (after : List Action) :
    ∃ c', (run server cache (before ++ after)).shared.pool[i]? = some c' ∧
      c'.sourceId = c.sourceId ∧ c'.codec.receiveCodec = c.codec.receiveCodec := by
  have kept := (program server).run_keeps (fun k => ∃ st, k.shared.world.standings[i]? = some st ∧
    st.sourceId = c.sourceId ∧ st.receiveCodec = c.codec.receiveCodec) ?_
    ⟨c.standing, world_found found, rfl, rfl⟩ after
  · rw [run, (program server).run_append]
    obtain ⟨st, present, session⟩ := kept
    obtain ⟨c', found', rfl⟩ : ∃ c', _ ∧ Connection.standing c' = st := by
      simpa [Shared.world] using present
    exact ⟨c', found', session⟩
  · rintro k k' ⟨st, present, source, codec⟩ moved
    cases moved with
    | stays => exact ⟨st, present, source, codec⟩
    | advances running moved =>
      obtain ⟨st', present', source', codec'⟩ := (advance_steps moved).transition.session present
      exact ⟨st', present', source'.trans source, codec'.trans codec⟩
    | occurs happened =>
      rw [(occur_occurs happened).idle.1]
      exact ⟨st, present, source, codec⟩

variable (server) in
structure Carries (c : Connection) (data : Bytes) (message : Message) : Prop where
  addressed : ∃ header, ({} : Codec).decodeMessageHeader P data = .ok header ∧
    header.targetId = server.serverId ∧ header.sourceId = c.sourceId
  authentic : c.codec.receiveCodec.decodeMessage P data = .ok message

/-- The accepted messages leave room for this one: none has its number, and none
is 64 numbers ahead. -/
def Leaves (message other : Message) : Prop :=
  (other.sequence = message.sequence → other = message) ∧
    other.sequence.toNat < message.sequence.toNat + 64

/-- A handler that got a packet is about to look up its connection or to accept
its message, or the message has been accepted. -/
def Arrives (i : Nat) (data : Bytes) (message : Message) (m : Nat)
    (k : Config (Shared cache) Thread) : Prop :=
  k.threads[m]? = some (.offer data .lookup) ∨ k.threads[m]? = some (.offer data (.accept i)) ∨
    ∃ data, .received i data message ∈ k.shared.trace

variable {data : Bytes}

theorem lookup_arrives {s s' : Shared cache} {t' : Thread} {spawned : List Thread} {c' : Connection}
    {message : Message} (carries : Carries server c data message)
    (session : c'.sourceId = c.sourceId) (registered : s.connections c'.sourceId = some i)
    (moved : offerStep server s data .lookup = some (s', t', spawned)) :
    t' = .offer data (.accept i) := by
  obtain ⟨header, decoded, target, source⟩ := carries.addressed
  rw [session] at registered
  simp only [offerStep, decoded, target, source, registered, ne_eq, not_true, if_false] at moved
  cases moved
  rfl

theorem accept_arrives {s s' : Shared cache} {t' : Thread} {spawned : List Thread} {c' : Connection}
    {message : Message} (carries : Carries server c data message)
    (history : History server s.view s.trace) (found : s.pool[i]? = some c')
    (session : c'.codec.receiveCodec = c.codec.receiveCodec) (nonzero : message.sequence ≠ 0)
    (leaves : ∀ data other, .received i data other ∈ s.trace → Leaves message other)
    (moved : offerStep server s data (.accept i) = some (s', t', spawned)) :
    ∃ data, .received i data message ∈ s'.trace := by
  have decoded : c'.codec.decodeMessage P data = .ok message := by
    rw [SignalingChannel.decodeMessage, session]
    exact carries.authentic
  have spec := (ReplayWindow.accept_spec (history.tracks i _ (view_getElem? found))
    message.sequence).1
  simp only [offerStep, found, decoded] at moved
  have number : (message.header.getD {}).sequence = message.sequence := rfl
  rw [number] at moved
  split at moved
  next window refused =>
    cases moved
    by_contra absent
    have fresh : ReplayWindow.Fresh (sequences s.trace i).reverse message.sequence := by
      refine ⟨nonzero, fun old => ?_, fun t old => ?_⟩
      · rw [List.mem_reverse, sequences_receipts] at old
        obtain ⟨⟨j, other⟩, receipt, same⟩ := List.mem_filterMap.mp old
        simp only [Option.ite_none_right_eq_some, Option.some.injEq] at same
        obtain ⟨rfl, same⟩ := same
        obtain ⟨data', logged⟩ := mem_receipts.mp receipt
        exact absent ⟨data', (leaves data' other logged).1 same ▸ logged⟩
      · rw [List.mem_reverse, sequences_receipts] at old
        obtain ⟨⟨j, other⟩, receipt, same⟩ := List.mem_filterMap.mp old
        simp only [Option.ite_none_right_eq_some, Option.some.injEq] at same
        obtain ⟨rfl, rfl⟩ := same
        obtain ⟨data', logged⟩ := mem_receipts.mp receipt
        exact (leaves data' other logged).2
    have accepted := spec.mpr fresh
    rw [show (c'.signaling.signalRecv.accept message.sequence) = (false, window) from refused]
      at accepted
    cases accepted
  next window accepted =>
    cases moved
    exact ⟨data, by simp [Shared.log]⟩

theorem Arrives.takes {k k' : Config (Shared cache) Thread} {a : Action}
    {c' : Connection} {message : Message} {m : Nat} (arrives : Arrives i data message m k)
    (justifies : Justifies server k) (carries : Carries server c data message)
    (nonzero : message.sequence ≠ 0) (found : k.shared.pool[i]? = some c')
    (source : c'.sourceId = c.sourceId) (codec : c'.codec.receiveCodec = c.codec.receiveCodec)
    (registered : k.shared.connections c'.sourceId = some i)
    (leaves : ∀ packet other, .received i packet other ∈ k.shared.trace → Leaves message other)
    (taken : (program server).Takes k a k') : Arrives i data message m k' := by
  rcases arrives with looking | accepting | ⟨packet, logged⟩
  · rcases taken.thread looking with stays | ⟨choice, t', spawned, moved, goes⟩
    · exact .inl stays
    · rw [lookup_arrives carries source registered moved] at goes
      exact .inr (.inl goes)
  · rcases taken.thread accepting with stays | ⟨choice, t', spawned, moved, goes⟩
    · exact .inr (.inl stays)
    · exact .inr (.inr (accept_arrives carries justifies.1 found codec nonzero leaves moved))
  · exact .inr (.inr ⟨packet, trace_grows justifies taken.moves logged⟩)

theorem run_arrives {first rest : List Action}
    {message : Message} (found : (run server cache before).shared.pool[i]? = some c)
    (carries : Carries server c data message) (nonzero : message.sequence ≠ 0)
    (attended : (program server).along (attends i) (run server cache before)
      (first ++ .event (.offer data) :: rest) = true)
    (leaves : ∀ packet other, .received i packet other ∈
      (run server cache (before ++ (first ++ .event (.offer data) :: rest))).shared.trace →
      Leaves message other) :
    Arrives i data message (run server cache (before ++ first)).threads.length
      (run server cache (before ++ (first ++ .event (.offer data) :: rest))) := by
  induction rest using List.reverseRecOn with
  | nil =>
    left
    rw [← List.append_assoc, run_concat]
    simp [Program.step, program, occur]
  | append_singleton rest a ih =>
    have shape : first ++ .event (.offer data) :: (rest ++ [a]) =
        (first ++ .event (.offer data) :: rest) ++ [a] := by simp
    rw [shape] at attended leaves ⊢
    rw [Program.along_append, Bool.and_eq_true] at attended
    rw [← List.append_assoc, run_concat] at leaves ⊢
    have justifies :=
      run_history server cache (before ++ (first ++ .event (.offer data) :: rest))
    have taken := (program server).step_takes
      (run server cache (before ++ (first ++ .event (.offer data) :: rest))) a
    have earlier := fun packet other logged =>
      leaves packet other (trace_grows justifies taken.moves logged)
    obtain ⟨c', found', source, codec⟩ := run_session found (first ++ .event (.offer data) :: rest)
    have current := attended.2
    rw [Program.along, Bool.and_eq_true, run, ← (program server).run_append] at current
    obtain ⟨_, present, _, registered⟩ := isCurrent_found current.1
    rw [show (program server).run _ _ = run server cache _ from rfl, found'] at present
    cases present
    exact (ih attended.1 earlier).takes justifies carries nonzero found' source codec registered
      earlier taken

theorem Meets.met {w : World} {others : List Role} {σ : ChoicePhase} {ω : OfferPhase}
    (meets : Meets client i w others σ ω) (select : (i, client.select) ∈ w.receipts)
    (offer : (i, client.offer) ∈ w.receipts) (idle : ∀ v ∈ others, v.token i = none) :
    σ = .settled ∧ ω = .started := by
  have free (token : Token) : atWork σ ω token = 0 := by
    rw [← meets.tokens token]
    exact Ledger.total_eq_zero fun v member => by simp [holding, idle v member]
  have choosing := free .choosing
  have taking := free .taking
  have offering := free .offering
  have received := meets.select.mp select
  have offered := meets.offer.mp offer
  have agree := meets.agree
  cases σ <;> cases ω <;> simp_all [atWork, Agree]

/-- A message of the client: it is the choice, the offer or of another type, has a
number of its own, and is less than 64 numbers ahead of both. -/
structure Client.Sends (client : Client) (message : Message) : Prop where
  sorts : client.Sorts message
  select : Leaves client.select message
  offer : Leaves client.offer message

variable (server cache) in
def Delivered (before after : List Action) (data : Bytes) : Prop :=
  ∃ first rest, after = first ++ .event (.offer data) :: rest ∧
    (run server cache (before ++ after)).threads[
      (run server cache (before ++ first)).threads.length]? = some .finished

theorem Delivered.received {after : List Action} {message : Message}
    (delivered : Delivered server cache before after data)
    (found : (run server cache before).shared.pool[i]? = some c)
    (carries : Carries server c data message) (nonzero : message.sequence ≠ 0)
    (attended : (program server).along (attends i) (run server cache before) after = true)
    (leaves : ∀ packet other,
      .received i packet other ∈ (run server cache (before ++ after)).shared.trace →
      Leaves message other) :
    ∃ packet, .received i packet message ∈ (run server cache (before ++ after)).shared.trace := by
  obtain ⟨first, rest, rfl, finished⟩ := delivered
  rcases run_arrives found carries nonzero attended leaves with looking | accepting | received
  · rw [finished] at looking
    cases looking
  · rw [finished] at accepting
    cases accepting
  · exact received

variable (server cache) in
/-- What an open connection accepts comes from one client with a usable choice. Then
`handleICEOffer` starts once at most, with that client's offer, after both messages were
accepted, and once both were delivered and handled it has started. -/
theorem offer_meets_choice (before after : List Action) (i : Nat) (c : Connection)
    (client : Client) (valid : client.Valid server)
    (nonzero : client.select.sequence ≠ 0 ∧ client.offer.sequence ≠ 0)
    (found : (run server cache before).shared.pool[i]? = some c)
    (opened : (run server cache before).shared.isCurrent i = true)
    (nothing : ∀ packet message,
      .received i packet message ∉ (run server cache before).shared.trace)
    (attended : (program server).along (attends i) (run server cache before) after = true)
    (sends : ∀ packet message,
      .received i packet message ∈ (run server cache (before ++ after)).shared.trace →
      client.Sends message) :
    (startsOf (run server cache (before ++ after)).shared.negotiations i = [] ∨
      startsOf (run server cache (before ++ after)).shared.negotiations i = [client.remote]) ∧
    (startsOf (run server cache (before ++ after)).shared.negotiations i ≠ [] →
      (∃ packet, .received i packet client.select ∈
        (run server cache (before ++ after)).shared.trace) ∧
      ∃ packet, .received i packet client.offer ∈
        (run server cache (before ++ after)).shared.trace) ∧
    (∀ select offer, Carries server c select client.select →
      Carries server c offer client.offer → Delivered server cache before after select →
      Delivered server cache before after offer →
      (∀ t ∈ (run server cache (before ++ after)).threads, t.role.token i = none) →
      startsOf (run server cache (before ++ after)).shared.negotiations i = [client.remote] ∧
      ∃ c', (run server cache (before ++ after)).shared.pool[i]? = some c' ∧
        c'.selectedTransport = client.name ∧ c'.pendingICEOffer = none) ∧
    ∀ c', (run server cache (before ++ after)).shared.pool[i]? = some c' →
      c'.selectedTransport ≠ [] → ∀ later, ∃ c'',
        (run server cache (before ++ after ++ later)).shared.pool[i]? = some c'' ∧
          c''.selectedTransport = c'.selectedTransport := by
  obtain ⟨σ, ω, meets⟩ := run_meets valid opened nothing attended fun packet message logged =>
    (sends packet message logged).sorts
  refine ⟨?_, fun started => ?_, fun select offer selects offers first second idle => ?_,
    fun c' found' chosen later => ?_⟩
  · rw [show (run server cache (before ++ after)).shared.negotiations =
      (run server cache (before ++ after)).shared.world.negotiations from rfl, meets.starts]
    cases ω <;> simp [OfferPhase.starts]
  · rw [show (run server cache (before ++ after)).shared.negotiations =
      (run server cache (before ++ after)).shared.world.negotiations from rfl, meets.starts]
      at started
    have agree := meets.agree
    refine ⟨mem_receipts.mp (meets.select.mpr ?_), mem_receipts.mp (meets.offer.mpr ?_)⟩
    · rintro rfl
      cases ω <;> simp [OfferPhase.starts, Agree] at started agree
    · rintro rfl
      simp [OfferPhase.starts] at started
  · have selected := first.received found selects nonzero.1 attended fun packet other logged =>
      (sends packet other logged).select
    have offered := second.received found offers nonzero.2 attended fun packet other logged =>
      (sends packet other logged).offer
    obtain ⟨rfl, rfl⟩ := meets.met (mem_receipts.mpr selected) (mem_receipts.mpr offered)
      fun v member => by
        obtain ⟨t, inside, rfl⟩ := List.mem_map.mp member
        exact idle t inside
    obtain ⟨st, present, chosen, stored⟩ := meets.standing
    obtain ⟨c', found', rfl⟩ : ∃ c', _ ∧ Connection.standing c' = st := by
      simpa [Shared.world] using present
    exact ⟨meets.starts, c', found', chosen, stored⟩
  · obtain ⟨_, st, present, same⟩ := run_chosen server cache (before ++ after) later
      ⟨chosen, c'.standing, world_found found', rfl⟩
    obtain ⟨c'', found'', rfl⟩ : ∃ c'', _ ∧ Connection.standing c'' = st := by
      simpa [Shared.world, -List.append_assoc] using present
    exact ⟨c'', found'', same⟩

instance (message other : Message) : Decidable (Leaves message other) :=
  inferInstanceAs (Decidable (_ ∧ _))

instance (client : Client) (message : Message) : Decidable (client.Sorts message) :=
  inferInstanceAs (Decidable (_ ∧ _))

def Event.accepted : Event → Option (Nat × Message)
  | .received i _ message => some (i, message)
  | _ => none

def Thread.isFinished : Thread → Bool
  | .finished => true
  | _ => false

theorem Thread.isFinished_any {found : Option Thread} (finished : found.any (·.isFinished) = true) :
    found = some .finished := by
  obtain ⟨t, rfl, returned⟩ := (Option.any_eq_true ..).mp finished
  cases t <;> first | rfl | cases returned

namespace Sample

def station : Client where
  select := select
  offer := offer
  name := str "quic"
  remote := ⟨str "u", str "p", [str "c"]⟩

def large : Message :=
  message .iceOffer 2
    { iceUsername := str "u", icePassword := str "p", iceCandidates := List.replicate 129 [] }

def carries (c : Connection) (data : Bytes) (message : Message) : Bool :=
  ((({} : Codec).decodeMessageHeader Plain.primitives data).toOption.any fun header =>
    header.targetId = Plain.server.serverId && header.sourceId = c.sourceId) &&
  decide ((c.codec.receiveCodec.decodeMessage Plain.primitives data).toOption = some message)

theorem Carries.of_check {message : Message} (check : carries c data message = true) :
    Carries Plain.server c data message := by
  simp only [carries, Bool.and_eq_true, decide_eq_true_eq, Option.any_eq_true] at check
  obtain ⟨⟨header, decoded, target, source⟩, authentic⟩ := check
  refine ⟨⟨header, ?_, target, source⟩, ?_⟩
  · generalize ({} : Codec).decodeMessageHeader Plain.primitives data = result at decoded ⊢
    cases result <;> simp_all [Except.toOption]
  · generalize c.codec.receiveCodec.decodeMessage Plain.primitives data = result at authentic ⊢
    cases result <;> simp_all [Except.toOption]

def exceeded : List Action :=
  [.event (.offer (packet select)), .event (.offer (packet large))] ++ goes 1 5 ++ goes 2 4

def met : List Action :=
  [.event (.offer (packet offer)), .event (.offer (packet select)),
    .event (.offer (packet offer))] ++ goes 1 4 ++ goes 2 5 ++ goes 3 4

end Sample

theorem offer_meets_choice_sample :
    startsOf (run Plain.server Plain.nonces (Sample.greeted ++ Sample.met)).shared.negotiations 0 =
      [Sample.station.remote] := by
  have evaluated :
      (((run Plain.server Plain.nonces Sample.greeted).shared.pool[0]?.any fun c =>
        Sample.carries c (Sample.packet Sample.select) Sample.station.select &&
        Sample.carries c (Sample.packet Sample.offer) Sample.station.offer) = true ∧
      (run Plain.server Plain.nonces Sample.greeted).shared.isCurrent 0 = true ∧
      (run Plain.server Plain.nonces Sample.greeted).shared.trace.all (·.accepted.isNone) = true ∧
      (program Plain.server).along (attends 0) (run Plain.server Plain.nonces Sample.greeted)
        Sample.met = true) ∧
      ((run Plain.server Plain.nonces (Sample.greeted ++ Sample.met)).shared.trace.all fun
        | .received _ _ message =>
          decide (message = Sample.station.select ∨ message = Sample.station.offer)
        | _ => true) = true ∧
      ((run Plain.server Plain.nonces (Sample.greeted ++ Sample.met)).threads.all fun t =>
        decide (t.role.token 0 = none)) = true ∧
      (run Plain.server Plain.nonces (Sample.greeted ++ Sample.met)).threads[
        (run Plain.server Plain.nonces (Sample.greeted ++
          [.event (.offer (Sample.packet Sample.offer))])).threads.length]?.any
            (·.isFinished) = true ∧
      (run Plain.server Plain.nonces (Sample.greeted ++ Sample.met)).threads[
        (run Plain.server Plain.nonces (Sample.greeted ++ [])).threads.length]?.any
          (·.isFinished) = true := by
    decide +kernel
  have valid : Sample.station.Valid Plain.server := by
    refine ⟨⟨?_, ?_, ?_, ?_⟩, ⟨?_, ?_, ?_, ?_, ?_⟩⟩ <;> decide +kernel
  have sends : Sample.station.Sends Sample.station.select ∧
      Sample.station.Sends Sample.station.offer := by
    refine ⟨⟨?_, ?_, ?_⟩, ⟨?_, ?_, ?_⟩⟩ <;> decide +kernel
  have nonzero : Sample.station.select.sequence ≠ 0 ∧ Sample.station.offer.sequence ≠ 0 := by
    decide +kernel
  obtain ⟨⟨checked, opened, nothing, attended⟩, sent, idle, selected, offered⟩ := evaluated
  obtain ⟨c, found, checked⟩ := (Option.any_eq_true ..).mp checked
  rw [Bool.and_eq_true] at checked
  have first : Delivered Plain.server Plain.nonces Sample.greeted Sample.met
      (Sample.packet Sample.select) :=
    ⟨[.event (.offer (Sample.packet Sample.offer))],
      .event (.offer (Sample.packet Sample.offer)) :: (Sample.goes 1 4 ++
        Sample.goes 2 5 ++ Sample.goes 3 4), by simp [Sample.met], Thread.isFinished_any selected⟩
  have second : Delivered Plain.server Plain.nonces Sample.greeted Sample.met
      (Sample.packet Sample.offer) :=
    ⟨[], .event (.offer (Sample.packet Sample.select)) ::
      .event (.offer (Sample.packet Sample.offer)) :: (Sample.goes 1 4 ++
        Sample.goes 2 5 ++ Sample.goes 3 4), by simp [Sample.met], Thread.isFinished_any offered⟩
  refine ((offer_meets_choice Plain.server Plain.nonces Sample.greeted Sample.met 0 c
    Sample.station valid nonzero found opened ?_ attended ?_).2.2.1 (Sample.packet Sample.select)
    (Sample.packet Sample.offer) (Sample.Carries.of_check checked.1)
    (Sample.Carries.of_check checked.2) first second ?_).1
  · intro packet message logged
    simpa [Event.accepted] using List.all_eq_true.mp nothing _ logged
  · intro packet message logged
    have sent := List.all_eq_true.mp sent _ logged
    simp only [decide_eq_true_eq] at sent
    rcases sent with rfl | rfl
    · exact sends.1
    · exact sends.2
  · intro t member
    exact of_decide_eq_true (List.all_eq_true.mp idle t member)

/-- An offer beyond `MaxPendingICE` is accepted and not used: the choice and the
offer were both delivered, all handlers have returned, and nothing was started. -/
theorem large_offer_ignored :
    (∃ c, (run Plain.server Plain.nonces Sample.greeted).shared.pool[0]? = some c ∧
      Carries Plain.server c (Sample.packet Sample.select) Sample.select ∧
      Carries Plain.server c (Sample.packet Sample.large) Sample.large) ∧
    (program Plain.server).along (attends 0) (run Plain.server Plain.nonces Sample.greeted)
      Sample.exceeded = true ∧
    (run Plain.server Plain.nonces (Sample.greeted ++ Sample.exceeded)).threads.all
      (·.isFinished) = true ∧
    (run Plain.server Plain.nonces (Sample.greeted ++ Sample.exceeded)).shared.trace.map
      Event.accepted = [none, some (0, Sample.select), some (0, Sample.large)] ∧
    startsOf (run Plain.server Plain.nonces
      (Sample.greeted ++ Sample.exceeded)).shared.negotiations 0 = [] := by
  -- The handshake is evaluated once for all parts.
  suffices evaluated :
      ((run Plain.server Plain.nonces Sample.greeted).shared.pool[0]?.any fun c =>
        Sample.carries c (Sample.packet Sample.select) Sample.select &&
        Sample.carries c (Sample.packet Sample.large) Sample.large) = true ∧ _ by
    obtain ⟨c, found, checked⟩ := (Option.any_eq_true ..).mp evaluated.1
    rw [Bool.and_eq_true] at checked
    exact ⟨⟨c, found, Sample.Carries.of_check checked.1, Sample.Carries.of_check checked.2⟩,
      evaluated.2⟩
  decide +kernel

end Run

end Telekit.ServerMachine
