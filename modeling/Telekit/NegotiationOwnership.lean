import Telekit.HandshakeAgreement
import Telekit.Library.Custody
import Telekit.Negotiation

/-! Who owns the agents and data transports of a negotiation. A connection
installs one agent and one transport in its life, the transport over that agent
and for the name it chose first. Every agent and every transport is in the hands
of the thread that made it, installed, or in the hands of the one call of `Close`
that took it out; whoever lets go of one closes it. -/

namespace Telekit

structure Standing.Evolves (a b : Standing) : Prop where
  closed : a.closed = true → b.closed = true
  chosen : a.selectedTransport ≠ [] → b.selectedTransport = a.selectedTransport
  agent : ∀ agent, a.iceAgent = some agent → b.iceAgent = some agent ∨ b.closed = true
  transport : ∀ transport, a.transportConn = some transport →
    b.transportConn = some transport ∨ b.closed = true
  vacant : a.closed = true → a.iceAgent = none ∧ a.transportConn = none →
    b.iceAgent = none ∧ b.transportConn = none

namespace Standing.Evolves
variable {a b c : Standing}

theorem refl (a : Standing) : a.Evolves a :=
  ⟨id, fun _ => rfl, fun _ => .inl, fun _ => .inl, fun _ => id⟩

theorem trans (first : a.Evolves b) (second : b.Evolves c) : a.Evolves c where
  closed closed := second.closed (first.closed closed)
  chosen chosen := by
    have same := first.chosen chosen
    rw [second.chosen (by rw [same]; exact chosen), same]
  agent agent has := (first.agent agent has).elim (second.agent agent) fun closed =>
    .inr (second.closed closed)
  transport transport has := (first.transport transport has).elim (second.transport transport)
    fun closed => .inr (second.closed closed)
  vacant closed vacant := second.vacant (first.closed closed) (first.vacant closed vacant)

end Standing.Evolves

structure Phase where
  closed : Bool := false
  entered : Bool := false
  done : Bool := false

def Standing.phase (st : Standing) : Phase := ⟨st.closed, st.closeEntered, st.closeDone⟩

namespace ServerMachine

namespace World
variable {w w' w'' : World}

@[simp] theorem modify_negotiations (i : Nat) (f : Standing → Standing) :
    (w.modify i f).negotiations = w.negotiations := rfl

theorem modify_found {i j : Nat} {st : Standing} (f : Standing → Standing)
    (found : w.standings[j]? = some st) :
    (w.modify i f).standings[j]? = some (if i = j then f st else st) := by
  simp [modify, List.getElem?_modify, found]

section Slot
variable {field : Standing → Option Nat}

theorem slot_eq {i : Nat} {st : Standing} (found : w.standings[i]? = some st) :
    w.slot field i = field st := by
  simp [slot, found]

/-- A reading of single standings does not see a change that keeps what it reads. -/
theorem read_modify {β : Type} (read : Option Standing → β) (i : Nat) {f : Standing → Standing}
    (same : ∀ st, read (some (f st)) = read (some st)) :
    (fun j : Nat => read (w.modify i f).standings[j]?) = fun j => read w.standings[j]? := by
  funext j
  cases found : w.standings[j]? with
  | none => simp [modify, List.getElem?_modify, found]
  | some st =>
    rw [modify_found f found]
    by_cases ij : i = j <;> simp [ij, same]

theorem read_create {β : Type} (read : Option Standing → β) {sourceId : GoString} {codec : Codec}
    (empty : read (some { sourceId := sourceId, receiveCodec := codec }) = read none) :
    (fun j : Nat => read (w.create sourceId codec).standings[j]?) =
      fun j => read w.standings[j]? := by
  funext j
  unfold create
  by_cases inside : j < w.standings.length
  · rw [List.getElem?_append_left inside]
  · rw [List.getElem?_eq_none (Nat.le_of_not_lt inside), List.getElem?_append_right (by omega)]
    cases j - w.standings.length with
    | zero => exact empty
    | succ k => rfl

theorem slot_modify (i : Nat) {f : Standing → Standing} (same : ∀ st, field (f st) = field st) :
    (w.modify i f).slot field = w.slot field := read_modify (·.bind field) i same

theorem slot_update {i : Nat} {f : Standing → Standing} {value : Option Nat}
    (written : ∀ st, field (f st) = value) (present : w.standings[i]? ≠ none ∨ value = none) :
    (w.modify i f).slot field = Function.update (w.slot field) i value := by
  funext j
  by_cases ij : j = i
  · subst ij
    rw [Function.update_self]
    unfold slot
    cases found : w.standings[j]? with
    | none => simp [modify, found, present.resolve_left (by simp [found])]
    | some st => simp [modify_found f found, written]
  · rw [Function.update_of_ne ij]
    simp [slot, modify, Ne.symm ij]

theorem slot_create {sourceId : GoString} {codec : Codec}
    (empty : field { sourceId := sourceId, receiveCodec := codec } = none) :
    (w.create sourceId codec).slot field = w.slot field := read_create (·.bind field) empty

theorem slot_leave (i : Nat) (transport agent : Option Nat)
    (same : ∀ st, field (Standing.finish st) = field st) :
    ((w.closeTaken transport agent).modify i Standing.finish).slot field = w.slot field := by
  rw [slot_modify i same]
  cases transport <;> cases agent <;> rfl

end Slot

def keyOf (w : World) (transport : Nat) : Option (Nat × Nat × GoString) :=
  w.transports[transport]?.map fun t => (t.owner, t.agent, t.name)

structure Evolves (w w' : World) : Prop where
  standings : ∀ (i : Nat) st, w.standings[i]? = some st →
    ∃ st', w'.standings[i]? = some st' ∧ st.Evolves st'
  keys : ∀ transport key, w.keyOf transport = some key → w'.keyOf transport = some key
  negotiations : w.negotiations ⊆ w'.negotiations

namespace Evolves

theorem refl (w : World) : w.Evolves w :=
  ⟨fun _ st found => ⟨st, found, .refl st⟩, fun _ _ => id, List.Subset.refl _⟩

theorem trans (first : w.Evolves w') (second : w'.Evolves w'') : w.Evolves w'' where
  standings i st found := by
    obtain ⟨st', found', step⟩ := first.standings i st found
    obtain ⟨st'', found'', step'⟩ := second.standings i st' found'
    exact ⟨st'', found'', step.trans step'⟩
  keys transport key has := second.keys transport key (first.keys transport key has)
  negotiations := List.Subset.trans first.negotiations second.negotiations

theorem modify {i : Nat} {f : Standing → Standing}
    (step : ∀ st, w.standings[i]? = some st → st.Evolves (f st)) : w.Evolves (w.modify i f) := by
  refine ⟨fun j st found => ⟨_, modify_found f found, ?_⟩, fun _ _ => id, List.Subset.refl _⟩
  split_ifs with same
  · exact step st (same ▸ found)
  · exact .refl st

theorem note (w : World) (negotiation : Negotiation) : w.Evolves (w.note negotiation) :=
  ⟨fun _ st found => ⟨st, found, .refl st⟩, fun _ _ => id, List.subset_append_left _ _⟩

theorem closeAgent (w : World) (agent : Nat) : w.Evolves (w.closeAgent agent) :=
  ⟨fun _ st found => ⟨st, found, .refl st⟩, fun _ _ => id, List.Subset.refl _⟩

theorem closeTransport (w : World) (transport : Nat) : w.Evolves (w.closeTransport transport) := by
  refine ⟨fun _ st found => ⟨st, found, .refl st⟩, fun other key has => ?_, List.Subset.refl _⟩
  simp only [keyOf, World.closeTransport, List.getElem?_modify] at has ⊢
  cases found : w.transports[other]? with
  | none => simp [found] at has
  | some t =>
    rw [found] at has
    by_cases same : transport = other <;> simpa [same] using has

theorem closeTaken (w : World) (transport agent : Option Nat) :
    w.Evolves (w.closeTaken transport agent) := by
  have closed : ∀ w : World, w.Evolves (agent.elim w w.closeAgent) := by
    intro w
    cases agent with
    | none => exact .refl w
    | some agent => exact closeAgent w agent
  cases transport with
  | none => exact closed w
  | some transport => exact (closeTransport w transport).trans (closed _)

end Evolves

end World

def Chosen (w : World) (i : Nat) (name : GoString) : Prop :=
  name ≠ [] ∧ ∃ st, w.standings[i]? = some st ∧ st.selectedTransport = name

def Closed (w : World) (i : Nat) : Prop := ∃ st, w.standings[i]? = some st ∧ st.closed = true

/-- Nothing is installed any more, and nothing will be. -/
def Vacated (w : World) (i : Nat) : Prop :=
  ∃ st, w.standings[i]? = some st ∧ st.closed = true ∧
    st.iceAgent = none ∧ st.transportConn = none

def Role.Sound (w : World) : Role → Prop
  | .closing i | .inside i => Closed w i
  | .leaving i _ _ => Vacated w i
  | .named i name | .made i name _ => Chosen w i name
  | .owns i name agent => Chosen w i name ∧ .agentInstalled i agent ∈ w.negotiations
  | .dialled i name agent transport => Chosen w i name ∧
    .agentInstalled i agent ∈ w.negotiations ∧ w.keyOf transport = some (i, agent, name)
  | _ => True

section Soundness
variable {P : Primitives} {server : Server P} {current : Nat → Bool} {w w' : World} {v v' : Role}
  {spawned : List Role}

variable {i : Nat}

theorem Chosen.mono {name : GoString} (chosen : Chosen w i name) (evolves : w.Evolves w') :
    Chosen w' i name := by
  obtain ⟨named, st, found, same⟩ := chosen
  obtain ⟨st', found', step⟩ := evolves.standings i st found
  exact ⟨named, st', found', by rw [step.chosen (same ▸ named), same]⟩

theorem Closed.mono (closed : Closed w i) (evolves : w.Evolves w') : Closed w' i := by
  obtain ⟨st, found, closed⟩ := closed
  obtain ⟨st', found', step⟩ := evolves.standings i st found
  exact ⟨st', found', step.closed closed⟩

theorem Vacated.mono (vacated : Vacated w i) (evolves : w.Evolves w') : Vacated w' i := by
  obtain ⟨st, found, closed, vacant⟩ := vacated
  obtain ⟨st', found', step⟩ := evolves.standings i st found
  exact ⟨st', found', step.closed closed, step.vacant closed vacant⟩

theorem Role.Sound.mono (sound : v.Sound w) (evolves : w.Evolves w') : v.Sound w' := by
  cases v with
  | closing | inside => exact Closed.mono sound evolves
  | leaving i transport agent => exact Vacated.mono sound evolves
  | named | made => exact Chosen.mono sound evolves
  | owns i name agent => exact ⟨sound.1.mono evolves, evolves.negotiations sound.2⟩
  | dialled i name agent transport =>
    exact ⟨sound.1.mono evolves, evolves.negotiations sound.2.1, evolves.keys _ _ sound.2.2⟩
  | _ => trivial

theorem judge_sound (i : Nat) (message : Message) : (judge server i message).Sound w := by
  rcases judge_cases server i message with same | ⟨_, _, same⟩ | ⟨_, _, same⟩ <;> rw [same] <;>
    trivial

theorem Transition.evolves (moved : Transition server current w v w' v' spawned)
    (sound : v.Sound w) : w.Evolves w' := by
  cases moved with
  | keeps | returns | waits | judges | drops | skips | misses | names => exact .refl w
  | creates =>
    refine ⟨fun i st found => ⟨st, ?_, .refl st⟩, fun _ _ => id, List.Subset.refl _⟩
    unfold World.create
    rw [List.getElem?_append_left (List.getElem?_eq_some_iff.mp found).1, found]
  | stores found =>
    exact .modify fun st _ => ⟨fun _ => rfl, fun _ => rfl, fun _ _ => .inr rfl,
      fun _ _ => .inr rfl, fun _ => id⟩
  | enters | stows =>
    exact .modify fun st _ => ⟨id, fun _ => rfl, fun _ => .inl, fun _ => .inl, fun _ => id⟩
  | clears i =>
    obtain ⟨st, found, closed⟩ := sound
    refine .modify fun st' found' => ?_
    rw [found] at found'
    cases found'
    exact ⟨id, fun _ => rfl, fun _ _ => .inr closed, fun _ _ => .inr closed, fun _ _ => ⟨rfl, rfl⟩⟩
  | leaves i transport agent =>
    refine (World.Evolves.closeTaken w transport agent).trans (.modify fun st _ => ?_)
    exact ⟨id, fun _ => rfl, fun _ => .inl, fun _ => .inl, fun _ => id⟩
  | receives | makes =>
    exact ⟨fun _ st found => ⟨st, found, .refl st⟩, fun _ _ => id, List.Subset.refl _⟩
  | selects i name =>
    refine .modify fun st _ => ?_
    unfold Standing.choose
    split_ifs with unchosen
    · exact ⟨id, fun chosen => absurd unchosen.2 chosen, fun _ => .inl, fun _ => .inl, fun _ => id⟩
    · exact .refl st
  | takes =>
    refine .trans (.modify fun st _ => ?_) (.note _ _)
    exact ⟨id, fun _ => rfl, fun _ => .inl, fun _ => .inl, fun _ => id⟩
  | starts => exact .note w _
  | installs found opened vacant =>
    refine .trans (.modify fun st found' => ?_) (.note _ _)
    rw [found] at found'
    cases found'
    refine ⟨id, fun _ => rfl, fun agent has => ?_, fun _ => .inl, fun closed => ?_⟩
    · rw [vacant] at has
      cases has
    · rw [opened] at closed
      cases closed
  | refuses i name agent => exact .closeAgent w agent
  | discards i name agent => exact .closeAgent w agent
  | dials i name agent =>
    refine ⟨fun _ st found => ⟨st, found, .refl st⟩, fun transport key has => ?_,
      List.Subset.refl _⟩
    unfold World.keyOf at has ⊢
    cases found : w.transports[transport]? with
    | none => simp [found] at has
    | some t =>
      rw [List.getElem?_append_left (List.getElem?_eq_some_iff.mp found).1, found]
      rwa [found] at has
  | attaches found opened owned vacant =>
    refine .trans (.modify fun st found' => ?_) (.note _ _)
    rw [found] at found'
    cases found'
    refine ⟨id, fun _ => rfl, fun _ => .inl, fun transport has => ?_, fun closed => ?_⟩
    · rw [vacant] at has
      cases has
    · rw [opened] at closed
      cases closed
  | rejects i name agent transport => exact .closeTransport w transport

theorem Transition.sound (moved : Transition server current w v w' v' spawned)
    (sound : v.Sound w) : v'.Sound w' := by
  have evolves := moved.evolves sound
  cases moved with
  | keeps | makes => exact sound
  | stores found =>
    obtain ⟨st', found', step⟩ := evolves.standings _ _ found
    exact ⟨_, World.modify_found _ found, by simp [Standing.shut]⟩
  | enters => exact Closed.mono sound evolves
  | clears i =>
    obtain ⟨st, found, closed⟩ := sound
    refine ⟨_, World.modify_found _ found, ?_⟩
    rw [if_pos rfl]
    exact ⟨closed, rfl, rfl⟩
  | receives goes =>
    rcases goes with rfl | ⟨_, rfl⟩ <;> trivial
  | judges => exact judge_sound _ _
  | names found chosen => exact ⟨chosen, _, found, rfl⟩
  | installs => exact ⟨Chosen.mono sound evolves, by simp [World.note]⟩
  | dials i name agent =>
    refine ⟨sound.1.mono evolves, sound.2, ?_⟩
    simp [World.keyOf]
  | _ => trivial

/-- What a connection owns: its agents and its data transports. -/
inductive Kind
  | agent
  | transport

namespace Kind

def field : Kind → Standing → Option Nat
  | .agent => Standing.iceAgent
  | .transport => Standing.transportConn

def pick (transports agents : Option Nat) : Kind → Option Nat
  | .agent => agents
  | .transport => transports

def resources (w : World) : Kind → List Custody.Resource
  | .agent => w.agents.map fun a => ⟨a.owner, a.closed⟩
  | .transport => w.transports.map fun t => ⟨t.owner, t.closed⟩

def inHand (kind : Kind) : Role → Custody.Hands
  | .made i _ a => (kind.pick none (some a)).map fun r => (i, r)
  | .dialled i _ _ d => (kind.pick (some d) none).map fun r => (i, r)
  | .leaving i d a => (kind.pick d a).map fun r => (i, r)
  | _ => none

def Kept (kind : Kind) (w : World) (roles : List Role) : Prop :=
  Custody.Kept (kind.resources w) (w.slot kind.field) (roles.map kind.inHand)

variable {kind : Kind}

theorem same_resources (agents : w'.agents = w.agents) (transports : w'.transports = w.transports) :
    kind.resources w' = kind.resources w := by
  cases kind <;> simp only [resources, agents, transports]

theorem closeAgent_resources (w : World) (agent : Nat) : resources (w.closeAgent agent) .agent =
    (resources w .agent).modify agent fun a => { a with closed := true } :=
  Custody.map_close _ (fun _ => rfl) w.agents agent

theorem closeTransport_resources (w : World) (transport : Nat) :
    resources (w.closeTransport transport) .transport =
      (resources w .transport).modify transport fun t => { t with closed := true } :=
  Custody.map_close _ (fun _ => rfl) w.transports transport

theorem closeTaken_resources (w : World) (transport agent : Option Nat) :
    kind.resources (w.closeTaken transport agent) = (kind.pick transport agent).elim
      (kind.resources w) fun r => (kind.resources w).modify r fun a => { a with closed := true } := by
  cases kind with
  | agent => cases transport <;> cases agent <;> first | rfl | exact closeAgent_resources _ _
  | transport => cases agent <;> cases transport <;> first | rfl | exact closeTransport_resources _ _

theorem judge_inHand (i : Nat) (message : Message) : kind.inHand (judge server i message) = none := by
  rcases judge_cases server i message with same | ⟨_, _, same⟩ | ⟨_, _, same⟩ <;> rw [same] <;> rfl

section Steps
variable {roles : List Role} {n : Nat}

theorem party (kind : Kind) (running : roles[n]? = some v) :
    (roles.map kind.inHand)[n]? = some (kind.inHand v) := by
  rw [List.getElem?_map, running, Option.map_some]

theorem Kept.rest (kept : kind.Kept w roles) (running : roles[n]? = some v)
    (resources : kind.resources w' = kind.resources w)
    (slot : w'.slot kind.field = w.slot kind.field) (hand : kind.inHand v' = kind.inHand v) :
    kind.Kept w' (roles.set n v' ++ spawned) := by
  unfold Kept
  rw [resources, slot, List.map_append, List.map_set, hand]
  exact Custody.Kept.rest kept (kind.party running)

theorem Kept.close (kept : kind.Kept w roles) (running : roles[n]? = some v) {r : Nat}
    (own : ∀ i held, kind.inHand v = some (i, held) → held = r)
    (closed : kind.resources w' = (kind.resources w).modify r fun a => { a with closed := true })
    (slot : w'.slot kind.field = w.slot kind.field) :
    kind.Kept w' (roles.set n .idle ++ spawned) := by
  unfold Kept
  rw [closed, slot, List.map_append, List.map_set]
  exact Custody.Kept.close kept (kind.party running) own

theorem Kept.leaves (kept : kind.Kept w roles) {transport agent : Option Nat}
    (running : roles[n]? = some (.leaving i transport agent)) :
    kind.Kept ((w.closeTaken transport agent).modify i Standing.finish)
      (roles.set n .idle ++ spawned) := by
  have slot : ((w.closeTaken transport agent).modify i Standing.finish).slot kind.field =
      w.slot kind.field := World.slot_leave i transport agent fun _ => by cases kind <;> rfl
  have closed := kind.closeTaken_resources w transport agent
  cases taken : kind.pick transport agent with
  | none =>
    rw [taken] at closed
    exact kept.rest running closed slot (by simp [inHand, taken])
  | some r =>
    rw [taken] at closed
    refine kept.close running (fun j held hands => ?_) closed slot
    simp only [inHand, taken, Option.map_some, Option.some.injEq, Prod.mk.injEq] at hands
    exact hands.2.symm

theorem Kept.makes (kept : kind.Kept w roles) (running : roles[n]? = some v) (i : Nat)
    (empty : kind.inHand v = none) (more : kind.resources w' = kind.resources w ++ [⟨i, false⟩])
    (slot : w'.slot kind.field = w.slot kind.field)
    (hand : kind.inHand v' = some (i, (kind.resources w).length)) :
    kind.Kept w' (roles.set n v' ++ spawned) := by
  unfold Kept
  rw [more, slot, List.map_append, List.map_set, hand]
  exact Custody.Kept.make kept (empty ▸ kind.party running) i

theorem Kept.installs (kept : kind.Kept w roles) (running : roles[n]? = some v) {r : Nat}
    {st : Standing} (found : w.standings[i]? = some st) (vacant : kind.field st = none)
    (holds : kind.inHand v = some (i, r)) (empty : kind.inHand v' = none)
    {f : Standing → Standing} (put : ∀ st, kind.field (f st) = some r)
    (resources : kind.resources w' = kind.resources w)
    (slot : w'.slot kind.field = (w.modify i f).slot kind.field) :
    kind.Kept w' (roles.set n v' ++ spawned) := by
  unfold Kept
  rw [resources, List.map_append, List.map_set, empty]
  exact Custody.Kept.install kept (holds ▸ kind.party running)
    (by rw [World.slot_eq found, vacant])
    (slot.trans (World.slot_update put (.inl (by simp [found]))))

theorem Kept.transition (kept : kind.Kept w roles) (running : roles[n]? = some v)
    (moved : Transition server current w v w' v' spawned) :
    kind.Kept w' (roles.set n v' ++ spawned) := by
  cases moved with
  | keeps | waits | drops | skips | misses | names | starts =>
    exact kept.rest running (same_resources rfl rfl) rfl rfl
  | returns v returns =>
    refine kept.rest running rfl rfl ?_
    cases v <;> first | rfl | cases returns
  | creates =>
    exact kept.rest running (same_resources rfl rfl) (World.slot_create (by cases kind <;> rfl)) rfl
  | stores | enters | takes | stows =>
    exact kept.rest running (same_resources rfl rfl)
      (World.slot_modify _ fun _ => by cases kind <;> rfl) rfl
  | clears i =>
    have hand : kind.inHand (.leaving i (w.slot Standing.transportConn i)
        (w.slot Standing.iceAgent i)) = (w.slot kind.field i).map fun r => (i, r) := by
      cases kind <;> rfl
    unfold Kept
    rw [List.map_append, List.map_set, hand]
    exact Custody.Kept.take (same_resources (w := w) rfl rfl ▸ kept) (kind.party running) i
      (World.slot_update (fun _ => by cases kind <;> rfl) (.inr rfl))
  | leaves => exact kept.leaves running
  | receives goes =>
    refine kept.rest running (same_resources rfl rfl) rfl ?_
    rcases goes with rfl | ⟨_, rfl⟩ <;> rfl
  | judges => exact kept.rest running rfl rfl (judge_inHand _ _)
  | selects i name =>
    refine kept.rest running (same_resources rfl rfl) (World.slot_modify i fun st => ?_) rfl
    unfold Standing.choose
    split_ifs <;> cases kind <;> rfl
  | makes i name =>
    cases kind with
    | agent =>
      refine kept.makes running i rfl List.map_append rfl ?_
      simp [inHand, pick, resources]
    | transport => exact kept.rest running rfl rfl rfl
  | dials i name agent =>
    cases kind with
    | agent => exact kept.rest running rfl rfl rfl
    | transport =>
      refine kept.makes running i rfl List.map_append rfl ?_
      simp [inHand, pick, resources]
  | installs found opened vacant =>
    cases kind with
    | agent => exact kept.installs running found vacant rfl rfl (fun _ => rfl) rfl rfl
    | transport => exact kept.rest running rfl (World.slot_modify _ fun _ => rfl) rfl
  | attaches found opened owned vacant =>
    cases kind with
    | agent => exact kept.rest running rfl (World.slot_modify _ fun _ => rfl) rfl
    | transport => exact kept.installs running found vacant rfl rfl (fun _ => rfl) rfl rfl
  | refuses i name agent =>
    cases kind with
    | agent =>
      exact kept.close running (fun _ _ hands => by cases hands; rfl) (closeAgent_resources w agent)
        rfl
    | transport => exact kept.rest running rfl rfl rfl
  | discards i name agent =>
    cases kind with
    | agent =>
      exact kept.close running (fun _ _ hands => by cases hands) (closeAgent_resources w agent) rfl
    | transport => exact kept.rest running rfl rfl rfl
  | rejects i name agent transport =>
    cases kind with
    | agent => exact kept.rest running rfl rfl rfl
    | transport =>
      exact kept.close running (fun _ _ hands => by cases hands; rfl)
        (closeTransport_resources w transport) rfl

end Steps
end Kind

def agentsInstalled (negotiations : List Negotiation) (i : Nat) : List Nat :=
  negotiations.filterMap fun
    | .agentInstalled j agent => if j = i then some agent else none
    | _ => none

def transportsInstalled (negotiations : List Negotiation) (i : Nat) : List Nat :=
  negotiations.filterMap fun
    | .transportInstalled j transport => if j = i then some transport else none
    | _ => none

theorem mem_installed {negotiations : List Negotiation} {select : Negotiation → Option Nat}
    {installed : Nat → Negotiation} (selects : ∀ e r, select e = some r ↔ e = installed r) {r : Nat} :
    r ∈ negotiations.filterMap select ↔ installed r ∈ negotiations := by
  simp only [List.mem_filterMap, selects, exists_eq_right]

theorem mem_agentsInstalled {negotiations : List Negotiation} {agent : Nat} :
    agent ∈ agentsInstalled negotiations i ↔ .agentInstalled i agent ∈ negotiations :=
  mem_installed fun e r => by cases e <;> simp

theorem mem_transportsInstalled {negotiations : List Negotiation} {transport : Nat} :
    transport ∈ transportsInstalled negotiations i ↔
      .transportInstalled i transport ∈ negotiations :=
  mem_installed fun e r => by cases e <;> simp

/-- Nothing was installed yet, or one thing, which stays until the connection is
closed. -/
def Once (w : World) (field : Standing → Option Nat) (installed : List Nat) (i : Nat) : Prop :=
  installed = [] ∨ ∃ r st, installed = [r] ∧ w.standings[i]? = some st ∧
    (field st = some r ∨ st.closed = true)

theorem Once.mono {field : Standing → Option Nat} {installed : List Nat}
    (once : Once w field installed i) (evolves : w.Evolves w')
    (stays : ∀ a b r, Standing.Evolves a b → field a = some r →
      field b = some r ∨ b.closed = true) : Once w' field installed i := by
  rcases once with none | ⟨r, st, one, found, has⟩
  · exact .inl none
  · obtain ⟨st', found', step⟩ := evolves.standings i st found
    refine .inr ⟨r, st', one, found', has.elim (stays st st' r step) fun closed => ?_⟩
    exact .inr (step.closed closed)

variable {st : Standing}

theorem Once.vacant {field : Standing → Option Nat} {installed : List Nat}
    (once : Once w field installed i) (found : w.standings[i]? = some st)
    (opened : st.closed = false) (vacant : field st = none) : installed = [] := by
  rcases once with none | ⟨r, st', _, found', has⟩
  · exact none
  · rw [found] at found'
    cases found'
    rw [vacant, opened] at has
    simp at has

structure Recorded (w : World) : Prop where
  agents : ∀ i, Once w Standing.iceAgent (agentsInstalled w.negotiations i) i
  transports : ∀ i, Once w Standing.transportConn (transportsInstalled w.negotiations i) i
  belongs : ∀ i transport, .transportInstalled i transport ∈ w.negotiations →
    ∃ agent name, w.keyOf transport = some (i, agent, name) ∧
      .agentInstalled i agent ∈ w.negotiations ∧ Chosen w i name

theorem Recorded.mono (recorded : Recorded w) (evolves : w.Evolves w')
    (agents : ∀ i, agentsInstalled w'.negotiations i = agentsInstalled w.negotiations i)
    (transports : ∀ i, transportsInstalled w'.negotiations i =
      transportsInstalled w.negotiations i) : Recorded w' where
  agents i := by
    rw [agents]
    exact (recorded.agents i).mono evolves fun _ _ r step => step.agent r
  transports i := by
    rw [transports]
    exact (recorded.transports i).mono evolves fun _ _ r step => step.transport r
  belongs i transport member := by
    rw [← mem_transportsInstalled, transports, mem_transportsInstalled] at member
    obtain ⟨agent, name, key, installed, chosen⟩ := recorded.belongs i transport member
    exact ⟨agent, name, evolves.keys _ _ key, evolves.negotiations installed, chosen.mono evolves⟩

theorem Recorded.transition (recorded : Recorded w) (sound : v.Sound w)
    (moved : Transition server current w v w' v' spawned) : Recorded w' := by
  have evolves := moved.evolves sound
  cases moved with
  | leaves i transport agent =>
    refine recorded.mono evolves (fun _ => ?_) fun _ => ?_ <;>
      cases transport <;> cases agent <;> rfl
  | takes | starts =>
    refine recorded.mono evolves (fun _ => ?_) fun _ => ?_
    · simp [agentsInstalled, World.note]
    · simp [transportsInstalled, World.note]
  | @installs i name agent st found opened vacant =>
    have present := World.modify_found (i := i) (Standing.carry agent) found
    refine ⟨fun j => ?_, fun j => ?_, fun j transport member => ?_⟩
    · by_cases same : j = i
      · subst same
        have before := (recorded.agents j).vacant found opened vacant
        refine .inr ⟨agent, _, ?_, present, .inl (by simp [Standing.carry])⟩
        simpa [agentsInstalled, World.note] using before
      · have kept := (recorded.agents j).mono evolves fun _ _ r step => step.agent r
        simpa [agentsInstalled, World.note, Ne.symm same] using kept
    · have kept := (recorded.transports j).mono evolves fun _ _ r step => step.transport r
      simpa [transportsInstalled, World.note] using kept
    · have old : .transportInstalled j transport ∈ w.negotiations := by
        simpa [World.note] using member
      obtain ⟨a, n, key, installed, chosen⟩ := recorded.belongs j transport old
      exact ⟨a, n, evolves.keys _ _ key, evolves.negotiations installed, chosen.mono evolves⟩
  | @attaches i name agent transport st found opened owned vacant =>
    have present := World.modify_found (i := i) (Standing.attach transport) found
    refine ⟨fun j => ?_, fun j => ?_, fun j d member => ?_⟩
    · have kept := (recorded.agents j).mono evolves fun _ _ r step => step.agent r
      simpa [agentsInstalled, World.note] using kept
    · by_cases same : j = i
      · subst same
        have before := (recorded.transports j).vacant found opened vacant
        refine .inr ⟨transport, _, ?_, present, .inl (by simp [Standing.attach])⟩
        simpa [transportsInstalled, World.note] using before
      · have kept := (recorded.transports j).mono evolves fun _ _ r step => step.transport r
        simpa [transportsInstalled, World.note, Ne.symm same] using kept
    · simp only [World.note, World.modify_negotiations, List.mem_append, List.mem_singleton,
        Negotiation.transportInstalled.injEq] at member
      rcases member with old | ⟨rfl, rfl⟩
      · obtain ⟨a, n, key, installed, chosen⟩ := recorded.belongs j d old
        exact ⟨a, n, evolves.keys _ _ key, evolves.negotiations installed, chosen.mono evolves⟩
      · obtain ⟨chosen, installed, key⟩ := sound
        exact ⟨agent, name, evolves.keys _ _ key, evolves.negotiations installed,
          chosen.mono evolves⟩
  | _ => exact recorded.mono evolves (fun _ => rfl) fun _ => rfl

def Role.onceOf : Role → Option Nat
  | .inside i | .leaving i _ _ => some i
  | _ => none

def Role.closes : Role → Option Nat
  | .closing i | .inside i | .leaving i _ _ => some i
  | _ => none

def World.phase (w : World) (i : Nat) : Phase := (w.standings[i]?.map Standing.phase).getD {}

namespace World

theorem phase_eq (found : w.standings[i]? = some st) : w.phase i = st.phase := by
  simp [phase, found]

theorem phase_modify (i : Nat) {f : Standing → Standing} (same : ∀ st, (f st).phase = st.phase) :
    (w.modify i f).phase = w.phase := read_modify (fun st => (st.map Standing.phase).getD {}) i same

theorem phase_update (f : Standing → Standing) (found : w.standings[i]? = some st) (j : Nat) :
    (w.modify i f).phase j = if i = j then (f st).phase else w.phase j := by
  by_cases same : i = j
  · subst same
    rw [phase_eq (modify_found f found), if_pos rfl, if_pos rfl]
  · simp [phase, modify, same]

theorem phase_create (sourceId : GoString) (codec : Codec) :
    (w.create sourceId codec).phase = w.phase :=
  read_create (fun st => (st.map Standing.phase).getD {}) rfl

end World

def inside (i : Nat) (v : Role) : Int := if v.onceOf = some i then 1 else 0

theorem inside_nonneg (i : Nat) (v : Role) : 0 ≤ inside i v := by
  unfold inside
  split_ifs <;> decide

/-- The calls of `Close`: one at most is inside, and a closed connection is done
or has a caller. -/
structure Closing (w : World) (roles : List Role) : Prop where
  once : ∀ i, Ledger.total (inside i) roles =
    if (w.phase i).entered && !(w.phase i).done then 1 else 0
  done : ∀ i, (w.phase i).done = true → (w.phase i).entered = true ∧ Vacated w i
  callers : ∀ i, (w.phase i).closed = true → (w.phase i).done = true ∨
    ∃ v ∈ roles, v.closes = some i

section Closing
variable {roles : List Role} {n : Nat}

theorem total_inside (running : roles[n]? = some v) (idle : ∀ u ∈ spawned, u.onceOf = none)
    (i : Nat) : Ledger.total (inside i) (roles.set n v' ++ spawned) =
      Ledger.total (inside i) roles - inside i v + inside i v' :=
  Interleaving.total_step running fun u member => by simp [inside, idle u member]

theorem caller_stays (running : roles[n]? = some v) (caller : ∃ u ∈ roles, u.closes = some i)
    (goes : v.closes = some i → v'.closes = some i) :
    ∃ u ∈ roles.set n v' ++ spawned, u.closes = some i :=
  Interleaving.exists_advance running goes spawned caller

theorem Closing.rest (closing : Closing w roles) (running : roles[n]? = some v)
    (evolves : w.Evolves w') (phase : w'.phase = w.phase) (once : v'.onceOf = v.onceOf)
    (closes : v'.closes = v.closes) (idle : ∀ u ∈ spawned, u.onceOf = none) :
    Closing w' (roles.set n v' ++ spawned) where
  once i := by
    rw [total_inside running idle, phase, ← closing.once i, inside, inside, once]
    omega
  done i finished := by
    rw [phase] at finished ⊢
    exact ⟨(closing.done i finished).1, (closing.done i finished).2.mono evolves⟩
  callers i closed := by
    rw [phase] at closed ⊢
    exact (closing.callers i closed).imp_right fun caller =>
      caller_stays running caller fun own => by rw [closes, own]

theorem closes_of_onceOf (once : v.onceOf = some i) : v.closes = some i := by
  cases v <;> first | exact once | cases once

/-- A step of a call of `Close` for connection `i`, which changes no other connection. -/
theorem Closing.call (closing : Closing w roles) (running : roles[n]? = some v)
    (evolves : w.Evolves w') (elsewhere : ∀ j, i ≠ j → w'.phase j = w.phase j)
    (before : ∀ j, v.closes = some j → i = j) (after : ∀ j, v'.closes = some j → i = j)
    (once : (if (w.phase i).entered && !(w.phase i).done then 1 else 0) - inside i v +
      inside i v' = if (w'.phase i).entered && !(w'.phase i).done then 1 else 0)
    (done : (w'.phase i).done = true → (w'.phase i).entered = true ∧ Vacated w' i)
    (caller : (w'.phase i).done = true ∨ v'.closes = some i) :
    Closing w' (roles.set n v' ++ []) where
  once j := by
    rw [total_inside running (by simp), closing.once j]
    by_cases same : i = j
    · subst same
      exact once
    · have out : inside j v = 0 := if_neg fun own => same (before j (closes_of_onceOf own))
      have out' : inside j v' = 0 := if_neg fun own => same (after j (closes_of_onceOf own))
      rw [elsewhere j same, out, out']
      omega
  done j finished := by
    by_cases same : i = j
    · subst same
      exact done finished
    · rw [elsewhere j same] at finished ⊢
      exact ⟨(closing.done j finished).1, (closing.done j finished).2.mono evolves⟩
  callers j closed := by
    by_cases same : i = j
    · subst same
      exact caller.imp_right fun own => ⟨v', List.mem_append_left _ (List.mem_set
        (List.getElem?_eq_some_iff.mp running).1 _), own⟩
    · rw [elsewhere j same] at closed ⊢
      exact (closing.callers j closed).imp_right fun other =>
        caller_stays running other fun own => absurd (before j own) same

theorem Closing.busy (closing : Closing w roles) (running : roles[n]? = some v)
    (once : v.onceOf = some i) : (w.phase i).entered = true ∧ (w.phase i).done = false := by
  have least := Ledger.le_total (fun u _ => inside_nonneg i u) (List.mem_of_getElem? running)
  rw [closing.once i] at least
  by_contra idle
  rw [if_neg (by simpa using idle)] at least
  simp [inside, once] at least

theorem Closing.unfinished (closing : Closing w roles) (first : (w.phase i).entered = false) :
    (w.phase i).done = false := by
  cases finished : (w.phase i).done with
  | false => rfl
  | true => exact absurd (closing.done i finished).1 (by simp [first])

theorem Closing.stores (closing : Closing w roles) (running : roles[n]? = some .idle)
    (found : w.standings[i]? = some st) (evolves : w.Evolves (w.modify i Standing.shut)) :
    Closing (w.modify i Standing.shut) (roles.set n (.closing i) ++ []) := by
  have phase := World.phase_update Standing.shut found
  have old := closing.done i
  rw [World.phase_eq found] at old
  refine closing.call running evolves (fun j other => by rw [phase, if_neg other])
    (fun _ own => by cases own) (fun _ own => Option.some.inj own) ?_ ?_ (.inr rfl)
  · simp [phase, inside, Role.onceOf, World.phase_eq found, Standing.phase, Standing.shut]
  · rw [phase, if_pos rfl]
    exact fun finished => ⟨(old finished).1, (old finished).2.mono evolves⟩

theorem Closing.enters (closing : Closing w roles) (running : roles[n]? = some (.closing i))
    (found : w.standings[i]? = some st) (first : st.closeEntered = false)
    (evolves : w.Evolves (w.modify i Standing.enter)) :
    Closing (w.modify i Standing.enter) (roles.set n (.inside i) ++ []) := by
  have phase := World.phase_update Standing.enter found
  have unfinished : st.closeDone = false := by
    have := closing.unfinished (i := i) (by rw [World.phase_eq found]; exact first)
    rwa [World.phase_eq found] at this
  refine closing.call running evolves (fun j other => by rw [phase, if_neg other])
    (fun _ own => Option.some.inj own) (fun _ own => Option.some.inj own) ?_ ?_ (.inr rfl)
  · simp [phase, inside, Role.onceOf, World.phase_eq found, Standing.phase, Standing.enter, first,
      unfinished]
  · rw [phase, if_pos rfl, show (Standing.enter st).phase.done = false from unfinished]
    exact fun finished => by cases finished

theorem Closing.leaves (closing : Closing w roles) {transport agent : Option Nat}
    (running : roles[n]? = some (.leaving i transport agent)) (vacated : Vacated w i)
    (evolves : w.Evolves ((w.closeTaken transport agent).modify i Standing.finish)) :
    Closing ((w.closeTaken transport agent).modify i Standing.finish)
      (roles.set n .idle ++ []) := by
  obtain ⟨st, found, _⟩ := id vacated
  have present : (w.closeTaken transport agent).standings[i]? = some st := by
    rw [← found]
    cases transport <;> cases agent <;> rfl
  have same : (w.closeTaken transport agent).phase = w.phase := by
    cases transport <;> cases agent <;> rfl
  have phase := World.phase_update Standing.finish present
  rw [same] at phase
  have busy := closing.busy running rfl
  refine closing.call running evolves (fun j other => by rw [phase, if_neg other])
    (fun _ own => Option.some.inj own) (fun _ own => by cases own) ?_ ?_ (.inl ?_)
  · simp [phase, inside, Role.onceOf, busy, Standing.phase, Standing.finish]
  · rw [World.phase_eq found] at busy
    rw [phase, if_pos rfl]
    exact fun _ => ⟨busy.1, vacated.mono evolves⟩
  · rw [phase, if_pos rfl]
    rfl

theorem judge_closes (i : Nat) (message : Message) :
    (judge server i message).onceOf = none ∧ (judge server i message).closes = none := by
  rcases judge_cases server i message with same | ⟨_, _, same⟩ | ⟨_, _, same⟩ <;> rw [same] <;>
    exact ⟨rfl, rfl⟩

theorem Closing.transition (closing : Closing w roles) (running : roles[n]? = some v)
    (sound : v.Sound w) (moved : Transition server current w v w' v' spawned) :
    Closing w' (roles.set n v' ++ spawned) := by
  have evolves := moved.evolves sound
  have alone : ∀ u ∈ ([] : List Role), u.onceOf = none := by simp
  cases moved with
  | keeps | drops | skips | misses | names | starts | makes | refuses | discards | dials
  | rejects => exact closing.rest running evolves rfl rfl rfl (by simp [Role.onceOf])
  | returns v returns =>
    refine closing.rest running evolves rfl ?_ ?_ alone <;>
      cases v <;> first | rfl | cases returns
  | creates => exact closing.rest running evolves (World.phase_create _ _) rfl rfl alone
  | stores found => exact closing.stores running found evolves
  | enters found first => exact closing.enters running found first evolves
  | @waits i st found finished =>
    refine closing.call running evolves (fun _ _ => rfl) (fun _ own => Option.some.inj own)
      (fun _ own => by cases own) ?_ (closing.done i) (.inl ?_)
    · simp [inside, Role.onceOf]
    · rw [World.phase_eq found]
      exact finished
  | leaves i transport agent => exact closing.leaves running sound evolves
  | receives goes =>
    refine closing.rest running evolves rfl ?_ ?_ alone <;>
      rcases goes with rfl | ⟨_, rfl⟩ <;> rfl
  | judges =>
    exact closing.rest running evolves rfl (judge_closes _ _).1 (judge_closes _ _).2 alone
  | selects i name =>
    refine closing.rest running evolves (World.phase_modify i fun st => ?_) rfl rfl alone
    unfold Standing.choose
    split_ifs <;> rfl
  | takes | clears | stows | installs | attaches =>
    exact closing.rest running evolves (World.phase_modify _ fun _ => rfl) rfl rfl
      (by simp [Role.onceOf])

end Closing

end Soundness

section Run
open Interleaving
variable {P : Primitives} (server : Server P) (cache : Lru.Cache Bytes Int)

def roles (threads : List Thread) : List Role := threads.map Thread.role

structure Owned (w : World) (roles : List Role) : Prop where
  sound : ∀ v ∈ roles, v.Sound w
  recorded : Recorded w
  kept : ∀ kind : Kind, kind.Kept w roles
  closing : Closing w roles

variable {w : World}

variable {server} in
theorem Transition.spawns {current : Nat → Bool} {w' : World} {v v' : Role} {spawned : List Role}
    (moved : Transition server current w v w' v' spawned) : ∀ u ∈ spawned, u.Sound w' := by
  cases moved <;> simp [Role.Sound]

variable {server} in
theorem Owned.transition {current : Nat → Bool} {w' : World} {v v' : Role}
    {others spawned : List Role} {n : Nat} (owned : Owned w others) (running : others[n]? = some v)
    (moved : Transition server current w v w' v' spawned) :
    Owned w' (others.set n v' ++ spawned) := by
  have sound := owned.sound v (List.mem_of_getElem? running)
  have evolves := moved.evolves sound
  refine ⟨fun u member => ?_, owned.recorded.transition sound moved,
    fun kind => (owned.kept kind).transition running moved,
    owned.closing.transition running sound moved⟩
  rcases List.mem_append.mp member with old | new
  · rcases List.mem_or_eq_of_mem_set old with other | rfl
    · exact (owned.sound u other).mono evolves
    · exact moved.sound sound
  · exact moved.spawns u new

theorem Owned.enter {others new : List Role} (owned : Owned w others)
    (idle : ∀ u ∈ new, u = .idle) : Owned w (others ++ new) := by
  refine ⟨fun u member => ?_, owned.recorded, fun kind r owner stays => ?_,
    ⟨fun i => ?_, owned.closing.done, fun i closed => ?_⟩⟩
  · rcases List.mem_append.mp member with old | added
    · exact owned.sound u old
    · rw [idle u added]
      trivial
  · rw [List.map_append]
    exact (owned.kept kind r owner stays).imp_right (List.mem_append_left _)
  · have none : Ledger.total (inside i) new = 0 :=
      Ledger.total_eq_zero fun u member => by simp [inside, idle u member, Role.onceOf]
    rw [Ledger.total_append, none, owned.closing.once i]
    omega
  · exact (owned.closing.callers i closed).imp_right fun ⟨u, member, closes⟩ =>
      ⟨u, List.mem_append_left _ member, closes⟩

theorem Owned.start (cache : Lru.Cache Bytes Int) : Owned (Shared.start cache).world [] := by
  refine ⟨by simp, ⟨fun _ => .inl rfl, fun _ => .inl rfl, ?_⟩, fun kind => ?_, ⟨?_, ?_, ?_⟩⟩
  case refine_2 => cases kind <;> exact fun _ _ stays => by cases stays
  all_goals simp [Shared.start, Shared.world, ServerState.start, World.phase]

theorem run_owned (cache : Lru.Cache Bytes Int) (actions : List Action) :
    Owned (run server cache actions).shared.world (roles (run server cache actions).threads) := by
  refine (program server).run_keeps (fun c => Owned c.shared.world (roles c.threads)) ?_ ?_ actions
  · intro c c' owned moved
    cases moved with
    | stays => exact owned
    | advances running moved =>
      simp only [roles, List.map_append, List.map_set]
      exact owned.transition (by simp [roles, running]) (advance_steps moved).transition
    | occurs happened =>
      obtain ⟨world, idle⟩ := (occur_occurs happened).idle
      simp only [roles, List.map_append, world]
      exact owned.enter (by simpa using idle)
  · exact .start cache

variable {i : Nat}

theorem run_chosen (actions later : List Action) {name : GoString}
    (chosen : Chosen (run server cache actions).shared.world i name) :
    Chosen (run server cache (actions ++ later)).shared.world i name := by
  rw [run, (program server).run_append]
  have kept := (program server).run_keeps (fun c => Owned c.shared.world (roles c.threads) ∧
    Chosen c.shared.world i name) ?_ ⟨run_owned server cache actions, chosen⟩ later
  · exact kept.2
  · intro c c' kept moved
    obtain ⟨owned, chosen⟩ := kept
    cases moved with
    | stays => exact ⟨owned, chosen⟩
    | @advances n choice t t' s' spawned running moved =>
      have running : (roles c.threads)[n]? = some t.role := by simp [roles, running]
      have step := (advance_steps moved).transition
      have evolves := step.evolves (owned.sound _ (List.mem_of_getElem? running))
      refine ⟨?_, chosen.mono evolves⟩
      simp only [roles, List.map_append, List.map_set]
      exact owned.transition running step
    | occurs happened =>
      obtain ⟨world, idle⟩ := (occur_occurs happened).idle
      simp only [roles, List.map_append, world]
      exact ⟨owned.enter (by simpa using idle), chosen⟩

def Thread.negotiates (i : Nat) : Thread → Bool
  | .ice j _ _ => decide (j = i)
  | _ => false

def Thread.calls (i : Nat) : Thread → Bool
  | .closing j _ _ => decide (j = i)
  | _ => false

theorem closes_calls {t : Thread} (closes : t.role.closes = some i) : t.calls i = true := by
  cases t with
  | closing j pos next =>
    cases pos <;> simp_all [Thread.role, ClosePos.role, Role.closes, Thread.calls]
  | offer data pos => cases pos <;> cases closes
  | ice j locals pos => cases pos <;> cases closes
  | _ => cases closes

theorem inHand_cases {kind : Kind} {t : Thread} {r : Nat}
    (holds : kind.inHand t.role = some (i, r)) :
    t.negotiates i = true ∨ t.role.onceOf = some i := by
  cases t with
  | closing j pos next =>
    cases pos with
    | leave transport agent =>
      obtain ⟨_, _, same⟩ := Option.map_eq_some_iff.mp holds
      cases same
      exact .inr rfl
    | _ => cases holds
  | offer data pos => cases pos <;> cases holds
  | ice j locals pos =>
    cases pos with
    | install | installTransport =>
      obtain ⟨_, _, same⟩ := Option.map_eq_some_iff.mp holds
      cases same
      exact .inl (by simp [Thread.negotiates])
    | _ => cases holds
  | _ => cases holds

theorem Closing.left {others : List Role} (closing : Closing w others)
    (done : (w.phase i).done = true) : ∀ v ∈ others, v.onceOf ≠ some i := by
  intro v member once
  have least := Ledger.le_total (fun u _ => inside_nonneg i u) member
  rw [closing.once i, done] at least
  simp [inside, once] at least

theorem Closing.vacated {others : List Role} (closing : Closing w others) {st : Standing}
    (found : w.standings[i]? = some st) (done : st.closeDone = true) (kind : Kind) :
    w.slot kind.field i = none := by
  obtain ⟨_, st', found', _, agent, transport⟩ :=
    closing.done i (by rw [World.phase_eq found]; exact done)
  rw [World.slot_eq found']
  cases kind
  · exact agent
  · exact transport

/-- The agents and transports of a connection that is done and that no `handleICEOffer`
runs for. -/
theorem Owned.all_closed {threads : List Thread} (owned : Owned w (roles threads)) {st : Standing}
    (found : w.standings[i]? = some st) (done : st.closeDone = true)
    (finished : ∀ t ∈ threads, t.negotiates i = false) (kind : Kind) {r : Nat} {closed : Bool}
    (made : (kind.resources w)[r]? = some ⟨i, closed⟩) : closed = true := by
  refine Custody.Kept.closed (owned.kept kind) (owned.closing.vacated found done kind)
    (fun r held => ?_) made
  obtain ⟨v, member, hand⟩ := List.mem_map.mp held
  obtain ⟨t, inside, rfl⟩ := List.mem_map.mp member
  rcases inHand_cases hand with negotiates | once
  · rw [finished t inside] at negotiates
    cases negotiates
  · exact owned.closing.left (by rw [World.phase_eq found]; exact done) _ member once

theorem Once.length_le {field : Standing → Option Nat} {installed : List Nat}
    (once : Once w field installed i) : installed.length ≤ 1 := by
  rcases once with none | ⟨r, _, one, _⟩
  · simp [none]
  · simp [one]

theorem Once.eq_of_mem {field : Standing → Option Nat} {installed : List Nat} {r : Nat}
    (once : Once w field installed i) (member : r ∈ installed) : installed = [r] := by
  rcases once with none | ⟨r', _, one, _⟩
  · simp [none] at member
  · rw [one] at member ⊢
    rw [List.mem_singleton.mp member]

theorem run_closed_done (actions : List Action) {c : Connection}
    (found : (run server cache actions).shared.pool[i]? = some c) (closed : c.closed = true)
    (returned : ∀ t ∈ (run server cache actions).threads, t.calls i = false) :
    c.closeDone = true := by
  have phase : (run server cache actions).shared.world.phase i = c.standing.phase :=
    World.phase_eq (world_found found)
  rcases (run_owned server cache actions).closing.callers i (by rw [phase]; exact closed) with
    done | ⟨v, member, closes⟩
  · rw [phase] at done
    exact done
  · obtain ⟨t, inside, rfl⟩ := List.mem_map.mp member
    have calls := closes_calls closes
    rw [returned t inside] at calls
    cases calls

/-- Over its whole life a connection installs one agent and one transport at most, for the
name it chose first; once it is done and no `handleICEOffer` runs for it, every agent and
every data transport made for it is closed. -/
theorem negotiation_owned (actions : List Action) (i : Nat) (c : Connection)
    (found : (run server cache actions).shared.pool[i]? = some c) :
    (agentsInstalled (run server cache actions).shared.negotiations i).length ≤ 1 ∧
    (transportsInstalled (run server cache actions).shared.negotiations i).length ≤ 1 ∧
    (∀ d ∈ transportsInstalled (run server cache actions).shared.negotiations i,
      ∃ transport, (run server cache actions).shared.transports[d]? = some transport ∧
        transport.owner = i ∧ transport.name = c.selectedTransport ∧
        agentsInstalled (run server cache actions).shared.negotiations i = [transport.agent]) ∧
    (c.selectedTransport ≠ [] → ∀ later, ∃ c',
      (run server cache (actions ++ later)).shared.pool[i]? = some c' ∧
        c'.selectedTransport = c.selectedTransport) ∧
    (c.closed = true → (∀ t ∈ (run server cache actions).threads, t.calls i = false) →
      c.closeDone = true) ∧
    (c.closeDone = true →
      (∀ t ∈ (run server cache actions).threads, t.negotiates i = false) →
      (∀ (a : Nat) (agent : Agent), (run server cache actions).shared.agents[a]? = some agent →
        agent.owner = i → agent.closed = true) ∧
      ∀ (d : Nat) (transport : DataTransport),
        (run server cache actions).shared.transports[d]? = some transport →
        transport.owner = i → transport.closed = true) := by
  have owned := run_owned server cache actions
  have standing := world_found found
  refine ⟨(owned.recorded.agents i).length_le, (owned.recorded.transports i).length_le,
    fun d member => ?_, fun chosen later => ?_, fun closed returned => ?_,
    fun done finished => ⟨fun a agent made own => ?_, fun d transport made own => ?_⟩⟩
  · obtain ⟨agent, name, key, installed, _, st, found', same⟩ :=
      owned.recorded.belongs i d (mem_transportsInstalled.mp member)
    obtain ⟨transport, made, same_key⟩ := Option.map_eq_some_iff.mp key
    rw [standing] at found'
    cases found'
    simp only [Prod.mk.injEq] at same_key
    refine ⟨transport, made, same_key.1, by rw [same_key.2.2, ← same]; rfl, ?_⟩
    rw [same_key.2.1]
    exact (owned.recorded.agents i).eq_of_mem (mem_agentsInstalled.mpr installed)
  · obtain ⟨_, st, found', same⟩ := run_chosen server cache actions later
      ⟨chosen, c.standing, standing, rfl⟩
    obtain ⟨c', present, rfl⟩ : ∃ c', _ ∧ Connection.standing c' = st := by
      simpa [Shared.world] using found'
    exact ⟨c', present, same⟩
  · exact run_closed_done server cache actions found closed returned
  · exact owned.all_closed standing done finished .agent (r := a)
      (by simp [Kind.resources, Shared.world, made, own])
  · exact owned.all_closed standing done finished .transport (r := d)
      (by simp [Kind.resources, Shared.world, made, own])

namespace Sample

def goes (n count : Nat) : List Action :=
  List.replicate count (.advance n { ok := true, description := ⟨str "u", str "p", [str "c"]⟩ })

def greeted : List Action :=
  [.event (.hello (Plain.helloInput 6000) Plain.attempt.message)] ++ goes 0 10

def message (typ : MessageType) (sequence : UInt64) (payload : Payload) : Message where
  header := some {
    sourceId := str "station"
    targetId := Plain.server.serverId
    typ := typ
    sequence := sequence }
  payload := some payload

def select : Message := message .transportSelect 1 { transport := str "quic" }

def offer : Message :=
  message .iceOffer 2 { iceUsername := str "u", icePassword := str "p", iceCandidates := [str "c"] }

def packet (message : Message) : Bytes :=
  let codec : Codec := ((run Plain.server Plain.nonces greeted).shared.pool[0]?.map
    (·.codec.receiveCodec)).getD {}
  ((codec.encodeMessage Plain.primitives message).1.toOption).getD []

def finished : List Action :=
  greeted ++ [.event (.offer (packet offer)), .event (.offer (packet select))] ++
    goes 1 4 ++ goes 2 5 ++ goes 3 22 ++ [.event (.close 0)] ++ goes 4 10

end Sample

theorem negotiation_owned_sample :
    ∃ s : Shared Plain.nonces, (run Plain.server Plain.nonces Sample.finished).shared = s ∧
      s.agents.length = 1 ∧ transportsInstalled s.negotiations 0 = [0] ∧
      (∃ transport, s.transports[0]? = some transport ∧
        agentsInstalled s.negotiations 0 = [transport.agent]) ∧
      ∀ agent, s.agents[0]? = some agent → agent.owner = 0 → agent.closed = true := by
  have evaluated :
      (run Plain.server Plain.nonces Sample.finished).shared.agents.length = 1 ∧
      transportsInstalled (run Plain.server Plain.nonces Sample.finished).shared.negotiations 0 =
        [0] ∧
      ((run Plain.server Plain.nonces Sample.finished).shared.pool[0]?.any
        fun (c : Connection) => c.closeDone) = true ∧
      ((run Plain.server Plain.nonces Sample.finished).threads.all
        fun (t : Thread) => !t.negotiates 0) = true := by
    decide +kernel
  have owned := negotiation_owned Plain.server Plain.nonces Sample.finished 0
  generalize run Plain.server Plain.nonces Sample.finished = k at *
  obtain ⟨made, installed, done, finished⟩ := evaluated
  obtain ⟨c, found, done⟩ := (Option.any_eq_true ..).mp done
  obtain ⟨_, _, belongs, _, _, closed⟩ := owned c found
  obtain ⟨transport, present, _, _, one⟩ := belongs 0 (by simp [installed])
  have quiet : ∀ t ∈ k.threads, t.negotiates 0 = false := fun t member => by
    simpa using List.all_eq_true.mp finished t member
  exact ⟨k.shared, rfl, made, installed, ⟨transport, present, one⟩,
    (closed done quiet).1 0⟩

end Run

end ServerMachine
end Telekit
