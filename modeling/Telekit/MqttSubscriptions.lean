import Telekit.MqttMarks

/-! What the MQTT adapter guarantees about subscriptions, on one connection and
across reconnects. Both need that no handler joins a group while its UNSUBSCRIBE
is in flight: the mark of such a group is still set, so `ensureSubscribed` takes
it for subscribed. Across reconnects, the callbacks of the connection must also
come in an order in which a recovery follows whenever marks become stale. -/

namespace Telekit.Mqtt

def Thread.finished : Thread → Bool
  | .on _ .finished | .unsubscribe _ (.done _) | .lost .finished | .connected .finished => true
  | _ => false

def Thread.operating (t : Thread) : Option GoString :=
  match t.view.work with
  | some ⟨_, _, topic, _, none⟩ => some topic
  | _ => none

def Shared.retiring (s : Shared) (topic : GoString) : Bool :=
  (s.subs topic).any fun g => s.marked g && s.busy g

def awaits (kind : Recovery → Bool) (c : Interleaving.Config Shared Thread) : Bool :=
  !c.shared.isOpen || c.threads.any fun t => kind t.view.recovery

/-- No handler takes a retiring group for subscribed. -/
def joinsSettled (c : Interleaving.Config Shared Thread) : Action → Bool
  | .advance n _ =>
    match c.threads[n]? with
    | some (.on topic (.ensure _ .check)) => !c.shared.retiring topic
    | _ => true
  | .event _ => true

/-- The callback of a lost connection runs while the connection is gone or before
that of its successor, and marks become stale only if a recovery follows. -/
def callbacksOrdered (c : Interleaving.Config Shared Thread) : Action → Bool
  | .advance n _ =>
    match c.threads[n]? with
    | some (.lost .bump) => awaits Recovery.isDue c
    | some (.lost .stale) => awaits (Recovery.restores c.shared.generation) c
    | some (.connected (.stale _)) => awaits (Recovery.restores c.shared.generation) c
    | _ => true
  | .event _ => true

def orderly (c : Interleaving.Config Shared Thread) (a : Action) : Bool :=
  joinsSettled c a && callbacksOrdered c a

theorem awaits_iff {kind : Recovery → Bool} {c : Interleaving.Config Shared Thread} :
    awaits kind c = true ↔ Awaits kind c.shared (views c.threads) := by
  simp [awaits, Awaits, views]

section Permission
variable {c : Interleaving.Config Shared Thread} {n : Nat} {choice : Choice} {t t' : Thread}
  {s' : Shared} {spawned : List Thread}

theorem accepted_by_check {id : Nat} {topic : GoString}
    (moved : advance choice c.shared t = some (s', t', spawned))
    (waiting : t.view.stage = .waiting id topic) (idle : t.view.work = none)
    (accepted : t'.view.stage = .accepted id topic) : t = .on topic (.ensure id .check) := by
  cases t with
  | on topic' pos =>
    cases pos with
    | ensure id' pos =>
      cases pos with
      | check =>
        cases waiting
        rfl
      | wait channel =>
        obtain ⟨⟨next, pos'⟩, step, result⟩ := Option.map_eq_some_iff.mp moved
        cases result
        simp only [onStep, ensureStep] at step
        split_ifs at step
        · cases step
          cases accepted
        · cases step
      | native | settle => cases idle
      | done ok => cases ok <;> cases waiting
    | rollback id' pos => cases pos <;> cases waiting
    | _ => cases waiting
  | unsubscribe id' pos => cases pos <;> cases waiting
  | lost pos => cases pos <;> cases waiting
  | connected pos => cases pos <;> cases waiting

theorem view_recovery (t : Thread) : t.view.recovery = match t with
    | .lost .bump => .lostBump
    | .lost .stale => .lostStale
    | .connected pos => pos.view.recovery
    | _ => .none := by
  cases t with
  | on topic pos =>
    cases pos with
    | ensure id pos => cases pos with
      | done ok => cases ok <;> rfl
      | _ => rfl
    | rollback id pos => cases pos <;> rfl
    | _ => rfl
  | unsubscribe id pos => cases pos <;> rfl
  | lost pos => cases pos <;> rfl
  | connected pos => rfl

theorem orderly_permitted (running : c.threads[n]? = some t)
    (moved : advance choice c.shared t = some (s', t', spawned))
    (permitted : orderly c (.advance n choice) = true) :
    Permitted c.shared (views c.threads) t.view t'.view := by
  rw [orderly, Bool.and_eq_true] at permitted
  obtain ⟨joins, callbacks⟩ := permitted
  have callback := view_recovery t
  simp only [callbacksOrdered, running] at callbacks
  constructor
  · intro id topic waiting idle accepted g held mark
    have check := accepted_by_check moved waiting idle accepted
    subst check
    simp only [joinsSettled, running, Shared.retiring, held, Option.any_some, mark,
      Bool.true_and, Bool.not_eq_true'] at joins
    exact joins
  · intro recovery
    rw [recovery] at callback
    split at callback
    · exact awaits_iff.mp callbacks
    · cases callback
    next pos => cases pos <;> cases callback
    · cases callback
  · intro recovery
    rw [recovery] at callback
    split at callback
    · cases callback
    · exact awaits_iff.mp callbacks
    next pos => cases pos <;> cases callback
    · cases callback
  · intro own recovery
    rw [recovery] at callback
    split at callback
    · cases callback
    · cases callback
    next pos =>
      cases pos with
      | stale generation => exact awaits_iff.mp callbacks
      | _ => cases callback
    · cases callback

end Permission

namespace Sample

def base : GoString := str "telekit"

def offers : GoString := topic base (str "room") (str "offer")

def subscribe : Action := .event (.subscribe (str "room") (str "offer"))

def steps (k n : Nat) : List Action := List.replicate n (.advance k {})

def restored : List Action :=
  [subscribe] ++ steps 0 7 ++ [.event .connectionLost] ++ steps 1 2 ++
    [.event .connected] ++ steps 2 12

/-- The callback of the lost connection overtakes that of its successor. -/
def overtaken : List Action :=
  [subscribe] ++ steps 0 7 ++ [.event .connectionLost, .event .connected] ++
    steps 2 2 ++ steps 1 2 ++ steps 2 1

def retired : List Action :=
  [subscribe] ++ steps 0 7 ++ [.event (.unsubscribe 1)] ++ steps 1 2 ++ [subscribe]

def resubscribed : List Action := retired ++ steps 2 3 ++ steps 1 2 ++ steps 2 4

def misled : List Action := retired ++ steps 2 5 ++ steps 1 2

end Sample

section Run
variable {baseTopic : GoString} {c c' : Interleaving.Config Shared Thread} {a : Action}

theorem Marks.start (isOpen : Bool) : Marks { isOpen := isOpen } [] :=
  ⟨by simp [Shared.handlersOf], by simp, by simp, by simp, by simp⟩

theorem marks_takes (inv : Invariant c) (marks : Marks c.shared (views c.threads))
    (permitted : orderly c a = true) (taken : (program baseTopic).Takes c a c') :
    Marks c'.shared (views c'.threads) := by
  cases taken with
  | stays => exact marks
  | advances running moved =>
    obtain ⟨effect, _, rfl⟩ := advance_effect (inv.named _ (List.mem_of_getElem? running)) moved
    simp only [List.append_nil, views_set]
    exact marks.effect inv.core (views_getElem? running) effect
      (orderly_permitted running moved permitted)
  | occurs happened =>
    simp only [views, List.map_append]
    exact marks.occurs (occur_occurs happened).1

theorem run_marks (isOpen : Bool) (actions : List Action)
    (ordered : (program baseTopic).along orderly ⟨{ isOpen := isOpen }, []⟩ actions = true) :
    Invariant (run baseTopic isOpen actions) ∧
      Marks (run baseTopic isOpen actions).shared (views (run baseTopic isOpen actions).threads) :=
  (program baseTopic).run_along_keeps
    (fun c => Invariant c ∧ Marks c.shared (views c.threads)) orderly
    (fun _ _ _ kept permitted taken =>
      ⟨kept.1.takes taken, marks_takes kept.1 kept.2 permitted taken⟩)
    ⟨.start isOpen, .start isOpen⟩ actions ordered

theorem finished_view {t : Thread} (finished : t.finished = true) : t.view = {} := by
  cases t with
  | on topic pos => cases pos with
    | finished => rfl
    | _ => cases finished
  | unsubscribe id pos => cases pos with
    | done ok => rfl
    | _ => cases finished
  | lost pos => cases pos with
    | finished => rfl
    | _ => cases finished
  | connected pos => cases pos with
    | finished => rfl
    | _ => cases finished

theorem finished_views {threads : List Thread} (finished : ∀ t ∈ threads, t.finished = true) :
    ∀ v ∈ views threads, v = {} := by
  intro v member
  obtain ⟨t, inside, rfl⟩ := List.mem_map.mp member
  exact finished_view (finished t inside)

/-- In every run with orderly steps, once the connection is open and all calls
and callbacks have finished, every topic with a handler is marked, and the last
native operation on it in this connection was a SUBSCRIBE that succeeded. -/
theorem reconnect_restores (isOpen : Bool) (actions : List Action)
    (ordered : (program baseTopic).along orderly ⟨{ isOpen := isOpen }, []⟩ actions = true)
    (connected : (run baseTopic isOpen actions).shared.isOpen = true)
    (finished : ∀ t ∈ (run baseTopic isOpen actions).threads, t.finished = true)
    (topic : GoString) (g : Nat) (group : Group)
    (held : (run baseTopic isOpen actions).shared.subs topic = some g)
    (found : (run baseTopic isOpen actions).shared.groups[g]? = some group)
    (occupied : group.handlers ≠ []) :
    group.subscribed = true ∧ Subscribed (run baseTopic isOpen actions).shared topic := by
  obtain ⟨inv, marks⟩ := run_marks isOpen actions ordered
  have idle := finished_views finished
  have none_awaited : ∀ kind : Recovery → Bool, kind .none = false →
      ¬ Awaits kind (run baseTopic isOpen actions).shared
        (views (run baseTopic isOpen actions).threads) := by
    rintro kind never (closed | ⟨v, member, has⟩)
    · rw [connected] at closed
      cases closed
    · rw [idle v member, never] at has
      cases has
  obtain ⟨id, member⟩ := List.exists_mem_of_ne_nil _ occupied
  rw [← Shared.handlersOf_eq found] at member
  have mark : (run baseTopic isOpen actions).shared.marked g = true := by
    rcases marks.covered g id member with mark | awaited | ⟨v, inside, unsettled⟩
    · exact mark
    · exact absurd awaited (none_awaited _ rfl)
    · rw [idle v inside] at unsettled
      cases unsettled
  have free : (run baseTopic isOpen actions).shared.busy g = false :=
    inv.core.free fun v inside => by rw [idle v inside]; simp
  refine ⟨by rw [← Shared.marked_eq found, mark], ?_⟩
  exact (marks.native topic g held mark free).resolve_right (none_awaited _ rfl)

theorem reconnect_restores_sample :
    (⟨Sample.offers, [1], true, false, 1⟩ : Group).subscribed = true ∧
      Subscribed (run Sample.base true Sample.restored).shared Sample.offers :=
  reconnect_restores true Sample.restored (by decide +kernel) (by decide +kernel)
    (by decide +kernel) Sample.offers 0 _ (by decide +kernel) (by decide +kernel) (by decide)

/-- The recovery is cancelled by the older callback, and nothing follows it. -/
theorem overtaken_recovery_abandoned :
    (run Sample.base true Sample.overtaken).shared.isOpen = true ∧
    (∀ t ∈ (run Sample.base true Sample.overtaken).threads, t.finished = true) ∧
    (run Sample.base true Sample.overtaken).shared.subs Sample.offers = some 0 ∧
    (run Sample.base true Sample.overtaken).shared.groups =
      [⟨Sample.offers, [1], false, false, 0⟩] ∧
    (run Sample.base true Sample.overtaken).shared.completed = [] := by
  decide +kernel

def Call.ofHandler : Call → Bool
  | .subscribe _ _ | .unsubscribe _ => true
  | .connected | .connectionLost | .disconnect => false

def stable (c : Interleaving.Config Shared Thread) (a : Action) : Bool :=
  joinsSettled c a && match a with
    | .event call => call.ofHandler
    | .advance _ _ => true

def Thread.isCall : Thread → Bool
  | .on _ _ | .unsubscribe _ _ => true
  | .lost _ | .connected _ => false

structure Steady (c : Interleaving.Config Shared Thread) : Prop where
  isOpen : c.shared.isOpen = true
  calls : ∀ t ∈ c.threads, t.isCall = true

theorem Steady.takes (steady : Steady c) (inv : Invariant c) (permitted : stable c a = true)
    (taken : (program baseTopic).Takes c a c') : Steady c' := by
  cases taken with
  | stays => exact steady
  | @advances n choice t t' s' spawned running moved =>
    obtain ⟨effect, _, rfl⟩ := advance_effect (inv.named _ (List.mem_of_getElem? running)) moved
    refine ⟨effect.isOpen.trans steady.isOpen, fun u member => ?_⟩
    rw [List.append_nil] at member
    rcases List.mem_or_eq_of_mem_set member with old | rfl
    · exact steady.calls u old
    · have call := steady.calls t (List.mem_of_getElem? running)
      cases t with
      | on | unsubscribe =>
        obtain ⟨_, _, result⟩ := Option.map_eq_some_iff.mp moved
        cases result
        rfl
      | lost | connected => cases call
  | @occurs call s' spawned happened =>
    have ofHandler := (Bool.and_eq_true_iff.mp permitted).2
    have calls : s'.isOpen = c.shared.isOpen ∧ ∀ t ∈ spawned, t.isCall = true := by
      cases call with
      | subscribe roomID typ =>
        simp only [program, occur] at happened
        split at happened
        · cases happened
          exact ⟨rfl, by simp [Thread.isCall]⟩
        · cases happened
      | unsubscribe id =>
        simp only [program, occur] at happened
        split_ifs at happened
        cases happened
        exact ⟨rfl, by simp [Thread.isCall]⟩
      | connected | connectionLost | disconnect => cases ofHandler
    refine ⟨calls.1.trans steady.isOpen, fun t member => ?_⟩
    rcases List.mem_append.mp member with old | new
    · exact steady.calls t old
    · exact calls.2 t new

theorem Steady.orderly (steady : Steady c) (permitted : stable c a = true) :
    orderly c a = true := by
  rw [Mqtt.orderly, (Bool.and_eq_true_iff.mp permitted).1, Bool.true_and]
  cases a with
  | event call => rfl
  | advance n choice =>
    simp only [callbacksOrdered]
    cases running : c.threads[n]? with
    | none => rfl
    | some t =>
      have call := steady.calls t (List.mem_of_getElem? running)
      cases t with
      | on | unsubscribe => rfl
      | lost | connected => cases call

theorem Steady.not_awaits (steady : Steady c) {kind : Recovery → Bool} (never : kind .none = false) :
    ¬ Awaits kind c.shared (views c.threads) := by
  rintro (closed | ⟨v, member, has⟩)
  · rw [steady.isOpen] at closed
    cases closed
  · obtain ⟨t, inside, rfl⟩ := List.mem_map.mp member
    have call := steady.calls t inside
    rw [view_recovery] at has
    cases t with
    | on | unsubscribe =>
      rw [never] at has
      cases has
    | lost | connected => cases call

theorem run_steady (actions : List Action)
    (permitted : (program baseTopic).along stable ⟨{ isOpen := true }, []⟩ actions = true) :
    Steady (run baseTopic true actions) ∧ Invariant (run baseTopic true actions) ∧
      Marks (run baseTopic true actions).shared (views (run baseTopic true actions).threads) :=
  (program baseTopic).run_along_keeps
    (fun c => Steady c ∧ Invariant c ∧ Marks c.shared (views c.threads)) stable
    (fun _ _ _ kept permitted taken => ⟨kept.1.takes kept.2.1 permitted taken,
      kept.2.1.takes taken, marks_takes kept.2.1 kept.2.2 (kept.1.orderly permitted) taken⟩)
    ⟨⟨rfl, by simp⟩, .start true, .start true⟩ actions permitted

theorem operating_work {t : Thread} {topic : GoString} (operating : t.operating = some topic) :
    ∃ w, t.view.work = some w ∧ w.topic = topic := by
  unfold Thread.operating at operating
  split at operating
  next working => exact ⟨_, working, Option.some.inj operating⟩
  · cases operating

theorem Invariant.single_operation (inv : Invariant c) {k l : Nat} {t u : Thread}
    {topic : GoString} (first : c.threads[k]? = some t) (second : c.threads[l]? = some u)
    (operating : t.operating = some topic) (operating' : u.operating = some topic) : k = l := by
  obtain ⟨w, working, rfl⟩ := operating_work operating
  obtain ⟨w', working', same⟩ := operating_work operating'
  have home := inv.core.home (List.mem_of_getElem? (views_getElem? first)) working
  have home' := inv.core.home (List.mem_of_getElem? (views_getElem? second)) working'
  rw [same, home] at home'
  by_contra ne
  refine inv.core.work_apart (Ne.symm ne) (views_getElem? first) (views_getElem? second)
    (by rw [working, Option.map_some]) ?_
  rw [working', Option.map_some, ← home']

/-- On one connection, if no handler takes a retiring group for subscribed: operations on
one topic do not overlap, a handler whose `on` returned is subscribed in the group of its
topic, and one whose `on` failed stands nowhere. -/
theorem subscriptions_hold (actions : List Action)
    (permitted : (program baseTopic).along stable ⟨{ isOpen := true }, []⟩ actions = true) :
    (∀ (k l : Nat) (t u : Thread) (topic : GoString),
      (run baseTopic true actions).threads[k]? = some t →
      (run baseTopic true actions).threads[l]? = some u →
      t.operating = some topic → u.operating = some topic → k = l) ∧
    (∀ id topic, (id, topic) ∈ (run baseTopic true actions).shared.returned →
      id ∉ (run baseTopic true actions).shared.unsubscribed →
      (∃ g group, (run baseTopic true actions).shared.subs topic = some g ∧
        (run baseTopic true actions).shared.groups[g]? = some group ∧ id ∈ group.handlers) ∧
      ((∀ t ∈ (run baseTopic true actions).threads, t.operating ≠ some topic) →
        Subscribed (run baseTopic true actions).shared topic)) ∧
    (∀ id ∈ (run baseTopic true actions).shared.failed,
      ∀ group ∈ (run baseTopic true actions).shared.groups, id ∉ group.handlers) ∧
    ((∀ t ∈ (run baseTopic true actions).threads, t.finished = true) →
      ∀ topic g group, (run baseTopic true actions).shared.subs topic = some g →
        (run baseTopic true actions).shared.groups[g]? = some group → group.handlers ≠ []) := by
  obtain ⟨steady, inv, marks⟩ := run_steady actions permitted
  generalize run baseTopic true actions = c at steady inv marks
  refine ⟨fun k l t u topic first second => inv.single_operation first second, ?_, ?_, ?_⟩
  · intro id topic returned kept
    obtain ⟨g, held, member⟩ := (inv.core.successes id topic returned).resolve_left kept
    have settled : c.shared.settled id = true := by
      rw [Shared.settled, decide_eq_true_eq]
      exact .inl (List.mem_map.mpr ⟨_, returned, rfl⟩)
    have decided : ¬ ∃ v ∈ views c.threads, v.stage.unsettled = some id := by
      rintro ⟨v, inside, unsettled⟩
      have pending : v.stage.pending = some id := by
        generalize v.stage = stage at unsettled
        cases stage with
        | waiting | rejected => exact unsettled
        | _ => cases unsettled
      have fresh := (inv.core.pending_new inside pending).2
      rw [settled] at fresh
      cases fresh
    have mark : c.shared.marked g = true :=
      (marks.covered g id member).resolve_right fun other =>
        other.elim (steady.not_awaits rfl) decided
    have free : c.shared.busy g = false := by
      apply inv.core.free
      intro v inside working
      obtain ⟨w, work, rfl⟩ := Option.map_eq_some_iff.mp working
      cases kind : w.kind with
      | subscribe =>
        have unmarked := ((inv.core.fits v inside).work w work).unmarked kind
        rw [mark] at unmarked
        cases unmarked
      | unsubscribe => exact decided (marks.retiring v inside w work kind id member)
    refine ⟨?_, fun _ => (marks.native topic g held mark free).resolve_right
      (steady.not_awaits rfl)⟩
    obtain ⟨group, found, _⟩ := Option.map_eq_some_iff.mp (inv.core.layout.registered topic g held)
    rw [Shared.handlersOf_eq found] at member
    exact ⟨g, group, held, found, member⟩
  · intro id failed group inside member
    obtain ⟨g, found⟩ := List.mem_iff_getElem?.mp inside
    rw [← Shared.handlersOf_eq found] at member
    exact inv.core.failures id failed g member
  · intro finished topic g group held found empty
    rw [← Shared.handlersOf_eq found] at empty
    obtain ⟨v, inside, tends⟩ := inv.core.tended topic g held empty
    rw [finished_views finished v inside] at tends
    cases tends

theorem subscriptions_hold_sample :
    (∃ g group, (run Sample.base true Sample.resubscribed).shared.subs Sample.offers = some g ∧
      (run Sample.base true Sample.resubscribed).shared.groups[g]? = some group ∧
      2 ∈ group.handlers) ∧
    Subscribed (run Sample.base true Sample.resubscribed).shared Sample.offers := by
  have permitted : (program Sample.base).along stable ⟨{ isOpen := true }, []⟩
      Sample.resubscribed = true := by
    decide +kernel
  have holds := (subscriptions_hold Sample.resubscribed permitted).2.1 2 Sample.offers
    (by decide +kernel) (by decide +kernel)
  exact ⟨holds.1, holds.2 (by decide +kernel)⟩

/-- A handler whose `on` returned stands on a topic that was just given up. -/
theorem misled_handler_unsubscribed :
    (2, Sample.offers) ∈ (run Sample.base true Sample.misled).shared.returned ∧
    2 ∉ (run Sample.base true Sample.misled).shared.unsubscribed ∧
    (∀ t ∈ (run Sample.base true Sample.misled).threads, t.finished = true) ∧
    (run Sample.base true Sample.misled).shared.groups =
      [⟨Sample.offers, [2], false, false, 1⟩] ∧
    lastOperation (run Sample.base true Sample.misled).shared.completed Sample.offers =
      some ⟨Sample.offers, .unsubscribe, true⟩ := by
  decide +kernel

end Run

end Telekit.Mqtt
