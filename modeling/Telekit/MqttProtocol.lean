import Telekit.MqttMachine

/-! The protocol behind the subscriptions of the MQTT adapter. Of a thread only
its view matters: how far its handler has come, the native operation it is in,
the empty group it looks after, and its part in a recovery. An effect is what a
step does to the groups together with the view of the thread that takes it. Every
step of the adapter is an effect of the protocol, so invariants are proved of
effects. -/

namespace Telekit.Mqtt

/-- How far a handler has come. It is registered from `waiting` to `rejected`;
`leaving` is a handler that is given up. -/
inductive Stage
  | none
  | joining (id : Nat) (topic : GoString)
  | waiting (id : Nat) (topic : GoString)
  | accepted (id : Nat) (topic : GoString)
  | rejected (id : Nat) (topic : GoString)
  | removed (id : Nat)
  | leaving (id : Nat)

def Stage.settle (ok : Bool) : Stage → Stage
  | .waiting id topic => if ok then .accepted id topic else .rejected id topic
  | stage => stage

def Stage.removing : Stage → Option (Nat × Stage)
  | .rejected id _ => some (id, .removed id)
  | .leaving id => some (id, .none)
  | _ => Option.none

/-- A native operation from its start until its group knows the outcome. -/
structure Work where
  kind : Kind
  g : Nat
  topic : GoString
  generation : Nat
  outcome : Option Bool

inductive Recovery
  | none
  | lostBump
  | lostStale
  | due
  | stale (generation : Nat)
  | loop (generation : Nat)

structure View where
  stage : Stage := .none
  work : Option Work := none
  tends : Option (GoString × Nat) := none
  recovery : Recovery := .none

def EnsurePos.work (topic : GoString) : EnsurePos → Option Work
  | .native g _ generation => some ⟨.subscribe, g, topic, generation, none⟩
  | .settle g _ generation ok => some ⟨.subscribe, g, topic, generation, some ok⟩
  | _ => none

def UnsubPos.work : UnsubPos → Option Work
  | .native topic g _ => some ⟨.unsubscribe, g, topic, 0, none⟩
  | .settle topic g _ ok => some ⟨.unsubscribe, g, topic, 0, some ok⟩
  | _ => none

def UnsubPos.tends : UnsubPos → Option (GoString × Nat)
  | .loop topic g | .wait topic g _ | .native topic g _ | .settle topic g _ _ => some (topic, g)
  | _ => none

def OnPos.view (topic : GoString) : OnPos → View
  | .join id => { stage := .joining id topic }
  | .ensure id (.done true) => { stage := .accepted id topic }
  | .ensure id (.done false) => { stage := .rejected id topic }
  | .ensure id pos => { stage := .waiting id topic, work := pos.work topic }
  | .rollback id .remove => { stage := .rejected id topic }
  | .rollback id pos => { stage := .removed id, work := pos.work, tends := pos.tends }
  | _ => {}

def ConnectedPos.view : ConnectedPos → View
  | .bump => { recovery := .due }
  | .stale generation => { recovery := .stale generation }
  | .restore generation _ topic pos _ =>
    { work := pos.work topic, recovery := .loop generation }
  | .check generation | .checkOpen generation | .topics generation | .verify generation _
  | .verifyOpen generation | .ready generation | .sleep generation =>
    { recovery := .loop generation }
  | .finished => {}

def Thread.view : Thread → View
  | .on topic pos => pos.view topic
  | .unsubscribe id .remove => { stage := .leaving id }
  | .unsubscribe _ pos => { work := pos.work, tends := pos.tends }
  | .lost .bump => { recovery := .lostBump }
  | .lost .stale => { recovery := .lostStale }
  | .lost .finished => {}
  | .connected pos => pos.view

namespace Shared
variable (s : Shared) (g : Nat)

def topicOf : Option GoString := s.groups[g]?.map Group.topic
def handlersOf : List Nat := (s.groups[g]?.map Group.handlers).getD []
def marked : Bool := (s.groups[g]?.map Group.subscribed).getD false
def busy : Bool := (s.groups[g]?.map Group.subscribing).getD false

variable {s g} {group : Group}

theorem topicOf_eq (found : s.groups[g]? = some group) : s.topicOf g = some group.topic := by
  simp [topicOf, found]

theorem handlersOf_eq (found : s.groups[g]? = some group) : s.handlersOf g = group.handlers := by
  simp [handlersOf, found]

theorem marked_eq (found : s.groups[g]? = some group) : s.marked g = group.subscribed := by
  simp [marked, found]

theorem busy_eq (found : s.groups[g]? = some group) : s.busy g = group.subscribing := by
  simp [busy, found]

end Shared

/-- What a thread can do to the groups. -/
inductive Effect (s : Shared) (v : View) : Shared → View → Prop
  | quiet : Effect s v s v
  | allots {topic : GoString} (idle : v = {}) (named : topic ≠ []) :
      Effect s v { s with nextID := s.nextID + 1 } { stage := .joining (s.nextID + 1) topic }
  | joins {id : Nat} {topic : GoString} (joining : v = { stage := .joining id topic }) :
      Effect s v (s.join topic id) { stage := .waiting id topic }
  | accepts {id : Nat} {topic : GoString} (waiting : v = { stage := .waiting id topic })
      (marked : ∀ g, s.subs topic = some g → s.handlersOf g = [] ∨ s.marked g = true) :
      Effect s v s { stage := .accepted id topic }
  | begins {g : Nat} {topic : GoString} (idle : v.work = none)
      (own : ∀ id other, v.stage = .waiting id other → other = topic)
      (held : s.subs topic = some g) (occupied : s.handlersOf g ≠ [])
      (unmarked : s.marked g = false) (free : s.busy g = false) :
      Effect s v (s.begin g) { v with work := some ⟨.subscribe, g, topic, s.generation, none⟩ }
  | retires {g : Nat} {topic : GoString} (idle : v.work = none)
      (tends : v.tends = some (topic, g)) (held : s.subs topic = some g)
      (empty : s.handlersOf g = []) (free : s.busy g = false) :
      Effect s v (s.begin g) { v with work := some ⟨.unsubscribe, g, topic, 0, none⟩ }
  | completes {kind : Kind} {g : Nat} {topic : GoString} {generation : Nat} {ok : Bool}
      (working : v.work = some ⟨kind, g, topic, generation, none⟩)
      (possible : ok = true → s.isOpen = true) :
      Effect s v (s.complete ⟨topic, kind, ok⟩)
        { v with work := some ⟨kind, g, topic, generation, some ok⟩ }
  | settles {g channel : Nat} {topic : GoString} {generation : Nat} {ok : Bool}
      (working : v.work = some ⟨.subscribe, g, topic, generation, some ok⟩) :
      Effect s v (s.finish g channel (ok && decide (s.generation = generation)))
        { v with work := none, stage := v.stage.settle ok }
  | retired {g channel : Nat} {topic : GoString} {generation : Nat} {ok : Bool}
      (working : v.work = some ⟨.unsubscribe, g, topic, generation, some ok⟩) :
      Effect s v
        (if s.handlersOf g = [] ∧ s.subs topic = some g then
          (s.finish g channel false).delete topic else s.finish g channel false)
        { v with work := none, tends := none }
  | removes {id g : Nat} {topic : GoString} {stage : Stage} (idle : v.work = none)
      (untended : v.tends = none)
      (removing : v.stage.removing = some (id, stage)) (holder : s.holder id = some g)
      (made : s.topicOf g = some topic) :
      Effect s v (s.drop g id) { v with
        stage := stage
        tends := if ((s.handlersOf g).filter fun h => h ≠ id) = [] ∧ topic ≠ [] then
          some (topic, g) else none }
  | misses {id : Nat} {stage : Stage} (removing : v.stage.removing = some (id, stage))
      (absent : s.holder id = none) :
      Effect s v s { v with stage := stage }
  | leaves {topic : GoString} {g : Nat} (idle : v.work = none)
      (tends : v.tends = some (topic, g)) (used : s.subs topic ≠ some g ∨ s.handlersOf g ≠ []) :
      Effect s v s { v with tends := none }
  | deletes {topic : GoString} {g : Nat} (idle : v.work = none)
      (tends : v.tends = some (topic, g)) (held : s.subs topic = some g)
      (empty : s.handlersOf g = []) (free : s.busy g = false) :
      Effect s v (s.delete topic) { v with tends := none }
  | loses (lost : v.recovery = .lostBump) :
      Effect s v { s with generation := s.generation + 1 } { v with recovery := .lostStale }
  | starts (due : v.recovery = .due) :
      Effect s v { s with generation := s.generation + 1 }
        { v with recovery := .stale (s.generation + 1) }
  | forgets (lost : v.recovery = .lostStale) :
      Effect s v s.markSubscriptionsStale { v with recovery := .none }
  | stales {generation : Nat} (stale : v.recovery = .stale generation) :
      Effect s v s.markSubscriptionsStale { v with recovery := .loop generation }
  | stops {generation : Nat} (loop : v.recovery = .loop generation) (idle : v.work = none)
      (reason : s.generation ≠ generation ∨ s.isOpen = false ∨ s.subscriptionsReady = true) :
      Effect s v s { v with recovery := .none }
  | returns {id : Nat} {topic : GoString} (accepted : v.stage = .accepted id topic) :
      Effect s v { s with returned := s.returned ++ [(id, topic)] } { v with stage := .none }
  | fails {id : Nat} (removed : v.stage = .removed id) :
      Effect s v { s with failed := s.failed ++ [id] } { v with stage := .none }

inductive EnsureSteps (s : Shared) (topic : GoString) : EnsurePos → Shared → EnsurePos → Prop
  | passes (marked : ∀ g, s.subs topic = some g → s.handlersOf g = [] ∨ s.marked g = true) :
      EnsureSteps s topic .check s (.done true)
  | waits {channel : Nat} : EnsureSteps s topic .check s (.wait channel)
  | begins {g channel : Nat} (held : s.subs topic = some g) (occupied : s.handlersOf g ≠ [])
      (unmarked : s.marked g = false) (free : s.busy g = false) :
      EnsureSteps s topic .check (s.begin g) (.native g channel s.generation)
  | wakes {channel : Nat} : EnsureSteps s topic (.wait channel) s .check
  | completes {g channel generation : Nat} {ok : Bool} (possible : ok = true → s.isOpen = true) :
      EnsureSteps s topic (.native g channel generation) (s.complete ⟨topic, .subscribe, ok⟩)
        (.settle g channel generation ok)
  | settles {g channel generation : Nat} {ok : Bool} :
      EnsureSteps s topic (.settle g channel generation ok)
        (s.finish g channel (ok && decide (s.generation = generation))) (.done ok)

inductive UnsubSteps (s : Shared) (id : Nat) : UnsubPos → Shared → UnsubPos → Prop
  | misses (absent : s.holder id = none) : UnsubSteps s id .remove s (.done true)
  | removes {g : Nat} {topic : GoString} (holder : s.holder id = some g)
      (made : s.topicOf g = some topic) :
      UnsubSteps s id .remove (s.drop g id)
        (if ((s.handlersOf g).filter fun h => h ≠ id) = [] ∧ topic ≠ [] then
          .loop topic g else .done true)
  | leaves {topic : GoString} {g : Nat} (used : s.subs topic ≠ some g ∨ s.handlersOf g ≠ []) :
      UnsubSteps s id (.loop topic g) s (.done true)
  | waits {topic : GoString} {g channel : Nat} :
      UnsubSteps s id (.loop topic g) s (.wait topic g channel)
  | deletes {topic : GoString} {g : Nat} (held : s.subs topic = some g)
      (empty : s.handlersOf g = []) (free : s.busy g = false) :
      UnsubSteps s id (.loop topic g) (s.delete topic) (.done true)
  | begins {topic : GoString} {g channel : Nat} (held : s.subs topic = some g)
      (empty : s.handlersOf g = []) (free : s.busy g = false) :
      UnsubSteps s id (.loop topic g) (s.begin g) (.native topic g channel)
  | wakes {topic : GoString} {g channel : Nat} :
      UnsubSteps s id (.wait topic g channel) s (.loop topic g)
  | completes {topic : GoString} {g channel : Nat} {ok : Bool}
      (possible : ok = true → s.isOpen = true) :
      UnsubSteps s id (.native topic g channel) (s.complete ⟨topic, .unsubscribe, ok⟩)
        (.settle topic g channel ok)
  | settles {topic : GoString} {g channel : Nat} {ok : Bool} :
      UnsubSteps s id (.settle topic g channel ok)
        (if s.handlersOf g = [] ∧ s.subs topic = some g then
          (s.finish g channel false).delete topic else s.finish g channel false) (.done ok)

section Refinement
variable {choice : Choice} {s s' : Shared}

variable {topic : GoString}

theorem ensureStep_steps {pos pos' : EnsurePos}
    (moved : ensureStep choice s topic pos = some (s', pos')) :
    EnsureSteps s topic pos s' pos' := by
  cases pos with
  | check =>
    simp only [ensureStep] at moved
    cases held : s.subs topic with
    | none =>
      simp only [held] at moved
      cases moved
      exact .passes fun g held' => by rw [held] at held'; cases held'
    | some g =>
      have only : ∀ h, s.subs topic = some h → h = g := fun h held' => by
        rw [held] at held'
        exact (Option.some.inj held').symm
      simp only [held] at moved
      cases found : s.groups[g]? with
      | none =>
        simp only [found] at moved
        cases moved
        exact .passes fun h held' => .inl (by simp [only h held', Shared.handlersOf, found])
      | some group =>
        simp only [found, ← Shared.handlersOf_eq found, ← Shared.marked_eq found,
          ← Shared.busy_eq found] at moved
        split_ifs at moved with empty marked busy
        · cases moved
          exact .passes fun h held' => .inl (by rw [only h held', empty])
        · cases moved
          exact .passes fun h held' => .inr (by rw [only h held', marked])
        · cases moved
          exact .waits
        · cases moved
          exact .begins held empty (Bool.eq_false_iff.mpr marked) (Bool.eq_false_iff.mpr busy)
  | wait channel =>
    simp only [ensureStep] at moved
    split_ifs at moved
    cases moved
    exact .wakes
  | native g channel generation =>
    simp only [ensureStep] at moved
    split_ifs at moved with blocked
    cases moved
    refine .completes fun ok => ?_
    rw [not_and, Bool.not_eq_false] at blocked
    exact blocked ok
  | settle g channel generation ok =>
    cases moved
    exact .settles
  | done ok => cases moved

theorem unsubStep_steps {id : Nat} {pos pos' : UnsubPos}
    (moved : unsubStep choice s id pos = some (s', pos')) : UnsubSteps s id pos s' pos' := by
  cases pos with
  | remove =>
    simp only [unsubStep] at moved
    cases holder : s.holder id with
    | none =>
      simp only [holder] at moved
      cases moved
      exact .misses holder
    | some g =>
      simp only [holder] at moved
      cases found : s.groups[g]? with
      | none =>
        have inside := List.find?_some holder
        simp [found] at inside
      | some group =>
        have shape : ∀ remaining : List Nat,
            (if (if remaining = [] then group.topic else []) = [] then UnsubPos.done true
              else .loop (if remaining = [] then group.topic else []) g) =
            if remaining = [] ∧ group.topic ≠ [] then .loop group.topic g else .done true := by
          intro remaining
          by_cases empty : remaining = []
          · by_cases named : group.topic = [] <;> simp [empty, named]
          · simp [empty]
        simp only [found] at moved
        rw [shape, ← Shared.handlersOf_eq found] at moved
        cases moved
        exact .removes holder (Shared.topicOf_eq found)
  | loop topic g =>
    simp only [unsubStep] at moved
    split at moved
    · cases moved
    next group found =>
      rw [← Shared.handlersOf_eq found, ← Shared.busy_eq found] at moved
      split_ifs at moved with used busy unmarked
      · cases moved
        exact .leaves used
      · cases moved
        exact .waits
      · cases moved
        rw [not_or, not_not, not_not] at used
        exact .deletes used.1 used.2 (Bool.eq_false_iff.mpr busy)
      · cases moved
        rw [not_or, not_not, not_not] at used
        exact .begins used.1 used.2 (Bool.eq_false_iff.mpr busy)
  | wait topic g channel =>
    simp only [unsubStep] at moved
    split_ifs at moved
    cases moved
    exact .wakes
  | native topic g channel =>
    simp only [unsubStep] at moved
    split_ifs at moved with blocked
    cases moved
    refine .completes fun ok => ?_
    rw [not_and, Bool.not_eq_false] at blocked
    exact blocked ok
  | settle topic g channel ok =>
    simp only [unsubStep] at moved
    split at moved
    · cases moved
    next group found =>
      have settled : UnsubSteps s id (.settle topic g channel ok) _ _ := .settles
      rw [← Shared.handlersOf_eq found] at moved
      split_ifs at moved settled with gone
      · cases moved
        exact settled
      · cases moved
        exact settled
  | done ok => cases moved

theorem EnsureSteps.effect_on {pos pos' : EnsurePos} (steps : EnsureSteps s topic pos s' pos')
    (id : Nat) :
    Effect s ((OnPos.ensure id pos).view topic) s' ((OnPos.ensure id pos').view topic) := by
  cases steps with
  | passes marked => exact .accepts rfl marked
  | waits | wakes => exact .quiet
  | begins held occupied unmarked free =>
    refine .begins rfl (fun i other same => ?_) held occupied unmarked free
    cases same
    rfl
  | completes possible => exact .completes rfl possible
  | @settles g channel generation ok =>
    cases ok <;> exact .settles rfl

theorem EnsureSteps.effect_restore {pos pos' : EnsurePos} (steps : EnsureSteps s topic pos s' pos')
    (generation : Nat) (all : Bool) (rest : List GoString) :
    Effect s (ConnectedPos.restore generation all topic pos rest).view s'
      (ConnectedPos.restore generation all topic pos' rest).view := by
  cases steps with
  | passes | waits | wakes => exact .quiet
  | begins held occupied unmarked free => exact .begins rfl nofun held occupied unmarked free
  | completes possible => exact .completes rfl possible
  | settles => exact .settles rfl

theorem UnsubSteps.effect {id : Nat} {pos pos' : UnsubPos} (steps : UnsubSteps s id pos s' pos')
    {before after : Stage} (removing : before.removing = some (id, after)) (view : UnsubPos → View)
    (first : view .remove = { stage := before })
    (later : ∀ pos, pos ≠ .remove →
      view pos = { stage := after, work := pos.work, tends := pos.tends }) :
    Effect s (view pos) s' (view pos') := by
  cases steps with
  | misses absent =>
    rw [first, later _ (by simp)]
    exact .misses removing absent
  | removes holder made =>
    have removed := Effect.removes (v := { stage := before }) rfl rfl removing holder made
    rw [first, later]
    · split_ifs at removed ⊢ with emptied
      · exact removed
      · exact removed
    · split_ifs <;> simp
  | leaves used =>
    rw [later _ (by simp), later _ (by simp)]
    exact .leaves rfl rfl used
  | waits | wakes =>
    rw [later _ (by simp), later _ (by simp)]
    exact .quiet
  | deletes held empty free =>
    rw [later _ (by simp), later _ (by simp)]
    exact .deletes rfl rfl held empty free
  | begins held empty free =>
    rw [later _ (by simp), later _ (by simp)]
    exact .retires rfl rfl held empty free
  | completes possible =>
    rw [later _ (by simp), later _ (by simp)]
    exact .completes rfl possible
  | settles =>
    rw [later _ (by simp), later _ (by simp)]
    exact .retired rfl

theorem onStep_ensure {id : Nat} {pos : EnsurePos} (going : ∀ ok, pos ≠ .done ok) :
    onStep choice s topic (.ensure id pos) =
      (ensureStep choice s topic pos).map fun (s', pos') => (s', .ensure id pos') := by
  cases pos with
  | done ok => exact absurd rfl (going ok)
  | _ => rfl

theorem onStep_rollback {id : Nat} {pos : UnsubPos} (going : ∀ ok, pos ≠ .done ok) :
    onStep choice s topic (.rollback id pos) =
      (unsubStep choice s id pos).map fun (s', pos') => (s', .rollback id pos') := by
  cases pos with
  | done ok => exact absurd rfl (going ok)
  | _ => rfl

theorem connectedStep_restore {generation : Nat} {all : Bool} {pos : EnsurePos}
    {rest : List GoString} (going : ∀ ok, pos ≠ .done ok) :
    connectedStep choice s (.restore generation all topic pos rest) =
      (ensureStep choice s topic pos).map fun (s', pos') =>
        (s', .restore generation all topic pos' rest) := by
  cases pos with
  | done ok => exact absurd rfl (going ok)
  | _ => rfl

theorem onStep_effect (named : topic ≠ []) {pos pos' : OnPos}
    (moved : onStep choice s topic pos = some (s', pos')) :
    Effect s (pos.view topic) s' (pos'.view topic) := by
  cases pos with
  | opened =>
    cases moved
    split_ifs <;> exact .quiet
  | allot =>
    cases moved
    exact .allots rfl named
  | join id =>
    cases moved
    exact .joins rfl
  | ensure id pos =>
    by_cases done : ∃ ok, pos = .done ok
    · obtain ⟨ok, rfl⟩ := done
      cases ok with
      | true =>
        cases moved
        exact .returns rfl
      | false =>
        cases moved
        exact .quiet
    · rw [onStep_ensure (not_exists.mp done), Option.map_eq_some_iff] at moved
      obtain ⟨⟨next, pos₁⟩, step, result⟩ := moved
      cases result
      exact (ensureStep_steps step).effect_on id
  | rollback id pos =>
    by_cases done : ∃ ok, pos = .done ok
    · obtain ⟨ok, rfl⟩ := done
      cases moved
      exact .fails rfl
    · rw [onStep_rollback (not_exists.mp done), Option.map_eq_some_iff] at moved
      obtain ⟨⟨next, pos₁⟩, step, result⟩ := moved
      cases result
      have removing : (Stage.rejected id topic).removing = some (id, .removed id) := rfl
      refine (unsubStep_steps step).effect removing
        (fun pos => (OnPos.rollback id pos).view topic) rfl fun pos other => ?_
      cases pos with
      | remove => exact absurd rfl other
      | _ => rfl
  | finished => cases moved

theorem restoreNext_view (generation : Nat) (all : Bool) (topics : List GoString) :
    (restoreNext generation all topics).view = { recovery := .loop generation } := by
  cases topics <;> rfl

theorem connectedStep_effect {pos pos' : ConnectedPos}
    (moved : connectedStep choice s pos = some (s', pos')) : Effect s pos.view s' pos'.view := by
  cases pos with
  | bump =>
    cases moved
    exact .starts rfl
  | stale generation =>
    cases moved
    exact .stales rfl
  | check generation =>
    cases moved
    split_ifs with other
    · exact .stops rfl rfl (.inl other)
    · exact .quiet
  | checkOpen generation =>
    cases moved
    split_ifs with opened
    · exact .quiet
    · exact .stops rfl rfl (.inr (.inl (Bool.eq_false_iff.mpr opened)))
  | topics generation =>
    cases moved
    rw [restoreNext_view]
    exact .quiet
  | restore generation all topic pos rest =>
    by_cases done : ∃ ok, pos = .done ok
    · obtain ⟨ok, rfl⟩ := done
      cases moved
      rw [restoreNext_view]
      exact .quiet
    · rw [connectedStep_restore (not_exists.mp done), Option.map_eq_some_iff] at moved
      obtain ⟨⟨next, pos₁⟩, step, result⟩ := moved
      cases result
      exact (ensureStep_steps step).effect_restore generation all rest
  | verify | verifyOpen =>
    cases moved
    split_ifs <;> exact .quiet
  | ready generation =>
    cases moved
    split_ifs with ready
    · exact .stops rfl rfl (.inr (.inr ready))
    · exact .quiet
  | sleep generation =>
    cases moved
    exact .quiet
  | finished => cases moved

def Thread.Named : Thread → Prop
  | .on topic _ => topic ≠ []
  | _ => True

theorem advance_effect {t t' : Thread} {spawned : List Thread} (named : t.Named)
    (moved : advance choice s t = some (s', t', spawned)) :
    Effect s t.view s' t'.view ∧ t'.Named ∧ spawned = [] := by
  cases t with
  | on topic pos =>
    obtain ⟨⟨next, pos'⟩, step, result⟩ := Option.map_eq_some_iff.mp moved
    cases result
    exact ⟨onStep_effect named step, named, rfl⟩
  | unsubscribe id pos =>
    obtain ⟨⟨next, pos'⟩, step, result⟩ := Option.map_eq_some_iff.mp moved
    cases result
    have removing : (Stage.leaving id).removing = some (id, .none) := rfl
    refine ⟨(unsubStep_steps step).effect removing
      (fun pos => (Thread.unsubscribe id pos).view) rfl fun pos other => ?_, trivial, rfl⟩
    cases pos with
    | remove => exact absurd rfl other
    | _ => rfl
  | lost pos =>
    obtain ⟨⟨next, pos'⟩, step, result⟩ := Option.map_eq_some_iff.mp moved
    cases result
    cases pos with
    | bump =>
      cases step
      exact ⟨.loses rfl, trivial, rfl⟩
    | stale =>
      cases step
      exact ⟨.forgets rfl, trivial, rfl⟩
    | finished => cases step
  | connected pos =>
    obtain ⟨⟨next, pos'⟩, step, result⟩ := Option.map_eq_some_iff.mp moved
    cases result
    exact ⟨connectedStep_effect step, trivial, rfl⟩

end Refinement

inductive Occurs (s : Shared) : Shared → List View → Prop
  | subscribes : Occurs s s [{}]
  | unsubscribes {id : Nat} {topic : GoString} (known : (id, topic) ∈ s.returned) :
      Occurs s { s with unsubscribed := s.unsubscribed ++ [id] } [{ stage := .leaving id }]
  | connects : Occurs s { s with isOpen := true, completed := [] } [{ recovery := .due }]
  | loses : Occurs s { s with isOpen := false, completed := [] } [{ recovery := .lostBump }]
  | disconnects : Occurs s { s with isOpen := false, completed := [] } []

theorem occur_occurs {baseTopic : GoString} {call : Call} {s s' : Shared} {spawned : List Thread}
    (happened : occur baseTopic call s = some (s', spawned)) :
    Occurs s s' (spawned.map Thread.view) ∧ ∀ t ∈ spawned, t.Named := by
  cases call with
  | subscribe roomID typ =>
    simp only [occur] at happened
    split at happened
    · cases happened
      refine ⟨.subscribes, fun t member => ?_⟩
      rw [List.mem_singleton.mp member]
      simp [Thread.Named, topic, str]
    · cases happened
  | unsubscribe id =>
    simp only [occur] at happened
    split_ifs at happened with known
    cases happened
    obtain ⟨⟨id', topic⟩, member, same⟩ := List.any_eq_true.mp known
    rw [decide_eq_true_eq] at same
    subst same
    exact ⟨.unsubscribes member, by simp [Thread.Named]⟩
  | connected =>
    simp only [occur] at happened
    split_ifs at happened
    cases happened
    exact ⟨.connects, by simp [Thread.Named]⟩
  | connectionLost =>
    simp only [occur] at happened
    split_ifs at happened
    cases happened
    exact ⟨.loses, by simp [Thread.Named]⟩
  | disconnect =>
    cases happened
    exact ⟨.disconnects, by simp⟩

end Telekit.Mqtt
