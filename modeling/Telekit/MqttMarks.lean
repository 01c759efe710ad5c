import Telekit.MqttGroups

/-! When the mark of a group can be trusted. A mark is as good as the last native
operation on its topic unless the connection is gone or a reconnect is still to
make the marks stale, and a handler without a mark is still being subscribed or
a recovery is under way. Three steps can break this, and they are excluded as
long as steps are orderly: a handler that joins a group whose UNSUBSCRIBE is in
flight, a lost connection that is reported after its successor began to recover,
and marks that become stale when no recovery follows. -/

namespace Telekit.Mqtt

def Stage.unsettled : Stage → Option Nat
  | .waiting id _ | .rejected id _ => some id
  | _ => Option.none

def Recovery.isDue : Recovery → Bool
  | .due => true
  | _ => false

def Recovery.refreshes (generation : Nat) : Recovery → Bool
  | .due => true
  | .stale own => decide (own = generation)
  | _ => false

def Recovery.restores (generation : Nat) : Recovery → Bool
  | .due => true
  | .stale own | .loop own => decide (own = generation)
  | _ => false

def Awaits (kind : Recovery → Bool) (s : Shared) (views : List View) : Prop :=
  s.isOpen = false ∨ ∃ v ∈ views, kind v.recovery = true

def lastOperation (completed : List Operation) (topic : GoString) : Option Operation :=
  (completed.filter fun o => o.topic = topic).getLast?

theorem lastOperation_concat (completed : List Operation) (o : Operation) (topic : GoString) :
    lastOperation (completed ++ [o]) topic =
      if o.topic = topic then some o else lastOperation completed topic := by
  unfold lastOperation
  split_ifs with same <;> simp [List.filter_append, same]

def Subscribed (s : Shared) (topic : GoString) : Prop :=
  lastOperation s.completed topic = some ⟨topic, .subscribe, true⟩

structure Marks (s : Shared) (views : List View) : Prop where
  covered : ∀ g, ∀ id ∈ s.handlersOf g, s.marked g = true ∨
    Awaits (Recovery.restores s.generation) s views ∨ ∃ v ∈ views, v.stage.unsettled = some id
  retiring : ∀ v ∈ views, ∀ w, v.work = some w → w.kind = .unsubscribe →
    ∀ id ∈ s.handlersOf w.g, ∃ u ∈ views, u.stage.unsettled = some id
  outdated : ∀ v ∈ views, ∀ w id topic, v.work = some w → w.kind = .subscribe →
    v.stage = .waiting id topic → w.generation ≠ s.generation →
    Awaits (Recovery.restores s.generation) s views
  native : ∀ topic g, s.subs topic = some g → s.marked g = true → s.busy g = false →
    Subscribed s topic ∨ Awaits (Recovery.refreshes s.generation) s views
  acknowledged : ∀ v ∈ views, ∀ w, v.work = some w → w.kind = .subscribe →
    w.outcome = some true → w.generation = s.generation →
    Subscribed s w.topic ∨ Awaits Recovery.isDue s views

structure Permitted (s : Shared) (views : List View) (v v' : View) : Prop where
  joins : ∀ id topic, v.stage = .waiting id topic → v.work = none →
    v'.stage = .accepted id topic → ∀ g, s.subs topic = some g → s.marked g = true →
    s.busy g = false
  lost : v.recovery = .lostBump → Awaits Recovery.isDue s views
  forgets : v.recovery = .lostStale → Awaits (Recovery.restores s.generation) s views
  stale : ∀ own, v.recovery = .stale own → Awaits (Recovery.restores s.generation) s views

section Sets
variable {views : List View} {n : Nat} {v v' : View}

theorem mem_set_cases {u : View} (inside : u ∈ views.set n v') :
    u = v' ∨ ∃ m, m ≠ n ∧ views[m]? = some u := by
  obtain ⟨m, found⟩ := List.mem_iff_getElem?.mp inside
  rw [List.getElem?_set] at found
  split_ifs at found with same
  · exact .inl (Option.some.inj found).symm
  · exact .inr ⟨m, Ne.symm same, found⟩

theorem Awaits.set {s s' : Shared} {kind : Recovery → Bool} (running : views[n]? = some v)
    (isOpen : s'.isOpen = s.isOpen) (kept : kind v.recovery = true → kind v'.recovery = true)
    (awaits : Awaits kind s views) : Awaits kind s' (views.set n v') :=
  awaits.imp (fun closed => isOpen.trans closed)
    (exists_set running kept)

end Sets

section Effects
variable {s s' : Shared} {views : List View} {n : Nat} {v v' : View}

theorem Awaits.weaken {kind kind' : Recovery → Bool} (weaker : ∀ r, kind r = true → kind' r = true)
    (awaits : Awaits kind s views) : Awaits kind' s views :=
  awaits.imp_right fun ⟨u, inside, has⟩ => ⟨u, inside, weaker _ has⟩

theorem Recovery.isDue_refreshes (generation : Nat) (r : Recovery) (due : r.isDue = true) :
    r.refreshes generation = true := by
  cases r with
  | due => rfl
  | _ => cases due

theorem Recovery.isDue_restores (generation : Nat) (r : Recovery) (due : r.isDue = true) :
    r.restores generation = true := by
  cases r with
  | due => rfl
  | _ => cases due

/-- A step that leaves the generation alone and makes no view take up an operation
has three clauses left to show. -/
theorem Marks.carry (marks : Marks s views) {views' : List View}
    (generation : s'.generation = s.generation)
    (awaits : ∀ kind, (∀ r, Recovery.isDue r = true → kind r = true) → Awaits kind s views →
      Awaits kind s' views')
    (completed : s'.completed = s.completed ∨ Awaits Recovery.isDue s' views')
    (old : ∀ u ∈ views', ∀ w, u.work = some w → ∃ u₀ ∈ views, u₀.work = some w ∧
      ∀ id topic, u.stage = .waiting id topic → u₀.stage = .waiting id topic)
    (covered : ∀ g, ∀ id ∈ s'.handlersOf g, s'.marked g = true ∨
      Awaits (Recovery.restores s.generation) s views ∨ ∃ u ∈ views', u.stage.unsettled = some id)
    (retiring : ∀ u ∈ views', ∀ w, u.work = some w → w.kind = .unsubscribe →
      ∀ id ∈ s'.handlersOf w.g, ∃ u ∈ views', u.stage.unsettled = some id)
    (native : ∀ topic g, s'.subs topic = some g → s'.marked g = true → s'.busy g = false →
      Subscribed s topic ∨ Awaits (Recovery.refreshes s.generation) s views) : Marks s' views' := by
  refine ⟨?_, retiring, ?_, ?_, ?_⟩
  · intro g id inside
    rw [generation]
    exact (covered g id inside).imp_right (Or.imp_left (awaits _ (Recovery.isDue_restores _)))
  · intro u inside w id topic working kind stage outdated
    rw [generation] at outdated ⊢
    obtain ⟨u₀, inside₀, before, waits⟩ := old u inside w working
    exact awaits _ (Recovery.isDue_restores _)
      (marks.outdated u₀ inside₀ w id topic before kind (waits id topic stage) outdated)
  · intro topic g held mark free
    rw [generation]
    rcases completed with completed | due
    · rw [Subscribed, completed]
      exact (native topic g held mark free).imp_right (awaits _ (Recovery.isDue_refreshes _))
    · exact .inr (due.weaken (Recovery.isDue_refreshes _))
  · intro u inside w working kind outcome current
    rw [generation] at current
    obtain ⟨u₀, inside₀, before, _⟩ := old u inside w working
    rcases completed with completed | due
    · rw [Subscribed, completed]
      exact (marks.acknowledged u₀ inside₀ w before kind outcome current).imp_right
        (awaits _ fun _ due => due)
    · exact .inr due

/-- The same for one thread's step; an operation of this thread is one it keeps. -/
theorem Marks.step (marks : Marks s views) (running : views[n]? = some v)
    (rest : s'.completed = s.completed ∧ s'.isOpen = s.isOpen ∧ s'.generation = s.generation)
    (recovery : v'.recovery = v.recovery)
    (own : ∀ w, v'.work = some w → v.work = some w ∧
      ∀ id topic, v'.stage = .waiting id topic → v.stage = .waiting id topic)
    (covered : ∀ g, ∀ id ∈ s'.handlersOf g, s'.marked g = true ∨
      Awaits (Recovery.restores s.generation) s views ∨
        ∃ u ∈ views.set n v', u.stage.unsettled = some id)
    (retiring : ∀ m u w, views[m]? = some u → (m = n → v'.work = some w) → u.work = some w →
      w.kind = .unsubscribe → ∀ id ∈ s'.handlersOf w.g,
        ∃ u ∈ views.set n v', u.stage.unsettled = some id)
    (native : ∀ topic g, s'.subs topic = some g → s'.marked g = true → s'.busy g = false →
      Subscribed s topic ∨ Awaits (Recovery.refreshes s.generation) s views) :
    Marks s' (views.set n v') := by
  obtain ⟨completed, isOpen, generation⟩ := rest
  refine marks.carry generation (fun kind _ => Awaits.set running isOpen fun has => ?_)
    (.inl completed) ?_ covered ?_ native
  · rw [recovery, has]
  · intro u inside w working
    rcases mem_set_cases inside with rfl | ⟨m, ne, found⟩
    · exact ⟨v, List.mem_of_getElem? running, own w working⟩
    · exact ⟨u, List.mem_of_getElem? found, working, fun _ _ same => same⟩
  · intro u inside w working
    rcases mem_set_cases inside with rfl | ⟨m, ne, found⟩
    · exact retiring n v w running (fun _ => working) (own w working).1
    · exact retiring m u w found (fun same => absurd same ne) working

theorem Marks.still (marks : Marks s views) (running : views[n]? = some v)
    (handlers : ∀ g, ∀ id ∈ s'.handlersOf g, id ∈ s.handlersOf g ∧
      (v.stage.unsettled = some id → v'.stage.unsettled = some id))
    (marked : ∀ g, s'.marked g = s.marked g) (busy : ∀ g, s'.busy g = s.busy g)
    (subs : ∀ topic g, s'.subs topic = some g → s.subs topic = some g)
    (rest : s'.completed = s.completed ∧ s'.isOpen = s.isOpen ∧ s'.generation = s.generation)
    (recovery : v'.recovery = v.recovery) (work : v'.work = v.work)
    (waiting : ∀ id topic, v'.stage = .waiting id topic → v'.work = none ∨ v.stage = v'.stage) :
    Marks s' (views.set n v') := by
  refine marks.step running rest recovery ?_ ?_ ?_ ?_
  · intro w working
    refine ⟨work ▸ working, fun id topic stage => ?_⟩
    rcases waiting id topic stage with idle | same
    · rw [idle] at working
      cases working
    · rw [same, stage]
  · intro g id inside
    obtain ⟨was, keeps⟩ := handlers g id inside
    rw [marked]
    exact (marks.covered g id was).imp_right (Or.imp_right (exists_set running keeps))
  · intro m u w found _ working kind id handled
    obtain ⟨was, keeps⟩ := handlers w.g id handled
    exact exists_set running keeps
      (marks.retiring u (List.mem_of_getElem? found) w working kind id was)
  · intro topic g held mark free
    rw [marked] at mark
    rw [busy] at free
    exact marks.native topic g (subs topic g held) mark free

variable {topic : GoString}

theorem Core.handler_home (core : Core s views) (member : v ∈ views) {id : Nat}
    (waiting : v.stage = .waiting id topic) : s.Registered id topic := by
  have staged := (core.fits v member).stage
  rw [waiting] at staged
  exact staged

theorem Marks.joins (marks : Marks s views) (core : Core s views) {id : Nat}
    (running : views[n]? = some { stage := .joining id topic }) :
    Marks (s.join topic id) (views.set n { stage := .waiting id topic }) := by
  have handlers := (s.join_handlersOf · id topic (core.layout.registered topic))
  have rest : (s.join topic id).completed = s.completed ∧ (s.join topic id).isOpen = s.isOpen ∧
      (s.join topic id).generation = s.generation := by
    unfold Shared.join
    split <;> exact ⟨rfl, rfl, rfl⟩
  have members : ∀ g, ∀ i ∈ (s.join topic id).handlersOf g, i ∈ s.handlersOf g ∨ i = id := by
    intro g i inside
    rw [handlers] at inside
    split_ifs at inside
    · rcases List.mem_append.mp inside with old | new
      · exact .inl old
      · exact .inr (List.mem_singleton.mp new)
    · exact .inl inside
  have unsettled : ∀ i, (∃ u ∈ views, u.stage.unsettled = some i) ∨ i = id →
      ∃ u ∈ views.set n { stage := .waiting id topic }, u.stage.unsettled = some i := by
    rintro i (some_has | rfl)
    · exact exists_set running (fun has => by cases has) some_has
    · exact ⟨_, mem_set_self running, rfl⟩
  refine marks.step running rest rfl nofun ?_ ?_ ?_
  · intro g i inside
    rw [s.join_marked]
    rcases members g i inside with old | new
    · exact (marks.covered g i old).imp_right (Or.imp_right fun open_ => unsettled i (.inl open_))
    · exact .inr (.inr (unsettled i (.inr new)))
  · intro m u w found _ working kind i handled
    refine unsettled i ((members w.g i handled).imp_left ?_)
    exact marks.retiring u (List.mem_of_getElem? found) w working kind i
  · intro t g held mark free
    rw [s.join_marked] at mark
    rw [s.join_busy] at free
    refine marks.native t g ?_ mark free
    rw [s.join_subs, Function.update_apply] at held
    split_ifs at held with same
    · cases was : s.subs topic with
      | some h =>
        rw [Shared.target, was, Option.getD_some] at held
        rw [same, was, held]
      | none =>
        -- a new group has no mark
        rw [Shared.target, was, Option.getD_none] at held
        rw [← Option.some.inj held] at mark
        simp [Shared.marked] at mark
    · exact held

theorem Marks.accepts (marks : Marks s views) (core : Core s views) {id : Nat}
    (running : views[n]? = some { stage := .waiting id topic })
    (marked : ∀ g, s.subs topic = some g → s.handlersOf g = [] ∨ s.marked g = true)
    (permitted : ∀ g, s.subs topic = some g → s.marked g = true → s.busy g = false) :
    Marks s (views.set n { stage := .accepted id topic }) := by
  have member := List.mem_of_getElem? running
  obtain ⟨h, held, inside_h⟩ := core.handler_home member rfl
  have mark : s.marked h = true :=
    (marked h held).resolve_left (List.ne_nil_of_mem inside_h)
  have unsettled : ∀ g, ∀ i ∈ s.handlersOf g, (∃ u ∈ views, u.stage.unsettled = some i) →
      g = h ∨ ∃ u ∈ views.set n { stage := .accepted id topic }, u.stage.unsettled = some i := by
    intro g i inside some_has
    by_cases same : i = id
    · rw [same] at inside
      exact .inl (core.layout.single g h id inside inside_h)
    · exact .inr (exists_set running
        (fun has => absurd (Option.some.inj has).symm same) some_has)
  refine marks.step running ⟨rfl, rfl, rfl⟩ rfl nofun ?_ ?_ marks.native
  · intro g i inside
    rcases marks.covered g i inside with mark' | awaited | open_
    · exact .inl mark'
    · exact .inr (.inl awaited)
    · rcases unsettled g i inside open_ with rfl | open_'
      · exact .inl mark
      · exact .inr (.inr open_')
  · intro m u w found _ working kind i handled
    have member_u := List.mem_of_getElem? found
    rcases unsettled w.g i handled (marks.retiring u member_u w working kind i handled)
      with rfl | open_
    · have busy := core.busy member_u working
      rw [permitted w.g held mark] at busy
      cases busy
    · exact open_

theorem Marks.works (marks : Marks s views) (running : views[n]? = some v)
    (handlers : ∀ g, s'.handlersOf g = s.handlersOf g) (marked : ∀ g, s'.marked g = s.marked g)
    (rest : s'.subs = s.subs ∧ s'.isOpen = s.isOpen ∧ s'.generation = s.generation)
    (stage : v'.stage = v.stage) (recovery : v'.recovery = v.recovery)
    (retiring : ∀ w, v'.work = some w → w.kind = .unsubscribe → s.handlersOf w.g = [] ∨
      ∃ w₀, v.work = some w₀ ∧ w₀.kind = .unsubscribe ∧ w₀.g = w.g)
    (current : ∀ w, v'.work = some w → w.kind = .subscribe → w.generation = s.generation ∨
      ∃ w₀, v.work = some w₀ ∧ w₀.kind = .subscribe ∧ w₀.generation = w.generation)
    (native : ∀ topic g, s.subs topic = some g → s'.busy g = false →
      s.busy g = false ∧ (Subscribed s topic → Subscribed s' topic))
    (others : ∀ m u w, m ≠ n → views[m]? = some u → u.work = some w →
      Subscribed s w.topic → Subscribed s' w.topic)
    (own : ∀ w, v'.work = some w → w.kind = .subscribe → w.outcome = some true →
      Subscribed s' w.topic) : Marks s' (views.set n v') := by
  obtain ⟨subs, isOpen, generation⟩ := rest
  have member := List.mem_of_getElem? running
  have awaits : ∀ kind, Awaits kind s views → Awaits kind s' (views.set n v') := fun kind =>
    Awaits.set running isOpen fun has => by rw [recovery, has]
  have unsettled : ∀ id, (∃ u ∈ views, u.stage.unsettled = some id) →
      ∃ u ∈ views.set n v', u.stage.unsettled = some id := fun id =>
    exists_set running fun has => by rw [stage, has]
  constructor
  · intro g id inside
    rw [handlers] at inside
    rw [marked, generation]
    exact (marks.covered g id inside).imp_right (Or.imp (awaits _) (unsettled id))
  · intro u inside w working kind id handled
    rw [handlers] at handled
    apply unsettled
    rcases mem_set_cases inside with rfl | ⟨m, ne, found⟩
    · rcases retiring w working kind with empty | ⟨w₀, before, kind₀, same⟩
      · rw [empty] at handled
        cases handled
      · rw [← same] at handled
        exact marks.retiring v member w₀ before kind₀ id handled
    · exact marks.retiring u (List.mem_of_getElem? found) w working kind id handled
  · intro u inside w id topic working kind waiting outdated
    rw [generation] at outdated ⊢
    apply awaits
    rcases mem_set_cases inside with rfl | ⟨m, ne, found⟩
    · rcases current w working kind with now | ⟨w₀, before, kind₀, same⟩
      · exact absurd now outdated
      · rw [← same] at outdated
        exact marks.outdated v member w₀ id topic before kind₀ (by rw [← stage, waiting]) outdated
    · exact marks.outdated u (List.mem_of_getElem? found) w id topic working kind waiting outdated
  · intro topic g held mark free
    rw [subs] at held
    rw [marked] at mark
    rw [generation]
    obtain ⟨wasFree, keeps⟩ := native topic g held free
    exact (marks.native topic g held mark wasFree).imp keeps (awaits _)
  · intro u inside w working kind outcome now
    rw [generation] at now
    rcases mem_set_cases inside with rfl | ⟨m, ne, found⟩
    · exact .inl (own w working kind outcome)
    · exact (marks.acknowledged u (List.mem_of_getElem? found) w working kind outcome now).imp
        (others m u w ne found working) (awaits _)

theorem Marks.begins (marks : Marks s views) (core : Core s views) (running : views[n]? = some v)
    {g : Nat} (held : s.subs topic = some g) {w : Work} (outcome : w.outcome = none)
    (retiring : w.kind = .unsubscribe → s.handlersOf w.g = [])
    (current : w.kind = .subscribe → w.generation = s.generation) :
    Marks (s.begin g) (views.set n { v with work := some w }) := by
  have subscribed : ∀ topic, Subscribed (s.begin g) topic ↔ Subscribed s topic := fun _ => Iff.rfl
  refine marks.works running (s.begin_handlersOf g) (s.begin_marked g) ⟨rfl, rfl, rfl⟩ rfl rfl
    ?_ ?_ ?_ ?_ ?_
  · intro w' working kind
    cases working
    exact .inl (retiring kind)
  · intro w' working kind
    cases working
    exact .inl (current kind)
  · intro t h _ free
    rw [s.begin_busy g h (core.layout.exists_group held)] at free
    split_ifs at free
    exact ⟨free, (subscribed t).mpr⟩
  · exact fun m u w' _ _ _ => (subscribed w'.topic).mpr
  · intro w' working kind outcome'
    cases working
    rw [outcome] at outcome'
    cases outcome'

variable {generation : Nat}

theorem Marks.completes (marks : Marks s views) (core : Core s views) (running : views[n]? = some v)
    {kind : Kind} {g : Nat} {ok : Bool}
    (working : v.work = some ⟨kind, g, topic, generation, none⟩) :
    Marks (s.complete ⟨topic, kind, ok⟩)
      (views.set n { v with work := some ⟨kind, g, topic, generation, some ok⟩ }) := by
  have member := List.mem_of_getElem? running
  have held : s.subs topic = some g := core.home member working
  have other : ∀ t, t ≠ topic → Subscribed s t → Subscribed (s.complete ⟨topic, kind, ok⟩) t := by
    intro t different was
    rw [Subscribed, Shared.complete, lastOperation_concat, if_neg (Ne.symm different)]
    exact was
  refine marks.works running (fun _ => rfl) (fun _ => rfl) ⟨rfl, rfl, rfl⟩ rfl rfl ?_ ?_ ?_ ?_ ?_
  · intro w working' kind'
    cases working'
    exact .inr ⟨_, working, kind', rfl⟩
  · intro w working' kind'
    cases working'
    exact .inr ⟨_, working, kind', rfl⟩
  · intro t h held' free
    refine ⟨free, other t ?_⟩
    rintro rfl
    rw [held] at held'
    cases held'
    have busy : s.busy g = true := core.busy member working
    rw [show s.busy g = false from free] at busy
    cases busy
  · intro m u w ne found working'
    refine other w.topic ?_
    intro same
    have home := core.home (List.mem_of_getElem? found) working'
    rw [same, held] at home
    refine core.work_apart ne running found (by rw [working, Option.map_some]) ?_
    rw [working', Option.map_some]
    exact home.symm
  · intro w working' kind' outcome
    cases working'
    cases kind'
    cases outcome
    rw [Subscribed, Shared.complete, lastOperation_concat, if_pos rfl]

/-- A SUBSCRIBE that returned decides only about its own handler, which stands in
its group. -/
theorem settle_unsettled {stage : Stage} {ok : Bool} {id : Nat}
    (before : stage.unsettled = some id) :
    (stage.settle ok).unsettled = some id ∨ (ok = true ∧ ∃ topic, stage = .waiting id topic) := by
  cases stage with
  | waiting i topic =>
    cases before
    cases ok with
    | true => exact .inr ⟨rfl, topic, rfl⟩
    | false => exact .inl rfl
  | rejected i topic => exact .inl before
  | _ => cases before

theorem Marks.settles (marks : Marks s views) (core : Core s views) (running : views[n]? = some v)
    {g : Nat} {ok : Bool} (working : v.work = some ⟨.subscribe, g, topic, generation, some ok⟩)
    (channel : Nat) :
    Marks (s.finish g channel (ok && decide (s.generation = generation)))
      (views.set n { v with work := none, stage := v.stage.settle ok }) := by
  have member := List.mem_of_getElem? running
  have fit := (core.fits v member).work _ working
  have held : s.subs topic = some g := core.home member working
  have made : s.topicOf g ≠ none := core.layout.exists_group held
  have unmarked : s.marked g = false := fit.unmarked rfl
  have marked := (s.finish_marked g · channel (ok && decide (s.generation = generation)) made)
  have busy := (s.finish_busy g · channel (ok && decide (s.generation = generation)) made)
  -- the handler of the operation stands in its group only
  have home : ∀ h i t, i ∈ s.handlersOf h → v.stage = .waiting i t → h = g := by
    intro h i t inside waiting
    obtain ⟨k, held', inside'⟩ := core.handler_home member waiting
    rw [← core.own v member _ i t working rfl waiting, held] at held'
    cases held'
    exact core.layout.single h g i inside inside'
  have unsettled : ∀ h, ∀ i ∈ s.handlersOf h, (∃ u ∈ views, u.stage.unsettled = some i) →
      (∃ u ∈ views.set n { v with work := none, stage := v.stage.settle ok },
        u.stage.unsettled = some i) ∨ (h = g ∧ ok = true ∧ ∃ t, v.stage = .waiting i t) := by
    intro h i inside some_has
    by_cases own : v.stage.unsettled = some i
    · rcases settle_unsettled own with kept | ⟨good, t, waiting⟩
      · exact .inl ⟨_, mem_set_self running, kept⟩
      · exact .inr ⟨home h i t inside waiting, good, t, waiting⟩
    · exact .inl (exists_set running (fun has => absurd has own) some_has)
  refine marks.step running ⟨rfl, rfl, rfl⟩ rfl nofun ?_ ?_ ?_
  · intro h i inside
    rw [Shared.finish_handlersOf] at inside
    rw [marked]
    rcases marks.covered h i inside with mark | awaited | open_
    · refine .inl ?_
      rw [if_neg, mark]
      rintro rfl
      rw [unmarked] at mark
      cases mark
    · exact .inr (.inl awaited)
    · rcases unsettled h i inside open_ with kept | ⟨rfl, good, t, waiting⟩
      · exact .inr (.inr kept)
      · by_cases current : s.generation = generation
        · exact .inl (by simp [good, current])
        · exact .inr (.inl (marks.outdated v member _ i t working rfl waiting (Ne.symm current)))
  · intro m u w found kept working' kind i handled
    rw [Shared.finish_handlersOf] at handled
    rcases unsettled w.g i handled (marks.retiring u (List.mem_of_getElem? found) w working' kind
      i handled) with open_ | ⟨same, _⟩
    · exact open_
    · have ne : m ≠ n := fun own => by cases kept own
      refine absurd ?_ (core.work_apart ne running found (by rw [working, Option.map_some]))
      rw [working', Option.map_some, same]
  · intro t h held' mark free
    rw [marked] at mark
    rw [busy] at free
    split_ifs at mark free with here
    · subst here
      rw [Bool.and_eq_true, decide_eq_true_eq] at mark
      have same := core.layout.registered t h held'
      rw [fit.made, Option.some.injEq] at same
      subst same
      exact (marks.acknowledged v member _ working rfl (congrArg some mark.1) mark.2.symm).imp_right
        (Awaits.weaken (Recovery.isDue_refreshes _))
    · exact marks.native t h held' mark free

theorem Marks.retired (marks : Marks s views) (core : Core s views) (running : views[n]? = some v)
    {g : Nat} {ok : Bool} (working : v.work = some ⟨.unsubscribe, g, topic, generation, some ok⟩)
    (channel : Nat) (s' : Shared) (groups : s'.groups = (s.finish g channel false).groups)
    (subs : ∀ t h, s'.subs t = some h → s.subs t = some h)
    (rest : s'.completed = s.completed ∧ s'.isOpen = s.isOpen ∧ s'.generation = s.generation) :
    Marks s' (views.set n { v with work := none, tends := none }) := by
  have member := List.mem_of_getElem? running
  have made : s.topicOf g ≠ none := core.layout.exists_group (core.home member working)
  have handlers : ∀ h, s'.handlersOf h = s.handlersOf h := fun h => by
    rw [← s.finish_handlersOf g h channel false]
    simp only [Shared.handlersOf, groups]
  have marked : ∀ h, s'.marked h = if h = g then false else s.marked h := fun h => by
    rw [← s.finish_marked g h channel false made]
    simp only [Shared.marked, groups]
  have busy : ∀ h, s'.busy h = if h = g then false else s.busy h := fun h => by
    rw [← s.finish_busy g h channel false made]
    simp only [Shared.busy, groups]
  have unsettled : ∀ i, (∃ u ∈ views, u.stage.unsettled = some i) →
      ∃ u ∈ views.set n { v with work := none, tends := none }, u.stage.unsettled = some i :=
    fun i => exists_set running fun has => has
  refine marks.step running rest rfl (by simp) ?_ ?_ ?_
  · intro h i inside
    rw [handlers] at inside
    rw [marked]
    by_cases here : h = g
    · subst here
      exact .inr (.inr (unsettled i (marks.retiring v member _ working rfl i inside)))
    · rw [if_neg here]
      exact (marks.covered h i inside).imp_right (Or.imp_right (unsettled i))
  · intro m u w found _ working' kind i handled
    rw [handlers] at handled
    exact unsettled i (marks.retiring u (List.mem_of_getElem? found) w working' kind i handled)
  · intro t h held mark free
    rw [marked] at mark
    rw [busy] at free
    split_ifs at mark free
    exact marks.native t h (subs t h held) mark free

theorem mem_set_origin (running : views[n]? = some v) (stage : v'.stage = v.stage)
    (work : v'.work = v.work) {u : View} (inside : u ∈ views.set n v') :
    ∃ u₀ ∈ views, u₀.work = u.work ∧ u₀.stage = u.stage := by
  rcases mem_set_cases inside with rfl | ⟨m, ne, found⟩
  · exact ⟨v, List.mem_of_getElem? running, work.symm, stage.symm⟩
  · exact ⟨u, List.mem_of_getElem? found, rfl, rfl⟩

theorem Marks.renews (marks : Marks s views) (running : views[n]? = some v)
    (handlers : ∀ g, s'.handlersOf g = s.handlersOf g) (stage : v'.stage = v.stage)
    (work : v'.work = v.work)
    (restores : Awaits (Recovery.restores s'.generation) s' (views.set n v'))
    (native : ∀ topic g, s'.subs topic = some g → s'.marked g = true → s'.busy g = false →
      Subscribed s' topic ∨ Awaits (Recovery.refreshes s'.generation) s' (views.set n v'))
    (acknowledged : ∀ u ∈ views, ∀ w, u.work = some w → w.kind = .subscribe →
      w.outcome = some true → w.generation = s'.generation →
      Subscribed s' w.topic ∨ Awaits Recovery.isDue s' (views.set n v')) :
    Marks s' (views.set n v') := by
  refine ⟨fun _ _ _ => .inr (.inl restores), ?_, fun _ _ _ _ _ _ _ _ _ => restores, native, ?_⟩
  · intro u inside w working kind id handled
    rw [handlers] at handled
    obtain ⟨u₀, inside₀, same, _⟩ := mem_set_origin running stage work inside
    exact exists_set running (fun has => by rw [stage, has])
      (marks.retiring u₀ inside₀ w (by rw [same, working]) kind id handled)
  · intro u inside w working kind outcome current
    obtain ⟨u₀, inside₀, same, _⟩ := mem_set_origin running stage work inside
    exact acknowledged u₀ inside₀ w (by rw [same, working]) kind outcome current

theorem Marks.loses (marks : Marks s views) (running : views[n]? = some v)
    (lost : v.recovery = .lostBump) (due : Awaits Recovery.isDue s views) :
    Marks { s with generation := s.generation + 1 }
      (views.set n { v with recovery := .lostStale }) := by
  have still : Awaits Recovery.isDue { s with generation := s.generation + 1 }
      (views.set n { v with recovery := .lostStale }) :=
    due.set running rfl fun has => by rw [lost] at has; cases has
  exact marks.renews running (fun _ => rfl) rfl rfl (still.weaken (Recovery.isDue_restores _))
    (fun _ _ _ _ _ => .inr (still.weaken (Recovery.isDue_refreshes _)))
    fun _ _ _ _ _ _ _ => .inr still

theorem Marks.starts (marks : Marks s views) (core : Core s views) (running : views[n]? = some v) :
    Marks { s with generation := s.generation + 1 }
      (views.set n { v with recovery := .stale (s.generation + 1) }) := by
  refine marks.renews running (fun _ => rfl) rfl rfl (.inr ⟨_, mem_set_self running, ?_⟩)
    (fun _ _ _ _ _ => .inr (.inr ⟨_, mem_set_self running, ?_⟩)) ?_
  · simp [Recovery.restores]
  · simp [Recovery.refreshes]
  · intro u inside w working kind outcome current
    have bound := ((core.fits u inside).work w working).generation
    simp only at current
    omega

theorem Marks.stales (marks : Marks s views) (core : Core s views) (running : views[n]? = some v)
    (recovery : Recovery) (keeps : ∀ generation, v.recovery.restores generation = true →
      recovery.restores generation = true) (undue : v.recovery.isDue = false)
    (restores : Awaits (Recovery.restores s.generation) s views) :
    Marks s.markSubscriptionsStale (views.set n { v with recovery := recovery }) := by
  refine marks.renews running s.stale_handlersOf rfl rfl ?_ ?_ ?_
  · exact restores.set running rfl (keeps s.generation)
  · intro topic g held mark free
    exact absurd held ((s.stale_marked g mark).2 topic (core.layout.registered topic g held))
  · intro u inside w working kind outcome current
    refine (marks.acknowledged u inside w working kind outcome current).imp_right ?_
    exact Awaits.set running rfl fun has => by rw [undue] at has; cases has

theorem Marks.stops (marks : Marks s views) (core : Core s views) (running : views[n]? = some v)
    (loop : v.recovery = .loop generation)
    (reason : s.generation ≠ generation ∨ s.isOpen = false ∨ s.subscriptionsReady = true) :
    Marks s (views.set n { v with recovery := .none }) := by
  have member := List.mem_of_getElem? running
  have refreshes : ∀ own, Awaits (Recovery.refreshes own) s views →
      Awaits (Recovery.refreshes own) s (views.set n { v with recovery := .none }) := fun own =>
    Awaits.set running rfl fun has => by rw [loop] at has; cases has
  have due : Awaits Recovery.isDue s views →
      Awaits Recovery.isDue s (views.set n { v with recovery := .none }) :=
    Awaits.set running rfl fun has => by rw [loop] at has; cases has
  have unsettled : ∀ i, (∃ u ∈ views, u.stage.unsettled = some i) →
      ∃ u ∈ views.set n { v with recovery := .none }, u.stage.unsettled = some i := fun i =>
    exists_set running fun has => has
  have old {u : View} : u ∈ views.set n { v with recovery := .none } →
      ∃ u₀ ∈ views, u₀.work = u.work ∧ u₀.stage = u.stage := mem_set_origin running (by rfl) (by rfl)
  -- either the recovery goes on elsewhere or everything is marked
  have ends : (Awaits (Recovery.restores s.generation) s views →
      Awaits (Recovery.restores s.generation) s (views.set n { v with recovery := .none })) ∨
      s.subscriptionsReady = true := by
    rcases reason with other | closed | ready
    · refine .inl (Awaits.set running rfl fun has => ?_)
      rw [loop, Recovery.restores, decide_eq_true_eq] at has
      exact absurd has.symm other
    · exact .inl fun _ => .inl closed
    · exact .inr ready
  have ready_marked : s.subscriptionsReady = true → ∀ g, ∀ i ∈ s.handlersOf g,
      s.marked g = true := by
    intro ready g i inside
    have occupied := List.ne_nil_of_mem inside
    obtain ⟨topic, made, held⟩ := core.layout.attached g (.inl occupied)
    exact Shared.subscriptionsReady_marked ready made held occupied
  constructor
  · intro g i inside
    rcases ends with awaits | ready
    · exact (marks.covered g i inside).imp_right (Or.imp awaits (unsettled i))
    · exact .inl (ready_marked ready g i inside)
  · intro u inside w working kind i handled
    obtain ⟨u₀, inside₀, work, _⟩ := old inside
    exact unsettled i (marks.retiring u₀ inside₀ w (by rw [work, working]) kind i handled)
  · intro u inside w i t working kind stage outdated
    obtain ⟨u₀, inside₀, work, stage₀⟩ := old inside
    rcases ends with awaits | ready
    · exact awaits (marks.outdated u₀ inside₀ w i t (by rw [work, working]) kind
        (by rw [stage₀, stage]) outdated)
    · -- a handler in wait has no mark
      have working₀ : u₀.work = some w := by rw [work, working]
      have waiting₀ : u₀.stage = .waiting i t := by rw [stage₀, stage]
      have unmarked := ((core.fits u₀ inside₀).work w working₀).unmarked kind
      obtain ⟨k, held, handled⟩ := core.handler_home inside₀ waiting₀
      rw [← core.own u₀ inside₀ w i t working₀ kind waiting₀, core.home inside₀ working₀] at held
      cases held
      rw [ready_marked ready w.g i handled] at unmarked
      cases unmarked
  · intro t g held mark free
    exact (marks.native t g held mark free).imp_right (refreshes _)
  · intro u inside w working kind outcome current
    obtain ⟨u₀, inside₀, work, _⟩ := old inside
    exact (marks.acknowledged u₀ inside₀ w (by rw [work, working]) kind outcome
      current).imp_right due

theorem removing_unsettled {stage after : Stage} {id i : Nat}
    (removing : stage.removing = some (id, after)) (unsettled : stage.unsettled = some i) :
    i = id := by
  cases stage with
  | rejected j topic =>
    cases removing
    cases unsettled
    rfl
  | leaving j => cases unsettled
  | _ => cases removing

theorem removing_waiting {stage after : Stage} {id i : Nat}
    (removing : stage.removing = some (id, after)) : after ≠ .waiting i topic := by
  intro same
  cases stage with
  | rejected | leaving =>
    cases removing
    cases same
  | _ => cases removing

theorem Marks.effect (marks : Marks s views) (core : Core s views) (running : views[n]? = some v)
    (effect : Effect s v s' v') (permitted : Permitted s views v v') :
    Marks s' (views.set n v') := by
  have keeps : ∀ g, ∀ id ∈ s.handlersOf g, id ∈ s.handlersOf g ∧
      (v.stage.unsettled = some id → v.stage.unsettled = some id) := fun _ _ inside =>
    ⟨inside, fun same => same⟩
  cases effect with
  | quiet | leaves =>
    exact marks.still running keeps (fun _ => rfl) (fun _ => rfl) (fun _ _ held => held)
      ⟨rfl, rfl, rfl⟩ rfl rfl fun _ _ _ => .inr rfl
  | allots idle =>
    subst idle
    exact marks.still running (fun _ _ inside => ⟨inside, fun none => by cases none⟩)
      (fun _ => rfl) (fun _ => rfl) (fun _ _ held => held) ⟨rfl, rfl, rfl⟩ rfl rfl
      fun _ _ waiting => by cases waiting
  | joins joining =>
    subst joining
    exact marks.joins core running
  | accepts waiting marked =>
    subst waiting
    exact marks.accepts core running marked (permitted.joins _ _ rfl rfl rfl)
  | begins idle own held =>
    exact marks.begins core running held rfl nofun fun _ => rfl
  | retires idle tends held empty =>
    exact marks.begins core running held rfl (fun _ => empty) nofun
  | completes working => exact marks.completes core running working
  | settles working => exact marks.settles core running working _
  | @retired g channel topic generation ok working =>
    refine marks.retired core running working channel _ ?_ ?_ ?_
    · split_ifs <;> rfl
    · intro t h held
      split_ifs at held with gone
      · rw [Shared.delete_subs, Function.update_apply] at held
        split_ifs at held
        exact held
      · exact held
    · split_ifs <;> exact ⟨rfl, rfl, rfl⟩
  | @removes id g topic stage idle untended removing holder made =>
    refine marks.still running ?_ (fun h => s.drop_marked g h id) (fun h => s.drop_busy g h id)
      (fun _ _ held => held) ⟨rfl, rfl, rfl⟩ rfl rfl fun _ _ _ => .inl idle
    intro h i inside
    refine ⟨?_, fun unsettled => ?_⟩
    · rw [Shared.drop_handlersOf] at inside
      split_ifs at inside with here
      · rw [here]
        exact List.mem_of_mem_filter inside
      · exact inside
    · rw [removing_unsettled removing unsettled] at inside
      exact absurd inside (core.layout.drop_absent holder h)
  | misses removing absent =>
    refine marks.still running (fun h i inside => ⟨inside, fun unsettled => ?_⟩) (fun _ => rfl)
      (fun _ => rfl) (fun _ _ held => held) ⟨rfl, rfl, rfl⟩ rfl rfl fun _ _ waiting => ?_
    · rw [removing_unsettled removing unsettled] at inside
      exact absurd inside (core.layout.missed_absent absent h)
    · exact absurd waiting (removing_waiting removing)
  | deletes =>
    refine marks.still running keeps (fun _ => rfl) (fun _ => rfl) (fun t h held => ?_)
      ⟨rfl, rfl, rfl⟩ rfl rfl fun _ _ _ => .inr rfl
    rw [Shared.delete_subs, Function.update_apply] at held
    split_ifs at held
    exact held
  | loses lost => exact marks.loses running lost (permitted.lost lost)
  | starts => exact marks.starts core running
  | forgets lost =>
    refine marks.stales core running .none ?_ (by rw [lost]; rfl) (permitted.forgets lost)
    rw [lost]
    exact fun _ has => has
  | stales stale =>
    refine marks.stales core running (.loop _) ?_ (by rw [stale]; rfl) (permitted.stale _ stale)
    rw [stale]
    exact fun _ has => has
  | stops loop idle reason => exact marks.stops core running loop reason
  | returns accepted =>
    refine marks.still running (fun _ _ inside => ⟨inside, fun unsettled => ?_⟩) (fun _ => rfl)
      (fun _ => rfl) (fun _ _ held => held) ⟨rfl, rfl, rfl⟩ rfl rfl fun _ _ waiting => ?_
    · rw [accepted] at unsettled
      cases unsettled
    · cases waiting
  | fails removed =>
    refine marks.still running (fun _ _ inside => ⟨inside, fun unsettled => ?_⟩) (fun _ => rfl)
      (fun _ => rfl) (fun _ _ held => held) ⟨rfl, rfl, rfl⟩ rfl rfl fun _ _ waiting => ?_
    · rw [removed] at unsettled
      cases unsettled
    · cases waiting

theorem Marks.occurs (marks : Marks s views) {new : List View} (occurs : Occurs s s' new) :
    Marks s' (views ++ new) := by
  have groups : s'.groups = s.groups ∧ s'.subs = s.subs ∧ s'.generation = s.generation := by
    cases occurs with
    | _ => exact ⟨rfl, rfl, rfl⟩
  have idle : ∀ u ∈ new, u.work = none := by
    intro u inside
    cases occurs with
    | disconnects => cases inside
    | _ =>
      rw [List.mem_singleton.mp inside]
  -- the connection stays as it is, or marks are in doubt anyway
  have connection : (s'.isOpen = s.isOpen ∧ s'.completed = s.completed) ∨
      Awaits Recovery.isDue s' (views ++ new) := by
    cases occurs with
    | subscribes | unsubscribes => exact .inl ⟨rfl, rfl⟩
    | connects => exact .inr (.inr ⟨{ recovery := .due }, by simp, rfl⟩)
    | loses | disconnects => exact .inr (.inl rfl)
  obtain ⟨groups, subs, generation⟩ := groups
  have awaits : ∀ kind, (∀ r, Recovery.isDue r = true → kind r = true) → Awaits kind s views →
      Awaits kind s' (views ++ new) := by
    intro kind weaker awaited
    rcases connection with ⟨isOpen, _⟩ | due
    · refine awaited.imp (fun closed => isOpen.trans closed) ?_
      rintro ⟨u, inside, has⟩
      exact ⟨u, List.mem_append_left new inside, has⟩
    · exact due.weaken weaker
  have old : ∀ u ∈ views ++ new, ∀ w, u.work = some w → u ∈ views := by
    intro u inside w working
    rcases List.mem_append.mp inside with before | after
    · exact before
    · rw [idle u after] at working
      cases working
  have handlers : ∀ g, s'.handlersOf g = s.handlersOf g := fun g => by
    simp only [Shared.handlersOf, groups]
  have marked : ∀ g, s'.marked g = s.marked g := fun g => by simp only [Shared.marked, groups]
  have busy : ∀ g, s'.busy g = s.busy g := fun g => by simp only [Shared.busy, groups]
  refine marks.carry generation awaits (connection.imp_left And.right) ?_ ?_ ?_ ?_
  · exact fun u inside w working => ⟨u, old u inside w working, working, fun _ _ same => same⟩
  · intro g id inside
    rw [handlers] at inside
    rw [marked]
    refine (marks.covered g id inside).imp_right (Or.imp_right ?_)
    rintro ⟨u, was, has⟩
    exact ⟨u, List.mem_append_left new was, has⟩
  · intro u inside w working kind id handled
    rw [handlers] at handled
    obtain ⟨u₁, was, has⟩ := marks.retiring u (old u inside w working) w working kind id handled
    exact ⟨u₁, List.mem_append_left new was, has⟩
  · intro topic g held mark free
    rw [subs] at held
    rw [marked] at mark
    rw [busy] at free
    exact marks.native topic g held mark free

end Effects

end Telekit.Mqtt
