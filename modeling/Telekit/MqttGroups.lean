import Telekit.MqttOperations

/-! The groups of the MQTT adapter along its protocol, whatever the connection
does. At most one native operation is in progress for a group, handlers are
numbered once and stand where their calls say, and an empty group in `subs` has
a thread that looks after it. -/

namespace Telekit.Mqtt

def Stage.pending : Stage → Option Nat
  | .joining id _ | .waiting id _ | .accepted id _ | .rejected id _ | .removed id => some id
  | .none | .leaving _ => Option.none

def Stage.subject : Stage → Option Nat
  | .leaving id => some id
  | stage => stage.pending

def Stage.Fits (s : Shared) : Stage → Prop
  | .none => True
  | .joining id topic => topic ≠ [] ∧ s.Absent id
  | .waiting id topic | .accepted id topic | .rejected id topic => s.Registered id topic
  | .removed id => s.Absent id
  | .leaving id => id ∈ s.unsubscribed ∧ s.settled id = true

structure Work.Fits (s : Shared) (tends : Option (GoString × Nat)) (w : Work) : Prop where
  made : s.topicOf w.g = some w.topic
  generation : w.generation ≤ s.generation
  unmarked : w.kind = .subscribe → s.marked w.g = false
  tends : w.kind = .unsubscribe → tends = some (w.topic, w.g)

structure View.Fits (s : Shared) (v : View) : Prop where
  stage : v.stage.Fits s
  work : ∀ w, v.work = some w → w.Fits s v.tends

def View.Own (v : View) : Prop :=
  ∀ w id topic, v.work = some w → w.kind = .subscribe → v.stage = .waiting id topic →
    w.topic = topic

theorem Stage.Fits.frame {own pending onto : Option Nat} {s s' : Shared} {stage : Stage}
    (fits : stage.Fits s) (frame : Frame own pending onto s s')
    (other : ∀ id, stage.pending = some id → own ≠ some id ∧ pending ≠ some id) :
    stage.Fits s' := by
  cases stage with
  | none => trivial
  | joining id topic => exact ⟨fits.1, frame.absent id (other id rfl).2 fits.2⟩
  | waiting id topic => exact frame.registered id topic (other id rfl).1 fits
  | accepted id topic => exact frame.registered id topic (other id rfl).1 fits
  | rejected id topic => exact frame.registered id topic (other id rfl).1 fits
  | removed id => exact frame.absent id (other id rfl).2 fits
  | leaving id => exact ⟨frame.unsubscribed fits.1, frame.settled id fits.2⟩

theorem View.Fits.frame {own pending onto : Option Nat} {s s' : Shared} {u : View}
    (fits : u.Fits s) (frame : Frame own pending onto s s')
    (other : ∀ id, u.stage.pending = some id → own ≠ some id ∧ pending ≠ some id)
    (apart : ∀ w, u.work = some w → onto ≠ some w.g) : u.Fits s' := by
  refine ⟨fits.stage.frame frame other, fun w working => ?_⟩
  have fit := fits.work w working
  exact ⟨frame.topics _ _ fit.made, fit.generation.trans frame.generation,
    fun kind => frame.marks _ (apart w working) (fit.unmarked kind), fit.tends⟩


variable {id : Nat}

theorem removing_subject {stage after : Stage} (removing : stage.removing = some (id, after)) :
    stage.subject = some id := by
  cases stage with
  | rejected | leaving =>
    cases removing
    rfl
  | _ => cases removing

theorem removing_pending {stage after : Stage} (removing : stage.removing = some (id, after)) :
    after.pending = stage.pending := by
  cases stage with
  | rejected | leaving =>
    cases removing
    rfl
  | _ => cases removing

theorem settle_pending (ok : Bool) (stage : Stage) : (stage.settle ok).pending = stage.pending := by
  cases stage with
  | waiting id topic => cases ok <;> rfl
  | _ => rfl

section Effects
variable {s s' : Shared} {v v' : View}

theorem Effect.layout (effect : Effect s v s' v') (layout : Layout s) (fits : v.Fits s)
    (known : ∀ id, v.stage.pending = some id → id ≤ s.nextID) : Layout s' := by
  cases effect with
  | quiet | accepts | misses | leaves | stops => exact layout
  | allots => exact layout.same rfl rfl (Nat.le_succ _)
  | joins joining =>
    subst joining
    exact layout.join fits.stage.1 fits.stage.2 (known _ rfl)
  | begins idle own held => exact layout.begin held
  | retires idle tends held => exact layout.begin held
  | completes | loses | starts | returns | fails => exact layout.same rfl rfl le_rfl
  | settles working =>
    refine layout.finish ?_ _ _
    simp [(fits.work _ working).made]
  | @retired g channel topic generation ok working =>
    have made : s.topicOf g ≠ none := by simp [(fits.work _ working).made]
    split_ifs with gone
    · refine (layout.finish made channel false).delete gone.2 ?_ ?_
      · rw [Shared.finish_handlersOf, gone.1]
      · rw [s.finish_busy g g channel false made, if_pos rfl]
    · exact layout.finish made channel false
  | removes => exact layout.drop _ _
  | deletes idle tends held empty free => exact layout.delete held empty free
  | forgets | stales => exact layout.stale

theorem Effect.frame (effect : Effect s v s' v') (layout : Layout s) (fits : v.Fits s) :
    Frame v.stage.subject v.stage.pending (v.work.map Work.g) s s' := by
  have still : Frame v.stage.subject v.stage.pending (v.work.map Work.g) s s :=
    .same rfl rfl le_rfl (fun _ was => was) (fun _ was => was)
  cases effect with
  | quiet | accepts | misses | leaves | stops => exact still
  | allots | completes => exact .same rfl rfl le_rfl (fun _ was => was) (fun _ was => was)
  | @joins id topic joining =>
    subst joining
    exact .join layout topic id
  | begins | retires => exact .begin s _
  | settles working =>
    rw [working]
    exact .finish (by simp [(fits.work _ working).made]) _ _
  | @retired g channel topic generation ok working =>
    have made : s.topicOf g ≠ none := by simp [(fits.work _ working).made]
    rw [working]
    split_ifs with gone
    · refine (Frame.finish made channel false).trans (.delete gone.2 ?_)
      rw [Shared.finish_handlersOf, gone.1]
    · exact .finish made channel false
  | removes idle untended removing =>
    rw [removing_subject removing]
    exact .drop s _ _
  | deletes idle tends held empty => exact .delete held empty
  | loses | starts => exact .same rfl rfl (Nat.le_succ _) (fun _ was => was) (fun _ was => was)
  | forgets | stales => exact .stale s
  | returns =>
    refine .same rfl rfl le_rfl (fun id was => ?_) (fun _ was => was)
    simp only [Shared.settled, decide_eq_true_eq, List.map_append, List.mem_append] at was ⊢
    exact was.imp_left .inl
  | fails =>
    refine .same rfl rfl le_rfl (fun id was => ?_) (fun _ was => was)
    simp only [Shared.settled, decide_eq_true_eq, List.mem_append] at was ⊢
    exact was.imp_right .inl

theorem Effect.own (effect : Effect s v s' v') (own : v.Own) : v'.Own := by
  cases effect with
  | allots | joins | accepts | settles | retired => exact fun w id topic working => by cases working
  | begins idle mine =>
    intro w id topic working kind stage
    cases working
    exact (mine id topic stage).symm
  | retires =>
    intro w id topic working kind
    cases working
    cases kind
  | completes working =>
    intro w id topic working' kind stage
    cases working'
    exact own ⟨_, _, _, _, none⟩ id topic working kind stage
  | removes idle => exact fun w id topic working => by rw [idle] at working; cases working
  | @misses id after removing absent =>
    intro w i topic working kind stage
    generalize v.stage = before at removing
    cases before with
    | rejected | leaving =>
      cases removing
      cases stage
    | _ => cases removing
  | returns | fails => exact fun w id topic working kind stage => by cases stage
  | _ => exact own

theorem Effect.working (effect : Effect s v s' v') (layout : Layout s) (fits : v.Fits s) :
    (v'.work.map Work.g = v.work.map Work.g ∧ ∀ h, s'.busy h = s.busy h) ∨
    (∃ g, v.work = none ∧ v'.work.map Work.g = some g ∧ s.busy g = false ∧
      ∀ h, s'.busy h = if h = g then true else s.busy h) ∨
    ∃ g, v.work.map Work.g = some g ∧ v'.work = none ∧
      ∀ h, s'.busy h = if h = g then false else s.busy h := by
  cases effect with
  | quiet | misses | leaves | deletes | loses | starts | stops | returns | fails =>
    exact .inl ⟨rfl, fun _ => rfl⟩
  | allots idle =>
    subst idle
    exact .inl ⟨rfl, fun _ => rfl⟩
  | joins joining =>
    subst joining
    exact .inl ⟨rfl, fun h => s.join_busy h _ _⟩
  | accepts waiting =>
    subst waiting
    exact .inl ⟨rfl, fun _ => rfl⟩
  | begins idle own held occupied unmarked free =>
    exact .inr (.inl ⟨_, idle, rfl, free, fun h => s.begin_busy _ h (layout.exists_group held)⟩)
  | retires idle tends held empty free =>
    exact .inr (.inl ⟨_, idle, rfl, free, fun h => s.begin_busy _ h (layout.exists_group held)⟩)
  | completes working =>
    rw [working]
    exact .inl ⟨rfl, fun _ => rfl⟩
  | settles working =>
    have made := (fits.work _ working).made
    rw [working]
    exact .inr (.inr ⟨_, rfl, rfl, fun h => s.finish_busy _ h _ _ (by simp [made])⟩)
  | @retired g channel topic generation ok working =>
    have made : s.topicOf g ≠ none := by simp [(fits.work _ working).made]
    rw [working]
    refine .inr (.inr ⟨g, rfl, rfl, fun h => ?_⟩)
    rw [← s.finish_busy g h channel false made]
    split_ifs <;> rfl
  | removes =>
    exact .inl ⟨rfl, fun h => s.drop_busy _ h _⟩
  | forgets | stales => exact .inl ⟨rfl, s.stale_busy⟩

theorem Effect.isOpen (effect : Effect s v s' v') : s'.isOpen = s.isOpen := by
  cases effect with
  | joins =>
    unfold Shared.join
    split <;> rfl
  | retired => split_ifs <;> rfl
  | _ => rfl

theorem Effect.reports (effect : Effect s v s' v') :
    (s'.failed = s.failed ∨ ∃ id, v.stage = .removed id ∧ s'.failed = s.failed ++ [id] ∧
      s'.groups = s.groups) ∧
    (s'.returned = s.returned ∨ ∃ id topic, v.stage = .accepted id topic ∧
      s'.returned = s.returned ++ [(id, topic)] ∧ s'.groups = s.groups ∧ s'.subs = s.subs) := by
  cases effect with
  | @joins id topic joining =>
    unfold Shared.join
    split <;> exact ⟨.inl rfl, .inl rfl⟩
  | retired => split_ifs <;> exact ⟨.inl rfl, .inl rfl⟩
  | returns accepted => exact ⟨.inl rfl, .inr ⟨_, _, accepted, rfl, rfl, rfl⟩⟩
  | fails removed => exact ⟨.inr ⟨_, removed, rfl, rfl⟩, .inl rfl⟩
  | _ => exact ⟨.inl rfl, .inl rfl⟩

theorem Effect.numbering (effect : Effect s v s' v') :
    (v'.stage.pending = v.stage.pending ∧ s'.nextID = s.nextID ∧
      ∀ id, s'.settled id = s.settled id) ∨
    (v.stage.pending = none ∧ v'.stage.pending = some s'.nextID ∧ s'.nextID = s.nextID + 1 ∧
      ∀ id, s'.settled id = s.settled id) ∨
    ∃ id, v.stage.pending = some id ∧ v'.stage.pending = none ∧ s'.nextID = s.nextID ∧
      ∀ i, s'.settled i = (s.settled i || decide (i = id)) := by
  cases effect with
  | quiet | begins | retires | completes | leaves | deletes | loses | starts | forgets | stales
  | stops => exact .inl ⟨rfl, rfl, fun _ => rfl⟩
  | allots idle =>
    subst idle
    exact .inr (.inl ⟨rfl, rfl, rfl, fun _ => rfl⟩)
  | @joins id topic joining =>
    subst joining
    have rest : (s.join topic id).nextID = s.nextID ∧
        (s.join topic id).returned = s.returned ∧ (s.join topic id).failed = s.failed := by
      unfold Shared.join
      split <;> exact ⟨rfl, rfl, rfl⟩
    exact .inl ⟨rfl, rest.1, fun i => by simp only [Shared.settled, rest.2.1, rest.2.2]⟩
  | accepts waiting =>
    subst waiting
    exact .inl ⟨rfl, rfl, fun _ => rfl⟩
  | settles => exact .inl ⟨settle_pending _ _, rfl, fun _ => rfl⟩
  | retired =>
    refine .inl ⟨rfl, ?_, fun i => ?_⟩
    · split_ifs <;> rfl
    · split_ifs <;> rfl
  | removes idle untended removing => exact .inl ⟨removing_pending removing, rfl, fun _ => rfl⟩
  | misses removing => exact .inl ⟨removing_pending removing, rfl, fun _ => rfl⟩
  | @returns id topic accepted =>
    refine .inr (.inr ⟨id, by rw [accepted]; rfl, rfl, rfl, fun i => ?_⟩)
    simp only [Shared.settled, List.map_append, List.mem_append, List.map_cons, List.map_nil,
      List.mem_singleton]
    grind
  | @fails id removed =>
    refine .inr (.inr ⟨id, by rw [removed]; rfl, rfl, rfl, fun i => ?_⟩)
    simp only [Shared.settled, List.mem_append, List.mem_singleton]
    grind

/-- An empty group in `subs` was empty before and keeps its tender, or the
thread that emptied it looks after it. -/
theorem Effect.tending (effect : Effect s v s' v') (layout : Layout s) (fits : v.Fits s)
    {topic : GoString} {g : Nat} (held : s'.subs topic = some g) (empty : s'.handlersOf g = []) :
    (s.subs topic = some g ∧ s.handlersOf g = [] ∧
      (v.tends = some (topic, g) → v'.tends = some (topic, g))) ∨
    v'.tends = some (topic, g) := by
  cases effect with
  | quiet | completes | misses | loses | starts | stops | returns | fails =>
    exact .inl ⟨held, empty, fun tends => tends⟩
  | allots idle =>
    subst idle
    exact .inl ⟨held, empty, fun tends => tends⟩
  | @joins id other joining =>
    subst joining
    rw [s.join_handlersOf _ _ _ (layout.registered other)] at empty
    rw [s.join_subs, Function.update_apply] at held
    split_ifs at held empty with same here here
    · simp at empty
    · exact absurd (Option.some.inj held).symm here
    · simp at empty
    · exact .inl ⟨held, empty, fun tends => tends⟩
  | accepts waiting =>
    subst waiting
    exact .inl ⟨held, empty, fun tends => tends⟩
  | begins | retires | settles | forgets | stales =>
    exact .inl ⟨held, by simpa using empty, fun tends => tends⟩
  | @retired h channel other generation ok working =>
    have watched := (fits.work _ working).tends rfl
    split_ifs at held empty with gone
    · rw [Shared.delete_subs, Function.update_apply] at held
      split_ifs at held with same
      refine .inl ⟨held, by simpa using empty, fun tends => ?_⟩
      rw [watched] at tends
      cases tends
      exact absurd rfl same
    · refine .inl ⟨held, by simpa using empty, fun tends => ?_⟩
      rw [watched] at tends
      cases tends
      exact absurd ⟨by simpa using empty, held⟩ gone
  | @removes id h other stage idle untended removing holder made =>
    rw [Shared.drop_handlersOf] at empty
    split_ifs at empty with here
    · subst here
      have same := layout.registered topic g held
      rw [made, Option.some.injEq] at same
      subst same
      have named : other ≠ [] := fun nameless => layout.named g (by rw [made, nameless])
      exact .inr (if_pos ⟨empty, named⟩)
    · refine .inl ⟨held, empty, fun tends => ?_⟩
      rw [untended] at tends
      cases tends
  | leaves idle tended used =>
    refine .inl ⟨held, empty, fun tends => ?_⟩
    rw [tended] at tends
    cases tends
    exact absurd held (used.resolve_right (not_not.mpr empty))
  | deletes idle tended =>
    rw [Shared.delete_subs, Function.update_apply] at held
    split_ifs at held with same
    refine .inl ⟨held, empty, fun tends => ?_⟩
    rw [tended] at tends
    cases tends
    exact absurd rfl same

theorem View.Fits.same (fits : v.Fits s) (frame : Frame none none none s s') : v.Fits s' :=
  fits.frame frame (by simp) (by simp)

theorem Stage.Fits.settle {stage : Stage} (fits : stage.Fits s) (ok : Bool) :
    (stage.settle ok).Fits s := by
  cases stage with
  | waiting id topic => cases ok <;> exact fits
  | _ => exact fits

theorem removing_fits {stage after : Stage} (removing : stage.removing = some (id, after))
    (absent : s.Absent id) : after.Fits s := by
  cases stage with
  | rejected i topic =>
    cases removing
    exact absent
  | leaving i =>
    cases removing
    trivial
  | _ => cases removing

theorem Layout.drop_absent (layout : Layout s) {g : Nat} (holder : s.holder id = some g) :
    (s.drop g id).Absent id := by
  intro h member
  rw [Shared.drop_handlersOf] at member
  split_ifs at member with here
  · simpa using (List.mem_filter.mp member).2
  · exact here (layout.single h g id member (Shared.holder_some holder))

theorem Layout.missed_absent (layout : Layout s) (absent : s.holder id = none) : s.Absent id := by
  intro g member
  obtain ⟨topic, made, held⟩ := layout.attached g (.inl (List.ne_nil_of_mem member))
  exact Shared.holder_none absent made held member

theorem Effect.fits (effect : Effect s v s' v') (layout : Layout s) (fits : v.Fits s) :
    v'.Fits s' := by
  cases effect with
  | quiet => exact fits
  | allots idle named =>
    refine ⟨⟨named, fun g member => ?_⟩, by simp⟩
    have known := layout.known g _ member
    omega
  | @joins id topic joining =>
    refine ⟨⟨s.target topic, ?_, ?_⟩, by simp⟩
    · rw [s.join_subs, Function.update_self]
    · rw [s.join_handlersOf _ _ _ (layout.registered topic), if_pos rfl]
      simp
  | accepts waiting =>
    subst waiting
    exact ⟨fits.stage, by simp⟩
  | begins idle own held occupied unmarked =>
    refine ⟨(fits.same (.begin s _)).stage, fun w working => ?_⟩
    cases working
    refine ⟨?_, le_rfl, fun _ => ?_, nofun⟩
    · simpa using layout.registered _ _ held
    · simpa using unmarked
  | retires idle tends held =>
    refine ⟨(fits.same (.begin s _)).stage, fun w working => ?_⟩
    cases working
    refine ⟨?_, Nat.zero_le _, nofun, fun _ => tends⟩
    simpa using layout.registered _ _ held
  | completes working =>
    have fit := fits.work _ working
    refine ⟨fits.stage, fun w working' => ?_⟩
    cases working'
    exact ⟨fit.made, fit.generation, fit.unmarked, fit.tends⟩
  | @settles g channel topic generation ok working =>
    have made : s.topicOf g ≠ none := by simp [(fits.work _ working).made]
    have stays : ∀ id, v.stage.pending = some id → none ≠ some id ∧ none ≠ some id := by simp
    exact ⟨(fits.stage.frame (.finish made _ _) stays).settle ok, by simp⟩
  | @retired g channel topic generation ok working =>
    have made : s.topicOf g ≠ none := by simp [(fits.work _ working).made]
    have stays : ∀ id, v.stage.pending = some id → none ≠ some id ∧ none ≠ some id := by simp
    have kept := fits.stage.frame (.finish made channel false) stays
    refine ⟨?_, by simp⟩
    split_ifs with gone
    · have empty : (s.finish g channel false).handlersOf g = [] := by
        rw [Shared.finish_handlersOf, gone.1]
      have held : (s.finish g channel false).subs topic = some g := gone.2
      exact kept.frame (Frame.delete held empty : Frame none none none _ _) stays
    · exact kept
  | removes idle untended removing holder =>
    exact ⟨removing_fits removing (layout.drop_absent holder), fun w working => by
      rw [idle] at working; cases working⟩
  | misses removing absent =>
    exact ⟨removing_fits removing (layout.missed_absent absent), fits.work⟩
  | leaves idle =>
    exact ⟨fits.stage, fun w working => by rw [idle] at working; cases working⟩
  | deletes idle tends held empty =>
    exact ⟨(fits.same (.delete held empty)).stage, fun w working => by
      rw [idle] at working; cases working⟩
  | loses | starts =>
    have kept := fits.same (.renew s)
    exact ⟨kept.stage, kept.work⟩
  | forgets | stales =>
    have kept := fits.same (.stale s)
    exact ⟨kept.stage, kept.work⟩
  | stops => exact ⟨fits.stage, fits.work⟩
  | returns | fails => exact ⟨trivial, fun w working => ⟨(fits.work w working).made,
      (fits.work w working).generation, (fits.work w working).unmarked,
      (fits.work w working).tends⟩⟩

end Effects

def pends (id : Nat) (v : View) : Int := if v.stage.pending = some id then 1 else 0

def worksOn (g : Nat) (v : View) : Int := if v.work.map Work.g = some g then 1 else 0

theorem pends_nonneg (id : Nat) (v : View) : 0 ≤ pends id v := by
  unfold pends
  split_ifs <;> omega

theorem worksOn_nonneg (g : Nat) (v : View) : 0 ≤ worksOn g v := by
  unfold worksOn
  split_ifs <;> omega

/-- What holds of the groups and the views of all threads at any time. -/
structure Core (s : Shared) (views : List View) : Prop where
  layout : Layout s
  fits : ∀ v ∈ views, v.Fits s
  own : ∀ v ∈ views, v.Own
  exclusive : ∀ g, Ledger.total (worksOn g) views = if s.busy g then 1 else 0
  numbered : ∀ id, Ledger.total (pends id) views + (if s.settled id then 1 else 0) ≤
    if id ≤ s.nextID then 1 else 0
  failures : ∀ id ∈ s.failed, s.Absent id
  successes : ∀ id topic, (id, topic) ∈ s.returned → id ∈ s.unsubscribed ∨ s.Registered id topic
  tended : ∀ topic g, s.subs topic = some g → s.handlersOf g = [] →
    ∃ v ∈ views, v.tends = some (topic, g)

section Sets
variable {views : List View} {v v' : View} {n : Nat}

theorem mem_set_self (running : views[n]? = some v) : v' ∈ views.set n v' :=
  List.mem_of_getElem? (List.getElem?_set_self (List.getElem?_eq_some_iff.mp running).1)

theorem exists_set {p : View → Prop} (running : views[n]? = some v) (kept : p v → p v')
    (some_has : ∃ u ∈ views, p u) : ∃ u ∈ views.set n v', p u := by
  have after := Interleaving.exists_advance running kept [] some_has
  rwa [List.append_nil] at after

end Sets

namespace Core
variable {s s' : Shared} {views : List View} {v v' : View} {n : Nat}

theorem start (isOpen : Bool) : Core { isOpen := isOpen } [] where
  layout := ⟨by simp, by simp [Shared.handlersOf, Shared.busy], by simp [Shared.handlersOf],
    by simp [Shared.handlersOf], by simp [Shared.topicOf]⟩
  fits := by simp
  own := by simp
  exclusive := by simp [Shared.busy]
  numbered := by simp [Shared.settled]; grind
  failures := by simp
  successes := by simp
  tended := by simp

theorem pending_new (core : Core s views) (member : v ∈ views)
    (pending : v.stage.pending = some id) : id ≤ s.nextID ∧ s.settled id = false := by
  have counted := Ledger.le_total (fun u _ => pends_nonneg id u) member
  have bound := core.numbered id
  rw [pends, if_pos pending] at counted
  cases settled : s.settled id with
  | true =>
    rw [settled, if_pos rfl] at bound
    split_ifs at bound <;> omega
  | false =>
    refine ⟨?_, rfl⟩
    by_contra large
    rw [if_neg large, settled] at bound
    simp only [Bool.false_eq_true, if_false] at bound
    omega

theorem pending_apart (core : Core s views) {m : Nat} {u : View} (ne : m ≠ n)
    (running : views[n]? = some v) (other : views[m]? = some u)
    (pending : v.stage.pending = some id) : u.stage.pending ≠ some id := by
  intro same
  have both := Ledger.add_le_total (fun a _ => pends_nonneg id a) ne other running
  have bound := core.numbered id
  simp only [pends, pending, same, if_true] at both bound
  split_ifs at bound <;> omega

theorem work_apart (core : Core s views) {m : Nat} {u : View} (ne : m ≠ n)
    (running : views[n]? = some v) (other : views[m]? = some u) {g : Nat}
    (working : v.work.map Work.g = some g) : u.work.map Work.g ≠ some g := by
  intro same
  have both := Ledger.add_le_total (fun a _ => worksOn_nonneg g a) ne other running
  have bound := core.exclusive g
  simp only [worksOn, working, same, if_true] at both bound
  split_ifs at bound <;> omega

theorem busy (core : Core s views) (member : v ∈ views) {w : Work} (working : v.work = some w) :
    s.busy w.g = true := by
  have counted := Ledger.le_total (fun u _ => worksOn_nonneg w.g u) member
  rw [core.exclusive, worksOn, working, Option.map_some, if_pos rfl] at counted
  split_ifs at counted with busy
  · exact busy
  · omega

theorem free (core : Core s views) {g : Nat} (idle : ∀ v ∈ views, v.work.map Work.g ≠ some g) :
    s.busy g = false := by
  have none_works : Ledger.total (worksOn g) views = 0 :=
    Ledger.total_eq_zero fun v member => if_neg (idle v member)
  have total := core.exclusive g
  rw [none_works] at total
  cases busy : s.busy g with
  | false => rfl
  | true =>
    rw [busy] at total
    cases total

theorem home (core : Core s views) (member : v ∈ views) {w : Work} (working : v.work = some w) :
    s.subs w.topic = some w.g :=
  core.layout.home ((core.fits v member).work w working).made (.inr (core.busy member working))

theorem subject_settled (core : Core s views) (member : v ∈ views)
    (subject : v.stage.subject = some id) : v.stage.pending = some id ∨
      (id ∈ s.unsubscribed ∧ s.settled id = true) := by
  have fits := (core.fits v member).stage
  generalize v.stage = stage at subject fits
  cases stage with
  | leaving i =>
    cases subject
    exact .inr fits
  | _ => exact .inl subject

theorem others_fit (core : Core s views) (running : views[n]? = some v)
    (effect : Effect s v s' v') {m : Nat} {u : View} (ne : m ≠ n) (other : views[m]? = some u) :
    u.Fits s' := by
  have member := List.mem_of_getElem? running
  have frame := effect.frame core.layout (core.fits v member)
  refine (core.fits u (List.mem_of_getElem? other)).frame frame ?_ ?_
  · intro id pending
    have fresh := core.pending_new (List.mem_of_getElem? other) pending
    have apart : v.stage.pending ≠ some id := fun same =>
      core.pending_apart ne running other same pending
    refine ⟨fun subject => ?_, apart⟩
    rcases core.subject_settled member subject with same | ⟨_, settled⟩
    · exact apart same
    · rw [fresh.2] at settled
      cases settled
  · intro w working same
    exact core.work_apart ne running other same (by rw [working, Option.map_some])

theorem exclusive_effect (core : Core s views) (running : views[n]? = some v)
    (effect : Effect s v s' v') (g : Nat) :
    Ledger.total (worksOn g) (views.set n v') = if s'.busy g then 1 else 0 := by
  have member := List.mem_of_getElem? running
  have before := core.exclusive g
  rw [Ledger.total_set _ running, before]
  rcases effect.working core.layout (core.fits v member) with
    ⟨same, busy⟩ | ⟨h, idle, working, free, busy⟩ | ⟨h, working, idle, busy⟩
  · simp only [worksOn, same, busy]
    omega
  · rw [busy]
    simp only [worksOn, idle, working, Option.map_none, Option.some.injEq, reduceCtorEq, if_false]
    by_cases here : h = g
    · subst here
      simp [free]
    · simp [here, Ne.symm here]
  · have busyBefore : s.busy h = true := by
      obtain ⟨w, work, at_h⟩ := Option.map_eq_some_iff.mp working
      rw [← at_h]
      exact core.busy member work
    rw [busy]
    simp only [worksOn, idle, working, Option.map_none, Option.some.injEq, reduceCtorEq, if_false]
    by_cases here : h = g
    · subst here
      simp [busyBefore]
    · simp [here, Ne.symm here]

theorem numbered_effect (core : Core s views) (running : views[n]? = some v)
    (effect : Effect s v s' v') (id : Nat) :
    Ledger.total (pends id) (views.set n v') + (if s'.settled id then 1 else 0) ≤
      if id ≤ s'.nextID then 1 else 0 := by
  have bound := core.numbered id
  rw [Ledger.total_set _ running]
  rcases effect.numbering with ⟨same, next, settled⟩ | ⟨before, after, next, settled⟩ |
    ⟨i, before, after, next, settled⟩
  · simp only [pends, same, next, settled] at bound ⊢
    omega
  · simp only [pends, before, after, next, settled, Option.some.injEq, reduceCtorEq,
      if_false] at bound ⊢
    split_ifs at bound ⊢ <;> omega
  · have fresh := core.pending_new (List.mem_of_getElem? running) before
    simp only [pends, before, after, next, settled, Option.some.injEq, reduceCtorEq, if_false,
      Bool.or_eq_true, decide_eq_true_eq] at bound ⊢
    by_cases here : i = id
    · subst here
      simp only [fresh.2] at bound ⊢
      simp only [Bool.false_eq_true, if_false, false_or, if_true] at bound ⊢
      omega
    · simp only [here, Ne.symm here, or_false, if_false] at bound ⊢
      omega

theorem effect (core : Core s views) (running : views[n]? = some v) (effect : Effect s v s' v') :
    Core s' (views.set n v') := by
  have member := List.mem_of_getElem? running
  have fits := core.fits v member
  have frame := effect.frame core.layout fits
  refine ⟨effect.layout core.layout fits fun id pending => (core.pending_new member pending).1,
    ?_, ?_, core.exclusive_effect running effect, core.numbered_effect running effect, ?_, ?_, ?_⟩
  · intro u inside
    obtain ⟨m, found⟩ := List.mem_iff_getElem?.mp inside
    rw [List.getElem?_set] at found
    split_ifs at found with same
    · rw [← Option.some.inj found]
      exact effect.fits core.layout fits
    · exact core.others_fit running effect (Ne.symm same) found
  · intro u inside
    rcases List.mem_or_eq_of_mem_set inside with old | rfl
    · exact core.own u old
    · exact effect.own (core.own v member)
  · intro id failed
    rcases effect.reports.1 with same | ⟨i, removed, more, groups⟩
    · rw [same] at failed
      refine frame.absent id (fun pending => ?_) (core.failures id failed)
      have fresh := (core.pending_new member pending).2
      simp [Shared.settled, failed] at fresh
    · have absent : s'.Absent id ↔ s.Absent id := by
        simp only [Shared.Absent, Shared.handlersOf, groups]
      rw [absent]
      rw [more, List.mem_append, List.mem_singleton] at failed
      rcases failed with old | rfl
      · exact core.failures id old
      · have staged := fits.stage
        rw [removed] at staged
        exact staged
  · intro id topic returned
    rcases effect.reports.2 with same | ⟨i, t, accepted, more, groups, subs⟩
    · rw [same] at returned
      rcases core.successes id topic returned with left | registered
      · exact .inl (frame.unsubscribed left)
      · by_cases own : v.stage.subject = some id
        · rcases core.subject_settled member own with pending | ⟨left, _⟩
          · have fresh := (core.pending_new member pending).2
            have settled : id ∈ s.returned.map Prod.fst := List.mem_map.mpr ⟨_, returned, rfl⟩
            simp [Shared.settled, settled] at fresh
          · exact .inl (frame.unsubscribed left)
        · exact .inr (frame.registered id topic own registered)
    · have registered : s'.Registered id topic ↔ s.Registered id topic := by
        simp only [Shared.Registered, Shared.handlersOf, groups, subs]
      rw [registered]
      rw [more, List.mem_append, List.mem_singleton] at returned
      rcases returned with old | new
      · exact (core.successes id topic old).imp_left fun left => frame.unsubscribed left
      · cases new
        have staged := fits.stage
        rw [accepted] at staged
        exact .inr staged
  · intro topic g held empty
    rcases effect.tending core.layout fits held empty with ⟨was, wasEmpty, keeps⟩ | tends
    · exact exists_set running keeps (core.tended topic g was wasEmpty)
    · exact ⟨v', mem_set_self running, tends⟩

theorem occurs (core : Core s views) {new : List View} (occurs : Occurs s s' new) :
    Core s' (views ++ new) := by
  have groups : s'.groups = s.groups ∧ s'.subs = s.subs ∧ s'.nextID = s.nextID ∧
      s'.generation = s.generation ∧ s'.returned = s.returned ∧ s'.failed = s.failed ∧
      s.unsubscribed ⊆ s'.unsubscribed := by
    cases occurs with
    | unsubscribes =>
      exact ⟨rfl, rfl, rfl, rfl, rfl, rfl, List.subset_append_left _ _⟩
    | _ => exact ⟨rfl, rfl, rfl, rfl, rfl, rfl, fun _ was => was⟩
  have fresh : ∀ u ∈ new, u.Fits s' ∧ u.work = none ∧ u.stage.pending = none := by
    intro u inside
    cases occurs with
    | unsubscribes known =>
      rw [List.mem_singleton.mp inside]
      refine ⟨⟨⟨by simp, ?_⟩, by simp⟩, rfl, rfl⟩
      rw [Shared.settled, decide_eq_true_eq]
      exact .inl (List.mem_map.mpr ⟨_, known, rfl⟩)
    | disconnects => cases inside
    | _ =>
      rw [List.mem_singleton.mp inside]
      exact ⟨⟨trivial, by simp⟩, rfl, rfl⟩
  obtain ⟨groups, subs, nextID, generation, returned, failed, unsubscribed⟩ := groups
  have settled : ∀ id, s'.settled id = s.settled id := fun id => by
    simp only [Shared.settled, returned, failed]
  have handlers : ∀ g, s'.handlersOf g = s.handlersOf g := fun g => by
    simp only [Shared.handlersOf, groups]
  have frame : Frame none none none s s' := .same subs groups generation.ge
    (fun id was => (settled id).trans was) unsubscribed
  refine ⟨core.layout.same subs groups nextID.ge, ?_, ?_, ?_, ?_, ?_, ?_, ?_⟩
  · intro u inside
    rcases List.mem_append.mp inside with old | young
    · exact (core.fits u old).same frame
    · exact (fresh u young).1
  · intro u inside
    rcases List.mem_append.mp inside with old | young
    · exact core.own u old
    · intro w id topic working
      rw [(fresh u young).2.1] at working
      cases working
  · intro g
    have none_work : Ledger.total (worksOn g) new = 0 :=
      Ledger.total_eq_zero fun u young => by simp [worksOn, (fresh u young).2.1]
    have busy : s'.busy g = s.busy g := by simp only [Shared.busy, groups]
    rw [Ledger.total_append, none_work, core.exclusive g, busy, add_zero]
  · intro id
    have none_pend : Ledger.total (pends id) new = 0 :=
      Ledger.total_eq_zero fun u young => by simp [pends, (fresh u young).2.2]
    rw [Ledger.total_append, none_pend, settled, nextID]
    have bound := core.numbered id
    omega
  · intro id was
    rw [failed] at was
    exact frame.absent id (by simp) (core.failures id was)
  · intro id topic was
    rw [returned] at was
    exact (core.successes id topic was).imp (fun left => unsubscribed left)
      (frame.registered id topic (by simp))
  · intro topic g held empty
    rw [subs] at held
    rw [handlers] at empty
    obtain ⟨u, inside, tends⟩ := core.tended topic g held empty
    exact ⟨u, List.mem_append_left new inside, tends⟩

end Core

def views (threads : List Thread) : List View := threads.map Thread.view

theorem views_set (threads : List Thread) (n : Nat) (t : Thread) :
    views (threads.set n t) = (views threads).set n t.view := List.map_set

theorem views_getElem? {threads : List Thread} {n : Nat} {t : Thread}
    (running : threads[n]? = some t) : (views threads)[n]? = some t.view := by
  simp [views, running]

structure Invariant (c : Interleaving.Config Shared Thread) : Prop where
  core : Core c.shared (views c.threads)
  named : ∀ t ∈ c.threads, t.Named

theorem Invariant.start (isOpen : Bool) : Invariant ⟨{ isOpen := isOpen }, []⟩ :=
  ⟨.start isOpen, by simp⟩

theorem Invariant.takes {baseTopic : GoString} {c c' : Interleaving.Config Shared Thread}
    {a : Action} (inv : Invariant c) (taken : (program baseTopic).Takes c a c') :
    Invariant c' := by
  cases taken with
  | stays => exact inv
  | advances running moved =>
    obtain ⟨effect, named, rfl⟩ := advance_effect (inv.named _ (List.mem_of_getElem? running)) moved
    constructor
    · simp only [List.append_nil, views_set]
      exact inv.core.effect (views_getElem? running) effect
    · intro t member
      rw [List.append_nil] at member
      rcases List.mem_or_eq_of_mem_set member with old | rfl
      · exact inv.named t old
      · exact named
  | occurs happened =>
    obtain ⟨occurs, named⟩ := occur_occurs happened
    constructor
    · simp only [views, List.map_append]
      exact inv.core.occurs occurs
    · intro t member
      rcases List.mem_append.mp member with old | new
      · exact inv.named t old
      · exact named t new

end Telekit.Mqtt
