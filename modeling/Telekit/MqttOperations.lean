import Telekit.MqttProtocol

/-! The operations on the groups of the MQTT adapter. What they do is stated for
the topic, the handlers, the mark and the operation of every group, so that
nothing later looks into a group. The layout says how groups and `subs` fit
together: a group in use is the one `subs` holds for its topic, and a handler
stands in one group. A frame is what an operation leaves to all other threads. -/

namespace Telekit.Mqtt
namespace Shared

section Accessors

theorem modify_map {α : Type} (p : Group → α) (groups : List Group) (g h : Nat)
    (f : Group → Group) : (groups.modify g f)[h]?.map p =
      if h = g then groups[g]?.map fun group => p (f group) else groups[h]?.map p := by
  rw [List.getElem?_modify]
  by_cases same : h = g
  · subst same
    cases groups[h]? <;> simp
  · cases groups[h]? <;> simp [same, Ne.symm same]

theorem modify_same {α : Type} {p : Group → α} {f : Group → Group}
    (same : ∀ group, p (f group) = p group) (groups : List Group) (g h : Nat) :
    (groups.modify g f)[h]?.map p = groups[h]?.map p := by
  rw [modify_map]
  split_ifs with here
  · simp only [same, here]
  · rfl

theorem modify_set {p : Group → Bool} {f : Group → Group} {b : Bool}
    (set : ∀ group, p (f group) = b) {groups : List Group} {g : Nat}
    (made : groups[g]?.map Group.topic ≠ none) (h : Nat) :
    ((groups.modify g f)[h]?.map p).getD false =
      if h = g then b else (groups[h]?.map p).getD false := by
  rw [modify_map]
  split_ifs with here
  · obtain ⟨group, found⟩ := Option.isSome_iff_exists.mp (Option.isSome_iff_ne_none.mpr made)
    obtain ⟨group, found, _⟩ := Option.map_eq_some_iff.mp found
    simp [found, set]
  · rfl

variable (s : Shared) (g h : Nat)

@[simp] theorem begin_subs : (s.begin g).subs = s.subs := rfl

@[simp] theorem begin_topicOf : (s.begin g).topicOf h = s.topicOf h := by
  unfold topicOf begin
  rw [modify_same]
  exact fun _ => rfl

@[simp] theorem begin_handlersOf : (s.begin g).handlersOf h = s.handlersOf h := by
  unfold handlersOf begin
  rw [modify_same]
  exact fun _ => rfl

@[simp] theorem begin_marked : (s.begin g).marked h = s.marked h := by
  unfold marked begin
  rw [modify_same]
  exact fun _ => rfl

theorem begin_busy (made : s.topicOf g ≠ none) :
    (s.begin g).busy h = if h = g then true else s.busy h := by
  unfold busy begin
  exact modify_set (by exact fun _ => rfl) made h

variable (channel : Nat) (mark : Bool)

@[simp] theorem finish_subs : (s.finish g channel mark).subs = s.subs := rfl

@[simp] theorem finish_topicOf : (s.finish g channel mark).topicOf h = s.topicOf h := by
  unfold topicOf finish
  rw [modify_same]
  exact fun _ => rfl

@[simp] theorem finish_handlersOf : (s.finish g channel mark).handlersOf h = s.handlersOf h := by
  unfold handlersOf finish
  rw [modify_same]
  exact fun _ => rfl

theorem finish_marked (made : s.topicOf g ≠ none) :
    (s.finish g channel mark).marked h = if h = g then mark else s.marked h := by
  unfold marked finish
  exact modify_set (by exact fun _ => rfl) made h

theorem finish_busy (made : s.topicOf g ≠ none) :
    (s.finish g channel mark).busy h = if h = g then false else s.busy h := by
  unfold busy finish
  exact modify_set (by exact fun _ => rfl) made h

variable (id : Nat)

@[simp] theorem drop_subs : (s.drop g id).subs = s.subs := rfl

@[simp] theorem drop_topicOf : (s.drop g id).topicOf h = s.topicOf h := by
  unfold topicOf drop setGroup
  rw [modify_same]
  exact fun _ => rfl

@[simp] theorem drop_handlersOf : (s.drop g id).handlersOf h =
    if h = g then (s.handlersOf g).filter fun i => i ≠ id else s.handlersOf h := by
  simp only [handlersOf, drop, setGroup, modify_map]
  split_ifs
  · cases s.groups[g]? <;> rfl
  · rfl

@[simp] theorem drop_marked : (s.drop g id).marked h = s.marked h := by
  unfold marked drop setGroup
  rw [modify_same]
  exact fun _ => rfl

@[simp] theorem drop_busy : (s.drop g id).busy h = s.busy h := by
  unfold busy drop setGroup
  rw [modify_same]
  exact fun _ => rfl

variable (topic : GoString)

@[simp] theorem delete_subs : (s.delete topic).subs = Function.update s.subs topic none := rfl
@[simp] theorem delete_topicOf : (s.delete topic).topicOf h = s.topicOf h := rfl
@[simp] theorem delete_handlersOf : (s.delete topic).handlersOf h = s.handlersOf h := rfl
@[simp] theorem delete_marked : (s.delete topic).marked h = s.marked h := rfl
@[simp] theorem delete_busy : (s.delete topic).busy h = s.busy h := rfl

def target : Nat := (s.subs topic).getD s.groups.length

theorem join_subs : (s.join topic id).subs =
    Function.update s.subs topic (some (s.target topic)) := by
  unfold join target
  split
  next g held =>
    rw [held, Option.getD_some, ← held, Function.update_eq_self]
    rfl
  next free => rw [free, Option.getD_none]

theorem append_map {α : Type} (p : Group → α) (groups : List Group) (group : Group) (h : Nat) :
    (groups ++ [group])[h]?.map p =
      if h = groups.length then some (p group) else groups[h]?.map p := by
  rcases Nat.lt_trichotomy h groups.length with less | same | more
  · rw [List.getElem?_append_left less, if_neg (Nat.ne_of_lt less)]
  · simp [same]
  · rw [if_neg (Nat.ne_of_gt more), List.getElem?_eq_none (Nat.le_of_lt more),
      List.getElem?_eq_none (by rw [List.length_append]; exact more)]

theorem target_topicOf (registered : ∀ g, s.subs topic = some g → s.topicOf g = some topic) :
    s.topicOf (s.target topic) = none ∨ s.topicOf (s.target topic) = some topic := by
  unfold target
  cases held : s.subs topic with
  | none => exact .inl (by simp [topicOf])
  | some g => exact .inr (registered g held)

theorem join_topicOf (registered : ∀ g, s.subs topic = some g → s.topicOf g = some topic) :
    (s.join topic id).topicOf h = if h = s.target topic then some topic else s.topicOf h := by
  unfold join target
  split
  next g held =>
    rw [held, Option.getD_some]
    split_ifs with here
    · rw [here, ← registered g held]
      exact modify_same (by exact fun _ => rfl) s.groups g g
    · exact modify_same (by exact fun _ => rfl) s.groups g h
  next free =>
    rw [free]
    exact append_map Group.topic s.groups _ h

theorem join_handlersOf (registered : ∀ g, s.subs topic = some g → s.topicOf g = some topic) :
    (s.join topic id).handlersOf h =
      if h = s.target topic then s.handlersOf h ++ [id] else s.handlersOf h := by
  unfold join target
  split
  next g held =>
    obtain ⟨group, found, _⟩ := Option.map_eq_some_iff.mp (registered g held)
    simp only [handlersOf, setGroup, modify_map, held, Option.getD_some]
    split_ifs with here
    · simp [here, found]
    · rfl
  next free =>
    simp only [handlersOf, append_map, free, Option.getD_none]
    split_ifs with here
    · simp [here]
    · rfl

theorem join_marked : (s.join topic id).marked h = s.marked h := by
  unfold join
  split
  next g held =>
    exact congrArg (Option.getD · false) (modify_same (by exact fun _ => rfl) s.groups g h)
  next free =>
    simp only [marked, append_map]
    split_ifs with here
    · simp [here]
    · rfl

theorem join_busy : (s.join topic id).busy h = s.busy h := by
  unfold join
  split
  next g held =>
    exact congrArg (Option.getD · false) (modify_same (by exact fun _ => rfl) s.groups g h)
  next free =>
    simp only [busy, append_map]
    split_ifs with here
    · simp [here]
    · rfl

theorem stale_map {α : Type} {p : Group → α}
    (same : ∀ group : Group, p { group with subscribed := false } = p group) :
    s.markSubscriptionsStale.groups[h]?.map p = s.groups[h]?.map p := by
  simp only [markSubscriptionsStale, List.getElem?_mapIdx, Option.map_map]
  cases s.groups[h]? with
  | none => rfl
  | some group =>
    simp only [Option.map_some, Function.comp_apply, Option.some.injEq]
    split_ifs
    · exact same group
    · rfl

@[simp] theorem stale_subs : s.markSubscriptionsStale.subs = s.subs := rfl

@[simp] theorem stale_topicOf : s.markSubscriptionsStale.topicOf h = s.topicOf h :=
  s.stale_map h fun _ => rfl

@[simp] theorem stale_handlersOf : s.markSubscriptionsStale.handlersOf h = s.handlersOf h :=
  congrArg (Option.getD · []) (s.stale_map h fun _ => rfl)

@[simp] theorem stale_busy : s.markSubscriptionsStale.busy h = s.busy h :=
  congrArg (Option.getD · false) (s.stale_map h fun _ => rfl)

theorem stale_marked (mark : s.markSubscriptionsStale.marked h = true) :
    s.marked h = true ∧ ∀ topic, s.topicOf h = some topic → s.subs topic ≠ some h := by
  simp only [marked, topicOf, markSubscriptionsStale, List.getElem?_mapIdx] at mark ⊢
  cases found : s.groups[h]? with
  | none => simp [found] at mark
  | some group =>
    by_cases held : s.holds h group
    · simp [found, held] at mark
    · simp only [found, held, Option.map_some, Option.getD_some] at mark ⊢
      refine ⟨by simpa using mark, fun topic made => ?_⟩
      rw [← Option.some.inj made]
      simpa [holds] using held

end Accessors

section Lookup
variable {s : Shared} {id g : Nat}

theorem holder_some (held : s.holder id = some g) : id ∈ s.handlersOf g := by
  have inside := List.find?_some held
  obtain ⟨group, found, both⟩ := (Option.any_eq_true _ _).mp inside
  rw [handlersOf_eq found]
  simp only [Bool.and_eq_true, decide_eq_true_eq] at both
  exact both.2

theorem holder_none (absent : s.holder id = none) {topic : GoString}
    (made : s.topicOf g = some topic) (held : s.subs topic = some g) : id ∉ s.handlersOf g := by
  intro inside
  obtain ⟨group, found, same⟩ := Option.map_eq_some_iff.mp made
  rw [holder, List.find?_eq_none] at absent
  have range := (List.getElem?_eq_some_iff.mp found).1
  have outside := absent g (List.mem_range.mpr range)
  rw [handlersOf_eq found] at inside
  simp [found, holds, same, held, inside] at outside

theorem subscriptionsReady_marked (ready : s.subscriptionsReady = true) {topic : GoString}
    (made : s.topicOf g = some topic) (held : s.subs topic = some g)
    (occupied : s.handlersOf g ≠ []) : s.marked g = true := by
  obtain ⟨group, found, same⟩ := Option.map_eq_some_iff.mp made
  rw [handlersOf_eq found] at occupied
  rw [marked_eq found]
  have range := (List.getElem?_eq_some_iff.mp found).1
  refine List.all_eq_true.mp ready group (List.mem_filterMap.mpr ⟨g, List.mem_range.mpr range, ?_⟩)
  simp [found, holds, same, held, occupied]

end Lookup
end Shared
structure Layout (s : Shared) : Prop where
  registered : ∀ topic g, s.subs topic = some g → s.topicOf g = some topic
  attached : ∀ g, s.handlersOf g ≠ [] ∨ s.busy g = true →
    ∃ topic, s.topicOf g = some topic ∧ s.subs topic = some g
  known : ∀ g, ∀ id ∈ s.handlersOf g, id ≤ s.nextID
  single : ∀ g h id, id ∈ s.handlersOf g → id ∈ s.handlersOf h → g = h
  named : ∀ g, s.topicOf g ≠ some []

def Shared.Absent (s : Shared) (id : Nat) : Prop := ∀ g, id ∉ s.handlersOf g

def Shared.Registered (s : Shared) (id : Nat) (topic : GoString) : Prop :=
  ∃ g, s.subs topic = some g ∧ id ∈ s.handlersOf g

namespace Layout
variable {s : Shared}

variable {g : Nat} {topic : GoString}

theorem exists_group (layout : Layout s) (held : s.subs topic = some g) : s.topicOf g ≠ none := by
  rw [layout.registered topic g held]
  simp

theorem home (layout : Layout s) (made : s.topicOf g = some topic)
    (used : s.handlersOf g ≠ [] ∨ s.busy g = true) : s.subs topic = some g := by
  obtain ⟨other, same, held⟩ := layout.attached g used
  rw [made] at same
  rw [Option.some.inj same, held]

theorem same (layout : Layout s) {s' : Shared} (subs : s'.subs = s.subs)
    (groups : s'.groups = s.groups) (nextID : s.nextID ≤ s'.nextID) : Layout s' := by
  have topics : ∀ g, s'.topicOf g = s.topicOf g := fun g => by simp only [Shared.topicOf, groups]
  have handlers : ∀ g, s'.handlersOf g = s.handlersOf g := fun g => by
    simp only [Shared.handlersOf, groups]
  have busy : ∀ g, s'.busy g = s.busy g := fun g => by simp only [Shared.busy, groups]
  constructor
  · simpa only [subs, topics] using layout.registered
  · simpa only [subs, topics, handlers, busy] using layout.attached
  · intro g id member
    rw [handlers] at member
    exact (layout.known g id member).trans nextID
  · simpa only [handlers] using layout.single
  · simpa only [topics] using layout.named

theorem begin (layout : Layout s) (held : s.subs topic = some g) : Layout (s.begin g) := by
  have made := layout.registered topic g held
  have busy := (s.begin_busy g · (layout.exists_group held))
  constructor
  · simpa using layout.registered
  · intro h used
    simp only [Shared.begin_handlersOf, busy, Shared.begin_topicOf, Shared.begin_subs] at used ⊢
    by_cases here : h = g
    · exact ⟨topic, by rw [here, made], by rw [here, held]⟩
    · exact layout.attached h (by simpa [here] using used)
  · exact fun h id member => layout.known h id (by simpa using member)
  · simpa using layout.single
  · simpa using layout.named

theorem finish (layout : Layout s) (made : s.topicOf g ≠ none) (channel : Nat) (mark : Bool) :
    Layout (s.finish g channel mark) := by
  constructor
  · simpa using layout.registered
  · intro h used
    rw [Shared.finish_handlersOf, s.finish_busy g h channel mark made] at used
    simp only [Shared.finish_topicOf, Shared.finish_subs]
    refine layout.attached h (used.imp_right fun busy => ?_)
    split_ifs at busy
    exact busy
  · exact fun h id member => layout.known h id (by simpa using member)
  · simpa using layout.single
  · simpa using layout.named

theorem delete (layout : Layout s) (held : s.subs topic = some g) (empty : s.handlersOf g = [])
    (free : s.busy g = false) : Layout (s.delete topic) := by
  constructor
  · intro other h kept
    rw [Shared.delete_subs, Function.update_apply] at kept
    split_ifs at kept
    exact layout.registered other h kept
  · intro h used
    obtain ⟨other, made, home⟩ := layout.attached h used
    refine ⟨other, made, ?_⟩
    rw [Shared.delete_subs, Function.update_apply, if_neg, home]
    rintro rfl
    rw [held] at home
    cases home
    rcases used with handlers | busy
    · exact handlers empty
    · rw [Shared.delete_busy, free] at busy
      cases busy
  · exact layout.known
  · exact layout.single
  · exact layout.named

theorem drop (layout : Layout s) (g id : Nat) : Layout (s.drop g id) := by
  have fewer : ∀ h, ∀ i ∈ (s.drop g id).handlersOf h, i ∈ s.handlersOf h := by
    intro h i member
    rw [Shared.drop_handlersOf] at member
    split_ifs at member with here
    · rw [here]
      exact List.mem_of_mem_filter member
    · exact member
  constructor
  · simpa using layout.registered
  · intro h used
    simp only [Shared.drop_topicOf, Shared.drop_subs]
    refine layout.attached h (used.imp (fun some empty => some ?_) (by simp))
    rw [List.eq_nil_iff_forall_not_mem] at empty ⊢
    exact fun i member => empty i (fewer h i member)
  · exact fun h i member => layout.known h i (fewer h i member)
  · exact fun h k i first second => layout.single h k i (fewer h i first) (fewer k i second)
  · simpa using layout.named

theorem stale (layout : Layout s) : Layout s.markSubscriptionsStale := by
  constructor
  · simpa using layout.registered
  · simpa using layout.attached
  · exact fun h id member => layout.known h id (by simpa using member)
  · simpa using layout.single
  · simpa using layout.named

theorem join (layout : Layout s) {id : Nat} (named : topic ≠ []) (absent : s.Absent id)
    (known : id ≤ s.nextID) : Layout (s.join topic id) := by
  have topics := (s.join_topicOf · id topic (layout.registered topic))
  have handlers := (s.join_handlersOf · id topic (layout.registered topic))
  have nextID : (s.join topic id).nextID = s.nextID := by
    unfold Shared.join
    split <;> rfl
  have members : ∀ h, ∀ i ∈ (s.join topic id).handlersOf h,
      i ∈ s.handlersOf h ∨ (i = id ∧ h = s.target topic) := by
    intro h i member
    rw [handlers] at member
    split_ifs at member with here
    · rcases List.mem_append.mp member with old | new
      · exact .inl old
      · exact .inr ⟨List.mem_singleton.mp new, here⟩
    · exact .inl member
  constructor
  · intro other h held
    rw [s.join_subs, Function.update_apply] at held
    rw [topics]
    split_ifs at held with same
    · rw [if_pos (Option.some.inj held).symm, same]
    · have made := layout.registered other h held
      rw [if_neg, made]
      rintro rfl
      rcases s.target_topicOf topic (layout.registered topic) with free | own
      · rw [made] at free
        cases free
      · rw [made] at own
        exact same (Option.some.inj own)
  · intro h used
    rw [handlers, s.join_busy] at used
    rw [topics, s.join_subs]
    split_ifs at used ⊢ with here
    · exact ⟨topic, rfl, by rw [Function.update_self, here]⟩
    · obtain ⟨other, made, held⟩ := layout.attached h used
      refine ⟨other, made, ?_⟩
      rw [Function.update_of_ne, held]
      rintro rfl
      exact here (by simp [Shared.target, held])
  · intro h i member
    rw [nextID]
    rcases members h i member with old | ⟨rfl, _⟩
    · exact layout.known h i old
    · exact known
  · intro h k i first second
    rcases members h i first with old | ⟨rfl, here⟩
    · rcases members k i second with old' | ⟨rfl, _⟩
      · exact layout.single h k i old old'
      · exact absurd old (absent h)
    · rcases members k i second with old' | ⟨_, here'⟩
      · exact absurd old' (absent k)
      · rw [here, here']
  · intro h
    rw [topics]
    split_ifs
    · simpa using named
    · exact layout.named h

end Layout

def Shared.settled (s : Shared) (id : Nat) : Bool :=
  decide (id ∈ s.returned.map Prod.fst ∨ id ∈ s.failed)

/-- What a step leaves alone that is about handler `own`, may add `pending` and
works on `onto`. -/
structure Frame (own pending onto : Option Nat) (s s' : Shared) : Prop where
  topics : ∀ g topic, s.topicOf g = some topic → s'.topicOf g = some topic
  generation : s.generation ≤ s'.generation
  marks : ∀ g, onto ≠ some g → s.marked g = false → s'.marked g = false
  registered : ∀ id topic, own ≠ some id → s.Registered id topic → s'.Registered id topic
  absent : ∀ id, pending ≠ some id → s.Absent id → s'.Absent id
  settled : ∀ id, s.settled id = true → s'.settled id = true
  unsubscribed : s.unsubscribed ⊆ s'.unsubscribed

namespace Frame
variable {own pending onto : Option Nat} {s s' : Shared}

theorem same (subs : s'.subs = s.subs) (groups : s'.groups = s.groups)
    (generation : s.generation ≤ s'.generation)
    (settled : ∀ id, s.settled id = true → s'.settled id = true)
    (unsubscribed : s.unsubscribed ⊆ s'.unsubscribed) : Frame own pending onto s s' := by
  have handlers : ∀ g, s'.handlersOf g = s.handlersOf g := fun g => by
    simp only [Shared.handlersOf, groups]
  refine ⟨?_, generation, ?_, ?_, ?_, settled, unsubscribed⟩
  · simp only [Shared.topicOf, groups, imp_self, implies_true]
  · simp only [Shared.marked, groups, imp_self, implies_true]
  · simp only [Shared.Registered, subs, handlers, imp_self, implies_true]
  · simp only [Shared.Absent, handlers, imp_self, implies_true]

theorem renew (s : Shared) : Frame own pending onto s { s with generation := s.generation + 1 } :=
  .same rfl rfl (Nat.le_succ _) (fun _ was => was) (fun _ was => was)

theorem begin (s : Shared) (g : Nat) : Frame own pending onto s (s.begin g) := by
  refine ⟨?_, le_refl _, ?_, ?_, ?_, fun _ => id, fun _ => id⟩
  · simp
  · simp
  · simp [Shared.Registered]
  · simp [Shared.Absent]

theorem finish {g : Nat} (made : s.topicOf g ≠ none) (channel : Nat) (mark : Bool) :
    Frame own pending (some g) s (s.finish g channel mark) := by
  refine ⟨?_, le_refl _, ?_, ?_, ?_, fun _ => id, fun _ => id⟩
  · simp
  · intro h other unmarked
    rw [s.finish_marked g h channel mark made, if_neg, unmarked]
    rintro rfl
    exact other rfl
  · simp [Shared.Registered]
  · simp [Shared.Absent]

theorem delete {topic : GoString} {g : Nat} (held : s.subs topic = some g)
    (empty : s.handlersOf g = []) : Frame own pending onto s (s.delete topic) := by
  refine ⟨fun _ _ => id, le_refl _, fun _ _ => id, ?_, fun _ _ => id, fun _ => id, fun _ => id⟩
  rintro id other _ ⟨h, home, member⟩
  refine ⟨h, ?_, member⟩
  rw [Shared.delete_subs, Function.update_of_ne, home]
  rintro rfl
  rw [held] at home
  cases home
  rw [empty] at member
  cases member

theorem drop (s : Shared) (g id : Nat) : Frame (some id) pending onto s (s.drop g id) := by
  refine ⟨?_, le_refl _, ?_, ?_, ?_, fun _ was => was, fun _ was => was⟩
  · simp
  · simp
  · rintro i topic other ⟨h, home, member⟩
    refine ⟨h, home, ?_⟩
    rw [Shared.drop_handlersOf]
    split_ifs with here
    · rw [← here]
      exact List.mem_filter.mpr ⟨member, by simpa using fun same => other (congrArg some same.symm)⟩
    · exact member
  · intro i _ absent h member
    rw [Shared.drop_handlersOf] at member
    split_ifs at member with here
    · exact absent g (List.mem_of_mem_filter member)
    · exact absent h member

theorem join (layout : Layout s) (topic : GoString) (id : Nat) :
    Frame (some id) (some id) onto s (s.join topic id) := by
  have topics := (s.join_topicOf · id topic (layout.registered topic))
  have handlers := (s.join_handlersOf · id topic (layout.registered topic))
  have rest : (s.join topic id).generation = s.generation ∧
      (s.join topic id).returned = s.returned ∧ (s.join topic id).failed = s.failed ∧
      (s.join topic id).unsubscribed = s.unsubscribed := by
    unfold Shared.join
    split <;> exact ⟨rfl, rfl, rfl, rfl⟩
  refine ⟨?_, rest.1.ge, ?_, ?_, ?_, ?_, by rw [rest.2.2.2]; exact fun _ => fun h => h⟩
  · intro g other made
    rw [topics]
    split_ifs with here
    · rcases s.target_topicOf topic (layout.registered topic) with free | own
      · rw [← here, made] at free
        cases free
      · rw [← own, ← here, made]
    · exact made
  · intro g _ unmarked
    rw [s.join_marked, unmarked]
  · rintro i other _ ⟨g, home, member⟩
    refine ⟨g, ?_, ?_⟩
    · rw [s.join_subs, Function.update_apply]
      split_ifs with same
      · simp [Shared.target, ← same, home]
      · exact home
    · rw [handlers]
      split_ifs
      · exact List.mem_append_left _ member
      · exact member
  · intro i other absent g member
    rw [handlers] at member
    split_ifs at member
    · rcases List.mem_append.mp member with old | new
      · exact absent g old
      · exact other (congrArg some (List.mem_singleton.mp new).symm)
    · exact absent g member
  · intro i was
    simpa only [Shared.settled, rest] using was

theorem stale (s : Shared) : Frame own pending onto s s.markSubscriptionsStale := by
  refine ⟨?_, le_refl _, ?_, ?_, ?_, fun _ => id, fun _ => id⟩
  · simp
  · intro g _ unmarked
    rw [Bool.eq_false_iff] at unmarked ⊢
    exact fun mark => unmarked (s.stale_marked g mark).1
  · simp [Shared.Registered]
  · simp [Shared.Absent]

theorem trans {s'' : Shared} (first : Frame own pending onto s s')
    (second : Frame own pending onto s' s'') :
    Frame own pending onto s s'' where
  topics := fun g topic made => second.topics g topic (first.topics g topic made)
  generation := first.generation.trans second.generation
  marks := fun g other unmarked => second.marks g other (first.marks g other unmarked)
  registered := fun id topic other was =>
    second.registered id topic other (first.registered id topic other was)
  absent := fun id other was => second.absent id other (first.absent id other was)
  settled := fun id was => second.settled id (first.settled id was)
  unsubscribed := List.Subset.trans first.unsubscribed second.unsubscribed

end Frame

end Telekit.Mqtt
