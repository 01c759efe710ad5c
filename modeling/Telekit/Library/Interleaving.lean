import Mathlib.Algebra.BigOperators.Ring.List
import Mathlib.Algebra.Ring.Int.Defs
import Telekit.Library.Ledger

/-! Threads over one shared state. A step is one atomic step of one thread, which
may start further threads, or an event from outside. A step that is not enabled
leaves the configuration as it is, so a run is a list of actions. The rules are
those of an invariant along a run, of assertions attached to threads that no
other thread disturbs, of totals over all threads, and of a mutex with one
holder. -/

namespace Interleaving

variable {σ τ α ε : Type}

/-- `advance` is one step of a thread under a choice of its environment, with
the threads it starts; `none` is a thread that cannot move. -/
structure Program (σ τ α ε : Type) where
  advance : α → σ → τ → Option (σ × τ × List τ)
  event : ε → σ → Option (σ × List τ)

structure Config (σ τ : Type) where
  shared : σ
  threads : List τ

inductive Action (α ε : Type)
  | advance (thread : Nat) (choice : α)
  | event (e : ε)

variable {n : Nat} {t : τ} {threads : List τ}

theorem getElem?_own (running : threads[n]? = some t) (t' : τ) (spawned : List τ) :
    (threads.set n t' ++ spawned)[n]? = some t' := by
  have inside := (List.getElem?_eq_some_iff.mp running).1
  rw [List.getElem?_append_left (by rwa [List.length_set]), List.getElem?_set_self inside]

theorem getElem?_other {m : Nat} (different : n ≠ m) (present : threads[m]? = some t) (t' : τ)
    (spawned : List τ) : (threads.set n t' ++ spawned)[m]? = some t := by
  have inside := (List.getElem?_eq_some_iff.mp present).1
  rw [List.getElem?_append_left (by rwa [List.length_set]), List.getElem?_set_ne different, present]

section Part
variable {υ : Type} (f : τ → Option υ) {threads : List τ} {n : Nat} {t : τ} (t' : τ)

theorem filterMap_set (running : threads[n]? = some t) :
    threads.filterMap f = (threads.take n).filterMap f ++ ((f t).toList ++
        (threads.drop (n + 1)).filterMap f) ∧
      (threads.set n t').filterMap f = (threads.take n).filterMap f ++ ((f t').toList ++
        (threads.drop (n + 1)).filterMap f) := by
  obtain ⟨inside, rfl⟩ := List.getElem?_eq_some_iff.mp running
  have cons (u : τ) (rest : List τ) :
      (u :: rest).filterMap f = (f u).toList ++ rest.filterMap f := by
    rw [List.filterMap_cons]
    cases f u <;> rfl
  constructor
  · conv_lhs => rw [← List.take_append_drop n threads, List.drop_eq_getElem_cons inside]
    rw [List.filterMap_append, cons]
  · rw [List.set_eq_take_append_cons_drop, if_pos inside, List.filterMap_append, cons]

theorem filterMap_set_none {t' : τ} (running : threads[n]? = some t) (before : f t = none)
    (after : f t' = none) : (threads.set n t').filterMap f = threads.filterMap f := by
  obtain ⟨whole, changed⟩ := filterMap_set f t' running
  rw [whole, changed, before, after]

theorem filterMap_set_some {t' : τ} (running : threads[n]? = some t) {u u' : υ} (before : f t = some u)
    (after : f t' = some u') : ∃ m : Nat, (threads.filterMap f)[m]? = some u ∧
      (threads.set n t').filterMap f = (threads.filterMap f).set m u' := by
  obtain ⟨whole, changed⟩ := filterMap_set f t' running
  rw [before, Option.toList_some, List.singleton_append] at whole
  rw [after, Option.toList_some, List.singleton_append] at changed
  refine ⟨((threads.take n).filterMap f).length, ?_, ?_⟩
  · rw [whole]
    simp
  · rw [changed, whole, List.set_append_right _ _ (Nat.le_refl _)]
    simp

end Part

namespace Program
variable (p : Program σ τ α ε)

def step (c : Config σ τ) : Action α ε → Config σ τ
  | .advance n choice =>
    match c.threads[n]? with
    | none => c
    | some t =>
      match p.advance choice c.shared t with
      | none => c
      | some (s, t', spawned) => ⟨s, c.threads.set n t' ++ spawned⟩
  | .event e =>
    match p.event e c.shared with
    | none => c
    | some (s, spawned) => ⟨s, c.threads ++ spawned⟩

variable {c : Config σ τ}

variable {p} in
theorem step_advance {choice : α} {t' : τ} {s : σ} {spawned : List τ}
    (running : c.threads[n]? = some t)
    (moved : p.advance choice c.shared t = some (s, t', spawned)) :
    p.step c (.advance n choice) = ⟨s, c.threads.set n t' ++ spawned⟩ := by
  simp only [step, running, moved]

def run (c : Config σ τ) (actions : List (Action α ε)) : Config σ τ := actions.foldl p.step c

@[simp] theorem run_nil (c : Config σ τ) : p.run c [] = c := rfl

@[simp] theorem run_cons (c : Config σ τ) (a : Action α ε) (actions : List (Action α ε)) :
    p.run c (a :: actions) = p.run (p.step c a) actions := rfl

theorem run_append (c : Config σ τ) (first later : List (Action α ε)) :
    p.run c (first ++ later) = p.run (p.run c first) later := List.foldl_append

inductive Moves (c : Config σ τ) : Config σ τ → Prop
  | stays : Moves c c
  | advances {n : Nat} {choice : α} {t t' : τ} {s : σ} {spawned : List τ}
      (running : c.threads[n]? = some t)
      (moved : p.advance choice c.shared t = some (s, t', spawned)) :
      Moves c ⟨s, c.threads.set n t' ++ spawned⟩
  | occurs {e : ε} {s : σ} {spawned : List τ} (happened : p.event e c.shared = some (s, spawned)) :
      Moves c ⟨s, c.threads ++ spawned⟩

inductive Takes (c : Config σ τ) : Action α ε → Config σ τ → Prop
  | stays {a : Action α ε} : Takes c a c
  | advances {n : Nat} {choice : α} {t t' : τ} {s : σ} {spawned : List τ}
      (running : c.threads[n]? = some t)
      (moved : p.advance choice c.shared t = some (s, t', spawned)) :
      Takes c (.advance n choice) ⟨s, c.threads.set n t' ++ spawned⟩
  | occurs {e : ε} {s : σ} {spawned : List τ} (happened : p.event e c.shared = some (s, spawned)) :
      Takes c (.event e) ⟨s, c.threads ++ spawned⟩

theorem step_takes (c : Config σ τ) (a : Action α ε) : p.Takes c a (p.step c a) := by
  cases a with
  | advance n choice =>
    simp only [step]
    split
    · exact .stays
    next t running =>
      split
      · exact .stays
      next moved => exact .advances running moved
  | event e =>
    simp only [step]
    split
    · exact .stays
    next happened => exact .occurs happened

variable {p} in
theorem Takes.moves {c' : Config σ τ} {a : Action α ε} (taken : p.Takes c a c') : p.Moves c c' := by
  cases taken with
  | stays => exact .stays
  | advances running moved => exact .advances running moved
  | occurs happened => exact .occurs happened

variable {p} in
theorem Takes.thread {c' : Config σ τ} {a : Action α ε} (taken : p.Takes c a c') {m : Nat}
    (present : c.threads[m]? = some t) :
    c'.threads[m]? = some t ∨ ∃ choice t' spawned,
      p.advance choice c.shared t = some (c'.shared, t', spawned) ∧ c'.threads[m]? = some t' := by
  have inside := (List.getElem?_eq_some_iff.mp present).1
  cases taken with
  | stays => exact .inl present
  | @advances n choice u u' s spawned running moved =>
    by_cases own : n = m
    · subst own
      rw [present] at running
      cases running
      exact .inr ⟨choice, u', spawned, moved, getElem?_own present u' spawned⟩
    · exact .inl (getElem?_other own present u' spawned)
  | occurs happened => exact .inl (by rw [List.getElem?_append_left inside, present])

theorem run_takes_keeps (keeps : Config σ τ → Prop)
    (takes : ∀ c a c', keeps c → p.Takes c a c' → keeps c') (start : keeps c)
    (actions : List (Action α ε)) : keeps (p.run c actions) := by
  induction actions generalizing c with
  | nil => exact start
  | cons a actions ih => exact ih (takes c a _ start (p.step_takes c a))

theorem run_keeps (keeps : Config σ τ → Prop) (moves : ∀ c c', keeps c → p.Moves c c' → keeps c')
    (start : keeps c) (actions : List (Action α ε)) : keeps (p.run c actions) :=
  p.run_takes_keeps keeps (fun c _ c' kept taken => moves c c' kept taken.moves) start actions

def along (condition : Config σ τ → Action α ε → Bool) :
    Config σ τ → List (Action α ε) → Bool
  | _, [] => true
  | c, a :: actions => condition c a && along condition (p.step c a) actions

theorem run_along_keeps (keeps : Config σ τ → Prop) (condition : Config σ τ → Action α ε → Bool)
    (steps : ∀ c a c', keeps c → condition c a = true → p.Takes c a c' → keeps c') (start : keeps c)
    (actions : List (Action α ε)) (conforms : p.along condition c actions = true) :
    keeps (p.run c actions) := by
  induction actions generalizing c with
  | nil => exact start
  | cons a actions ih =>
    rw [along, Bool.and_eq_true] at conforms
    exact ih (steps c a _ start conforms.1 (p.step_takes c a)) conforms.2

/-- Where the condition is exactly what one action needs to keep a property, it is
exactly what a run needs to keep it throughout. -/
theorem along_iff {keeps good : Config σ τ → Prop} {condition : Config σ τ → Action α ε → Bool}
    (takes : ∀ c a, keeps c → keeps (p.step c a))
    (steps : ∀ c a, keeps c → good c → (good (p.step c a) ↔ condition c a = true)) (start : keeps c)
    (fine : good c) (actions : List (Action α ε)) :
    (∀ first later, actions = first ++ later → good (p.run c first)) ↔
      p.along condition c actions = true := by
  induction actions generalizing c with
  | nil =>
    refine ⟨fun _ => rfl, fun _ first later split => ?_⟩
    rw [(List.append_eq_nil_iff.mp split.symm).1]
    exact fine
  | cons a actions ih =>
    rw [along, Bool.and_eq_true, ← steps c a start fine]
    constructor
    · intro always
      have next : good (p.step c a) := always [a] actions rfl
      refine ⟨next, (ih (takes c a start) next).mp fun first later split => ?_⟩
      exact always (a :: first) later (by rw [split]; rfl)
    · rintro ⟨next, conforms⟩ first later split
      cases first with
      | nil => exact fine
      | cons b first =>
        obtain ⟨rfl, rest⟩ := List.cons.inj split
        exact (ih (takes c a start) next).mpr conforms first later rest

theorem along_append (condition : Config σ τ → Action α ε → Bool) (c : Config σ τ)
    (first later : List (Action α ε)) :
    p.along condition c (first ++ later) =
      (p.along condition c first && p.along condition (p.run c first) later) := by
  induction first generalizing c with
  | nil => simp [along]
  | cons a first ih => simp [along, ih, Bool.and_assoc]

theorem along_and (first second : Config σ τ → Action α ε → Bool) (c : Config σ τ)
    (actions : List (Action α ε)) :
    p.along (fun c a => first c a && second c a) c actions =
      (p.along first c actions && p.along second c actions) := by
  induction actions generalizing c with
  | nil => rfl
  | cons a actions ih => simp only [along, ih, Bool.and_assoc, Bool.and_left_comm]

def Leads (c c' : Config σ τ) : Prop :=
  ∃ steps : List (Nat × α), p.run c (steps.map fun s => .advance s.1 s.2) = c'

variable {p} in
theorem Leads.refl (c : Config σ τ) : p.Leads c c := ⟨[], rfl⟩

variable {p} in
theorem Leads.trans {c' c'' : Config σ τ} (first : p.Leads c c') (later : p.Leads c' c'') :
    p.Leads c c'' := by
  obtain ⟨steps, rfl⟩ := first
  obtain ⟨more, rfl⟩ := later
  exact ⟨steps ++ more, by rw [List.map_append, run_append]⟩

variable {p} in
theorem Leads.step {choice : α} {t' : τ} {s : σ} {spawned : List τ}
    (running : c.threads[n]? = some t)
    (moved : p.advance choice c.shared t = some (s, t', spawned)) :
    p.Leads c ⟨s, c.threads.set n t' ++ spawned⟩ :=
  ⟨[(n, choice)], step_advance running moved⟩

end Program

variable {t' : τ} {spawned : List τ}

/-- An assertion that the moving thread re-establishes and that the others keep
holds of all threads afterwards. -/
theorem forall_advance {p : τ → Prop} {q : τ → Prop} (before : ∀ t ∈ threads, p t)
    (undisturbed : ∀ (m : Nat) t, m ≠ n → threads[m]? = some t → p t → q t) (own : q t')
    (started : ∀ t ∈ spawned, q t) : ∀ t ∈ threads.set n t' ++ spawned, q t := by
  intro t member
  rcases List.mem_append.mp member with old | new
  · obtain ⟨m, found⟩ := List.mem_iff_getElem?.mp old
    rw [List.getElem?_set] at found
    split_ifs at found with same
    · rw [← Option.some.inj found]
      exact own
    · exact undisturbed m t (Ne.symm same) found (before t (List.mem_of_getElem? found))
  · exact started t new

/-- What some thread was about to do some thread still is, unless the moving one
has done it. -/
theorem exists_advance {p : τ → Prop} (running : threads[n]? = some t) (kept : p t → p t')
    (spawned : List τ) (before : ∃ u ∈ threads, p u) : ∃ u ∈ threads.set n t' ++ spawned, p u := by
  obtain ⟨u, member, holds⟩ := before
  obtain ⟨m, found⟩ := List.mem_iff_getElem?.mp member
  have inside := (List.getElem?_eq_some_iff.mp running).1
  by_cases own : n = m
  · subst own
    rw [running] at found
    cases found
    exact ⟨t', List.mem_append_left _ (List.mem_set inside t'), kept holds⟩
  · refine ⟨u, List.mem_append_left _ (List.mem_of_getElem? (i := m) ?_), holds⟩
    rw [List.getElem?_set_ne own, found]

theorem exists_after {p : τ → Prop} (fresh : ∀ u ∈ spawned, ¬ p u)
    (after : ∃ u ∈ threads.set n t' ++ spawned, p u) :
    (∃ (m : Nat) (u : τ), m ≠ n ∧ threads[m]? = some u ∧ p u) ∨ p t' := by
  obtain ⟨u, member, holds⟩ := after
  rcases List.mem_append.mp member with old | started
  · obtain ⟨m, found⟩ := List.mem_iff_getElem?.mp old
    rw [List.getElem?_set] at found
    split_ifs at found with same
    · cases found
      exact .inr holds
    · exact .inl ⟨m, u, Ne.symm same, found, holds⟩
  · exact absurd holds (fresh u started)

theorem exists_before {p : τ → Prop} (running : threads[n]? = some t) (new : p t' → p t)
    (fresh : ∀ u ∈ spawned, ¬ p u) (after : ∃ u ∈ threads.set n t' ++ spawned, p u) :
    ∃ u ∈ threads, p u := by
  rcases exists_after fresh after with ⟨m, u, _, found, holds⟩ | holds
  · exact ⟨u, List.mem_of_getElem? found, holds⟩
  · exact ⟨t, List.mem_of_getElem? running, new holds⟩

theorem exists_own {p : τ → Prop} (running : threads[n]? = some t) (own : p t') (spawned : List τ) :
    ∃ u ∈ threads.set n t' ++ spawned, p u :=
  ⟨t', List.mem_append_left _ (List.mem_set (List.getElem?_eq_some_iff.mp running).1 t'), own⟩

theorem exists_others {p : τ → Prop} (idle : ¬ p t') :
    (∃ u ∈ threads.set n t' ++ [], p u) ↔ ∃ u ∈ threads.eraseIdx n, p u := by
  constructor
  · intro after
    rcases exists_after (by simp) after with ⟨m, u, other, found, holds⟩ | holds
    · exact ⟨u, List.mem_eraseIdx_iff_getElem?.mpr ⟨m, other, found⟩, holds⟩
    · exact absurd holds idle
  · rintro ⟨u, member, holds⟩
    obtain ⟨m, other, found⟩ := List.mem_eraseIdx_iff_getElem?.mp member
    refine ⟨u, List.mem_append_left _ (List.mem_of_getElem? (i := m) ?_), holds⟩
    rw [List.getElem?_set_ne (Ne.symm other), found]

theorem total_advance (f : τ → Int) (running : threads[n]? = some t) (t' : τ) (spawned : List τ) :
    Ledger.total f (threads.set n t' ++ spawned) =
      Ledger.total f threads - f t + f t' + Ledger.total f spawned := by
  rw [Ledger.total_append, Ledger.total_set f running]

theorem total_step {f : τ → Int} (running : threads[n]? = some t)
    (idle : ∀ u ∈ spawned, f u = 0) : Ledger.total f (threads.set n t' ++ spawned) =
      Ledger.total f threads - f t + f t' := by
  rw [total_advance f running, Ledger.total_eq_zero idle, add_zero]

section Mutex
variable {κ : Type} (claim : τ → Option κ)

/-- How a step of a thread treats a mutex, which names what its holder is about
to do: the mutex before and after, the claim of the thread before and after. -/
inductive Lock : Option κ → Option κ → Option κ → Option κ → Prop
  | keeps {mutex : Option κ} : Lock mutex mutex none none
  | takes {k : κ} : Lock none (some k) none (some k)
  | releases {k : κ} : Lock (some k) none (some k) none

def holding (t : τ) : Int := if (claim t).isSome then 1 else 0

/-- At most one thread holds the mutex, and the mutex knows its claim. -/
structure Exclusive (mutex : Option κ) (threads : List τ) : Prop where
  claimed : ∀ t ∈ threads, ∀ k, claim t = some k → mutex = some k
  single : Ledger.total (holding claim) threads = if mutex.isSome then 1 else 0

theorem holding_nonneg (t : τ) : 0 ≤ holding claim t := by
  unfold holding
  split_ifs <;> omega

variable {claim} {mutex mutex' : Option κ} {threads : List τ}

theorem Lock.unclaimed (lock : Lock mutex mutex' none none) : mutex' = mutex := by
  cases lock
  rfl

theorem Exclusive.alone (exclusive : Exclusive claim mutex threads) {m : Nat} (ne : m ≠ n) {u : τ}
    {k : κ} (running : threads[n]? = some t) (holds : claim t = some k)
    (other : threads[m]? = some u) : claim u = none := by
  have total := Ledger.add_le_total (fun a _ => holding_nonneg claim a) ne other running
  rw [exclusive.single] at total
  cases claims : claim u with
  | none => rfl
  | some k' =>
    simp only [holding, holds, claims, Option.isSome_some, if_true] at total
    split_ifs at total <;> omega

theorem Exclusive.enter (exclusive : Exclusive claim mutex threads)
    (fresh : ∀ t ∈ spawned, claim t = none) : Exclusive claim mutex (threads ++ spawned) := by
  have none_hold : Ledger.total (holding claim) spawned = 0 :=
    Ledger.total_eq_zero fun t member => by simp [holding, fresh t member]
  refine ⟨fun t member k claims => ?_, ?_⟩
  · rcases List.mem_append.mp member with old | new
    · exact exclusive.claimed t old k claims
    · simp [fresh t new] at claims
  · rw [Ledger.total_append, none_hold, exclusive.single]
    omega

theorem Exclusive.advance (exclusive : Exclusive claim mutex threads)
    (running : threads[n]? = some t) (lock : Lock mutex mutex' (claim t) (claim t')) :
    Exclusive claim mutex' (threads.set n t') := by
  have total := Ledger.total_set (holding claim) running t'
  have before := exclusive.single
  generalize claimed : claim t = k at lock
  generalize claims : claim t' = k' at lock
  cases lock with
  | keeps =>
    refine ⟨Ledger.forall_set exclusive.claimed (by simp [claims]), ?_⟩
    rw [total, before]
    simp [holding, claimed, claims]
  | takes =>
    refine ⟨Ledger.forall_set (fun u member k claim_u => ?_) (by simp [claims]), ?_⟩
    · simpa using exclusive.claimed u member k claim_u
    · rw [total, before]
      simp [holding, claimed, claims]
  | releases =>
    have none_hold : Ledger.total (holding claim) (threads.set n t') = 0 := by
      rw [total, before]
      simp [holding, claimed, claims]
    refine ⟨fun u member k claim_u => ?_, none_hold⟩
    have counted := Ledger.le_total (fun a _ => holding_nonneg claim a) member
    rw [none_hold] at counted
    simp [holding, claim_u] at counted

theorem Exclusive.change {k k' : κ} (exclusive : Exclusive claim (some k) threads)
    (running : threads[n]? = some t) (holds : claim t = some k) (claims : claim t' = some k') :
    Exclusive claim (some k') (threads.set n t') := by
  have total := Ledger.total_set (holding claim) running t'
  refine ⟨fun u member j claims_u => ?_, ?_⟩
  · obtain ⟨m, found⟩ := List.mem_iff_getElem?.mp member
    rw [List.getElem?_set] at found
    split_ifs at found with same
    · cases found
      exact claims ▸ claims_u
    · have idle := exclusive.alone (Ne.symm same) running holds found
      rw [idle] at claims_u
      cases claims_u
  · rw [total, exclusive.single]
    simp [holding, holds, claims]

theorem Exclusive.handOff {k : κ} (exclusive : Exclusive claim (some k) threads) {u : τ}
    (running : threads[n]? = some t) (holds : claim t = some k) (releases : claim t' = none)
    (receives : claim u = some k) : Exclusive claim (some k) (threads.set n t' ++ [u]) := by
  have total := Ledger.total_set (holding claim) running t'
  refine ⟨fun v member j claims_v => ?_, ?_⟩
  · rcases List.mem_append.mp member with old | new
    · rcases List.mem_or_eq_of_mem_set old with before | rfl
      · exact exclusive.claimed v before j claims_v
      · rw [releases] at claims_v
        cases claims_v
    · rw [List.mem_singleton.mp new, receives] at claims_v
      exact claims_v
  · rw [Ledger.total_append, total, exclusive.single]
    simp [holding, holds, releases, receives]

theorem Exclusive.start {k : κ} (idle : ∀ t ∈ threads, claim t = none) {u : τ}
    (claims : claim u = some k) : Exclusive claim (some k) (threads ++ [u]) := by
  have none_hold : Ledger.total (holding claim) threads = 0 :=
    Ledger.total_eq_zero fun t member => by simp [holding, idle t member]
  refine ⟨fun t member j claims_t => ?_, ?_⟩
  · rcases List.mem_append.mp member with old | new
    · rw [idle t old] at claims_t
      cases claims_t
    · rw [List.mem_singleton.mp new, claims] at claims_t
      exact claims_t
  · rw [Ledger.total_append, none_hold]
    simp [holding, claims]

theorem Exclusive.holder {k : κ} (exclusive : Exclusive claim (some k) threads) :
    ∃ t ∈ threads, claim t = some k := by
  by_contra nobody
  have idle : ∀ t ∈ threads, holding claim t = 0 := by
    intro t member
    cases claims : claim t with
    | none => simp [holding, claims]
    | some j =>
      have same := exclusive.claimed t member j claims
      cases same
      exact absurd ⟨t, member, claims⟩ nobody
  have single := exclusive.single
  rw [Ledger.total_eq_zero idle] at single
  simp at single

theorem Exclusive.weight (exclusive : Exclusive claim mutex threads) (f : κ → Int) :
    Ledger.total (fun t => (claim t).elim 0 f) threads = mutex.elim 0 f := by
  cases mutex with
  | none =>
    apply Ledger.total_eq_zero
    intro t member
    cases claims : claim t with
    | none => rfl
    | some k => simpa using exclusive.claimed t member k claims
  | some k =>
    have each : ∀ t ∈ threads, (claim t).elim 0 f = f k * holding claim t := by
      intro t member
      cases claims : claim t with
      | none => simp [holding, claims]
      | some j =>
        have same := exclusive.claimed t member j claims
        cases same
        simp [holding, claims]
    have single := exclusive.single
    simp only [Ledger.total, Option.isSome_some, if_true] at single ⊢
    rw [List.map_congr_left each, List.sum_map_mul_left, single]
    simp

theorem Exclusive.rest (exclusive : Exclusive claim mutex threads) (running : threads[n]? = some t)
    (same : claim t' = claim t) : Exclusive claim mutex (threads.set n t') := by
  have total := Ledger.total_set (holding claim) running t'
  refine ⟨Ledger.forall_set exclusive.claimed fun k claims => ?_, ?_⟩
  · exact exclusive.claimed t (List.mem_of_getElem? running) k (same ▸ claims)
  · rw [total, exclusive.single]
    simp [holding, same]

end Mutex
end Interleaving
