import Telekit.CallbackPool

/-! What becomes of the tasks of the callback pool. A task that was put into the queue is in
it, in the hands of one goroutine, or in one of the records of what was called; a step
moves it from one of these places to another. The task of a submission is its own, so the
one that put it there is all there is to account for. -/

namespace Telekit.CallbackPool

open Ledger (total)

def one (task : Task) (held : Option Task) : Int := if held = some task then 1 else 0

def share (part : Thread → Option Task) (task : Task) (t : Thread) : Int := one task (part t)

def Shared.places (s : Shared) (task : Task) : Int :=
  s.queue.count task + s.executed.count task + s.cancelled.count task + s.discarded.count task

/-- Every task that was sent is in one place or in one hand; no two submissions have the
same task. -/
structure Accounts (c : Config) : Prop where
  balance : ∀ task, c.shared.places task + total (share Thread.hand task) c.threads =
    total (share Thread.sent task) c.threads
  numbered : ∀ t ∈ c.threads, ∀ task, t.submission = some task →
    task.number < c.shared.submissions
  single : ∀ task, total (share Thread.submission task) c.threads ≤ 1
  cancellable : ∀ task ∈ c.shared.cancelled, task.cancel = true
  uncancellable : ∀ task ∈ c.shared.discarded, task.cancel = false

theorem share_nonneg (part : Thread → Option Task) (task : Task) (t : Thread) :
    0 ≤ share part task t := by
  unfold share one
  split_ifs <;> omega

theorem one_none (task : Task) : one task none = 0 := if_neg nofun

theorem count_cons_one (task first : Task) (rest : List Task) :
    ((first :: rest).count task : Int) = one task (some first) + rest.count task := by
  unfold one
  by_cases same : first = task
  · simp [same, Int.add_comm]
  · simp [same]

theorem count_concat_one (task last : Task) (rest : List Task) :
    ((rest ++ [last]).count task : Int) = rest.count task + one task (some last) := by
  rw [List.count_append, Int.natCast_add, count_cons_one]
  simp

theorem Effect.balances {s s' : Shared} {t t' : Thread} (effect : Effect s t s' t')
    (own : t.Sees s) (task : Task) :
    s'.places task + share Thread.hand task t' - share Thread.sent task t' =
      s.places task + share Thread.hand task t - share Thread.sent task t := by
  unfold share Shared.places
  cases effect with
  | quiet mutex once stop hand sent => rw [hand, sent]
  | shuts => rfl
  | sends room =>
    simp only [Thread.hand, Thread.sent, one_none, count_concat_one]
    omega
  | receives first free has sent =>
    simp only [first, free, has, sent, one_none, count_cons_one]
    omega
  | executes | cancels | discards =>
    simp only [Thread.hand, Thread.sent, one_none, count_cons_one]
    omega
  | skips missing => exact absurd (missing.symm.trans own) Bool.false_ne_true

theorem Effect.submission_eq {s s' : Shared} {t t' : Thread} (effect : Effect s t s' t') :
    t'.submission = t.submission := by
  cases effect with
  | quiet mutex once stop hand sent submission => exact submission
  | receives first free has sent submission => exact submission
  | shuts | sends | executes | skips | cancels | discards => rfl

theorem Effect.submissions_eq {s s' : Shared} {t t' : Thread} (effect : Effect s t s' t') :
    s'.submissions = s.submissions := by
  cases effect <;> rfl

theorem newCallbackPool_accounts (workers queueSize : Int) :
    Accounts (newCallbackPool workers queueSize) := by
  have nothing (part : Thread → Option Task) (idle : part (.worker .select) = none) (task : Task) :
      total (share part task) (newCallbackPool workers queueSize).threads = 0 := by
    apply Ledger.total_eq_zero
    intro t member
    rw [worker_of_start member, share, idle, one_none]
  refine ⟨fun task => ?_, ?_, fun task => ?_, by simp [newCallbackPool], by simp [newCallbackPool]⟩
  · rw [nothing _ rfl, nothing _ rfl]
    rfl
  · intro t member task submits
    rw [worker_of_start member] at submits
    cases submits
  · rw [nothing _ rfl]
    decide

theorem Effect.cancelled {s s' : Shared} {t t' : Thread} (effect : Effect s t s' t')
    (before : ∀ task ∈ s.cancelled, task.cancel = true) :
    ∀ task ∈ s'.cancelled, task.cancel = true := by
  cases effect with
  | cancels present =>
    intro task member
    rcases List.mem_cons.mp member with rfl | old
    · exact present
    · exact before task old
  | _ => exact before

theorem Effect.discarded {s s' : Shared} {t t' : Thread} (effect : Effect s t s' t')
    (before : ∀ task ∈ s.discarded, task.cancel = false) :
    ∀ task ∈ s'.discarded, task.cancel = false := by
  cases effect with
  | discards missing =>
    intro task member
    rcases List.mem_cons.mp member with rfl | old
    · exact missing
    · exact before task old
  | _ => exact before

variable {spawned : List Thread}

theorem total_enter {part : Thread → Option Task} (idle : ∀ t ∈ spawned, part t = none)
    (task : Task) (threads : List Thread) :
    total (share part task) (threads ++ spawned) = total (share part task) threads := by
  have nothing : total (share part task) spawned = 0 := by
    apply Ledger.total_eq_zero
    intro t member
    rw [share, idle t member, one_none]
  rw [Ledger.total_append, nothing, Int.add_zero]

theorem Begun.fresh {s s' : Shared} (begun : Begun s s' spawned) :
    ∀ t ∈ spawned, t.hand = none ∧ t.sent = none := by
  cases begun with
  | submits | closes => simp [Thread.hand, Thread.sent]

theorem Begun.places_eq {s s' : Shared} (begun : Begun s s' spawned) (task : Task) :
    s'.places task = s.places task := by
  cases begun <;> rfl

theorem Accounts.enter {s s' : Shared} {threads : List Thread} (accounts : Accounts ⟨s, threads⟩)
    (begun : Begun s s' spawned) :
    (∀ t ∈ threads ++ spawned, ∀ task, t.submission = some task → task.number < s'.submissions) ∧
      ∀ task, total (share Thread.submission task) (threads ++ spawned) ≤ 1 := by
  cases begun with
  | submits callback cancel =>
    refine ⟨fun t member task submits => ?_, fun task => ?_⟩
    · rcases List.mem_append.mp member with old | new
      · exact Nat.lt_succ_of_lt (accounts.numbered t old task submits)
      · rw [List.mem_singleton.mp new] at submits
        cases submits
        exact Nat.lt_succ_self _
    · have before : total (share Thread.submission task) threads ≤ 1 := accounts.single task
      simp only [Ledger.total_append, Ledger.total_cons, Ledger.total_nil]
      by_cases own : task = ⟨s.submissions, callback, cancel⟩
      · have unused : total (share Thread.submission task) threads = 0 := by
          apply Ledger.total_eq_zero
          intro t member
          refine if_neg fun submits => ?_
          have old := accounts.numbered t member task submits
          rw [own] at old
          exact Nat.lt_irrefl _ old
        have counts : share Thread.submission task
            (.submit ⟨s.submissions, callback, cancel⟩ .call) = 1 := if_pos (congrArg some own.symm)
        omega
      · have other : share Thread.submission task
            (.submit ⟨s.submissions, callback, cancel⟩ .call) = 0 :=
          if_neg fun same => own (Option.some.inj same).symm
        omega
  | closes =>
    refine ⟨fun t member task submits => ?_, fun task => ?_⟩
    · rcases List.mem_append.mp member with old | new
      · exact accounts.numbered t old task submits
      · rw [List.mem_singleton.mp new] at submits
        cases submits
    · rw [total_enter (by simp [Thread.submission])]
      exact accounts.single task

variable {c : Config}

theorem Accounts.moves {c' : Config} (accounts : Accounts c) (closing : Closing c)
    (moves : program.Moves c c') : Accounts c' := by
  cases moves with
  | stays => exact accounts
  | @advances n choice t t' s' spawned running moved =>
    obtain ⟨rfl, taken⟩ := advance_taken moved
    have effect := taken.effect
    have own := closing.sees t (List.mem_of_getElem? running)
    refine ⟨fun task => ?_, ?_, fun task => ?_, effect.cancelled accounts.cancellable,
      effect.discarded accounts.uncancellable⟩
    · have before := accounts.balance task
      have step := effect.balances own task
      simp only [Interleaving.total_advance _ running, Ledger.total_nil]
      omega
    · refine Interleaving.forall_advance accounts.numbered (fun _ u _ _ before => ?_) ?_ (by simp)
      · rw [effect.submissions_eq]
        exact before
      · rw [effect.submissions_eq, effect.submission_eq]
        exact accounts.numbered t (List.mem_of_getElem? running)
    · have same : share Thread.submission task t' = share Thread.submission task t := by
        rw [share, share, effect.submission_eq]
      have before := accounts.single task
      simp only [Interleaving.total_advance _ running, Ledger.total_nil, same]
      omega
  | occurs happened =>
    have begun := occur_begun happened
    have fresh := begun.fresh
    obtain ⟨numbered, single⟩ := accounts.enter begun
    refine ⟨fun task => ?_, numbered, single, ?_, ?_⟩
    · rw [begun.places_eq, total_enter fun t member => (fresh t member).1,
        total_enter fun t member => (fresh t member).2]
      exact accounts.balance task
    · cases begun <;> exact accounts.cancellable
    · cases begun <;> exact accounts.uncancellable

theorem run_accounts (workers queueSize : Int) (actions : List Action) :
    Closing (program.run (newCallbackPool workers queueSize) actions) ∧
      Accounts (program.run (newCallbackPool workers queueSize) actions) := by
  refine program.run_keeps (fun c => Closing c ∧ Accounts c) (fun c c' kept moves => ?_) ?_ actions
  · exact ⟨kept.1.moves moves, kept.2.moves kept.1 moves⟩
  · exact ⟨newCallbackPool_closing workers queueSize, newCallbackPool_accounts workers queueSize⟩

section Settling
variable {c : Config} {task : Task}

theorem Thread.submission_of_sent {t : Thread} (sent : t.sent = some task) :
    t.submission = some task := by
  cases t with
  | submit own pos =>
    cases pos with
    | unlock answer => cases answer <;> cases sent; rfl
    | returned answer => cases answer <;> cases sent; rfl
    | _ => cases sent
  | _ => cases sent

theorem Accounts.places_eq (accounts : Accounts c) {pos : SubmitPos}
    (submitted : .submit task pos ∈ c.threads) :
    c.shared.places task + total (share Thread.hand task) c.threads =
      share Thread.sent task (.submit task pos) := by
  obtain ⟨n, present⟩ := List.mem_iff_getElem?.mp submitted
  rw [accounts.balance]
  apply Ledger.total_single present
  intro m u other found
  refine if_neg fun sent => ?_
  have both := Ledger.add_le_total (fun t _ => share_nonneg Thread.submission task t) other found
    present
  have mine : share Thread.submission task (.submit task pos) = 1 := if_pos rfl
  have theirs : share Thread.submission task u = 1 := if_pos (Thread.submission_of_sent sent)
  have single := accounts.single task
  omega

theorem exists_hand {threads : List Thread} (held : 0 < total (share Thread.hand task) threads) :
    ∃ (n : Nat) (t : Thread), threads[n]? = some t ∧ t.hand = some task := by
  by_contra free
  have nothing : total (share Thread.hand task) threads = 0 := by
    apply Ledger.total_eq_zero
    intro t member
    obtain ⟨n, found⟩ := List.mem_iff_getElem?.mp member
    exact if_neg fun has => free ⟨n, t, found, has⟩
  omega

end Settling

/-- The task was executed exactly once and not cancelled, or it was not executed and
`Close` has received it: then it was cancelled exactly once, or has no cancel function. -/
def Settled (s : Shared) (task : Task) : Prop :=
  (s.executed.count task = 1 ∧ s.cancelled.count task = 0 ∧ s.discarded.count task = 0) ∨
    (s.executed.count task = 0 ∧ s.cancelled.count task = 1 ∧ s.discarded.count task = 0 ∧
      task.cancel = true) ∨
    (s.executed.count task = 0 ∧ s.cancelled.count task = 0 ∧ s.discarded.count task = 1 ∧
      task.cancel = false)

theorem Settled.next {task : Task} {n : Nat} {t : Thread} (running : c.threads[n]? = some t)
    (has : t.hand = some task) (sees : t.Sees c.shared)
    (unexecuted : c.shared.executed.count task = 0)
    (uncancelled : c.shared.cancelled.count task = 0)
    (undiscarded : c.shared.discarded.count task = 0) (choice : Choice) :
    Settled (program.step c (.advance n choice)).shared task := by
  cases t with
  | worker pos =>
    cases pos with
    | received own =>
      cases has
      have callable : task.run = true := sees
      have moved : advance choice c.shared (.worker (.received task)) = some
          ({ c.shared with executed := task :: c.shared.executed }, .worker (.running task), []) := by
        simp only [advance, runStep, callable, if_true, Option.map_some]
      rw [Interleaving.Program.step_advance running moved]
      exact .inl ⟨by simp [unexecuted], uncancelled, undiscarded⟩
    | _ => cases has
  | submit own pos => cases has
  | close pos =>
    cases pos with
    | received own =>
      cases has
      cases present : task.cancel with
      | true =>
        have moved : advance choice c.shared (.close (.received task)) = some
            ({ c.shared with cancelled := task :: c.shared.cancelled },
              .close (.cancelling task), []) := by
          simp only [advance, closeStep, present, if_true, Option.map_some]
        rw [Interleaving.Program.step_advance running moved]
        exact .inr (.inl ⟨unexecuted, by simp [uncancelled], undiscarded, present⟩)
      | false =>
        have moved : advance choice c.shared (.close (.received task)) = some
            ({ c.shared with discarded := task :: c.shared.discarded }, .close .drain, []) := by
          simp only [advance, closeStep, present, Bool.false_eq_true, if_false, Option.map_some]
        rw [Interleaving.Program.step_advance running moved]
        exact .inr (.inr ⟨unexecuted, uncancelled, by simp [undiscarded], present⟩)
    | _ => cases has

theorem accepted_settled (closing : Closing c) (accounts : Accounts c) {task : Task}
    (accepted : .submit task (.returned true) ∈ c.threads) (left : task ∉ c.shared.queue) :
    Settled c.shared task ∨ ∃ (n : Nat) (t : Thread), c.threads[n]? = some t ∧
      t.hand = some task ∧ ∀ choice, Settled (program.step c (.advance n choice)).shared task := by
  have balance := accounts.places_eq accepted
  have counted : share Thread.sent task (.submit task (.returned true)) = 1 := if_pos rfl
  have unqueued : c.shared.queue.count task = 0 := List.count_eq_zero.mpr left
  have hands : 0 ≤ total (share Thread.hand task) c.threads :=
    Ledger.total_nonneg fun t _ => share_nonneg Thread.hand task t
  rw [counted, Shared.places, unqueued] at balance
  by_cases held : 0 < total (share Thread.hand task) c.threads
  · obtain ⟨n, t, running, has⟩ := exists_hand held
    refine .inr ⟨n, t, running, has, fun choice => ?_⟩
    exact Settled.next running has (closing.sees t (List.mem_of_getElem? running)) (by omega)
      (by omega) (by omega) choice
  · left
    by_cases executed : c.shared.executed.count task = 0
    · by_cases cancelled : c.shared.cancelled.count task = 0
      · have discarded : c.shared.discarded.count task = 1 := by omega
        have member : task ∈ c.shared.discarded := List.count_pos_iff.mp (by omega)
        exact .inr (.inr ⟨executed, cancelled, discarded, accounts.uncancellable task member⟩)
      · have member : task ∈ c.shared.cancelled := List.count_pos_iff.mp (by omega)
        exact .inr (.inl ⟨executed, by omega, by omega, accounts.cancellable task member⟩)
    · exact .inl ⟨by omega, by omega, by omega⟩

theorem refused_untouched (accounts : Accounts c) {task : Task}
    (refused : .submit task (.returned false) ∈ c.threads) :
    c.shared.executed.count task = 0 ∧ c.shared.cancelled.count task = 0 := by
  have balance := accounts.places_eq refused
  have counted : share Thread.sent task (.submit task (.returned false)) = 0 := one_none task
  have hands : 0 ≤ total (share Thread.hand task) c.threads :=
    Ledger.total_nonneg fun t _ => share_nonneg Thread.hand task t
  rw [counted, Shared.places] at balance
  omega

theorem Effect.capacity_eq {s s' : Shared} {t t' : Thread} (effect : Effect s t s' t') :
    s'.capacity = s.capacity := by
  cases effect <;> rfl

theorem run_capacity (c : Config) (actions : List Action) :
    (program.run c actions).shared.capacity = c.shared.capacity := by
  refine program.run_keeps (fun c' => c'.shared.capacity = c.shared.capacity)
    (fun d d' kept moves => ?_) rfl actions
  cases moves with
  | stays => exact kept
  | advances running moved => exact (advance_taken moved).2.effect.capacity_eq.trans kept
  | occurs happened => cases occur_begun happened <;> exact kept

theorem Closing.returned (closing : Closing c) (returned : Thread.close .returned ∈ c.threads) :
    c.shared.queue = [] :=
  (closing.sees _ returned).2

theorem returned_stays (returned : Thread.close .returned ∈ c.threads) (actions : List Action) :
    Thread.close .returned ∈ (program.run c actions).threads := by
  refine program.run_keeps (fun c => Thread.close .returned ∈ c.threads) (fun c c' kept moves => ?_)
    returned actions
  cases moves with
  | stays => exact kept
  | @advances n choice t t' s spawned running moved =>
    obtain ⟨u, member, rfl⟩ := Interleaving.exists_advance running
      (fun same => by subst same; cases moved) spawned ⟨_, kept, rfl⟩
    exact member
  | occurs happened => exact List.mem_append_left _ kept

/-- With any number of workers, queue size and interleaving: an accepted task that left the
queue is settled or about to be, a refused one is neither executed nor cancelled, and
after `Close` the queue stays empty. -/
theorem tasks_settled_once (workers queueSize : Int) (actions : List Action) :
    let c := program.run (newCallbackPool workers queueSize) actions
    (∀ task, Thread.submit task (.returned true) ∈ c.threads → task ∉ c.shared.queue →
      Settled c.shared task ∨ ∃ (n : Nat) (t : Thread), c.threads[n]? = some t ∧
        t.hand = some task ∧
        ∀ choice, Settled (program.step c (.advance n choice)).shared task) ∧
    (∀ task, Thread.submit task (.returned false) ∈ c.threads →
      c.shared.executed.count task = 0 ∧ c.shared.cancelled.count task = 0) ∧
    c.shared.queue.length ≤ orOne queueSize ∧
    (Thread.close .returned ∈ c.threads →
      ∀ more : List Action, (program.run c more).shared.queue = []) := by
  intro c
  obtain ⟨closing, accounts⟩ := run_accounts workers queueSize actions
  refine ⟨fun task accepted left => accepted_settled closing accounts accepted left,
    fun task refused => refused_untouched accounts refused, ?_, fun returned more => ?_⟩
  · have room : c.shared.queue.length ≤ c.shared.capacity := closing.sound.room
    have capacity : c.shared.capacity = (orOne queueSize).toNat := run_capacity _ actions
    have positive := orOne_pos queueSize
    omega
  · have stays := returned_stays returned more
    have later := (run_accounts workers queueSize (actions ++ more)).1
    rw [program.run_append] at later
    exact later.returned stays

namespace Sample

def goes (n steps : Nat) : List Action := List.replicate steps (.advance n .queue)

/-- The test of the repository: one worker, one place. The first callback runs, the second
waits and is cancelled by `Close`, the third is refused. -/
def closedWhileRunning : List Action := List.flatten [
  [.event (.submit true)], goes 1 5, goes 0 2,
  [.event (.submitWithCancel true true)], goes 2 5,
  [.event (.submit true)], goes 3 5,
  [.event .close], goes 4 10]

/-- A task without a cancel function is accepted, and `Close` is faster than the worker,
which then stops. -/
def closedWhileQueued : List Action := List.flatten [
  [.event (.submit true)], goes 1 5, [.event .close], goes 2 10, [.advance 0 .stop]]

end Sample

/-- An accepted task that has left the queue and is neither executed nor cancelled. -/
theorem dropped_at_close :
    (program.run (newCallbackPool 1 1) Sample.closedWhileQueued).threads =
      [.worker .returned, .submit ⟨0, true, false⟩ (.returned true), .close .returned] ∧
    (program.run (newCallbackPool 1 1) Sample.closedWhileQueued).shared.queue = [] ∧
    (program.run (newCallbackPool 1 1) Sample.closedWhileQueued).shared.executed = [] ∧
    (program.run (newCallbackPool 1 1) Sample.closedWhileQueued).shared.cancelled = [] := by
  decide

example :
    (program.run (newCallbackPool 1 1) Sample.closedWhileRunning).threads =
      [.worker (.running ⟨0, true, false⟩), .submit ⟨0, true, false⟩ (.returned true),
        .submit ⟨1, true, true⟩ (.returned true), .submit ⟨2, true, false⟩ (.returned false),
        .close .returned] ∧
    (program.run (newCallbackPool 1 1) Sample.closedWhileRunning).shared.executed =
      [⟨0, true, false⟩] ∧
    (program.run (newCallbackPool 1 1) Sample.closedWhileRunning).shared.cancelled =
      [⟨1, true, true⟩] := by
  decide

end Telekit.CallbackPool
