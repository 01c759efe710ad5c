import Telekit.Library.Interleaving

/-! The callback pool: `peer/callback_pool.go`. The workers, the submissions and the
calls of `Close` are threads over the pool. An operation on a channel or a mutex is a
step of its own, and so is the call of a function: between the receive and the call a
task is in the hands of the worker or of `Close`. A function is known by whether it is
nil; it may take any time, and what it does is up to other threads. Submissions are
numbered, which tells their tasks apart. What was called is recorded and never read.

A method of a nil pool returns at once and touches nothing, so it has no place here. -/

namespace Telekit.CallbackPool

open Interleaving (Exclusive)

structure Task where
  number : Nat
  run : Bool
  cancel : Bool
  deriving DecidableEq

/-- The state of a `sync.Once`: its function has not begun, is running, has returned. -/
inductive Once
  | ready
  | busy
  | done
  deriving DecidableEq

inductive Holder
  | submit
  | close
  deriving DecidableEq

structure Shared where
  capacity : Nat
  queue : List Task := []
  stop : Bool := false
  once : Once := .ready
  mutex : Option Holder := none
  closed : Bool := false
  submissions : Nat := 0
  executed : List Task := []
  cancelled : List Task := []
  discarded : List Task := []

inductive WorkerPos
  | select
  | received (task : Task)
  | running (task : Task)
  | returned
  deriving DecidableEq

inductive SubmitPos
  | call
  | lock
  | check
  | send
  | unlock (answer : Bool)
  | returned (answer : Bool)
  deriving DecidableEq

inductive ClosePos
  | call
  | lock
  | mark
  | stop
  | drain
  | received (task : Task)
  | cancelling (task : Task)
  | unlock
  | finish
  | returned
  deriving DecidableEq

inductive Thread
  | worker (pos : WorkerPos)
  | submit (task : Task) (pos : SubmitPos)
  | close (pos : ClosePos)
  deriving DecidableEq

inductive Choice
  | stop
  | queue

def runStep (choice : Choice) (s : Shared) : WorkerPos → Option (Shared × WorkerPos)
  | .select =>
    match choice, s.queue with
    | .stop, _ => if s.stop then some (s, .returned) else none
    | .queue, [] => none
    | .queue, task :: rest => some ({ s with queue := rest }, .received task)
  | .received task =>
    if task.run then some ({ s with executed := task :: s.executed }, .running task)
    else some (s, .select)
  | .running _ => some (s, .select)
  | .returned => none

def submitStep (s : Shared) (task : Task) : SubmitPos → Option (Shared × SubmitPos)
  | .call => if task.run then some (s, .lock) else some (s, .returned false)
  | .lock => if s.mutex = none then some ({ s with mutex := some .submit }, .check) else none
  | .check => if s.closed then some (s, .unlock false) else some (s, .send)
  | .send =>
    if s.queue.length < s.capacity then
      some ({ s with queue := s.queue ++ [task] }, .unlock true)
    else some (s, .unlock false)
  | .unlock answer => some ({ s with mutex := none }, .returned answer)
  | .returned _ => none

/-- A second caller waits until the function of the first has returned; closing a closed
channel would panic. -/
def closeStep (s : Shared) : ClosePos → Option (Shared × ClosePos)
  | .call =>
    match s.once with
    | .ready => some ({ s with once := .busy }, .lock)
    | .busy => none
    | .done => some (s, .returned)
  | .lock => if s.mutex = none then some ({ s with mutex := some .close }, .mark) else none
  | .mark => some ({ s with closed := true }, .stop)
  | .stop => if s.stop then none else some ({ s with stop := true }, .drain)
  | .drain =>
    match s.queue with
    | [] => some (s, .unlock)
    | task :: rest => some ({ s with queue := rest }, .received task)
  | .received task =>
    if task.cancel then some ({ s with cancelled := task :: s.cancelled }, .cancelling task)
    else some ({ s with discarded := task :: s.discarded }, .drain)
  | .cancelling _ => some (s, .drain)
  | .unlock => some ({ s with mutex := none }, .finish)
  | .finish => some ({ s with once := .done }, .returned)
  | .returned => none

def advance (choice : Choice) (s : Shared) : Thread → Option (Shared × Thread × List Thread)
  | .worker pos => (runStep choice s pos).map fun (s, pos) => (s, .worker pos, [])
  | .submit task pos => (submitStep s task pos).map fun (s, pos) => (s, .submit task pos, [])
  | .close pos => (closeStep s pos).map fun (s, pos) => (s, .close pos, [])

inductive Call
  | submit (callback : Bool)
  | submitWithCancel (callback cancel : Bool)
  | close

def submitWithCancel (callback cancel : Bool) (s : Shared) : Shared × List Thread :=
  ({ s with submissions := s.submissions + 1 }, [.submit ⟨s.submissions, callback, cancel⟩ .call])

def occur (call : Call) (s : Shared) : Option (Shared × List Thread) :=
  match call with
  | .submit callback => some (submitWithCancel callback false s)
  | .submitWithCancel callback cancel => some (submitWithCancel callback cancel s)
  | .close => some (s, [.close .call])

abbrev Config := Interleaving.Config Shared Thread
abbrev Action := Interleaving.Action Choice Call

def program : Interleaving.Program Shared Thread Choice Call := ⟨advance, occur⟩

def orOne (size : Int) : Int := if size ≤ 0 then 1 else size

theorem orOne_pos (size : Int) : 0 < orOne size := by
  unfold orOne
  split_ifs <;> omega

def newCallbackPool (workers queueSize : Int) : Config :=
  ⟨{ capacity := (orOne queueSize).toNat },
    List.replicate (orOne workers).toNat (.worker .select)⟩

namespace Thread

def hand : Thread → Option Task
  | .worker (.received task) => some task
  | .close (.received task) => some task
  | _ => none

def submission : Thread → Option Task
  | .submit task _ => some task
  | _ => none

def sent : Thread → Option Task
  | .submit task (.unlock true) => some task
  | .submit task (.returned true) => some task
  | _ => none

def claim : Thread → Option Holder
  | .submit _ .check => some .submit
  | .submit _ .send => some .submit
  | .submit _ (.unlock _) => some .submit
  | .close .mark => some .close
  | .close .stop => some .close
  | .close .drain => some .close
  | .close (.received _) => some .close
  | .close (.cancelling _) => some .close
  | .close .unlock => some .close
  | _ => none

def Sees (s : Shared) : Thread → Prop
  | .worker (.received task) => task.run = true
  | .worker _ => True
  | .submit _ .call => True
  | .submit task .send => task.run = true ∧ s.closed = false
  | .submit task .lock => task.run = true
  | .submit task .check => task.run = true
  | .submit _ _ => True
  | .close .call => True
  | .close .lock => True
  | .close .mark => True
  | .close .unlock => s.closed = true ∧ s.queue = []
  | .close .finish => s.closed = true ∧ s.queue = []
  | .close .returned => s.closed = true ∧ s.queue = []
  | .close _ => s.closed = true

end Thread

/-- Everything a step can do to the queue, the records and what closes the pool. -/
inductive Effect (s : Shared) : Thread → Shared → Thread → Prop
  | quiet (mutex : Option Holder) (once : Once) (stop : Bool) {t t' : Thread}
      (hand : t'.hand = t.hand) (sent : t'.sent = t.sent)
      (submission : t'.submission = t.submission)
      (finished : once = .done → s.once = .done ∨ t' = .close .returned) :
      Effect s t { s with mutex := mutex, once := once, stop := stop } t'
  | shuts : Effect s (.close .mark) { s with closed := true } (.close .stop)
  | sends {task : Task} (room : s.queue.length < s.capacity) :
      Effect s (.submit task .send) { s with queue := s.queue ++ [task] }
        (.submit task (.unlock true))
  | receives {task : Task} {rest : List Task} (first : s.queue = task :: rest) {t t' : Thread}
      (free : t.hand = none) (has : t'.hand = some task) (sent : t'.sent = t.sent)
      (submission : t'.submission = t.submission) : Effect s t { s with queue := rest } t'
  | executes {task : Task} :
      Effect s (.worker (.received task)) { s with executed := task :: s.executed }
        (.worker (.running task))
  | skips {task : Task} (missing : task.run = false) :
      Effect s (.worker (.received task)) s (.worker .select)
  | cancels {task : Task} (present : task.cancel = true) :
      Effect s (.close (.received task)) { s with cancelled := task :: s.cancelled }
        (.close (.cancelling task))
  | discards {task : Task} (missing : task.cancel = false) :
      Effect s (.close (.received task)) { s with discarded := task :: s.discarded }
        (.close .drain)

inductive Locks (s : Shared) (t : Thread) (s' : Shared) (t' : Thread) : Prop
  | rests (mutex : s'.mutex = s.mutex) (claim : t'.claim = t.claim)
  | takes {holder : Holder} (free : s.mutex = none) (idle : t.claim = none)
      (mutex : s'.mutex = some holder) (claim : t'.claim = some holder)
  | releases {holder : Holder} (held : t.claim = some holder) (mutex : s'.mutex = none)
      (claim : t'.claim = none)

structure Shared.Sound (s : Shared) : Prop where
  room : s.queue.length ≤ s.capacity
  callable : ∀ task ∈ s.queue, task.run = true
  finished : s.once = .done → s.closed = true ∧ s.queue = []

structure Taken (s : Shared) (t : Thread) (s' : Shared) (t' : Thread) : Prop where
  effect : Effect s t s' t'
  locks : Locks s t s' t'
  sees : s.Sound → t.Sees s → t'.Sees s'

section Inversion
variable {s s' : Shared}

theorem Taken.idle {t t' : Thread} (hand : t'.hand = t.hand) (sent : t'.sent = t.sent)
    (submission : t'.submission = t.submission) (claim : t'.claim = t.claim)
    (sees : s.Sound → t.Sees s → t'.Sees s) : Taken s t s t' :=
  ⟨.quiet s.mutex s.once s.stop hand sent submission .inl, .rests rfl claim, sees⟩

theorem runStep_taken {choice : Choice} {pos pos' : WorkerPos}
    (moved : runStep choice s pos = some (s', pos')) :
    Taken s (.worker pos) s' (.worker pos') := by
  cases pos with
  | select =>
    cases choice with
    | stop =>
      simp only [runStep, Option.ite_none_right_eq_some] at moved
      cases moved.2
      exact .idle rfl rfl rfl rfl fun _ _ => trivial
    | queue =>
      cases pending : s.queue with
      | nil => simp [runStep, pending] at moved
      | cons task rest =>
        simp only [runStep, pending] at moved
        cases moved
        have callable (sound : s.Sound) : task.run = true :=
          sound.callable task (pending ▸ List.mem_cons_self)
        exact ⟨.receives pending rfl rfl rfl rfl, .rests rfl rfl, fun sound _ => callable sound⟩
  | received task =>
    cases present : task.run with
    | true =>
      simp only [runStep, present, if_true] at moved
      cases moved
      exact ⟨.executes, .rests rfl rfl, fun _ _ => trivial⟩
    | false =>
      simp only [runStep, present, Bool.false_eq_true, if_false] at moved
      cases moved
      exact ⟨.skips present, .rests rfl rfl, fun _ _ => trivial⟩
  | running task =>
    cases moved
    exact .idle rfl rfl rfl rfl fun _ _ => trivial
  | returned => cases moved

theorem submitStep_taken {task : Task} {pos pos' : SubmitPos}
    (moved : submitStep s task pos = some (s', pos')) :
    Taken s (.submit task pos) s' (.submit task pos') := by
  cases pos with
  | call =>
    simp only [submitStep] at moved
    split_ifs at moved with present
    · cases moved
      exact .idle rfl rfl rfl rfl fun _ _ => present
    · cases moved
      exact .idle rfl rfl rfl rfl fun _ _ => trivial
  | lock =>
    simp only [submitStep, Option.ite_none_right_eq_some] at moved
    obtain ⟨free, same⟩ := moved
    cases same
    exact ⟨.quiet (some .submit) s.once s.stop rfl rfl rfl .inl, .takes free rfl rfl rfl,
      fun _ callable => callable⟩
  | check =>
    simp only [submitStep] at moved
    split_ifs at moved with closed
    · cases moved
      exact .idle rfl rfl rfl rfl fun _ _ => trivial
    · cases moved
      exact .idle rfl rfl rfl rfl fun _ callable => ⟨callable, Bool.eq_false_of_not_eq_true closed⟩
  | send =>
    simp only [submitStep] at moved
    split_ifs at moved with room
    · cases moved
      exact ⟨.sends room, .rests rfl rfl, fun _ _ => trivial⟩
    · cases moved
      exact .idle rfl rfl rfl rfl fun _ _ => trivial
  | unlock answer =>
    cases moved
    refine ⟨.quiet none s.once s.stop rfl ?_ rfl .inl, .releases rfl rfl rfl, fun _ _ => trivial⟩
    cases answer <;> rfl
  | returned answer => cases moved

theorem closeStep_taken {pos pos' : ClosePos} (moved : closeStep s pos = some (s', pos')) :
    Taken s (.close pos) s' (.close pos') := by
  cases pos with
  | call =>
    cases once : s.once with
    | ready =>
      simp only [closeStep, once] at moved
      cases moved
      exact ⟨.quiet s.mutex .busy s.stop rfl rfl rfl nofun, .rests rfl rfl, fun _ _ => trivial⟩
    | busy => simp [closeStep, once] at moved
    | done =>
      simp only [closeStep, once] at moved
      cases moved
      exact .idle rfl rfl rfl rfl fun sound _ => sound.finished once
  | lock =>
    simp only [closeStep, Option.ite_none_right_eq_some] at moved
    obtain ⟨free, same⟩ := moved
    cases same
    exact ⟨.quiet (some .close) s.once s.stop rfl rfl rfl .inl, .takes free rfl rfl rfl,
      fun _ _ => trivial⟩
  | mark =>
    cases moved
    exact ⟨.shuts, .rests rfl rfl, fun _ _ => rfl⟩
  | stop =>
    simp only [closeStep, Option.ite_none_left_eq_some] at moved
    cases moved.2
    exact ⟨.quiet s.mutex s.once true rfl rfl rfl .inl, .rests rfl rfl, fun _ closed => closed⟩
  | drain =>
    cases pending : s.queue with
    | nil =>
      simp only [closeStep, pending] at moved
      cases moved
      exact .idle rfl rfl rfl rfl fun _ closed => ⟨closed, pending⟩
    | cons task rest =>
      simp only [closeStep, pending] at moved
      cases moved
      exact ⟨.receives pending rfl rfl rfl rfl, .rests rfl rfl, fun _ closed => closed⟩
  | received task =>
    cases present : task.cancel with
    | true =>
      simp only [closeStep, present, if_true] at moved
      cases moved
      exact ⟨.cancels present, .rests rfl rfl, fun _ closed => closed⟩
    | false =>
      simp only [closeStep, present, Bool.false_eq_true, if_false] at moved
      cases moved
      exact ⟨.discards present, .rests rfl rfl, fun _ closed => closed⟩
  | cancelling task =>
    cases moved
    exact .idle rfl rfl rfl rfl fun _ closed => closed
  | unlock =>
    cases moved
    exact ⟨.quiet none s.once s.stop rfl rfl rfl .inl, .releases rfl rfl rfl, fun _ sees => sees⟩
  | finish =>
    cases moved
    exact ⟨.quiet s.mutex .done s.stop rfl rfl rfl fun _ => .inr rfl, .rests rfl rfl,
      fun _ sees => sees⟩
  | returned => cases moved

theorem advance_taken {choice : Choice} {t t' : Thread} {spawned : List Thread}
    (moved : advance choice s t = some (s', t', spawned)) : spawned = [] ∧ Taken s t s' t' := by
  cases t with
  | worker pos =>
    obtain ⟨⟨s'', pos'⟩, taken, same⟩ := Option.map_eq_some_iff.mp moved
    cases same
    exact ⟨rfl, runStep_taken taken⟩
  | submit task pos =>
    obtain ⟨⟨s'', pos'⟩, taken, same⟩ := Option.map_eq_some_iff.mp moved
    cases same
    exact ⟨rfl, submitStep_taken taken⟩
  | close pos =>
    obtain ⟨⟨s'', pos'⟩, taken, same⟩ := Option.map_eq_some_iff.mp moved
    cases same
    exact ⟨rfl, closeStep_taken taken⟩

inductive Begun (s : Shared) : Shared → List Thread → Prop
  | submits (callback cancel : Bool) :
      Begun s { s with submissions := s.submissions + 1 }
        [.submit ⟨s.submissions, callback, cancel⟩ .call]
  | closes : Begun s s [.close .call]

theorem occur_begun {call : Call} {spawned : List Thread}
    (happened : occur call s = some (s', spawned)) : Begun s s' spawned := by
  cases call with
  | submit callback =>
    cases happened
    exact .submits callback false
  | submitWithCancel callback cancel =>
    cases happened
    exact .submits callback cancel
  | close =>
    cases happened
    exact .closes

end Inversion

section Closing
variable {s s' : Shared} {t t' u : Thread}

/-- What a thread sees stays while the pool is as closed as it was, or becomes closed
under the mutex, and an empty closed pool stays empty. -/
theorem Thread.Sees.stays (sees : u.Sees s)
    (closed : s'.closed = s.closed ∨ s'.closed = true ∧ u.claim ≠ some .submit)
    (empty : s.closed = true → s.queue = [] → s'.queue = []) : u.Sees s' := by
  have shut : s.closed = true → s'.closed = true := by
    rcases closed with same | ⟨now, _⟩
    · exact same.trans
    · exact fun _ => now
  cases u with
  | worker pos => cases pos <;> exact sees
  | submit task pos =>
    cases pos with
    | send =>
      rcases closed with same | ⟨_, other⟩
      · exact ⟨sees.1, same.trans sees.2⟩
      · exact absurd rfl other
    | call | unlock | returned => trivial
    | lock | check => exact sees
  | close pos =>
    cases pos with
    | call | lock | mark => trivial
    | stop | drain | received | cancelling => exact shut sees
    | unlock | finish | returned => exact ⟨shut sees.1, empty sees.1 sees.2⟩

theorem Effect.undisturbed (effect : Effect s t s' t') (own : t.Sees s)
    (alone : t.claim = some .close → u.claim ≠ some .submit) (sees : u.Sees s) : u.Sees s' := by
  cases effect with
  | quiet | executes | cancels | discards => exact sees.stays (.inl rfl) fun _ empty => empty
  | shuts => exact sees.stays (.inr ⟨rfl, alone rfl⟩) fun _ empty => empty
  | sends room =>
    refine sees.stays (.inl rfl) fun closed _ => ?_
    rw [own.2] at closed
    cases closed
  | receives first =>
    refine sees.stays (.inl rfl) fun _ empty => ?_
    rw [first] at empty
    cases empty
  | skips => exact sees

theorem Taken.sound (taken : Taken s t s' t') (sound : s.Sound) (own : t.Sees s) : s'.Sound := by
  obtain ⟨effect, _, sees⟩ := taken
  have sees := sees sound own
  cases effect with
  | quiet mutex once stop hand sent submission finished =>
    refine ⟨sound.room, sound.callable, fun done => ?_⟩
    rcases finished done with before | rfl
    · exact sound.finished before
    · exact sees
  | shuts => exact ⟨sound.room, sound.callable, fun done => ⟨rfl, (sound.finished done).2⟩⟩
  | sends room =>
    refine ⟨?_, ?_, fun done => ?_⟩
    · rw [List.length_append]
      exact room
    · intro task' member
      rcases List.mem_append.mp member with old | new
      · exact sound.callable task' old
      · rw [List.mem_singleton.mp new]
        exact own.1
    · have closed := (sound.finished done).1
      rw [own.2] at closed
      cases closed
  | receives first =>
    have room := sound.room
    have callable := sound.callable
    rw [first] at room callable
    refine ⟨Nat.le_of_succ_le room, fun task member => ?_, fun done => ?_⟩
    · exact callable task (List.mem_cons_of_mem _ member)
    · have empty := (sound.finished done).2
      rw [first] at empty
      cases empty
  | executes | cancels | discards => exact ⟨sound.room, sound.callable, sound.finished⟩
  | skips => exact sound

theorem Locks.exclusive (locks : Locks s t s' t') {threads : List Thread} {n : Nat}
    (running : threads[n]? = some t) (exclusive : Exclusive Thread.claim s.mutex threads) :
    Exclusive Thread.claim s'.mutex (threads.set n t') := by
  cases locks with
  | rests mutex claim =>
    rw [mutex]
    exact exclusive.rest running claim
  | takes free idle mutex claim =>
    apply exclusive.advance running
    rw [free, idle, mutex, claim]
    exact .takes
  | releases held mutex claim =>
    apply exclusive.advance running
    rw [exclusive.claimed t (List.mem_of_getElem? running) _ held, held, mutex, claim]
    exact .releases

end Closing

structure Closing (c : Config) : Prop where
  exclusive : Exclusive Thread.claim c.shared.mutex c.threads
  sound : c.shared.Sound
  sees : ∀ t ∈ c.threads, t.Sees c.shared

theorem worker_of_start {workers queueSize : Int} {t : Thread}
    (member : t ∈ (newCallbackPool workers queueSize).threads) : t = .worker .select :=
  List.eq_of_mem_replicate member

theorem newCallbackPool_closing (workers queueSize : Int) :
    Closing (newCallbackPool workers queueSize) := by
  refine ⟨?_, ⟨Nat.zero_le _, by simp [newCallbackPool], nofun⟩, fun t member => ?_⟩
  · have idle : Exclusive Thread.claim none ([] : List Thread) := ⟨by simp, rfl⟩
    have fresh : ∀ t ∈ (newCallbackPool workers queueSize).threads, t.claim = none := by
      intro t member
      rw [worker_of_start member]
      rfl
    exact idle.enter fresh
  · rw [worker_of_start member]
    trivial

theorem Closing.moves {c c' : Config} (closing : Closing c) (moves : program.Moves c c') :
    Closing c' := by
  cases moves with
  | stays => exact closing
  | @advances n choice t t' s' spawned running moved =>
    obtain ⟨rfl, taken⟩ := advance_taken moved
    have own := closing.sees t (List.mem_of_getElem? running)
    have sees := taken.sees closing.sound own
    have claimed := closing.exclusive.claimed
    refine ⟨?_, taken.sound closing.sound own, ?_⟩
    · rw [List.append_nil]
      exact taken.locks.exclusive running closing.exclusive
    · refine Interleaving.forall_advance closing.sees (fun m u _ found before => ?_) sees (by simp)
      refine taken.effect.undisturbed own (fun closes submits => ?_) before
      have holder := claimed t (List.mem_of_getElem? running) _ closes
      rw [claimed u (List.mem_of_getElem? found) _ submits] at holder
      cases holder
  | occurs happened =>
    cases occur_begun happened with
    | submits callback cancel =>
      refine ⟨closing.exclusive.enter (by simp [Thread.claim]), ⟨closing.sound.room,
        closing.sound.callable, closing.sound.finished⟩, fun t member => ?_⟩
      rcases List.mem_append.mp member with old | new
      · exact (closing.sees t old).stays (.inl rfl) fun _ empty => empty
      · rw [List.mem_singleton.mp new]
        trivial
    | closes =>
      refine ⟨closing.exclusive.enter (by simp [Thread.claim]), closing.sound, fun t member => ?_⟩
      rcases List.mem_append.mp member with old | new
      · exact closing.sees t old
      · rw [List.mem_singleton.mp new]
        trivial

end Telekit.CallbackPool
