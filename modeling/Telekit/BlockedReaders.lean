import Telekit.Library.Condvar
import Telekit.Library.Interleaving
import Telekit.RecvBuffer

/-! Blocked reads of one receive buffer. Every method holds the mutex of the condition
variable from its first line to its return, or to `cond.Wait`, so that this is one step;
a woken `Read` takes the mutex again and evaluates its loop once more. `Write` wakes one
sleeper, `Reset`, `SetDeadline`, `Close` and the timer of a deadline wake all of them.

A `Read` that returns wakes nobody, whatever it leaves in the buffer. -/

namespace Telekit.BlockedReaders
open Interleaving

structure Shared where
  buffer : RecvBuffer
  budget : Option ByteBudget
  cond : Condvar.Queue

/-- A call of a method. `reading` and the others have not taken the mutex yet; `waiting` is
in `cond.Wait` with its ticket and whether its timer runs; `alarm` is the function of a
timer that has fired. -/
inductive Thread
  | finished
  | reading (size : Nat)
  | waiting (size ticket : Nat) (timer : Bool)
  | writing (data : Bytes)
  | resetting
  | settingDeadline (deadline : Option Int)
  | closing
  | alarm
  deriving DecidableEq

structure Choice where
  now : Int := 0
  pick : Nat := 0
  fires : Bool := false

inductive Call
  | read (size : Nat)
  | write (data : Bytes)
  | reset
  | setDeadline (deadline : Option Int)
  | close
  | share (budget : Option ByteBudget)

def evaluate (s : Shared) (size : Nat) (now : Int) : Shared × Thread :=
  match s.buffer.read s.budget size now with
  | some (_, buffer, budget) => ({ s with buffer := buffer, budget := budget }, .finished)
  | none =>
    ({ s with cond := s.cond.wait }, .waiting size s.cond.next s.buffer.deadline.isSome)

def discard (s : Shared) (emptied : RecvBuffer × Option ByteBudget) : Shared :=
  if s.buffer.closed then s else ⟨emptied.1, emptied.2, s.cond.broadcast⟩

def advance (choice : Choice) (s : Shared) : Thread → Option (Shared × Thread × List Thread)
  | .finished => none
  | .reading size =>
    some ((evaluate s size choice.now).1, (evaluate s size choice.now).2, [])
  | .waiting size ticket timer =>
    if choice.fires ∧ timer then some (s, .waiting size ticket false, [.alarm])
    else if ticket ∈ s.cond.asleep then none
    else some ((evaluate s size choice.now).1, (evaluate s size choice.now).2, [])
  | .writing data =>
    match s.buffer.write s.budget data with
    | (.ok _, buffer, budget) => some (⟨buffer, budget, s.cond.signal choice.pick⟩, .finished, [])
    | (.error _, buffer, budget) =>
      some ({ s with buffer := buffer, budget := budget }, .finished, [])
  | .resetting => some (discard s (s.buffer.reset s.budget), .finished, [])
  | .settingDeadline deadline =>
    some (⟨s.buffer.setDeadline deadline, s.budget, s.cond.broadcast⟩, .finished, [])
  | .closing => some (discard s (s.buffer.close s.budget), .finished, [])
  | .alarm => some ({ s with cond := s.cond.broadcast }, .finished, [])

def occur (s : Shared) : Call → Option (Shared × List Thread)
  | .read size => some (s, [.reading size])
  | .write data => some (s, [.writing data])
  | .reset => some (s, [.resetting])
  | .setDeadline deadline => some (s, [.settingDeadline deadline])
  | .close => some (s, [.closing])
  | .share budget => some ({ s with budget := budget }, [])

def program : Program Shared Thread Choice Call := ⟨advance, fun call s => occur s call⟩

def start (limit : Int) (budget : Option ByteBudget) : Config Shared Thread :=
  ⟨⟨RecvBuffer.newWithLimit limit, budget, .empty⟩, []⟩

/-- A `Read` or `Write` that goes on by itself, or a timer that has fired: the wake-ups
that are under way. -/
def Thread.active (s : Shared) : Thread → Bool
  | .reading _ | .writing _ | .alarm => true
  | .waiting _ ticket _ => decide (ticket ∉ s.cond.asleep)
  | _ => false

def Thread.sleeps (s : Shared) : Thread → Bool
  | .waiting _ ticket _ => decide (ticket ∈ s.cond.asleep)
  | _ => false

def stranded (c : Config Shared Thread) : Bool :=
  !c.shared.buffer.buf.isEmpty && c.threads.any (·.sleeps c.shared) &&
    c.threads.all fun t => !t.active c.shared

/-- The step ends a call that leaves data behind and wakes nobody: a `Read` into a slice
shorter than the data, or a refused `Write`. -/
def Thread.leaves (s : Shared) (choice : Choice) : Thread → Bool
  | .reading size => decide (size < s.buffer.buf.length)
  | .waiting size ticket timer =>
    !(choice.fires && timer) && decide (ticket ∉ s.cond.asleep) &&
      decide (size < s.buffer.buf.length)
  | .writing data => !(s.buffer.write s.budget data).1.isOk && !s.buffer.buf.isEmpty
  | _ => false

abbrev Action := Interleaving.Action Choice Call

/-- A call that leaves data behind while a `Read` sleeps is not the last one under way. -/
def handsOver (c : Config Shared Thread) : Action → Bool
  | .advance n choice =>
    (c.threads[n]?).all fun t => !t.leaves c.shared choice || c.shared.cond.asleep.isEmpty ||
      (c.threads.eraseIdx n).any (·.active c.shared)
  | .event _ => true

def Thread.ticket : Thread → Option Nat
  | .waiting _ ticket _ => some ticket
  | _ => none

inductive Step (s : Shared) (t : Thread) : Bool → Shared → Thread → List Thread → Prop
  | sleeps {size : Nat} {timer : Bool} (empty : s.buffer.buf = [])
      (awake : ∀ k, t.ticket = some k → k ∉ s.cond.asleep) :
      Step s t false { s with cond := s.cond.wait } (.waiting size s.cond.next timer) []
  | ends {left : Bool} {buffer : RecvBuffer} {budget : Option ByteBudget}
      (rest : left = true ↔ buffer.buf ≠ []) (bounded : buffer.Bounded)
      (awake : ∀ k, t.ticket = some k → k ∉ s.cond.asleep) :
      Step s t left { s with buffer := buffer, budget := budget } .finished []
  | fires {size ticket : Nat} (own : t = .waiting size ticket true) :
      Step s t false s (.waiting size ticket false) [.alarm]
  | signals {pick : Nat} {buffer : RecvBuffer} {budget : Option ByteBudget}
      (bounded : buffer.Bounded) (awake : t.ticket = none) :
      Step s t false ⟨buffer, budget, s.cond.signal pick⟩ .finished []
  | broadcasts {buffer : RecvBuffer} {budget : Option ByteBudget} (bounded : buffer.Bounded) :
      Step s t false ⟨buffer, budget, s.cond.broadcast⟩ .finished []

section Refinement
variable {s s' : Shared} {t t' : Thread} {spawned : List Thread} {choice : Choice}

theorem evaluate_step (bounded : s.buffer.Bounded) (size : Nat) (now : Int)
    (awake : ∀ k, t.ticket = some k → k ∉ s.cond.asleep) :
    Step s t (decide (size < s.buffer.buf.length)) (evaluate s size now).1
      (evaluate s size now).2 [] := by
  unfold evaluate
  split
  next result buffer budget done =>
    refine .ends ?_ ((RecvBuffer.read_drain done).bounded bounded) awake
    rw [RecvBuffer.read_rest done, decide_eq_true_eq, ne_eq, List.drop_eq_nil_iff, Nat.not_le]
  next waits =>
    have empty := RecvBuffer.read_none waits
    simp only [empty, List.length_nil, Nat.not_lt_zero, decide_false]
    exact .sleeps empty awake

theorem discard_step (bounded : s.buffer.Bounded) {emptied : RecvBuffer × Option ByteBudget}
    (kept : emptied.1.Bounded) (free : t.ticket = none) :
    Step s t false (discard s emptied) .finished [] := by
  unfold discard
  split_ifs with closed
  · refine .ends (by simp [bounded.drained closed]) bounded (by simp [free])
  · exact .broadcasts kept

theorem advance_step (bounded : s.buffer.Bounded)
    (moved : advance choice s t = some (s', t', spawned)) :
    Step s t (t.leaves s choice) s' t' spawned := by
  cases t with
  | finished => cases moved
  | reading size =>
    cases moved
    exact evaluate_step bounded size choice.now (by simp [Thread.ticket])
  | waiting size ticket timer =>
    simp only [advance] at moved
    split_ifs at moved with fired asleep
    · cases moved
      obtain ⟨fires, rfl⟩ := fired
      simp only [Thread.leaves, fires, Bool.and_self, Bool.not_true, Bool.false_and]
      exact .fires rfl
    · cases moved
      have stays : (choice.fires && timer) = false := by simpa using fired
      simp only [Thread.leaves, stays, asleep, Bool.not_false, not_false_eq_true, decide_true,
        Bool.and_self, Bool.true_and]
      exact evaluate_step bounded size choice.now (by simpa [Thread.ticket] using asleep)
  | writing data =>
    simp only [advance] at moved
    split at moved <;> cases moved
    next ok =>
      simp only [Thread.leaves, ok, Except.isOk, Except.toBool, Bool.not_true, Bool.false_and]
      exact .signals (RecvBuffer.write_bounded bounded ok) rfl
    next refused =>
      obtain ⟨rfl, rfl⟩ := RecvBuffer.write_error refused
      refine .ends ?_ bounded (by simp [Thread.ticket])
      simp [Thread.leaves, refused, Except.isOk, Except.toBool]
  | resetting =>
    cases moved
    exact discard_step bounded ((RecvBuffer.reset_drain _ _).bounded bounded) rfl
  | settingDeadline deadline =>
    cases moved
    exact .broadcasts ⟨bounded.fits, bounded.drained⟩
  | closing =>
    cases moved
    exact discard_step bounded ((RecvBuffer.close_drain _ _).bounded bounded) rfl
  | alarm =>
    cases moved
    exact .broadcasts bounded

end Refinement

structure Sound (c : Config Shared Thread) : Prop where
  bounded : c.shared.buffer.Bounded
  held : ∀ k ∈ c.shared.cond.asleep, ∃ t ∈ c.threads, t.ticket = some k

def Served (c : Config Shared Thread) : Prop :=
  c.shared.buffer.buf ≠ [] → c.shared.cond.asleep ≠ [] →
    ∃ t ∈ c.threads, t.active c.shared = true

section Steps
variable {c : Config Shared Thread} {n : Nat} {t t' : Thread} {left : Bool} {s' : Shared}
  {spawned : List Thread}

theorem ticket_waiting {k : Nat} (own : t.ticket = some k) :
    ∃ size timer, t = .waiting size k timer := by
  cases t with
  | waiting size ticket timer =>
    cases own
    exact ⟨size, timer, rfl⟩
  | _ => cases own

theorem Sound.sleepers_iff (sound : Sound c) :
    c.threads.any (·.sleeps c.shared) = true ↔ c.shared.cond.asleep ≠ [] := by
  rw [List.any_eq_true]
  constructor
  · rintro ⟨t, _, sleeps⟩
    cases t with
    | waiting size ticket timer =>
      rw [Thread.sleeps, decide_eq_true_eq] at sleeps
      exact List.ne_nil_of_mem sleeps
    | _ => cases sleeps
  · intro sleepers
    obtain ⟨k, asleep⟩ := List.exists_mem_of_ne_nil _ sleepers
    obtain ⟨t, member, own⟩ := sound.held k asleep
    obtain ⟨size, timer, rfl⟩ := ticket_waiting own
    exact ⟨_, member, by simpa [Thread.sleeps] using asleep⟩

theorem Sound.stranded_iff (sound : Sound c) : stranded c = false ↔ Served c := by
  rw [← Bool.not_eq_true, stranded, Bool.and_eq_true, Bool.and_eq_true, sound.sleepers_iff, Served]
  simp only [List.all_eq_true, Bool.not_eq_true', List.isEmpty_eq_false_iff, not_and, not_forall,
    Bool.not_eq_false, and_imp, exists_prop]

theorem Sound.step (sound : Sound c) (running : c.threads[n]? = some t)
    (step : Step c.shared t left s' t' spawned) :
    Sound ⟨s', c.threads.set n t' ++ spawned⟩ := by
  -- A ticket stays with its call, which cannot move before it is woken.
  have kept (k : Nat) (asleep : k ∈ c.shared.cond.asleep)
      (goes : t.ticket = some k → t'.ticket = some k) :
      ∃ u ∈ c.threads.set n t' ++ spawned, u.ticket = some k :=
    exists_advance running goes spawned (sound.held k asleep)
  cases step with
  | sleeps empty awake =>
    refine ⟨sound.bounded, fun k asleep => ?_⟩
    rcases (Condvar.Queue.mem_wait _).mp asleep with old | rfl
    · exact kept k old fun own => absurd old (awake k own)
    · exact exists_own (p := fun u => Thread.ticket u = some c.shared.cond.next) running rfl []
  | ends rest bounded awake =>
    exact ⟨bounded, fun k asleep => kept k asleep fun own => absurd asleep (awake k own)⟩
  | fires own =>
    refine ⟨sound.bounded, fun k asleep => kept k asleep ?_⟩
    rw [own]
    exact id
  | signals bounded awake =>
    refine ⟨bounded, fun k asleep => kept k (Condvar.Queue.mem_of_mem_signal _ asleep) ?_⟩
    rw [awake]
    exact nofun
  | broadcasts bounded => exact ⟨bounded, by simp⟩

theorem Sound.served_iff (sound : Sound c) (running : c.threads[n]? = some t)
    (step : Step c.shared t left s' t' spawned) :
    Served ⟨s', c.threads.set n t' ++ spawned⟩ ↔
      (left = true → c.shared.cond.asleep ≠ [] →
        ∃ u ∈ c.threads.eraseIdx n, u.active c.shared = true) := by
  cases step with
  | sleeps empty awake => simp [Served, empty]
  | ends rest bounded awake =>
    have others : (∃ u ∈ c.threads.set n .finished ++ [], u.active c.shared = true) ↔
        ∃ u ∈ c.threads.eraseIdx n, u.active c.shared = true :=
      exists_others (by simp [Thread.active])
    rw [rest, ← others]
    rfl
  | fires own =>
    exact iff_of_true (fun _ _ => ⟨.alarm, by simp, rfl⟩) (by simp)
  | @signals pick buffer budget bounded awake =>
    refine iff_of_true (fun _ sleepers => ?_) (by simp)
    have before : c.shared.cond.asleep ≠ [] := by
      rintro none
      obtain ⟨k, member⟩ := List.exists_mem_of_ne_nil _ sleepers
      have old := Condvar.Queue.mem_of_mem_signal _ member
      rw [none] at old
      cases old
    obtain ⟨k, asleep, woken⟩ := c.shared.cond.signal_wakes pick before
    have other : t.ticket = some k → Thread.finished.ticket = some k := by
      rw [awake]
      exact nofun
    obtain ⟨u, member, own⟩ := exists_advance running other [] (sound.held k asleep)
    obtain ⟨size, timer, rfl⟩ := ticket_waiting own
    exact ⟨_, member, by simpa [Thread.active] using woken⟩
  | broadcasts bounded => simp [Served]

theorem stuck_leaves {s : Shared} {choice : Choice} (stuck : advance choice s t = none) :
    t.leaves s choice = false := by
  cases t with
  | finished => rfl
  | waiting size ticket timer =>
    simp only [advance] at stuck
    split_ifs at stuck with fired asleep
    simp [Thread.leaves, asleep]
  | writing data =>
    simp only [advance] at stuck
    split at stuck <;> cases stuck
  | reading | resetting | settingDeadline | closing | alarm => cases stuck

theorem occur_keeps {s s' : Shared} {call : Call} (happened : occur s call = some (s', spawned)) :
    s'.buffer = s.buffer ∧ s'.cond = s.cond := by
  cases call <;> cases happened <;> exact ⟨rfl, rfl⟩

theorem active_congr {s s' : Shared} (same : s'.cond = s.cond) (t : Thread) :
    t.active s' = t.active s := by
  cases t with
  | waiting => simp only [Thread.active, same]
  | _ => rfl

theorem Sound.takes (sound : Sound c) {a : Action} {c' : Config Shared Thread}
    (taken : program.Takes c a c') : Sound c' := by
  cases taken with
  | stays => exact sound
  | advances running moved => exact sound.step running (advance_step sound.bounded moved)
  | occurs happened =>
    obtain ⟨buffer, cond⟩ := occur_keeps happened
    refine ⟨by rw [buffer]; exact sound.bounded, fun k asleep => ?_⟩
    obtain ⟨t, member, own⟩ := sound.held k (by rwa [cond] at asleep)
    exact ⟨t, List.mem_append_left _ member, own⟩

theorem Served.occurs {call : Call} (served : Served c)
    (happened : occur c.shared call = some (s', spawned)) : Served ⟨s', c.threads ++ spawned⟩ := by
  obtain ⟨buffer, cond⟩ := occur_keeps happened
  intro data sleepers
  rw [buffer] at data
  rw [cond] at sleepers
  obtain ⟨t, member, active⟩ := served data sleepers
  exact ⟨t, List.mem_append_left _ member, by rw [active_congr cond, active]⟩

theorem Served.step_iff (served : Served c) (sound : Sound c) (a : Action) :
    Served (program.step c a) ↔ handsOver c a = true := by
  cases a with
  | advance n choice =>
    simp only [Program.step, handsOver]
    cases running : c.threads[n]? with
    | none => simpa using served
    | some t =>
      cases moved : program.advance choice c.shared t with
      | none =>
        have stuck : advance choice c.shared t = none := moved
        simpa [moved, stuck_leaves stuck] using served
      | some next =>
        obtain ⟨s', t', spawned⟩ := next
        simp only [moved]
        rw [sound.served_iff running (advance_step sound.bounded moved)]
        simp only [Option.all_some, Bool.or_eq_true, Bool.not_eq_true', List.isEmpty_iff,
          List.any_eq_true, or_iff_not_imp_left, Bool.not_eq_false, ne_eq, Classical.not_imp, and_imp]
  | event call =>
    simp only [Program.step, handsOver]
    split
    · simpa using served
    next happened => exact iff_of_true (served.occurs happened) trivial

theorem Sound.start (limit : Int) (budget : Option ByteBudget) : Sound (start limit budget) :=
  ⟨RecvBuffer.newWithLimit_bounded limit, by simp [BlockedReaders.start, Condvar.Queue.empty]⟩

end Steps

/-- No state of a run has a stranded reader exactly if no call that leaves data behind
while a `Read` sleeps is the last one under way. -/
theorem no_reader_stranded_iff (limit : Int) (budget : Option ByteBudget)
    (actions : List Action) :
    (∀ first later, actions = first ++ later →
      stranded (program.run (start limit budget) first) = false) ↔
    program.along handsOver (start limit budget) actions = true := by
  have sound (first : List Action) : Sound (program.run (start limit budget) first) :=
    program.run_takes_keeps Sound (fun _ _ _ sound => sound.takes) (.start limit budget) first
  simp only [(sound _).stranded_iff]
  refine program.along_iff (fun c a sound => sound.takes (program.step_takes c a))
    (fun c a sound served => served.step_iff sound a) (.start limit budget) ?_ actions
  exact fun data => absurd rfl data

namespace Sample

def goes (n : Nat) : Action := .advance n {}

def written (size : Nat) : List Action :=
  [.event (.read size), .event (.read size), goes 0, goes 1, .event (.write [97, 98]), goes 2]

end Sample

open Sample in
example : program.along handsOver (start 0 none) (written 2 ++ [goes 0, goes 1]) = true := by decide

open Sample in
/-- With slices of one byte the woken `Read` takes the first byte and returns. The second
byte stays, the other `Read` sleeps, and no call is left that would wake it. -/
theorem second_reader_stranded :
    let c := program.run (start 0 none) (written 1 ++ [goes 0])
    stranded c = true ∧ c.shared.buffer.buf = [98] ∧ c.shared.cond.asleep = [1] ∧
      c.threads = [.finished, .waiting 1 1 false, .finished] := by
  decide

end Telekit.BlockedReaders
