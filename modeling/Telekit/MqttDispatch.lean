import Telekit.MqttGroups

/-! The dispatch queue of the MQTT adapter: `enqueueDispatch` and `drainDispatchQueue` of
`signaling/mqtt/utils.go`, over the adapter whose handlers come and go meanwhile. What a
function does under the mutex is one step, and so is the call of a handler, which
returns; whatever else it does is a step of another thread. A thread of the adapter
goes on as before.

What was accepted, what was dispatched with the handlers it was dispatched to, and the
calls of handlers are recorded and never read. -/

namespace Telekit.Mqtt.Dispatch

open Interleaving (Exclusive getElem?_own)
open Interleaving.Program (Leads)

def defaultDispatchQueueMessages : Int := 1024
def defaultDispatchQueueBytes : Int := 16 * 2 ^ 20

structure Limits where
  dispatchQueueMessages : Int := defaultDispatchQueueMessages
  dispatchQueueBytes : Int := defaultDispatchQueueBytes

namespace Limits

def maxMessages (limits : Limits) : Int :=
  if limits.dispatchQueueMessages ≤ 0 then defaultDispatchQueueMessages
  else limits.dispatchQueueMessages

def maxBytes (limits : Limits) : Int :=
  if limits.dispatchQueueBytes ≤ 0 then defaultDispatchQueueBytes else limits.dispatchQueueBytes

theorem positive (limits : Limits) : 0 < limits.maxMessages ∧ 0 < limits.maxBytes := by
  unfold maxMessages maxBytes
  constructor
  · split_ifs with unset
    · decide
    · omega
  · split_ifs with unset
    · decide
    · omega

end Limits

structure Message where
  topic : GoString
  payload : Bytes
  deriving DecidableEq

def Message.size (m : Message) : Int := m.payload.length

structure Shared where
  adapter : Mqtt.Shared := {}
  dispatchQueue : List Message := []
  dispatchBytes : Int := 0
  dispatching : Bool := false
  accepted : List Message := []
  dispatched : List (Message × List Nat) := []
  delivered : List (Message × Nat) := []

def registered (s : Mqtt.Shared) (topic : GoString) : List Nat :=
  match s.subs topic with
  | none => []
  | some g => (s.groups[g]?.map fun group => group.handlers).getD []

structure Choice where
  native : Mqtt.Choice := {}
  order : List Nat := []

def snapshot (s : Mqtt.Shared) (topic : GoString) (order : List Nat) : List Nat :=
  if order.isPerm (registered s topic) then order else registered s topic

/-- Positions of `enqueueDispatch`: the section under the mutex, the overflow handler,
and the start of a drainer. -/
inductive EnqueuePos
  | lock
  | overflow
  | launch
  | done
  deriving DecidableEq

inductive DrainPos
  | lock
  | handle (m : Message) (rest : List Nat)
  | done

def Shared.accept (s : Shared) (m : Message) : Shared := { s with
  dispatchQueue := s.dispatchQueue ++ [m]
  dispatchBytes := s.dispatchBytes + m.size
  accepted := s.accepted ++ [m] }

def Shared.dispatch (s : Shared) (m : Message) (queue : List Message) (handlers : List Nat) :
    Shared := { s with
  dispatchQueue := queue
  dispatchBytes := s.dispatchBytes - m.size
  dispatched := s.dispatched ++ [(m, handlers)] }

def enqueueDispatch (limits : Limits) (s : Shared) (m : Message) : Shared × EnqueuePos :=
  if s.dispatchQueue.length ≥ limits.maxMessages ∨ m.size > limits.maxBytes - s.dispatchBytes then
    (s, .overflow)
  else
    let s := s.accept m
    if s.dispatching then (s, .done) else ({ s with dispatching := true }, .launch)

def drainDispatchQueue (s : Shared) (order : List Nat) : Shared × DrainPos :=
  match s.dispatchQueue with
  | [] => ({ s with dispatching := false }, .done)
  | m :: queue =>
    let handlers := snapshot s.adapter m.topic order
    (s.dispatch m queue handlers, .handle m handlers)

inductive Thread
  | adapter (thread : Mqtt.Thread)
  | enqueue (m : Message) (pos : EnqueuePos)
  | drain (pos : DrainPos)

def drainStep (order : List Nat) (s : Shared) : DrainPos → Option (Shared × DrainPos)
  | .lock => some (drainDispatchQueue s order)
  | .handle _ [] => some (s, .lock)
  | .handle m (h :: rest) => some ({ s with delivered := s.delivered ++ [(m, h)] }, .handle m rest)
  | .done => none

def advance (limits : Limits) (choice : Choice) (s : Shared) :
    Thread → Option (Shared × Thread × List Thread)
  | .adapter thread =>
    (Mqtt.advance choice.native s.adapter thread).map fun (adapter, thread, started) =>
      ({ s with adapter := adapter }, .adapter thread, started.map Thread.adapter)
  | .enqueue m .lock =>
    let (s, pos) := enqueueDispatch limits s m
    some (s, .enqueue m pos, [])
  | .enqueue m .overflow => some (s, .enqueue m .done, [])
  | .enqueue m .launch => some (s, .enqueue m .done, [.drain .lock])
  | .enqueue _ .done => none
  | .drain pos => (drainStep choice.order s pos).map fun (s, pos) => (s, .drain pos, [])

inductive Call
  | adapter (call : Mqtt.Call)
  | deliver (m : Message)

def occur (baseTopic : GoString) (call : Call) (s : Shared) : Option (Shared × List Thread) :=
  match call with
  | .adapter call =>
    (Mqtt.occur baseTopic call s.adapter).map fun (adapter, started) =>
      ({ s with adapter := adapter }, started.map Thread.adapter)
  | .deliver m => some (s, [.enqueue m .lock])

abbrev Config := Interleaving.Config Shared Thread
abbrev Action := Interleaving.Action Choice Call

def program (limits : Limits) (baseTopic : GoString) :
    Interleaving.Program Shared Thread Choice Call where
  advance := advance limits
  event := occur baseTopic

def run (limits : Limits) (baseTopic : GoString) (isOpen : Bool) (actions : List Action) : Config :=
  (program limits baseTopic).run ⟨{ adapter := { isOpen := isOpen } }, []⟩ actions

namespace Shared

def due (s : Shared) : List (Message × Nat) :=
  s.dispatched.flatMap fun d => d.2.map fun h => (d.1, h)

/-- `dispatching` as a mutex: its holder has the missing calls to make. -/
def outstanding (s : Shared) : Option (List (Message × Nat)) :=
  if s.dispatching then some (s.due.drop s.delivered.length) else none

def queued (s : Shared) : Int := Ledger.total Message.size s.dispatchQueue

structure Sound (limits : Limits) (s : Shared) : Prop where
  bytes : s.dispatchBytes = s.queued
  fewMessages : s.dispatchQueue.length ≤ limits.maxMessages
  fewBytes : s.dispatchBytes ≤ limits.maxBytes
  ordered : s.dispatched.map Prod.fst ++ s.dispatchQueue = s.accepted
  called : s.delivered <+: s.due
  idle : s.dispatching = false → s.dispatchQueue = [] ∧ s.delivered = s.due

theorem Sound.start (limits : Limits) (adapter : Mqtt.Shared) : Sound limits { adapter } := by
  have positive := limits.positive
  refine ⟨rfl, ?_, ?_, rfl, List.prefix_refl _, fun _ => ⟨rfl, rfl⟩⟩
  · exact Int.le_of_lt positive.1
  · exact Int.le_of_lt positive.2

theorem Sound.adapter {limits : Limits} {s : Shared} (sound : s.Sound limits)
    (adapter : Mqtt.Shared) : Sound limits { s with adapter := adapter } :=
  ⟨sound.bytes, sound.fewMessages, sound.fewBytes, sound.ordered, sound.called, sound.idle⟩

end Shared

def claim : Thread → Option (List (Message × Nat))
  | .enqueue _ .launch => some []
  | .drain .lock => some []
  | .drain (.handle m rest) => some (rest.map fun h => (m, h))
  | _ => none

section Enqueue
variable {limits : Limits} {s : Shared} {m : Message}

/-- A message is dropped only when a limit would be exceeded, and then nothing changes. -/
theorem enqueueDispatch_cases (limits : Limits) (s : Shared) (m : Message) :
    ((s.dispatchQueue.length ≥ limits.maxMessages ∨ s.dispatchBytes + m.size > limits.maxBytes) ∧
      enqueueDispatch limits s m = (s, .overflow)) ∨
    (s.dispatchQueue.length < limits.maxMessages ∧ s.dispatchBytes + m.size ≤ limits.maxBytes ∧
      enqueueDispatch limits s m =
        ({ s.accept m with dispatching := true }, if s.dispatching then .done else .launch)) := by
  by_cases full : s.dispatchQueue.length ≥ limits.maxMessages ∨
      m.size > limits.maxBytes - s.dispatchBytes
  · exact .inl ⟨by omega, by rw [enqueueDispatch, if_pos full]⟩
  · refine .inr ⟨by omega, by omega, ?_⟩
    rw [enqueueDispatch, if_neg full]
    cases busy : s.dispatching <;> simp [Shared.accept, busy]

theorem Shared.Sound.accept (sound : s.Sound limits)
    (room : s.dispatchQueue.length < limits.maxMessages)
    (bytes : s.dispatchBytes + m.size ≤ limits.maxBytes) :
    Shared.Sound limits { s.accept m with dispatching := true } := by
  have same := sound.bytes
  refine ⟨?_, ?_, bytes, ?_, sound.called, fun idle => nomatch idle⟩
  · simp only [Shared.accept, Shared.queued, Ledger.total_append, Ledger.total_cons,
      Ledger.total_nil] at same ⊢
    omega
  · simp only [Shared.accept, List.length_append, List.length_singleton]
    omega
  · simp only [Shared.accept]
    rw [← List.append_assoc, sound.ordered]

end Enqueue

section Drain
variable {limits : Limits} {s : Shared}

theorem drainDispatchQueue_nil (empty : s.dispatchQueue = []) (order : List Nat) :
    drainDispatchQueue s order = ({ s with dispatching := false }, .done) := by
  simp only [drainDispatchQueue, empty]

theorem drainDispatchQueue_cons {m : Message} {queue : List Message}
    (waiting : s.dispatchQueue = m :: queue) (order : List Nat) :
    drainDispatchQueue s order = (s.dispatch m queue (snapshot s.adapter m.topic order),
      .handle m (snapshot s.adapter m.topic order)) := by
  simp only [drainDispatchQueue, waiting]

theorem Shared.Sound.dispatch (sound : s.Sound limits) {m : Message} {queue : List Message}
    (waiting : s.dispatchQueue = m :: queue) (busy : s.dispatching = true) (handlers : List Nat) :
    (s.dispatch m queue handlers).Sound limits := by
  have same := sound.bytes
  have size : 0 ≤ m.size := Int.natCast_nonneg _
  have few := sound.fewMessages
  have small := sound.fewBytes
  rw [waiting, List.length_cons] at few
  refine ⟨?_, ?_, ?_, ?_, ?_, ?_⟩
  · simp only [Shared.dispatch, Shared.queued, waiting, Ledger.total_cons] at same ⊢
    omega
  · simp only [Shared.dispatch]
    omega
  · simp only [Shared.dispatch]
    omega
  · simp [Shared.dispatch, ← sound.ordered, waiting]
  · refine sound.called.trans ?_
    simp [Shared.due, Shared.dispatch]
  · intro idle
    cases busy.symm.trans idle

theorem Shared.Sound.deliver (sound : s.Sound limits) {call : Message × Nat}
    {rest : List (Message × Nat)} (missing : s.due.drop s.delivered.length = call :: rest)
    (busy : s.dispatching = true) :
    Shared.Sound limits { s with delivered := s.delivered ++ [call] } := by
  have whole : s.delivered ++ call :: rest = s.due := by
    rw [← missing]
    obtain ⟨tail, split⟩ := sound.called
    rw [← split, List.drop_left]
  refine ⟨sound.bytes, sound.fewMessages, sound.fewBytes, sound.ordered, ⟨rest, ?_⟩, ?_⟩
  · rw [List.append_assoc]
    exact whole
  · intro idle
    cases busy.symm.trans idle

end Drain

theorem Shared.outstanding_some {s : Shared} {calls : List (Message × Nat)} :
    s.outstanding = some calls ↔
      s.dispatching = true ∧ s.due.drop s.delivered.length = calls := by
  unfold Shared.outstanding
  split_ifs with busy <;> simp [busy]

variable {limits : Limits}

theorem Shared.Sound.complete {s : Shared} (sound : s.Sound limits)
    (none_missing : s.due.drop s.delivered.length = []) : s.delivered = s.due := by
  obtain ⟨tail, split⟩ := sound.called
  rw [← split, List.drop_left] at none_missing
  rw [← split, none_missing, List.append_nil]

structure Invariant (limits : Limits) (c : Config) : Prop where
  sound : c.shared.Sound limits
  exclusive : Exclusive claim c.shared.outstanding c.threads

namespace Invariant
variable {limits : Limits} {s s' : Shared} {threads : List Thread} {n : Nat}

theorem rest (inv : Invariant limits ⟨s, threads⟩) {t t' : Thread}
    (running : threads[n]? = some t) (sound : s'.Sound limits)
    (same : s'.outstanding = s.outstanding) (claims : claim t' = claim t) :
    Invariant limits ⟨s', threads.set n t' ++ []⟩ := by
  refine ⟨sound, ?_⟩
  rw [List.append_nil]
  have exclusive := inv.exclusive.rest running claims
  exact same ▸ exclusive

theorem adapter (inv : Invariant limits ⟨s, threads⟩) {thread thread' : Mqtt.Thread}
    (running : threads[n]? = some (.adapter thread)) (state : Mqtt.Shared)
    (started : List Mqtt.Thread) :
    Invariant limits ⟨{ s with adapter := state },
      threads.set n (.adapter thread') ++ started.map Thread.adapter⟩ := by
  refine ⟨inv.sound.adapter state, ?_⟩
  have exclusive : Exclusive claim s.outstanding (threads.set n (.adapter thread')) :=
    inv.exclusive.rest running rfl
  refine exclusive.enter fun t member => ?_
  obtain ⟨_, _, rfl⟩ := List.mem_map.mp member
  rfl

theorem enqueue (inv : Invariant limits ⟨s, threads⟩) {m : Message}
    (running : threads[n]? = some (.enqueue m .lock)) :
    Invariant limits ⟨(enqueueDispatch limits s m).1,
      threads.set n (.enqueue m (enqueueDispatch limits s m).2) ++ []⟩ := by
  rcases enqueueDispatch_cases limits s m with ⟨_, dropped⟩ | ⟨room, bytes, accepted⟩
  · rw [dropped]
    exact inv.rest running inv.sound rfl rfl
  · rw [accepted]
    have sound := inv.sound.accept room bytes
    cases busy : s.dispatching with
    | true =>
      refine inv.rest running sound ?_ rfl
      simp [Shared.outstanding, Shared.due, Shared.accept, busy]
    | false =>
      have made := (inv.sound.idle busy).2
      refine ⟨sound, ?_⟩
      rw [List.append_nil]
      refine inv.exclusive.advance running ?_
      have free : s.outstanding = none := by simp [Shared.outstanding, busy]
      simp only [free, claim]
      have taken : Shared.outstanding { s.accept m with dispatching := true } = some [] := by
        rw [Shared.outstanding_some]
        refine ⟨rfl, ?_⟩
        simp only [Shared.due, Shared.accept] at made ⊢
        rw [made, List.drop_length]
      rw [taken]
      exact .takes

theorem launch (inv : Invariant limits ⟨s, threads⟩) {m : Message}
    (running : threads[n]? = some (.enqueue m .launch)) :
    Invariant limits ⟨s, threads.set n (.enqueue m .done) ++ [.drain .lock]⟩ := by
  have task := inv.exclusive.claimed _ (List.mem_of_getElem? running) [] rfl
  refine ⟨inv.sound, ?_⟩
  have exclusive := inv.exclusive
  rw [task] at exclusive ⊢
  exact exclusive.handOff running rfl rfl rfl

theorem drain (inv : Invariant limits ⟨s, threads⟩) {pos pos' : DrainPos} {order : List Nat}
    (running : threads[n]? = some (.drain pos))
    (moved : drainStep order s pos = some (s', pos')) :
    Invariant limits ⟨s', threads.set n (.drain pos') ++ []⟩ := by
  have exclusive := inv.exclusive
  have claimed := exclusive.claimed _ (List.mem_of_getElem? running)
  cases pos with
  | done => cases moved
  | lock =>
    have task := claimed [] rfl
    obtain ⟨busy, none_missing⟩ := Shared.outstanding_some.mp task
    have made := inv.sound.complete none_missing
    rw [drainStep, Option.some.injEq] at moved
    cases waiting : s.dispatchQueue with
    | nil =>
      rw [drainDispatchQueue_nil waiting] at moved
      cases moved
      refine ⟨⟨inv.sound.bytes, inv.sound.fewMessages, inv.sound.fewBytes, inv.sound.ordered,
        inv.sound.called, fun _ => ⟨waiting, made⟩⟩, ?_⟩
      rw [List.append_nil]
      refine exclusive.advance running ?_
      rw [task]
      exact .releases
    | cons m queue =>
      rw [drainDispatchQueue_cons waiting] at moved
      cases moved
      refine ⟨inv.sound.dispatch waiting busy _, ?_⟩
      rw [List.append_nil]
      have next : (s.dispatch m queue (snapshot s.adapter m.topic order)).outstanding =
          some ((snapshot s.adapter m.topic order).map fun h => (m, h)) := by
        rw [Shared.outstanding_some]
        refine ⟨busy, ?_⟩
        simp only [Shared.due, Shared.dispatch, List.flatMap_append, List.flatMap_singleton]
          at made ⊢
        rw [made, List.drop_left]
      rw [next]
      rw [task] at exclusive
      exact exclusive.change running rfl rfl
  | handle m handlers =>
    cases handlers with
    | nil =>
      cases moved
      exact inv.rest running inv.sound rfl rfl
    | cons h rest =>
      cases moved
      have task := claimed _ rfl
      obtain ⟨busy, missing⟩ := Shared.outstanding_some.mp task
      rw [List.map_cons] at missing
      refine ⟨inv.sound.deliver missing busy, ?_⟩
      rw [List.append_nil]
      have next : Shared.outstanding { s with delivered := s.delivered ++ [(m, h)] } =
          some (rest.map fun h => (m, h)) := by
        rw [Shared.outstanding_some]
        refine ⟨busy, ?_⟩
        rw [List.length_append, ← List.drop_drop]
        exact congrArg (List.drop 1) missing
      rw [next]
      rw [task] at exclusive
      exact exclusive.change running rfl rfl

theorem moves {baseTopic : GoString} {c c' : Config} (inv : Invariant limits c)
    (moves : (program limits baseTopic).Moves c c') : Invariant limits c' := by
  cases moves with
  | stays => exact inv
  | @advances n choice t t' s spawned running moved =>
    simp only [program] at moved
    cases t with
    | adapter thread =>
      obtain ⟨⟨state, thread', started⟩, _, same⟩ := Option.map_eq_some_iff.mp moved
      cases same
      exact inv.adapter running state started
    | enqueue m pos =>
      cases pos with
      | lock =>
        cases moved
        exact inv.enqueue running
      | overflow =>
        cases moved
        exact inv.rest running inv.sound rfl rfl
      | launch =>
        cases moved
        exact inv.launch running
      | done => cases moved
    | drain pos =>
      obtain ⟨⟨s', pos'⟩, stepped, same⟩ := Option.map_eq_some_iff.mp moved
      cases same
      exact inv.drain running stepped
  | @occurs e s spawned happened =>
    simp only [program] at happened
    cases e with
    | adapter call =>
      obtain ⟨⟨state, started⟩, _, same⟩ := Option.map_eq_some_iff.mp happened
      cases same
      refine ⟨inv.sound.adapter state, inv.exclusive.enter fun t member => ?_⟩
      obtain ⟨_, _, rfl⟩ := List.mem_map.mp member
      rfl
    | deliver m =>
      cases happened
      refine ⟨inv.sound, inv.exclusive.enter fun t member => ?_⟩
      rw [List.mem_singleton.mp member]
      rfl

end Invariant

theorem run_invariant (limits : Limits) (baseTopic : GoString) (isOpen : Bool)
    (actions : List Action) : Invariant limits (run limits baseTopic isOpen actions) := by
  refine (program limits baseTopic).run_keeps _ (fun _ _ => Invariant.moves) ?_ actions
  refine ⟨.start limits _, ?_⟩
  exact ⟨by simp, rfl⟩

section Progress
variable {limits : Limits} {baseTopic : GoString} {n : Nat}

theorem drainer_handles {m : Message} {rest : List Nat} {c : Config}
    (running : c.threads[n]? = some (.drain (.handle m rest))) :
    ∃ c', (program limits baseTopic).Leads c c' ∧ c'.threads[n]? = some (.drain .lock) ∧
      c'.shared.dispatchQueue = c.shared.dispatchQueue ∧
      c'.shared.accepted = c.shared.accepted := by
  induction rest generalizing c with
  | nil =>
    have moved : (program limits baseTopic).advance {} c.shared (.drain (.handle m [])) =
        some (c.shared, .drain .lock, []) := rfl
    exact ⟨_, .step running moved, getElem?_own running _ [], rfl, rfl⟩
  | cons h rest ih =>
    have moved : (program limits baseTopic).advance {} c.shared (.drain (.handle m (h :: rest))) =
        some ({ c.shared with delivered := c.shared.delivered ++ [(m, h)] },
          .drain (.handle m rest), []) := rfl
    obtain ⟨c', leads, back, same, kept⟩ := @ih
      ⟨{ c.shared with delivered := c.shared.delivered ++ [(m, h)] },
        c.threads.set n (.drain (.handle m rest)) ++ []⟩ (getElem?_own running _ [])
    exact ⟨c', (Leads.step running moved).trans leads, back, same, kept⟩

theorem drainer_finishes {queue : List Message} {c : Config}
    (running : c.threads[n]? = some (.drain .lock)) (waiting : c.shared.dispatchQueue = queue) :
    ∃ c', (program limits baseTopic).Leads c c' ∧ c'.shared.dispatching = false ∧
      c'.shared.accepted = c.shared.accepted := by
  induction queue generalizing c with
  | nil =>
    have moved : (program limits baseTopic).advance {} c.shared (.drain .lock) =
        some ({ c.shared with dispatching := false }, .drain .done, []) := by
      simp only [program, advance, drainStep, drainDispatchQueue_nil waiting, Option.map_some]
    exact ⟨_, .step running moved, rfl, rfl⟩
  | cons m queue ih =>
    have moved : (program limits baseTopic).advance {} c.shared (.drain .lock) =
        some (c.shared.dispatch m queue (snapshot c.shared.adapter m.topic []),
          .drain (.handle m (snapshot c.shared.adapter m.topic [])), []) := by
      simp only [program, advance, drainStep, drainDispatchQueue_cons waiting, Option.map_some]
    obtain ⟨c', leads, back, same, kept⟩ := drainer_handles
      (c := ⟨c.shared.dispatch m queue (snapshot c.shared.adapter m.topic []), _⟩)
      (getElem?_own running _ [])
    obtain ⟨c'', leads', idle, kept'⟩ := ih back same
    exact ⟨c'', ((Leads.step running moved).trans leads).trans leads', idle, kept'.trans kept⟩

variable (baseTopic) in
theorem Invariant.finishes {c : Config} (inv : Invariant limits c) :
    ∃ c', (program limits baseTopic).Leads c c' ∧ c'.shared.dispatching = false ∧
      c'.shared.accepted = c.shared.accepted := by
  cases busy : c.shared.dispatching with
  | false => exact ⟨c, .refl c, busy, rfl⟩
  | true =>
    have exclusive := inv.exclusive
    rw [Shared.outstanding_some.mpr ⟨busy, rfl⟩] at exclusive
    obtain ⟨t, member, claims⟩ := exclusive.holder
    obtain ⟨n, running⟩ := List.mem_iff_getElem?.mp member
    cases t with
    | adapter thread => cases claims
    | enqueue m pos =>
      cases pos with
      | launch =>
        have moved : (program limits baseTopic).advance {} c.shared (.enqueue m .launch) =
            some (c.shared, .enqueue m .done, [.drain .lock]) := rfl
        have started : (c.threads.set n (.enqueue m .done) ++ [Thread.drain .lock])[
            (c.threads.set n (.enqueue m .done)).length]? = some (.drain .lock) :=
          List.getElem?_concat_length
        obtain ⟨c', leads, idle, kept⟩ := drainer_finishes (c := ⟨c.shared, _⟩) started rfl
        exact ⟨c', (Leads.step running moved).trans leads, idle, kept⟩
      | _ => cases claims
    | drain pos =>
      cases pos with
      | done => cases claims
      | lock => exact drainer_finishes running rfl
      | handle m rest =>
        obtain ⟨c', leads, back, _, kept⟩ := drainer_handles running
        obtain ⟨c'', leads', idle, kept'⟩ := drainer_finishes back rfl
        exact ⟨c'', leads.trans leads', idle, kept'.trans kept⟩

end Progress

namespace Thread

def enqueuing : Thread → Bool
  | .enqueue _ pos => pos ≠ .done
  | _ => false

def draining : Thread → Bool
  | .drain .done => false
  | .drain _ => true
  | _ => false

theorem claim_draining {t : Thread} (draining : t.draining = true) : (claim t).isSome = true := by
  cases t with
  | adapter | enqueue => cases draining
  | drain pos => cases pos <;> first | rfl | cases draining

theorem claim_idle {t : Thread} {calls : List (Message × Nat)} (claims : claim t = some calls)
    (idle : t.enqueuing = false) : t.draining = true := by
  cases t with
  | adapter thread => cases claims
  | enqueue m pos => cases pos <;> first | cases claims; done | cases idle
  | drain pos => cases pos <;> first | rfl | cases claims

end Thread

theorem snapshot_perm (s : Mqtt.Shared) (topic : GoString) (order : List Nat) :
    (snapshot s topic order).Perm (registered s topic) := by
  unfold snapshot
  split_ifs with same
  · exact List.isPerm_iff.mp same
  · exact .refl _

/-- The queue in a configuration: who dispatches, what is queued, and what the steps of
the two functions and of the threads on their own do from there. -/
structure Exact (limits : Limits) (baseTopic : GoString) (c : Config) : Prop where
  oneDrainer : ∀ (m n : Nat) t u, m ≠ n → c.threads[m]? = some t → c.threads[n]? = some u →
    t.draining = true → u.draining = false
  someDrainer : c.shared.dispatchQueue ≠ [] → (∀ t ∈ c.threads, t.enqueuing = false) →
    ∃ t ∈ c.threads, t.draining = true
  bytes : c.shared.dispatchBytes = Ledger.total Message.size c.shared.dispatchQueue
  fewBytes : c.shared.dispatchBytes ≤ limits.maxBytes
  fewMessages : c.shared.dispatchQueue.length ≤ limits.maxMessages
  ordered : c.shared.dispatched.map Prod.fst ++ c.shared.dispatchQueue = c.shared.accepted
  called : c.shared.delivered <+: c.shared.due
  enqueues : ∀ n m choice, c.threads[n]? = some (.enqueue m .lock) →
    let s := ((program limits baseTopic).step c (.advance n choice)).shared
    s.accepted = c.shared.accepted ++ [m] ∨
      s = c.shared ∧ (c.shared.dispatchQueue.length ≥ limits.maxMessages ∨
        c.shared.dispatchBytes + m.size > limits.maxBytes)
  dispatches : ∀ n choice m queue, c.threads[n]? = some (.drain .lock) →
    c.shared.dispatchQueue = m :: queue →
    ∃ handlers, handlers.Perm (registered c.shared.adapter m.topic) ∧
      ((program limits baseTopic).step c (.advance n choice)).shared.dispatched =
        c.shared.dispatched ++ [(m, handlers)]
  finishes : ∃ c', (program limits baseTopic).Leads c c' ∧
    c'.shared.accepted = c.shared.accepted ∧
    c'.shared.dispatched.map Prod.fst = c.shared.accepted ∧ c'.shared.delivered = c'.shared.due

namespace Invariant
variable {limits : Limits} {baseTopic : GoString} {c : Config}

theorem oneDrainer (inv : Invariant limits c) {m n : Nat} {t u : Thread} (other : m ≠ n)
    (first : c.threads[m]? = some t) (second : c.threads[n]? = some u)
    (draining : t.draining = true) : u.draining = false := by
  by_contra both
  rw [Bool.not_eq_false] at both
  obtain ⟨calls, claims⟩ := Option.isSome_iff_exists.mp (Thread.claim_draining draining)
  have idle := inv.exclusive.alone (Ne.symm other) first claims second
  have busy := Thread.claim_draining both
  rw [idle] at busy
  cases busy

theorem someDrainer (inv : Invariant limits c) (waiting : c.shared.dispatchQueue ≠ [])
    (settled : ∀ t ∈ c.threads, t.enqueuing = false) : ∃ t ∈ c.threads, t.draining = true := by
  cases busy : c.shared.dispatching with
  | false => exact absurd (inv.sound.idle busy).1 waiting
  | true =>
    have exclusive := inv.exclusive
    rw [Shared.outstanding_some.mpr ⟨busy, rfl⟩] at exclusive
    obtain ⟨t, member, claims⟩ := exclusive.holder
    exact ⟨t, member, Thread.claim_idle claims (settled t member)⟩

end Invariant

theorem step_enqueues {baseTopic : GoString} {c : Config} {n : Nat} {m : Message}
    (running : c.threads[n]? = some (.enqueue m .lock)) (choice : Choice) :
    let s := ((program limits baseTopic).step c (.advance n choice)).shared
    s.accepted = c.shared.accepted ++ [m] ∨
      s = c.shared ∧ (c.shared.dispatchQueue.length ≥ limits.maxMessages ∨
        c.shared.dispatchBytes + m.size > limits.maxBytes) := by
  have moved : (program limits baseTopic).advance choice c.shared (.enqueue m .lock) =
      some ((enqueueDispatch limits c.shared m).1,
        .enqueue m (enqueueDispatch limits c.shared m).2, []) := rfl
  simp only [Interleaving.Program.step_advance running moved]
  rcases enqueueDispatch_cases limits c.shared m with ⟨full, dropped⟩ | ⟨_, _, accepted⟩
  · rw [dropped]
    exact .inr ⟨rfl, full⟩
  · rw [accepted]
    exact .inl rfl

theorem step_dispatches {baseTopic : GoString} {c : Config} {n : Nat} {m : Message}
    {queue : List Message} (running : c.threads[n]? = some (.drain .lock))
    (waiting : c.shared.dispatchQueue = m :: queue) (choice : Choice) :
    ∃ handlers, handlers.Perm (registered c.shared.adapter m.topic) ∧
      ((program limits baseTopic).step c (.advance n choice)).shared.dispatched =
        c.shared.dispatched ++ [(m, handlers)] := by
  have moved : (program limits baseTopic).advance choice c.shared (.drain .lock) =
      some (c.shared.dispatch m queue (snapshot c.shared.adapter m.topic choice.order),
        .drain (.handle m (snapshot c.shared.adapter m.topic choice.order)), []) := by
    simp only [program, advance, drainStep, drainDispatchQueue_cons waiting, Option.map_some]
  rw [Interleaving.Program.step_advance running moved]
  exact ⟨_, snapshot_perm _ _ _, rfl⟩

def Thread.native : Thread → Option Mqtt.Thread
  | .adapter thread => some thread
  | _ => none

def native (c : Config) : Interleaving.Config Mqtt.Shared Mqtt.Thread :=
  ⟨c.shared.adapter, c.threads.filterMap Thread.native⟩

theorem native_started (started : List Mqtt.Thread) :
    (started.map Thread.adapter).filterMap Thread.native = started := by
  rw [List.filterMap_map]
  exact List.filterMap_some

theorem advance_queue {choice : Choice} {s s' : Shared} {t t' : Thread} {spawned : List Thread}
    (own : t.native = none) (moved : advance limits choice s t = some (s', t', spawned)) :
    s'.adapter = s.adapter ∧ t'.native = none ∧ spawned.filterMap Thread.native = [] := by
  cases t with
  | adapter thread => cases own
  | enqueue m pos =>
    cases pos with
    | lock =>
      simp only [advance, Option.some.injEq, Prod.mk.injEq] at moved
      obtain ⟨rfl, rfl, rfl⟩ := moved
      rcases enqueueDispatch_cases limits s m with ⟨_, same⟩ | ⟨_, _, same⟩ <;>
      · rw [same]
        exact ⟨rfl, rfl, rfl⟩
    | done => cases moved
    | _ =>
      cases moved
      exact ⟨rfl, rfl, rfl⟩
  | drain pos =>
    simp only [advance, Option.map_eq_some_iff] at moved
    obtain ⟨⟨after, pos'⟩, moved, same⟩ := moved
    cases same
    refine ⟨?_, rfl, rfl⟩
    match pos with
    | .lock =>
      have result : (drainDispatchQueue s choice.order).1 = after :=
        congrArg Prod.fst (Option.some.inj moved)
      rw [← result, drainDispatchQueue]
      split <;> rfl
    | .handle _ [] =>
      cases moved
      rfl
    | .handle _ (_ :: _) =>
      cases moved
      rfl

theorem native_takes {baseTopic : GoString} {c c' : Config} {a : Action}
    (taken : (program limits baseTopic).Takes c a c') :
    ∃ a', (Mqtt.program baseTopic).Takes (native c) a' (native c') := by
  have still : ∃ a', (Mqtt.program baseTopic).Takes (native c) a' (native c) :=
    ⟨.event .disconnect, .stays⟩
  cases taken with
  | stays => exact still
  | @advances n choice t t' s spawned running moved =>
    cases own : t.native with
    | none =>
      obtain ⟨adapter, own', started⟩ := advance_queue own moved
      have threads := Interleaving.filterMap_set_none Thread.native running own own'
      simpa only [native, adapter, List.filterMap_append, threads, started, List.append_nil]
        using still
    | some thread =>
      obtain rfl : t = .adapter thread := by
        cases t <;> cases own
        rfl
      simp only [program, advance, Option.map_eq_some_iff] at moved
      obtain ⟨⟨adapter, thread', started⟩, moved, same⟩ := moved
      cases same
      have own' : (Thread.adapter thread').native = some thread' := rfl
      obtain ⟨m, running', changed⟩ :=
        Interleaving.filterMap_set_some Thread.native running own own'
      refine ⟨.advance m choice.native, ?_⟩
      simp only [native, List.filterMap_append, native_started, changed]
      exact .advances running' moved
  | @occurs call s spawned happened =>
    cases call with
    | adapter call =>
      simp only [program, occur, Option.map_eq_some_iff] at happened
      obtain ⟨⟨adapter, started⟩, happened, same⟩ := happened
      cases same
      refine ⟨.event call, ?_⟩
      simp only [native, List.filterMap_append, native_started]
      exact .occurs happened
    | deliver m =>
      cases happened
      simpa only [native, List.filterMap_append, List.filterMap_cons, Thread.native,
        List.filterMap_nil, List.append_nil] using still

theorem run_native (limits : Limits) (baseTopic : GoString) (isOpen : Bool)
    (actions : List Action) : Mqtt.Invariant (native (run limits baseTopic isOpen actions)) := by
  have start : Mqtt.Invariant (native ⟨{ adapter := { isOpen := isOpen } }, []⟩) := .start isOpen
  refine (program limits baseTopic).run_takes_keeps (fun c => Mqtt.Invariant (native c)) ?_ start
    actions
  intro c a c' inv taken
  obtain ⟨a', taken'⟩ := native_takes taken
  exact inv.takes taken'

theorem registered_eq {s : Mqtt.Shared} {topic : GoString} {g : Nat}
    (held : s.subs topic = some g) : registered s topic = s.handlersOf g := by
  rw [registered, held]
  rfl

/-- A handler whose `Subscribe` returned and that was not given up is one of those that a
message of its topic is dispatched to, and one whose `Subscribe` failed is not. -/
theorem registered_handlers (limits : Limits) (baseTopic : GoString) (isOpen : Bool)
    (actions : List Action) :
    let s := (run limits baseTopic isOpen actions).shared.adapter
    (∀ id topic, (id, topic) ∈ s.returned → id ∉ s.unsubscribed → id ∈ registered s topic) ∧
    ∀ id ∈ s.failed, ∀ topic, id ∉ registered s topic := by
  have core := (run_native limits baseTopic isOpen actions).core
  refine ⟨fun id topic returned kept => ?_, fun id failed topic member => ?_⟩
  · obtain ⟨g, held, member⟩ := (core.successes id topic returned).resolve_left kept
    exact registered_eq held ▸ member
  · have absent := core.failures id failed
    unfold registered at member
    split at member
    · cases member
    · next g _ => exact absent g member

theorem dispatch_queue_exact (limits : Limits) (baseTopic : GoString) (isOpen : Bool)
    (actions : List Action) : Exact limits baseTopic (run limits baseTopic isOpen actions) := by
  have inv := run_invariant limits baseTopic isOpen actions
  refine ⟨fun _ _ _ _ => inv.oneDrainer, inv.someDrainer, inv.sound.bytes, inv.sound.fewBytes,
    inv.sound.fewMessages, inv.sound.ordered, inv.sound.called,
    fun _ _ choice running => step_enqueues running choice,
    fun _ choice _ _ running waiting => step_dispatches running waiting choice, ?_⟩
  obtain ⟨c', leads, idle, kept⟩ := inv.finishes baseTopic
  have reached : Invariant limits c' := by
    obtain ⟨steps, rfl⟩ := leads
    rw [run, ← Interleaving.Program.run_append]
    exact run_invariant limits baseTopic isOpen _
  obtain ⟨empty, made⟩ := reached.sound.idle idle
  have ordered := reached.sound.ordered
  rw [empty, List.append_nil, kept] at ordered
  exact ⟨c', leads, kept, ordered, made⟩

namespace Sample

def offer : Message := ⟨topic (str "telekit") (str "room") (str "offer"), [7]⟩

def delivered : List Action :=
  [.event (.adapter (.subscribe (str "room") (str "offer")))] ++
    List.replicate 7 (.advance 0 {}) ++ [.event (.deliver offer)] ++
    List.replicate 2 (.advance 1 {}) ++ List.replicate 4 (.advance 2 {})

end Sample

example :
    (run {} (str "telekit") true Sample.delivered).shared.adapter.returned =
      [(1, Sample.offer.topic)] ∧
    (run {} (str "telekit") true Sample.delivered).shared.delivered = [(Sample.offer, 1)] ∧
    (run {} (str "telekit") true Sample.delivered).shared.dispatching = false := by
  decide +kernel

end Telekit.Mqtt.Dispatch
