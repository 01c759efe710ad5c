import Telekit.Library.Ledger
import Telekit.ReadLoop
import Telekit.RecvBuffer

/-! One shared budget, any number of receive buffers and any number of server
reader loops. What arrives from the network, whether a transport is still
current and what a frame decrypts to are chosen by the environment at each step,
so every break of the loops is a step here. -/

namespace Telekit.ByteAccounting

structure Reader where
  loop : ReadLoop
  buffer : Nat
  pc : ReadPc

structure Memory where
  budget : ByteBudget
  buffers : List RecvBuffer := []
  readers : List Reader := []

inductive Event
  | newBuffer (limit : Int)
  | write (i : Nat) (data : Bytes)
  | read (i : Nat) (size : Nat) (now : Int)
  | reset (i : Nat)
  | close (i : Nat)
  | setDeadline (i : Nat) (deadline : Option Int)
  | startReader (packetMode : Bool) (maxFrameSize : Nat) (buffer : Nat)
  | receive (j : Nat) (chunk : Bytes) (failed : Bool)
  | check (j : Nat) (current : Bool)
  | reserve (j : Nat)
  | openFrame (j : Nat) (result : Except Failure (DataFrameType × Bytes))
  | release (j : Nat)
  | writeBuffer (j : Nat)

def held : ReadPc → Nat
  | .readFrame length _ _ => length
  | .openFrame length _ _ => length
  | .release length _ => length
  | .abandon length => length
  | _ => 0

def unread (rb : RecvBuffer) : Int := rb.buf.length

def Reader.held (r : Reader) : Int := ByteAccounting.held r.pc

theorem held_start (l : ReadLoop) : held l.start = 0 := by
  unfold ReadLoop.start
  split_ifs <;> rfl

theorem held_checkFrame (l : ReadLoop) (result : Except Failure (DataFrameType × Bytes)) :
    held (l.checkFrame result) = 0 := by
  unfold ReadLoop.checkFrame
  split
  · split_ifs
    · exact held_start l
    · rfl
  · split_ifs <;> rfl

theorem held_received {l : ReadLoop} (server : l.role = .server) (chunk : Bytes) (failed : Bool)
    (pc : ReadPc) : held (l.received chunk failed pc) = held pc := by
  cases pc with
  | readHeader | readPacket =>
    simp only [ReadLoop.received]
    split_ifs <;> rfl
  | readSequence | readFrame =>
    simp only [ReadLoop.received, server]
    split_ifs <;> rfl
  | _ => rfl

theorem held_checked {l : ReadLoop} (server : l.role = .server) (current : Bool) (pc : ReadPc) :
    held (l.checked current pc) = held pc := by
  cases pc with
  | checkHeader length =>
    simp only [ReadLoop.checked]
    split_ifs <;> rfl
  | checkPacket packet =>
    simp only [ReadLoop.checked, ReadLoop.checkedPacket, server]
    split_ifs <;> rfl
  | recheck frameType raw =>
    simp only [ReadLoop.checked]
    split_ifs
    · rfl
    · exact held_start l
    · rfl
  | _ => rfl

theorem held_opened {l : ReadLoop} (server : l.role = .server)
    (result : Except Failure (DataFrameType × Bytes)) (pc : ReadPc) :
    held (l.opened result pc) = held pc := by
  cases pc with
  | openFrame length sequence frame => simp only [ReadLoop.opened, server, held]
  | _ => rfl

theorem held_wrote (l : ReadLoop) (result : Except Failure Unit) (raw : Bytes) :
    held (l.wrote result (.writeBuffer raw)) = 0 := by
  cases result with
  | error err => rfl
  | ok _ => exact held_start l

namespace Memory

def setBudget (m : Memory) (budget : Option ByteBudget) : Memory :=
  { m with budget := budget.getD m.budget }

def setBuffer (m : Memory) (i : Nat) (rb : RecvBuffer) (budget : Option ByteBudget) : Memory :=
  { m.setBudget budget with buffers := m.buffers.set i rb }

def setReader (m : Memory) (j : Nat) (r : Reader) (pc : ReadPc) : Memory :=
  { m with readers := m.readers.set j { r with pc := pc } }

def write (m : Memory) (i : Nat) (data : Bytes) : Except Failure Unit × Memory :=
  match m.buffers[i]? with
  | none => (.error .closedPipe, m)
  | some rb =>
    let (result, rb, budget) := rb.write (some m.budget) data
    (result, m.setBuffer i rb budget)

def step (m : Memory) : Event → Memory
  | .newBuffer limit => { m with buffers := m.buffers ++ [.newWithLimit limit] }
  | .write i data => (m.write i data).2
  | .read i size now =>
    match m.buffers[i]? with
    | none => m
    | some rb =>
      match rb.read (some m.budget) size now with
      | none => m
      | some (_, rb, budget) => m.setBuffer i rb budget
  | .reset i =>
    match m.buffers[i]? with
    | none => m
    | some rb => m.setBuffer i (rb.reset (some m.budget)).1 (rb.reset (some m.budget)).2
  | .close i =>
    match m.buffers[i]? with
    | none => m
    | some rb => m.setBuffer i (rb.close (some m.budget)).1 (rb.close (some m.budget)).2
  | .setDeadline i deadline =>
    match m.buffers[i]? with
    | none => m
    | some rb => m.setBuffer i (rb.setDeadline deadline) (some m.budget)
  | .startReader packetMode maxFrameSize buffer =>
    let loop : ReadLoop := ⟨.server, packetMode, maxFrameSize⟩
    { m with readers := m.readers ++ [⟨loop, buffer, loop.start⟩] }
  | .receive j chunk failed =>
    match m.readers[j]? with
    | none => m
    | some r => m.setReader j r (r.loop.received chunk failed r.pc)
  | .check j current =>
    match m.readers[j]? with
    | none => m
    | some r => m.setReader j r (r.loop.checked current r.pc)
  | .reserve j =>
    match m.readers[j]? with
    | none => m
    | some r =>
      match r.pc with
      | .reserve length _ _ =>
        let (accepted, budget) := ByteBudget.reserve (some m.budget) length
        (m.setBudget budget).setReader j r (ReadLoop.reserved accepted r.pc)
      | _ => m
  | .openFrame j result =>
    match m.readers[j]? with
    | none => m
    | some r => m.setReader j r (r.loop.opened result r.pc)
  | .release j =>
    match m.readers[j]? with
    | none => m
    | some r =>
      match r.pc with
      | .abandon length =>
        (m.setBudget (ByteBudget.release (some m.budget) length)).setReader j r
          (r.loop.released r.pc)
      | .release length _ =>
        (m.setBudget (ByteBudget.release (some m.budget) length)).setReader j r
          (r.loop.released r.pc)
      | _ => m
  | .writeBuffer j =>
    match m.readers[j]? with
    | none => m
    | some r =>
      match r.pc with
      | .writeBuffer raw =>
        let (result, m') := m.write r.buffer raw
        m'.setReader j r (r.loop.wrote result r.pc)
      | _ => m

def start (limit : Int) : Memory := { budget := { limit := limit } }

def run (m : Memory) (events : List Event) : Memory := events.foldl step m

/-- Every byte in use is accounted to one buffer or one loop. -/
structure Balanced (limit : Int) (m : Memory) : Prop where
  balance : m.budget.used = Ledger.total unread m.buffers + Ledger.total Reader.held m.readers
  fixed : m.budget.limit = limit
  capped : m.budget.used ≤ limit
  calm : m.budget.panicked = false
  bounded : ∀ rb ∈ m.buffers, rb.Bounded
  server : ∀ r ∈ m.readers, r.loop.role = .server

variable {limit : Int} {m : Memory}

theorem unread_nonneg (rb : RecvBuffer) : 0 ≤ unread rb := Int.natCast_nonneg _

theorem held_nonneg (r : Reader) : 0 ≤ r.held := Int.natCast_nonneg _

theorem Balanced.unread_le (b : Balanced limit m) {i : Nat} {rb : RecvBuffer}
    (present : m.buffers[i]? = some rb) : unread rb ≤ m.budget.used := by
  have one := Ledger.le_total (fun rb _ => unread_nonneg rb) (List.mem_of_getElem? present)
  have rest : 0 ≤ Ledger.total Reader.held m.readers :=
    Ledger.total_nonneg fun r _ => held_nonneg r
  have balance := b.balance
  omega

theorem Balanced.held_le (b : Balanced limit m) {j : Nat} {r : Reader}
    (present : m.readers[j]? = some r) : r.held ≤ m.budget.used := by
  have one := Ledger.le_total (fun r _ => held_nonneg r) (List.mem_of_getElem? present)
  have rest : 0 ≤ Ledger.total unread m.buffers :=
    Ledger.total_nonneg fun rb _ => unread_nonneg rb
  have balance := b.balance
  omega

theorem Balanced.drain (b : Balanced limit m) {i : Nat} {rb rb' : RecvBuffer}
    {budget : Option ByteBudget} (present : m.buffers[i]? = some rb)
    (drain : RecvBuffer.Drain rb rb' (some m.budget) budget) :
    Balanced limit (m.setBuffer i rb' budget) := by
  obtain ⟨keeps, k, taken, rfl⟩ := drain
  have enough := b.unread_le present
  have sum := Ledger.total_set unread present rb'
  have balance := b.balance
  have capped := b.capped
  rw [ByteBudget.release_used (by simp only [unread] at enough; omega)]
  simp only [unread] at enough sum
  refine ⟨?_, b.fixed, ?_, b.calm,
    Ledger.forall_set b.bounded (keeps (b.bounded rb (List.mem_of_getElem? present))), b.server⟩
  · simp only [setBuffer, setBudget, Option.getD_some]
    rw [sum]
    omega
  · simp only [setBuffer, setBudget, Option.getD_some]
    omega

theorem Balanced.move (b : Balanced limit m) {j : Nat} {r : Reader} {pc : ReadPc}
    (present : m.readers[j]? = some r) (same : held pc = held r.pc) :
    Balanced limit (m.setReader j r pc) := by
  have sum := Ledger.total_set Reader.held present { r with pc := pc }
  have keep : ({ r with pc := pc } : Reader).held = r.held := by simp [Reader.held, same]
  refine ⟨?_, b.fixed, b.capped, b.calm, b.bounded,
    Ledger.forall_set b.server (b.server r (List.mem_of_getElem? present))⟩
  have balance := b.balance
  simp only [setReader]
  rw [sum]
  omega

theorem write_balanced (b : Balanced limit m) (i : Nat) (data : Bytes) :
    Balanced limit (m.write i data).2 ∧ (m.write i data).2.readers = m.readers := by
  unfold write
  split
  · exact ⟨b, rfl⟩
  next rb present =>
    refine ⟨?_, rfl⟩
    have old := b.bounded rb (List.mem_of_getElem? present)
    cases done : rb.write (some m.budget) data with
    | mk result rest =>
      obtain ⟨rb', budget⟩ := rest
      have bounded := RecvBuffer.write_bounded old done
      cases result with
      | error err =>
        obtain ⟨rfl, rfl⟩ := RecvBuffer.write_error done
        exact b.drain present ⟨id, 0, by simp, by simp [ByteBudget.release]⟩
      | ok _ =>
        obtain ⟨_, _, reserved, rfl⟩ := RecvBuffer.write_ok done
        obtain ⟨rfl, room⟩ := ByteBudget.reserve_true reserved
        have sum := Ledger.total_set unread present { rb with buf := rb.buf ++ data }
        have balance := b.balance
        have capped := b.capped
        have fixed := b.fixed
        simp only [unread, List.length_append] at sum
        refine ⟨?_, b.fixed, ?_, b.calm, Ledger.forall_set b.bounded bounded, b.server⟩
        · simp only [setBuffer, setBudget, Option.getD_some]
          rw [sum]
          omega
        · simp only [setBuffer, setBudget, Option.getD_some]
          omega

theorem Balanced.give (b : Balanced limit m) {j : Nat} {r : Reader} {pc : ReadPc} {length : Nat}
    (present : m.readers[j]? = some r) (holds : held r.pc = length) (empty : held pc = 0) :
    Balanced limit
      ((m.setBudget (ByteBudget.release (some m.budget) length)).setReader j r pc) := by
  have enough := b.held_le present
  rw [Reader.held, holds] at enough
  have sum := Ledger.total_set Reader.held present { r with pc := pc }
  have balance := b.balance
  have capped := b.capped
  rw [ByteBudget.release_used enough]
  simp only [Reader.held, holds, empty] at sum
  refine ⟨?_, b.fixed, ?_, b.calm, b.bounded,
    Ledger.forall_set b.server (b.server r (List.mem_of_getElem? present))⟩
  · simp only [setReader, setBudget, Option.getD_some]
    rw [sum]
    omega
  · simp only [setReader, setBudget, Option.getD_some]
    omega

theorem Balanced.take (b : Balanced limit m) {j : Nat} {r : Reader} {length : Nat}
    {sequence : UInt64} {packet : Option Bytes} (present : m.readers[j]? = some r)
    (asks : r.pc = .reserve length sequence packet) {accepted : Bool}
    {budget : Option ByteBudget}
    (answer : ByteBudget.reserve (some m.budget) length = (accepted, budget)) :
    Balanced limit ((m.setBudget budget).setReader j r (ReadLoop.reserved accepted r.pc)) := by
  cases accepted with
  | false =>
    obtain rfl := ByteBudget.reserve_false answer
    exact b.move present (by simp [asks, ReadLoop.reserved, held])
  | true =>
    obtain ⟨rfl, room⟩ := ByteBudget.reserve_true answer
    have none : held r.pc = 0 := by
      rw [asks]
      rfl
    have all : held (ReadLoop.reserved true r.pc) = length := by
      cases packet <;> simp [asks, ReadLoop.reserved, held]
    have sum := Ledger.total_set Reader.held present { r with pc := ReadLoop.reserved true r.pc }
    have balance := b.balance
    have capped := b.capped
    have fixed := b.fixed
    simp only [Reader.held, none, all] at sum
    refine ⟨?_, b.fixed, ?_, b.calm, b.bounded,
      Ledger.forall_set b.server (b.server r (List.mem_of_getElem? present))⟩
    · simp only [setReader, setBudget, Option.getD_some]
      rw [sum]
      omega
    · simp only [setReader, setBudget, Option.getD_some]
      omega

theorem start_balanced {limit : Int} (h : 0 ≤ limit) : Balanced limit (start limit) :=
  ⟨rfl, rfl, h, rfl, by simp [start], by simp [start]⟩

theorem step_balanced (b : Balanced limit m) (event : Event) : Balanced limit (m.step event) := by
  cases event with
  | newBuffer size =>
    have fresh : Ledger.total unread [RecvBuffer.newWithLimit size] = 0 := rfl
    refine ⟨?_, b.fixed, b.capped, b.calm, ?_, b.server⟩
    · simp only [step, Ledger.total_append, fresh]
      have balance := b.balance
      omega
    · simp only [step, List.mem_append, List.mem_singleton]
      rintro rb (old | rfl)
      · exact b.bounded rb old
      · exact RecvBuffer.newWithLimit_bounded size
  | write i data => exact (write_balanced b i data).1
  | read i size now =>
    simp only [step]
    split
    · exact b
    next rb present =>
      split
      · exact b
      next done => exact b.drain present (RecvBuffer.read_drain done)
  | reset i =>
    simp only [step]
    split
    · exact b
    next rb present => exact b.drain present (RecvBuffer.reset_drain rb _)
  | close i =>
    simp only [step]
    split
    · exact b
    next rb present => exact b.drain present (RecvBuffer.close_drain rb _)
  | setDeadline i deadline =>
    simp only [step]
    split
    · exact b
    next rb present =>
      exact b.drain present ⟨fun old => ⟨old.fits, old.drained⟩, 0, rfl, rfl⟩
  | startReader packetMode maxFrameSize buffer =>
    have idle := held_start ⟨.server, packetMode, maxFrameSize⟩
    refine ⟨?_, b.fixed, b.capped, b.calm, b.bounded, ?_⟩
    · simp only [step, Ledger.total_append, Ledger.total_cons, Ledger.total_nil, Reader.held, idle]
      have balance := b.balance
      omega
    · simp only [step, List.mem_append, List.mem_singleton]
      rintro r (old | rfl)
      · exact b.server r old
      · rfl
  | receive j chunk failed =>
    simp only [step]
    split
    · exact b
    next r present =>
      exact b.move present (held_received (b.server r (List.mem_of_getElem? present)) _ _ _)
  | check j current =>
    simp only [step]
    split
    · exact b
    next r present =>
      exact b.move present (held_checked (b.server r (List.mem_of_getElem? present)) _ _)
  | reserve j =>
    simp only [step]
    split
    · exact b
    next r present =>
      split
      next length sequence packet asks => exact b.take present asks rfl
      · exact b
  | openFrame j result =>
    simp only [step]
    split
    · exact b
    next r present =>
      exact b.move present (held_opened (b.server r (List.mem_of_getElem? present)) _ _)
  | release j =>
    simp only [step]
    split
    · exact b
    next r present =>
      split
      next length at_pc => exact b.give present (by rw [at_pc]; rfl) (by rw [at_pc]; rfl)
      next length result at_pc =>
        exact b.give present (by rw [at_pc]; rfl) (by rw [at_pc]; exact held_checkFrame _ _)
      · exact b
  | writeBuffer j =>
    simp only [step]
    split
    · exact b
    next r present =>
      split
      next raw at_pc =>
        obtain ⟨after, same⟩ := write_balanced b r.buffer raw
        exact after.move (same ▸ present) (by rw [at_pc]; exact held_wrote _ _ raw)
      · exact b

theorem run_balanced {limit : Int} (h : 0 ≤ limit) (events : List Event) :
    Balanced limit (run (start limit) events) :=
  List.foldlRecOn events step (start_balanced h) fun _ b event _ => step_balanced b event

theorem write_rejected {m m' : Memory} {i : Nat} {data : Bytes} {err : Failure}
    (refused : m.write i data = (.error err, m')) : m' = m := by
  unfold write at refused
  split at refused
  · simp_all
  next rb present =>
    cases done : rb.write (some m.budget) data with
    | mk result rest =>
      obtain ⟨rb', budget⟩ := rest
      simp only [done, Prod.mk.injEq] at refused
      obtain ⟨rfl, rfl⟩ := refused
      obtain ⟨rfl, rfl⟩ := RecvBuffer.write_error done
      have same : m.buffers.set i rb' = m.buffers := by
        obtain ⟨inside, rfl⟩ := List.getElem?_eq_some_iff.mp present
        exact List.set_getElem_self inside
      simp only [setBuffer, setBudget, Option.getD_some, same]

/-- The budget is conserved in every run: what is in use is exactly what the
buffers and the loops hold, within the limit, and nothing ever releases more. -/
theorem budget_conserved {limit : Int} (h : 0 ≤ limit) (events : List Event) :
    (run (start limit) events).budget.used =
      Ledger.total unread (run (start limit) events).buffers +
        Ledger.total Reader.held (run (start limit) events).readers ∧
    0 ≤ (run (start limit) events).budget.used ∧
    (run (start limit) events).budget.used ≤ limit ∧
    (∀ rb ∈ (run (start limit) events).buffers, (rb.buf.length : Int) ≤ rb.limit) ∧
    (∀ i data err m', (run (start limit) events).write i data = (.error err, m') →
      m' = run (start limit) events) ∧
    (run (start limit) events).budget.panicked = false ∧
    ((∀ rb ∈ (run (start limit) events).buffers, rb.closed = true) →
      (∀ r ∈ (run (start limit) events).readers, held r.pc = 0) →
      (run (start limit) events).budget.used = 0) := by
  have b := run_balanced h events
  have balance := b.balance
  have unreadSum := Ledger.total_nonneg fun rb (_ : rb ∈ (run (start limit) events).buffers) =>
    unread_nonneg rb
  have heldSum := Ledger.total_nonneg fun r (_ : r ∈ (run (start limit) events).readers) =>
    held_nonneg r
  refine ⟨balance, by omega, b.capped, fun rb member => (b.bounded rb member).fits,
    fun i data err m' refused => write_rejected refused, b.calm, fun closed idle => ?_⟩
  rw [balance, Ledger.total_eq_zero, Ledger.total_eq_zero]
  · rfl
  · intro r member
    simp [Reader.held, idle r member]
  · intro rb member
    simp [unread, (b.bounded rb member).drained (closed rb member)]

def sampleEvents : List Event :=
  [.newBuffer 6, .write 0 [1, 2, 3, 4, 5], .write 0 [6, 7], .startReader false 1024 0,
    .receive 0 [0, 0, 0, 0, 0, 0] false, .receive 0 [0, 3] false, .check 0 true,
    .receive 0 [0, 0, 0, 0, 0, 0, 0, 1] false, .reserve 0, .receive 0 [9] true]

theorem budget_conserved_sample :
    (run (start 20) sampleEvents).budget.used = 8 ∧
    (run (start 20) (sampleEvents ++ [.release 0, .close 0])).budget.used = 0 ∧
    (run (start 20) sampleEvents).budget.used =
      Ledger.total unread (run (start 20) sampleEvents).buffers +
        Ledger.total Reader.held (run (start 20) sampleEvents).readers :=
  ⟨by decide, by decide, (budget_conserved (by decide) sampleEvents).1⟩

end Memory
end Telekit.ByteAccounting
