import Mathlib.Data.List.Induction
import Telekit.FrameAlignment
import Telekit.StreamFraming

/-! One direction of a packet-mode connection: a sender whose frames are datagrams, a
path that loses, repeats and reorders them, and `readRawTransport` at the other end.
A datagram that was sent may arrive at any time, any number of times or never. The
rule for what is delivered is stated over the order of arrival alone. -/

namespace Telekit.PacketDelivery
open StreamFraming (Link carried)

structure PacketLink where
  link : Link
  sent : List Attempt := []
  arrived : List Attempt := []

inductive Event
  | call (c : FrameAlignment.Call)
  | arrive (i : Nat)
  | advance
  | read (size : Nat) (now : Int)
  | setBudget (used : Int)

namespace PacketLink
variable (P : Primitives) (frameLimit : Int)

def call (l : PacketLink) (c : FrameAlignment.Call) : PacketLink :=
  { l with
    link := { l.link with sender := c.perform P frameLimit l.link.sender }
    sent := l.sent ++ c.attempts P frameLimit l.link.sender }

def arrive (l : PacketLink) (i : Nat) : PacketLink :=
  match l.link.pc, l.sent[i]? with
  | .readPacket, some a =>
    { l with
      link := { l.link with pc := l.link.loop.received a.frame false .readPacket }
      arrived := l.arrived ++ [a] }
  | _, _ => l

def step (l : PacketLink) : Event → PacketLink
  | .call c => l.call P frameLimit c
  | .arrive i => l.arrive i
  | .advance => { l with link := l.link.advance P }
  | .read size now => { l with link := l.link.step P frameLimit (.read size now) }
  | .setBudget used => { l with link := l.link.step P frameLimit (.setBudget used) }

def run (l : PacketLink) (events : List Event) : PacketLink := events.foldl (step P frameLimit) l

def start (sender receiver : DataChannel) (role : DataRole) (maxFrameSize : Nat)
    (bufferSize : Int) (budget : Option ByteBudget) : PacketLink :=
  { link := Link.start sender receiver ⟨role, true, maxFrameSize⟩ bufferSize budget }

end PacketLink

/-! The rule. -/

def highest (kept : List Attempt) : Nat := (kept.map fun a => a.sequence.toNat).foldr max 0

/-- The frame is the first to arrive with its number, and that is less than 64 behind
the highest one kept. -/
def keeps (before kept : List Attempt) (a : Attempt) : Bool :=
  before.all (fun b => b.sequence != a.sequence) && decide (highest kept < a.sequence.toNat + 64)

def sort (state : List Attempt × List Attempt) (a : Attempt) : List Attempt × List Attempt :=
  (state.1 ++ [a], if keeps state.1 state.2 a then state.2 ++ [a] else state.2)

def acceptedFrames (arrived : List Attempt) : List Attempt := (arrived.foldl sort ([], [])).2

def payload (frames : List Attempt) : Bytes := frames.flatMap fun a => a.data

theorem sort_fst (arrived : List Attempt) (state : List Attempt × List Attempt) :
    (arrived.foldl sort state).1 = state.1 ++ arrived := by
  induction arrived generalizing state with
  | nil => simp
  | cons a rest ih =>
    rw [List.foldl_cons, ih, sort, List.append_assoc, List.singleton_append]

theorem acceptedFrames_snoc (arrived : List Attempt) (a : Attempt) :
    acceptedFrames (arrived ++ [a]) =
      if keeps arrived (acceptedFrames arrived) a then acceptedFrames arrived ++ [a]
      else acceptedFrames arrived := by
  have before := sort_fst arrived ([], [])
  rw [List.nil_append] at before
  rw [acceptedFrames, List.foldl_append, List.foldl_cons, List.foldl_nil, sort, before]
  rfl

theorem highest_lt {kept : List Attempt} {n : Nat} (pos : 0 < n) :
    highest kept < n ↔ ∀ a ∈ kept, a.sequence.toNat < n := by
  induction kept with
  | nil => simpa [highest] using pos
  | cons a rest ih =>
    rw [List.forall_mem_cons, ← ih]
    simp only [highest, List.map_cons, List.foldr_cons]
    omega

variable {a : Attempt}

theorem keeps_iff {before kept : List Attempt} :
    keeps before kept a = true ↔ (∀ b ∈ before, b.sequence ≠ a.sequence) ∧
      ∀ b ∈ kept, b.sequence.toNat < a.sequence.toNat + 64 := by
  rw [keeps, Bool.and_eq_true, decide_eq_true_eq, highest_lt (by omega)]
  simp

theorem arrived_kept_or_old (arrived : List Attempt) :
    (∀ a ∈ acceptedFrames arrived, a ∈ arrived) ∧
    ∀ b ∈ arrived, ∃ a ∈ acceptedFrames arrived,
      a.sequence = b.sequence ∨ b.sequence.toNat + 64 ≤ a.sequence.toNat := by
  induction arrived using List.reverseRecOn with
  | nil => simp [acceptedFrames]
  | append_singleton arrived c ih =>
    obtain ⟨kept, old⟩ := ih
    rw [acceptedFrames_snoc]
    split_ifs with keep
    · refine ⟨fun a member => ?_, fun b member => ?_⟩
      · rcases List.mem_append.mp member with earlier | last
        · exact List.mem_append_left _ (kept a earlier)
        · exact List.mem_append_right _ last
      · rcases List.mem_append.mp member with earlier | last
        · obtain ⟨a, among, reason⟩ := old b earlier
          exact ⟨a, List.mem_append_left _ among, reason⟩
        · exact ⟨b, List.mem_append_right _ last, Or.inl rfl⟩
    · refine ⟨fun a member => List.mem_append_left _ (kept a member), fun b member => ?_⟩
      rcases List.mem_append.mp member with earlier | last
      · exact old b earlier
      · rw [List.mem_singleton.mp last]
        rw [keeps_iff, not_and_or] at keep
        push Not at keep
        rcases keep with ⟨d, among, same⟩ | late
        · rw [← same]
          exact old d among
        · obtain ⟨a, among, far⟩ := late
          exact ⟨a, among, Or.inr far⟩

/-- The window's own rule, over the numbers it has accepted, is the rule over arrivals. -/
theorem fresh_iff (arrived : List Attempt) (nonzero : a.sequence ≠ 0) :
    ReplayWindow.Fresh ((acceptedFrames arrived).map fun b => b.sequence).reverse a.sequence ↔
      keeps arrived (acceptedFrames arrived) a = true := by
  obtain ⟨kept, old⟩ := arrived_kept_or_old arrived
  have numbers (t : UInt64) : t ∈ ((acceptedFrames arrived).map fun b => b.sequence).reverse ↔
      ∃ b ∈ acceptedFrames arrived, b.sequence = t := by
    rw [List.mem_reverse, List.mem_map]
  rw [keeps_iff]
  constructor
  · rintro ⟨_, new, close⟩
    have recent (b : Attempt) (among : b ∈ acceptedFrames arrived) :=
      close b.sequence ((numbers _).mpr ⟨b, among, rfl⟩)
    refine ⟨fun b member same => ?_, recent⟩
    obtain ⟨c, among, equal | far⟩ := old b member
    · exact new ((numbers _).mpr ⟨c, among, equal.trans same⟩)
    · have := recent c among
      rw [same] at far
      omega
  · rintro ⟨first, recent⟩
    refine ⟨nonzero, fun member => ?_, fun t member => ?_⟩
    · obtain ⟨b, among, same⟩ := (numbers _).mp member
      exact first b (kept b among) same
    · obtain ⟨b, among, rfl⟩ := (numbers _).mp member
      exact recent b among

/-! The loop. -/

def Holding (limit : Nat) (opened arrived : List Attempt) : ReadPc → Prop
  | .readPacket => arrived = opened
  | .checkPacket packet => ∃ a, arrived = opened ++ [a] ∧ packet = a.frame
  | .reserve length sequence packet => ∃ a, arrived = opened ++ [a] ∧
      length = a.ciphertext.length ∧ sequence = a.sequence ∧ packet = some a.ciphertext
  | .openFrame _ sequence frame => ∃ a, arrived = opened ++ [a] ∧ sequence = a.sequence ∧
      frame = a.ciphertext
  | .release _ result => arrived = opened ∧ (result = .error .dataFrameReplay ∨
      ∃ t raw, result = .ok (t, raw) ∧ raw.length ≤ limit)
  | .recheck _ _ => arrived = opened
  | .writeBuffer _ => arrived = opened
  | _ => False

variable {P : Primitives}

/-- What the application has and what the loop holds for it are the payloads of the
frames kept among those opened. -/
structure Delivers (P : Primitives) (l : PacketLink) (opened : List Attempt) : Prop where
  packet : l.link.loop.packetMode = true
  matched : Matched l.link.channel.receiveCodec l.link.channel.receiveDirection
    l.link.sender.channel
  openable : ∀ a ∈ l.sent, a.sequence ≠ 0 ∧ a.toSealedFrame.Openable P
    l.link.channel.receiveCodec l.link.channel.receiveDirection l.link.loop.maxFrameSize
  known : ∀ a ∈ l.arrived, a ∈ l.sent
  tracks : ReplayWindow.Tracks l.link.channel.receiveWindow
    ((acceptedFrames opened).map fun b => b.sequence).reverse
  holding : Holding l.link.loop.maxFrameSize opened l.arrived l.link.pc
  data : l.link.taken ++ l.link.recvBuf.buf ++ carried l.link.pc = payload (acceptedFrames opened)

variable {l : PacketLink} {opened : List Attempt} {frameLimit : Int}

theorem Delivers.call (correct : P.AeadCorrect) (expansion : P.AeadExpansion)
    (d : Delivers P l opened) (within : frameLimit ≤ l.link.loop.maxFrameSize)
    (room : 41 ≤ l.link.loop.maxFrameSize) (c : FrameAlignment.Call) :
    Delivers P (l.call P frameLimit c) opened := by
  have sent : Matched l.link.channel.receiveCodec l.link.channel.receiveDirection
        (c.perform P frameLimit l.link.sender).channel ∧
      ∀ a ∈ c.attempts P frameLimit l.link.sender, a.sequence ≠ 0 ∧ a.toSealedFrame.Openable P
        l.link.channel.receiveCodec l.link.channel.receiveDirection l.link.loop.maxFrameSize := by
    cases c with
    | write ready timedOut fuel p =>
      exact Sender.attempts_openable correct expansion within ready timedOut fuel p d.matched
    | sendHeartbeat current =>
      exact Sender.heartbeatAttempts_openable correct expansion room current d.matched
  refine ⟨d.packet, sent.1, fun a member => ?_, fun a member => ?_, d.tracks, d.holding, d.data⟩
  · rcases List.mem_append.mp member with earlier | new
    · exact d.openable a earlier
    · exact sent.2 a new
  · exact List.mem_append_left _ (d.known a member)

theorem frame_length (a : Attempt) : a.frame.length = 16 + a.ciphertext.length := by
  simp only [Attempt.frame, SealedFrame.bytes, encodeFrame, frameHeaderSize,
    dataFrameSequenceSize, List.length_append, BigEndian.encode_length]

theorem received_frame {loop : ReadLoop} (fits : a.ciphertext.length ≤ loop.maxFrameSize) :
    loop.received a.frame false .readPacket = .checkPacket a.frame := by
  have length := frame_length a
  have whole : a.frame.take (loop.maxFrameSize + frameHeaderSize + dataFrameSequenceSize) =
      a.frame := by
    apply List.take_of_length_le
    simp only [frameHeaderSize, dataFrameSequenceSize]
    omega
  simp only [ReadLoop.received, whole, Bool.false_eq_true, if_false]
  rw [if_neg]
  simp only [frameHeaderSize]
  omega

theorem checkedPacket_frame {loop : ReadLoop} (nonempty : 0 < a.ciphertext.length)
    (fits : a.ciphertext.length ≤ loop.maxFrameSize) (machine : loop.maxFrameSize < 2 ^ 63) :
    loop.checkedPacket a.frame =
      match loop.role with
      | .server => .reserve a.ciphertext.length a.sequence (some a.ciphertext)
      | .client => .openFrame a.ciphertext.length a.sequence a.ciphertext := by
  have length := frame_length a
  have header : a.frame.take frameHeaderSize = BigEndian.encode 8 a.ciphertext.length := by
    simp [Attempt.frame, SealedFrame.bytes, encodeFrame, frameHeaderSize]
  have sequence : (a.frame.drop frameHeaderSize).take dataFrameSequenceSize =
      BigEndian.encode 8 a.sequence.toNat := by
    simp [Attempt.frame, SealedFrame.bytes, encodeFrame, frameHeaderSize, dataFrameSequenceSize]
  have body : a.frame.drop (frameHeaderSize + dataFrameSequenceSize) = a.ciphertext := by
    rw [← List.drop_drop]
    simp [Attempt.frame, SealedFrame.bytes, encodeFrame, frameHeaderSize, dataFrameSequenceSize]
  have size : BigEndian.decode (BigEndian.encode 8 a.ciphertext.length) = a.ciphertext.length :=
    BigEndian.decode_encode_of_lt (by omega)
  have whole : ¬ a.frame.length < frameHeaderSize := by
    simp only [frameHeaderSize]
    omega
  have framed : ¬ (a.frame.length < frameHeaderSize + dataFrameSequenceSize ∨
      a.ciphertext.length > loop.maxFrameSize ∨
      a.ciphertext.length ≠ a.frame.length - (frameHeaderSize + dataFrameSequenceSize)) := by
    simp only [frameHeaderSize, dataFrameSequenceSize]
    omega
  cases role : loop.role <;>
    simp only [ReadLoop.checkedPacket, header, sequence, body, size, role, if_neg whole,
      if_neg nonempty.ne', if_neg framed, StreamFraming.sequenceOf_encode]

theorem Delivers.arrive (d : Delivers P l opened) (i : Nat) : Delivers P (l.arrive i) opened := by
  unfold PacketLink.arrive
  split
  next a waiting found =>
    have member := List.mem_of_getElem? found
    have read : l.link.loop.received a.frame false .readPacket = .checkPacket a.frame :=
      received_frame (d.openable a member).2.fits
    have holding := d.holding
    have data := d.data
    rw [waiting] at holding data
    refine ⟨d.packet, d.matched, d.openable, fun b arrived => ?_, d.tracks, ?_, ?_⟩
    · rcases List.mem_append.mp arrived with earlier | last
      · exact d.known b earlier
      · rw [List.mem_singleton.mp last]
        exact member
    · simp only [read]
      exact ⟨a, by rw [show l.arrived = opened from holding], rfl⟩
    · simp only [read]
      exact data
  · exact d

theorem Delivers.move (d : Delivers P l opened) {pc : ReadPc} {recvBuf : RecvBuffer}
    {budget : Option ByteBudget} {refused : Bool}
    (holding : Holding l.link.loop.maxFrameSize opened l.arrived pc)
    (same : recvBuf.buf ++ carried pc = l.link.recvBuf.buf ++ carried l.link.pc) :
    Delivers P { l with link := { l.link with
      pc := pc, recvBuf := recvBuf, budget := budget, refused := refused } } opened := by
  refine ⟨d.packet, d.matched, d.openable, d.known, d.tracks, holding, ?_⟩
  simp only
  rw [List.append_assoc l.link.taken, same, ← List.append_assoc l.link.taken]
  exact d.data

theorem opened_holding {loop : ReadLoop} (packet : loop.packetMode = true) (opened : List Attempt)
    (length : Nat) (sequence : UInt64) (frame : Bytes)
    {result : Except Failure (DataFrameType × Bytes)}
    (known : result = .error .dataFrameReplay ∨
      ∃ t raw, result = .ok (t, raw) ∧ raw.length ≤ loop.maxFrameSize) :
    Holding loop.maxFrameSize opened opened (loop.opened result (.openFrame length sequence frame)) ∧
    carried (loop.opened result (.openFrame length sequence frame)) =
      match result with
      | .ok (.application, raw) => raw
      | _ => [] := by
  have home : loop.start = .readPacket := by simp [ReadLoop.start, packet]
  unfold ReadLoop.opened
  cases loop.role with
  | server =>
    refine ⟨⟨rfl, known⟩, ?_⟩
    rcases known with rfl | ⟨t, raw, rfl, _⟩
    · rfl
    · cases t <;> rfl
  | client =>
    rcases known with rfl | ⟨t, raw, rfl, small⟩
    · simp only [ReadLoop.checkFrame, packet, home, and_self, if_true]
      exact ⟨rfl, rfl⟩
    · simp only [ReadLoop.checkFrame, if_neg (Nat.not_lt.mpr small)]
      refine ⟨rfl, ?_⟩
      cases t <;> rfl

theorem Delivers.openFrame (d : Delivers P l opened) {length : Nat} {sequence : UInt64}
    {frame : Bytes} (at_pc : l.link.pc = .openFrame length sequence frame) :
    ∃ opened, Delivers P { l with link := l.link.advance P } opened := by
  have holding := d.holding
  have data := d.data
  rw [at_pc] at holding data
  obtain ⟨a, arrived, rfl, rfl⟩ := holding
  obtain ⟨nonzero, opens⟩ := d.openable a (d.known a (by rw [arrived]; simp))
  have window := (ReplayWindow.accept_spec d.tracks a.sequence).1.trans (fresh_iff opened nonzero)
  have history := acceptedFrames_snoc opened a
  simp only [carried, List.append_nil] at data
  refine ⟨opened ++ [a], ?_⟩
  cases keep : keeps opened (acceptedFrames opened) a with
  | true =>
    have accepted := window.mpr keep
    have tracks := (ReplayWindow.accept_true d.tracks accepted).2
    obtain ⟨next, carry⟩ := opened_holding d.packet (opened ++ [a]) length
      a.sequence a.ciphertext (Or.inr ⟨a.frameType, a.plaintext, rfl, opens.small⟩)
    rw [keep, if_pos rfl] at history
    simp only [Link.advance, at_pc,
      DataChannel.openFrame_decoded opens.decodes opens.beat nonzero accepted]
    refine ⟨d.packet, d.matched, d.openable, d.known, ?_, by simpa only [arrived] using next, ?_⟩
    · simpa only [history, List.map_append, List.map_singleton, List.reverse_append,
        List.reverse_singleton, List.singleton_append] using tracks
    · simp only [carry, data, history, payload, List.flatMap_append, List.flatMap_singleton]
      congr 1
      unfold SealedFrame.data
      cases a.frameType <;> rfl
  | false =>
    have refused : (l.link.channel.receiveWindow.accept a.sequence).1 = false := by
      rw [← Bool.not_eq_true, window, keep]
      exact Bool.false_ne_true
    obtain ⟨next, carry⟩ := opened_holding d.packet (opened ++ [a]) length
      a.sequence a.ciphertext (Or.inl rfl)
    rw [keep, if_neg Bool.false_ne_true] at history
    simp only [Link.advance, at_pc,
      DataChannel.openFrame_replayed opens.decodes opens.beat nonzero refused]
    refine ⟨d.packet, d.matched, d.openable, d.known, by rw [history]; exact d.tracks,
      by simpa only [arrived] using next, ?_⟩
    simp only [carry, data, history, List.append_nil]

theorem Delivers.advance (d : Delivers P l opened) (machine : l.link.loop.maxFrameSize < 2 ^ 63)
    (accepted : (l.link.advance P).refused = false) :
    ∃ opened, Delivers P { l with link := l.link.advance P } opened := by
  have holding := d.holding
  have home : l.link.loop.start = .readPacket := by simp [ReadLoop.start, d.packet]
  cases at_pc : l.link.pc with
  | readPacket =>
    rw [at_pc] at holding
    simp only [Link.advance, at_pc, ReadLoop.checked]
    exact ⟨opened, d.move holding (by rw [at_pc])⟩
  | checkPacket packet =>
    rw [at_pc] at holding
    obtain ⟨a, arrived, rfl⟩ := holding
    have opens := (d.openable a (d.known a (by rw [arrived]; simp))).2
    have checked := checkedPacket_frame opens.nonempty opens.fits machine
    simp only [Link.advance, at_pc, ReadLoop.checked, Bool.true_eq_false, if_false, checked]
    refine ⟨opened, ?_⟩
    cases l.link.loop.role with
    | server => exact d.move ⟨a, arrived, rfl, rfl, rfl⟩ (by rw [at_pc]; rfl)
    | client => exact d.move ⟨a, arrived, rfl, rfl⟩ (by rw [at_pc]; rfl)
  | reserve length sequence packet =>
    rw [at_pc] at holding
    obtain ⟨a, arrived, rfl, rfl, rfl⟩ := holding
    simp only [Link.advance, at_pc] at accepted ⊢
    cases answer : ByteBudget.reserve l.link.budget a.ciphertext.length with
    | mk granted budget =>
      cases granted with
      | false => simp [answer] at accepted
      | true =>
        exact ⟨opened, d.move ⟨a, arrived, rfl, rfl⟩ (by rw [at_pc]; rfl)⟩
  | openFrame length sequence frame => exact d.openFrame at_pc
  | release length result =>
    rw [at_pc] at holding
    obtain ⟨arrived, rfl | ⟨t, raw, rfl, small⟩⟩ := holding
    · simp only [Link.advance, at_pc, ReadLoop.released, ReadLoop.checkFrame, d.packet, home,
        and_self, if_true]
      exact ⟨opened, d.move arrived (by rw [at_pc]; rfl)⟩
    · simp only [Link.advance, at_pc, ReadLoop.released, ReadLoop.checkFrame,
        if_neg (Nat.not_lt.mpr small)]
      refine ⟨opened, d.move arrived ?_⟩
      rw [at_pc]
      cases t <;> rfl
  | recheck t raw =>
    rw [at_pc] at holding
    cases t with
    | heartbeat =>
      simp only [Link.advance, at_pc, ReadLoop.checked, home, Bool.true_eq_false, if_false, if_true]
      exact ⟨opened, d.move holding (by rw [at_pc]; rfl)⟩
    | application =>
      simp only [Link.advance, at_pc, ReadLoop.checked, Bool.true_eq_false, if_false, reduceCtorEq]
      exact ⟨opened, d.move holding (by rw [at_pc]; rfl)⟩
  | writeBuffer raw =>
    rw [at_pc] at holding
    simp only [Link.advance, at_pc] at accepted ⊢
    cases result : l.link.recvBuf.write l.link.budget raw with
    | mk answer rest =>
      cases answer with
      | error err => simp [result, Except.isOk, Except.toBool] at accepted
      | ok _ =>
        obtain ⟨_, _, _, after⟩ := RecvBuffer.write_ok result
        simp only [ReadLoop.wrote, home]
        refine ⟨opened, d.move holding ?_⟩
        rw [after, at_pc]
        simp [carried]
  | _ =>
    rw [at_pc] at holding
    exact holding.elim

theorem Delivers.step (correct : P.AeadCorrect) (expansion : P.AeadExpansion)
    (d : Delivers P l opened) (within : frameLimit ≤ l.link.loop.maxFrameSize)
    (room : 41 ≤ l.link.loop.maxFrameSize) (machine : l.link.loop.maxFrameSize < 2 ^ 63)
    (event : Event) (accepted : (l.step P frameLimit event).link.refused = false) :
    ∃ opened, Delivers P (l.step P frameLimit event) opened := by
  cases event with
  | call c => exact ⟨opened, d.call correct expansion within room c⟩
  | arrive i => exact ⟨opened, d.arrive i⟩
  | advance => exact d.advance machine accepted
  | setBudget used => exact ⟨opened, d.move d.holding rfl⟩
  | read size now =>
    refine ⟨opened, ?_⟩
    simp only [PacketLink.step, Link.step]
    split
    next data recvBuf budget done =>
      have moved : data ++ recvBuf.buf = l.link.recvBuf.buf := RecvBuffer.read_ok done
      refine ⟨d.packet, d.matched, d.openable, d.known, d.tracks, d.holding, ?_⟩
      rw [← d.data, ← moved]
      simp only [List.append_assoc]
    next err recvBuf budget done =>
      have same := RecvBuffer.read_error done
      exact d.move d.holding (by rw [same])
    · exact d

theorem step_kept (frameLimit : Int) (l : PacketLink) (event : Event) :
    (l.step P frameLimit event).link.loop = l.link.loop ∧
      ((l.step P frameLimit event).link.refused = false → l.link.refused = false) := by
  cases event with
  | call c => exact ⟨rfl, fun kept => kept⟩
  | arrive i =>
    simp only [PacketLink.step, PacketLink.arrive]
    split
    · exact ⟨rfl, fun kept => kept⟩
    · exact ⟨rfl, fun kept => kept⟩
  | advance => exact StreamFraming.advance_kept l.link
  | read size now => exact StreamFraming.step_kept (P := P) frameLimit l.link (.read size now)
  | setBudget used => exact StreamFraming.step_kept (P := P) frameLimit l.link (.setBudget used)

theorem run_delivers (correct : P.AeadCorrect) (expansion : P.AeadExpansion)
    (d : Delivers P l opened) (within : frameLimit ≤ l.link.loop.maxFrameSize)
    (room : 41 ≤ l.link.loop.maxFrameSize) (machine : l.link.loop.maxFrameSize < 2 ^ 63)
    (events : List Event) :
    (l.run P frameLimit events).link.loop = l.link.loop ∧
      ((l.run P frameLimit events).link.refused = false →
        ∃ opened, Delivers P (l.run P frameLimit events) opened) := by
  refine List.foldlRecOn (motive := fun current => current.link.loop = l.link.loop ∧
      (current.link.refused = false → ∃ opened, Delivers P current opened))
    events (PacketLink.step P frameLimit) ⟨rfl, fun _ => ⟨opened, d⟩⟩ ?_
  intro current ⟨same, delivers⟩ event _
  obtain ⟨kept, earlier⟩ := step_kept (P := P) frameLimit current event
  refine ⟨kept.trans same, fun accepted => ?_⟩
  obtain ⟨opened, d⟩ := delivers (earlier accepted)
  exact d.step correct expansion (by rwa [same]) (by rwa [same]) (by rwa [same]) event accepted

theorem start_delivers {typ : EncryptionType} {sessionKey aad : Bytes} {role : DataRole}
    {r₁ r₂ r₃ r₄ : Random} {sender receiver : DataChannel}
    (hs : DataChannel.new P typ sessionKey aad role r₁ r₂ = .ok sender)
    (hr : DataChannel.new P typ sessionKey aad role.peer r₃ r₄ = .ok receiver)
    (maxFrameSize : Nat) (bufferSize : Int) (budget : Option ByteBudget) :
    Delivers P (.start sender receiver role.peer maxFrameSize bufferSize budget) [] := by
  have flows := StreamFraming.start_flows hs hr maxFrameSize bufferSize budget
  exact ⟨rfl, flows.matched, fun a member => absurd member List.not_mem_nil,
    fun a member => absurd member List.not_mem_nil, flows.tracks, rfl, rfl⟩

theorem run_refused (events : List Event)
    (accepted : (l.run P frameLimit events).link.refused = false) : l.link.refused = false := by
  induction events generalizing l with
  | nil => exact accepted
  | cons event rest ih => exact (step_kept (P := P) frameLimit l event).2 (ih accepted)

theorem Holding.waiting {limit : Nat} {arrived : List Attempt} {pc : ReadPc}
    (holding : Holding limit opened arrived pc) (near : pc.remaining = 0) : pc = .readPacket := by
  cases pc with
  | readPacket => rfl
  | _ => first | exact holding.elim | cases near

theorem Delivers.returns (n : Nat) (d : Delivers P l opened)
    (machine : l.link.loop.maxFrameSize < 2 ^ 63) (near : l.link.pc.remaining ≤ n)
    (accepted : (l.run P frameLimit (List.replicate n .advance)).link.refused = false) :
    (l.run P frameLimit (List.replicate n .advance)).link.pc = .readPacket := by
  induction n generalizing l opened with
  | zero => exact d.holding.waiting (Nat.le_zero.mp near)
  | succ n ih =>
    rw [List.replicate_succ] at accepted ⊢
    have first : (l.link.advance P).refused = false :=
      run_refused (l := l.step P frameLimit .advance) (List.replicate n .advance) accepted
    obtain ⟨opened, next⟩ := d.advance machine first
    have closer := StreamFraming.advance_remaining (P := P) l.link
    have small : (l.link.advance P).loop.maxFrameSize < 2 ^ 63 := by
      rw [(StreamFraming.advance_kept l.link).1]
      exact machine
    have nearer : (l.link.advance P).pc.remaining ≤ n := by omega
    exact ih next small nearer accepted

/-- Packet-mode delivery. Unless the buffer or its budget refuses, no datagram ends the
loop, and between two of its reads the application was given the payloads of exactly the
data frames that the rule keeps, in the order of their arrival. -/
theorem packets_delivered (correct : P.AeadCorrect) (expansion : P.AeadExpansion)
    {typ : EncryptionType} {sessionKey aad : Bytes} {role : DataRole} {r₁ r₂ r₃ r₄ : Random}
    {sender receiver : DataChannel}
    (hs : DataChannel.new P typ sessionKey aad role r₁ r₂ = .ok sender)
    (hr : DataChannel.new P typ sessionKey aad role.peer r₃ r₄ = .ok receiver)
    {frameLimit : Int} {maxFrameSize : Nat} (valid : 1024 ≤ maxFrameSize)
    (within : frameLimit ≤ maxFrameSize) (machine : maxFrameSize < 2 ^ 63) (bufferSize : Int)
    (budget : Option ByteBudget) (events : List Event) (l : PacketLink)
    (reached : l = (PacketLink.start sender receiver role.peer maxFrameSize bufferSize
      budget).run P frameLimit events)
    (accepted : l.link.refused = false) :
    l.link.pc ≠ .finished ∧
    (l.link.pc = .readPacket →
      l.link.taken ++ l.link.recvBuf.buf = payload (acceptedFrames l.arrived)) ∧
    ((l.run P frameLimit (List.replicate 6 .advance)).link.refused = false →
      (l.run P frameLimit (List.replicate 6 .advance)).link.pc = .readPacket) := by
  obtain ⟨same, delivers⟩ := run_delivers correct expansion
    (start_delivers hs hr maxFrameSize bufferSize budget) within
    (show 41 ≤ maxFrameSize by omega) machine events
  rw [← reached] at same delivers
  obtain ⟨opened, d⟩ := delivers accepted
  have holding := d.holding
  refine ⟨fun broken => ?_, fun waiting => ?_, d.returns 6 (by rw [same]; exact machine)
    (ReadPc.remaining_le _)⟩
  · rw [broken] at holding
    exact holding
  · have data := d.data
    rw [waiting] at holding data
    rw [show l.arrived = opened from holding, ← data]
    simp only [carried, List.append_nil]

def sampleEvents : List Event :=
  let packet (i : Nat) : List Event := .arrive i :: List.replicate 6 .advance
  [.call (.write true false 3 [1, 2, 3]), .call (.sendHeartbeat true)] ++ packet 2 ++ packet 1 ++
    packet 1 ++ [.read 1 0] ++ packet 0

theorem packets_delivered_sample : ∃ sender receiver,
    DataChannel.new Plain.primitives .chacha20Poly1305 [7] [] .client UInt8.ofNat UInt8.ofNat =
      .ok sender ∧
    DataChannel.new Plain.primitives .chacha20Poly1305 [7] [] .server UInt8.ofNat UInt8.ofNat =
      .ok receiver ∧
    ∃ l, l = (PacketLink.start sender receiver .server 1024 100 (some ⟨200, 0, false⟩)).run
        Plain.primitives 66 sampleEvents ∧ l.link.refused = false ∧ l.arrived.length = 4 ∧
      l.link.taken = [3] ∧ l.link.recvBuf.buf = [1, 2] ∧ l.link.pc ≠ .finished := by
  have hs : DataChannel.new Plain.primitives .chacha20Poly1305 [7] [] .client UInt8.ofNat
      UInt8.ofNat = .ok _ := rfl
  have hr : DataChannel.new Plain.primitives .chacha20Poly1305 [7] [] .server UInt8.ofNat
      UInt8.ofNat = .ok _ := rfl
  refine ⟨_, _, hs, hr, _, rfl, by decide +kernel, by decide +kernel, by decide +kernel,
    by decide +kernel, ?_⟩
  exact (packets_delivered Plain.aeadCorrect Plain.aeadExpansion hs hr (by decide) (by decide)
    (by decide) 100 (some ⟨200, 0, false⟩) sampleEvents _ rfl (by decide +kernel)).1

end Telekit.PacketDelivery
