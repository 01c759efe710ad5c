import Telekit.FrameWriter
import Telekit.Library.Progress
import Telekit.PlainPrimitives
import Telekit.RecvBuffer

/-! One direction of a stream-mode connection: a sender whose `Write` and
`sendHeartbeat` calls follow one another, a reliable ordered transport, and the
reader loop of the other end with its receive buffer. Every `conn.Read` returns
as many bytes as the schedule says, so the bytes are cut in every possible way.
The application reads the buffer, and the other connections change the shared
budget, at any time.

Nothing is lost on the way, and once the writer rests everything arrives: whatever
else happens, turns of the transport and of the loop use up what is in flight. -/

namespace Telekit.StreamFraming

structure Link where
  sender : Sender
  loop : ReadLoop
  pc : ReadPc
  channel : DataChannel
  recvBuf : RecvBuffer
  budget : Option ByteBudget
  taken : Bytes := []
  written : Bytes := []
  refused : Bool := false

inductive Event
  | write (p : Bytes)
  | sendHeartbeat
  | receive (size : Nat)
  | advance
  | read (size : Nat) (now : Int)
  | setBudget (used : Int)

def want : ReadPc → Nat
  | .readHeader got => frameHeaderSize - got.length
  | .readSequence _ got => dataFrameSequenceSize - got.length
  | .readFrame length _ got => length - got.length
  | _ => 0

def waiting : ReadPc → Bool
  | .readHeader _ => true
  | .readSequence _ _ => true
  | .readFrame _ _ _ => true
  | _ => false

def Event.Quiet : Event → Prop
  | .write _ => False
  | .sendHeartbeat => False
  | _ => True

def turns (sizes : List Nat) : List (List Event) := sizes.map fun n => [.receive n, .advance]

variable (P : Primitives)

namespace Link

/-- Each byte in flight may complete a request, after which the loop is at most six
steps away from the next. -/
def backlog (l : Link) : Nat := 7 * l.sender.transport.inFlight.length + l.pc.remaining

def receive (l : Link) (size : Nat) : Link :=
  let n := min size (want l.pc)
  { l with
    pc := l.loop.received (l.sender.transport.inFlight.take n) false l.pc
    sender := { l.sender with
      transport := { l.sender.transport with inFlight := l.sender.transport.inFlight.drop n } } }

/-- The next step of the loop when it does not wait for the transport, which
stays the current one. -/
def advance (l : Link) : Link :=
  match l.pc with
  | .reserve length _ _ =>
    let (accepted, budget) := ByteBudget.reserve l.budget length
    { l with
      pc := ReadLoop.reserved accepted l.pc
      budget := budget
      refused := l.refused || !accepted }
  | .openFrame _ sequence frame =>
    let (result, channel) := l.channel.openFrame P sequence frame l.loop.maxFrameSize
    { l with pc := l.loop.opened result l.pc, channel := channel }
  | .release length _ =>
    { l with pc := l.loop.released l.pc, budget := ByteBudget.release l.budget length }
  | .abandon length =>
    { l with pc := l.loop.released l.pc, budget := ByteBudget.release l.budget length }
  | .writeBuffer raw =>
    let (result, recvBuf, budget) := l.recvBuf.write l.budget raw
    { l with
      pc := l.loop.wrote result l.pc
      recvBuf := recvBuf
      budget := budget
      refused := l.refused || !result.isOk }
  | pc => { l with pc := l.loop.checked true pc }

def write (frameLimit : Int) (l : Link) (p : Bytes) : Link :=
  match l.sender.write P true false frameLimit p.length p with
  | (.returned n _, sender) => { l with sender := sender, written := l.written ++ p.take n }
  | (_, sender) => { l with sender := sender }

def step (frameLimit : Int) (l : Link) : Event → Link
  | .write p => l.write P frameLimit p
  | .sendHeartbeat => { l with sender := (l.sender.sendHeartbeat P true).2 }
  | .receive size => l.receive size
  | .advance => l.advance P
  | .read size now =>
    match l.recvBuf.read l.budget size now with
    | some (.ok data, recvBuf, budget) =>
      { l with recvBuf := recvBuf, budget := budget, taken := l.taken ++ data }
    | some (.error _, recvBuf, budget) => { l with recvBuf := recvBuf, budget := budget }
    | none => l
  | .setBudget used => { l with budget := l.budget.map fun b => { b with used := used } }

def start (sender receiver : DataChannel) (loop : ReadLoop) (bufferSize : Int)
    (budget : Option ByteBudget) : Link where
  sender := ⟨sender, {}⟩
  loop := loop
  pc := loop.start
  channel := receiver
  recvBuf := .newWithLimit bufferSize
  budget := budget

def run (frameLimit : Int) (l : Link) (events : List Event) : Link :=
  events.foldl (step P frameLimit) l

end Link

def carried : ReadPc → Bytes
  | .release _ (.ok (.application, raw)) => raw
  | .recheck .application raw => raw
  | .writeBuffer raw => raw
  | _ => []

/-- What the loop has read and what is in flight are together the frames it has
not opened yet. -/
def Expecting (limit : Nat) (inFlight : Bytes) (frames : List SealedFrame) : ReadPc → Prop
  | .readHeader got => got.length < 8 ∧ got ++ inFlight = SealedFrame.wire frames
  | .checkHeader length => ∃ f rest, frames = f :: rest ∧ length = f.ciphertext.length ∧
      inFlight = BigEndian.encode 8 f.sequence.toNat ++ (f.ciphertext ++ SealedFrame.wire rest)
  | .readSequence length got => ∃ f rest, frames = f :: rest ∧ length = f.ciphertext.length ∧
      got.length < 8 ∧ got ++ inFlight =
        BigEndian.encode 8 f.sequence.toNat ++ (f.ciphertext ++ SealedFrame.wire rest)
  | .reserve length sequence packet => ∃ f rest, frames = f :: rest ∧
      length = f.ciphertext.length ∧ sequence = f.sequence ∧ packet = none ∧
      inFlight = f.ciphertext ++ SealedFrame.wire rest
  | .readFrame length sequence got => ∃ f rest, frames = f :: rest ∧
      length = f.ciphertext.length ∧ sequence = f.sequence ∧ got.length < length ∧
      got ++ inFlight = f.ciphertext ++ SealedFrame.wire rest
  | .openFrame _ sequence frame => ∃ f rest, frames = f :: rest ∧ sequence = f.sequence ∧
      frame = f.ciphertext ∧ inFlight = SealedFrame.wire rest
  | .release _ result => (∃ t raw, result = .ok (t, raw) ∧ raw.length ≤ limit) ∧
      inFlight = SealedFrame.wire frames
  | .recheck _ _ => inFlight = SealedFrame.wire frames
  | .writeBuffer _ => inFlight = SealedFrame.wire frames
  | _ => False

/-- Everything written is, in order, with the application, in the buffer, in
the loop's hands or in frames that will open. -/
structure Flows (l : Link) (frames : List SealedFrame) (history : List UInt64) : Prop where
  stream : l.loop.packetMode = false
  clean : l.sender.transport.results = []
  matched : Matched l.channel.receiveCodec l.channel.receiveDirection l.sender.channel
  openable : ∀ f ∈ frames,
    f.Openable P l.channel.receiveCodec l.channel.receiveDirection l.loop.maxFrameSize
  ordered : frames.Pairwise fun f g => f.sequence.toNat < g.sequence.toNat
  numbered : ∀ f ∈ frames, 0 < f.sequence.toNat ∧
    f.sequence.toNat ≤ l.sender.channel.sendSequence.toNat
  tracks : ReplayWindow.Tracks l.channel.receiveWindow history
  past : ∀ t ∈ history, t.toNat ≤ l.sender.channel.sendSequence.toNat ∧
    ∀ f ∈ frames, t.toNat < f.sequence.toNat
  expecting : Expecting l.loop.maxFrameSize l.sender.transport.inFlight frames l.pc
  data : l.taken ++ l.recvBuf.buf ++ carried l.pc ++ SealedFrame.stream frames = l.written

variable {P}

theorem wire_cons (f : SealedFrame) (rest : List SealedFrame) :
    SealedFrame.wire (f :: rest) = BigEndian.encode 8 f.ciphertext.length ++
      (BigEndian.encode 8 f.sequence.toNat ++ (f.ciphertext ++ SealedFrame.wire rest)) := by
  simp [SealedFrame.wire, SealedFrame.bytes, encodeFrame, frameHeaderSize, dataFrameSequenceSize]

variable {frames : List SealedFrame} {inFlight : Bytes} {pc : ReadPc} {limit : Nat}

theorem Expecting.append {new : List SealedFrame} (e : Expecting limit inFlight frames pc) :
    Expecting limit (inFlight ++ SealedFrame.wire new) (frames ++ new) pc := by
  have wires (a : List SealedFrame) : SealedFrame.wire a ++ SealedFrame.wire new =
      SealedFrame.wire (a ++ new) := (SealedFrame.wire_append a new).symm
  cases pc with
  | readHeader got =>
    refine ⟨e.1, ?_⟩
    rw [← List.append_assoc, e.2, wires]
  | checkHeader length =>
    obtain ⟨f, rest, rfl, size, flight⟩ := e
    exact ⟨f, rest ++ new, rfl, size, by rw [flight, List.append_assoc, List.append_assoc, wires]⟩
  | readSequence length got =>
    obtain ⟨f, rest, rfl, size, short, flight⟩ := e
    refine ⟨f, rest ++ new, rfl, size, short, ?_⟩
    rw [← List.append_assoc, flight, List.append_assoc, List.append_assoc, wires]
  | reserve length sequence packet =>
    obtain ⟨f, rest, rfl, size, number, stream, flight⟩ := e
    exact ⟨f, rest ++ new, rfl, size, number, stream, by rw [flight, List.append_assoc, wires]⟩
  | readFrame length sequence got =>
    obtain ⟨f, rest, rfl, size, number, short, flight⟩ := e
    refine ⟨f, rest ++ new, rfl, size, number, short, ?_⟩
    rw [← List.append_assoc, flight, List.append_assoc, wires]
  | openFrame length sequence frame =>
    obtain ⟨f, rest, rfl, number, content, flight⟩ := e
    exact ⟨f, rest ++ new, rfl, number, content, by rw [flight, wires]⟩
  | release length result => exact ⟨e.1, by rw [e.2, wires]⟩
  | recheck | writeBuffer => exact (congrArg (· ++ SealedFrame.wire new) e).trans (wires frames)
  | _ => exact e.elim

/-- One read inside `io.ReadFull` for the bytes `x`: nothing is lost, and when
the request is complete it has read exactly `x`. -/
theorem readFull_split {got x y : Bytes} {n : Nat} (whole : got ++ inFlight = x ++ y)
    (within : n ≤ x.length - got.length) :
    got ++ (inFlight.take n).take (x.length - got.length) ++ inFlight.drop n = x ++ y ∧
      (x.length ≤ (got ++ (inFlight.take n).take (x.length - got.length)).length →
        got.length < x.length →
        got ++ (inFlight.take n).take (x.length - got.length) = x ∧ inFlight.drop n = y) := by
  have chunk : (inFlight.take n).take (x.length - got.length) = inFlight.take n := by
    rw [List.take_take, Nat.min_eq_right within]
  have kept : got ++ inFlight.take n ++ inFlight.drop n = x ++ y := by
    rw [List.append_assoc, List.take_append_drop, whole]
  rw [chunk]
  refine ⟨kept, fun full short => List.append_inj kept ?_⟩
  simp only [List.length_append, List.length_take] at full ⊢
  omega

theorem sequenceOf_encode (sequence : UInt64) :
    ReadLoop.sequenceOf (BigEndian.encode 8 sequence.toNat) = sequence := by
  have decoded : BigEndian.decode (BigEndian.encode 8 sequence.toNat) = sequence.toNat :=
    BigEndian.decode_encode_of_lt (by simpa using sequence.toNat_lt)
  rw [ReadLoop.sequenceOf, decoded, UInt64.ofNat_toNat]

theorem Expecting.received {loop : ReadLoop} (machine : loop.maxFrameSize < 2 ^ 63)
    (fits : ∀ f ∈ frames, 0 < f.ciphertext.length ∧ f.ciphertext.length ≤ loop.maxFrameSize)
    (e : Expecting loop.maxFrameSize inFlight frames pc) {n : Nat} (within : n ≤ want pc) :
    Expecting loop.maxFrameSize (inFlight.drop n) frames
      (loop.received (inFlight.take n) false pc) ∧
    carried (loop.received (inFlight.take n) false pc) = carried pc := by
  cases pc with
  | readHeader got =>
    obtain ⟨short, whole⟩ := e
    simp only [ReadLoop.received, frameHeaderSize, want, Bool.false_eq_true, if_false] at within ⊢
    cases frames with
    | nil =>
      have empty : got ++ inFlight = [] := whole
      simp only [List.append_eq_nil_iff] at empty
      simp [empty.1, empty.2, Expecting, SealedFrame.wire, carried]
    | cons f rest =>
      have size := fits f (by simp)
      rw [wire_cons] at whole
      obtain ⟨kept, complete⟩ := readFull_split whole (by simpa using within)
      simp only [BigEndian.encode_length] at kept complete
      split_ifs with full
      · obtain ⟨header, flight⟩ := complete full short
        refine ⟨⟨f, rest, rfl, ?_, flight⟩, rfl⟩
        rw [header]
        exact BigEndian.decode_encode_of_lt (by omega)
      · refine ⟨⟨by omega, ?_⟩, rfl⟩
        rw [kept, wire_cons]
  | readSequence length got =>
    obtain ⟨f, rest, rfl, size, short, whole⟩ := e
    simp only [ReadLoop.received, dataFrameSequenceSize, want, Bool.false_eq_true,
      if_false] at within ⊢
    have bounds := fits f (by simp)
    obtain ⟨kept, complete⟩ := readFull_split whole (by simpa using within)
    simp only [BigEndian.encode_length] at kept complete
    split_ifs with full
    · obtain ⟨number, flight⟩ := complete full short
      rw [number, sequenceOf_encode]
      cases loop.role with
      | server => exact ⟨⟨f, rest, rfl, size, rfl, rfl, flight⟩, rfl⟩
      | client => exact ⟨⟨f, rest, rfl, size, rfl, by simp; omega, by simpa using flight⟩, rfl⟩
    · exact ⟨⟨f, rest, rfl, size, by omega, kept⟩, rfl⟩
  | readFrame length sequence got =>
    obtain ⟨f, rest, rfl, rfl, number, short, whole⟩ := e
    simp only [ReadLoop.received, want, Bool.false_eq_true, if_false] at within ⊢
    obtain ⟨kept, complete⟩ := readFull_split whole within
    split_ifs with full
    · obtain ⟨content, flight⟩ := complete full short
      exact ⟨⟨f, rest, rfl, number, content, flight⟩, rfl⟩
    · exact ⟨⟨f, rest, rfl, rfl, number, by omega, kept⟩, rfl⟩
  | readPacket => exact e.elim
  | _ =>
    obtain rfl : n = 0 := by simpa [want] using within
    exact ⟨by simpa [ReadLoop.received] using e, rfl⟩

variable {l : Link} {history : List UInt64}

theorem Flows.emit {new : List SealedFrame}
    (fl : Flows P l frames history) {sender : Sender}
    (emits : Emits P l.channel.receiveCodec l.channel.receiveDirection l.loop.maxFrameSize
      l.sender sender new) :
    Flows P { l with sender := sender, written := l.written ++ SealedFrame.stream new }
      (frames ++ new) history where
  stream := fl.stream
  clean := emits.clean
  matched := emits.matched
  openable f member := by
    rcases List.mem_append.mp member with old | fresh
    · exact fl.openable f old
    · exact emits.openable f fresh
  ordered := by
    refine List.pairwise_append.mpr ⟨fl.ordered, emits.ordered, fun f hf g hg => ?_⟩
    have old := fl.numbered f hf
    have fresh := emits.later g hg
    omega
  numbered f member := by
    have forward := emits.forward
    rcases List.mem_append.mp member with old | fresh
    · have := fl.numbered f old
      exact ⟨this.1, Nat.le_trans this.2 forward⟩
    · have := emits.later f fresh
      exact ⟨by omega, this.2⟩
  tracks := fl.tracks
  past t member := by
    have before := fl.past t member
    refine ⟨Nat.le_trans before.1 emits.forward, fun f inFrames => ?_⟩
    rcases List.mem_append.mp inFrames with old | fresh
    · exact before.2 f old
    · have := emits.later f fresh
      omega
  expecting := by
    simp only [emits.bytes]
    exact fl.expecting.append
  data := by
    simp only [SealedFrame.stream_append, ← fl.data, List.append_assoc]

theorem Flows.write (correct : P.AeadCorrect) (expansion : P.AeadExpansion)
    (fl : Flows P l frames history) {frameLimit : Int} (above : 64 < frameLimit)
    (within : frameLimit ≤ l.loop.maxFrameSize) (p : Bytes) :
    ∃ frames, Flows P (l.write P frameLimit p) frames history := by
  obtain ⟨n, err, sender, new, result, emits, content, _, _⟩ :=
    Sender.write_emits correct expansion above within p fl.matched fl.clean
  refine ⟨frames ++ new, ?_⟩
  simp only [Link.write, result, ← content]
  exact fl.emit emits

theorem Flows.sendHeartbeat (correct : P.AeadCorrect) (expansion : P.AeadExpansion)
    (fl : Flows P l frames history) (room : 41 ≤ l.loop.maxFrameSize) :
    ∃ frames, Flows P { l with sender := (l.sender.sendHeartbeat P true).2 } frames history := by
  obtain ⟨new, emits, silent⟩ :=
    Sender.sendHeartbeat_emits correct expansion room fl.matched fl.clean
  have after := fl.emit emits
  rw [silent, List.append_nil] at after
  exact ⟨_, after⟩

theorem Flows.receive (fl : Flows P l frames history) (machine : l.loop.maxFrameSize < 2 ^ 63)
    (size : Nat) : Flows P (l.receive size) frames history := by
  have fits f (member : f ∈ frames) := And.intro (fl.openable f member).nonempty
    (fl.openable f member).fits
  obtain ⟨expecting, same⟩ := fl.expecting.received machine fits (Nat.min_le_right size (want l.pc))
  refine ⟨fl.stream, fl.clean, fl.matched, fl.openable, fl.ordered, fl.numbered, fl.tracks,
    fl.past, expecting, ?_⟩
  simp only [Link.receive, same]
  exact fl.data

theorem Flows.read (fl : Flows P l frames history) {size : Nat} {now : Int} {data : Bytes}
    {recvBuf : RecvBuffer} {budget : Option ByteBudget}
    (ok : l.recvBuf.read l.budget size now = some (.ok data, recvBuf, budget)) :
    Flows P { l with recvBuf := recvBuf, budget := budget, taken := l.taken ++ data }
      frames history := by
  have moved : data ++ recvBuf.buf = l.recvBuf.buf := RecvBuffer.read_ok ok
  refine ⟨fl.stream, fl.clean, fl.matched, fl.openable, fl.ordered, fl.numbered, fl.tracks,
    fl.past, fl.expecting, ?_⟩
  simp only [List.append_assoc] at moved ⊢
  rw [← fl.data, ← moved]
  simp only [List.append_assoc]

theorem Flows.move (fl : Flows P l frames history) {recvBuf : RecvBuffer}
    {budget : Option ByteBudget} {refused : Bool}
    (expecting : Expecting l.loop.maxFrameSize l.sender.transport.inFlight frames pc)
    (same : recvBuf.buf ++ carried pc = l.recvBuf.buf ++ carried l.pc) :
    Flows P { l with pc := pc, recvBuf := recvBuf, budget := budget, refused := refused }
      frames history := by
  refine ⟨fl.stream, fl.clean, fl.matched, fl.openable, fl.ordered, fl.numbered, fl.tracks,
    fl.past, expecting, ?_⟩
  simp only
  rw [List.append_assoc l.taken, same, ← List.append_assoc l.taken]
  exact fl.data

theorem Flows.openFrame (fl : Flows P l frames history) {length : Nat} {sequence : UInt64}
    {frame : Bytes} (at_pc : l.pc = .openFrame length sequence frame) :
    ∃ frames history, Flows P (l.advance P) frames history := by
  have expecting := fl.expecting
  rw [at_pc] at expecting
  obtain ⟨f, rest, rfl, rfl, rfl, flight⟩ := expecting
  have opens := fl.openable f (by simp)
  have number := fl.numbered f (by simp)
  have fresh : ReplayWindow.Fresh history f.sequence := by
    refine ⟨fun zero => ?_, fun old => ?_, fun t old => ?_⟩
    · simp [zero] at number
    · exact Nat.lt_irrefl _ ((fl.past _ old).2 f (by simp))
    · have := (fl.past t old).2 f (by simp)
      omega
  have accepted := (ReplayWindow.accept_spec fl.tracks f.sequence).1.mpr fresh
  have tracks := (ReplayWindow.accept_true fl.tracks accepted).2
  have opened := DataChannel.openFrame_decoded opens.decodes opens.beat fresh.1 accepted
  have later g (member : g ∈ rest) := List.rel_of_pairwise_cons fl.ordered member
  have released (role : l.loop.role = .server) :
      l.loop.opened (.ok (f.frameType, f.plaintext)) l.pc =
        .release length (.ok (f.frameType, f.plaintext)) := by
    rw [at_pc]
    simp only [ReadLoop.opened, role]
  have rechecked (role : l.loop.role = .client) :
      l.loop.opened (.ok (f.frameType, f.plaintext)) l.pc = .recheck f.frameType f.plaintext := by
    rw [at_pc]
    simp only [ReadLoop.opened, role, ReadLoop.checkFrame, if_neg (Nat.not_lt.mpr opens.small)]
  have state : l.advance P = { l with
      pc := l.loop.opened (.ok (f.frameType, f.plaintext)) l.pc
      channel := { l.channel with
        receiveWindow := (l.channel.receiveWindow.accept f.sequence).2 } } := by
    simp only [Link.advance, at_pc, opened]
  rw [state]
  refine ⟨rest, f.sequence :: history, fl.stream, fl.clean, fl.matched,
    fun g member => fl.openable g (List.mem_cons_of_mem _ member),
    (List.pairwise_cons.mp fl.ordered).2,
    fun g member => fl.numbered g (List.mem_cons_of_mem _ member), tracks, ?_, ?_, ?_⟩
  · intro t member
    rcases List.mem_cons.mp member with rfl | old
    · exact ⟨number.2, later⟩
    · exact ⟨(fl.past t old).1, fun g inRest => (fl.past t old).2 g (List.mem_cons_of_mem _ inRest)⟩
  · cases role : l.loop.role with
    | server =>
      simp only [released role]
      exact ⟨⟨_, _, rfl, opens.small⟩, flight⟩
    | client =>
      simp only [rechecked role]
      exact flight
  · have data := fl.data
    have carry : carried (l.loop.opened (.ok (f.frameType, f.plaintext)) l.pc) = f.data := by
      cases role : l.loop.role with
      | server =>
        rw [released role]
        cases typ : f.frameType <;> simp [carried, SealedFrame.data, typ]
      | client =>
        rw [rechecked role]
        cases typ : f.frameType <;> simp [carried, SealedFrame.data, typ]
    simp only [carry]
    rw [← data, at_pc]
    simp [carried, SealedFrame.stream]

theorem advance_waiting (h : waiting l.pc = true) : l.advance P = l := by
  obtain ⟨sender, loop, pc, channel, recvBuf, budget, taken, written, refused⟩ := l
  cases pc <;> simp_all [waiting, Link.advance, ReadLoop.checked]

theorem Flows.advance (fl : Flows P l frames history) (accepted : (l.advance P).refused = false) :
    ∃ frames history, Flows P (l.advance P) frames history := by
  have expecting := fl.expecting
  have home : l.loop.start = .readHeader [] := by simp [ReadLoop.start, fl.stream]
  cases at_pc : l.pc with
  | readHeader | readSequence | readFrame =>
    exact ⟨frames, history, by rwa [advance_waiting (by rw [at_pc]; rfl)]⟩
  | checkHeader length =>
    rw [at_pc] at expecting
    obtain ⟨f, rest, rfl, rfl, flight⟩ := expecting
    have opens := fl.openable f (by simp)
    have next : l.loop.checked true l.pc = .readSequence f.ciphertext.length [] := by
      have nonempty := opens.nonempty
      have fits := opens.fits
      rw [at_pc, ReadLoop.checked, if_neg (by simp), if_neg (by omega), if_neg (by omega)]
    refine ⟨f :: rest, history, ?_⟩
    simp only [Link.advance, at_pc] at next ⊢
    rw [next]
    exact fl.move ⟨f, rest, rfl, rfl, by simp, flight⟩ (by rw [at_pc]; rfl)
  | reserve length sequence packet =>
    rw [at_pc] at expecting
    obtain ⟨f, rest, rfl, rfl, rfl, rfl, flight⟩ := expecting
    have opens := fl.openable f (by simp)
    simp only [Link.advance, at_pc] at accepted ⊢
    cases answer : ByteBudget.reserve l.budget f.ciphertext.length with
    | mk granted budget =>
      cases granted with
      | false => simp [answer] at accepted
      | true =>
        exact ⟨f :: rest, history, fl.move ⟨f, rest, rfl, rfl, rfl, opens.nonempty, flight⟩
          (by rw [at_pc]; rfl)⟩
  | openFrame length sequence frame => exact fl.openFrame at_pc
  | release length result =>
    rw [at_pc] at expecting
    obtain ⟨⟨t, raw, rfl, small⟩, flight⟩ := expecting
    have next : l.loop.released l.pc = .recheck t raw := by
      simp only [at_pc, ReadLoop.released, ReadLoop.checkFrame, if_neg (Nat.not_lt.mpr small)]
    refine ⟨frames, history, ?_⟩
    simp only [Link.advance, at_pc] at next ⊢
    rw [next]
    refine fl.move flight ?_
    rw [at_pc]
    cases t <;> rfl
  | recheck t raw =>
    rw [at_pc] at expecting
    refine ⟨frames, history, ?_⟩
    simp only [Link.advance, at_pc]
    cases t with
    | heartbeat =>
      simp only [ReadLoop.checked, home, Bool.true_eq_false, if_false, if_true]
      exact fl.move ⟨by simp, expecting⟩ (by rw [at_pc]; rfl)
    | application =>
      simp only [ReadLoop.checked, Bool.true_eq_false, if_false, reduceCtorEq]
      exact fl.move expecting (by rw [at_pc]; rfl)
  | writeBuffer raw =>
    rw [at_pc] at expecting
    simp only [Link.advance, at_pc] at accepted ⊢
    cases result : l.recvBuf.write l.budget raw with
    | mk answer rest =>
      cases answer with
      | error err => simp [result, Except.isOk, Except.toBool] at accepted
      | ok _ =>
        obtain ⟨_, _, _, after⟩ := RecvBuffer.write_ok result
        refine ⟨frames, history, ?_⟩
        simp only [ReadLoop.wrote, home]
        refine fl.move ⟨by simp, expecting⟩ ?_
        rw [after, at_pc]
        simp [carried]
  | _ =>
    rw [at_pc] at expecting
    exact expecting.elim

theorem advance_kept (l : Link) :
    (l.advance P).loop = l.loop ∧ ((l.advance P).refused = false → l.refused = false) := by
  unfold Link.advance
  split <;> simp_all

theorem step_kept (frameLimit : Int) (l : Link) (event : Event) :
    (l.step P frameLimit event).loop = l.loop ∧
      ((l.step P frameLimit event).refused = false → l.refused = false) := by
  cases event with
  | advance => exact advance_kept l
  | write p =>
    simp only [Link.step, Link.write]
    split <;> exact ⟨rfl, id⟩
  | read size now =>
    simp only [Link.step]
    split <;> exact ⟨rfl, id⟩
  | _ => exact ⟨rfl, id⟩

variable {event : Event}

theorem Flows.step (correct : P.AeadCorrect) (expansion : P.AeadExpansion)
    (fl : Flows P l frames history) {frameLimit : Int} (above : 64 < frameLimit)
    (within : frameLimit ≤ l.loop.maxFrameSize) (machine : l.loop.maxFrameSize < 2 ^ 63)
    (accepted : (l.step P frameLimit event).refused = false) :
    ∃ frames history, Flows P (l.step P frameLimit event) frames history := by
  cases event with
  | write p =>
    obtain ⟨frames, after⟩ := fl.write correct expansion above within p
    exact ⟨frames, history, after⟩
  | sendHeartbeat =>
    obtain ⟨frames, after⟩ := fl.sendHeartbeat correct expansion (by omega)
    exact ⟨frames, history, after⟩
  | receive size => exact ⟨frames, history, fl.receive machine size⟩
  | advance => exact fl.advance accepted
  | read size now =>
    simp only [Link.step]
    split
    next done => exact ⟨frames, history, fl.read done⟩
    next err recvBuf budget done =>
      have same := RecvBuffer.read_error done
      exact ⟨frames, history, fl.move fl.expecting (by rw [same])⟩
    · exact ⟨frames, history, fl⟩
  | setBudget used => exact ⟨frames, history, fl.move fl.expecting rfl⟩

theorem start_flows {typ : EncryptionType} {sessionKey aad : Bytes} {role : DataRole}
    {r₁ r₂ r₃ r₄ : Random} {sender receiver : DataChannel}
    (hs : DataChannel.new P typ sessionKey aad role r₁ r₂ = .ok sender)
    (hr : DataChannel.new P typ sessionKey aad role.peer r₃ r₄ = .ok receiver)
    (maxFrameSize : Nat) (bufferSize : Int) (budget : Option ByteBudget) :
    Flows P (Link.start sender receiver ⟨role.peer, false, maxFrameSize⟩ bufferSize budget) [] [] := by
  obtain ⟨sendKey, _, derived, _, sendCodec, _, direction, _, _, _⟩ := DataChannel.new_ok hs
  obtain ⟨_, receiveKey, _, derived', _, receiveCodec, _, direction', _, window⟩ :=
    DataChannel.new_ok hr
  have opposite : role.peer.receiveDirection = role.sendDirection := by cases role <;> rfl
  have keys : receiveKey = sendKey := by
    rw [opposite, derived] at derived'
    exact (Except.ok.inj derived').symm
  rw [keys] at receiveCodec
  obtain ⟨_, _, codec⟩ := Codec.new_ok sendCodec
  have bound := EncryptionKit.nonceSize_le typ
  refine ⟨rfl, rfl, ⟨Codec.new_sameKey sendCodec receiveCodec, ?_, ?_⟩, by simp, by simp, by simp,
    ?_, by simp, ⟨by simp, rfl⟩, rfl⟩
  · simp only [Link.start, direction, direction', opposite]
  · refine ⟨_, congrArg Codec.encryptionKit codec, ?_⟩
    simp only [Random.read_length, nonceCounterSize]
    omega
  · simpa [Link.start, window] using ReplayWindow.tracks_empty

structure Sound (P : Primitives) (loop : ReadLoop) (l : Link) : Prop where
  loop : l.loop = loop
  flows : l.refused = false → ∃ frames history, Flows P l frames history

section Runs
variable (correct : P.AeadCorrect) (expansion : P.AeadExpansion) {frameLimit : Int}
  (above : 64 < frameLimit) {loop : ReadLoop} (within : frameLimit ≤ loop.maxFrameSize)
  (machine : loop.maxFrameSize < 2 ^ 63)
include correct expansion above within machine

theorem Sound.step (sound : Sound P loop l) (event : Event) :
    Sound P loop (l.step P frameLimit event) := by
  obtain ⟨kept, earlier⟩ := step_kept (P := P) frameLimit l event
  refine ⟨kept.trans sound.loop, fun accepted => ?_⟩
  obtain ⟨frames, history, fl⟩ := sound.flows (earlier accepted)
  exact fl.step correct expansion above (by rwa [sound.loop]) (by rwa [sound.loop]) accepted

theorem Sound.run (sound : Sound P loop l) (events : List Event) :
    Sound P loop (l.run P frameLimit events) :=
  List.foldlRecOn events (Link.step P frameLimit) sound fun _ current event _ =>
    current.step correct expansion above within machine event

end Runs

theorem start_sound {typ : EncryptionType} {sessionKey aad : Bytes} {role : DataRole}
    {r₁ r₂ r₃ r₄ : Random} {sender receiver : DataChannel}
    (hs : DataChannel.new P typ sessionKey aad role r₁ r₂ = .ok sender)
    (hr : DataChannel.new P typ sessionKey aad role.peer r₃ r₄ = .ok receiver)
    (maxFrameSize : Nat) (bufferSize : Int) (budget : Option ByteBudget) :
    Sound P ⟨role.peer, false, maxFrameSize⟩
      (.start sender receiver ⟨role.peer, false, maxFrameSize⟩ bufferSize budget) :=
  ⟨rfl, fun _ => ⟨[], [], start_flows hs hr maxFrameSize bufferSize budget⟩⟩

theorem Flows.settled (fl : Flows P l frames history) (empty : l.sender.transport.inFlight = [])
    (idle : waiting l.pc = true) : l.taken ++ l.recvBuf.buf = l.written := by
  have expecting := fl.expecting
  have data := fl.data
  rw [empty] at expecting
  cases at_pc : l.pc with
  | readHeader got =>
    rw [at_pc] at expecting data
    obtain ⟨short, whole⟩ := expecting
    cases frames with
    | nil => simpa [carried, SealedFrame.stream] using data
    | cons f rest =>
      have size := congrArg List.length whole
      rw [wire_cons] at size
      simp only [List.append_nil, List.length_append, BigEndian.encode_length] at size
      omega
  | readSequence length got =>
    rw [at_pc] at expecting
    obtain ⟨f, rest, _, _, short, whole⟩ := expecting
    have size := congrArg List.length whole
    simp only [List.append_nil, List.length_append, BigEndian.encode_length] at size
    omega
  | readFrame length sequence got =>
    rw [at_pc] at expecting
    obtain ⟨f, rest, _, _, _, short, whole⟩ := expecting
    have size := congrArg List.length whole
    simp only [List.append_nil, List.length_append] at size
    omega
  | _ => simp [at_pc, waiting] at idle

theorem advance_remaining (l : Link) :
    (l.advance P).pc.remaining ≤ l.pc.remaining - 1 := by
  unfold Link.advance
  cases at_pc : l.pc with
  | checkHeader length => exact l.loop.checkHeader_remaining true length
  | checkPacket packet => exact l.loop.checkPacket_remaining true packet
  | reserve length sequence packet => exact ReadLoop.reserved_remaining _ length sequence packet
  | openFrame length sequence frame => exact l.loop.opened_remaining _ length sequence frame
  | release length result => exact l.loop.checkFrame_remaining result
  | recheck frameType raw => exact l.loop.recheck_remaining true frameType raw
  | writeBuffer raw => exact Nat.le_of_eq (l.loop.wrote_remaining _ raw)
  | _ => exact Nat.le_refl 0

theorem Expecting.waiting_iff (e : Expecting limit inFlight frames pc) :
    waiting pc = true ↔ pc.remaining = 0 := by
  cases pc with
  | readPacket | abandon | finished => exact e.elim
  | _ => simp [waiting, ReadPc.remaining]

theorem Expecting.want_pos (e : Expecting limit inFlight frames pc) (idle : waiting pc = true) :
    0 < want pc := by
  cases pc with
  | readHeader got => exact Nat.sub_pos_of_lt e.1
  | readSequence length got =>
    obtain ⟨_, _, _, _, short, _⟩ := e
    exact Nat.sub_pos_of_lt short
  | readFrame length sequence got =>
    obtain ⟨_, _, _, _, _, short, _⟩ := e
    exact Nat.sub_pos_of_lt short
  | _ => cases idle

theorem Expecting.received_nil (e : Expecting limit inFlight frames pc) (loop : ReadLoop) :
    loop.received [] false pc = pc := by
  cases pc with
  | readHeader got =>
    have short : ¬ got.length ≥ frameHeaderSize := Nat.not_le.mpr e.1
    simp [ReadLoop.received, short]
  | readSequence length got =>
    obtain ⟨_, _, _, _, less, _⟩ := e
    have short : ¬ got.length ≥ dataFrameSequenceSize := Nat.not_le.mpr less
    simp [ReadLoop.received, short]
  | readFrame length sequence got =>
    obtain ⟨_, _, _, _, _, less, _⟩ := e
    have short : ¬ got.length ≥ length := Nat.not_le.mpr less
    simp [ReadLoop.received, short]
  | readPacket => exact e.elim
  | _ => rfl

def Idle (l : Link) : Event → Prop
  | .receive size => size = 0 ∨ waiting l.pc = false ∨ l.sender.transport.inFlight = []
  | .advance => waiting l.pc = true
  | _ => True

theorem Flows.receive_lowers (fl : Flows P l frames history) (size : Nat) :
    (l.receive size).backlog < l.backlog ∨ l.receive size = l ∧ Idle l (.receive size) := by
  by_cases idle : Idle l (.receive size)
  · refine .inr ⟨?_, idle⟩
    have nothing : l.sender.transport.inFlight.take (min size (want l.pc)) = [] ∧
        l.sender.transport.inFlight.drop (min size (want l.pc)) =
          l.sender.transport.inFlight := by
      rcases idle with rfl | busy | empty
      · simp
      · have wants : want l.pc = 0 := by
          cases at_pc : l.pc <;> simp [at_pc, waiting, want] at busy ⊢
        simp [wants]
      · simp [empty]
    simp only [Link.receive, nothing.1, nothing.2, fl.expecting.received_nil l.loop]
  · refine .inl ?_
    obtain ⟨some, idle, content⟩ : size ≠ 0 ∧ waiting l.pc = true ∧
        l.sender.transport.inFlight ≠ [] := by
      simpa [Idle] using idle
    have wants := fl.expecting.want_pos idle
    have here := fl.expecting.waiting_iff.mp idle
    have bytes := List.length_pos_of_ne_nil content
    have there := (l.loop.received
      (l.sender.transport.inFlight.take (min size (want l.pc))) false l.pc).remaining_le
    simp only [Link.backlog, Link.receive, List.length_drop, here]
    omega

theorem step_sender (frameLimit : Int) (l : Link) (quiet : event.Quiet)
    (other : ∀ size, event ≠ .receive size) : (l.step P frameLimit event).sender = l.sender := by
  cases event with
  | write | sendHeartbeat => exact quiet.elim
  | receive size => exact absurd rfl (other size)
  | advance =>
    simp only [Link.step, Link.advance]
    split <;> rfl
  | read size now =>
    simp only [Link.step]
    split <;> rfl
  | setBudget used => rfl

theorem Flows.advance_lowers (fl : Flows P l frames history) :
    (l.advance P).backlog < l.backlog ∨ l.advance P = l ∧ Idle l .advance := by
  cases idle : waiting l.pc with
  | true => exact .inr ⟨advance_waiting idle, idle⟩
  | false =>
    have steps : l.pc.remaining ≠ 0 := by
      rw [Ne, ← fl.expecting.waiting_iff, idle]
      exact Bool.false_ne_true
    have closer := advance_remaining (P := P) l
    have sender : (l.step P 0 .advance).sender = l.sender := step_sender 0 l trivial nofun
    simp only [Link.step] at sender
    simp only [Link.backlog, sender]
    omega

theorem step_written (frameLimit : Int) (l : Link) (quiet : event.Quiet) :
    (l.step P frameLimit event).written = l.written := by
  cases event with
  | write | sendHeartbeat => exact quiet.elim
  | advance =>
    simp only [Link.step, Link.advance]
    split <;> rfl
  | read size now =>
    simp only [Link.step]
    split <;> rfl
  | _ => rfl

theorem run_written (frameLimit : Int) (l : Link) {events : List Event}
    (quiet : ∀ e ∈ events, e.Quiet) : (l.run P frameLimit events).written = l.written :=
  List.foldlRecOn (motive := fun m => m.written = l.written) events (Link.step P frameLimit) rfl
    fun m same event member => (step_written frameLimit m (quiet event member)).trans same

theorem Flows.step_lowers (fl : Flows P l frames history) (frameLimit : Int) (quiet : event.Quiet) :
    (l.step P frameLimit event).backlog < l.backlog ∨
      ((l.step P frameLimit event).pc = l.pc ∧ (l.step P frameLimit event).sender = l.sender ∧
        (l.step P frameLimit event).refused = l.refused) ∧ Idle l event := by
  cases event with
  | write | sendHeartbeat => exact quiet.elim
  | receive size =>
    rcases fl.receive_lowers size with lower | ⟨same, idle⟩
    · exact .inl lower
    · exact .inr ⟨by simp only [Link.step, same, and_self], idle⟩
  | advance =>
    rcases fl.advance_lowers with lower | ⟨same, idle⟩
    · exact .inl lower
    · exact .inr ⟨by simp only [Link.step, same, and_self], idle⟩
  | read size now =>
    refine .inr ⟨?_, trivial⟩
    simp only [Link.step]
    split <;> exact ⟨rfl, rfl, rfl⟩
  | setBudget used => exact .inr ⟨⟨rfl, rfl, rfl⟩, trivial⟩

section Arrival
variable (correct : P.AeadCorrect) (expansion : P.AeadExpansion) {frameLimit : Int}
  (above : 64 < frameLimit) {loop : ReadLoop} (within : frameLimit ≤ loop.maxFrameSize)
  (machine : loop.maxFrameSize < 2 ^ 63)
include correct expansion above within machine

theorem halting : Progress.Halting (Link.step P frameLimit) Event.Quiet (Sound P loop)
    Link.refused Link.backlog Idle where
  kept sound _ := sound.step correct expansion above within machine _
  stays _ := (step_kept (P := P) frameLimit _ _).2
  lowers {l event} sound quiet accepted := by
    obtain ⟨frames, history, fl⟩ := sound.flows accepted
    refine (fl.step_lowers frameLimit quiet).imp_right fun ⟨⟨pc, sender, same⟩, idle⟩ => ?_
    refine ⟨same, by simp only [Link.backlog, pc, sender], idle, fun d later => ?_⟩
    cases d with
    | receive size => simpa only [Idle, pc, sender] using later
    | advance => simpa only [Idle, pc] using later
    | _ => trivial

theorem Sound.arrives (sound : Sound P loop l) {rest : List Event} (quiet : ∀ e ∈ rest, e.Quiet)
    {sizes : List Nat} (positive : ∀ n ∈ sizes, 0 < n) (occur : (turns sizes).flatten.Sublist rest)
    (enough : l.backlog ≤ sizes.length) (accepted : (l.run P frameLimit rest).refused = false) :
    (l.run P frameLimit rest).taken ++ (l.run P frameLimit rest).recvBuf.buf = l.written := by
  have busy {m : Link} (round : List Event) (turn : round ∈ turns sizes) (sound : Sound P loop m)
      (accepted : m.refused = false) (idle : ∀ e ∈ round, Idle m e) : m.backlog = 0 := by
    obtain ⟨n, member, rfl⟩ := List.mem_map.mp turn
    obtain ⟨frames, history, fl⟩ := sound.flows accepted
    have waits : waiting m.pc = true := idle .advance (by simp)
    have steps := fl.expecting.waiting_iff.mp waits
    rcases idle (.receive n) (by simp) with zero | busy | empty
    · exact absurd zero (Nat.ne_of_gt (positive n member))
    · rw [waits] at busy
      cases busy
    · simp only [Link.backlog, empty, steps, List.length_nil]
  obtain ⟨sound', done⟩ := (halting correct expansion above within machine).run_finishes quiet
    sound busy occur (by rwa [turns, List.length_map]) accepted
  obtain ⟨frames, history, fl⟩ := sound'.flows accepted
  obtain ⟨flight, steps⟩ := Nat.add_eq_zero_iff.mp done
  rw [← run_written frameLimit l quiet]
  exact fl.settled (List.eq_nil_of_length_eq_zero (by omega))
    (fl.expecting.waiting_iff.mpr steps)

end Arrival

/-- The stream-mode round trip. Unless the buffer or its budget refuses, what the loop
appended is an initial part of what was written, and all of it after enough turns of the
transport and the loop; a write falls short only when numbers or nonces are used up. -/
theorem reader_delivers_written (correct : P.AeadCorrect) (expansion : P.AeadExpansion)
    {typ : EncryptionType} {sessionKey aad : Bytes} {role : DataRole} {r₁ r₂ r₃ r₄ : Random}
    {sender receiver : DataChannel}
    (hs : DataChannel.new P typ sessionKey aad role r₁ r₂ = .ok sender)
    (hr : DataChannel.new P typ sessionKey aad role.peer r₃ r₄ = .ok receiver)
    {frameLimit : Int} {maxFrameSize : Nat} (above : 64 < frameLimit)
    (within : frameLimit ≤ maxFrameSize) (machine : maxFrameSize < 2 ^ 63) (bufferSize : Int)
    (budget : Option ByteBudget) (events : List Event) (l : Link)
    (reached : l = (Link.start sender receiver ⟨role.peer, false, maxFrameSize⟩ bufferSize
      budget).run P frameLimit events)
    (accepted : l.refused = false) :
    l.pc ≠ .finished ∧ (l.taken ++ l.recvBuf.buf) <+: l.written ∧
    (l.sender.transport.inFlight = [] → waiting l.pc = true →
      l.taken ++ l.recvBuf.buf = l.written) ∧
    (∀ (rest : List Event) (sizes : List Nat), (∀ e ∈ rest, e.Quiet) → (∀ n ∈ sizes, 0 < n) →
      (turns sizes).flatten.Sublist rest → l.backlog ≤ sizes.length →
      (l.run P frameLimit rest).refused = false →
      (l.run P frameLimit rest).taken ++ (l.run P frameLimit rest).recvBuf.buf = l.written) ∧
    ∀ p, ∃ n err s', l.sender.write P true false frameLimit p.length p = (.returned n err, s') ∧
      (err = none → n = p.length) ∧ (err ≠ none → Exhausted s'.channel) := by
  have sound : Sound P ⟨role.peer, false, maxFrameSize⟩ l := by
    rw [reached]
    exact (start_sound hs hr maxFrameSize bufferSize budget).run correct expansion above within
      machine events
  obtain ⟨frames, history, fl⟩ := sound.flows accepted
  refine ⟨fun broken => ?_, ?_, fl.settled, fun rest sizes quiet positive occur enough accepts =>
    sound.arrives correct expansion above within machine quiet positive occur enough accepts,
    fun p => ?_⟩
  · have expecting := fl.expecting
    rw [broken] at expecting
    exact expecting
  · rw [← fl.data, List.append_assoc]
    exact List.prefix_append _ _
  · have limit : frameLimit ≤ l.loop.maxFrameSize := by rwa [sound.loop]
    obtain ⟨n, err, s', _, result, _, _, whole, short⟩ :=
      Sender.write_emits correct expansion above limit p fl.matched fl.clean
    exact ⟨n, err, s', result, whole, short⟩

def sampleEvents : List Event :=
  let frame : List Event := [.receive 5, .receive 5, .advance, .receive 8, .advance, .receive 30,
    .receive 30, .advance, .advance, .advance, .advance]
  [.write [1, 2, 3]] ++ frame ++ [.read 1 0, .sendHeartbeat] ++ frame ++ frame

theorem reader_delivers_sample : ∃ sender receiver,
    DataChannel.new Plain.primitives .chacha20Poly1305 [7] [] .client UInt8.ofNat UInt8.ofNat =
      .ok sender ∧
    DataChannel.new Plain.primitives .chacha20Poly1305 [7] [] .server UInt8.ofNat UInt8.ofNat =
      .ok receiver ∧
    ∃ l, l = (Link.start sender receiver ⟨.server, false, 1024⟩ 100 (some ⟨200, 0, false⟩)).run
        Plain.primitives 66 sampleEvents ∧ l.refused = false ∧
      l.taken = [1] ∧ l.recvBuf.buf = [2, 3] ∧ l.written = [1, 2, 3] ∧ l.pc ≠ .finished := by
  have hs : DataChannel.new Plain.primitives .chacha20Poly1305 [7] [] .client UInt8.ofNat
      UInt8.ofNat = .ok _ := rfl
  have hr : DataChannel.new Plain.primitives .chacha20Poly1305 [7] [] .server UInt8.ofNat
      UInt8.ofNat = .ok _ := rfl
  refine ⟨_, _, hs, hr, _, rfl, by decide +kernel, by decide +kernel, by decide +kernel,
    by decide +kernel, ?_⟩
  exact (reader_delivers_written Plain.aeadCorrect Plain.aeadExpansion hs hr (by decide)
    (by decide) (by decide) 100 (some ⟨200, 0, false⟩) sampleEvents _ rfl
    (by decide +kernel)).1

end Telekit.StreamFraming
