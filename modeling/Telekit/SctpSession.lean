import Telekit.HandshakeAgreement
import Telekit.SctpStream
import Telekit.StreamFraming

/-! A session over SCTP from end to end: the handshake, the data channels that both sides
make of its session key, the frames of `Write` and `sendHeartbeat`, the messages of the
SCTP adapter, the reader loop and the receive buffer of the other side. The adapter gets
the bytes of the frames in pieces of any sizes, of which the calls with one frame each
are a case, and a data channel that fails ends the session, so it does not fail here.

The stack refines the link with an ideal transport: what the adapter keeps at both of its
ends and between them is the content of that transport. Beyond the turns that the link
needs, a byte has to be handed over and sent. -/

namespace Telekit

def Transport.behind (x : Bytes) (t : Transport) : Transport :=
  { t with inFlight := x ++ t.inFlight }

namespace Sender

def behind (x : Bytes) (s : Sender) : Sender := { s with transport := s.transport.behind x }

section Behind
variable {P : Primitives} (x : Bytes)

theorem transport_write_behind (t : Transport) (frame : Bytes) :
    (t.behind x).write frame = ((t.write frame).1, (t.write frame).2.behind x) := by
  unfold Transport.write
  cases results : t.results with
  | nil | cons => simp [Transport.behind, results, List.append_assoc]

theorem writeLoop_behind (frameLimit : Int) (p : Bytes) (fuel offset : Nat) (s : Sender) :
    writeLoop P frameLimit p fuel offset (s.behind x) =
      ((writeLoop P frameLimit p fuel offset s).1,
        (writeLoop P frameLimit p fuel offset s).2.behind x) := by
  induction fuel generalizing offset s with
  | zero =>
    unfold writeLoop
    split <;> rfl
  | succ fuel ih =>
    unfold writeLoop
    split
    · rfl
    · simp only
      split
      · rfl
      · simp only [behind, transport_write_behind]
        split
        · rfl
        · rfl
        · next c _ =>
          generalize s.transport.write _ = r
          obtain ⟨⟨n, err⟩, t⟩ := r
          cases err with
          | some err => rfl
          | none => exact ih _ ⟨c, t⟩

theorem write_behind (ready timedOut : Bool) (frameLimit : Int) (fuel : Nat) (p : Bytes)
    (s : Sender) :
    write P ready timedOut frameLimit fuel p (s.behind x) =
      ((write P ready timedOut frameLimit fuel p s).1,
        (write P ready timedOut frameLimit fuel p s).2.behind x) := by
  unfold write
  split_ifs
  · rfl
  · rfl
  · rfl
  · exact writeLoop_behind x frameLimit p fuel 0 s

theorem sendHeartbeat_behind (current : Bool) (s : Sender) :
    (sendHeartbeat P current (s.behind x)).2 = (sendHeartbeat P current s).2.behind x := by
  unfold sendHeartbeat
  split
  · rfl
  · simp only [behind, transport_write_behind]
    split
    · rfl
    · generalize s.transport.write _ = r
      obtain ⟨⟨n, err⟩, t⟩ := r
      cases err <;> rfl

end Behind
end Sender

namespace SctpSession

/-- The limits of both ends: `Write` leaves room for the expansion, the reader takes the
frames that the writer makes, and the messages fit the adapter of the other side. -/
structure Setup where
  frameLimit : Int
  maxFrameSize : Nat
  above : 64 < frameLimit
  within : frameLimit ≤ maxFrameSize
  machine : maxFrameSize < 2 ^ 63
  bufferSize : Int
  budget : Option ByteBudget
  writer : UInt32
  reader : UInt32
  fits : (Sctp.newConn writer).maxMessageSize ≤ (Sctp.newConn reader).maxMessageSize

/-- One direction of a session. The transport of the link holds the bytes of the frames
that the adapter has not been given yet. -/
structure Session where
  link : StreamFraming.Link
  sctp : Sctp.Link

inductive Event
  | endpoint (e : StreamFraming.Event)
  | handOver (size : Nat)
  | transmit

def Event.Quiet : Event → Prop
  | .endpoint e => e.Quiet
  | _ => True

def turns (sizes : List Nat) : List (List Event) :=
  sizes.map fun n => [.handOver n, .transmit, .endpoint (.receive n), .endpoint .advance]

namespace Session
variable (P : Primitives)

def receive (s : Session) (size : Nat) : Session :=
  let n := min size (StreamFraming.want s.link.pc)
  match s.sctp.reader.read s.sctp.channel n none with
  | none => s
  | some ((data, err), _, _) =>
    { link := { s.link with pc := s.link.loop.received data err.isSome s.link.pc }
      sctp := s.sctp.read n none }

def handOver (s : Session) (size : Nat) : Session :=
  match s.sctp.running with
  | some _ => s
  | none =>
    let outgoing := s.link.sender.transport.inFlight
    { link := { s.link with sender := { s.link.sender with
        transport := { s.link.sender.transport with inFlight := outgoing.drop size } } }
      sctp := s.sctp.write (outgoing.take size) }

def step (frameLimit : Int) (s : Session) : Event → Session
  | .endpoint (.receive size) => s.receive size
  | .endpoint e => { s with link := s.link.step P frameLimit e }
  | .handOver size => s.handOver size
  | .transmit => { s with sctp := s.sctp.iterate .whole }

def run (frameLimit : Int) (s : Session) (events : List Event) : Session :=
  events.foldl (step P frameLimit) s

def start (setup : Setup) (role : DataRole) (sender receiver : DataChannel) : Session :=
  ⟨.start sender receiver ⟨role.peer, false, setup.maxFrameSize⟩ setup.bufferSize setup.budget,
    Sctp.connect setup.writer setup.reader setup.fits⟩

def unsent (s : Sctp.Link) : Bytes :=
  match s.running with
  | none => []
  | some (p, offset) => p.drop offset

def ideal (s : Session) : StreamFraming.Link :=
  { s.link with sender := s.link.sender.behind (s.sctp.buffered ++ unsent s.sctp) }

def outgoing (s : Session) : Bytes := s.link.sender.transport.inFlight

def backlog (s : Session) : Nat :=
  s.ideal.backlog + 2 * s.outgoing.length + (unsent s.sctp).length

variable {P}

theorem ideal_endpoint (frameLimit : Int) (s : Session) (e : StreamFraming.Event)
    (other : ∀ size, e ≠ .receive size) :
    (s.step P frameLimit (.endpoint e)).ideal = s.ideal.step P frameLimit e := by
  cases e with
  | receive size => exact absurd rfl (other size)
  | write p =>
    simp only [step, ideal, StreamFraming.Link.step, StreamFraming.Link.write, Sender.write_behind]
    generalize s.link.sender.write P true false frameLimit p.length p = r
    obtain ⟨outcome, sender⟩ := r
    cases outcome <;> rfl
  | sendHeartbeat =>
    simp only [step, ideal, StreamFraming.Link.step, Sender.sendHeartbeat_behind]
  | advance =>
    simp only [step, ideal, StreamFraming.Link.step, StreamFraming.Link.advance]
    split <;> rfl
  | read size now =>
    simp only [step, ideal, StreamFraming.Link.step]
    split <;> rfl
  | setBudget used => rfl

theorem step_endpoint (frameLimit : Int) (s : Session) {e : StreamFraming.Event}
    (other : ∀ size, e ≠ .receive size) :
    s.step P frameLimit (.endpoint e) = { s with link := s.link.step P frameLimit e } := by
  cases e with
  | receive size => exact absurd rfl (other size)
  | _ => rfl

theorem proceed_bytes (s : Sctp.Link) (p : Bytes) {offset : Nat} (inside : offset ≤ p.length) :
    (s.proceed p offset).buffered = s.buffered ∧ unsent (s.proceed p offset) = p.drop offset := by
  unfold Sctp.Link.proceed
  split
  · exact ⟨rfl, rfl⟩
  · rw [List.drop_of_length_le (by omega)]
    exact ⟨rfl, rfl⟩

theorem write_bytes {s : Sctp.Link} (idle : s.running = none) (p : Bytes) :
    (s.write p).buffered = s.buffered ∧ unsent (s.write p) = p ∧
      (p = [] → (s.write p).running = none) := by
  unfold Sctp.Link.write
  rw [idle]
  simp only
  split
  · next empty =>
    rw [List.eq_nil_of_length_eq_zero empty]
    exact ⟨rfl, rfl, fun _ => rfl⟩
  · next content =>
    obtain ⟨buffered, rest⟩ := proceed_bytes s p (Nat.zero_le _)
    exact ⟨buffered, rest, fun empty => absurd (congrArg List.length empty) content⟩

theorem iterate_bytes {s : Sctp.Link} (sound : s.Sound) :
    (s.iterate .whole).buffered ++ unsent (s.iterate .whole) = s.buffered ++ unsent s ∧
      (s.running ≠ none → (unsent (s.iterate .whole)).length < (unsent s).length) := by
  unfold Sctp.Link.iterate
  cases busy : s.running with
  | none => exact ⟨rfl, fun running => absurd rfl running⟩
  | some call =>
    obtain ⟨p, offset⟩ := call
    have chunk := s.chunk_length (sound.unfinished p offset busy)
    have whole : Sctp.Answer.count .whole (s.chunk p offset) = (s.chunk p offset).length := rfl
    have more : ¬ (s.chunk p offset).length = 0 := by omega
    simp only [Sctp.Answer.err, whole, if_neg more, List.take_length]
    obtain ⟨buffered, rest⟩ := proceed_bytes (s.send (s.chunk p offset)) p chunk.2.2
    have before : unsent s = p.drop offset := by rw [unsent, busy]
    rw [buffered, rest, before, Sctp.Link.send_buffered, List.append_assoc]
    refine ⟨?_, fun _ => ?_⟩
    · have length : (s.chunk p offset).length =
          min (min (offset + s.writer.maxMessageSize) p.length - offset) (p.length - offset) := by
        rw [Sctp.Link.chunk, List.length_take, List.length_drop]
      rw [← List.drop_drop]
      nth_rewrite 1 [Sctp.Link.chunk]
      rw [length, List.take_eq_take_min, List.length_drop, List.take_append_drop]
    · simp only [List.length_drop]
      omega

theorem ideal_handOver (s : Session) (size : Nat) : (s.handOver size).ideal = s.ideal := by
  unfold handOver
  split
  · rfl
  · next idle =>
    obtain ⟨buffered, rest, _⟩ := write_bytes idle (s.link.sender.transport.inFlight.take size)
    have nothing : unsent s.sctp = [] := by rw [unsent, idle]
    simp only [ideal, Sender.behind, Transport.behind, buffered, rest, nothing]
    rw [List.append_nil, List.append_assoc, List.take_append_drop]

theorem conn_read_ok {c : Sctp.Conn} {channel rest : List Bytes} {size : Nat}
    {result : Bytes × Option Failure} {pending : Bytes}
    (framed : ∀ message ∈ channel, message.length ≤ c.maxMessageSize)
    (returned : c.read channel size none = some (result, pending, rest)) :
    result.2 = none ∧ result.1.length ≤ size := by
  unfold Sctp.Conn.read at returned
  split_ifs at returned
  · cases returned
    exact ⟨rfl, by simp⟩
  · cases channel with
    | nil => cases returned
    | cons message channel =>
      have short := framed message List.mem_cons_self
      simp only [if_neg (Nat.not_lt.mpr short)] at returned
      split_ifs at returned <;>
      · cases returned
        exact ⟨rfl, by simp⟩

variable {s : Session}

/-- What a `conn.Read` of the adapter returns is what the ideal transport delivers, and it
returns something where there is something and the loop asks for it. -/
theorem receive_cases (sound : s.sctp.Sound) (size : Nat) :
    s.receive size = s ∧ s.sctp.buffered = [] ∨
    ∃ data, (s.receive size).ideal = s.ideal.receive data.length ∧
      s.sctp.buffered = data ++ (s.receive size).sctp.buffered ∧
      (data = [] → s.sctp.buffered = [] ∨ min size (StreamFraming.want s.link.pc) = 0) ∧
      (s.receive size).sctp.running = s.sctp.running ∧
      (s.receive size).link.sender = s.link.sender ∧
      (s.receive size).link.pc = s.link.loop.received data false s.link.pc := by
  have framed : ∀ message ∈ s.sctp.channel, message.length ≤ s.sctp.reader.maxMessageSize :=
    fun message member => (sound.framed message member).2.trans s.sctp.fits
  have shrinks (room : 0 < min size (StreamFraming.want s.link.pc)) (waiting : s.sctp.buffered ≠ []) :
      (s.sctp.read (min size (StreamFraming.want s.link.pc)) none).buffered.length <
        s.sctp.buffered.length := sound.read_buffered_lt room waiting
  unfold receive
  simp only
  cases returned : s.sctp.reader.read s.sctp.channel
      (min size (StreamFraming.want s.link.pc)) none with
  | none =>
    refine .inl ⟨rfl, ?_⟩
    unfold Sctp.Conn.read at returned
    split_ifs at returned with pending
    have empty := List.eq_nil_of_length_eq_zero (Nat.eq_zero_of_not_pos pending)
    cases content : s.sctp.channel with
    | nil => rw [Sctp.Link.buffered, empty, content, List.flatten_nil, List.append_nil]
    | cons message rest =>
      rw [content] at returned
      simp only at returned
      split_ifs at returned
  | some outcome =>
    obtain ⟨⟨data, err⟩, pending, rest⟩ := outcome
    obtain ⟨fine, short⟩ := conn_read_ok framed returned
    obtain ⟨splits, _⟩ := Sctp.Link.conn_read_splits returned
    obtain rfl : err = none := fine
    have wanted : min data.length (StreamFraming.want s.link.pc) = data.length := by
      simp only at short
      omega
    have before : s.sctp.buffered = data ++ (pending ++ rest.flatten) := splits.symm
    have after : (s.sctp.read (min size (StreamFraming.want s.link.pc)) none).buffered =
        pending ++ rest.flatten := by
      rw [Sctp.Link.read, returned]
      rfl
    have running : (s.sctp.read (min size (StreamFraming.want s.link.pc)) none).running =
        s.sctp.running := by
      rw [Sctp.Link.read, returned]
    refine .inr ⟨data, ?_, by rw [before, after], fun empty => ?_, running, rfl, rfl⟩
    · have same : unsent (s.sctp.read (min size (StreamFraming.want s.link.pc)) none) =
          unsent s.sctp := by rw [unsent, unsent, running]
      simp only [ideal, StreamFraming.Link.receive, Sender.behind, Transport.behind]
      rw [wanted, before, after, same]
      simp [List.append_assoc]
    · rw [after, before, empty, List.nil_append] at shrinks
      rw [before, empty, List.nil_append]
      by_contra both
      obtain ⟨content, room⟩ := not_or.mp both
      exact absurd (shrinks (Nat.pos_of_ne_zero room) content) (Nat.lt_irrefl _)

/-- One step of the stack is one step of the link or none. -/
theorem step_refines (sound : s.sctp.Sound) (frameLimit : Int) (e : Event) :
    (s.step P frameLimit e).sctp.Sound ∧
      ∃ trace, (s.step P frameLimit e).ideal = s.ideal.run P frameLimit trace := by
  cases e with
  | handOver size =>
    refine ⟨?_, [], ideal_handOver s size⟩
    simp only [Session.step, handOver]
    split
    · exact sound
    · exact sound.write _
  | transmit =>
    refine ⟨sound.iterate .whole, [], ?_⟩
    simp only [Session.step, ideal, (iterate_bytes sound).1]
    rfl
  | endpoint e =>
    by_cases receives : ∃ size, e = .receive size
    · obtain ⟨size, rfl⟩ := receives
      refine ⟨?_, ?_⟩
      · simp only [Session.step, receive]
        split
        · exact sound
        · exact sound.read _ none
      · rcases receive_cases sound size with ⟨same, _⟩ | ⟨data, delivered, _⟩
        · exact ⟨[], congrArg ideal same⟩
        · exact ⟨[.receive data.length], delivered⟩
    · have other : ∀ size, e ≠ .receive size := fun size same => receives ⟨size, same⟩
      refine ⟨?_, [e], ideal_endpoint frameLimit s e other⟩
      cases e with
      | receive size => exact absurd rfl (other size)
      | _ => exact sound

structure Sound (P : Primitives) (loop : ReadLoop) (s : Session) : Prop where
  sctp : s.sctp.Sound
  link : StreamFraming.Sound P loop s.ideal

def Idle (s : Session) : Event → Prop
  | .handOver size => size = 0 ∨ s.sctp.running ≠ none ∨ s.outgoing = []
  | .transmit => s.sctp.running = none
  | .endpoint (.receive size) =>
    size = 0 ∨ StreamFraming.waiting s.link.pc = false ∨ s.sctp.buffered = []
  | .endpoint .advance => StreamFraming.waiting s.link.pc = true
  | _ => True

structure Alike (s t : Session) : Prop where
  running : t.sctp.running = s.sctp.running
  buffered : t.sctp.buffered = s.sctp.buffered
  outgoing : t.outgoing = s.outgoing
  pc : t.link.pc = s.link.pc
  refused : t.link.refused = s.link.refused

theorem Alike.unsent {t : Session} (alike : Alike s t) : unsent t.sctp = unsent s.sctp := by
  rw [Session.unsent, Session.unsent, alike.running]

theorem Alike.idle {t : Session} (alike : Alike s t) {e : Event} (idle : Idle t e) : Idle s e := by
  match e with
  | .handOver size => simpa only [Idle, alike.running, alike.outgoing] using idle
  | .transmit => simpa only [Idle, alike.running] using idle
  | .endpoint (.receive size) => simpa only [Idle, alike.pc, alike.buffered] using idle
  | .endpoint .advance => simpa only [Idle, alike.pc] using idle
  | .endpoint (.write _) => trivial
  | .endpoint .sendHeartbeat => trivial
  | .endpoint (.read _ _) => trivial
  | .endpoint (.setBudget _) => trivial

theorem Alike.backlog {t : Session} (alike : Alike s t) : t.backlog = s.backlog := by
  simp only [Session.backlog, StreamFraming.Link.backlog, ideal, Sender.behind, Transport.behind,
    List.length_append, alike.buffered, alike.unsent, alike.pc, alike.outgoing,
    show t.link.sender.transport.inFlight = s.link.sender.transport.inFlight from alike.outgoing]

theorem handOver_lowers (s : Session) (size : Nat) :
    (s.handOver size).backlog < s.backlog ∨
      Alike s (s.handOver size) ∧ Idle s (.handOver size) := by
  have refines := ideal_handOver s size
  cases running : s.sctp.running with
  | some call =>
    have same : s.handOver size = s := by simp only [handOver, running]
    rw [same]
    exact .inr ⟨⟨rfl, rfl, rfl, rfl, rfl⟩, .inr (.inl (by simp [running]))⟩
  | none =>
    obtain ⟨buffered, rest, empty⟩ := write_bytes running (s.outgoing.take size)
    have nothing : unsent s.sctp = [] := by rw [unsent, running]
    have sctp : (s.handOver size).sctp = s.sctp.write (s.outgoing.take size) := by
      simp only [handOver, running, outgoing]
    have left : (s.handOver size).outgoing = s.outgoing.drop size := by
      simp only [handOver, running, outgoing]
    by_cases taken : s.outgoing.take size = []
    · have kept : s.outgoing.drop size = s.outgoing := by
        have whole := List.take_append_drop size s.outgoing
        rwa [taken, List.nil_append] at whole
      refine .inr ⟨⟨?_, ?_, left.trans kept, ?_, ?_⟩, ?_⟩
      · rw [sctp, empty taken, running]
      · rw [sctp, buffered]
      · simp only [handOver, running]
      · simp only [handOver, running]
      · rcases List.take_eq_nil_iff.mp taken with zero | none
        · exact .inl zero
        · exact .inr (.inr none)
    · refine .inl ?_
      have some_bytes := List.length_pos_of_ne_nil taken
      have lengths := congrArg List.length (List.take_append_drop size s.outgoing)
      rw [List.length_append] at lengths
      simp only [Session.backlog, refines, sctp, rest, left, nothing, List.length_nil]
      omega

theorem transmit_lowers (frameLimit : Int) (sound : s.sctp.Sound) :
    (s.step P frameLimit .transmit).backlog < s.backlog ∨
      Alike s (s.step P frameLimit .transmit) ∧ Idle s .transmit := by
  cases running : s.sctp.running with
  | none =>
    have same : s.step P frameLimit .transmit = s := by
      simp only [step, Sctp.Link.iterate, running]
    rw [same]
    exact .inr ⟨⟨rfl, rfl, rfl, rfl, rfl⟩, running⟩
  | some call =>
    refine .inl ?_
    obtain ⟨bytes, less⟩ := iterate_bytes sound
    have shorter := less (by simp [running])
    have refines : (s.step P frameLimit .transmit).ideal = s.ideal := by
      simp only [step, ideal, bytes]
    simp only [Session.backlog, refines]
    simp only [step, outgoing]
    omega

theorem receive_lowers {loop : ReadLoop} (sound : Sound P loop s)
    (accepted : s.link.refused = false) (size : Nat) :
    (s.receive size).backlog < s.backlog ∨
      Alike s (s.receive size) ∧ Idle s (.endpoint (.receive size)) := by
  obtain ⟨frames, history, fl⟩ := sound.link.flows accepted
  rcases receive_cases sound.sctp size with ⟨same, empty⟩ | ⟨data, refines, splits, nothing,
    running, sender, pc⟩
  · rw [same]
    exact .inr ⟨⟨rfl, rfl, rfl, rfl, rfl⟩, .inr (.inr empty)⟩
  · by_cases none : data = []
    · rw [none, List.nil_append] at splits
      refine .inr ⟨⟨running, splits.symm, by rw [outgoing, outgoing, sender], ?_, ?_⟩, ?_⟩
      · rw [pc, none]
        exact fl.expecting.received_nil s.link.loop
      · have refused : (s.receive size).ideal.refused = s.ideal.refused :=
          congrArg (·.refused) refines
        exact refused
      · rcases nothing none with empty | zero
        · exact .inr (.inr empty)
        · by_cases waits : StreamFraming.waiting s.link.pc = true
          · have wants : 0 < StreamFraming.want s.link.pc := fl.expecting.want_pos waits
            exact .inl (by omega)
          · exact .inr (.inl (Bool.eq_false_of_not_eq_true waits))
    · refine .inl ?_
      have rest : unsent (s.receive size).sctp = unsent s.sctp := by
        rw [unsent, unsent, running]
      have bytes : (s.receive size).outgoing = s.outgoing := by rw [outgoing, outgoing, sender]
      have lower : (s.ideal.receive data.length).backlog < s.ideal.backlog := by
        refine (fl.receive_lowers data.length).resolve_right fun ⟨same, _⟩ => ?_
        have lengths := congrArg (·.sender.transport.inFlight.length) (refines.trans same)
        have shorter := congrArg List.length splits
        have some_bytes := List.length_pos_of_ne_nil none
        simp only [ideal, Sender.behind, Transport.behind, List.length_append, rest, sender]
          at lengths
        rw [List.length_append] at shorter
        omega
      simp only [Session.backlog, refines, rest, bytes]
      omega

theorem step_link (frameLimit : Int) (s : Session) {e : Event} (quiet : e.Quiet) :
    (s.step P frameLimit e).link.written = s.link.written ∧
      ((s.step P frameLimit e).link.refused = false → s.link.refused = false) := by
  cases e with
  | transmit => exact ⟨rfl, id⟩
  | handOver size =>
    simp only [step, handOver]
    split <;> exact ⟨rfl, id⟩
  | endpoint e =>
    have link := StreamFraming.step_written (P := P) frameLimit s.link quiet
    have earlier := (StreamFraming.step_kept (P := P) frameLimit s.link e).2
    cases e with
    | receive size =>
      simp only [step, receive]
      split <;> exact ⟨rfl, id⟩
    | _ => exact ⟨link, earlier⟩

theorem run_written (frameLimit : Int) (s : Session) {events : List Event}
    (quiet : ∀ e ∈ events, e.Quiet) :
    (s.run P frameLimit events).link.written = s.link.written :=
  List.foldlRecOn (motive := fun t => t.link.written = s.link.written) events (step P frameLimit)
    rfl fun t same e member => (step_link frameLimit t (quiet e member)).1.trans same

theorem step_lowers {loop : ReadLoop} (sound : Sound P loop s) (accepted : s.link.refused = false)
    (frameLimit : Int) {e : Event} (quiet : e.Quiet) :
    (s.step P frameLimit e).backlog < s.backlog ∨
      Alike s (s.step P frameLimit e) ∧ Idle s e := by
  cases e with
  | handOver size => exact handOver_lowers s size
  | transmit => exact transmit_lowers frameLimit sound.sctp
  | endpoint e =>
    by_cases receives : ∃ size, e = .receive size
    · obtain ⟨size, rfl⟩ := receives
      exact receive_lowers sound accepted size
    · have other : ∀ size, e ≠ .receive size := fun size same => receives ⟨size, same⟩
      obtain ⟨frames, history, fl⟩ := sound.link.flows accepted
      have refines := ideal_endpoint (P := P) frameLimit s e other
      have sctp : (s.step P frameLimit (.endpoint e)).sctp = s.sctp := by
        rw [step_endpoint frameLimit s other]
      have bytes : (s.step P frameLimit (.endpoint e)).outgoing = s.outgoing := by
        rw [step_endpoint frameLimit s other, outgoing, outgoing]
        exact congrArg (·.transport.inFlight)
          (StreamFraming.step_sender frameLimit s.link quiet other)
      rcases fl.step_lowers frameLimit quiet with lower | ⟨⟨pc, _, refused⟩, idle⟩
      · refine .inl ?_
        rw [← refines] at lower
        simp only [Session.backlog, sctp, bytes]
        omega
      · rw [← refines] at pc refused
        refine .inr ⟨⟨congrArg (·.running) sctp, congrArg (·.buffered) sctp, bytes, pc, refused⟩, ?_⟩
        cases e with
        | receive size => exact absurd rfl (other size)
        | advance => exact idle
        | _ => trivial

theorem ideal_start (setup : Setup) (role : DataRole) (sender receiver : DataChannel) :
    (start setup role sender receiver).ideal = .start sender receiver
      ⟨role.peer, false, setup.maxFrameSize⟩ setup.bufferSize setup.budget := by
  have sound := Sctp.Link.connect_sound setup.writer setup.reader setup.fits
  have nothing : (Sctp.connect setup.writer setup.reader setup.fits).buffered = [] :=
    (List.append_eq_nil_iff.mp sound.accounts).2
  simp only [ideal, start, nothing]
  rfl

theorem Sound.finished {loop : ReadLoop} (sound : Sound P loop s)
    (accepted : s.link.refused = false) {n : Nat} (positive : 0 < n) (given : Idle s (.handOver n))
    (still : Idle s .transmit) (read : Idle s (.endpoint (.receive n)))
    (waits : Idle s (.endpoint .advance)) : s.backlog = 0 := by
  obtain ⟨frames, history, fl⟩ := sound.link.flows accepted
  have nothing : unsent s.sctp = [] := by rw [unsent, show s.sctp.running = none from still]
  have steps : s.ideal.pc.remaining = 0 := fl.expecting.waiting_iff.mp waits
  have outgoing : s.outgoing = [] :=
    (given.resolve_left (Nat.ne_of_gt positive)).resolve_left fun busy => busy still
  have empty : s.sctp.buffered = [] :=
    (read.resolve_left (Nat.ne_of_gt positive)).resolve_left fun busy =>
      absurd (busy.symm.trans waits) Bool.false_ne_true
  have flight : s.ideal.sender.transport.inFlight = [] := by
    have inFlight : s.link.sender.transport.inFlight = [] := outgoing
    simp only [ideal, Sender.behind, Transport.behind, empty, nothing, inFlight, List.append_nil]
  simp only [Session.backlog, StreamFraming.Link.backlog, flight, steps, outgoing, nothing,
    List.length_nil]

/-- The reader goes on; what it has handed out and what it holds is an initial part of
what the writer wrote, and all of it once nothing is on its way. That comes about in
every continuation in which nothing more is sent and everyone has enough turns. -/
structure Delivers (P : Primitives) (frameLimit : Int) (s : Session) : Prop where
  alive : s.link.pc ≠ .finished
  inOrder : (s.link.taken ++ s.link.recvBuf.buf) <+: s.link.written
  complete : s.ideal.sender.transport.inFlight = [] → StreamFraming.waiting s.link.pc = true →
    s.link.taken ++ s.link.recvBuf.buf = s.link.written
  arrives : ∀ (rest : List Event) (sizes : List Nat), (∀ e ∈ rest, e.Quiet) →
    (∀ n ∈ sizes, 0 < n) → (turns sizes).flatten.Sublist rest → s.backlog ≤ sizes.length →
    (s.run P frameLimit rest).link.refused = false →
    (s.run P frameLimit rest).link.taken ++ (s.run P frameLimit rest).link.recvBuf.buf =
      s.link.written

section Runs
variable (correct : P.AeadCorrect) (expansion : P.AeadExpansion) {frameLimit : Int}
  (above : 64 < frameLimit) {loop : ReadLoop} (within : frameLimit ≤ loop.maxFrameSize)
  (machine : loop.maxFrameSize < 2 ^ 63)
include correct expansion above within machine

theorem Sound.step (sound : Sound P loop s) (e : Event) : Sound P loop (s.step P frameLimit e) := by
  obtain ⟨sctp, trace, refines⟩ := step_refines (P := P) sound.sctp frameLimit e
  refine ⟨sctp, ?_⟩
  rw [refines]
  exact sound.link.run correct expansion above within machine trace

theorem Sound.run (sound : Sound P loop s) (events : List Event) :
    Sound P loop (s.run P frameLimit events) :=
  List.foldlRecOn events (Session.step P frameLimit) sound fun _ current e _ =>
    current.step correct expansion above within machine e

theorem halting : Progress.Halting (step P frameLimit) Event.Quiet (Sound P loop)
    (·.link.refused) backlog Idle where
  kept sound _ := sound.step correct expansion above within machine _
  stays quiet := (step_link (P := P) frameLimit _ quiet).2
  lowers sound quiet accepted :=
    (step_lowers sound accepted frameLimit quiet).imp_right fun ⟨alike, idle⟩ =>
      ⟨alike.refused, alike.backlog, idle, fun _ => alike.idle⟩

theorem Sound.arrives (sound : Sound P loop s) {rest : List Event} (quiet : ∀ e ∈ rest, e.Quiet)
    {sizes : List Nat} (positive : ∀ n ∈ sizes, 0 < n) (occur : (turns sizes).flatten.Sublist rest)
    (enough : s.backlog ≤ sizes.length)
    (accepted : (s.run P frameLimit rest).link.refused = false) :
    (s.run P frameLimit rest).link.taken ++ (s.run P frameLimit rest).link.recvBuf.buf =
      s.link.written := by
  have busy {t : Session} (round : List Event) (turn : round ∈ turns sizes) (sound : Sound P loop t)
      (accepted : t.link.refused = false) (idle : ∀ e ∈ round, Idle t e) : t.backlog = 0 := by
    obtain ⟨n, member, rfl⟩ := List.mem_map.mp turn
    exact sound.finished accepted (positive n member) (idle _ (by simp)) (idle _ (by simp))
      (idle _ (by simp)) (idle _ (by simp))
  obtain ⟨sound', done⟩ := (halting correct expansion above within machine).run_finishes quiet
    sound busy occur (by rwa [turns, List.length_map]) accepted
  obtain ⟨frames, history, fl⟩ := sound'.link.flows accepted
  obtain ⟨left, _⟩ := Nat.add_eq_zero_iff.mp done
  obtain ⟨bytes, _⟩ := Nat.add_eq_zero_iff.mp left
  obtain ⟨flight, steps⟩ := Nat.add_eq_zero_iff.mp bytes
  rw [← run_written frameLimit s quiet]
  exact fl.settled (List.eq_nil_of_length_eq_zero (by omega))
    (fl.expecting.waiting_iff.mpr steps)

end Runs

theorem delivers (correct : P.AeadCorrect) (expansion : P.AeadExpansion) {typ : EncryptionType}
    {sessionKey aad : Bytes} {role : DataRole} {r₁ r₂ r₃ r₄ : Random}
    {sender receiver : DataChannel}
    (hs : DataChannel.new P typ sessionKey aad role r₁ r₂ = .ok sender)
    (hr : DataChannel.new P typ sessionKey aad role.peer r₃ r₄ = .ok receiver)
    (setup : Setup) (events : List Event) :
    let s := (start setup role sender receiver).run P setup.frameLimit events
    s.link.refused = false → s.Delivers P setup.frameLimit := by
  intro s accepted
  have begin : Sound P ⟨role.peer, false, setup.maxFrameSize⟩
      (start setup role sender receiver) := by
    refine ⟨Sctp.Link.connect_sound setup.writer setup.reader setup.fits, ?_⟩
    rw [ideal_start]
    exact StreamFraming.start_sound hs hr setup.maxFrameSize setup.bufferSize setup.budget
  have sound : Sound P ⟨role.peer, false, setup.maxFrameSize⟩ s :=
    begin.run correct expansion setup.above setup.within setup.machine events
  obtain ⟨frames, history, flows⟩ := sound.link.flows accepted
  refine ⟨fun broken => ?_, ?_, flows.settled, fun rest sizes quiet positive occur enough accepts =>
    sound.arrives correct expansion setup.above setup.within setup.machine quiet positive occur
      enough accepts⟩
  · have expecting := flows.expecting
    rw [show s.ideal.pc = .finished from broken] at expecting
    exact expecting
  · have split : s.link.taken ++ s.link.recvBuf.buf ++ StreamFraming.carried s.link.pc ++
      SealedFrame.stream frames = s.link.written := flows.data
    rw [← split, List.append_assoc]
    exact List.prefix_append _ _

end Session

def ends (client server : DataChannel) : DataRole → DataChannel × DataChannel
  | .client => (client, server)
  | .server => (server, client)

theorem handleServerHello_channel {P : Primitives} {c : Client} {data : Bytes}
    {attempt : ClientHandshake} {random : ClientRandom} {hs : ServerHandshake}
    (ok : c.handleServerHello P data attempt random = .ok hs) :
    DataChannel.new P c.encryptionType hs.codec.sessionKey c.encryptionAAD .client random.dataSend
      random.dataReceive = .ok hs.dataChannel := by
  simp only [Client.handleServerHello, bind_ok] at ok
  obtain ⟨o, _, ok⟩ := ok
  unfold Client.acceptServerHello at ok
  obtain ⟨_, ok⟩ := guard_ok.mp ok
  split at ok
  · simp at ok
  · split at ok
    · simp at ok
    · simp only [bind_ok, pure_ok] at ok
      obtain ⟨sessionKey, _, codec, created, channel, made, rfl⟩ := ok
      obtain ⟨same, _⟩ := SignalingChannel.new_ok P created
      rw [same]
      exact made

/-- From the handshake to the stream: a client that accepts a ServerHello shares a session
with a connection of the pinned server, and in both directions what one side writes comes
out of the other side's buffer, in order and complete, unless the buffer refuses. -/
theorem session_delivers {P : Primitives} {cache : Lru.Cache Bytes Int} (x25519 : P.X25519Correct)
    (digest : P.Sha256Length) (aead : P.AeadCorrect) (expansion : P.AeadExpansion)
    (server : Server P) (client : Client) (pinned : client.serverPublicKey = server.publicKey)
    (shared : server.keyProvider client.clientId = .ok client.key)
    (typ : client.encryptionType = server.encryptionType)
    (aad : client.encryptionAAD = server.encryptionAAD)
    {nonceRandom codecRandom : Random} {privateKey : Bytes} {now : Int} {attempt : ClientHandshake}
    (built : client.buildClientHello P nonceRandom privateKey codecRandom now = .ok attempt)
    (calls : List HandshakeRun.Event) (r : HandshakeRun.Run cache)
    (reached : HandshakeRun.run server calls = r) (data : Bytes) (random : ClientRandom)
    (hs : ServerHandshake)
    (unforged : ∀ o, client.openServerHello P data attempt random.helloCodec = .ok o →
      P.ed25519Verify client.serverPublicKey (client.presentedTranscript o) o.payload.signature =
        true → client.presentedTranscript o ∈ r.signed)
    (accepted : client.handleServerHello P data attempt random = .ok hs) :
    ∃ conn ∈ r.state.pool, conn.sourceId = client.clientId ∧ conn.clientNonce = attempt.nonce ∧
      ∀ (sendRandom receiveRandom : Random) (dataChannel : DataChannel),
        DataChannel.new P server.encryptionType conn.codec.sessionKey server.encryptionAAD .server
          sendRandom receiveRandom = .ok dataChannel →
        ∀ (role : DataRole) (setup : Setup) (events : List Event),
          let s := (Session.start setup role (ends hs.dataChannel dataChannel role).1
            (ends hs.dataChannel dataChannel role).2).run P setup.frameLimit events
          s.link.refused = false → s.Delivers P setup.frameLimit := by
  have sound : HandshakeRun.Sound server r := reached ▸ HandshakeRun.run_sound calls
  obtain ⟨mine, public_, _⟩ := Client.buildClientHello_ok built
  have pair : attempt.publicKey = P.x25519PublicKey attempt.privateKey := by rw [public_, mine]
  have channel := handleServerHello_channel accepted
  simp only [Client.handleServerHello, bind_ok] at accepted
  obtain ⟨o, opened, accepted⟩ := accepted
  obtain ⟨verified, _⟩ := Client.acceptServerHello_ok accepted
  have logged := unforged o opened (verifyServerHello_true verified).2
  obtain ⟨i, conn, found, same⟩ := sound.log _ logged
  obtain ⟨_, source, _, nonce, _, _, _, _, keys⟩ :=
    HandshakeRun.presented_agrees x25519 digest pinned shared pair opened accepted
      (sound.sessions.fromHello i conn found) same
  refine ⟨conn, List.mem_of_getElem? found, source, nonce, ?_⟩
  intro sendRandom receiveRandom dataChannel made role setup events
  rw [← typ, ← aad, ← keys] at made
  cases role with
  | client => exact Session.delivers aead expansion channel made setup events
  | server => exact Session.delivers aead expansion made channel setup events

def sampleSetup : Setup :=
  ⟨66, 1024, by decide, by decide, by decide, 100, none, 5, 5, by decide⟩

def sampleWritten (client server : DataChannel) : Session :=
  (Session.start sampleSetup .client client server).run Plain.primitives sampleSetup.frameLimit
    (.endpoint (.write [8]) :: (turns (List.replicate 11 9)).flatten)

def sampleTurns : List Nat := List.replicate 35 9

def sampleChecks (hs : ServerHandshake) (conn : Connection) : Bool :=
  match DataChannel.new Plain.primitives Plain.server.encryptionType conn.codec.sessionKey
    Plain.server.encryptionAAD .server UInt8.ofNat UInt8.ofNat with
  | .error _ => false
  | .ok dataChannel =>
    let s := sampleWritten hs.dataChannel dataChannel
    !s.link.refused && s.link.written == [8] && s.link.recvBuf.buf == [] &&
      decide (s.backlog ≤ 35) &&
      !(s.run Plain.primitives sampleSetup.frameLimit (turns sampleTurns).flatten).link.refused

theorem sample_session_delivers :
    ∃ hs conn dataChannel, Plain.client.handleServerHello Plain.primitives Plain.packet
        Plain.attempt Plain.clientRandom = .ok hs ∧
      conn ∈ (HandshakeRun.run Plain.server HandshakeRun.sampleEvents :
        HandshakeRun.Run Plain.nonces).state.pool ∧
      DataChannel.new Plain.primitives Plain.server.encryptionType conn.codec.sessionKey
        Plain.server.encryptionAAD .server UInt8.ofNat UInt8.ofNat = .ok dataChannel ∧
      let s := sampleWritten hs.dataChannel dataChannel
      let t := s.run Plain.primitives sampleSetup.frameLimit (turns sampleTurns).flatten
      s.link.recvBuf.buf = [] ∧ t.link.taken ++ t.link.recvBuf.buf = [8] := by
  have evaluated : (Plain.client.handleServerHello Plain.primitives Plain.packet Plain.attempt
      Plain.clientRandom).toOption.any (fun hs =>
        (HandshakeRun.run Plain.server HandshakeRun.sampleEvents :
          HandshakeRun.Run Plain.nonces).state.pool.all (sampleChecks hs)) = true ∧
      ((Plain.client.openServerHello Plain.primitives Plain.packet Plain.attempt
        Plain.clientRandom.helloCodec).toOption.all fun o =>
          decide (Plain.client.presentedTranscript o ∈
            (HandshakeRun.run Plain.server HandshakeRun.sampleEvents :
              HandshakeRun.Run Plain.nonces).signed)) = true := by
    decide +kernel
  have quiet : ∀ e ∈ (turns sampleTurns).flatten, e.Quiet := by
    intro e member
    simp only [turns, List.mem_flatten, List.mem_map] at member
    obtain ⟨_, ⟨n, _, rfl⟩, here⟩ := member
    simp only [List.mem_cons, List.not_mem_nil, or_false] at here
    obtain rfl | rfl | rfl | rfl := here <;> trivial
  obtain ⟨accepted, logged⟩ := evaluated
  cases result : Plain.client.handleServerHello Plain.primitives Plain.packet Plain.attempt
    Plain.clientRandom with
  | error err =>
    rw [result] at accepted
    cases accepted
  | ok hs =>
    obtain ⟨conn, member, _, _, stream⟩ := session_delivers Plain.x25519Correct Plain.sha256Length
      Plain.aeadCorrect Plain.aeadExpansion Plain.server Plain.client rfl rfl rfl rfl
      Plain.attempt_built HandshakeRun.sampleEvents _ rfl Plain.packet Plain.clientRandom hs
      (fun o opened _ => by rw [opened] at logged; simpa [Except.toOption] using logged) result
    simp only [result, Except.toOption, Option.any_some] at accepted
    have checks := List.all_eq_true.mp accepted conn member
    unfold sampleChecks at checks
    split at checks
    · cases checks
    · next dataChannel made =>
      simp only [Bool.and_eq_true, Bool.not_eq_true', beq_iff_eq, decide_eq_true_eq] at checks
      obtain ⟨⟨⟨⟨running, written⟩, missing⟩, few⟩, runs⟩ := checks
      refine ⟨hs, conn, dataChannel, rfl, member, made, missing, ?_⟩
      have delivers : (sampleWritten hs.dataChannel dataChannel).Delivers Plain.primitives
          sampleSetup.frameLimit :=
        stream _ _ dataChannel made .client sampleSetup _ running
      have arrives := delivers.arrives (turns sampleTurns).flatten sampleTurns quiet
        (fun n member => by rw [List.eq_of_mem_replicate member]; decide) (List.Sublist.refl _)
        (few.trans (by decide)) runs
      exact arrives.trans written

end SctpSession
end Telekit
