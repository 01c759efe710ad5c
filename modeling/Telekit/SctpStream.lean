import Telekit.Primitives

/-! The byte stream over an SCTP data channel: `conn.Read` and `conn.Write` of
`transports/transport_sctp/sctp.go`, in one direction. The channel is reliable,
ordered and keeps messages apart: what it takes of a message arrives as one
message, and it takes a message whole or stops short of its end. A call of
`Write` goes on one message at a time while the other side reads; a `Read` holds
its mutex and is one step. Either side may see the channel fail at any call.

The calls that returned and what the reads returned are recorded and never
read. -/

namespace Telekit.Sctp

def defaultMaxMessageSize : Nat := 60000

structure Conn where
  maxMessageSize : Nat
  pending : Bytes := []
  positive : 0 < maxMessageSize

def newConn (maxSize : UInt32) : Conn :=
  if zero : maxSize.toNat = 0 then { maxMessageSize := defaultMaxMessageSize, positive := by decide }
  else { maxMessageSize := maxSize.toNat, positive := Nat.pos_of_ne_zero zero }

/-- `Read` into a slice of `size` bytes, with the pending bytes and the messages it
leaves; `failure` is what the channel may report instead of a message, and `none`
means that the call goes on waiting for one. -/
def Conn.read (c : Conn) (channel : List Bytes) (size : Nat) (failure : Option Failure) :
    Option ((Bytes × Option Failure) × Bytes × List Bytes) :=
  if c.pending.length > 0 then some ((c.pending.take size, none), c.pending.drop size, channel)
  else
    match failure, channel with
    | some err, _ => some (([], some err), c.pending, channel)
    | none, [] => none
    | none, message :: rest =>
      if message.length > c.maxMessageSize then some (([], some .transport), c.pending, channel)
      else if message.length = 0 then some (([], none), c.pending, rest)
      else
        let data := message.take size
        some ((data, none),
          if data.length < message.length then c.pending ++ message.drop data.length else c.pending,
          rest)

inductive Answer
  | whole
  | short (n : Nat) (err : Option Failure)

namespace Answer

def count (answer : Answer) (message : Bytes) : Nat :=
  match answer with
  | .whole => message.length
  | .short n _ => min n (message.length - 1)

def err : Answer → Option Failure
  | .whole => none
  | .short _ err => err

theorem count_le (answer : Answer) (message : Bytes) : answer.count message ≤ message.length := by
  cases answer with
  | whole => exact Nat.le_refl _
  | short n err =>
    simp only [count]
    omega

theorem count_lt {answer : Answer} {message : Bytes} (some_bytes : 0 < message.length)
    (failed : answer.err ≠ none) : answer.count message < message.length := by
  cases answer with
  | whole => exact absurd rfl failed
  | short n err =>
    simp only [count]
    omega

end Answer

structure Call where
  slice : Bytes
  n : Nat
  err : Option Failure

def Call.taken (call : Call) : Bytes := call.slice.take call.n

/-- Two connections and the messages between them. `running` is the call of `Write`
in progress with its slice and its offset. -/
structure Link where
  writer : Conn
  reader : Conn
  fits : writer.maxMessageSize ≤ reader.maxMessageSize
  channel : List Bytes := []
  running : Option (Bytes × Nat) := none
  calls : List Call := []
  reads : List (Bytes × Option Failure) := []

def connect (writer reader : UInt32)
    (fits : (newConn writer).maxMessageSize ≤ (newConn reader).maxMessageSize) : Link :=
  { writer := newConn writer, reader := newConn reader, fits := fits }

namespace Link

def chunk (s : Link) (p : Bytes) (offset : Nat) : Bytes :=
  (p.drop offset).take (min (offset + s.writer.maxMessageSize) p.length - offset)

def send (s : Link) (message : Bytes) : Link :=
  if message = [] then s else { s with channel := s.channel ++ [message] }

def finish (s : Link) (call : Call) : Link :=
  { s with running := none, calls := s.calls ++ [call] }

def proceed (s : Link) (p : Bytes) (offset : Nat) : Link :=
  if offset < p.length then { s with running := some (p, offset) }
  else s.finish ⟨p, p.length, none⟩

def write (s : Link) (p : Bytes) : Link :=
  match s.running with
  | some _ => s
  | none => if p.length = 0 then s.finish ⟨p, 0, none⟩ else s.proceed p 0

def iterate (s : Link) (answer : Answer) : Link :=
  match s.running with
  | none => s
  | some (p, offset) =>
    let message := s.chunk p offset
    let n := answer.count message
    let sent := s.send (message.take n)
    match answer.err with
    | some err => sent.finish ⟨p, offset + n, some err⟩
    | none =>
      if n = 0 then sent.finish ⟨p, offset + n, some .shortWrite⟩ else sent.proceed p (offset + n)

def read (s : Link) (size : Nat) (failure : Option Failure) : Link :=
  match s.reader.read s.channel size failure with
  | none => s
  | some (result, pending, channel) => { s with
      reader := { s.reader with pending := pending }
      channel := channel
      reads := s.reads ++ [result] }

end Link

inductive Action
  | write (p : Bytes)
  | iterate (answer : Answer)
  | read (size : Nat) (failure : Option Failure)

namespace Link

def step (s : Link) : Action → Link
  | .write p => s.write p
  | .iterate answer => s.iterate answer
  | .read size failure => s.read size failure

def run (s : Link) (actions : List Action) : Link := actions.foldl step s

@[simp] theorem run_nil (s : Link) : s.run [] = s := rfl

@[simp] theorem run_cons (s : Link) (action : Action) (actions : List Action) :
    s.run (action :: actions) = (s.step action).run actions := rfl

def received (s : Link) : Bytes := s.reads.flatMap fun result => result.1

def current (s : Link) : Bytes :=
  match s.running with
  | none => []
  | some (p, offset) => p.take offset

def written (s : Link) : Bytes := s.calls.flatMap Call.taken ++ s.current

def buffered (s : Link) : Bytes := s.reader.pending ++ s.channel.flatten

structure Sound (s : Link) : Prop where
  framed : ∀ message ∈ s.channel, 0 < message.length ∧ message.length ≤ s.writer.maxMessageSize
  unfinished : ∀ p offset, s.running = some (p, offset) → offset < p.length
  accounts : s.received ++ s.buffered = s.written
  counted : ∀ call ∈ s.calls,
    call.n ≤ call.slice.length ∧ (call.n = call.slice.length ↔ call.err = none)

theorem connect_sound (writer reader : UInt32)
    (fits : (newConn writer).maxMessageSize ≤ (newConn reader).maxMessageSize) :
    (connect writer reader fits).Sound := by
  have empty : (newConn reader).pending = [] := by
    unfold newConn
    split_ifs <;> rfl
  refine ⟨by simp [connect], by simp [connect], ?_, by simp [connect]⟩
  simp [connect, received, buffered, written, current, empty]

section Write
variable {s : Link} {p : Bytes} {offset : Nat}

theorem chunk_length (s : Link) (inside : offset < p.length) :
    0 < (s.chunk p offset).length ∧ (s.chunk p offset).length ≤ s.writer.maxMessageSize ∧
      offset + (s.chunk p offset).length ≤ p.length := by
  have positive := s.writer.positive
  simp only [chunk, List.length_take, List.length_drop]
  omega

theorem take_chunk (s : Link) {n : Nat} (inside : n ≤ (s.chunk p offset).length) :
    p.take offset ++ (s.chunk p offset).take n = p.take (offset + n) := by
  rw [chunk, List.length_take] at inside
  rw [chunk, List.take_take, Nat.min_eq_left (by omega), List.take_add]

@[simp] theorem send_calls (message : Bytes) : (s.send message).calls = s.calls := by
  unfold send
  split_ifs <;> rfl

@[simp] theorem send_received (message : Bytes) : (s.send message).received = s.received := by
  unfold send
  split_ifs <;> rfl

@[simp] theorem send_writer (message : Bytes) : (s.send message).writer = s.writer := by
  unfold send
  split_ifs <;> rfl

theorem send_buffered (message : Bytes) : (s.send message).buffered = s.buffered ++ message := by
  unfold send
  split_ifs with empty
  · rw [empty, List.append_nil]
  · simp [buffered]

theorem send_framed (framed : ∀ m ∈ s.channel, 0 < m.length ∧ m.length ≤ s.writer.maxMessageSize)
    {message : Bytes} (small : message.length ≤ s.writer.maxMessageSize) :
    ∀ m ∈ (s.send message).channel, 0 < m.length ∧ m.length ≤ s.writer.maxMessageSize := by
  unfold send
  split_ifs with empty
  · exact framed
  · intro m member
    rcases List.mem_append.mp member with old | new
    · exact framed m old
    · rw [List.mem_singleton.mp new]
      exact ⟨List.length_pos_iff.mpr empty, small⟩

structure Midway (s : Link) (p : Bytes) (offset : Nat) : Prop where
  framed : ∀ message ∈ s.channel, 0 < message.length ∧ message.length ≤ s.writer.maxMessageSize
  inside : offset ≤ p.length
  accounts : s.received ++ s.buffered = s.calls.flatMap Call.taken ++ p.take offset
  counted : ∀ call ∈ s.calls,
    call.n ≤ call.slice.length ∧ (call.n = call.slice.length ↔ call.err = none)

theorem Midway.finish (midway : s.Midway p offset) {err : Option Failure}
    (whole : offset = p.length ↔ err = none) : (s.finish ⟨p, offset, err⟩).Sound := by
  refine ⟨midway.framed, by simp [Link.finish], ?_, ?_⟩
  · calc
      _ = s.received ++ s.buffered := rfl
      _ = s.calls.flatMap Call.taken ++ p.take offset := midway.accounts
      _ = _ := by simp [Link.finish, written, current, Call.taken]
  · intro call member
    rcases List.mem_append.mp member with old | new
    · exact midway.counted call old
    · rw [List.mem_singleton.mp new]
      exact ⟨midway.inside, whole⟩

theorem Midway.proceed (midway : s.Midway p offset) : (s.proceed p offset).Sound := by
  have inside := midway.inside
  unfold Link.proceed
  split_ifs with more
  · refine ⟨midway.framed, ?_, midway.accounts, midway.counted⟩
    intro q k running
    cases running
    exact more
  · obtain rfl : offset = p.length := by omega
    exact midway.finish (by simp)

theorem Sound.write (sound : s.Sound) (p : Bytes) : (s.write p).Sound := by
  unfold Link.write
  cases idle : s.running with
  | some call => exact sound
  | none =>
    have midway : s.Midway p 0 := by
      refine ⟨sound.framed, Nat.zero_le _, ?_, sound.counted⟩
      rw [sound.accounts, written, current, idle, List.take_zero]
    simp only
    split_ifs with empty
    · exact midway.finish (by simp [empty])
    · exact midway.proceed

theorem Sound.iterate (sound : s.Sound) (answer : Answer) : (s.iterate answer).Sound := by
  unfold Link.iterate
  cases busy : s.running with
  | none => exact sound
  | some call =>
    obtain ⟨p, offset⟩ := call
    have inside := sound.unfinished p offset busy
    have bounds := s.chunk_length inside
    have taken := answer.count_le (s.chunk p offset)
    have midway : (s.send ((s.chunk p offset).take (answer.count (s.chunk p offset)))).Midway p
        (offset + answer.count (s.chunk p offset)) := by
      refine ⟨?_, by omega, ?_, by simpa using sound.counted⟩
      · rw [send_writer]
        exact send_framed sound.framed (by rw [List.length_take]; omega)
      · have accounts := sound.accounts
        rw [written, current, busy] at accounts
        rw [send_received, send_buffered, send_calls, ← List.append_assoc, accounts,
          List.append_assoc, take_chunk s taken]
    simp only
    cases failed : answer.err with
    | some err =>
      have short := Answer.count_lt bounds.1 (by rw [failed]; simp)
      refine midway.finish ?_
      simp only [reduceCtorEq, iff_false]
      omega
    | none =>
      simp only
      split_ifs with nothing
      · refine midway.finish ?_
        simp only [reduceCtorEq, iff_false]
        omega
      · exact midway.proceed

theorem iterate_moves (answer : Answer) (busy : s.running = some (p, offset)) :
    (s.iterate answer).running = none ∨
      ∃ next, (s.iterate answer).running = some (p, next) ∧ offset < next := by
  unfold iterate
  simp only [busy]
  cases answer.err with
  | some err => exact .inl rfl
  | none =>
    simp only
    split_ifs with nothing
    · exact .inl rfl
    · unfold proceed
      split_ifs with more
      · exact .inr ⟨_, rfl, by omega⟩
      · exact .inl rfl

theorem run_idle (idle : s.running = none) (answers : List Answer) :
    (s.run (answers.map Action.iterate)).running = none := by
  induction answers generalizing s with
  | nil => exact idle
  | cons answer answers ih =>
    rw [List.map_cons, run_cons]
    apply ih
    simp only [step, iterate, idle]

theorem Sound.returns (sound : s.Sound) (busy : s.running = some (p, offset))
    (answers : List Answer) (enough : p.length ≤ offset + answers.length) :
    (s.run (answers.map Action.iterate)).running = none := by
  induction answers generalizing s offset with
  | nil =>
    have inside := sound.unfinished p offset busy
    simp only [List.length_nil] at enough
    omega
  | cons answer answers ih =>
    rw [List.map_cons, run_cons]
    rw [List.length_cons] at enough
    rcases iterate_moves answer busy with done | ⟨next, busy', later⟩
    · exact run_idle done answers
    · exact ih (sound.iterate answer) busy' (by omega)

end Write

section Read

theorem conn_read_splits {c : Conn} {channel rest : List Bytes} {size : Nat}
    {failure : Option Failure} {result : Bytes × Option Failure} {pending : Bytes}
    (returned : c.read channel size failure = some (result, pending, rest)) :
    result.1 ++ (pending ++ rest.flatten) = c.pending ++ channel.flatten ∧
      ∀ message ∈ rest, message ∈ channel := by
  unfold Conn.read at returned
  split_ifs at returned with left
  · cases returned
    exact ⟨by rw [← List.append_assoc, List.take_append_drop], fun _ member => member⟩
  · have empty : c.pending = [] := List.eq_nil_of_length_eq_zero (by omega)
    cases failure with
    | some err =>
      cases returned
      exact ⟨rfl, fun _ member => member⟩
    | none =>
      cases channel with
      | nil => cases returned
      | cons message channel =>
        simp only at returned
        split_ifs at returned with long blank cut
        · cases returned
          exact ⟨rfl, fun _ member => member⟩
        · cases returned
          refine ⟨?_, fun _ => List.mem_cons_of_mem _⟩
          rw [List.flatten_cons, List.eq_nil_of_length_eq_zero blank]
          rfl
        · cases returned
          refine ⟨?_, fun _ => List.mem_cons_of_mem _⟩
          rw [List.length_take] at cut
          rw [empty, List.length_take, Nat.min_eq_left (by omega), List.flatten_cons,
            List.nil_append, List.nil_append, ← List.append_assoc, List.take_append_drop]
        · cases returned
          refine ⟨?_, fun _ => List.mem_cons_of_mem _⟩
          rw [List.length_take] at cut
          rw [List.take_of_length_le (by omega), empty, List.flatten_cons]
          rfl

theorem conn_read_progress {c : Conn} {channel : List Bytes} {size : Nat} (room : 0 < size)
    (framed : ∀ message ∈ channel, 0 < message.length ∧ message.length ≤ c.maxMessageSize)
    (waiting : c.pending ++ channel.flatten ≠ []) :
    ∃ result pending rest, c.read channel size none = some (result, pending, rest) ∧
      0 < result.1.length := by
  unfold Conn.read
  split_ifs with left
  · exact ⟨_, _, _, rfl, by simp only [List.length_take]; omega⟩
  · have empty : c.pending = [] := List.eq_nil_of_length_eq_zero (by omega)
    cases channel with
    | nil => exact absurd (by simp [empty]) waiting
    | cons message channel =>
      have bounds := framed message (List.mem_cons_self ..)
      have short : ¬ message.length > c.maxMessageSize := by omega
      have filled : ¬ message.length = 0 := by omega
      simp only [if_neg short, if_neg filled]
      exact ⟨_, _, _, rfl, by simp only [List.length_take]; omega⟩

variable {s : Link}

theorem read_written (s : Link) (size : Nat) (failure : Option Failure) :
    (s.read size failure).written = s.written := by
  unfold read
  split <;> rfl

theorem Sound.read (sound : s.Sound) (size : Nat) (failure : Option Failure) :
    (s.read size failure).Sound := by
  unfold Link.read
  cases returned : s.reader.read s.channel size failure with
  | none => exact sound
  | some outcome =>
    obtain ⟨result, pending, rest⟩ := outcome
    obtain ⟨splits, kept⟩ := conn_read_splits returned
    refine ⟨fun m member => sound.framed m (kept m member), sound.unfinished, ?_, sound.counted⟩
    have accounts : s.received ++ (s.reader.pending ++ s.channel.flatten) = s.written :=
      sound.accounts
    calc
      _ = (s.received ++ result.1) ++ (pending ++ rest.flatten) := by simp [received, buffered]
      _ = s.received ++ (s.reader.pending ++ s.channel.flatten) := by
        rw [List.append_assoc, splits]
      _ = s.written := accounts

theorem read_buffered_le (size : Nat) (failure : Option Failure) :
    (s.read size failure).buffered.length ≤ s.buffered.length := by
  unfold Link.read
  cases returned : s.reader.read s.channel size failure with
  | none => exact Nat.le_refl _
  | some outcome =>
    have splits := congrArg List.length (conn_read_splits returned).1
    simp only [buffered, List.length_append] at splits ⊢
    omega

theorem Sound.read_buffered_lt (sound : s.Sound) {size : Nat} (room : 0 < size)
    (waiting : s.buffered ≠ []) : (s.read size none).buffered.length < s.buffered.length := by
  have framed : ∀ message ∈ s.channel,
      0 < message.length ∧ message.length ≤ s.reader.maxMessageSize := by
    intro message member
    have bounds := sound.framed message member
    have fits := s.fits
    omega
  obtain ⟨result, pending, rest, returned, some_bytes⟩ := conn_read_progress room framed waiting
  have splits := congrArg List.length (conn_read_splits returned).1
  unfold Link.read
  rw [returned]
  simp only [buffered, List.length_append] at splits ⊢
  omega

theorem Sound.drains (sound : s.Sound) (reads : List (Nat × Option Failure))
    (room : ∀ r ∈ reads, 0 < r.1)
    (enough : s.buffered.length ≤ (reads.filter fun r => r.2.isNone).length) :
    (s.run (reads.map fun r => .read r.1 r.2)).received = s.written := by
  induction reads generalizing s with
  | nil =>
    have fetched : s.buffered = [] := List.eq_nil_of_length_eq_zero (by simpa using enough)
    rw [List.map_nil, run_nil, ← sound.accounts, fetched, List.append_nil]
  | cons r reads ih =>
    obtain ⟨size, failure⟩ := r
    have fits : 0 < size := room (size, failure) (List.mem_cons_self ..)
    rw [List.map_cons, run_cons, ← s.read_written size failure]
    apply ih (sound.read size failure) fun q member => room q (List.mem_cons_of_mem _ member)
    have never_more := s.read_buffered_le size failure
    cases failure with
    | some err =>
      rw [List.filter_cons_of_neg (by simp)] at enough
      omega
    | none =>
      rw [List.filter_cons_of_pos (by simp), List.length_cons] at enough
      by_cases fetched : s.buffered = []
      · rw [fetched, List.length_nil] at never_more
        omega
      · have fewer := sound.read_buffered_lt fits fetched
        omega

end Read

theorem Sound.step {s : Link} (sound : s.Sound) (action : Action) : (s.step action).Sound := by
  cases action with
  | write p => exact sound.write p
  | iterate answer => exact sound.iterate answer
  | read size failure => exact sound.read size failure

theorem Sound.run {s : Link} (sound : s.Sound) (actions : List Action) : (s.run actions).Sound := by
  induction actions generalizing s with
  | nil => exact sound
  | cons action actions ih => exact ih (sound.step action)

theorem Sound.written_slices {s : Link} (sound : s.Sound) (idle : s.running = none)
    (succeeded : ∀ call ∈ s.calls, call.err = none) :
    s.written = s.calls.flatMap fun call => call.slice := by
  rw [written, current, idle, List.append_nil]
  apply List.flatMap_congr
  intro call member
  rw [Call.taken, ((sound.counted call member).2).mpr (succeeded call member), List.take_length]

end Link

open Link in
/-- The stream of bytes survives the cut into messages and the reads of any sizes. -/
theorem stream_round_trip (writer reader : UInt32)
    (fits : (newConn writer).maxMessageSize ≤ (newConn reader).maxMessageSize)
    (actions : List Action) :
    let s := (connect writer reader fits).run actions
    (∀ call ∈ s.calls, call.n ≤ call.slice.length ∧
      (call.n = call.slice.length ↔ call.err = none)) ∧
    (∀ p offset, s.running = some (p, offset) → ∀ answers : List Answer,
      p.length ≤ answers.length → (s.run (answers.map .iterate)).running = none) ∧
    s.received <+: s.written ∧
    (s.running = none → (∀ call ∈ s.calls, call.err = none) →
      s.written = s.calls.flatMap fun call => call.slice) ∧
    ∀ reads : List (Nat × Option Failure), (∀ r ∈ reads, 0 < r.1) →
      s.written.length ≤ s.received.length + (reads.filter fun r => r.2.isNone).length →
      (s.run (reads.map fun r => .read r.1 r.2)).received = s.written := by
  have sound := (connect_sound writer reader fits).run actions
  intro s
  refine ⟨sound.counted, ?_, ⟨s.buffered, sound.accounts⟩, sound.written_slices, ?_⟩
  · intro p offset busy answers enough
    exact sound.returns busy answers (by omega)
  · intro reads room enough
    refine sound.drains reads room ?_
    have accounts := congrArg List.length sound.accounts
    rw [List.length_append] at accounts
    exact Nat.le_of_add_le_add_left (accounts.trans_le enough)

theorem stream_round_trip_sample :
    let s := (connect 3 4 (by decide)).run
      [.write (str "hello"), .iterate .whole, .read 2 none, .iterate .whole]
    s.channel = [str "lo"] ∧ s.received = str "he" ∧ s.written = str "hello" ∧
      (s.run ([(4, none), (1, none), (7, none)].map fun r => .read r.1 r.2)).received =
        s.written := by
  refine ⟨by decide, by decide, by decide, ?_⟩
  exact (stream_round_trip 3 4 (by decide) _).2.2.2.2 [(4, none), (1, none), (7, none)]
    (by decide) (by decide)

end Telekit.Sctp
