import Telekit.ReadLoop

/-! The frame writers `Write` and `sendHeartbeat` of `peer/client/write.go` and
`peer/server/write.go`. A call holds `writeMu` from start to end, so calls on one
connection follow one another. The two `Write` methods differ only in the flag
they test before writing and in where the frame limit comes from, and both
`sendHeartbeat` methods are the same. -/

namespace Telekit

/-- The sending side of a transport: the bytes put on it and not yet read by
the peer, and what the next calls of `conn.Write` will do. With no entry left a
write takes the whole frame. -/
structure Transport where
  inFlight : Bytes := []
  results : List (Nat × Option Failure) := []
  deriving DecidableEq

def Transport.write (t : Transport) (frame : Bytes) : (Nat × Option Failure) × Transport :=
  match t.results with
  | [] => ((frame.length, none), { t with inFlight := t.inFlight ++ frame })
  | (n, err) :: rest => ((n, err), ⟨t.inFlight ++ frame.take n, rest⟩)

structure Sender where
  channel : DataChannel
  transport : Transport := {}
  deriving DecidableEq

def encodeFrame (sequence : UInt64) (ciphertext : Bytes) : Bytes :=
  BigEndian.encode frameHeaderSize ciphertext.length ++
    BigEndian.encode dataFrameSequenceSize sequence.toNat ++ ciphertext

/-- `unfinished` stands for a loop that has used up the fuel it was given, and
`panicked` for a slice expression out of range. -/
inductive WriteOutcome
  | returned (n : Nat) (err : Option Failure)
  | panicked
  | unfinished
  deriving DecidableEq

/-- The limit of `Client.Write` and of `Connection.maxFrameSize`. -/
def effectiveFrameLimit (maxFrameSize transportLimit : Int) : Int :=
  if transportLimit > 0 ∧ maxFrameSize > transportLimit then transportLimit else maxFrameSize

namespace Sender
variable (P : Primitives)

/-- The inner loop of `Write`: seal, and halve the chunk while the ciphertext
is over the limit. The chunk shrinks each time, so its length is enough fuel. -/
def sealChunk (frameLimit : Int) :
    (fuel : Nat) → DataChannel → Bytes → Option (Except Failure (UInt64 × Bytes × Nat)) × DataChannel
  | fuel, c, chunk =>
    match c.sealApplication P chunk with
    | (.error err, c) => (some (.error err), c)
    | (.ok (sequence, ciphertext), c) =>
      if (ciphertext.length : Int) ≤ frameLimit then
        (some (.ok (sequence, ciphertext, chunk.length)), c)
      else if chunk.length ≤ 1 then (some (fail "encoded frame exceeds configured limit"), c)
      else
        match fuel with
        | 0 => (none, c)
        | fuel + 1 => sealChunk frameLimit fuel c (chunk.take (chunk.length / 2))

def writeLoop (frameLimit : Int) (p : Bytes) : (fuel offset : Nat) → Sender → WriteOutcome × Sender
  | fuel, offset, s =>
    if p.length ≤ offset then (.returned p.length none, s)
    else
      match fuel with
      | 0 => (.unfinished, s)
      | fuel + 1 =>
        let plaintextEnd : Int := min (offset + frameLimit - 64) p.length
        if plaintextEnd < offset then (.panicked, s)
        else
          let chunk := (p.drop offset).take (plaintextEnd - offset).toNat
          match sealChunk P frameLimit chunk.length s.channel chunk with
          | (none, c) => (.unfinished, { s with channel := c })
          | (some (.error err), c) => (.returned offset (some err), { s with channel := c })
          | (some (.ok (sequence, ciphertext, size)), c) =>
            match s.transport.write (encodeFrame sequence ciphertext) with
            | ((_, some err), t) => (.returned offset (some err), ⟨c, t⟩)
            | ((_, none), t) => writeLoop frameLimit p fuel (offset + size) ⟨c, t⟩

/-- `ready` is `isConnected` on the client and `!closed` on the server, with a
transport and a data channel installed on both. -/
def write (ready timedOut : Bool) (frameLimit : Int) (fuel : Nat) (p : Bytes) (s : Sender) :
    WriteOutcome × Sender :=
  if ready = false then (.returned 0 (some (.text (str "transport not connected"))), s)
  else if timedOut then (.returned 0 (some .deadlineExceeded), s)
  else if p.length = 0 then (.returned 0 none, s)
  else writeLoop P frameLimit p fuel 0 s

/-- `current` is the comparison with the transport and channel of the caller. -/
def sendHeartbeat (current : Bool) (s : Sender) : Except Failure Unit × Sender :=
  if current = false then (fail "transport not connected", s)
  else
    match s.channel.sealHeartbeat P with
    | (.error err, c) => (.error err, { s with channel := c })
    | (.ok (sequence, ciphertext), c) =>
      let frame := encodeFrame sequence ciphertext
      match s.transport.write frame with
      | ((_, some err), t) => (.error err, ⟨c, t⟩)
      | ((n, none), t) => (if n ≠ frame.length then .error .shortWrite else .ok (), ⟨c, t⟩)

end Sender

structure SealedFrame where
  sequence : UInt64
  frameType : DataFrameType
  plaintext : Bytes
  ciphertext : Bytes

namespace SealedFrame

def bytes (f : SealedFrame) : Bytes := encodeFrame f.sequence f.ciphertext

def data (f : SealedFrame) : Bytes :=
  match f.frameType with
  | .application => f.plaintext
  | .heartbeat => []

def wire (frames : List SealedFrame) : Bytes := frames.flatMap bytes

def stream (frames : List SealedFrame) : Bytes := frames.flatMap data

structure Openable (P : Primitives) (codec : Codec) (direction : Direction) (limit : Nat)
    (f : SealedFrame) : Prop where
  decodes : codec.decodeWithDecryption P f.ciphertext aadDomainData
    (dataFrameContext direction f.sequence) limit = .ok (f.frameType.toByte :: f.plaintext)
  nonempty : 0 < f.ciphertext.length
  fits : f.ciphertext.length ≤ limit
  small : f.plaintext.length ≤ limit
  beat : f.frameType = .heartbeat → f.plaintext = []

theorem wire_append (a b : List SealedFrame) : wire (a ++ b) = wire a ++ wire b := by
  simp [wire]

theorem stream_append (a b : List SealedFrame) : stream (a ++ b) = stream a ++ stream b := by
  simp [stream]

end SealedFrame

structure Matched (codec : Codec) (direction : Direction) (c : DataChannel) : Prop where
  same : Codec.SameKey c.sendCodec codec
  direction : c.sendDirection = direction
  keyed : ∃ kit, c.sendCodec.encryptionKit = some kit ∧
    kit.typ.nonceSize = kit.nonce.prefixBytes.length + nonceCounterSize

def Exhausted (c : DataChannel) : Prop :=
  c.sendSequence.toNat = 2 ^ 64 - 1 ∨
    ∃ kit, c.sendCodec.encryptionKit = some kit ∧ kit.nonce.counter.toNat = 2 ^ 64 - 1

/-- From `s` to `s'` exactly these frames went onto the transport, in the order
of their sequence numbers. -/
structure Emits (P : Primitives) (codec : Codec) (direction : Direction) (limit : Nat)
    (s s' : Sender) (frames : List SealedFrame) : Prop where
  bytes : s'.transport.inFlight = s.transport.inFlight ++ SealedFrame.wire frames
  clean : s'.transport.results = []
  matched : Matched codec direction s'.channel
  openable : ∀ f ∈ frames, f.Openable P codec direction limit
  forward : s.channel.sendSequence.toNat ≤ s'.channel.sendSequence.toNat
  later : ∀ f ∈ frames, s.channel.sendSequence.toNat < f.sequence.toNat ∧
    f.sequence.toNat ≤ s'.channel.sendSequence.toNat
  ordered : frames.Pairwise fun f g => f.sequence.toNat < g.sequence.toNat

section Sending
variable {P : Primitives} {codec : Codec} {direction : Direction} {limit : Nat}

theorem Emits.append {a b c : Sender} {first second : List SealedFrame}
    (ab : Emits P codec direction limit a b first) (bc : Emits P codec direction limit b c second) :
    Emits P codec direction limit a c (first ++ second) where
  bytes := by rw [bc.bytes, ab.bytes, SealedFrame.wire_append, List.append_assoc]
  clean := bc.clean
  matched := bc.matched
  openable f member := by
    rcases List.mem_append.mp member with left | right
    · exact ab.openable f left
    · exact bc.openable f right
  forward := Nat.le_trans ab.forward bc.forward
  later f member := by
    have ordered := bc.forward
    have before := ab.forward
    rcases List.mem_append.mp member with left | right
    · have := ab.later f left
      omega
    · have := bc.later f right
      omega
  ordered := by
    refine List.pairwise_append.mpr ⟨ab.ordered, bc.ordered, fun f hf g hg => ?_⟩
    have left := ab.later f hf
    have right := bc.later g hg
    omega

theorem Matched.encrypted {c : DataChannel} {data ciphertext context : Bytes} {codec' : Codec}
    (m : Matched codec direction c)
    (ok : c.sendCodec.encodeWithEncryption P data aadDomainData context = (.ok ciphertext, codec'))
    (sequence : UInt64) :
    Matched codec direction { c with sendSequence := sequence, sendCodec := codec' } := by
  obtain ⟨kit, kit', present, encrypted, rfl⟩ := Codec.encodeWithEncryption_ok ok
  obtain ⟨own, found, size⟩ := m.keyed
  rw [present] at found
  cases found
  refine ⟨(Codec.encodeWithEncryption_sameKey ok).symm.trans m.same, m.direction, kit', rfl, ?_⟩
  have unchanged := EncryptionKit.encrypt_nonce P encrypted
  rw [unchanged.1, unchanged.2]
  exact size

theorem sealFrame_exhausted {c c' : DataChannel} {t : DataFrameType} {plaintext : Bytes}
    {err : Failure} (m : Matched codec direction c)
    (failed : c.sealFrame P t plaintext = (.error err, c')) :
    Exhausted c' ∧ Matched codec direction c' ∧
      c.sendSequence.toNat ≤ c'.sendSequence.toNat := by
  obtain ⟨kit, present, size⟩ := m.keyed
  unfold DataChannel.sealFrame at failed
  split_ifs at failed with exhausted
  · simp only [Prod.mk.injEq] at failed
    rw [← failed.2]
    exact ⟨Or.inl exhausted, m, Nat.le_refl _⟩
  · simp only at failed
    split at failed
    next err' codec' encoded =>
      have same := Codec.encodeWithEncryption_error encoded
      simp only [Prod.mk.injEq] at failed
      obtain ⟨_, rfl⟩ := failed
      have next := DataChannel.next_toNat exhausted
      subst same
      refine ⟨Or.inr ⟨kit, present, ?_⟩, ⟨m.same, m.direction, kit, present, size⟩, ?_⟩
      · exact Codec.encodeWithEncryption_exhausted present size (by simp) encoded
      · simp only
        omega
    · simp at failed

variable {s : Sender}

theorem Emits.failed {c : DataChannel} {t : DataFrameType} {plaintext : Bytes} {err : Failure}
    (m : Matched codec direction s.channel) (clean : s.transport.results = [])
    (refused : s.channel.sealFrame P t plaintext = (.error err, c)) :
    Emits P codec direction limit s { s with channel := c } [] ∧ Exhausted c := by
  obtain ⟨exhausted, matched, forward⟩ := sealFrame_exhausted m refused
  exact ⟨⟨by simp [SealedFrame.wire], clean, matched, by simp, forward, by simp, by simp⟩,
    exhausted⟩

theorem Emits.one (correct : P.AeadCorrect) (expansion : P.AeadExpansion) {c : DataChannel}
    {t : DataFrameType} {plaintext ciphertext : Bytes} {sequence : UInt64}
    (m : Matched codec direction s.channel) (clean : s.transport.results = [])
    (ok : s.channel.sealFrame P t plaintext = (.ok (sequence, ciphertext), c))
    (small : plaintext.length + 41 ≤ limit) (beat : t = .heartbeat → plaintext = []) :
    ciphertext.length ≤ plaintext.length + 41 ∧
    Emits P codec direction limit s
      ⟨c, (s.transport.write (encodeFrame sequence ciphertext)).2⟩
      [⟨sequence, t, plaintext, ciphertext⟩] := by
  obtain ⟨more, number, codec', encoded, rfl⟩ := DataChannel.sealFrame_ok ok
  have next := DataChannel.next_toNat more
  obtain ⟨nonempty, _, bound⟩ := Codec.encodeWithEncryption_length expansion encoded
  simp only [List.length_cons] at bound
  have decoded : codec.decodeWithDecryption P ciphertext aadDomainData
      (dataFrameContext direction sequence) limit = .ok (t.toByte :: plaintext) := by
    rw [← m.direction]
    apply Codec.decodeWithDecryption_encode correct expansion encoded m.same
    simp only [List.length_cons]
    omega
  refine ⟨by omega, ?_, ?_, m.encrypted encoded sequence, ?_, ?_, ?_, by simp⟩
  · simp [Transport.write, clean, SealedFrame.wire, SealedFrame.bytes]
  · simp [Transport.write, clean]
  · intro f member
    rw [List.mem_singleton.mp member]
    exact ⟨decoded, nonempty, by simp only; omega, by simp only; omega, beat⟩
  · simp only [number]
    omega
  · intro f member
    rw [List.mem_singleton.mp member]
    simp only [number]
    omega

/-- For a chunk that leaves room for the expansion the first seal is final. -/
theorem Sender.sealChunk_eq (expansion : P.AeadExpansion) {frameLimit : Int} (fuel : Nat)
    (c : DataChannel) (chunk : Bytes) (room : (chunk.length : Int) + 41 ≤ frameLimit) :
    sealChunk P frameLimit fuel c chunk =
      match c.sealApplication P chunk with
      | (.error err, c) => (some (.error err), c)
      | (.ok (sequence, ciphertext), c) => (some (.ok (sequence, ciphertext, chunk.length)), c) := by
  unfold sealChunk
  split
  · rfl
  next sequence ciphertext c' sealed =>
    obtain ⟨_, _, codec', encoded, _⟩ := DataChannel.sealFrame_ok sealed
    have bound := (Codec.encodeWithEncryption_length expansion encoded).2.2
    simp only [List.length_cons] at bound
    rw [if_pos (by omega)]

theorem Emits.nothing (m : Matched codec direction s.channel) (clean : s.transport.results = []) :
    Emits P codec direction limit s s [] :=
  ⟨by simp [SealedFrame.wire], clean, m, by simp, Nat.le_refl _, by simp, by simp⟩

/-- From any offset the outer loop returns, having sent the bytes it counts;
it stops early only when the channel is used up. -/
theorem Sender.writeLoop_emits (correct : P.AeadCorrect) (expansion : P.AeadExpansion)
    {frameLimit : Int} (above : 64 < frameLimit) (within : frameLimit ≤ limit) (p : Bytes)
    {fuel offset : Nat} (m : Matched codec direction s.channel) (clean : s.transport.results = [])
    (inside : offset ≤ p.length) (enough : p.length ≤ offset + fuel) :
    ∃ n err s' frames, writeLoop P frameLimit p fuel offset s = (.returned n err, s') ∧
      Emits P codec direction limit s s' frames ∧ offset ≤ n ∧ n ≤ p.length ∧
      SealedFrame.stream frames = (p.drop offset).take (n - offset) ∧
      (err = none → n = p.length) ∧ (err ≠ none → Exhausted s'.channel) := by
  induction fuel generalizing offset s with
  | zero =>
    have done : p.length ≤ offset := by omega
    refine ⟨p.length, none, s, [], by rw [writeLoop, if_pos done], Emits.nothing m clean, inside,
      Nat.le_refl _, ?_, by simp, by simp⟩
    simp [SealedFrame.stream, List.drop_eq_nil_of_le done]
  | succ fuel ih =>
    by_cases done : p.length ≤ offset
    · refine ⟨p.length, none, s, [], by rw [writeLoop, if_pos done], Emits.nothing m clean, inside,
        Nat.le_refl _, ?_, by simp, by simp⟩
      simp [SealedFrame.stream, List.drop_eq_nil_of_le done]
    · let size := (min (offset + frameLimit - 64) (p.length : Int) - offset).toNat
      let chunk := (p.drop offset).take size
      have length : chunk.length = size := by
        simp only [chunk, size, List.length_take, List.length_drop]
        omega
      have room : (chunk.length : Int) + 41 ≤ frameLimit := by
        rw [length]
        omega
      rw [writeLoop, if_neg done]
      simp only
      rw [if_neg (by omega), sealChunk_eq expansion _ _ _ room]
      cases sealed : s.channel.sealApplication P chunk with
      | mk result c =>
        cases result with
        | error err =>
          have ended : Emits P codec direction limit s { s with channel := c } [] ∧ Exhausted c :=
            Emits.failed m clean sealed
          exact ⟨offset, some err, _, [], rfl, ended.1, Nat.le_refl _, inside,
            by simp [SealedFrame.stream], by simp, fun _ => ended.2⟩
        | ok pair =>
          obtain ⟨sequence, ciphertext⟩ := pair
          have emits : Emits P codec direction limit s
              ⟨c, (s.transport.write (encodeFrame sequence ciphertext)).2⟩
              [⟨sequence, .application, chunk, ciphertext⟩] :=
            (Emits.one correct expansion m clean sealed (by omega) (by simp)).2
          have written : s.transport.write (encodeFrame sequence ciphertext) =
              (((encodeFrame sequence ciphertext).length, none),
                (s.transport.write (encodeFrame sequence ciphertext)).2) := by
            simp [Transport.write, clean]
          have inside' : offset + chunk.length ≤ p.length := by omega
          obtain ⟨n, err, s', frames, result, rest, low, high, content, whole, short⟩ :=
            ih emits.matched emits.clean inside' (by omega)
          refine ⟨n, err, s', _ :: frames, ?_, emits.append rest, by omega, high, ?_, whole, short⟩
          · simp only
            rw [written]
            exact result
          · have split : n - offset = size + (n - (offset + chunk.length)) := by omega
            simp only [SealedFrame.stream, List.flatMap_cons, SealedFrame.data] at content ⊢
            rw [content, split, List.take_add, List.drop_drop, length]

theorem Sender.write_emits (correct : P.AeadCorrect) (expansion : P.AeadExpansion)
    {frameLimit : Int} (above : 64 < frameLimit) (within : frameLimit ≤ limit) (p : Bytes)
    (m : Matched codec direction s.channel) (clean : s.transport.results = []) :
    ∃ n err s' frames, write P true false frameLimit p.length p s = (.returned n err, s') ∧
      Emits P codec direction limit s s' frames ∧ SealedFrame.stream frames = p.take n ∧
      (err = none → n = p.length) ∧ (err ≠ none → Exhausted s'.channel) := by
  by_cases empty : p.length = 0
  · refine ⟨0, none, s, [], ?_, Emits.nothing m clean, by simp [SealedFrame.stream], ?_, by simp⟩
    · simp [write, List.eq_nil_of_length_eq_zero empty]
    · simp [empty]
  · obtain ⟨n, err, s', frames, result, emits, _, _, content, whole, short⟩ :=
      writeLoop_emits correct expansion above within p m clean (Nat.zero_le _)
        (Nat.le_of_eq (Nat.zero_add _).symm)
    refine ⟨n, err, s', frames, ?_, emits, by simpa using content, whole, short⟩
    simpa [write, empty] using result

theorem Sender.sendHeartbeat_emits (correct : P.AeadCorrect) (expansion : P.AeadExpansion)
    (room : 41 ≤ limit) (m : Matched codec direction s.channel) (clean : s.transport.results = []) :
    ∃ frames, Emits P codec direction limit s (sendHeartbeat P true s).2 frames ∧
      SealedFrame.stream frames = [] := by
  unfold sendHeartbeat
  rw [if_neg (by simp)]
  cases sealed : s.channel.sealHeartbeat P with
  | mk result c =>
    cases result with
    | error err => exact ⟨[], (Emits.failed m clean sealed).1, rfl⟩
    | ok pair =>
      have emits : Emits P codec direction limit s
          ⟨c, (s.transport.write (encodeFrame pair.1 pair.2)).2⟩
          [⟨pair.1, .heartbeat, [], pair.2⟩] :=
        (Emits.one correct expansion m clean sealed (by simpa using room) (by simp)).2
      exact ⟨_, by simpa [Transport.write, clean] using emits, rfl⟩

end Sending
end Telekit
