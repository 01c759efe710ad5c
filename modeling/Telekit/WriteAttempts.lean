import Telekit.FrameWriter

/-! The frames that `Write` and `sendHeartbeat` hand to `conn.Write`, each with its
result. What a call puts on the transport is the part that was taken of each of
these frames, and a call stops at the first one that fails. -/

namespace Telekit

structure Attempt extends SealedFrame where
  result : Nat × Option Failure

namespace Attempt

def frame (a : Attempt) : Bytes := a.toSealedFrame.bytes

def taken (a : Attempt) : Bytes := a.frame.take a.result.1

def succeeded (a : Attempt) : Bool := a.result.2.isNone

/-- A write of fewer bytes than it was given returns an error: the contract of
`io.Writer`. -/
def Honest (a : Attempt) : Prop := a.result.2 = none → a.result.1 = a.frame.length

instance (a : Attempt) : Decidable a.Honest :=
  inferInstanceAs (Decidable (a.result.2 = none → a.result.1 = a.frame.length))

def cut (a : Attempt) : Bool := a.taken.length != 0 && a.taken.length != a.frame.length

def bytes (attempts : List Attempt) : Bytes := attempts.flatMap taken

theorem bytes_append (first second : List Attempt) :
    bytes (first ++ second) = bytes first ++ bytes second := by
  simp [bytes]

theorem Honest.taken {a : Attempt} (honest : a.Honest) (ok : a.result.2 = none) :
    a.taken = a.frame := by
  rw [Attempt.taken, honest ok, List.take_length]

theorem Honest.cut {a : Attempt} (honest : a.Honest) (ok : a.result.2 = none) : a.cut = false := by
  simp [Attempt.cut, honest.taken ok]

theorem whole_or_nothing {a : Attempt} (uncut : a.cut = false) :
    a.taken = a.frame ∨ a.taken = [] := by
  simp only [Attempt.cut, Bool.and_eq_false_iff, bne_eq_false_iff_eq] at uncut
  rcases uncut with empty | whole
  · exact Or.inr (List.eq_nil_of_length_eq_zero empty)
  · left
    rw [Attempt.taken, List.length_take] at whole
    exact List.take_of_length_le (by omega)

end Attempt

theorem Transport.write_inFlight (t : Transport) (frame : Bytes) :
    (t.write frame).2.inFlight = t.inFlight ++ frame.take (t.write frame).1.1 := by
  unfold Transport.write
  split
  · simp
  · rfl

namespace Sender
variable (P : Primitives)

def writeAttempts (frameLimit : Int) (p : Bytes) : (fuel offset : Nat) → Sender → List Attempt
  | fuel, offset, s =>
    if p.length ≤ offset then []
    else
      match fuel with
      | 0 => []
      | fuel + 1 =>
        let plaintextEnd : Int := min (offset + frameLimit - 64) p.length
        if plaintextEnd < offset then []
        else
          let chunk := (p.drop offset).take (plaintextEnd - offset).toNat
          match sealChunk P frameLimit chunk.length s.channel chunk with
          | (none, _) => []
          | (some (.error _), _) => []
          | (some (.ok (sequence, ciphertext, size)), c) =>
            match s.transport.write (encodeFrame sequence ciphertext) with
            | ((n, some err), _) =>
              [⟨⟨sequence, .application, chunk.take size, ciphertext⟩, (n, some err)⟩]
            | ((n, none), t) =>
              ⟨⟨sequence, .application, chunk.take size, ciphertext⟩, (n, none)⟩ ::
                writeAttempts frameLimit p fuel (offset + size) ⟨c, t⟩

def attempts (ready timedOut : Bool) (frameLimit : Int) (fuel : Nat) (p : Bytes) (s : Sender) :
    List Attempt :=
  if ready = false ∨ timedOut ∨ p = [] then [] else s.writeAttempts P frameLimit p fuel 0

def heartbeatAttempts (current : Bool) (s : Sender) : List Attempt :=
  if current = false then []
  else
    match s.channel.sealHeartbeat P with
    | (.error _, _) => []
    | (.ok (sequence, ciphertext), _) =>
      [⟨⟨sequence, .heartbeat, [], ciphertext⟩,
        (s.transport.write (encodeFrame sequence ciphertext)).1⟩]

structure Traced (s s' : Sender) (attempts : List Attempt) : Prop where
  inFlight : s'.transport.inFlight = s.transport.inFlight ++ Attempt.bytes attempts
  stops : ∀ a ∈ attempts.dropLast, a.result.2 = none

variable {P}

theorem Traced.silent {s : Sender} {c : DataChannel} : Traced s { s with channel := c } [] :=
  ⟨by simp [Attempt.bytes], by simp⟩

theorem Traced.one {s : Sender} {t : Transport} {c : DataChannel} {a : Attempt}
    (written : s.transport.write a.frame = (a.result, t)) : Traced s ⟨c, t⟩ [a] := by
  have inFlight := Transport.write_inFlight s.transport a.frame
  rw [written] at inFlight
  exact ⟨by rw [inFlight]; simp [Attempt.bytes, Attempt.taken], by simp⟩

theorem Traced.cons {s s' s'' : Sender} {a : Attempt} {rest : List Attempt}
    (first : Traced s s' [a]) (ok : a.result.2 = none) (next : Traced s' s'' rest) :
    Traced s s'' (a :: rest) := by
  refine ⟨?_, ?_⟩
  · rw [next.inFlight, first.inFlight, List.append_assoc, ← Attempt.bytes_append,
      List.singleton_append]
  · intro b member
    cases rest with
    | nil => simp at member
    | cons r rest =>
      rw [List.dropLast_cons_cons] at member
      rcases List.mem_cons.mp member with rfl | later
      · exact ok
      · exact next.stops b later

theorem writeLoop_traced (frameLimit : Int) (p : Bytes) (fuel offset : Nat) (s : Sender) :
    Traced s (writeLoop P frameLimit p fuel offset s).2
      (writeAttempts P frameLimit p fuel offset s) := by
  induction fuel generalizing offset s with
  | zero =>
    unfold writeLoop writeAttempts
    split
    · exact Traced.silent
    · exact Traced.silent
  | succ fuel ih =>
    unfold writeLoop writeAttempts
    split
    · exact Traced.silent
    · simp only
      split
      · exact Traced.silent
      · generalize sealChunk P frameLimit _ s.channel _ = sealed
        rcases sealed with ⟨_ | _ | ⟨sequence, ciphertext, size⟩, c⟩
        · exact Traced.silent
        · exact Traced.silent
        · simp only
          rcases written : s.transport.write (encodeFrame sequence ciphertext) with
            ⟨⟨n, _ | err⟩, t⟩
          · refine Traced.cons ?_ rfl (ih (offset + size) ⟨c, t⟩)
            exact Traced.one written
          · exact Traced.one written

theorem write_refused {ready timedOut : Bool} {p : Bytes} (frameLimit : Int) (fuel : Nat)
    (s : Sender) (refused : ready = false ∨ timedOut ∨ p = []) :
    ∃ err, write P ready timedOut frameLimit fuel p s = (.returned 0 err, s) ∧
      (err = none ↔ ready = true ∧ timedOut = false) := by
  unfold write
  cases ready with
  | false => exact ⟨_, rfl, by simp⟩
  | true =>
    cases timedOut with
    | true => exact ⟨_, rfl, by simp⟩
    | false =>
      have empty : p = [] := by simpa using refused
      exact ⟨none, by simp [empty], by simp⟩

theorem write_loop {ready timedOut : Bool} {p : Bytes} (frameLimit : Int) (fuel : Nat)
    (s : Sender) (accepted : ¬ (ready = false ∨ timedOut ∨ p = [])) :
    write P ready timedOut frameLimit fuel p s = writeLoop P frameLimit p fuel 0 s := by
  simp only [not_or] at accepted
  rw [write, if_neg accepted.1, if_neg accepted.2.1,
    if_neg (fun empty => accepted.2.2 (List.eq_nil_of_length_eq_zero empty))]

theorem write_traced (ready timedOut : Bool) (frameLimit : Int) (fuel : Nat) (p : Bytes)
    (s : Sender) : Traced s (write P ready timedOut frameLimit fuel p s).2
      (attempts P ready timedOut frameLimit fuel p s) := by
  by_cases refused : ready = false ∨ timedOut ∨ p = []
  · obtain ⟨err, returned, _⟩ := write_refused (P := P) frameLimit fuel s refused
    rw [returned, attempts, if_pos refused]
    exact Traced.silent
  · rw [write_loop frameLimit fuel s refused, attempts, if_neg refused]
    exact writeLoop_traced frameLimit p fuel 0 s

theorem sendHeartbeat_traced (current : Bool) (s : Sender) :
    Traced s (sendHeartbeat P current s).2 (heartbeatAttempts P current s) := by
  unfold sendHeartbeat heartbeatAttempts
  split
  · exact Traced.silent
  · generalize s.channel.sealHeartbeat P = sealed
    rcases sealed with ⟨_ | ⟨sequence, ciphertext⟩, c⟩
    · exact Traced.silent
    · simp only
      rcases written : s.transport.write (encodeFrame sequence ciphertext) with ⟨⟨n, _ | err⟩, t⟩
      · exact Traced.one written
      · exact Traced.one written

end Sender

/-! Every frame that is handed to the transport opens on the other side, whatever the
transport does with it. -/

section Opening
variable {P : Primitives} {codec : Codec} {direction : Direction} {limit : Nat}

theorem sealFrame_openable (correct : P.AeadCorrect) (expansion : P.AeadExpansion)
    {c c' : DataChannel} {t : DataFrameType} {plaintext ciphertext : Bytes} {sequence : UInt64}
    (m : Matched codec direction c)
    (ok : c.sealFrame P t plaintext = (.ok (sequence, ciphertext), c'))
    (fits : ciphertext.length ≤ limit) (beat : t = .heartbeat → plaintext = []) :
    SealedFrame.Openable P codec direction limit ⟨sequence, t, plaintext, ciphertext⟩ ∧
      sequence ≠ 0 := by
  obtain ⟨more, number, codec', encoded, rfl⟩ := DataChannel.sealFrame_ok ok
  have next := DataChannel.next_toNat more
  obtain ⟨nonempty, covers, _⟩ := Codec.encodeWithEncryption_length expansion encoded
  simp only [List.length_cons] at covers
  have decoded : codec.decodeWithDecryption P ciphertext aadDomainData
      (dataFrameContext direction sequence) limit = .ok (t.toByte :: plaintext) := by
    rw [← m.direction]
    apply Codec.decodeWithDecryption_encode correct expansion encoded m.same
    simp only [List.length_cons]
    omega
  refine ⟨⟨decoded, nonempty, fits, ?_, beat⟩, fun zero => ?_⟩
  · show plaintext.length ≤ limit
    omega
  · rw [← number, zero] at next
    simp at next

theorem Matched.sealed {c c' : DataChannel} {t : DataFrameType} {plaintext : Bytes}
    {result : Except Failure (UInt64 × Bytes)} (m : Matched codec direction c)
    (done : c.sealFrame P t plaintext = (result, c')) : Matched codec direction c' := by
  cases result with
  | error err => exact (sealFrame_exhausted m done).2.1
  | ok pair =>
    obtain ⟨_, _, codec', encoded, rfl⟩ := DataChannel.sealFrame_ok done
    exact m.encrypted encoded pair.1

namespace Sender

theorem sealChunk_openable (correct : P.AeadCorrect) (expansion : P.AeadExpansion)
    {frameLimit : Int} (within : frameLimit ≤ limit) (fuel : Nat) {c : DataChannel}
    (m : Matched codec direction c) (chunk : Bytes) :
    Matched codec direction (sealChunk P frameLimit fuel c chunk).2 ∧
    ∀ sequence ciphertext size,
      (sealChunk P frameLimit fuel c chunk).1 = some (.ok (sequence, ciphertext, size)) →
      size ≤ chunk.length ∧ sequence ≠ 0 ∧ SealedFrame.Openable P codec direction limit
        ⟨sequence, .application, chunk.take size, ciphertext⟩ := by
  fun_induction sealChunk P frameLimit fuel c chunk with
  | case1 fuel c chunk err c' sealed => exact ⟨m.sealed sealed, by simp⟩
  | case2 fuel c chunk sequence ciphertext c' sealed fits =>
    obtain ⟨opens, numbered⟩ := sealFrame_openable correct expansion m sealed
      (show ciphertext.length ≤ limit by omega) (by simp)
    refine ⟨m.sealed sealed, fun _ _ _ same => ?_⟩
    cases same
    exact ⟨Nat.le_refl _, numbered, by rwa [List.take_length]⟩
  | case3 fuel c chunk sequence ciphertext c' sealed long short =>
    exact ⟨m.sealed sealed, by simp [fail]⟩
  | case4 c chunk sequence ciphertext c' sealed large long => exact ⟨m.sealed sealed, by simp⟩
  | case5 c chunk sequence ciphertext c' sealed large long fuel ih =>
    obtain ⟨matched, opens⟩ := ih (m.sealed sealed)
    refine ⟨matched, fun s ct size ok => ?_⟩
    obtain ⟨small, numbered, opened⟩ := opens s ct size ok
    rw [List.length_take] at small
    rw [List.take_take, Nat.min_eq_left (by omega)] at opened
    exact ⟨by omega, numbered, opened⟩

theorem writeAttempts_openable (correct : P.AeadCorrect) (expansion : P.AeadExpansion)
    {frameLimit : Int} (within : frameLimit ≤ limit) (p : Bytes) (fuel offset : Nat) {s : Sender}
    (m : Matched codec direction s.channel) :
    Matched codec direction (writeLoop P frameLimit p fuel offset s).2.channel ∧
    ∀ a ∈ writeAttempts P frameLimit p fuel offset s,
      a.sequence ≠ 0 ∧ a.toSealedFrame.Openable P codec direction limit := by
  induction fuel generalizing offset s with
  | zero =>
    unfold writeLoop writeAttempts
    split
    · exact ⟨m, by simp⟩
    · exact ⟨m, by simp⟩
  | succ fuel ih =>
    unfold writeLoop writeAttempts
    split
    · exact ⟨m, by simp⟩
    · simp only
      split
      · exact ⟨m, by simp⟩
      · generalize (p.drop offset).take _ = chunk
        obtain ⟨matched, opens⟩ := sealChunk_openable correct expansion within chunk.length m chunk
        rcases sealed : sealChunk P frameLimit chunk.length s.channel chunk with
          ⟨_ | _ | ⟨sequence, ciphertext, size⟩, c⟩
        · rw [sealed] at matched
          exact ⟨matched, by simp⟩
        · rw [sealed] at matched
          exact ⟨matched, by simp⟩
        · rw [sealed] at matched opens
          obtain ⟨_, opened⟩ := opens sequence ciphertext size rfl
          simp only
          rcases s.transport.write (encodeFrame sequence ciphertext) with ⟨⟨n, _ | err⟩, t⟩
          · obtain ⟨after, rest⟩ := ih (offset + size) (s := ⟨c, t⟩) matched
            exact ⟨after, List.forall_mem_cons.mpr ⟨opened, rest⟩⟩
          · exact ⟨matched, by simpa using opened⟩

theorem attempts_openable (correct : P.AeadCorrect) (expansion : P.AeadExpansion)
    {frameLimit : Int} (within : frameLimit ≤ limit) (ready timedOut : Bool) (fuel : Nat)
    (p : Bytes) {s : Sender} (m : Matched codec direction s.channel) :
    Matched codec direction (write P ready timedOut frameLimit fuel p s).2.channel ∧
    ∀ a ∈ attempts P ready timedOut frameLimit fuel p s,
      a.sequence ≠ 0 ∧ a.toSealedFrame.Openable P codec direction limit := by
  by_cases refused : ready = false ∨ timedOut ∨ p = []
  · obtain ⟨err, returned, _⟩ := write_refused (P := P) frameLimit fuel s refused
    rw [returned, attempts, if_pos refused]
    exact ⟨m, by simp⟩
  · rw [write_loop frameLimit fuel s refused, attempts, if_neg refused]
    exact writeAttempts_openable correct expansion within p fuel 0 m

theorem heartbeatAttempts_openable (correct : P.AeadCorrect) (expansion : P.AeadExpansion)
    (room : 41 ≤ limit) (current : Bool) {s : Sender} (m : Matched codec direction s.channel) :
    Matched codec direction (sendHeartbeat P current s).2.channel ∧
    ∀ a ∈ heartbeatAttempts P current s,
      a.sequence ≠ 0 ∧ a.toSealedFrame.Openable P codec direction limit := by
  unfold sendHeartbeat heartbeatAttempts
  split
  · exact ⟨m, by simp⟩
  · rcases sealed : s.channel.sealHeartbeat P with ⟨_ | ⟨sequence, ciphertext⟩, c⟩
    · exact ⟨m.sealed sealed, by simp⟩
    · obtain ⟨_, _, _, encoded, _⟩ := DataChannel.sealFrame_ok sealed
      have bound := (Codec.encodeWithEncryption_length expansion encoded).2.2
      simp only [List.length_singleton] at bound
      obtain ⟨opens, numbered⟩ := sealFrame_openable correct expansion m sealed
        (show ciphertext.length ≤ limit by omega) (by simp)
      simp only
      rcases s.transport.write (encodeFrame sequence ciphertext) with ⟨⟨n, _ | err⟩, t⟩
      · exact ⟨m.sealed sealed, by simpa using ⟨numbered, opens⟩⟩
      · exact ⟨m.sealed sealed, by simpa using ⟨numbered, opens⟩⟩

end Sender
end Opening
end Telekit
