import Telekit.PlainPrimitives
import Telekit.WriteAttempts

/-! What a call of `Write` does with its slice, for every frame limit a transport may
announce. The loop moves on by the limit less a reserve of 64 bytes, so a limit above
the reserve cuts the slice into pieces, one of 64 makes every piece empty, and one below
it makes the first slice expression run backwards. -/

namespace Telekit.WritePartition

def pieces (attempts : List Attempt) : List Bytes :=
  (attempts.filter Attempt.succeeded).map fun a => a.plaintext

def Partitioned (limit : Int) (p : Bytes) (outcome : WriteOutcome) (attempts : List Attempt) :
    Prop :=
  ∃ n err, outcome = .returned n err ∧ n ≤ p.length ∧ (pieces attempts).flatten = p.take n ∧
    (∀ piece ∈ pieces attempts, piece ≠ []) ∧
    (∀ a ∈ attempts, (a.ciphertext.length : Int) ≤ limit) ∧ (n = p.length ↔ err = none)

def PartitionedFrom (limit : Int) (p : Bytes) (offset : Nat) (outcome : WriteOutcome)
    (attempts : List Attempt) : Prop :=
  ∃ n err, outcome = .returned n err ∧ (offset ≤ n ∧ n ≤ p.length) ∧
    (pieces attempts).flatten = (p.drop offset).take (n - offset) ∧
    (∀ piece ∈ pieces attempts, piece ≠ []) ∧
    (∀ a ∈ attempts, (a.ciphertext.length : Int) ≤ limit) ∧ (n = p.length ↔ err = none)

section Loop
variable {limit : Int} {p : Bytes} {offset : Nat}

theorem PartitionedFrom.call {outcome : WriteOutcome} {attempts : List Attempt}
    (loop : PartitionedFrom limit p 0 outcome attempts) :
    Partitioned limit p outcome attempts := by
  obtain ⟨n, err, returned, ⟨_, inside⟩, content, rest⟩ := loop
  exact ⟨n, err, returned, inside, content, rest⟩

theorem PartitionedFrom.done (inside : offset ≤ p.length) (finished : p.length ≤ offset) :
    PartitionedFrom limit p offset (.returned p.length none) [] :=
  ⟨p.length, none, rfl, ⟨inside, Nat.le_refl _⟩,
    by simp [pieces, List.drop_eq_nil_of_le finished], by simp [pieces], by simp, by simp⟩

theorem PartitionedFrom.stopped (more : offset < p.length) (err : Failure)
    {attempts : List Attempt} (failed : ∀ a ∈ attempts, a.succeeded = false)
    (fits : ∀ a ∈ attempts, (a.ciphertext.length : Int) ≤ limit) :
    PartitionedFrom limit p offset (.returned offset (some err)) attempts := by
  have none_sent : pieces attempts = [] := by
    rw [pieces, List.filter_eq_nil_iff.mpr (by simpa using failed), List.map_nil]
  refine ⟨offset, some err, rfl, ⟨Nat.le_refl _, Nat.le_of_lt more⟩, ?_, ?_, fits, ?_⟩
  · simp [none_sent]
  · simp [none_sent]
  · simp only [reduceCtorEq, iff_false]
    omega

theorem PartitionedFrom.sent {outcome : WriteOutcome} {attempts : List Attempt} {a : Attempt}
    {size : Nat} (ok : a.succeeded = true) (piece : a.plaintext = (p.drop offset).take size)
    (some_bytes : 0 < size) (inside : offset + size ≤ p.length)
    (fits : (a.ciphertext.length : Int) ≤ limit)
    (next : PartitionedFrom limit p (offset + size) outcome attempts) :
    PartitionedFrom limit p offset outcome (a :: attempts) := by
  obtain ⟨n, err, returned, bounds, content, filled, small, whole⟩ := next
  have first : pieces (a :: attempts) = a.plaintext :: pieces attempts := by
    rw [pieces, List.filter_cons_of_pos ok, List.map_cons, pieces]
  have split : n - offset = size + (n - (offset + size)) := by omega
  refine ⟨n, err, returned, ⟨by omega, bounds.2⟩, ?_, ?_, ?_, whole⟩
  · rw [first, List.flatten_cons, content, piece, split, List.take_add, List.drop_drop]
  · rw [first, List.forall_mem_cons]
    refine ⟨fun empty => ?_, filled⟩
    have length := congrArg List.length (piece.symm.trans empty)
    simp only [List.length_take, List.length_drop, List.length_nil] at length
    omega
  · exact List.forall_mem_cons.mpr ⟨fits, small⟩

variable {P : Primitives}

theorem sealChunk_whole (expansion : P.AeadExpansion) (fuel : Nat) (c : DataChannel)
    (chunk : Bytes) (room : (chunk.length : Int) + 41 ≤ limit) :
    (∃ err c', Sender.sealChunk P limit fuel c chunk = (some (.error err), c')) ∨
    ∃ sequence ciphertext c', (ciphertext.length : Int) ≤ limit ∧
      Sender.sealChunk P limit fuel c chunk =
        (some (.ok (sequence, ciphertext, chunk.length)), c') := by
  rw [Sender.sealChunk_eq expansion fuel c chunk room]
  cases sealed : c.sealApplication P chunk with
  | mk result c' =>
    cases result with
    | error err => exact Or.inl ⟨err, c', rfl⟩
    | ok pair =>
      obtain ⟨_, _, codec', encoded, _⟩ := DataChannel.sealFrame_ok sealed
      have bound := (Codec.encodeWithEncryption_length expansion encoded).2.2
      simp only [List.length_cons] at bound
      exact Or.inr ⟨pair.1, pair.2, c', by omega, rfl⟩

theorem writeLoop_partitions (expansion : P.AeadExpansion) (above : 64 < limit) {fuel : Nat}
    {s : Sender} (inside : offset ≤ p.length) (enough : p.length ≤ offset + fuel) :
    PartitionedFrom limit p offset (Sender.writeLoop P limit p fuel offset s).1
      (Sender.writeAttempts P limit p fuel offset s) := by
  induction fuel generalizing offset s with
  | zero =>
    have done : p.length ≤ offset := by omega
    rw [Sender.writeLoop, Sender.writeAttempts, if_pos done, if_pos done]
    exact .done inside done
  | succ fuel ih =>
    by_cases done : p.length ≤ offset
    · rw [Sender.writeLoop, Sender.writeAttempts, if_pos done, if_pos done]
      exact .done inside done
    · have more : offset < p.length := Nat.lt_of_not_le done
      have forward : ¬ min (offset + limit - 64) (p.length : Int) < offset := by omega
      rw [Sender.writeLoop, Sender.writeAttempts, if_neg done, if_neg done]
      simp only
      rw [if_neg forward, if_neg forward]
      generalize size_eq : (min (offset + limit - 64) (p.length : Int) - offset).toNat = size
      have length : ((p.drop offset).take size).length = size := by
        simp only [List.length_take, List.length_drop]
        omega
      have room : (((p.drop offset).take size).length : Int) + 41 ≤ limit := by omega
      rcases sealChunk_whole expansion ((p.drop offset).take size).length s.channel
          ((p.drop offset).take size) room with
        ⟨err, c, sealed⟩ | ⟨sequence, ciphertext, c, fits, sealed⟩
      · rw [sealed]
        exact .stopped more err (by simp) (by simp)
      · rw [sealed, length]
        simp only
        rcases s.transport.write (encodeFrame sequence ciphertext) with ⟨⟨n, _ | err⟩, t⟩
        · exact .sent rfl (by simp only [List.take_take, Nat.min_self]) (by omega) (by omega) fits
            (ih (by omega) (by omega))
        · exact .stopped more err (by simp [Attempt.succeeded]) (by simpa using fits)

/-- Below the reserve the first slice expression is out of range. -/
theorem writeLoop_panics (below : limit < 64) (more : p ≠ []) (fuel : Nat) (s : Sender) :
    (Sender.writeLoop P limit p (fuel + 1) 0 s).1 = .panicked := by
  have some_bytes : 0 < p.length := List.length_pos_iff.mpr more
  have backward : min (((0 : Nat) : Int) + limit - 64) (p.length : Int) < ((0 : Nat) : Int) := by
    omega
  rw [Sender.writeLoop, if_neg (by omega)]
  simp only
  rw [if_pos backward]

def FirstFrameSent (P : Primitives) (s : Sender) : Prop :=
  (∃ sequence ciphertext c, s.channel.sealApplication P [] = (.ok (sequence, ciphertext), c)) ∧
    ∀ r ∈ s.transport.results.head?, r.2 = none

theorem FirstFrameSent.written {s : Sender} (sent : FirstFrameSent P s) (frame : Bytes) :
    ∃ n t, s.transport.write frame = ((n, none), t) := by
  have ok := sent.2
  unfold Transport.write
  cases results : s.transport.results with
  | nil => exact ⟨_, _, rfl⟩
  | cons r rest =>
    rw [results] at ok
    have success : r.2 = none := ok r rfl
    exact ⟨r.1, _, by rw [← success]⟩

theorem empty_piece_sent (expansion : P.AeadExpansion) {s : Sender} (sent : FirstFrameSent P s)
    (more : p ≠ []) (fuel : Nat) :
    [] ∈ pieces (Sender.writeAttempts P 64 p (fuel + 1) 0 s) := by
  have some_bytes : 0 < p.length := List.length_pos_iff.mpr more
  obtain ⟨sequence, ciphertext, c, sealed⟩ := sent.1
  obtain ⟨n, t, written⟩ := sent.written (encodeFrame sequence ciphertext)
  have size : (min (((0 : Nat) : Int) + 64 - 64) (p.length : Int) - ((0 : Nat) : Int)).toNat = 0 := by
    omega
  have forward : ¬ min (((0 : Nat) : Int) + 64 - 64) (p.length : Int) < ((0 : Nat) : Int) := by
    omega
  rw [Sender.writeAttempts, if_neg (by omega)]
  simp only
  rw [if_neg forward, size, List.take_zero, Sender.sealChunk_eq expansion _ _ _ (by simp), sealed]
  simp only
  rw [written]
  exact List.mem_map.mpr ⟨_, List.mem_cons_self, rfl⟩

end Loop

variable {P : Primitives}

def Completes (P : Primitives) (ready timedOut : Bool) (limit : Int) (p : Bytes) (s : Sender) :
    Prop :=
  ∃ bound, ∀ fuel, bound ≤ fuel →
    Partitioned limit p (s.write P ready timedOut limit fuel p).1
      (s.attempts P ready timedOut limit fuel p)

theorem completes_of_refused {ready timedOut : Bool} {p : Bytes} (limit : Int) (s : Sender)
    (refused : ready = false ∨ timedOut ∨ p = []) :
    Completes P ready timedOut limit p s ↔ (p = [] → ready = true ∧ timedOut = false) := by
  have nothing (fuel : Nat) : s.attempts P ready timedOut limit fuel p = [] := if_pos refused
  constructor
  · rintro ⟨bound, partitioned⟩ rfl
    obtain ⟨n, err, returned, _, _, _, _, whole⟩ := partitioned bound (Nat.le_refl _)
    obtain ⟨err', returned', clean⟩ := Sender.write_refused (P := P) limit bound s refused
    rw [returned'] at returned
    cases returned
    exact clean.mp (whole.mp rfl)
  · intro answered
    refine ⟨0, fun fuel _ => ?_⟩
    obtain ⟨err, returned, clean⟩ := Sender.write_refused (P := P) limit fuel s refused
    rw [returned, nothing]
    refine ⟨0, err, rfl, Nat.zero_le _, by simp [pieces], by simp [pieces], by simp, ?_⟩
    rw [clean]
    constructor
    · intro empty
      exact answered (List.eq_nil_of_length_eq_zero empty.symm)
    · rintro ⟨rfl, rfl⟩
      have empty : p = [] := by simpa using refused
      rw [empty, List.length_nil]

theorem completes_of_above (expansion : P.AeadExpansion) {ready timedOut : Bool} {p : Bytes}
    {limit : Int} (above : 64 < limit) (s : Sender)
    (accepted : ¬ (ready = false ∨ timedOut ∨ p = [])) :
    Completes P ready timedOut limit p s := by
  refine ⟨p.length, fun fuel enough => ?_⟩
  rw [Sender.write_loop limit fuel s accepted, Sender.attempts, if_neg accepted]
  exact (writeLoop_partitions expansion above (Nat.zero_le _) (by omega)).call

theorem not_completes (expansion : P.AeadExpansion) {ready timedOut : Bool} {p : Bytes}
    {limit : Int} (small : limit ≤ 64) {s : Sender}
    (accepted : ¬ (ready = false ∨ timedOut ∨ p = [])) (sent : limit = 64 → FirstFrameSent P s) :
    ¬ Completes P ready timedOut limit p s := by
  rintro ⟨bound, partitioned⟩
  have more : p ≠ [] := fun empty => accepted (Or.inr (Or.inr empty))
  obtain ⟨n, err, returned, _, _, filled, _⟩ := partitioned (bound + 1) (Nat.le_succ _)
  rw [Sender.write_loop limit (bound + 1) s accepted] at returned
  rw [Sender.attempts, if_neg accepted] at filled
  rcases Int.lt_or_eq_of_le small with below | rfl
  · rw [writeLoop_panics below more] at returned
    cases returned
  · exact filled [] (empty_piece_sent expansion (sent rfl) more bound) rfl

theorem effectiveFrameLimit_above {maxFrameSize : Int} (transportLimit : Int)
    (accepted : 1024 ≤ maxFrameSize) :
    64 < effectiveFrameLimit maxFrameSize transportLimit ↔
      transportLimit ≤ 0 ∨ 64 < transportLimit := by
  unfold effectiveFrameLimit
  split_ifs with smaller
  · omega
  · omega

/-- `Write` returns, and its frames are the slice it counts cut into pieces, when the
transport announces no limit or one above the reserve. With a smaller limit every call
that is not refused goes wrong. -/
theorem write_partitions_iff (expansion : P.AeadExpansion) (maxFrameSize transportLimit : Int)
    (valid : 1024 ≤ maxFrameSize) (ready timedOut : Bool) (p : Bytes) (s : Sender) :
    ((p = [] → ready = true ∧ timedOut = false) ∧
        (p ≠ [] → ready = false ∨ timedOut = true ∨ transportLimit ≤ 0 ∨ 64 < transportLimit) →
      Completes P ready timedOut (effectiveFrameLimit maxFrameSize transportLimit) p s) ∧
    ((transportLimit = 64 → FirstFrameSent P s) →
      Completes P ready timedOut (effectiveFrameLimit maxFrameSize transportLimit) p s →
      (p = [] → ready = true ∧ timedOut = false) ∧
        (p ≠ [] → ready = false ∨ timedOut = true ∨ transportLimit ≤ 0 ∨ 64 < transportLimit)) := by
  have limit := effectiveFrameLimit_above transportLimit valid
  by_cases refused : ready = false ∨ timedOut ∨ p = []
  · rw [completes_of_refused _ s refused]
    refine ⟨fun condition => condition.1, fun _ answered => ⟨answered, fun more => ?_⟩⟩
    rcases refused with unready | late | empty
    · exact Or.inl unready
    · exact Or.inr (Or.inl late)
    · exact absurd empty more
  · have more : p ≠ [] := fun empty => refused (Or.inr (Or.inr empty))
    by_cases above : 64 < effectiveFrameLimit maxFrameSize transportLimit
    · refine ⟨fun _ => completes_of_above expansion above s refused, fun _ _ => ⟨?_, fun _ => ?_⟩⟩
      · exact fun empty => absurd empty more
      · exact Or.inr (Or.inr (limit.mp above))
    · have small : 0 < transportLimit ∧ transportLimit ≤ 64 := by
        rw [limit] at above
        omega
      have same : effectiveFrameLimit maxFrameSize transportLimit = transportLimit :=
        if_pos ⟨small.1, by omega⟩
      rw [same]
      refine ⟨fun condition => ?_, fun sent completes => ?_⟩
      · rcases condition.2 more with unready | late | outside
        · exact absurd (Or.inl unready) refused
        · exact absurd (Or.inr (Or.inl late)) refused
        · omega
      · exact absurd completes (not_completes expansion small.2 refused sent)

theorem write_partitions_iff_sample : ∃ channel,
    DataChannel.new Plain.primitives .chacha20Poly1305 [7] [] .client UInt8.ofNat UInt8.ofNat =
      .ok channel ∧
    Completes Plain.primitives true false (effectiveFrameLimit 1024 66) [1, 2, 3]
      ⟨channel, ⟨[], [(60, none), (5, some .transport)]⟩⟩ ∧
    ¬ Completes Plain.primitives true false (effectiveFrameLimit 1024 64) [1, 2, 3]
      ⟨channel, ⟨[], []⟩⟩ := by
  have hc : DataChannel.new Plain.primitives .chacha20Poly1305 [7] [] .client UInt8.ofNat
      UInt8.ofNat = .ok _ := rfl
  refine ⟨_, hc, ?_, fun completes => ?_⟩
  · exact (write_partitions_iff Plain.aeadExpansion 1024 66 (by decide) true false [1, 2, 3] _).1
      ⟨by simp, by simp⟩
  · have condition := (write_partitions_iff Plain.aeadExpansion 1024 64 (by decide) true false
      [1, 2, 3] _).2 (fun _ => ⟨⟨_, _, _, rfl⟩, by simp⟩) completes
    simpa using condition.2

/-- A limit of 63 makes `Write` panic; with 64 it sends one empty frame after another. -/
theorem write_with_small_limit : ∃ channel,
    DataChannel.new Plain.primitives .chacha20Poly1305 [7] [] .client UInt8.ofNat UInt8.ofNat =
      .ok channel ∧
    (Sender.write Plain.primitives true false (effectiveFrameLimit 1024 63) 10 [1]
      ⟨channel, ⟨[], []⟩⟩).1 = .panicked ∧
    (Sender.write Plain.primitives true false (effectiveFrameLimit 1024 64) 10 [1]
      ⟨channel, ⟨[], []⟩⟩).1 = .unfinished ∧
    pieces (Sender.attempts Plain.primitives true false (effectiveFrameLimit 1024 64) 10 [1]
      ⟨channel, ⟨[], []⟩⟩) = List.replicate 10 [] := by
  have hc : DataChannel.new Plain.primitives .chacha20Poly1305 [7] [] .client UInt8.ofNat
      UInt8.ofNat = .ok _ := rfl
  exact ⟨_, hc, by decide +kernel⟩

end Telekit.WritePartition
